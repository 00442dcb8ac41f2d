import ColumnLint.Sql.Extent
import ColumnLint.Sql.Grammar.Basic
import ColumnLint.Sql.Printer
import ColumnLint.Sql.Reserved

/-
  Names, lists and arguments: identifiers, lists between commas, stars with and without a prefix,
  arguments of calls, and names of objects.
-/

namespace ColumnLint.Sql.Grammar

open ColumnLint.Text ColumnLint.Sql.Parser

/-- The identifier that a token may stand for. -/
def identOf? (x : Lexeme) : Option Ident :=
  match x.token with
  | .word text quote _ => some ⟨text, quote, some x.region⟩
  | .literal .single text => some ⟨text, some '\'', none⟩
  | .literal .double text => some ⟨text, some '"', none⟩
  | _ => none

def identifier : Parser Ident := do
  match (← peek).bind identOf? with
  | some i =>
    skip
    return i
  | none => expected "identifier"

/-- After an item of a list: takes a comma and tells whether the list is over. Where a comma may
end a list, it does so before a closing token and before a reserved word; whether a word is
reserved may depend on the token behind it. -/
def listEnds (trailing : Bool) (reserved : String → Option Token → Bool) : Parser Bool := do
  if !(← symbol ",") then return true
  else if trailing then
    match ← peekToken with
    | none => return true
    | some (.word _ _ k) =>
      let behind := (← peekAt 1).map Lexeme.token
      return reserved k behind
    | some (.symbol s) => return [")", ";", "]", "\x7d"].contains s
    | some _ => return false
  else return false

/-- One item or more between commas. -/
def listOf {α : Type} (trailing : Bool) (reserved : String → Option Token → Bool)
    (item : Parser α) : Parser (List α) := do
  let first ← item
  let rest ← repeatStep (fun items => do
    if ← listEnds trailing reserved then return none
    else return some ((← item) :: items)) []
  return first :: rest.reverse

/-- A word that cannot be the alias of a projection item. -/
def reservedWord (g : Grammar) (k : String) (behind : Option Token) : Bool :=
  !g.dialect.aliasesColumn k behind

/-- One item or more between commas, by the dialect's rule on commas. -/
def commaList {α : Type} (g : Grammar) (item : Parser α) : Parser (List α) :=
  listOf g.dialect.trailingCommas (reservedWord g) item

/-- Any number of items between commas, before a closing symbol. -/
def commaList0 {α : Type} (g : Grammar) (close : String) (item : Parser α) :
    Parser (List α) := do
  if ← atSymbol close then return []
  else if g.dialect.trailingCommas && (← atSymbol ",")
      && (← atSymbolAt 1 close) then
    skip
    return []
  else commaList g item

/-- An expression of any kind. -/
def anyExpr (g : Grammar) : Parser Expr := g.expr 0

/-- Behind the first part of a name: a star with that prefix, or nothing if no star follows. -/
def prefixedStar (first : Ident) : Parser (Option Expr) := do
  let (_, star) ← repeatStep (fun (parts, star) => do
    if star.isSome then return none
    else if ← symbol "." then
      match ← peek with
      | some x =>
        match x.token with
        | .word text quote _ =>
          skip
          return some (⟨text, quote, some x.region⟩ :: parts, none)
        | .literal .single text =>
          skip
          return some (⟨text, some '\'', none⟩ :: parts, none)
        | .symbol "*" =>
          skip
          return some (parts, some (Expr.starOf (parts.reverse.map .ident) (some x.region)))
        | _ => expected "an identifier or a '*' after '.'"
      | none => expected "an identifier or a '*' after '.'"
    else return none) ([first], none)
  return star

/-- A star, a star with a prefix, or an expression. -/
def starOrExpr (g : Grammar) : Parser Expr := do
  match ← peek with
  | none => anyExpr g
  | some x =>
    let dotted ← atSymbolAt 1 "."
    let first := match x.token with
      | .word .. | .literal .single _ => if dotted then identOf? x else none
      | _ => none
    if x.token.isSymbol "*" then
      skip
      return .star (some x.region)
    else
      match first with
      | none => anyExpr g
      | some i =>
        let start ← get
        skip
        match ← prefixedStar i with
        | some e => return e
        | none =>
          set start
          anyExpr g

/-- The sign between the name and the value of an argument. -/
def argumentSign (g : Grammar) : Parser String := do
  let d := g.dialect
  if ← word "VALUE" then return " VALUE "
  else
    let sign := match ← peekToken with
      | some (.symbol "=>") => if d.arrowArguments then some " => " else none
      | some (.symbol "=") => if d.equalArguments then some " = " else none
      | some (.symbol ":=") => if d.assignArguments then some " := " else none
      | some (.symbol ":") => if d.colonArguments then some " : " else none
      | _ => none
    match sign with
    | some s =>
      skip
      return s
    | none => expected "argument operator"

/-- An argument of a call, by name or by place. -/
def argument (g : Grammar) : Parser Expr := do
  let named ← attempt do
    let name ←
      if g.dialect.expressionArgumentNames then anyExpr g
      else pure (Expr.column [← identifier])
    let sign ← argumentSign g
    return Expr.named name sign (← starOrExpr g)
  match named with
  | some e => return e
  | none => starOrExpr g

/-- Arguments up to the closing parenthesis, which is taken. -/
def arguments (g : Grammar) : Parser (List Expr) := do
  if ← symbol ")" then return []
  else
    let items ← commaList g (argument g)
    expectSymbol ")"
    return items

/-- A part of a table's name that may contain hyphens. The flag tells that a period was taken with
it. A part that ends in a number ends the text or stands before a period. -/
def hyphenatedIdentifier : Parser (Ident × Bool) := do
  let first ← identifier
  let hyphen : Parser Bool := do
    match ← peek with
    | some x => return x.token.isSymbol "-" && x.gap.isNone && first.region.isSome
    | none => return false
  if first.quote.isSome then return (first, false)
  else
    let (name, period, endsText) ← repeatStep (fun (name, period, _) => do
      if period || !(← hyphen) then return none
      else
        skip
        match ← peek with
        | none => expectedClose "continuation of hyphenated identifier"
        | some x =>
          if x.gap.isSome then expectedClose "continuation of hyphenated identifier"
          else
            match x.token with
            | .word text none _ =>
              skip
              return some (name ++ "-" ++ text, false, false)
            | .number digits false =>
              let cs := digits.toList
              if cs.getLast? == some '.' then
                let whole := cs.takeWhile (· != '.')
                if whole.isEmpty || !(whole.all Char.isDigit) then
                  expected "continuation of hyphenated identifier"
                else
                  skip
                  return some (name ++ "-" ++ String.ofList whole, true, false)
              else
                skip
                return some (name ++ "-" ++ digits, false, !(← atSymbol "."))
            | _ => expected "continuation of hyphenated identifier") (first.value, false, false)
    if endsText && (← peek).isSome then expected "whitespace following hyphenated identifier"
    else return (⟨name, none, first.region⟩, period)

/-- The parts of a quoted name that contains periods. -/
def splitPart : NamePart → List NamePart
  | .ident i => (i.value.splitOn ".").map fun v => .ident ⟨v, i.quote, i.region⟩
  | part => [part]

/-- A name's part that contains a period. -/
def hasPeriod : NamePart → Bool
  | .ident i => i.value.toList.contains '.'
  | _ => false

/-- The name of an object; in the place of a table it may contain hyphens. -/
def objectName (g : Grammar) (forTable : Bool) : Parser Name := do
  let d := g.dialect
  let part (parts : List NamePart) : Parser (NamePart × Bool) := do
    if d.hyphenatedNames && forTable then
      let (i, period) ← hyphenatedIdentifier
      return (.ident i, (← symbol ".") || period)
    else if d.doubleDots && parts.length == 1 && (← atSymbol ".") then
      return (.ident ⟨"", none, none⟩, ← symbol ".")
    else
      let i ← identifier
      let computes := d.computedNames && i.quote.isNone
        && lower i.value.toList == "identifier".toList
        && parts.all fun | .call .. => false | .ident _ => true
      if computes then
        expectSymbol "("
        let items ← commaList0 g ")" (argument g)
        expectSymbol ")"
        return (.call i items, ← symbol ".")
      else return (.ident i, ← symbol ".")
  let (parts, _) ← repeatStep (fun (parts, more) => do
    if more then
      let (p, more) ← part parts
      return some (p :: parts, more)
    else return none) ([], true)
  let name := parts.reverse
  if d.hyphenatedNames && name.any hasPeriod then return name.flatMap splitPart
  else return name

/-- A name's part as parts of a form, with the arguments of a call set aside. -/
def partParts : NamePart → List Part
  | .ident i => [.text i.print]
  | .call f items => Part.setAside (Part.enclosed (f.print ++ "(") items ")")

/-- A name as parts of a form. -/
def nameParts (name : Name) : List Part := Part.joined "." (name.map partParts)

/-- A name as an expression that prints alike and names no column. -/
def nameExpr (name : Name) : Expr := assembleOver (.marked (Name.extent name)) (nameParts name)

/-- A list of columns in parentheses. -/
def columnList {α : Type} (g : Grammar) (optional allowEmpty : Bool) (item : Parser α) :
    Parser (List α) := do
  if ← symbol "(" then
    if allowEmpty && (← atSymbol ")") then
      skip
      return []
    else
      let items ← commaList g item
      expectSymbol ")"
      return items
  else if optional then return []
  else expected "a list of columns in parentheses"

end ColumnLint.Sql.Grammar
