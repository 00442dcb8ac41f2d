import ColumnLint.Sql.Grammar.Phrase

/-
  Operands: what an expression begins with, before any operator.
-/

namespace ColumnLint.Sql.Grammar

open ColumnLint.Text ColumnLint.Sql.Parser

/-- Words that call a function without parentheses in some dialects. -/
def bareFunctions : List String := ["CURRENT_CATALOG", "CURRENT_USER", "SESSION_USER", "USER"]

/-- Words for the time of day, which may take arguments. -/
def timeFunctions : List String :=
  ["CURRENT_TIMESTAMP", "CURRENT_TIME", "CURRENT_DATE", "LOCALTIME", "LOCALTIMESTAMP"]

/-- Words that turn a literal into a shape. -/
def shapeWords : List String := ["CIRCLE", "BOX", "PATH", "LINE", "LSEG", "POINT", "POLYGON"]

/-- An outer join mark follows. -/
def atOuterJoinMark (g : Grammar) : Parser Bool := do
  if g.dialect.outerJoinMarks then
    return (← atSymbol "(") && (← atSymbolAt 1 "+") && (← atSymbolAt 2 ")")
  else return false

/-- An expression by the meaning of the keyword that starts it, behind the keyword; nothing if the
word has no meaning of its own. `inner` reads an operand. -/
def keywordExpr (g : Grammar) (inner : Parser Expr) (i : Ident) (region : Region) (k : String) :
    Parser (Option Expr) := do
  let d := g.dialect
  let constant (text : String) : Parser (Option Expr) :=
    return some (.constant text (some region))
  let some' (p : Parser Expr) : Parser (Option Expr) := do return some (← p)
  if k == "TRUE" && d.booleans then constant "true"
  else if k == "FALSE" && d.booleans then constant "false"
  else if k == "NULL" then constant "NULL"
  else if bareFunctions.contains k && d.oneOf [.postgres, .generic] then
    return some (callForm [.ident i] [])
  else if timeFunctions.contains k then
    if ← symbol "(" then
      let a ← callArguments g
      return some (callForm [.ident i] ([.text "("] ++ a.parts ++ [.text ")"]))
    else return some (callForm [.ident i] [])
  else if k == "CASE" then some' (caseExpr g region)
  else if k == "CONVERT" then some' (convertExpr g "CONVERT")
  else if k == "TRY_CONVERT" && d.tryConvert then some' (convertExpr g "TRY_CONVERT")
  else if k == "CAST" || k == "TRY_CAST" || k == "SAFE_CAST" then some' (castExpr g k)
  else if k == "EXISTS" && (!d.oneOf [.databricks] || (← atOneOfAt 1 ["SELECT", "WITH"])) then
    some' (existsExpr g "EXISTS ")
  else if k == "EXTRACT" then some' (extractExpr g)
  else if k == "CEIL" || k == "FLOOR" then some' (roundExpr g k)
  else if k == "POSITION" && (← atSymbol "(") then some' (positionExpr g i)
  else if k == "SUBSTR" || k == "SUBSTRING" then some' (substringExpr g k)
  else if k == "OVERLAY" then some' (overlayExpr g)
  else if k == "TRIM" then some' (trimExpr g)
  else if k == "INTERVAL" then
    some' (interval g (if d.intervalUnits then anyExpr g else inner))
  else if k == "ARRAY" && (← atSymbol "[") then
    skip
    some' (arrayExpr g "ARRAY")
  else if k == "ARRAY" && (← atSymbol "(") && !d.oneOf [.clickhouse, .databricks] then
    let q ← parenthesized g.query
    return some (callForm [.ident i] [.operand (.query q)])
  else if k == "NOT" then some' (notExpr g)
  else if k == "MATCH" && d.matchAgainst then some' (matchExpr g)
  else if k == "STRUCT" && d.structs then some' (structExpr g)
  else if k == "PRIOR" && (← mode) == .connectBy then
    let e ← g.expr (Binding.sum.level d)
    return some (phrase ["PRIOR ", ""] [e])
  else if k == "MAP" && d.maps && (← atSymbol "\x7b") then some' (mapExpr g)
  else if d.geometry && shapeWords.contains k then
    let v ← value g
    return some (.constant (k ++ " " ++ v.text) v.region)
  else return none

/-- An expression that starts with a word of no meaning of its own, behind the word. -/
def plainWordExpr (g : Grammar) (i : Ident) : Parser Expr := do
  let isStringNext := match ← peekToken with
    | some (.literal .single _) | some (.literal .double _) | some (.literal .hex _) => true
    | _ => false
  if (← atSymbol "(") && !(← atOuterJoinMark g) then call g [.ident i]
  else if isStringNext && i.value.toList.head? == some '_' then
    match ← next with
    | some x =>
      let text := match x.token with
        | .literal form s => literalText form s
        | t => t.render
      return phrase [i.print ++ " ", ""] [.constant text (some x.region)]
    | none => expected "a string value"
  else if g.dialect.lambdas && (← atSymbol "->") then
    skip
    let e ← anyExpr g
    return assembleOver .unknown [.text (i.print ++ " -> "), .operand e]
  else return .column [i]

/-- `COLLATE` and a name behind an operand, if they follow. -/
def collated (g : Grammar) (e : Expr) : Parser Expr := do
  if ← given ((← mode) != .columnDefinition) (word "COLLATE") then
    return assemble ([.operand e, .text " COLLATE "] ++ nameParts (← objectName g false))
  else return e

/-- What follows an opening parenthesis: a query, a function of several parameters, or
expressions. A collation may follow all but a function. -/
def groupedExpr (g : Grammar) : Parser Expr := do
  if ← atOneOf ["SELECT", "WITH"] then
    let q ← g.query
    expectSymbol ")"
    collated g (.query q)
  else
    let function ←
      if g.dialect.lambdas then
        attempt do
          let names ← commaList g identifier
          expectSymbol ")"
          expectSymbol "->"
          let e ← anyExpr g
          let lead := "(" ++ ", ".intercalate (names.map Ident.print) ++ ") -> "
          return assembleOver .unknown [.text lead, .operand e]
      else pure none
    match function with
    | some e => return e
    | none =>
      let items ← commaList g (anyExpr g)
      expectSymbol ")"
      collated g (assemble (Part.enclosed "(" items ")"))

/-- A sign before an operand, and the level at which the operand is read. -/
def sign? (d : Dialect) (s : String) : Option Binding :=
  if s == "-" || s == "+" then some .product
  else if s == "!" && d.bangNot then some .negation
  else if d.oneOf [.postgres] && ["~", "!!", "|/", "||/", "@"].contains s then some .sum
  else if d.geometry && ["#", "@-@", "@@", "?-", "?|"].contains s then some .sum
  else none

/-- A literal with its type before it, such as `DATE '…'`. `inner` reads an operand. -/
def typedLiteral (g : Grammar) (inner : Parser Expr) : Parser Expr := do
  let t ← dataType g
  match t.kind with
  | .interval => interval g (if g.dialect.intervalUnits then anyExpr g else inner)
  | .custom => expected "a literal with its type"
  | .builtin =>
    let v ← value g
    return assembleOver (.marked v.region) (t.parts ++ [.text (" " ++ v.text)])

/-- An operand, with enough `fuel` for intervals inside intervals. -/
def operandWithin (g : Grammar) : Nat → Parser Expr
  | 0 => expected "an expression"
  | fuel + 1 => do
    let d := g.dialect
    let inner := operandWithin g fuel
    match ← attempt (typedLiteral g inner) with
    | some e => return e
    | none =>
      match ← peek with
      | none => expected "an expression"
      | some x =>
        match x.token with
        | .word text quote k =>
          let i : Ident := ⟨text, quote, some x.region⟩
          skip
          let start ← get
          match (keywordExpr g inner i x.region k).run start with
          | .ok (some e, s) =>
            set s
            collated g e
          | .ok (none, s) =>
            set s
            collated g (← plainWordExpr g i)
          | .error f =>
            let reserved := Keyword.notColumn.contains k
              && !(d.oneOf [.snowflake] && k == "INTERVAL")
            if reserved then fail f
            else
              match (plainWordExpr g i).run start with
              | .ok (e, s) =>
                set s
                return e
              | .error _ => fail f
        | .literal .escape _ =>
          if d.oneOf [.postgres, .generic] then collated g (← value g).expr
          else expected "an expression"
        | .literal .. | .number .. | .placeholder _ => collated g (← value g).expr
        | .operator _ => expected "an expression"
        | .symbol s =>
          match sign? d s with
          | some b =>
            skip
            let e ← g.expr (b.level d)
            collated g (phrase [s, ""] [e])
          | none =>
            if s == "[" then
              skip
              collated g (← arrayExpr g "")
            else if s == "(" then
              skip
              groupedExpr g
            else if s == ":" || s == "@" then collated g (← value g).expr
            else if s == "\x7b" then collated g (← bracedExpr g)
            else expected "an expression"

/-- An operand of any kind. -/
def anyOperand (g : Grammar) : Parser Expr := do operandWithin g ((← get).rest.length + 1)

end ColumnLint.Sql.Grammar
