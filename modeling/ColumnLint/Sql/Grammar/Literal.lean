import ColumnLint.Sql.Grammar.Name

/-
  Literals and placeholders.
-/

namespace ColumnLint.Sql.Grammar

open ColumnLint.Text ColumnLint.Sql.Parser

/-- A literal or placeholder: how it prints, where it stands, and whether it is a number. -/
structure Value where
  text : String
  region : Option Region
  isNumber : Bool

def Value.expr (v : Value) : Expr := .constant v.text v.region

/-- How a string literal prints in a tree: quotes inside are written twice. -/
def literalText (form : Quotation) (s : String) : String :=
  match form with
  | .single => quotedPrint '\'' s
  | .double => quotedPrint '"' s
  | form => form.wrap s

/-- The texts of string literals that follow one another. -/
def moreStrings (g : Grammar) : Parser String := do
  if g.dialect.joinsStrings then
    repeatStep (fun acc => do
      match ← peekToken with
      | some (.literal .single s) | some (.literal .double s) =>
        skip
        return some (acc ++ s)
      | _ => return none) ""
  else return ""

/-- A literal or placeholder. -/
def value (g : Grammar) : Parser Value := do
  match ← peek with
  | none => expected "a value"
  | some x =>
    let constant (text : String) (isNumber : Bool) : Parser Value := do
      skip
      return ⟨text, some x.region, isNumber⟩
    match x.token with
    | .word text quote k =>
      if k == "TRUE" && g.dialect.booleans then constant "true" false
      else if k == "FALSE" && g.dialect.booleans then constant "false" false
      else if k == "NULL" then constant "NULL" false
      else
        match quote with
        | some '"' => constant (quotedPrint '"' text) false
        | some '\'' => constant (quotedPrint '\'' text) false
        | some _ => expected "A value?"
        | none => expected "a concrete value"
    | .number digits long => constant (if long then digits ++ "L" else digits) true
    | .literal form s =>
      if form == .escape && !g.dialect.oneOf [.generic, .postgres] then expected "a value"
      skip
      let more ←
        match form with
        | .single | .double => moreStrings g
        | _ => pure ""
      return ⟨literalText form (s ++ more), some x.region, false⟩
    | .placeholder s => constant s false
    | .symbol s =>
      if s == ":" || s == "@" then
        skip
        match ← peek with
        | none => expectedClose "placeholder"
        | some y =>
          if y.gap.isSome then expectedClose "placeholder"
          else
            let done (name : String) : Parser Value := do
              skip
              return ⟨s ++ name, some ⟨x.region.start, y.region.stop⟩, false⟩
            match y.token with
            | .word name _ _ => done name
            | .number name false => done name
            | _ => expected "placeholder"
      else expected "a value"
    | .operator _ => expected "a value"

/-- A number literal or placeholder, as sizes are given. -/
def numberValue (g : Grammar) : Parser Value := do
  let (v, taken) ← taking (value g)
  let isPlaceholder := match taken.head?.map Lexeme.token with
    | some (.placeholder _) | some (.symbol _) => true
    | _ => false
  if v.isNumber || isPlaceholder then return v
  else fail (.expected "literal number" taken.getLast?)

/-- A number literal or placeholder behind an optional sign. -/
def signedNumber (g : Grammar) : Parser Expr := do
  if ← symbol "+" then return phrase ["+", ""] [(← numberValue g).expr]
  else if ← symbol "-" then return phrase ["-", ""] [(← numberValue g).expr]
  else return (← numberValue g).expr

/-- The value of decimal digits that stays below a bound, read from the left, or why they have
none. -/
def boundedNumber (bound : Nat) : List Char → Nat → Except String Nat
  | [], n => .ok n
  | c :: cs, n =>
    if !c.isDigit then .error "invalid digit found in string"
    else
      let n := 10 * n + (c.toNat - 48)
      if n < bound then boundedNumber bound cs n
      else .error "number too large to fit in target type"

/-- The value of a number token below a bound, whose kind of number has a name. -/
def readNumber (bound : Nat) (kind : String) (digits : String) (place : Location) : Parser Nat :=
  match boundedNumber bound digits.toList 0 with
  | .ok n => pure n
  | .error fault =>
    fail (.broken ("Could not parse '" ++ digits ++ "' as " ++ kind ++ ": " ++ fault) (some place))

/-- A whole number of 64 bits. -/
def wholeNumber : Parser String := do
  match ← peek with
  | some x =>
    match x.token with
    | .number digits _ =>
      let n ← readNumber (Nat.pow 2 64) "u64" digits x.region.start
      skip
      return toString n
    | _ => expected "literal int"
  | none => expected "literal int"

/-- A whole number with an optional sign, of 64 bits with the sign. -/
def signedWholeNumber : Parser String := do
  let negative ← symbol "-"
  if !negative then let _ ← symbol "+"
  match ← peek with
  | some x =>
    match x.token with
    | .number digits _ =>
      let n ← readNumber (Nat.pow 2 63) "i64" digits x.region.start
      skip
      return if negative && n != 0 then "-" ++ toString n else toString n
    | _ => expected "number"
  | none => expected "number"

/-- A string literal, or a word that is no keyword. -/
def literalString (g : Grammar) : Parser String := do
  match ← peekToken with
  | some (.literal .single s) | some (.literal .double s) | some (.literal .unicode s) =>
    skip
    return s
  | some (.literal .escape s) =>
    if g.dialect.oneOf [.generic, .postgres] then
      skip
      return s
    else expected "literal string"
  | some (.word s _ k) =>
    if k == "" || !Keyword.all.contains k then
      skip
      return s
    else expected "literal string"
  | _ => expected "literal string"

/-- The text of a comment on an object. -/
def commentText : Parser String := do
  match ← peekToken with
  | some (.literal .single s) | some (.literal (.dollar _) s) =>
    skip
    return s
  | _ => expected "string literal"

end ColumnLint.Sql.Grammar
