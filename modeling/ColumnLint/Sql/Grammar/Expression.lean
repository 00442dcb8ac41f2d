import ColumnLint.Sql.Grammar.Path

/-
  Expressions: operands and the operators between them. An expression is read at a level and takes
  the operators that bind tighter.
-/

namespace ColumnLint.Sql.Grammar

open ColumnLint.Text ColumnLint.Sql.Parser

/-- Operators that may stand before `ANY`, `ALL` and `SOME`. -/
def quantifiable : List String :=
  [">", "<", ">=", "<=", "=", "<>", "~", "~*", "!~", "!~*", "~~", "~~*", "!~~", "!~~*"]

/-- The operator that a symbol is between two operands. -/
def symbolOperator? (d : Dialect) (s : String) : Option String :=
  if ["<=>", ":=", "=", "<>", ">", ">=", "<", "<=", "+", "-", "*", "%", "||", "|", "^", "&", "/",
      "~", "~*", "!~", "!~*", "~~", "~~*", "!~~", "!~~*"].contains s then some s
  else if documentOperators.contains s then some s
  else if s == "==" then some "="
  else if s == "//" then if d.oneOf [.duckdb, .generic] then some s else none
  else if s == "<<" || s == ">>" then if d.shifts then some s else none
  else if s == "#" then if d.oneOf [.postgres, .redshift] then some s else none
  else if s == "&&" then
    if d.oneOf [.postgres, .redshift, .generic] then some s
    else none
  else if s == "^@" then if d.oneOf [.postgres, .generic] then some s else none
  else if d.geometry && pipeLike.contains s then some s
  else none

/-- The operator that the next token is between two operands, which is taken. -/
def operator? (g : Grammar) : Parser (Option String) := do
  let taken (s : String) : Parser (Option String) := do
    skip
    return some s
  match ← peekToken with
  | some (.symbol s) =>
    match symbolOperator? g.dialect s with
    | some o => taken o
    | none => return none
  | some (.operator s) => taken s
  | some (.word _ _ k) =>
    if ["AND", "OR", "XOR", "OVERLAPS"].contains k then taken k
    else if k == "OPERATOR" && g.dialect.oneOf [.postgres, .generic] then
      skip
      expectSymbol "("
      let (names, _) ← repeatStep (fun (names, more) => do
        if !more then return none
        else
          let x ← next
          return some (names ++ [(x.map fun x => x.token.render).getD "EOF"], ← symbol "."))
        ([], true)
      expectSymbol ")"
      return some ("OPERATOR(" ++ ".".intercalate names ++ ")")
    else return none
  | _ => return none

/-- A comparison with any or all of the values that follow. -/
def quantified (g : Grammar) (left : Expr) (level : Nat) (operator quantifier : String)
    (here : Option Location) : Parser Expr := do
  let start ← get
  expectSymbol "("
  let right ← do
    if ← atOneOf ["SELECT", "WITH"] then
      set start
      g.expr level
    else
      let e ← g.expr level
      expectSymbol ")"
      pure e
  if quantifiable.contains operator then
    let lead := " " ++ operator ++ " " ++ quantifier
    return match right with
      | .query _ => phrase ["", lead, ""] [left, right]
      | _ => phrase ["", lead ++ "(", ")"] [left, right]
  else
    fail (.broken ("Expected one of [=, >, <, =>, =<, !=, ~, ~*, !~, !~*, ~~, ~~*, !~~, !~~*] as "
      ++ "comparison operator, found: " ++ operator) here)

/-- What follows `IS`. -/
def isExpr (g : Grammar) (left : Expr) : Parser Expr := do
  let test (words : String) : Parser Expr := return phrase ["", " IS " ++ words] [left]
  let comparison (words : String) : Parser Expr := do
    let right ← anyExpr g
    return phrase ["", " IS " ++ words ++ " ", ""] [left, right]
  if ← words ["NULL"] then test "NULL"
  else if ← words ["NOT", "NULL"] then test "NOT NULL"
  else if ← words ["TRUE"] then test "TRUE"
  else if ← words ["NOT", "TRUE"] then test "NOT TRUE"
  else if ← words ["FALSE"] then test "FALSE"
  else if ← words ["NOT", "FALSE"] then test "NOT FALSE"
  else if ← words ["UNKNOWN"] then test "UNKNOWN"
  else if ← words ["NOT", "UNKNOWN"] then test "NOT UNKNOWN"
  else if ← words ["DISTINCT", "FROM"] then comparison "DISTINCT FROM"
  else if ← words ["NOT", "DISTINCT", "FROM"] then comparison "NOT DISTINCT FROM"
  else
    let negated ← word "NOT"
    let form ← oneOf ["NFC", "NFD", "NFKC", "NFKD"]
    if ← word "NORMALIZED" then
      test ((if negated then "NOT " else "") ++ (form.map (· ++ " ")).getD "" ++ "NORMALIZED")
    else expected "[NOT] NULL | TRUE | FALSE | DISTINCT | [form] NORMALIZED FROM after IS"

/-- What follows `IN`. -/
def inExpr (g : Grammar) (left : Expr) (lead : String) : Parser Expr := do
  if ← word "UNNEST" then
    let e ← parenthesized (anyExpr g)
    return phrase ["", lead ++ " UNNEST(", ")"] [left, e]
  else
    expectSymbol "("
    match ← attempt g.query with
    | some q =>
      expectSymbol ")"
      return phrase ["", lead ++ " ", ""] [left, .query q]
    | none =>
      let items ←
        if g.dialect.emptyInLists then commaList0 g ")" (anyExpr g) else commaList g (anyExpr g)
      expectSymbol ")"
      return assemble (.operand left :: Part.enclosed (lead ++ " (") items ")")

/-- What follows `BETWEEN`. -/
def betweenExpr (g : Grammar) (left : Expr) (lead : String) : Parser Expr := do
  let level := Binding.between.level g.dialect
  let low ← g.expr level
  expectWord "AND"
  let high ← g.expr level
  return phrase ["", lead ++ " ", " AND ", ""] [left, low, high]

/-- What follows `LIKE` and its kin. -/
def likeExpr (g : Grammar) (left : Expr) (lead : String) (any escapes : Bool) : Parser Expr := do
  let any ← if any then word "ANY" else pure false
  let pattern ← g.expr (Binding.like.level g.dialect)
  let escape ← do
    if !escapes then pure ""
    else if ← word "ESCAPE" then pure (" ESCAPE " ++ (← value g).text)
    else pure ""
  return phrase ["", lead ++ (if any then " ANY " else " "), escape] [left, pattern]

/-- A test that may be negated: a pattern, a list, a range or null. -/
def testExpr (g : Grammar) (left : Expr) : Parser Expr := do
  let negated ← word "NOT"
  let lead (k : String) : String := (if negated then " NOT " else " ") ++ k
  let regexp ← word "REGEXP"
  let rlike ← word "RLIKE"
  let null ← if (← mode) == .columnDefinition then pure false else word "NULL"
  if regexp then likeExpr g left (lead "REGEXP") false false
  else if rlike then likeExpr g left (lead "RLIKE") false false
  else if negated && null then return phrase ["", " IS NOT NULL"] [left]
  else if ← word "IN" then inExpr g left (lead "IN")
  else if ← word "BETWEEN" then betweenExpr g left (lead "BETWEEN")
  else if ← word "LIKE" then likeExpr g left (lead "LIKE") true true
  else if ← word "ILIKE" then likeExpr g left (lead "ILIKE") true true
  else if ← words ["SIMILAR", "TO"] then likeExpr g left (lead "SIMILAR TO") false true
  else expected "IN or BETWEEN after NOT"

/-- How messages spell a token that no operator starts with. -/
def spellToken : Token → String
  | .word text _ k =>
    "Word(Word \x7b value: \"" ++ text ++ "\", quote_style: None, keyword: " ++ k ++ " \x7d)"
  | .symbol ":" => "Colon"
  | .symbol "!" => "ExclamationMark"
  | .symbol "[" => "LBracket"
  | .symbol "<<" => "ShiftLeft"
  | .symbol ">>" => "ShiftRight"
  | .symbol "#" => "Sharp"
  | .symbol "&&" => "Overlap"
  | .symbol "^@" => "CaretAt"
  | .symbol "//" => "DuckIntDiv"
  | .symbol "@" => "AtSign"
  | t => t.render

/-- An operator that only some dialects have, with its right side. -/
def dialectOperator? (g : Grammar) (left : Expr) : Parser (Option Expr) := do
  let k ←
    if g.dialect.oneOf [.mysql] then oneOf ["DIV"]
    else if g.dialect.oneOf [.sqlite] then oneOf ["REGEXP", "MATCH"]
    else pure none
  match k with
  | some k =>
    let right ← anyExpr g
    return some (phrase ["", " " ++ k ++ " ", ""] [left, right])
  | none => return none

/-- The form of two operands around an operator. -/
def binary (left : Expr) (operator : String) (right : Expr) : Expr :=
  let kind := if operator == "=" then FormKind.equality else .plain
  .form ⟨kind, ["", " " ++ operator ++ " ", ""], .operands⟩ [left, right]

/-- The operator that follows an expression, with what is behind it. `level` is the operator's. -/
def continuation (g : Grammar) (left : Expr) (level : Nat) : Parser Expr := do
  let d := g.dialect
  match ← dialectOperator? g left with
  | some e => return e
  | none =>
    let here ← place
    match ← operator? g with
    | some o =>
      match ← oneOf ["ANY", "ALL", "SOME"] with
      | some q => quantified g left level o q here
      | none => return binary left o (← g.expr level)
    | none =>
      match ← peekToken with
      | none => expected "an operator"
      | some t =>
        let k := t.keyword
        let unknown : Parser Expr :=
          fail (.broken ("No infix parser for token " ++ spellToken t) here)
        if k == "IS" then
          skip
          isExpr g left
        else if k == "AT" then
          skip
          expectWords ["TIME", "ZONE"]
          let zone ← g.expr level
          return phrase ["", " AT TIME ZONE ", ""] [left, zone]
        else if ["NOT", "IN", "BETWEEN", "LIKE", "ILIKE", "SIMILAR", "REGEXP", "RLIKE"].contains k
        then testExpr g left
        else if k == "NOTNULL" && d.notNullWord then
          skip
          return phrase ["", " IS NOT NULL"] [left]
        else if k == "MEMBER" then
          skip
          if ← word "OF" then
            let e ← parenthesized (anyExpr g)
            return phrase ["", " MEMBER OF(", ")"] [left, e]
          else expected "OF after MEMBER"
        else if t.isSymbol "::" then
          skip
          let type ← dataType g
          return assemble ([.operand left, .text "::"] ++ type.parts)
        else if t.isSymbol "!" && d.oneOf [.postgres] then
          skip
          return phrase ["", "!"] [left]
        else if (t.isSymbol "[" && d.partiql) || (t.isSymbol ":" && d.colonPaths) then
          let path ← documentPath g
          return assemble (.operand left :: path)
        else unknown

/-- An expression of operators that bind tighter than a level. -/
def exprAt (g : Grammar) (level : Nat) : Parser Expr := do
  let first ← operandWithPath g
  repeatStep (fun e => do
    let binds ← nextLevel g
    if binds ≤ level then return none
    else if ← atSymbol "." then return none
    else return some (← continuation g e binds)) first

end ColumnLint.Sql.Grammar
