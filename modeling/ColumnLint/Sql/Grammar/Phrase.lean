import ColumnLint.Sql.Grammar.Call
import ColumnLint.Sql.Grammar.Precedence

/-
  Expressions that a keyword starts: `CASE`, `CAST`, `EXTRACT`, `TRIM` and the like. Each parser
  begins behind its keyword.
-/

namespace ColumnLint.Sql.Grammar

open ColumnLint.Text ColumnLint.Sql.Parser

/-- `CASE … END`; the region is where `CASE` stands. -/
def caseExpr (g : Grammar) (start : Region) : Parser Expr := do
  let operand ← do
    if ← word "WHEN" then pure []
    else
      let e ← anyExpr g
      expectWord "WHEN"
      pure [e]
  let branch : Parser (List Part) := do
    let condition ← anyExpr g
    expectWord "THEN"
    let result ← anyExpr g
    return [.text " WHEN ", .operand condition, .text " THEN ", .operand result]
  let first ← branch
  let branches ← repeatStep (fun parts => do
    if ← word "WHEN" then return some (parts ++ (← branch)) else return none) first
  let otherwise ← optional "ELSE" (anyExpr g)
  let stop := (← peek).map fun x => x.region
  expectWord "END"
  let parts := [.text "CASE"] ++ Part.clause " " ", " operand ++ branches
    ++ Part.clause " ELSE " ", " otherwise ++ [.text " END"]
  return assembleOver (.marked (joinRegions (some start) stop)) parts

/-- A query in parentheses whose rows are asked for. -/
def existsExpr (g : Grammar) (lead : String) : Parser Expr := do
  let q ← parenthesized g.query
  return phrase [lead, ""] [.query q]

/-- The negation of an expression. -/
def notExpr (g : Grammar) : Parser Expr := do
  if ← word "EXISTS" then existsExpr g "NOT EXISTS "
  else
    let e ← g.expr (Binding.negation.level g.dialect)
    return phrase ["NOT ", ""] [e]

def castExpr (g : Grammar) (lead : String) : Parser Expr := do
  expectSymbol "("
  let e ← anyExpr g
  expectWord "AS"
  let t ← dataType g
  let format ← do
    if ← word "FORMAT" then
      let v ← value g
      let zone ← do
        if ← words ["AT", "TIME", "ZONE"] then pure (" AT TIME ZONE " ++ (← value g).text)
        else pure ""
      pure (" FORMAT " ++ v.text ++ zone)
    else pure ""
  expectSymbol ")"
  return assemble ([.text (lead ++ "("), .operand e, .text " AS "] ++ t.parts
    ++ [.text (format ++ ")")])

/-- `CONVERT`, with the type before or behind the value. -/
def convertExpr (g : Grammar) (lead : String) : Parser Expr := do
  expectSymbol "("
  if g.dialect.convertTypeFirst then
    let t ← dataType g
    expectSymbol ","
    let e ← anyExpr g
    let styles ← if ← symbol "," then commaList g (anyExpr g) else pure []
    expectSymbol ")"
    return assemble ([.text (lead ++ "(")] ++ t.parts ++ [.text ", ", .operand e]
      ++ Part.clause ", " ", " styles ++ [.text ")"])
  else
    let e ← anyExpr g
    if ← word "USING" then
      let charset ← objectName g false
      expectSymbol ")"
      return assemble ([.text (lead ++ "("), .operand e, .text " USING "] ++ nameParts charset
        ++ [.text ")"])
    else
      expectSymbol ","
      let t ← dataType g
      let charset ← do
        if ← words ["CHARACTER", "SET"] then
          pure (.text " CHARACTER SET " :: nameParts (← objectName g false))
        else pure []
      expectSymbol ")"
      return assemble ([.text (lead ++ "("), .operand e, .text ", "] ++ t.parts ++ charset
        ++ [.text ")"])

def extractExpr (g : Grammar) : Parser Expr := do
  expectSymbol "("
  let field ← dateField g
  let sign ← do
    if ← word "FROM" then pure " FROM "
    else if g.dialect.extractCommas && (← atSymbol ",") then
      skip
      pure ", "
    else fail (.broken "Expected 'FROM' or ','" none)
  let e ← anyExpr g
  expectSymbol ")"
  return phrase ["EXTRACT(" ++ field ++ sign, ")"] [e]

/-- `CEIL` or `FLOOR` to a unit or a scale. -/
def roundExpr (g : Grammar) (lead : String) : Parser Expr := do
  expectSymbol "("
  let e ← anyExpr g
  let unit ← do
    if ← word "TO" then pure (" TO " ++ (← dateField g))
    else if ← symbol "," then
      let v ← value g
      if v.isNumber then pure (", " ++ v.text)
      else fail (.broken "Scale field can only be of number type" none)
    else pure ""
  expectSymbol ")"
  return phrase [lead ++ "(", unit ++ ")"] [e]

/-- `POSITION(e IN e)`, or a call of a function of that name. -/
def positionExpr (g : Grammar) (name : Ident) : Parser Expr := do
  let found ← attempt do
    expectSymbol "("
    let e ← g.expr (Binding.between.level g.dialect)
    expectWord "IN"
    let whole ← anyExpr g
    expectSymbol ")"
    return phrase ["POSITION(", " IN ", ")"] [e, whole]
  match found with
  | some e => return e
  | none => call g [.ident name]

def substringExpr (g : Grammar) (lead : String) : Parser Expr := do
  expectSymbol "("
  let e ← anyExpr g
  let comma ← symbol ","
  let first ← if comma then pure [← anyExpr g] else optional "FROM" (anyExpr g)
  let count ← do
    if ← word "FOR" then pure [← anyExpr g]
    else if ← symbol "," then pure [← anyExpr g]
    else pure []
  expectSymbol ")"
  return assemble ([.text (lead ++ "("), .operand e]
    ++ Part.clause (if comma then ", " else " FROM ") "" first
    ++ Part.clause (if comma then ", " else " FOR ") "" count ++ [.text ")"])

def overlayExpr (g : Grammar) : Parser Expr := do
  expectSymbol "("
  let e ← anyExpr g
  expectWord "PLACING"
  let new ← anyExpr g
  expectWord "FROM"
  let first ← anyExpr g
  let count ← optional "FOR" (anyExpr g)
  expectSymbol ")"
  return assemble ([.text "OVERLAY(", .operand e, .text " PLACING ", .operand new,
    .text " FROM ", .operand first] ++ Part.clause " FOR " "" count ++ [.text ")"])

def trimExpr (g : Grammar) : Parser Expr := do
  expectSymbol "("
  let side ← oneOf ["BOTH", "LEADING", "TRAILING"]
  let lead := "TRIM(" ++ (side.map (· ++ " ")).getD ""
  let e ← anyExpr g
  if ← word "FROM" then
    let whole ← anyExpr g
    expectSymbol ")"
    return phrase [lead, " FROM ", ")"] [e, whole]
  else
    let comma ← symbol ","
    if comma && g.dialect.trimCommas then
      let characters ← commaList g (anyExpr g)
      expectSymbol ")"
      return assemble ([.text "TRIM(", .operand e] ++ Part.clause ", " ", " characters
        ++ [.text ")"])
    else
      expectSymbol ")"
      return phrase [lead, ")"] [e]

/-- Elements up to the closing bracket, which is taken. -/
def arrayExpr (g : Grammar) (lead : String) : Parser Expr := do
  let items ← commaList0 g "]" (anyExpr g)
  expectSymbol "]"
  return assemble (Part.enclosed (lead ++ "[") items "]")

/-- Identifiers with periods between them. -/
def dottedIdentifiers : Parser (List Ident) := do
  let first ← identifier
  let rest ← repeatStep (fun parts => do
    if ← symbol "." then return some ((← identifier) :: parts) else return none) []
  return first :: rest.reverse

/-- `MATCH (…) AGAINST (…)`: the columns of a full text search. -/
def matchExpr (g : Grammar) : Parser Expr := do
  let columns ← columnList g false false (Expr.column <$> dottedIdentifiers)
  expectWord "AGAINST"
  expectSymbol "("
  let v ← value g
  let modifier ← do
    if ← words ["IN", "NATURAL", "LANGUAGE", "MODE", "WITH", "QUERY", "EXPANSION"] then
      pure " IN NATURAL LANGUAGE MODE WITH QUERY EXPANSION"
    else if ← words ["IN", "NATURAL", "LANGUAGE", "MODE"] then pure " IN NATURAL LANGUAGE MODE"
    else if ← words ["IN", "BOOLEAN", "MODE"] then pure " IN BOOLEAN MODE"
    else if ← words ["WITH", "QUERY", "EXPANSION"] then pure " WITH QUERY EXPANSION"
    else pure ""
  expectSymbol ")"
  return assembleOver .unknown
    (Part.enclosed "MATCH (" columns (") AGAINST (" ++ v.text ++ modifier ++ ")"))

/-- `STRUCT(…)`, with or without the types of its fields. -/
def structExpr (g : Grammar) : Parser Expr := do
  let (fields, closed) ← structFields g (dataTypeWithin g ((← get).rest.length + 1))
  if closed then fail (.broken "unmatched > in STRUCT literal" (← place))
  else
    expectSymbol "("
    let items ← commaList g do
      let e ← anyExpr g
      let here ← place
      if ← word "AS" then
        if fields.isEmpty then
          let name ← identifier
          return assembleOver .unknown [.operand e, .text (" AS " ++ name.print)]
        else fail (.broken "Typed syntax does not allow AS" here)
      else return e
    expectSymbol ")"
    let types := if fields.isEmpty then []
      else Part.setAside ([.text "<"] ++ Part.joined ", " fields ++ [.text ">"])
    return assembleOver .unknown ([.text "STRUCT"] ++ types ++ Part.enclosed "(" items ")")

/-- `MAP {k: e, …}`. -/
def mapExpr (g : Grammar) : Parser Expr := do
  expectSymbol "\x7b"
  let entries ← commaList0 g "\x7d" do
    let k ← anyExpr g
    expectSymbol ":"
    return [Part.operand k, .text ": ", .operand (← anyExpr g)]
  expectSymbol "\x7d"
  return assembleOver .unknown ([.text "MAP \x7b"] ++ Part.joined ", " entries ++ [.text "\x7d"])

/-- `{k: e, …}`, the keys being names. -/
def dictionaryExpr (g : Grammar) : Parser Expr := do
  expectSymbol "\x7b"
  let entries ← commaList0 g "\x7d" do
    let k ← identifier
    expectSymbol ":"
    return [Part.text (k.print ++ ": "), .operand (← anyExpr g)]
  expectSymbol "\x7d"
  return assembleOver .unknown ([.text "\x7b"] ++ Part.joined ", " entries ++ [.text "\x7d"])

/-- A call between braces. -/
def bracedCall : Expr → Expr
  | .form f operands =>
    .form { f with words := Part.wrapped "\x7bfn " f.words "\x7d" } operands
  | e => e

/-- `{fn f(…)}`, `{d '…'}` and the like, or a dictionary. -/
def bracedExpr (g : Grammar) : Parser Expr := do
  let start ← get
  expectSymbol "\x7b"
  let function ← attempt do
    expectWord "FN"
    let name ← objectName g false
    return bracedCall (← call g name)
  let body ← do
    if function.isSome then pure function
    else attempt do
      match ← peek with
      | none => expected "ODBC datetime keyword (t, d, or ts)"
      | some x =>
        let text := x.token.render
        if text == "t" || text == "d" || text == "ts" then
          skip
          let v ← value g
          return Expr.constant ("\x7b" ++ text ++ " " ++ v.text ++ "\x7d") v.region
        else expected "ODBC datetime keyword (t, d, or ts)"
  match body with
  | some e =>
    expectSymbol "\x7d"
    return e
  | none =>
    set start
    if g.dialect.dictionaries then dictionaryExpr g else expected "an expression"

end ColumnLint.Sql.Grammar
