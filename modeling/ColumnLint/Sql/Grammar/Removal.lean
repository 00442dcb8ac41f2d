import ColumnLint.Sql.Grammar.DataType

/-
  Statements that drop objects. The names of the objects are kept, with the expressions in what
  tells functions apart.
-/

namespace ColumnLint.Sql.Grammar

open ColumnLint.Text ColumnLint.Sql.Parser

/-- What is done with the objects that depend on a dropped one, if said. -/
def dropBehaviour : Parser Unit := do
  let _ ← oneOf ["CASCADE", "RESTRICT"]

/-- An argument of a function to drop: a type, or a name and a type. -/
def signatureArgument (g : Grammar) : Parser Expr := do
  let _ ← oneOf ["IN", "OUT", "INOUT"]
  let (first, taken) ← taking (dataType g)
  let second ← if ← atWord "DEFAULT" then pure none else attempt (dataType g)
  let named := match taken.getLast?.map Lexeme.token with
    | some (.word ..) => true
    | _ => false
  if second.isSome && !named then fail (.expected "a name or type" taken.getLast?)
  else
    let hasDefault ← do
      if ← word "DEFAULT" then pure true else symbol "="
    let default ← if hasDefault then pure [← anyExpr g] else pure []
    let types := Part.joined " " (first.parts :: second.toList.map DataType.parts)
    return assemble (types ++ Part.clause " = " "" default)

/-- A function to drop, with its arguments or without. -/
def signature (g : Grammar) : Parser Expr := do
  let name ← objectName g false
  let items ← do
    if ← symbol "(" then
      if ← symbol ")" then pure (Part.enclosed "(" [] ")")
      else
        let items ← commaList g (signatureArgument g)
        expectSymbol ")"
        pure (Part.enclosed "(" items ")")
    else pure []
  return assemble (nameParts name ++ items)

/-- The words of objects that are dropped by their names alone. -/
def namedObjects : List String :=
  ["TABLE", "VIEW", "INDEX", "ROLE", "SCHEMA", "DATABASE", "SEQUENCE", "STAGE", "TYPE", "USER",
   "STREAM"]

/-- Objects to drop by their names, behind the word for what they are. -/
def dropNamed (g : Grammar) (kind : String) : Parser (List Expr) := do
  let _ ← words ["IF", "EXISTS"]
  let names ← commaList g (objectName g false)
  let here ← place
  let cascade ← word "CASCADE"
  let restrict ← word "RESTRICT"
  let purge ← word "PURGE"
  if cascade && restrict then
    fail (.broken "Cannot specify both CASCADE and RESTRICT in DROP" here)
  else if kind == "ROLE" && (cascade || restrict || purge) then
    fail (.broken "Cannot specify CASCADE, RESTRICT, or PURGE in DROP ROLE" here)
  else
    let table ← optional "ON" (objectName g false)
    return (names ++ table).map nameExpr

/-- A secret to drop. A storage that has no name is passed over. -/
def dropSecret (lasting : Bool × Bool) : Parser Unit := do
  let _ ← words ["IF", "EXISTS"]
  let _ ← identifier
  if ← word "FROM" then skip
  if lasting.1 && lasting.2 then expected "TEMPORARY or PERSISTENT"

/-- A trigger to drop, whose keyword is next. -/
def dropTrigger (g : Grammar) : Parser (List Expr) := do
  if !g.dialect.oneOf [.generic, .mssql, .mysql, .postgres, .sqlite] then
    expected "an object type after DROP"
  skip
  let _ ← words ["IF", "EXISTS"]
  let name ← objectName g false
  let table ← optional "ON" (objectName g false)
  dropBehaviour
  return (name :: table).map nameExpr

/-- Objects of other kinds to drop, behind the word for what they are. -/
def dropOther (g : Grammar) (kind : String) : Parser (List Expr) := do
  let _ ← words ["IF", "EXISTS"]
  if kind == "FUNCTION" || kind == "PROCEDURE" then
    let signatures ← commaList g (signature g)
    dropBehaviour
    return signatures
  else if kind == "POLICY" then
    let _ ← identifier
    expectWord "ON"
    let table ← objectName g false
    dropBehaviour
    return [nameExpr table]
  else if kind == "CONNECTOR" then
    let _ ← identifier
    return []
  else if kind == "DOMAIN" then
    let name ← objectName g false
    dropBehaviour
    return [nameExpr name]
  else
    let _ ← commaList g identifier
    dropBehaviour
    return []

/-- Objects to drop, behind `DROP`. -/
def drop (g : Grammar) : Parser Statement := do
  let d := g.dialect
  let temporary ← given (d.oneOf [.mysql, .generic, .duckdb]) (word "TEMPORARY")
  let persistent ← given (d.oneOf [.duckdb]) (word "PERSISTENT")
  let done (kind : String) (es : List Expr) : Statement :=
    .other [] [assemble (Part.enclosed ("DROP " ++ kind ++ " ") es "")]
  if ← words ["MATERIALIZED", "VIEW"] then
    return done "MATERIALIZED VIEW" (← dropNamed g "MATERIALIZED VIEW")
  else if ← atWord "TRIGGER" then return done "TRIGGER" (← dropTrigger g)
  else
    match ← oneOf (namedObjects ++ ["FUNCTION", "PROCEDURE", "POLICY", "CONNECTOR", "DOMAIN",
      "SECRET", "EXTENSION"]) with
    | none =>
      expected ("CONNECTOR, DATABASE, EXTENSION, FUNCTION, INDEX, POLICY, PROCEDURE, ROLE, "
        ++ "SCHEMA, SECRET, SEQUENCE, STAGE, TABLE, TRIGGER, TYPE, VIEW, MATERIALIZED VIEW or "
        ++ "USER after DROP")
    | some "SECRET" =>
      dropSecret (temporary, persistent)
      return done "SECRET" []
    | some k =>
      if namedObjects.contains k then return done k (← dropNamed g k)
      else return done k (← dropOther g k)

end ColumnLint.Sql.Grammar
