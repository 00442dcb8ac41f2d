import ColumnLint.Sql.Grammar.Constraint

/-
  Definitions of objects that are neither tables nor views: indexes, schemas, databases and
  sequences. Each parser begins behind the word for the object.
-/

namespace ColumnLint.Sql.Grammar

open ColumnLint.Text ColumnLint.Sql.Parser

/-- A statement without tables, from its parts. -/
def plainCommand (parts : List Part) : Statement := .other [] [assemble parts]

/-- Columns in parentheses behind a keyword, nothing if it does not follow. -/
def namedColumns (g : Grammar) (k : String) : Parser String := do
  if ← word k then
    let names ← parenthesized (commaList g identifier)
    return " " ++ k ++ " " ++ inParentheses (names.map Ident.print)
  else return ""

/-- How an index is built while its table is in use, if said. -/
def buildOptions : Parser Unit :=
  repeatStep (fun (_ : Unit) => do
    match ← oneOf ["ALGORITHM", "LOCK"] with
    | some _ =>
      let _ ← symbol "="
      let _ ← identifier
      return some ()
    | none => return none) ()

def createIndex (g : Grammar) : Parser Statement := do
  let _ ← word "CONCURRENTLY"
  let conditional ← words ["IF", "NOT", "EXISTS"]
  let unnamed ← if conditional then pure false else word "ON"
  let name ← do
    if unnamed then pure []
    else
      let name ← objectName g false
      let _ ← indexKind
      expectWord "ON"
      pure [name]
  let table ← objectName g false
  let _ ← indexKind
  let keys ← parenthesized (commaList g (indexKey g))
  let includes ← namedColumns g "INCLUDE"
  let nulls ← nullsDistinct
  let storage ← do
    if ← given (g.dialect.oneOf [.generic, .postgres, .duckdb]) (word "WITH") then
      parenthesized (commaList g (anyExpr g))
    else pure []
  let condition ← optional "WHERE" (anyExpr g)
  indexOptions g
  buildOptions
  return plainCommand ([.text "CREATE INDEX "] ++ Part.joined "" (name.map nameParts)
    ++ [.text " ON "] ++ nameParts table ++ Part.enclosed "(" keys (")" ++ includes ++ nulls)
    ++ Part.clause " WITH " ", " storage ++ Part.clause " WHERE " "" condition)

/-- The name of a schema, or the user who owns it, or both. -/
def schemaName (g : Grammar) : Parser (List Part) := do
  if ← word "AUTHORIZATION" then
    return [.text ("AUTHORIZATION " ++ (← identifier).print)]
  else
    let name ← objectName g false
    if ← word "AUTHORIZATION" then
      return nameParts name ++ [.text (" AUTHORIZATION " ++ (← identifier).print)]
    else return nameParts name

/-- The object that another one copies, if one follows. -/
def cloneSource (g : Grammar) : Parser (List Part) := do
  if ← word "CLONE" then return .text " CLONE " :: nameParts (← objectName g false)
  else return []

def createSchema (g : Grammar) : Parser Statement := do
  let _ ← words ["IF", "NOT", "EXISTS"]
  let name ← schemaName g
  let collation ← do
    if ← words ["DEFAULT", "COLLATE"] then pure [← anyExpr g] else pure []
  let storage ← options g "WITH"
  let more ← options g "OPTIONS"
  let source ← cloneSource g
  return plainCommand ([.text "CREATE SCHEMA "] ++ name
    ++ Part.clause " DEFAULT COLLATE " "" collation ++ Part.joined ", " (storage ++ more) ++ source)

def createDatabase (g : Grammar) : Parser Statement := do
  let _ ← words ["IF", "NOT", "EXISTS"]
  let name ← objectName g false
  repeatStep (fun (_ : Unit) => do
    match ← oneOf ["LOCATION", "MANAGEDLOCATION"] with
    | some _ =>
      let _ ← literalString g
      return some ()
    | none => return none) ()
  let source ← cloneSource g
  return plainCommand ([.text "CREATE DATABASE "] ++ nameParts name ++ source)

def createSequence (g : Grammar) : Parser Statement := do
  let _ ← words ["IF", "NOT", "EXISTS"]
  let name ← objectName g false
  let type ← do
    if ← word "AS" then pure (.text " AS " :: (← dataType g).parts) else pure []
  let options ← sequenceOptions g
  let owner ← do
    if ← words ["OWNED", "BY"] then
      if ← word "NONE" then pure [.text " OWNED BY NONE"]
      else pure (.text " OWNED BY " :: nameParts (← objectName g false))
    else pure []
  return plainCommand ([.text "CREATE SEQUENCE "] ++ nameParts name ++ type ++ [.text options]
    ++ owner)

/-- An object that is neither a table nor a view, behind `CREATE`; nothing if none follows. -/
def createObject (g : Grammar) : Parser (Option Statement) := do
  if ← word "INDEX" then some <$> createIndex g
  else if ← words ["UNIQUE", "INDEX"] then some <$> createIndex g
  else if ← word "SCHEMA" then some <$> createSchema g
  else if ← word "DATABASE" then some <$> createDatabase g
  else if ← word "SEQUENCE" then some <$> createSequence g
  else return none

end ColumnLint.Sql.Grammar
