import ColumnLint.Sql.Grammar.Object
import ColumnLint.Sql.Grammar.Removal

/-
  Statements that alter objects, empty tables and tend to their storage. Each parser begins behind
  its keyword.
-/

namespace ColumnLint.Sql.Grammar

open ColumnLint.Text ColumnLint.Sql.Parser

/-- The cluster that a statement is for, if said. -/
def onCluster : Parser Unit := do
  if ← words ["ON", "CLUSTER"] then
    let _ ← identifier

/-- The values that a partition is known by. -/
def partitionValues (g : Grammar) : Parser (List Part) := do
  return Part.enclosed "PARTITION (" (← parenthesized (commaList g (anyExpr g))) ")"

/-- Where a column stands among the others, if said. -/
def columnPosition (g : Grammar) : Parser String := do
  if !g.dialect.oneOf [.generic, .mysql] then return ""
  else if ← word "FIRST" then return " FIRST"
  else if ← word "AFTER" then return " AFTER " ++ (← identifier).print
  else return ""

/-- What is added to a table, behind `ADD`. -/
def addition (g : Grammar) : Parser (List Part) := do
  match ← tableConstraint g with
  | some es =>
    let _ ← words ["NOT", "VALID"]
    return Part.enclosed "ADD CONSTRAINT (" es ")"
  | none =>
    let _ ← words ["IF", "NOT", "EXISTS"]
    let partitions ← repeatStep (fun found => do
      if ← word "PARTITION" then return some (found ++ [← partitionValues g]) else return none) []
    if !partitions.isEmpty then return .text "ADD " :: Part.joined " " partitions
    else
      let _ ← word "COLUMN"
      let _ ← words ["IF", "NOT", "EXISTS"]
      let column ← columnDefinition g
      return [.text "ADD COLUMN "] ++ column ++ [.text (← columnPosition g)]

/-- A new name, behind `RENAME`. -/
def newName (g : Grammar) : Parser (List Part) := do
  let pair (lead : String) : Parser (List Part) := do
    let old ← identifier
    expectWord "TO"
    return [.text (lead ++ old.print ++ " TO " ++ (← identifier).print)]
  if ← given (g.dialect.oneOf [.postgres]) (word "CONSTRAINT") then pair "RENAME CONSTRAINT "
  else if ← word "TO" then return .text "RENAME TO " :: nameParts (← objectName g false)
  else if ← word "AS" then return .text "RENAME AS " :: nameParts (← objectName g false)
  else
    let _ ← word "COLUMN"
    pair "RENAME COLUMN "

/-- What is dropped from a table, behind `DROP`. -/
def subtraction (g : Grammar) : Parser (List Part) := do
  let named (lead : String) : Parser (List Part) := do
    let _ ← words ["IF", "EXISTS"]
    let name ← identifier
    dropBehaviour
    return [.text (lead ++ name.print)]
  if ← words ["IF", "EXISTS", "PARTITION"] then return .text "DROP " :: (← partitionValues g)
  else if ← word "PARTITION" then return .text "DROP " :: (← partitionValues g)
  else if ← word "CONSTRAINT" then named "DROP CONSTRAINT "
  else if ← words ["PRIMARY", "KEY"] then
    dropBehaviour
    return [.text "DROP PRIMARY KEY"]
  else if ← words ["FOREIGN", "KEY"] then named "DROP FOREIGN KEY "
  else if ← word "INDEX" then named "DROP INDEX "
  else if ← words ["CLUSTERING", "KEY"] then return [.text "DROP CLUSTERING KEY"]
  else
    let _ ← word "COLUMN"
    let _ ← words ["IF", "EXISTS"]
    let names ← do
      if g.dialect.oneOf [.bigquery, .mssql, .snowflake] then commaList g identifier
      else pure [← identifier]
    dropBehaviour
    return [.text ("DROP COLUMN " ++ ", ".intercalate (names.map Ident.print))]

/-- What changes of a column, behind `ALTER`. -/
def columnChange (g : Grammar) : Parser (List Part) := do
  let _ ← word "COLUMN"
  let name ← identifier
  let lead := "ALTER COLUMN " ++ name.print
  let typed : Parser (List Part) := do
    let t ← dataType g
    let e ← optional "USING" (anyExpr g)
    return [.text (lead ++ " SET DATA TYPE ")] ++ t.parts ++ Part.clause " USING " "" e
  if ← words ["SET", "NOT", "NULL"] then return [.text (lead ++ " SET NOT NULL")]
  else if ← words ["DROP", "NOT", "NULL"] then return [.text (lead ++ " DROP NOT NULL")]
  else if ← words ["SET", "DEFAULT"] then
    return [.text (lead ++ " SET DEFAULT "), .operand (← anyExpr g)]
  else if ← words ["DROP", "DEFAULT"] then return [.text (lead ++ " DROP DEFAULT")]
  else if ← words ["SET", "DATA", "TYPE"] then typed
  else if ← word "TYPE" then typed
  else expected "SET/DROP NOT NULL, SET DEFAULT, or SET DATA TYPE after ALTER COLUMN"

/-- The words that a rule or a trigger is turned on and off by. -/
def switchWords : List (List String) :=
  [["ALWAYS", "RULE"], ["ALWAYS", "TRIGGER"], ["REPLICA", "RULE"], ["REPLICA", "TRIGGER"],
   ["RULE"], ["TRIGGER"]]

/-- A rule, a trigger or row security to turn on or off, behind the keyword. -/
def switched (k : String) : Parser (List Part) := do
  if ← words ["ROW", "LEVEL", "SECURITY"] then return [.text (k ++ " ROW LEVEL SECURITY")]
  else
    let found ← switchWords.foldlM (fun found ks => if found then pure true else words ks) false
    if found then return [.text (k ++ " " ++ (← identifier).print)]
    else expected ("ROW LEVEL SECURITY, RULE, or TRIGGER after " ++ k)

/-- A change of a table. -/
def tableChange (g : Grammar) : Parser (List Part) := do
  let redefined (lead : String) (renames : Bool) : Parser (List Part) := do
    let _ ← word "COLUMN"
    let old ← if renames then (fun i => i.print ++ " ") <$> identifier else pure ""
    let column ← columnDefinition g
    return [.text (lead ++ old)] ++ column ++ [.text (← columnPosition g)]
  if ← word "ADD" then addition g
  else if ← word "RENAME" then newName g
  else if ← word "DISABLE" then switched "DISABLE"
  else if ← word "ENABLE" then switched "ENABLE"
  else if ← word "DROP" then subtraction g
  else if ← word "PARTITION" then
    let old ← partitionValues g
    expectWords ["RENAME", "TO", "PARTITION"]
    return old ++ [.text " RENAME TO "] ++ (← partitionValues g)
  else if ← word "CHANGE" then redefined "CHANGE COLUMN " true
  else if ← word "MODIFY" then redefined "MODIFY COLUMN " false
  else if ← word "ALTER" then columnChange g
  else if ← words ["SWAP", "WITH"] then return .text "SWAP WITH " :: nameParts (← objectName g false)
  else if ← given (g.dialect.oneOf [.generic, .postgres]) (words ["OWNER", "TO"]) then
    return [.text ("OWNER TO " ++ (← identifier).print)]
  else if ← words ["CLUSTER", "BY"] then
    return Part.enclosed "CLUSTER BY (" (← parenthesized (commaList g (anyExpr g))) ")"
  else if ← words ["SUSPEND", "RECLUSTER"] then return [.text "SUSPEND RECLUSTER"]
  else if ← words ["RESUME", "RECLUSTER"] then return [.text "RESUME RECLUSTER"]
  else if ← words ["SET", "TBLPROPERTIES"] then
    let items ← parenthesized (commaList0 g ")" (option g))
    return .text "SET TBLPROPERTIES " :: Part.inParentheses items
  else
    match ← options g "SET" with
    | [] =>
      expected ("ADD, RENAME, PARTITION, SWAP, DROP, REPLICA IDENTITY, SET, or SET TBLPROPERTIES "
        ++ "after ALTER TABLE")
    | items => return .text "SET " :: Part.inParentheses items

def alterTable (g : Grammar) : Parser Statement := do
  let _ ← words ["IF", "EXISTS"]
  let _ ← word "ONLY"
  let name ← objectName g false
  onCluster
  let changes ← commaList g (tableChange g)
  if ← word "LOCATION" then
    let _ ← identifier
  else if ← words ["SET", "LOCATION"] then
    let _ ← identifier
  return plainCommand ([.text "ALTER TABLE "] ++ nameParts name ++ [.text " "]
    ++ Part.joined ", " changes)

/-- A view to alter. Its query is not that of a view to define. -/
def alterView (g : Grammar) : Parser Statement := do
  let name ← objectName g false
  let columns ← columnList g true false identifier
  let storage ← options g "WITH"
  expectWord "AS"
  let q ← g.query
  let list := if columns.isEmpty then "" else " " ++ inParentheses (columns.map Ident.print)
  return plainCommand ([.text "ALTER VIEW "] ++ nameParts name ++ [.text list]
    ++ Part.joined ", " storage ++ [.text " AS ", .operand (.query q)])

/-- An object to alter. -/
def alter (g : Grammar) : Parser Statement := do
  match ← expectOneOf ["VIEW", "TABLE", "INDEX", "ICEBERG", "SCHEMA"] with
  | "VIEW" => alterView g
  | "TABLE" => alterTable g
  | "ICEBERG" =>
    expectWord "TABLE"
    alterTable g
  | k =>
    let _ ← words ["IF", "EXISTS"]
    let name ← objectName g false
    if !(← word "RENAME") then expected ("RENAME after ALTER " ++ k)
    else if !(← word "TO") then expected "TO after RENAME"
    else
      let new ← objectName g false
      return plainCommand ([.text ("ALTER " ++ k ++ " ")] ++ nameParts name ++ [.text " RENAME TO "]
        ++ nameParts new)

/-- Tables to empty. -/
def truncate (g : Grammar) : Parser Statement := do
  let _ ← word "TABLE"
  let names ← commaList g do
    let _ ← word "ONLY"
    objectName g false
  let partition ← if ← word "PARTITION" then partitionValues g else pure []
  if g.dialect.oneOf [.generic, .postgres] then
    if !(← words ["RESTART", "IDENTITY"]) then
      let _ ← words ["CONTINUE", "IDENTITY"]
    dropBehaviour
  onCluster
  return plainCommand ([.text "TRUNCATE TABLE "] ++ Part.joined ", " (names.map nameParts)
    ++ partition)

/-- A table whose values are counted. -/
def analyze (g : Grammar) : Parser Statement := do
  let _ ← word "TABLE"
  let name ← objectName g false
  let clauses ← repeatStep (fun found => do
    match ← oneOf ["PARTITION", "FOR", "CACHE", "NOSCAN", "COMPUTE"] with
    | none => return none
    | some "PARTITION" => return some (found ++ [.text " "] ++ (← partitionValues g))
    | some "FOR" =>
      expectWord "COLUMNS"
      let _ ← attempt (commaList g identifier)
      return some found
    | some "CACHE" =>
      expectWord "METADATA"
      return some found
    | some "COMPUTE" =>
      expectWord "STATISTICS"
      return some found
    | some _ => return some found) []
  return plainCommand ([.text "ANALYZE TABLE "] ++ nameParts name ++ clauses)

/-- A table whose storage is cleaned up, or all tables. -/
def vacuum (g : Grammar) : Parser Statement := do
  let _ ← word "FULL"
  let _ ← words ["SORT", "ONLY"]
  let _ ← words ["DELETE", "ONLY"]
  let _ ← word "REINDEX"
  let _ ← word "RECLUSTER"
  match ← attempt (objectName g false) with
  | none => return plainCommand [.text "VACUUM"]
  | some name =>
    if ← word "TO" then
      let _ ← value g
      expectWord "PERCENT"
    let _ ← word "BOOST"
    return plainCommand (.text "VACUUM " :: nameParts name)

end ColumnLint.Sql.Grammar
