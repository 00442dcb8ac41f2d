import ColumnLint.Sql.Grammar.Select

/-
  Statements that change rows: `INSERT`, `UPDATE`, `DELETE` and `MERGE`. Each parser begins behind
  its keyword.
-/

namespace ColumnLint.Sql.Grammar

open ColumnLint.Text ColumnLint.Sql.Parser

/-- `column = value`, or columns in parentheses. -/
def assignment (g : Grammar) : Parser Expr := do
  let target ← do
    if ← symbol "(" then
      let names ← commaList g (objectName g false)
      expectSymbol ")"
      pure (Part.inParentheses (names.map nameParts))
    else nameParts <$> objectName g false
  expectSymbol "="
  let e ← anyExpr g
  return assemble (target ++ [.text " = ", .operand e])

def assignments (g : Grammar) : Parser Expr := do
  return assemble (Part.enclosed "SET " (← commaList g (assignment g)) "")

/-- What to do on a conflict, in front of a table, if said. -/
def conflictWord : Parser Unit := do
  let found ← ["REPLACE", "ROLLBACK", "ABORT", "FAIL", "IGNORE"].foldlM
    (fun found k => if found then pure true else words ["OR", k]) false
  if !found then let _ ← word "REPLACE"

/-- Names of columns in parentheses, if some follow. -/
def insertColumns (g : Grammar) : Parser (List Ident) :=
  columnList g true (g.dialect.oneOf [.mysql]) identifier

/-- What to do when a row exists already, if said. -/
def onInsert (g : Grammar) : Parser (List Expr) := do
  if ← word "ON" then
    if ← word "CONFLICT" then
      let target ← do
        if ← words ["ON", "CONSTRAINT"] then
          pure (.text " ON CONSTRAINT " :: nameParts (← objectName g false))
        else if ← atSymbol "(" then
          let names ← columnList g false false identifier
          pure [Part.text (inParentheses (names.map Ident.print))]
        else pure []
      expectWord "DO"
      let lead := [.text "ON CONFLICT"] ++ target ++ [.text " DO "]
      if ← word "NOTHING" then return [assemble (lead ++ [.text "NOTHING"])]
      else
        expectWords ["UPDATE", "SET"]
        let e ← assignments g
        let condition ← optional "WHERE" (anyExpr g)
        return [assemble (lead ++ [.text "UPDATE ", .operand e]
          ++ Part.clause " WHERE " "" condition)]
    else
      expectWords ["DUPLICATE", "KEY", "UPDATE"]
      let items ← commaList g (assignment g)
      return [assemble (Part.enclosed "ON DUPLICATE KEY UPDATE " items "")]
  else return []

/-- The rows that a change gives back, if said. -/
def returning (g : Grammar) : Parser (List Expr) := do
  if ← word "RETURNING" then
    let items ← commaList g (projectionItem g)
    return [assemble (Part.enclosed "RETURNING " (items.map itemExpr) "")]
  else return []

/-- Settings and the format of the rows to insert, if some follow. -/
def insertFormat (g : Grammar) : Parser (List Expr) := do
  if g.dialect.oneOf [.clickhouse] then
    let options ← settings g
    if ← word "FORMAT" then
      let name ← identifier
      let values ← attempt (commaList g (anyExpr g))
      return options ++ [assemble (.text ("FORMAT " ++ name.print)
        :: Part.clause " " ", " (values.getD []))]
    else return options
  else return []

/-- The name of the table to insert into; some dialects also take a function's result. -/
def insertTarget (g : Grammar) : Parser (Name × List Expr) := do
  if g.dialect.oneOf [.clickhouse] && (← atWord "FUNCTION") then
    skip
    let name ← objectName g false
    return ([], [← call g name])
  else return (← objectName g false, [])

/-- The format of files that hold rows. -/
def fileFormat : Parser String := do
  match ← oneOf ["TEXTFILE", "SEQUENCEFILE", "ORC", "PARQUET", "AVRO", "RCFILE", "JSONFILE"] with
  | some k => return k
  | none => expected "fileformat"

/-- Rows into a directory, behind its keyword. -/
def insertDirectory (g : Grammar) : Parser Statement := do
  let path ← literalString g
  let format ← do
    if ← words ["STORED", "AS"] then pure (" STORED AS " ++ (← fileFormat)) else pure ""
  let q ← g.query
  return .other [] [phrase ["INSERT DIRECTORY " ++ quotedPrint '\'' path ++ format] [], .query q]

def insert (g : Grammar) : Parser Statement := do
  let d := g.dialect
  conflictWord
  if d.oneOf [.mysql, .generic] then
    let _ ← oneOf ["LOW_PRIORITY", "DELAYED", "HIGH_PRIORITY"]
    let _ ← word "IGNORE"
  let _ ← word "OVERWRITE"
  let _ ← word "INTO"
  let _ ← word "LOCAL"
  if ← word "DIRECTORY" then insertDirectory g
  else
    let _ ← word "TABLE"
    let (name, function) ← insertTarget g
    if d.oneOf [.postgres] then
      if ← word "AS" then
        let _ ← identifier
    let (source, parts) ← do
      if ← words ["DEFAULT", "VALUES"] then pure (none, [phrase ["DEFAULT VALUES"] []])
      else
        let columns ← do
          if (← atSymbol "(") && (← atOneOfAt 1 ["SELECT"]) then pure []
          else
            let names ← insertColumns g
            let partition ← do
              if ← word "PARTITION" then
                let items ← parenthesized (commaList g (anyExpr g))
                pure [assemble (Part.enclosed "PARTITION (" items ")")]
              else pure []
            let behind ←
              if d.oneOf [.hive] then columnList g true false identifier else pure []
            pure ((names ++ behind).map (fun i => Expr.constant i.print i.region) ++ partition)
        if ← atOneOf ["FORMAT", "SETTINGS"] then pure (none, columns)
        else if d.oneOf [.mysql, .generic] && (← atWord "SET") then
          skip
          pure (none, columns ++ [← assignments g])
        else pure (some (← g.query), columns)
    let format ← insertFormat g
    let label ← do
      if ← given (d.oneOf [.mysql, .generic]) (word "AS") then
        let row ← objectName g false
        let _ ← columnList g true false identifier
        pure [nameExpr row]
      else pure []
    let conflict ← onInsert g
    let back ← returning g
    return .insert name source (function ++ parts ++ format ++ label ++ conflict ++ back)

def update (g : Grammar) : Parser Statement := do
  conflictWord
  let t ← joinedTables g
  let before ← if ← word "FROM" then tableSources g else pure []
  expectWord "SET"
  let e ← assignments g
  let behind ← do
    if before.isEmpty && (← atWord "FROM") then
      skip
      tableSources g
    else pure []
  let condition ← optional "WHERE" (anyExpr g)
  let back ← returning g
  let limit ← optional "LIMIT" (anyExpr g)
  return .other (t :: before ++ behind)
    (e :: clauseExpr "WHERE " condition ++ back ++ clauseExpr "LIMIT " limit)

def delete (g : Grammar) : Parser Statement := do
  let names ← do
    if !(← word "FROM") && !g.dialect.oneOf [.bigquery, .generic] then
      let names ← commaList g (objectName g false)
      expectWord "FROM"
      pure names
    else pure []
  let tables ← commaList g (joinedTables g)
  let others ← if ← word "USING" then commaList g (joinedTables g) else pure []
  let condition ← optional "WHERE" (anyExpr g)
  let back ← returning g
  let keys ← clauseBy g "ORDER" (sortKey g)
  let limit ← do
    if ← word "LIMIT" then
      if ← word "ALL" then pure [] else pure [← anyExpr g]
    else pure []
  return .other (tables ++ others) (names.map nameExpr ++ clauseExpr "WHERE " condition ++ back
    ++ clauseExpr "ORDER BY " keys ++ clauseExpr "LIMIT " limit)

/-- What a clause of `MERGE` does, behind `THEN`. -/
def mergeAction (g : Grammar) (kind : String) : Parser (List Part) := do
  let refuse (k : String) : Parser (List Part) :=
    fail (.broken (k ++ " is not allowed in a " ++ kind ++ " merge clause") none)
  let inserts := kind == "NOT MATCHED" || kind == "NOT MATCHED BY TARGET"
  match ← oneOf ["UPDATE", "INSERT", "DELETE"] with
  | some "UPDATE" =>
    if inserts then refuse "UPDATE"
    else
      expectWord "SET"
      return [.text "UPDATE ", .operand (← assignments g)]
  | some "DELETE" => if inserts then refuse "DELETE" else return [.text "DELETE"]
  | some _ =>
    if !inserts then refuse "INSERT"
    else
      let names ← insertColumns g
      let lead := "INSERT (" ++ ", ".intercalate (names.map Ident.print) ++ ") "
      if g.dialect.oneOf [.bigquery, .generic] && (← atWord "ROW") then
        skip
        return [.text (lead ++ "ROW")]
      else
        expectWord "VALUES"
        return Part.enclosed (lead ++ "VALUES ") (← valueRows g) ""
  | none => fail (.broken "expected UPDATE, DELETE or INSERT in merge clause" none)

/-- A clause of `MERGE`, behind `WHEN`. -/
def mergeClause (g : Grammar) : Parser Expr := do
  let negated ← word "NOT"
  expectWord "MATCHED"
  let kind ← do
    if !negated then pure "MATCHED"
    else if ← words ["BY", "SOURCE"] then pure "NOT MATCHED BY SOURCE"
    else if ← words ["BY", "TARGET"] then pure "NOT MATCHED BY TARGET"
    else pure "NOT MATCHED"
  let condition ← optional "AND" (anyExpr g)
  expectWord "THEN"
  let action ← mergeAction g kind
  return assemble ([.text ("WHEN " ++ kind)] ++ Part.clause " AND " "" condition
    ++ [.text " THEN "] ++ action)

def merge (g : Grammar) : Parser Statement := do
  let _ ← word "INTO"
  let target ← tableSource g
  expectWord "USING"
  let source ← tableSource g
  expectWord "ON"
  let e ← anyExpr g
  let clauses ← repeatStep (fun cs => do
    if ← word "WHEN" then return some (cs ++ [← mergeClause g]) else return none) []
  let output ← do
    match ← oneOf ["OUTPUT", "RETURNING"] with
    | none => pure []
    | some k =>
      let items ← listOf g.dialect.projectionTrailingCommas (reservedWord g) (projectionItem g)
      let into ← do
        if k == "OUTPUT" && (← atWord "INTO") then
          skip
          pure [← intoTable g]
        else pure []
      pure (assemble (Part.enclosed (k ++ " ") (items.map itemExpr) "") :: into)
  return .other [⟨target, []⟩, ⟨source, []⟩] (e :: clauses ++ output)

/-- A statement that changes rows. -/
def change (g : Grammar) : Parser Statement := do
  match ← oneOf ["INSERT", "UPDATE", "DELETE", "MERGE"] with
  | some "INSERT" => insert g
  | some "UPDATE" => update g
  | some "DELETE" => delete g
  | some _ => merge g
  | none => expected "an SQL statement"

end ColumnLint.Sql.Grammar
