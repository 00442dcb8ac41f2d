import ColumnLint.Sql.Grammar.Object
import ColumnLint.Sql.Grammar.Storage

/-
  Statements that define tables and views. Of a definition its name, its query and the expressions
  in its other parts are kept.
-/

namespace ColumnLint.Sql.Grammar

open ColumnLint.Text ColumnLint.Sql.Parser

/-- What happens to a temporary table at the end of a transaction, behind `ON COMMIT`. -/
def onCommit : Parser Unit := do
  if ← words ["DELETE", "ROWS"] then pure ()
  else if ← words ["PRESERVE", "ROWS"] then pure ()
  else if ← word "DROP" then pure ()
  else
    let found := ((← peek).map fun x => x.token.render).getD "EOF"
    fail (.broken ("Expecting DELETE ROWS, PRESERVE ROWS or DROP" ++ found) none)

/-- The table whose contents are copied, behind `CLONE`, if a name stands there. If none does, it is
passed over as far as it is one, and so is the token behind. -/
def clonedTable (g : Grammar) : Parser (Option Name) := do
  match ← attempt (objectName g true) with
  | some name => return some name
  | none =>
    repeatStep (fun (_ : Unit) => do
      if ((← peek).bind identOf?).isSome && (← atSymbolAt 1 ".") then
        skip
        skip
        return some ()
      else return none) ()
    skip
    return none

/-- The table whose columns are copied, if one follows. -/
def likeTable (g : Grammar) : Parser (Option Name) := do
  if ← given (g.dialect.oneOf [.generic, .redshift])
      (do return (← atSymbol "(") && (← atOneOfAt 1 ["LIKE"])) then
    skip
    skip
    let name ← objectName g true
    if !(← words ["INCLUDING", "DEFAULTS"]) then
      let _ ← words ["EXCLUDING", "DEFAULTS"]
    expectSymbol ")"
    return some name
  else if (← oneOf ["LIKE", "ILIKE"]).isSome then some <$> objectName g true
  else return none

/-- The query that fills a table, if one follows. -/
def tableQuery (g : Grammar) : Parser (Option Query) := do
  if ← word "AS" then some <$> g.query
  else if ← given (g.dialect.oneOf [.mysql]) (atWord "SELECT") then some <$> g.query
  else return none

/-- The expressions of a table's primary key and of the order of its rows, where they stand behind
its columns. -/
def tableKeys (g : Grammar) : Parser (List Expr) := do
  let clickhouseLike := g.dialect.oneOf [.generic, .clickhouse]
  let primary ← do
    if ← given clickhouseLike (words ["PRIMARY", "KEY"]) then pure [← anyExpr g] else pure []
  let order ← do
    if ← given clickhouseLike (words ["ORDER", "BY"]) then
      if ← symbol "(" then
        let keys ← if ← atSymbol ")" then pure [] else commaList g (anyExpr g)
        expectSymbol ")"
        pure keys
      else pure [← anyExpr g]
    else pure []
  return primary ++ order

/-- A table to define, behind `TABLE`. -/
def createTable (g : Grammar) : Parser Statement := do
  let _ ← words ["IF", "NOT", "EXISTS"]
  let name ← objectName g true
  if ← words ["ON", "CLUSTER"] then
    let _ ← identifier
  let like ← likeTable g
  let clone ← if ← word "CLONE" then clonedTable g else pure none
  let columns ← tableColumns g
  if ← given (g.dialect.oneOf [.hive]) (word "COMMENT") then
    match ← peekToken with
    | some (.literal .single _) => skip
    | _ => expected "comment"
  let _ ← words ["WITHOUT", "ROWID"]
  let divided ← distribution g
  let stored ← storageFormat g
  let configured ← configuration g
  let keys ← tableKeys g
  if ← words ["ON", "COMMIT"] then onCommit
  let _ ← word "STRICT"
  let copied := (like.toList ++ clone.toList).map nameExpr
  return .createTable name (← tableQuery g)
    (copied ++ columns.columns ++ columns.constraints ++ divided ++ stored ++ configured ++ keys)

/-! Tables whose clauses stand in any order. -/

/-- What was said of a table so far: where its columns come from, whether its files have a place,
and the expressions of its clauses. -/
structure Draft where
  columns : Bool
  query : Option Query
  like : Bool
  clone : Bool
  location : Bool
  others : List Expr

namespace Draft

/-- The columns come from exactly one place. -/
def isComplete (t : Draft) : Bool :=
  [t.columns, t.query.isSome, t.like, t.clone].count true == 1

/-- Another query fills the table. One that was to fill it before is kept beside it. -/
def fill (t : Draft) (q : Query) : Draft :=
  { t with query := some q, others := t.others ++ t.query.toList.map .query }

def add (t : Draft) (es : List Expr) : Draft := { t with others := t.others ++ es }

end Draft

/-- The value of a clause that has to be one of some keywords. A fault is told of `found`. -/
def settingWord (ks : List String) (what : String) (found : Option Lexeme) : Parser Unit := do
  expectSymbol "="
  match ← oneOf ks with
  | some _ => pure ()
  | none => fail (.expected what found)

/-- The words of clauses with a string as their value. -/
def textSettings : List String :=
  ["DEFAULT_DDL_COLLATION", "EXTERNAL_VOLUME", "CATALOG", "BASE_LOCATION", "CATALOG_SYNC",
   "TARGET_LAG"]

/-- A clause without expressions that says nothing of the columns, behind its keyword, which `first`
is. -/
def plainSetting (g : Grammar) (first : Lexeme) : Parser Unit := do
  let k := first.token.keyword
  if k == "COPY" then expectWord "GRANTS"
  else if k == "COMMENT" then
    let _ ← symbol "="
    let _ ← commentText
  else if k == "ENABLE_SCHEMA_EVOLUTION" || k == "CHANGE_TRACKING" then
    expectSymbol "="
    if (← oneOf ["TRUE", "FALSE"]).isNone then expected "TRUE or FALSE"
  else if k == "DATA_RETENTION_TIME_IN_DAYS" || k == "MAX_DATA_EXTENSION_TIME_IN_DAYS" then
    expectSymbol "="
    let _ ← wholeNumber
  else if textSettings.contains k then
    expectSymbol "="
    let _ ← literalString g
  else if k == "WITH" then
    let policies := ["AGGREGATION", "TAG", "ROW"]
    if !(← atOneOf policies) then
      let _ ← expectOneOf policies
  else if k == "STORAGE_SERIALIZATION_POLICY" then
    expectSymbol "="
    if (← oneOf ["COMPATIBLE", "OPTIMIZED"]).isNone then expected "storage_serialization_policy"
  else if k == "WAREHOUSE" then
    expectSymbol "="
    let _ ← identifier
  else if k == "REFRESH_MODE" then
    settingWord ["AUTO", "FULL", "INCREMENTAL"] "AUTO, FULL or INCREMENTAL" (some first)
  else if k == "INITIALIZE" then
    settingWord ["ON_CREATE", "ON_SCHEDULE"] "ON_CREATE or ON_SCHEDULE" (some first)
  else if ← given (k == "ON") (word "COMMIT") then onCommit
  else if ← given (k == "IF") (words ["NOT", "EXISTS"]) then pure ()
  else if ← given (k == "REQUIRE") (word "USER") then pure ()
  else fail (.expected "end of statement" (some first))

/-- The expressions of a clause that says nothing of the columns, behind its keyword, which `first`
is. -/
def tableSetting (g : Grammar) (first : Lexeme) : Parser (List Expr) := do
  let k := first.token.keyword
  if k == "CLUSTER" then
    expectWord "BY"
    parenthesized (commaList g (anyExpr g))
  else if k == "AGGREGATION" then
    expectWord "POLICY"
    return [nameExpr (← objectName g false)]
  else if k == "ROW" then
    expectWords ["ACCESS", "POLICY"]
    let name ← objectName g false
    expectWord "ON"
    let _ ← parenthesized (commaList g identifier)
    return [nameExpr name]
  else if k == "TAG" then return (← parenthesized (commaList g (tag g))).map assemble
  else
    plainSetting g first
    return []

/-- A table to define by clauses in any order, behind `TABLE`. Whether it is complete is asked
where its statement ends. -/
def createTableFreely (g : Grammar) (located : Bool) : Parser Statement := do
  let _ ← words ["IF", "NOT", "EXISTS"]
  let name ← objectName g false
  let draft ← repeatStep (fun (t : Draft) => do
    match ← peek with
    | none => return none
    | some x =>
      if x.token.isSymbol ";" then return none
      else if x.token.isSymbol "(" then
        let c ← tableColumns g
        return some ({ t with columns := !c.columns.isEmpty }.add (c.columns ++ c.constraints))
      else if ← atOneOf ["AT", "BEFORE"] then return some (t.add (← tableVersion g))
      else
        skip
        let k := x.token.keyword
        if k == "AS" then return some (t.fill (← g.query))
        else if k == "CLONE" then
          let source ← clonedTable g
          return some ({ t with clone := source.isSome }.add (source.toList.map nameExpr))
        else if k == "LIKE" then
          let source ← objectName g false
          return some ({ t with like := true }.add [nameExpr source])
        else
          let t := { t with location := t.location || k == "BASE_LOCATION" }
          return some (t.add (← tableSetting g x)))
    ⟨false, none, false, false, false, []⟩
  if !draft.isComplete then fail (.broken "unexpected end of input" none)
  else if located && !draft.location then
    fail (.broken "BASE_LOCATION is required for ICEBERG tables" none)
  else return .createTable name draft.query draft.others

/-- `CREATE` and the words behind it, where clauses stand in any order. What is no table is read
again as a statement, from a place that depends on the words. -/
def createFreely (g : Grammar) (other : Parser Statement) : Parser Statement := do
  let start ← get
  expectWord "CREATE"
  let replaces ← words ["OR", "REPLACE"]
  let _ ← oneOf ["LOCAL", "GLOBAL"]
  let _ ← word "DYNAMIC"
  let kind ← oneOf ["TEMP", "TEMPORARY", "VOLATILE", "TRANSIENT", "ICEBERG"]
  if ← word "TABLE" then createTableFreely g (kind == some "ICEBERG")
  else
    let taken := start.rest.length - (← get).rest.length
    let temporary := kind == some "TEMP" || kind == some "TEMPORARY"
    let back := 1 + (if replaces then 2 else 0) + (if temporary then 1 else 0)
    set { start with rest := start.rest.drop (taken - back) }
    other

/-! Views. -/

/-- A column of a view to define: its name, what is said of it, and its type in one dialect. -/
def viewColumn (g : Grammar) : Parser Expr := do
  let name ← identifier
  let options ← repeatStep (fun parts => do
    match ← property g with
    | some p => return some (parts ++ [.text " "] ++ p)
    | none => return none) []
  let type ← do
    if g.dialect.oneOf [.clickhouse] then pure (.text " " :: (← dataType g).parts) else pure []
  return assembleOver (.marked name.region) ([.text name.print] ++ type ++ options)

/-- The columns of a view to define, if they follow. -/
def viewColumns (g : Grammar) : Parser (List Expr) := do
  if !(← symbol "(") then return []
  else if ← symbol ")" then return []
  else
    let columns ← listOf (g.dialect.oneOf [.bigquery]) (reservedWord g) (viewColumn g)
    expectSymbol ")"
    return columns

/-- A view to define. -/
def createView (g : Grammar) : Parser Statement := do
  let d := g.dialect
  let _ ← word "SECURE"
  let _ ← word "MATERIALIZED"
  expectWord "VIEW"
  let conditional ← words ["IF", "NOT", "EXISTS"]
  let name ← objectName g true
  if !conditional then
    let _ ← words ["IF", "NOT", "EXISTS"]
  let columns ← viewColumns g
  let storage ← options g "WITH"
  if ← word "CLUSTER" then
    expectWord "BY"
    let _ ← columnList g true false identifier
  let more ← if d.oneOf [.bigquery, .generic] then options g "OPTIONS" else pure []
  let target ← do
    if ← given (d.oneOf [.clickhouse, .generic]) (word "TO") then pure [← objectName g false]
    else pure []
  if ← given (d.oneOf [.snowflake, .generic]) (word "COMMENT") then
    expectSymbol "="
    let _ ← commentText
  expectWord "AS"
  let q ← g.query
  if d.oneOf [.redshift, .generic] then
    let _ ← words ["WITH", "NO", "SCHEMA", "BINDING"]
  return .createView name q (columns ++ (storage ++ more).map assemble ++ target.map nameExpr)

/-- How a view is computed and by whose rights it is read, if said: the owner of the rights. -/
def viewRights (g : Grammar) : Parser (List Name) := do
  if ← word "ALGORITHM" then
    expectSymbol "="
    let _ ← expectOneOf ["UNDEFINED", "MERGE", "TEMPTABLE"]
  let owner ← do
    if ← word "DEFINER" then
      expectSymbol "="
      let name ← objectName g false
      if ← given (g.dialect.oneOf [.mysql] && name.length == 1) (symbol "@") then
        let _ ← identifier
      pure [name]
    else pure []
  if ← words ["SQL", "SECURITY"] then
    let _ ← expectOneOf ["DEFINER", "INVOKER"]
  return owner

/-- A definition with more expressions in front. -/
def withOthers (es : List Expr) : Statement → Statement
  | .createView name q others => .createView name q (es ++ others)
  | .createTable name q others => .createTable name q (es ++ others)
  | s => s

/-- A table, a view or another object to define, behind `CREATE`. -/
def create (g : Grammar) : Parser Statement := do
  let replaces ← words ["OR", "REPLACE"]
  let _ ← words ["OR", "ALTER"]
  let _ ← word "LOCAL"
  let _ ← word "GLOBAL"
  let _ ← word "TRANSIENT"
  let _ ← oneOf ["TEMP", "TEMPORARY"]
  if g.dialect.oneOf [.duckdb] then
    let _ ← word "PERSISTENT"
  let owner ← viewRights g
  let defined (s : Statement) : Statement := withOthers (owner.map nameExpr) s
  if ← word "TABLE" then return defined (← createTable g)
  else if (← atOneOf ["MATERIALIZED", "VIEW"]) || (← atWords ["SECURE", "VIEW"])
      || (← atWords ["SECURE", "MATERIALIZED", "VIEW"]) then return defined (← createView g)
  else if replaces then
    expected "[EXTERNAL] TABLE or [MATERIALIZED] VIEW or FUNCTION after CREATE OR REPLACE"
  else
    match ← createObject g with
    | some s => return s
    | none => expected "an object type after CREATE"

end ColumnLint.Sql.Grammar
