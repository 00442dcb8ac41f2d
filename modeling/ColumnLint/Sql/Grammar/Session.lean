import ColumnLint.Sql.Grammar.Object
import ColumnLint.Sql.Grammar.Query

/-
  Statements about a session: transactions, variables, what is shown and used, rights, and calls of
  procedures. Each parser begins behind its keyword.
-/

namespace ColumnLint.Sql.Grammar

open ColumnLint.Text ColumnLint.Sql.Parser

/-! Transactions. -/

def isolationLevel : Parser String := do
  if ← words ["READ", "UNCOMMITTED"] then return "READ UNCOMMITTED"
  else if ← words ["READ", "COMMITTED"] then return "READ COMMITTED"
  else if ← words ["REPEATABLE", "READ"] then return "REPEATABLE READ"
  else if ← word "SERIALIZABLE" then return "SERIALIZABLE"
  else if ← word "SNAPSHOT" then return "SNAPSHOT"
  else expected "isolation level"

/-- The modes of a transaction. Commas between them may be left out, but behind a comma one has to
follow. -/
def transactionModes : Parser String := do
  let (modes, _) ← repeatStep (fun (modes, required) => do
    let mode ← do
      if ← words ["ISOLATION", "LEVEL"] then pure (some (" ISOLATION LEVEL " ++ (← isolationLevel)))
      else if ← words ["READ", "ONLY"] then pure (some " READ ONLY")
      else if ← words ["READ", "WRITE"] then pure (some " READ WRITE")
      else if required then expected "transaction mode"
      else pure none
    match mode with
    | some m => return some (modes ++ m, ← symbol ",")
    | none => return none) ("", false)
  return modes

/-- Whether another transaction follows at once, if said. -/
def transactionChain : Parser Unit := do
  let _ ← oneOf ["TRANSACTION", "WORK", "TRAN"]
  if ← word "AND" then
    let _ ← word "NO"
    expectWord "CHAIN"

/-- The words that start, end or mark a transaction. -/
def transactionWords : List String :=
  ["START", "BEGIN", "COMMIT", "END", "ROLLBACK", "SAVEPOINT", "RELEASE"]

/-- A statement that starts, ends or marks a transaction. -/
def transaction (g : Grammar) (k : String) : Parser Statement := do
  let done (text : String) : Statement := plainCommand [.text (k ++ text)]
  match k with
  | "START" =>
    expectWord "TRANSACTION"
    return done (" TRANSACTION" ++ (← transactionModes))
  | "BEGIN" =>
    if g.dialect.oneOf [.generic, .sqlite] then
      let _ ← oneOf ["DEFERRED", "IMMEDIATE", "EXCLUSIVE"]
    let _ ← oneOf ["TRANSACTION", "WORK", "TRAN"]
    return done (← transactionModes)
  | "SAVEPOINT" => return done (" " ++ (← identifier).print)
  | "RELEASE" =>
    let _ ← word "SAVEPOINT"
    return done (" SAVEPOINT " ++ (← identifier).print)
  | "ROLLBACK" =>
    transactionChain
    if ← word "TO" then
      let _ ← word "SAVEPOINT"
      return done (" TO SAVEPOINT " ++ (← identifier).print)
    else return done ""
  | _ =>
    transactionChain
    return done ""

/-! Variables. -/

/-- The sign between a variable and its value. -/
def assignSign : Parser Bool := do
  if ← symbol "=" then return true else word "TO"

/-- The values of a variable: queries without parentheses, or expressions. -/
def variableValues (g : Grammar) : Parser (List Expr) :=
  listOf false (fun _ _ => false) do
    if ← atOneOf ["SELECT", "WITH"] then return .query (← g.query)
    else
      match ← attempt (anyExpr g) with
      | some e => return e
      | none => expected "variable value"

/-- A variable of any scope and its value. -/
def variableAssignment (g : Grammar) : Parser (List Part) := do
  let _ ← oneOf ["SESSION", "LOCAL", "GLOBAL"]
  let name ← objectName g false
  if ← assignSign then return nameParts name ++ [.text " = ", .operand (← anyExpr g)]
  else expected "assignment operator"

/-- A parameter of a session that is set without a sign, in the dialect that has such. -/
def sessionParameter (g : Grammar) : Parser (List Part) := do
  let switch : Parser String := expectOneOf ["ON", "OFF"]
  if ← word "STATISTICS" then
    let topic ← expectOneOf ["IO", "PROFILE", "TIME", "XML"]
    return [.text ("STATISTICS " ++ topic ++ " " ++ (← switch))]
  else if ← word "IDENTITY_INSERT" then
    let name ← objectName g false
    return [.text "IDENTITY_INSERT "] ++ nameParts name ++ [.text (" " ++ (← switch))]
  else
    let names ← commaList g identifier
    return [.text (", ".intercalate (names.map Ident.print) ++ " "), .operand (← anyExpr g)]

/-- Variables and their values, behind the scope. -/
def variableSettings (g : Grammar) : Parser (List Part) := do
  let d := g.dialect
  let start ← get
  if ← given (d.oneOf [.generic, .bigquery, .snowflake]) (symbol "(") then
    let names ← commaList g identifier
    expectSymbol ")"
    if !(← assignSign) then expected "equals sign or TO"
    else
      let values ← parenthesized (variableValues g)
      return .text (inParentheses (names.map Ident.print)) :: Part.enclosed " = (" values ")"
  else
    let name ← objectName g false
    if ← assignSign then return nameParts name ++ Part.enclosed " = " (← variableValues g) ""
    else if d.oneOf [.mssql] then
      set start
      sessionParameter g
    else expected "equals sign or TO"

/-- The time zone of a session. -/
def zoneSetting (g : Grammar) : Parser (List Part) := do
  if ← assignSign then return Part.enclosed "TIMEZONE = " (← variableValues g) ""
  else return [.text "TIME ZONE ", .operand (← anyExpr g)]

/-- The character set of a session. -/
def namesSetting (g : Grammar) : Parser (List Part) := do
  if ← word "DEFAULT" then return [.text "NAMES DEFAULT"]
  else
    let name ← identifier
    let collation ← do
      if ← word "COLLATE" then pure (" COLLATE " ++ quotedPrint '\'' (← literalString g))
      else pure ""
    return [.text ("NAMES " ++ name.print ++ collation)]

/-- What a session's transactions are like. -/
def transactionSetting (g : Grammar) : Parser (List Part) := do
  if ← word "SNAPSHOT" then return [.text ("TRANSACTION SNAPSHOT " ++ (← value g).text)]
  else return [.text ("TRANSACTION" ++ (← transactionModes))]

/-- A setting of a session. -/
def setting (g : Grammar) : Parser (List Part) := do
  let d := g.dialect
  let start ← get
  let hive ← word "HIVEVAR"
  if hive then expectSymbol ":"
  let scope ← if hive then pure none else oneOf ["SESSION", "LOCAL", "GLOBAL"]
  let role ← attempt do
    expectWord "ROLE"
    identifier
  if let some i := role then return [.text ("ROLE " ++ i.print)]
  else if ← words ["TIME", "ZONE"] then zoneSetting g
  else if ← word "TIMEZONE" then zoneSetting g
  else if ← given (d.oneOf [.generic, .mysql, .postgres]) (word "NAMES") then namesSetting g
  else if ← words ["CHARACTERISTICS", "AS", "TRANSACTION"] then
    return [.text ("CHARACTERISTICS AS TRANSACTION" ++ (← transactionModes))]
  else if ← word "TRANSACTION" then transactionSetting g
  else if ← word "AUTHORIZATION" then return [.text ("AUTHORIZATION " ++ (← identifier).print)]
  else if d.oneOf [.generic, .mysql] then
    -- the scope is read again as that of the first of several variables
    if scope.isSome then set start
    match ← attempt (commaList g (variableAssignment g)) with
    | some items => return Part.joined ", " items
    | none => variableSettings g
  else variableSettings g

def setStatement (g : Grammar) : Parser Statement := do
  return plainCommand (.text "SET " :: (← setting g))

/-! What is shown and used. -/

/-- Which of the objects are shown, if said. -/
def showFilter (g : Grammar) : Parser (List Part) := do
  match ← oneOf ["LIKE", "ILIKE", "WHERE"] with
  | some "WHERE" => return [.text " WHERE ", .operand (← anyExpr g)]
  | some k => return [.text (" " ++ k ++ " " ++ quotedPrint '\'' (← literalString g))]
  | none => return []

/-- The object whose parts are shown, if said. -/
def showParent (g : Grammar) : Parser (List Part) := do
  match ← oneOf ["FROM", "IN"] with
  | some k =>
    let _ ← oneOf ["ACCOUNT", "DATABASE", "SCHEMA", "TABLE", "VIEW"]
    return .text (" " ++ k ++ " ") :: nameParts (← objectName g false)
  | none => return []

/-- Words for what is shown of an object or of all objects, the rest of the words behind them. -/
def shownObjects : List (List String) :=
  [["COLUMNS"], ["FIELDS"], ["TABLES"], ["MATERIALIZED", "VIEWS"], ["VIEWS"], ["DATABASES"],
   ["SCHEMAS"]]

def showStatement (g : Grammar) : Parser Statement := do
  let d := g.dialect
  let _ ← word "TERSE"
  let extended ← word "EXTENDED"
  let full ← word "FULL"
  let _ ← word "SESSION"
  let _ ← word "GLOBAL"
  let _ ← word "EXTERNAL"
  let listed ← shownObjects.foldlM
    (fun found ks => if found then pure true else words ks) false
  if listed then
    let before ← showFilter g
    let parent ← showParent g
    let behind ← if before.isEmpty then showFilter g else pure []
    return plainCommand (.text "SHOW" :: before ++ parent ++ behind)
  else if ← word "FUNCTIONS" then return plainCommand (.text "SHOW FUNCTIONS" :: (← showFilter g))
  else if extended || full then
    fail (.broken "EXTENDED/FULL are not supported with this type of SHOW query" none)
  else if ← word "CREATE" then
    let kind ← expectOneOf ["TABLE", "TRIGGER", "FUNCTION", "PROCEDURE", "EVENT", "VIEW"]
    return plainCommand (.text ("SHOW CREATE " ++ kind ++ " ") :: nameParts (← objectName g false))
  else if ← word "COLLATION" then return plainCommand (.text "SHOW COLLATION" :: (← showFilter g))
  else if ← given (d.oneOf [.generic, .mysql]) (word "VARIABLES") then
    return plainCommand (.text "SHOW VARIABLES" :: (← showFilter g))
  else if ← given (d.oneOf [.generic, .mysql]) (word "STATUS") then
    return plainCommand (.text "SHOW STATUS" :: (← showFilter g))
  else return plainCommand [.text ("SHOW " ++ " ".intercalate (← namesAhead))]

def useStatement (g : Grammar) : Parser Statement := do
  let d := g.dialect
  if ← given (d.oneOf [.hive]) (word "DEFAULT") then return plainCommand [.text "USE DEFAULT"]
  else
    let kind ← do
      if d.oneOf [.databricks] then oneOf ["CATALOG", "DATABASE", "SCHEMA"]
      else if d.oneOf [.snowflake] then oneOf ["DATABASE", "SCHEMA", "WAREHOUSE", "ROLE", "SECONDARY"]
      else pure none
    if kind == some "SECONDARY" then
      expectWord "ROLES"
      let names ← commaList g identifier
      return plainCommand
        [.text ("USE SECONDARY ROLES " ++ ", ".intercalate (names.map Ident.print))]
    else
      let lead := "USE " ++ (kind.map (· ++ " ")).getD ""
      return plainCommand (.text lead :: nameParts (← objectName g false))

/-- A procedure to call, with its arguments or without. -/
def callStatement (g : Grammar) : Parser Statement := do
  let name ← objectName g false
  if ← atSymbol "(" then return .other [] [phrase ["CALL ", ""] [← call g name]]
  else return plainCommand (.text "CALL " :: nameParts name)

/-! Rights. -/

/-- A right: its words, up to what they are followed by, and the columns that it is for. -/
def right (g : Grammar) : Parser String := do
  let words ← repeatStep (fun (found : List String) => do
    match ← peekToken with
    | some (.word text _ k) =>
      if ["ON", "TO", "FROM"].contains k then return none
      else
        skip
        return some (found ++ [text])
    | _ => return none) []
  if words.isEmpty then expected "a privilege keyword"
  else
    let columns ← columnList g true false identifier
    let list := if columns.isEmpty then "" else " " ++ inParentheses (columns.map Ident.print)
    return " ".intercalate words ++ list

/-- Rights, and the objects that they are for if such are given. -/
def rights (g : Grammar) : Parser (List Part) := do
  let list ← commaList g (right g)
  let lead := ", ".intercalate list
  if ← word "ON" then
    let _ ← oneOf ["SEQUENCE", "DATABASE", "SCHEMA", "TABLE", "VIEW", "WAREHOUSE", "INTEGRATION",
      "USER", "CONNECTION", "FUNCTION", "PROCEDURE"]
    let names ← commaList g (objectName g false)
    return .text (lead ++ " ON ") :: Part.joined ", " (names.map nameParts)
  else return [.text lead]

/-- Who has a right. -/
def grantee (g : Grammar) : Parser (List Part) := do
  if ← word "PUBLIC" then return [.text "PUBLIC"]
  else
    let _ ← oneOf ["ROLE", "USER", "SHARE", "GROUP", "APPLICATION"]
    let name ← objectName g false
    let host ← if ← symbol "@" then pure ("@" ++ (← identifier).print) else pure ""
    return nameParts name ++ [.text host]

def grant (g : Grammar) : Parser Statement := do
  let list ← rights g
  expectWord "TO"
  let names ← commaList g (grantee g)
  let _ ← words ["WITH", "GRANT", "OPTION"]
  if ← words ["GRANTED", "BY"] then
    let _ ← identifier
  return plainCommand ([.text "GRANT "] ++ list ++ [.text " TO "] ++ Part.joined ", " names)

def revoke (g : Grammar) : Parser Statement := do
  let list ← rights g
  expectWord "FROM"
  let names ← commaList g (grantee g)
  if ← words ["GRANTED", "BY"] then
    let _ ← identifier
  let _ ← oneOf ["CASCADE", "RESTRICT"]
  return plainCommand ([.text "REVOKE "] ++ list ++ [.text " FROM "] ++ Part.joined ", " names)

/-- A statement about a session by its first word; nothing if it is none. -/
def sessionStatement (g : Grammar) : Parser (Option Statement) := do
  match ← oneOf (transactionWords ++ ["SET", "SHOW", "USE", "CALL", "GRANT", "REVOKE"]) with
  | none => return none
  | some "SET" => some <$> setStatement g
  | some "SHOW" => some <$> showStatement g
  | some "USE" => some <$> useStatement g
  | some "CALL" => some <$> callStatement g
  | some "GRANT" => some <$> grant g
  | some "REVOKE" => some <$> revoke g
  | some k => some <$> transaction g k

end ColumnLint.Sql.Grammar
