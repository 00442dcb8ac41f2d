import ColumnLint.Sql.Grammar.Change

/-
  How a table to define is stored: the format of its rows and files, how it is divided, and the
  options that follow its columns. Only the expressions in them are kept.
-/

namespace ColumnLint.Sql.Grammar

open ColumnLint.Text ColumnLint.Sql.Parser

/-! Formats of rows and files. -/

/-- The words behind each kind of delimiter. -/
def delimiterWords : List (String × List String) :=
  [("FIELDS", ["TERMINATED", "BY"]),
   ("COLLECTION", ["ITEMS", "TERMINATED", "BY"]),
   ("MAP", ["KEYS", "TERMINATED", "BY"]),
   ("LINES", ["TERMINATED", "BY"]),
   ("NULL", ["DEFINED", "AS"])]

/-- The format of rows, behind `ROW`. A kind of delimiter without its words ends the list. -/
def rowFormat (g : Grammar) : Parser Unit := do
  expectWord "FORMAT"
  if ← word "SERDE" then
    let _ ← literalString g
  else
    let _ ← word "DELIMITED"
    repeatStep (fun (_ : Unit) => do
      match ← oneOf (delimiterWords.map Prod.fst) with
      | none => return none
      | some k =>
        if ← words ((delimiterWords.lookup k).getD []) then
          let _ ← identifier
          if ← given (k == "FIELDS") (words ["ESCAPED", "BY"]) then
            let _ ← identifier
          return some ()
        else return none) ()

/-- The formats of rows and files and the place of the files, in any order. -/
def storageFormat (g : Grammar) : Parser (List Expr) :=
  repeatStep (fun found => do
    if ← word "ROW" then
      rowFormat g
      return some found
    else if ← word "STORED" then
      expectWord "AS"
      if ← word "INPUTFORMAT" then
        let input ← anyExpr g
        expectWord "OUTPUTFORMAT"
        return some (found ++ [input, ← anyExpr g])
      else
        let _ ← fileFormat
        return some found
    else if ← word "LOCATION" then
      let _ ← literalString g
      return some found
    else if ← atWords ["WITH", "SERDEPROPERTIES"] then
      skip
      match ← options g "SERDEPROPERTIES" with
      | [] => return none
      | items => return some (found ++ items.map assemble)
    else return none) []

/-- The columns that files are divided by, and the buckets inside them. -/
def distribution (g : Grammar) : Parser (List Expr) := do
  let columns ← do
    if ← words ["PARTITIONED", "BY"] then parenthesized (commaList g (columnDefinition g))
    else pure []
  let keys ← do
    if ← given (g.dialect.oneOf [.generic, .hive]) (words ["CLUSTERED", "BY"]) then
      let _ ← columnList g false false identifier
      let keys ← do
        if ← words ["SORTED", "BY"] then parenthesized (sortKeys g) else pure []
      expectWord "INTO"
      let _ ← numberValue g
      expectWord "BUCKETS"
      pure keys
    else pure []
  return columns.map assemble ++ keys

/-! Options of tables. -/

/-- The keywords of the options that have a value, longer ones first. -/
def valueOptions : List (List String) :=
  [["DEFAULT", "CHARSET"], ["CHARSET"], ["DEFAULT", "CHARACTER", "SET"], ["CHARACTER", "SET"],
   ["DEFAULT", "COLLATE"], ["COLLATE"], ["DATA", "DIRECTORY"], ["INDEX", "DIRECTORY"],
   ["KEY_BLOCK_SIZE"], ["ROW_FORMAT"], ["PACK_KEYS"], ["STATS_AUTO_RECALC"],
   ["STATS_PERSISTENT"], ["STATS_SAMPLE_PAGES"], ["DELAY_KEY_WRITE"], ["COMPRESSION"],
   ["ENCRYPTION"], ["MAX_ROWS"], ["MIN_ROWS"], ["AUTOEXTEND_SIZE"], ["AVG_ROW_LENGTH"],
   ["CHECKSUM"], ["CONNECTION"], ["ENGINE_ATTRIBUTE"], ["PASSWORD"],
   ["SECONDARY_ENGINE_ATTRIBUTE"], ["INSERT_METHOD"], ["AUTO_INCREMENT"]]

/-- Takes the first of the phrases that is next. -/
def oneOfWords : List (List String) → Parser Bool
  | [] => pure false
  | ks :: rest => do if ← words ks then return true else oneOfWords rest

/-- The storage of a table space, behind `STORAGE`. -/
def storageKind : Parser Unit := do
  let _ ← symbol "="
  match ← peekToken with
  | some (.word text _ _) =>
    if ["DISK".toList, "MEMORY".toList].contains (upper text.toList) then skip
    else expected "Storage type (DISK or MEMORY)"
  | _ => expected "Token::Word"

/-- An option of a table; false if none follows. -/
def tableOption (g : Grammar) : Parser Bool := do
  if ← words ["START", "TRANSACTION"] then return true
  else if ← word "COMMENT" then
    let _ ← symbol "="
    match ← peekToken with
    | some (.literal .single _) =>
      skip
      return true
    | found =>
      fail (.broken ("Expected: Token::SingleQuotedString, found: "
        ++ (found.map Token.render).getD "EOF") none)
  else if ← word "ENGINE" then
    let _ ← symbol "="
    match ← peekToken with
    | some (.word ..) =>
      skip
      if ← atSymbol "(" then
        let _ ← parenthesized (commaList0 g ")" identifier)
      return true
    | _ => expected "Token::Word"
  else if ← word "TABLESPACE" then
    let _ ← symbol "="
    match ← peekToken with
    | some (.word ..) | some (.literal .single _) =>
      skip
      if ← word "STORAGE" then storageKind
      return true
    | _ => expected "Token::Word"
  else if ← word "UNION" then
    let _ ← symbol "="
    if !(← atSymbol "(") then expected "Token::LParen"
    else
      let _ ← parenthesized (commaList0 g ")" identifier)
      return true
  else if ← oneOfWords valueOptions then
    let _ ← symbol "="
    match ← attempt (value g) with
    | some _ => return true
    | none =>
      let _ ← identifier
      return true
  else return false

/-- Options of a table, with commas between them or without. -/
def tableOptions (g : Grammar) : Parser Unit :=
  repeatStep (fun (_ : Unit) => do
    if ← tableOption g then
      let _ ← symbol ","
      return some ()
    else return none) ()

/-- The clauses that configure a table. Options without parentheses stand only where there are none
in parentheses. -/
def configuration (g : Grammar) : Parser (List Expr) := do
  let d := g.dialect
  let bigqueryLike := d.oneOf [.generic, .bigquery]
  let parents ← do
    if ← word "INHERITS" then columnList g false false (objectName g true) else pure []
  let storage ← options g "WITH"
  let properties ← options g "TBLPROPERTIES"
  let partition ← do
    if ← given (d.oneOf [.generic, .bigquery, .postgres]) (words ["PARTITION", "BY"]) then
      pure [← anyExpr g]
    else pure []
  let cluster ← do
    if ← given bigqueryLike (words ["CLUSTER", "BY"]) then commaList g (anyExpr g) else pure []
  let hasOptions ← given bigqueryLike (atWord "OPTIONS")
  let others ← if hasOptions then options g "OPTIONS" else pure []
  if !d.oneOf [.hive] && storage.isEmpty && properties.isEmpty && !hasOptions then
    tableOptions g
  return parents.map nameExpr ++ (storage ++ properties).map assemble ++ partition ++ cluster
    ++ others.map assemble

end ColumnLint.Sql.Grammar
