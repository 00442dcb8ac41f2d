import ColumnLint.Sql.Grammar.Literal

/-
  Options in parentheses, and the properties that follow the name and the type of a column in a
  definition. Both are texts around the expressions in them.
-/

namespace ColumnLint.Sql.Grammar

open ColumnLint.Text ColumnLint.Sql.Parser

/-! Options. -/

/-- Texts with commas between them, in parentheses. -/
def inParentheses (items : List String) : String := "(" ++ ", ".intercalate items ++ ")"

/-- A column and the direction of its index. -/
def indexedColumn : Parser String := do
  let i ← identifier
  let direction ← oneOf ["ASC", "DESC"]
  return i.print ++ spaced (direction.getD "")

/-- An option that clusters a table. -/
def clusteredOption (g : Grammar) : Parser String := do
  if ← words ["CLUSTERED", "COLUMNSTORE", "INDEX", "ORDER"] then
    let names ← columnList g false false identifier
    return "CLUSTERED COLUMNSTORE INDEX ORDER " ++ inParentheses (names.map Ident.print)
  else if ← words ["CLUSTERED", "COLUMNSTORE", "INDEX"] then return "CLUSTERED COLUMNSTORE INDEX"
  else if ← words ["CLUSTERED", "INDEX"] then
    let columns ← parenthesized (commaList g indexedColumn)
    return "CLUSTERED INDEX " ++ inParentheses columns
  else fail (.broken "invalid CLUSTERED sequence" none)

/-- An option that divides a table by the values of a column. -/
def partitionOption (g : Grammar) : Parser (List Part) := do
  expectWord "PARTITION"
  parenthesized do
    let column ← identifier
    expectWord "RANGE"
    let side ← oneOf ["LEFT", "RIGHT"]
    expectWords ["FOR", "VALUES"]
    let values ← parenthesized (commaList g (anyExpr g))
    let lead := "PARTITION (" ++ column.print ++ " RANGE" ++ spaced (side.getD "")
    return Part.enclosed (lead ++ " FOR VALUES (") values "))"

/-- An option: a name with its value, or one of the ways in which a table is stored. -/
def option (g : Grammar) : Parser (List Part) := do
  let stores := g.dialect.oneOf [.generic, .mssql]
  if ← given stores (atWord "HEAP") then return [.text (← identifier).print]
  else if ← given stores (atWord "PARTITION") then partitionOption g
  else if ← given stores (atWord "CLUSTERED") then return [.text (← clusteredOption g)]
  else
    let key ← identifier
    expectSymbol "="
    return [.text (key.print ++ " = "), .operand (← anyExpr g)]

/-- Options in parentheses behind a keyword, none if the keyword does not follow. -/
def options (g : Grammar) (k : String) : Parser (List (List Part)) := do
  if ← word k then parenthesized (commaList0 g ")" (option g)) else return []

/-! Properties of columns. -/

/-- When a constraint is checked: each of the three answers at most once. -/
def characteristics : Parser String := do
  let (deferrable, initially, enforced) ← repeatStep (fun (a, b, c) => do
    if ← given (a == "") (words ["NOT", "DEFERRABLE"]) then return some (" NOT DEFERRABLE", b, c)
    else if ← given (a == "") (word "DEFERRABLE") then return some (" DEFERRABLE", b, c)
    else if ← given (b == "") (word "INITIALLY") then
      if ← word "DEFERRED" then return some (a, " INITIALLY DEFERRED", c)
      else if ← word "IMMEDIATE" then return some (a, " INITIALLY IMMEDIATE", c)
      else expected "one of DEFERRED or IMMEDIATE"
    else if ← given (c == "") (word "ENFORCED") then return some (a, b, " ENFORCED")
    else if ← given (c == "") (words ["NOT", "ENFORCED"]) then return some (a, b, " NOT ENFORCED")
    else return none) ("", "", "")
  return deferrable ++ initially ++ enforced

/-- What happens to a row when the row that it refers to changes. -/
def referentialAction : Parser String := do
  if ← word "RESTRICT" then return "RESTRICT"
  else if ← word "CASCADE" then return "CASCADE"
  else if ← words ["SET", "NULL"] then return "SET NULL"
  else if ← words ["NO", "ACTION"] then return "NO ACTION"
  else if ← words ["SET", "DEFAULT"] then return "SET DEFAULT"
  else expected "one of RESTRICT, CASCADE, SET NULL, NO ACTION or SET DEFAULT"

/-- What a column or a table refers to, behind `REFERENCES`. -/
def references (g : Grammar) : Parser (List Part) := do
  let name ← objectName g false
  let columns ← columnList g true false identifier
  let (deletion, update) ← repeatStep (fun (a, b) => do
    if ← given (a == "") (words ["ON", "DELETE"]) then
      return some (" ON DELETE " ++ (← referentialAction), b)
    else if ← given (b == "") (words ["ON", "UPDATE"]) then
      return some (a, " ON UPDATE " ++ (← referentialAction))
    else return none) ("", "")
  let list := if columns.isEmpty then "" else " " ++ inParentheses (columns.map Ident.print)
  return [.text "REFERENCES "] ++ nameParts name
    ++ [.text (list ++ deletion ++ update ++ (← characteristics))]

/-- The expression of a property. In parentheses words mean what they usually do. -/
def propertyExpr (g : Grammar) : Parser Expr := do
  if ← atSymbol "(" then inMode .usual g.operand else anyExpr g

/-- The options of a sequence, in their order. -/
def sequenceOptions (g : Grammar) : Parser String := do
  let number (lead : String) : Parser String := do return lead ++ (← signedNumber g).print
  let increment ← do
    if ← words ["INCREMENT", "BY"] then number " INCREMENT BY "
    else if ← word "INCREMENT" then number " INCREMENT "
    else pure ""
  let least ← do
    if ← word "MINVALUE" then number " MINVALUE "
    else if ← words ["NO", "MINVALUE"] then pure " NO MINVALUE"
    else pure ""
  let greatest ← do
    if ← word "MAXVALUE" then number " MAXVALUE "
    else if ← words ["NO", "MAXVALUE"] then pure " NO MAXVALUE"
    else pure ""
  let first ← do
    if ← words ["START", "WITH"] then number " START WITH "
    else if ← word "START" then number " START "
    else pure ""
  let cache ← do
    if ← word "CACHE" then number " CACHE " else pure ""
  let cycle ← do
    if ← words ["NO", "CYCLE"] then pure " NO CYCLE"
    else if ← word "CYCLE" then pure " CYCLE"
    else pure ""
  return increment ++ least ++ greatest ++ first ++ cache ++ cycle

/-- How the value of a column that is computed from others is kept. -/
def computedMode : Parser String := do
  if ← word "STORED" then return " STORED"
  else if ← word "VIRTUAL" then return " VIRTUAL"
  else return ""

/-- How a value is generated, behind `GENERATED`; nothing if other words follow. -/
def generated (g : Grammar) : Parser (Option (List Part)) := do
  let identity (lead : String) : Parser (Option (List Part)) := do
    if ← symbol "(" then
      let list ← sequenceOptions g
      expectSymbol ")"
      return some [.text (lead ++ (if list == "" then "" else " (" ++ list ++ " )"))]
    else return some [.text lead]
  if ← words ["ALWAYS", "AS", "IDENTITY"] then identity "GENERATED ALWAYS AS IDENTITY"
  else if ← words ["BY", "DEFAULT", "AS", "IDENTITY"] then
    identity "GENERATED BY DEFAULT AS IDENTITY"
  else if ← words ["ALWAYS", "AS"] then
    if ← symbol "(" then
      let e ← inMode .usual (anyExpr g)
      expectSymbol ")"
      let kept ← do
        if ← given (g.dialect.oneOf [.postgres]) (not <$> atWord "STORED") then expected "STORED"
        else computedMode
      return some [.text "GENERATED ALWAYS AS (", .operand e, .text (")" ++ kept)]
    else return none
  else return none

/-- `(n, m)`: where the numbers of a column start and how they grow. -/
def numbering (g : Grammar) : Parser String := do
  let first ← signedNumber g
  expectSymbol ","
  let step ← signedNumber g
  expectSymbol ")"
  return "(" ++ first.print ++ ", " ++ step.print ++ ")"

/-- A tag and its value. -/
def tag (g : Grammar) : Parser (List Part) := do
  let name ← objectName g false
  expectSymbol "="
  return nameParts name ++ [.text ("=" ++ quotedPrint '\'' (← literalString g))]

/-- A numbering, a policy or tags, before which `WITH` may stand; nothing if no such property
follows. -/
def governedProperty (g : Grammar) : Parser (Option (List Part)) := do
  let lead ← atWord "WITH"
  let n := if lead then 1 else 0
  let skipWords (m : Nat) : Parser Unit := modify fun s => { s with rest := s.rest.drop (n + m) }
  let before := if lead then "WITH " else ""
  if ← atOneOfAt n ["IDENTITY", "AUTOINCREMENT"] then
    let k := ((← peekAt n).map fun x => x.token.keyword).getD ""
    skipWords 1
    let numbers ← do
      if ← symbol "(" then numbering g
      else if ← word "START" then
        let first ← signedNumber g
        expectWord "INCREMENT"
        pure (" START " ++ first.print ++ " INCREMENT " ++ (← signedNumber g).print)
      else pure ""
    let order ← oneOf ["ORDER", "NOORDER"]
    return some [.text (k ++ numbers ++ spaced (order.getD ""))]
  else if (← atOneOfAt n ["MASKING", "PROJECTION"]) && (← atOneOfAt (n + 1) ["POLICY"]) then
    let k := ((← peekAt n).map fun x => x.token.keyword).getD ""
    skipWords 2
    let name ← objectName g false
    let columns ← do
      if ← word "USING" then
        let names ← parenthesized (commaList g identifier)
        pure (" USING " ++ inParentheses (names.map Ident.print))
      else pure ""
    return some ([.text (before ++ k ++ " POLICY ")] ++ nameParts name ++ [.text columns])
  else if ← atOneOfAt n ["TAG"] then
    skipWords 1
    let tags ← parenthesized (commaList g (tag g))
    return some (.text (before ++ "TAG ") :: Part.inParentheses tags)
  else return none

/-- A property of a column, nothing if none follows. Some words are taken in every dialect and
mean a property only in some. -/
def usualProperty (g : Grammar) : Parser (Option (List Part)) := do
  let d := g.dialect
  let clickhouseLike := d.oneOf [.generic, .clickhouse]
  let plain (text : String) : Parser (Option (List Part)) := return some [.text text]
  let withName (lead : String) : Parser (Option (List Part)) := do
    return some (.text lead :: nameParts (← objectName g false))
  let withExpr (lead : String) : Parser (Option (List Part)) := do
    return some [.text lead, .operand (← propertyExpr g)]
  if ← words ["CHARACTER", "SET"] then withName "CHARACTER SET "
  else if ← word "COLLATE" then withName "COLLATE "
  else if ← words ["NOT", "NULL"] then plain "NOT NULL"
  else if ← word "COMMENT" then plain ("COMMENT " ++ quotedPrint '\'' (← commentText))
  else if ← word "NULL" then plain "NULL"
  else if ← word "DEFAULT" then withExpr "DEFAULT "
  else if ← given clickhouseLike (word "MATERIALIZED") then withExpr "MATERIALIZED "
  else if ← given clickhouseLike (word "ALIAS") then withExpr "ALIAS "
  else if ← given clickhouseLike (word "EPHEMERAL") then
    if (← atSymbol ",") || (← atSymbol ")") then plain "EPHEMERAL"
    else withExpr "EPHEMERAL "
  else if ← words ["PRIMARY", "KEY"] then plain ("PRIMARY KEY" ++ (← characteristics))
  else if ← word "UNIQUE" then plain ("UNIQUE" ++ (← characteristics))
  else if ← word "REFERENCES" then some <$> references g
  else if ← word "CHECK" then
    let e ← parenthesized (inMode .usual (anyExpr g))
    return some [.text "CHECK (", .operand e, .text ")"]
  else if (← word "AUTO_INCREMENT") && d.oneOf [.generic, .mysql] then plain "AUTO_INCREMENT"
  else if (← word "AUTOINCREMENT") && d.oneOf [.generic, .sqlite] then plain "AUTOINCREMENT"
  else if (← word "ASC") && d.oneOf [.sqlite] then plain "ASC"
  else if (← word "DESC") && d.oneOf [.sqlite] then plain "DESC"
  else if (← words ["ON", "UPDATE"]) && d.oneOf [.generic, .mysql] then withExpr "ON UPDATE "
  else if ← word "GENERATED" then generated g
  else if ← given (d.oneOf [.generic, .bigquery]) (atWord "OPTIONS") then
    return some (.text "OPTIONS" :: Part.inParentheses (← options g "OPTIONS"))
  else if (← word "AS") && d.oneOf [.generic, .duckdb, .mysql, .sqlite] then
    let e ← parenthesized (anyExpr g)
    return some [.text "AS (", .operand e, .text (")" ++ (← computedMode))]
  else if (← word "SRID") && d.oneOf [.generic, .mysql] then withExpr "SRID "
  else if (← word "IDENTITY") && d.oneOf [.generic, .mssql] then
    if ← symbol "(" then plain ("IDENTITY" ++ (← numbering g))
    else plain "IDENTITY"
  else if ← given (d.oneOf [.generic, .sqlite]) (words ["ON", "CONFLICT"]) then
    let k ← expectOneOf ["ROLLBACK", "ABORT", "FAIL", "IGNORE", "REPLACE"]
    plain ("ON CONFLICT " ++ k)
  else return none

/-- A property of a column, nothing if none follows. -/
def property (g : Grammar) : Parser (Option (List Part)) := do
  let governed ← if g.dialect.oneOf [.snowflake] then governedProperty g else pure none
  match governed with
  | some parts => return some parts
  | none => inMode .columnDefinition (usualProperty g)

/-- The properties of a column, each of which may have a name. -/
def properties (g : Grammar) : Parser (List Part) :=
  repeatStep (fun parts => do
    if ← word "CONSTRAINT" then
      let name ← identifier
      match ← property g with
      | some p => return some (parts ++ [.text (" CONSTRAINT " ++ name.print ++ " ")] ++ p)
      | none => expected "constraint details after CONSTRAINT <name>"
    else
      match ← property g with
      | some p => return some (parts ++ [.text " "] ++ p)
      | none => return none) []

/-- The column's type is left out, which one dialect allows. -/
def atUntypedColumn (g : Grammar) : Parser Bool := do
  if !g.dialect.oneOf [.sqlite] then return false
  else
    match ← peekToken with
    | some (.word _ _ k) =>
      return ["CONSTRAINT", "PRIMARY", "NOT", "UNIQUE", "CHECK", "DEFAULT", "COLLATE",
        "REFERENCES", "GENERATED", "AS"].contains k
    | _ => return true

/-- The definition of a column: its name, its type and its properties. `type` reads a type. -/
def columnWith (g : Grammar) (type : Parser (List Part)) : Parser (List Part) := do
  let name ← identifier
  let t ← if ← atUntypedColumn g then pure [] else List.cons (.text " ") <$> type
  return [.text name.print] ++ t ++ (← properties g)

end ColumnLint.Sql.Grammar
