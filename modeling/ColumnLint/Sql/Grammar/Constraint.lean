import ColumnLint.Sql.Grammar.Call
import ColumnLint.Sql.Grammar.DataType

/-
  The columns of a table to define, and the constraints between them. Of the constraints only the
  expressions in them are kept.
-/

namespace ColumnLint.Sql.Grammar

open ColumnLint.Text ColumnLint.Sql.Parser

/-- `USING` and the kind of an index, if they follow. -/
def indexKind : Parser Bool := do
  if ← word "USING" then
    let _ ← identifier
    return true
  else return false

/-- What else is said of an index, any number of times. -/
def indexOptions (g : Grammar) : Parser Unit :=
  repeatStep (fun (_ : Unit) => do
    if ← indexKind then return some ()
    else if ← word "COMMENT" then
      let _ ← literalString g
      return some ()
    else return none) ()

/-- A key of an index: an expression, a class of operators and a direction. -/
def indexKey (g : Grammar) : Parser Expr := do
  let e ← anyExpr g
  let operators ← do
    if ← atOneOf ["ASC", "DESC", "NULLS", "WITH"] then pure none else attempt identifier
  let options ← sortOptions
  let fill ← fillClause g
  return assemble ([.operand e, .text (((operators.map fun i => " " ++ i.print).getD "") ++ options)]
    ++ fill)

/-- The keys of an index and what is said of it. -/
def indexBody (g : Grammar) : Parser (List Expr) := do
  let keys ← columnList g false false (indexKey g)
  indexOptions g
  return keys

/-- A key with an optional name, its kind, its columns and the time when it is checked. -/
def keyBody (g : Grammar) : Parser (List Expr) := do
  let _ ← attempt identifier
  let _ ← indexKind
  let keys ← indexBody g
  let _ ← characteristics
  return keys

/-- Whether nulls differ from one another in an index, if said. -/
def nullsDistinct : Parser String := do
  if ← word "NULLS" then
    let negated ← word "NOT"
    expectWord "DISTINCT"
    return if negated then " NULLS NOT DISTINCT" else " NULLS DISTINCT"
  else return ""

/-- What stands behind `UNIQUE`. -/
def uniqueBody (g : Grammar) : Parser (List Expr) := do
  let kind ← oneOf ["KEY", "INDEX"]
  if kind.isSome && !g.dialect.oneOf [.generic, .mysql] then
    expected "`index_name` or `(column_name [, ...])`"
  let _ ← nullsDistinct
  keyBody g

/-- What stands behind `FOREIGN`. -/
def foreignBody (g : Grammar) : Parser (List Expr) := do
  expectWord "KEY"
  let _ ← attempt identifier
  let _ ← columnList g false false identifier
  expectWord "REFERENCES"
  return [assemble (← references g)]

/-- What stands behind `CHECK`. -/
def checkBody (g : Grammar) : Parser (List Expr) := do
  let e ← parenthesized (anyExpr g)
  if !(← word "ENFORCED") then
    let _ ← words ["NOT", "ENFORCED"]
  return [e]

/-- The expressions of a constraint on a table, nothing if none follows. -/
def tableConstraint (g : Grammar) : Parser (Option (List Expr)) := do
  let indexes := g.dialect.oneOf [.generic, .mysql]
  let name ← optional "CONSTRAINT" identifier
  let here ← peek
  if ← word "UNIQUE" then some <$> uniqueBody g
  else if ← word "PRIMARY" then
    expectWord "KEY"
    some <$> keyBody g
  else if ← word "FOREIGN" then some <$> foreignBody g
  else if ← word "CHECK" then some <$> checkBody g
  else if indexes && name.isEmpty && (← atOneOf ["INDEX", "KEY"]) then
    skip
    if !(← atWord "USING") then
      let _ ← attempt identifier
    let _ ← indexKind
    some <$> indexBody g
  else if indexes && (← atOneOf ["FULLTEXT", "SPATIAL"]) then
    match name.head?, here with
    | some i, some x =>
      fail (.expected "FULLTEXT or SPATIAL option without constraint name"
        (some { x with token := .symbol i.print }))
    | _, _ =>
      skip
      let _ ← oneOf ["KEY", "INDEX"]
      let _ ← attempt identifier
      some <$> columnList g false false (indexKey g)
  else if name.isEmpty then return none
  else expected "PRIMARY, UNIQUE, FOREIGN, or CHECK"

/-- The columns of a table to define, and the expressions of its constraints. -/
structure Columns where
  columns : List Expr
  constraints : List Expr

/-- The columns and constraints of a table to define, if they follow. -/
def tableColumns (g : Grammar) : Parser Columns := do
  if !(← symbol "(") then return ⟨[], []⟩
  else if ← symbol ")" then return ⟨[], []⟩
  else
    let (found, _) ← repeatStep (fun ((found : Columns), done) => do
      if done then return none
      else
        let found ← do
          match ← tableConstraint g with
          | some es => pure { found with constraints := found.constraints ++ es }
          | none =>
            match ← peekToken with
            | some (.word ..) =>
              pure { found with columns := found.columns ++ [assemble (← columnDefinition g)] }
            | _ => expected "column name or constraint definition"
        let comma ← symbol ","
        let closes ← atSymbol ")"
        if !comma && !closes then expected "',' or ')' after column definition"
        else if closes && (!comma || g.dialect.columnTrailingCommas) then
          skip
          return some (found, true)
        else return some (found, false)) (⟨[], []⟩, false)
    return found

end ColumnLint.Sql.Grammar
