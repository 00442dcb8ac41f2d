import ColumnLint.Sql.Grammar.Alteration
import ColumnLint.Sql.Grammar.Definition
import ColumnLint.Sql.Grammar.Expression
import ColumnLint.Sql.Grammar.Session

/-
  Statements, and the grammar as a whole. Expressions, queries and statements contain one another;
  each of them takes one from the depth that is left, and at depth 0 each of them fails.
-/

namespace ColumnLint.Sql

open ColumnLint.Text ColumnLint.Sql.Parser

namespace Grammar

/-- Options of `EXPLAIN` in parentheses. -/
def explainOptions (g : Grammar) : Parser Expr := do
  let items ← parenthesized <| commaList g do
    let name ← identifier
    if (← atSymbol ",") || (← atSymbol ")") then return phrase [name.print] []
    else return phrase [name.print ++ " ", ""] [← anyExpr g]
  return assemble (Part.enclosed "(" items ")")

/-- The words between `EXPLAIN` and what it explains. -/
def explainWords (g : Grammar) (k : String) : Parser (List Expr) := do
  let d := g.dialect
  if k == "EXPLAIN" && d.oneOf [.generic, .postgres, .duckdb] && (← atSymbol "(") then
    return [← explainOptions g]
  else if ← words ["QUERY", "PLAN"] then return [phrase ["QUERY PLAN"] []]
  else if ← word "ESTIMATE" then return [phrase ["ESTIMATE"] []]
  else
    let analyze ← word "ANALYZE"
    let verbose ← word "VERBOSE"
    let format ← do
      if ← word "FORMAT" then
        let _ ← symbol "="
        match ← oneOf ["TEXT", "GRAPHVIZ", "JSON"] with
        | some f => pure ["FORMAT " ++ f]
        | none => expected "fileformat"
      else pure []
    let texts := (if analyze then ["ANALYZE"] else []) ++ (if verbose then ["VERBOSE"] else [])
      ++ format
    return texts.map fun s => phrase [s] []

/-- A statement to explain, or a table to describe, behind the keyword. -/
def explain (g : Grammar) (k : String) : Parser Statement := do
  let lead ← explainWords g k
  let explains ← atOneOf ["EXPLAIN", "DESCRIBE", "DESC"]
  match ← attempt g.statement with
  | some s =>
    if explains then fail (.broken "Explain must be root of the plan" none)
    else return .explain (phrase [k] [] :: lead) s
  | none =>
    let _ ← oneOf ["EXTENDED", "FORMATTED"]
    if g.dialect.oneOf [.clickhouse, .snowflake] then
      let _ ← word "TABLE"
    let name ← objectName g false
    return .other [] (phrase [k] [] :: lead ++ [nameExpr name])

/-- A statement by its first word. -/
def plainStatement (g : Grammar) : Parser Statement := do
  let d := g.dialect
  if ← atOneOf ["SELECT", "WITH", "VALUES", "FROM"] then return .query (← g.query)
  else if ← atSymbol "(" then return .query (← g.query)
  else if ← atOneOf ["INSERT", "UPDATE", "DELETE", "MERGE"] then change g
  else if ← atWord "REPLACE" then
    if d.oneOf [.sqlite] then insert g
    else
      skip
      if d.oneOf [.mysql, .generic] then insert g
      else fail (.broken "Unsupported statement REPLACE" (← place))
  else if ← word "CREATE" then create g
  else if ← word "DROP" then drop g
  else if ← word "ALTER" then alter g
  else if ← word "TRUNCATE" then truncate g
  else if ← word "ANALYZE" then analyze g
  else if ← word "VACUUM" then vacuum g
  else
    match ← oneOf ["EXPLAIN", "DESCRIBE", "DESC"] with
    | some k => explain g k
    | none =>
      match ← sessionStatement g with
      | some s => return s
      | none => expected "an SQL statement"

/-- A statement. -/
def statementAt (g : Grammar) : Parser Statement := do
  if ← given (g.dialect.oneOf [.snowflake]) (atWord "CREATE") then
    createFreely g (plainStatement g)
  else plainStatement g

/-- The grammar with a depth left. -/
def ofDepth (d : Dialect) : Nat → Grammar
  | 0 => ⟨d, fun _ => fail .tooDeep, fail .tooDeep, fail .tooDeep, fail .tooDeep⟩
  | n + 1 =>
    let g := ofDepth d n
    ⟨d, exprAt g, anyOperand g, queryAt g, statementAt g⟩

/-- How deep expressions, queries and statements may be nested. -/
def maxDepth : Nat := 50

/-- The statements of a text. Semicolons end them; the word `END` ends the text. -/
def statements (d : Dialect) : Parser (List Statement) := do
  let g := ofDepth d maxDepth
  let (found, _) ← repeatStep (fun (found, expecting) => do
    let semicolons ← repeatStep (fun n => do
      if ← symbol ";" then return some (n + 1) else return none) 0
    match ← peek with
    | none => return none
    | some x =>
      if expecting && semicolons == 0 then
        if x.token.keyword == "END" then return none
        else expected "end of statement"
      else
        let s ← g.statement
        return some (s :: found, true)) ([], false)
  return found.reverse

end Grammar

end ColumnLint.Sql
