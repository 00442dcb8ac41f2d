import ColumnLint.Sql.Grammar.Change

/-
  Queries: common table expressions, set operations between selects, and the clauses behind them.
-/

namespace ColumnLint.Sql.Grammar

open ColumnLint.Text ColumnLint.Sql.Parser

/-- A common table expression. -/
def commonTable (g : Grammar) : Parser Cte := do
  let name ← identifier
  let columns ← if ← atWord "AS" then pure [] else aliasColumns g
  expectWord "AS"
  let materialized ← do
    if g.dialect.oneOf [.postgres] then
      if ← word "MATERIALIZED" then pure "MATERIALIZED "
      else if ← words ["NOT", "MATERIALIZED"] then pure "NOT MATERIALIZED "
      else pure ""
    else pure ""
  let q ← parenthesized g.query
  let tail ← if ← word "FROM" then pure (" FROM " ++ (← identifier).print) else pure ""
  return ⟨⟨name, columns⟩, " AS " ++ materialized, q, tail⟩

/-- A bare table as a query, behind `TABLE`. -/
def bareTable : Parser String := do
  let first ← peek
  let textOf (x : Option Lexeme) : Option String := match x.map Lexeme.token with
    | some (.word text _ _) => some text
    | _ => none
  if ← atSymbolAt 1 "." then
    match textOf first, textOf (← peekAt 2) with
    | some schema, some name =>
      skip
      skip
      skip
      return schema ++ "." ++ name
    | none, _ => expected "Schema name"
    | _, none => fail (.expected "Table name" (← peekAt 2))
  else
    match textOf first with
    | some name =>
      skip
      skip
      skip
      return name
    | none => expected "Table name"

/-- A select, a query in parentheses, rows of values or a bare table. -/
def queryTerm (g : Grammar) : Parser Body := do
  if (← atWord "SELECT") || (g.dialect.fromFirst && (← atWord "FROM")) then
    return .select (← select g)
  else if ← symbol "(" then
    let q ← g.query
    expectSymbol ")"
    return .query q
  else if ← word "VALUES" then return .values (← valueRows g)
  else if ← word "TABLE" then return .table (← bareTable)
  else expected "SELECT, VALUES, or a subquery in the query body"

/-- What a set operation does with duplicates and names. -/
def setQuantifier : Parser String := do
  if ← words ["DISTINCT", "BY", "NAME"] then return " DISTINCT BY NAME"
  else if ← words ["BY", "NAME"] then return " BY NAME"
  else if ← word "ALL" then
    if ← words ["BY", "NAME"] then return " ALL BY NAME" else return " ALL"
  else if ← word "DISTINCT" then return " DISTINCT"
  else return ""

/-- Terms joined by operations, from left to right. The right side of an operation is given for
each word. -/
def operations (first : Parser Body) (right : String → Option (Parser Body)) : Parser Body := do
  let body ← first
  repeatStep (fun body => do
    let k := ((← peek).map fun x => x.token.keyword).getD ""
    match right k with
    | none => return none
    | some side =>
      skip
      let quantifier ← setQuantifier
      return some (.operation body (k ++ quantifier) (← side))) body

/-- Terms joined by `INTERSECT`, which binds tighter than the other operations. -/
def intersections (g : Grammar) : Parser Body :=
  operations (queryTerm g) fun k => if k == "INTERSECT" then some (queryTerm g) else none

/-- The body of a query. -/
def queryBody (g : Grammar) : Parser Body :=
  operations (queryTerm g) fun k =>
    if k == "INTERSECT" then some (queryTerm g)
    else if ["UNION", "EXCEPT", "MINUS"].contains k then some (intersections g)
    else none

/-- How gaps between sorted rows are filled, if said. -/
def interpolation (g : Grammar) : Parser (List Expr) := do
  if g.dialect.clickhouseClauses && (← atWord "INTERPOLATE") then
    skip
    if ← symbol "(" then
      let items ← commaList0 g ")" do
        let i ← identifier
        let e ← optional "AS" (anyExpr g)
        return assemble (.text i.print :: Part.clause " AS " "" e)
      expectSymbol ")"
      return [assemble (Part.enclosed "INTERPOLATE (" items ")")]
    else return [phrase ["INTERPOLATE"] []]
  else return []

/-- The keys to sort by and what else stands in the clause. -/
structure Ordering where
  keys : List Expr
  others : List Expr

/-- `ORDER BY`, if it follows. -/
def ordering (g : Grammar) : Parser Ordering := do
  if ← words ["ORDER", "BY"] then
    if g.dialect.orderByAll && (← atWord "ALL") then
      skip
      return ⟨[], [phrase ["ORDER BY ALL" ++ (← sortOptions)] []]⟩
    else
      let keys ← sortKeys g
      return ⟨keys, ← interpolation g⟩
  else return ⟨[], []⟩

/-- An offset behind its keyword. -/
def offsetAmount (g : Grammar) : Parser Expr := do
  let e ← anyExpr g
  let rows ← oneOf ["ROW", "ROWS"]
  return phrase ["OFFSET ", spaced (rows.getD "")] [e]

/-- The limit and the offset of a query, if some follow. The offset may stand on either side and
prints behind the limit, before what the limit counts by. -/
def limitClause (g : Grammar) : Parser (List Expr) := do
  let d := g.dialect
  let before ← optional "OFFSET" (offsetAmount g)
  if ← word "LIMIT" then
    let amount ← do
      if ← word "ALL" then pure [] else pure [← anyExpr g]
    if d.limitCommas && before.isEmpty && !amount.isEmpty && (← atSymbol ",") then
      skip
      let e ← anyExpr g
      return [assemble (Part.enclosed "LIMIT " (amount ++ [e]) "")]
    else
      let by' ← do
        if d.clickhouseClauses && (← atWord "BY") then
          skip
          commaList g (anyExpr g)
        else pure []
      let behind ← if before.isEmpty then optional "OFFSET" (offsetAmount g) else pure []
      return clauseExpr "LIMIT " amount ++ before ++ behind ++ clauseExpr "BY " by'
  else return before

/-- `FETCH`, if it follows. -/
def fetchClause (g : Grammar) : Parser (List Expr) := do
  if ← word "FETCH" then
    let _ ← oneOf ["FIRST", "NEXT"]
    let amount ← do
      match ← oneOf ["ROW", "ROWS"] with
      | some _ => pure ""
      | none =>
        let v ← value g
        let percent ← word "PERCENT"
        let _ ← oneOf ["ROW", "ROWS"]
        pure (" " ++ v.text ++ (if percent then " PERCENT" else ""))
    let only ← word "ONLY"
    let ties ← if only then pure false else words ["WITH", "TIES"]
    return [phrase ["FETCH FIRST" ++ amount ++ " ROWS " ++ (if ties then "WITH TIES" else "ONLY")]
      []]
  else return []

/-- The name of a root or a row in parentheses, if one follows. -/
def elementName (g : Grammar) : Parser String := do
  if ← symbol "(" then
    let s ← literalString g
    expectSymbol ")"
    return "('" ++ s ++ "')"
  else return ""

/-- Options behind commas, each of which has a name and a text. A name that is given again has its
last text; the options print in the order of the names. -/
def forOptions (names : List String) (option : Parser (Option (String × String))) :
    Parser String := do
  let given ← repeatStep (fun given => do
    if ← symbol "," then return some ((← option).toList ++ given) else return none) []
  return String.join (names.filterMap fun k => (given.lookup k).map (", " ++ ·))

/-- The name of the root, behind its keyword. -/
def rootOption (g : Grammar) : Parser (String × String) := do
  return ("ROOT", "ROOT('" ++ (← parenthesized (literalString g)) ++ "')")

/-- `FOR XML` behind its keywords. -/
def forElements (g : Grammar) : Parser String := do
  let kind ← do
    if ← word "RAW" then pure ("RAW" ++ (← elementName g))
    else if ← word "AUTO" then pure "AUTO"
    else if ← word "EXPLICIT" then pure "EXPLICIT"
    else if ← word "PATH" then pure ("PATH" ++ (← elementName g))
    else fail (.broken "Expected FOR XML [RAW | AUTO | EXPLICIT | PATH ]" none)
  let options ← forOptions ["BINARY", "TYPE", "ROOT", "ELEMENTS"] do
    if ← word "ELEMENTS" then return some ("ELEMENTS", "ELEMENTS")
    else if ← word "BINARY" then
      expectWord "BASE64"
      return some ("BINARY", "BINARY BASE64")
    else if ← word "ROOT" then some <$> rootOption g
    else if ← word "TYPE" then return some ("TYPE", "TYPE")
    else return none
  return "FOR XML " ++ kind ++ options

/-- `FOR JSON` behind its keywords. -/
def forDocument (g : Grammar) : Parser String := do
  let kind ← do
    if ← word "AUTO" then pure "AUTO"
    else if ← word "PATH" then pure "PATH"
    else fail (.broken "Expected FOR JSON [AUTO | PATH ]" none)
  let options ← forOptions ["ROOT", "INCLUDE_NULL_VALUES", "WITHOUT_ARRAY_WRAPPER"] do
    if ← word "ROOT" then some <$> rootOption g
    else return (← oneOf ["INCLUDE_NULL_VALUES", "WITHOUT_ARRAY_WRAPPER"]).map fun k => (k, k)
  return "FOR JSON " ++ kind ++ options

/-- A lock on the rows read, behind `FOR`. -/
def lock (g : Grammar) : Parser Expr := do
  let k ← expectOneOf ["UPDATE", "SHARE"]
  let of' ← do
    if ← word "OF" then pure (.text " OF " :: nameParts (← objectName g false)) else pure []
  let wait ← do
    if ← word "NOWAIT" then pure " NOWAIT"
    else if ← words ["SKIP", "LOCKED"] then pure " SKIP LOCKED"
    else pure ""
  return assemble ([.text ("FOR " ++ k)] ++ of' ++ [.text wait])

/-- Clauses behind `FOR`: locks, or one clause on the form of the output. -/
def forClauses (g : Grammar) : Parser (List Expr) := do
  let (clauses, _) ← repeatStep (fun (clauses, done) => do
    let last (text : String) : Option (List Expr × Bool) :=
      some (clauses ++ [phrase [text] []], true)
    if done then return none
    else if ← word "FOR" then
      if ← word "XML" then return last (← forElements g)
      else if ← word "JSON" then return last (← forDocument g)
      else if ← word "BROWSE" then return last "FOR BROWSE"
      else return some (clauses ++ [← lock g], false)
    else return none) ([], false)
  return clauses

/-- The output format of a query, if one follows. -/
def formatClause (g : Grammar) : Parser (List Expr) := do
  if g.dialect.clickhouseClauses && (← atWord "FORMAT") then
    skip
    if ← word "NULL" then return [phrase ["FORMAT NULL"] []]
    else return [phrase ["FORMAT " ++ (← identifier).print] []]
  else return []

/-- An alias as it prints behind what it names. -/
def printAlias (label : Option Ident) : String :=
  (label.map fun i => " AS " ++ i.print).getD ""

/-- An expression with an alias and a direction, either of which may be missing. -/
def pipedExpr (g : Grammar) : Parser Expr := do
  let e ← anyExpr g
  let label ← aliasExcept ["ASC", "DESC", "GROUP"]
  let direction ← oneOf ["ASC", "DESC"]
  return phrase ["", printAlias label ++ spaced (direction.getD "")] [e]

/-- The name of what a step gives, if one follows. -/
def pipedAlias : Parser String := do
  if ← word "AS" then return printAlias (some (← identifier))
  else return printAlias (← attempt identifier)

/-- The names among all tokens up to an equals sign or the end of the text. -/
def namesAhead : Parser (List String) := fun s =>
  let taken := s.rest.takeWhile fun x => !x.token.isSymbol "="
  let names := taken.filterMap fun x => match x.token with
    | .word text quote _ => some (Ident.mk text quote (some x.region)).print
    | _ => none
  .ok (names, { s with rest := s.rest.drop taken.length })

/-- What a step does with duplicates and names, where duplicates have to be dropped. -/
def distinctQuantifier (k : String) : Parser String := do
  if ← words ["DISTINCT", "BY", "NAME"] then return " DISTINCT BY NAME"
  else if ← word "DISTINCT" then return " DISTINCT"
  else fail (.broken (k ++ " pipe operator requires DISTINCT modifier") none)

/-- `PIVOT` as a step, behind its keyword. -/
def pipedPivot (g : Grammar) : Parser Expr := do
  expectSymbol "("
  let aggregates ← aggregateCalls g
  expectWord "FOR"
  let first ← identifier
  let column ← repeatStep (fun name => do
    if ← symbol "." then return some (name ++ "." ++ (← identifier).print) else return none)
    first.print
  expectWord "IN"
  let values ← pivotValues g
  expectSymbol ")"
  let label ← pipedAlias
  return assemble (Part.enclosed "|> PIVOT(" aggregates (" FOR " ++ column ++ " IN ") ++ values
    ++ [.text (")" ++ label)])

/-- `UNPIVOT` as a step, behind its keyword. -/
def pipedUnpivot (g : Grammar) : Parser Expr := do
  expectSymbol "("
  let value ← identifier
  expectWord "FOR"
  let name ← identifier
  expectWord "IN"
  let columns ← parenthesized (commaList g identifier)
  expectSymbol ")"
  let label ← pipedAlias
  return phrase ["|> UNPIVOT(" ++ value.print ++ " FOR " ++ name.print ++ " IN "
    ++ inParentheses (columns.map Ident.print) ++ ")" ++ label] []

/-- The words that start a step behind a pipe. -/
def pipeWords : List String :=
  ["SELECT", "EXTEND", "SET", "DROP", "AS", "WHERE", "LIMIT", "AGGREGATE", "ORDER", "TABLESAMPLE",
   "RENAME", "UNION", "INTERSECT", "EXCEPT", "CALL", "PIVOT", "UNPIVOT", "JOIN", "INNER", "LEFT",
   "RIGHT", "FULL", "CROSS"]

/-- A step behind a pipe. -/
def pipeStep (g : Grammar) : Parser Expr := do
  let start ← get
  let k ← expectOneOf pipeWords
  let lead := "|> " ++ k
  if k == "SELECT" || k == "EXTEND" then
    let items ← commaList g (projectionItem g)
    return assemble (Part.enclosed (lead ++ " ") (items.map itemExpr) "")
  else if k == "SET" then
    return assemble (Part.enclosed (lead ++ " ") (← commaList g (assignment g)) "")
  else if k == "DROP" then return phrase [lead ++ " " ++ ", ".intercalate (← namesAhead)] []
  else if k == "AS" then return phrase [lead ++ " " ++ (← identifier).print] []
  else if k == "WHERE" then return phrase [lead ++ " ", ""] [← anyExpr g]
  else if k == "LIMIT" then
    let e ← anyExpr g
    let offset ← optional "OFFSET" (anyExpr g)
    return assemble ([.text (lead ++ " "), .operand e] ++ Part.clause " OFFSET " "" offset)
  else if k == "AGGREGATE" then
    let items ← if ← atWord "GROUP" then pure [] else commaList g (pipedExpr g)
    let keys ← clauseBy g "GROUP" (pipedExpr g)
    return assemble (.text lead :: Part.clause " " ", " items ++ Part.clause " GROUP BY " ", " keys)
  else if k == "ORDER" then
    let _ ← expectOneOf ["BY"]
    return assemble (Part.enclosed (lead ++ " BY ") (← sortKeys g) "")
  else if k == "TABLESAMPLE" then return phrase ["|> ", ""] [← sampleBody g k]
  else if k == "RENAME" then
    let items ← commaList g do
      let i ← identifier
      let _ ← word "AS"
      return i.print ++ " AS " ++ (← identifier).print
    return phrase [lead ++ " " ++ ", ".intercalate items] []
  else if k == "UNION" || k == "INTERSECT" || k == "EXCEPT" then
    let quantifier ← if k == "UNION" then setQuantifier else distinctQuantifier k
    let queries ← commaList g (parenthesized g.query)
    return assemble (Part.enclosed (lead ++ quantifier ++ " ") (queries.map .query) "")
  else if k == "CALL" then
    let name ← objectName g false
    let e ← call g name
    return phrase [lead ++ " ", ← pipedAlias] [e]
  else if k == "PIVOT" then pipedPivot g
  else if k == "UNPIVOT" then pipedUnpivot g
  else
    set start
    match ← joinsWithin g (tableSource g) (start.rest.length + 1) with
    | [j] => return phrase ["|> ", ""] [.join j]
    | _ => fail (.broken "Join pipe operator must have a single join" none)

/-- The steps behind pipes. -/
def pipeSteps (g : Grammar) : Parser (List Expr) := do
  if g.dialect.pipes then
    repeatStep (fun steps => do
      if ← symbol "|>" then return some (steps ++ [← pipeStep g]) else return none) []
  else return []

/-- A query. A statement that changes rows may take the place of its body; then no clause
follows. -/
def queryAt (g : Grammar) : Parser Query := do
  let first := (← peek).map fun x => x.region
  let hasWith ← word "WITH"
  let recursive ← if hasWith then word "RECURSIVE" else pure false
  let ctes ← if hasWith then commaList g (commonTable g) else pure []
  let withRegion := if hasWith then first else none
  let lead := if recursive then "RECURSIVE " else ""
  if ← atOneOf ["INSERT", "UPDATE", "DELETE", "MERGE"] then
    let s ← change g
    return ⟨withRegion, lead, ctes, .statement s, [], []⟩
  else
    let body ← queryBody g
    let order ← ordering g
    let limits ← limitClause g
    let options ← settings g
    let fetch ← fetchClause g
    let locks ← forClauses g
    let format ← formatClause g
    let steps ← pipeSteps g
    return ⟨withRegion, lead, ctes, body, order.keys,
      order.others ++ limits ++ options ++ fetch ++ locks ++ format ++ steps⟩

end ColumnLint.Sql.Grammar
