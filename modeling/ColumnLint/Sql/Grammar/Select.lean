import ColumnLint.Sql.Grammar.Source

/-
  Selects: the projection and the clauses up to the windows.
-/

namespace ColumnLint.Sql.Grammar

open ColumnLint.Text ColumnLint.Sql.Parser

/-- Columns that a star leaves out, if some are given. -/
def excludedColumns (g : Grammar) : Parser (List Expr) := do
  if ← word "EXCLUDE" then
    if ← symbol "(" then
      let names ← commaList g identifier
      expectSymbol ")"
      return [phrase ["EXCLUDE (" ++ ", ".intercalate (names.map Ident.print) ++ ")"] []]
    else return [phrase ["EXCLUDE " ++ (← identifier).print] []]
  else return []

/-- A name and its new name. -/
def renamedColumn : Parser String := do
  let i ← identifier
  expectWord "AS"
  return i.print ++ " AS " ++ (← identifier).print

/-- What follows a star: columns left out, replaced or renamed. -/
def starOptions (g : Grammar) : Parser (List Expr) := do
  let d := g.dialect
  let texts (lead : String) (items : List String) : List Expr :=
    [phrase [lead ++ " (" ++ ", ".intercalate items ++ ")"] []]
  let like ← do
    if d.starFilters && (← atWord "ILIKE") then
      skip
      match ← peekToken with
      | some (.literal .single s) =>
        skip
        pure [phrase ["ILIKE " ++ quotedPrint '\'' s] []]
      | _ => expected "ilike pattern"
    else pure []
  let exclude ← if like.isEmpty && d.starExclude then excludedColumns g else pure []
  let except ← do
    if d.starExcept && (← atWord "EXCEPT") then
      skip
      if ← atSymbol "(" then
        let names ← columnList g false false identifier
        pure (texts "EXCEPT" (names.map Ident.print))
      else pure (texts "EXCEPT" [(← identifier).print])
    else pure []
  let replace ← do
    if d.starReplace && (← atWord "REPLACE") then
      skip
      if ← symbol "(" then
        let items ← commaList g do
          let e ← anyExpr g
          let sign := if ← word "AS" then " AS " else " "
          return phrase ["", sign ++ (← identifier).print] [e]
        expectSymbol ")"
        pure [assemble (Part.enclosed "REPLACE (" items ")")]
      else expected "( after REPLACE but"
    else pure []
  let rename ← do
    if d.starFilters && (← atWord "RENAME") then
      skip
      if ← symbol "(" then
        let items ← commaList g renamedColumn
        expectSymbol ")"
        pure (texts "RENAME" items)
      else pure [phrase ["RENAME " ++ (← renamedColumn)] []]
    else pure []
  return like ++ exclude ++ except ++ replace ++ rename

/-- A projection item. -/
def projectionItem (g : Grammar) : Parser Item := do
  let d := g.dialect
  let root ← do
    if d.oneOf [.snowflake] then word "CONNECT_BY_ROOT" else pure false
  let e ← starOrExpr g
  let aliased : Parser Item := do
    let label ← columnAlias g
    return .expr (if root then phrase ["CONNECT_BY_ROOT ", ""] [e] else e) label
  let starred : Parser Item := do
    if ← given d.expressionStars (symbols [".", "*"]) then return .starOfExpr e (← starOptions g)
    else aliased
  match e with
  | .star _ => return .star (← starOptions g)
  | .starOf name _ => return .starOf name (← starOptions g)
  | .column [i] =>
    if i.quote.isNone && lower i.value.toList == "from".toList then
      fail (.broken ("Expected an expression, found: " ++ i.print) (← place))
    else starred
  | .form f [.column [i], right] =>
    if d.equalAliases && f.kind == .equality then return .expr right (some i) else starred
  | _ => starred

/-- A projection item as an expression that prints alike. -/
def itemExpr : Item → Expr
  | .expr e none => e
  | .expr e (some label) => phrase ["", " AS " ++ label.print] [e]
  | .star options => optioned (.star none) options
  | .starOf name options => optioned (.starOf name none) options
  | .starOfExpr e options => optioned (phrase ["", ".*"] [e]) options
where
  optioned (e : Expr) (options : List Expr) : Expr := assemble (Part.separated " " (e :: options))

/-- `ALL`, `DISTINCT` or `DISTINCT ON (…)`, if one follows. -/
def distinctness (g : Grammar) : Parser (List Expr) := do
  let here ← place
  let all ← word "ALL"
  if ← word "DISTINCT" then
    if all then fail (.broken "Cannot specify both ALL and DISTINCT" here)
    else if ← word "ON" then
      expectSymbol "("
      let items ← if ← atSymbol ")" then pure [] else commaList g (anyExpr g)
      expectSymbol ")"
      return [assemble (Part.enclosed "DISTINCT ON (" items ")")]
    else return [phrase ["DISTINCT"] []]
  else return []

/-- `TOP` and its amount, if it follows. -/
def topAmount (g : Grammar) : Parser (List Expr) := do
  if ← word "TOP" then
    let amount ← do
      if ← symbol "(" then
        let e ← anyExpr g
        expectSymbol ")"
        pure [Part.text "TOP (", .operand e, .text ")"]
      else pure [Part.text ("TOP " ++ (← wholeNumber))]
    let percent ← word "PERCENT"
    let ties ← words ["WITH", "TIES"]
    return [assemble (amount ++ [.text ((if percent then " PERCENT" else "")
      ++ (if ties then " WITH TIES" else ""))])]
  else return []

/-- `AS VALUE` or `AS STRUCT`, if such words follow. -/
def valueTable (g : Grammar) : Parser (List Expr) := do
  let mode (s : String) : Parser (List Expr) := return [phrase [s] []]
  if !g.dialect.valueTables then return []
  else if ← words ["DISTINCT", "AS", "VALUE"] then mode "DISTINCT AS VALUE"
  else if ← words ["DISTINCT", "AS", "STRUCT"] then mode "DISTINCT AS STRUCT"
  else if ← words ["AS", "VALUE"] then mode "AS VALUE"
  else if ← words ["ALL", "AS", "VALUE"] then mode "AS VALUE"
  else if ← words ["AS", "STRUCT"] then mode "AS STRUCT"
  else if ← words ["ALL", "AS", "STRUCT"] then mode "AS STRUCT"
  else if ← word "AS" then expected "VALUE or STRUCT"
  else return []

/-- The table that a select writes to, behind `INTO`. -/
def intoTable (g : Grammar) : Parser Expr := do
  let temporary ← oneOf ["TEMP", "TEMPORARY"]
  let unlogged ← word "UNLOGGED"
  let table ← word "TABLE"
  let name ← objectName g false
  let lead := "INTO" ++ (if temporary.isSome then " TEMPORARY" else "")
    ++ (if unlogged then " UNLOGGED" else "") ++ (if table then " TABLE" else "") ++ " "
  return phrase [lead, ""] [nameExpr name]

/-- Table sources between commas, behind `FROM`. -/
def tableSources (g : Grammar) : Parser (List Joined) :=
  listOf g.dialect.fromTrailingCommas (fun k behind => !Dialect.startsSource k behind)
    (joinedTables g)

/-- `LATERAL VIEW` clauses. -/
def lateralViews (g : Grammar) : Parser (List Expr) :=
  repeatStep (fun views => do
    if ← words ["LATERAL", "VIEW"] then
      let outer ← word "OUTER"
      let e ← anyExpr g
      let name ← objectName g false
      let columns ← commaList g (aliasExcept ["WHERE", "GROUP", "CLUSTER", "HAVING", "LATERAL"])
      let names := (columns.filterMap id).map Ident.print
      let tail := if names.isEmpty then "" else " AS " ++ ", ".intercalate names
      let lead := if outer then "LATERAL VIEW OUTER " else "LATERAL VIEW "
      return some (views
        ++ [assemble ([.text lead, .operand e, .text " "] ++ nameParts name ++ [.text tail])])
    else return none) []

/-- Expressions in parentheses; where `single` is set, also one without. -/
def tuple (g : Grammar) (single : Bool) : Parser (List Expr) := do
  if ← symbol "(" then
    if ← symbol ")" then return []
    else
      let items ← commaList g (anyExpr g)
      expectSymbol ")"
      return items
  else if single then return [← anyExpr g]
  else expected "("

/-- Tuples in parentheses behind a word of grouping. Where `bare` is set, tuples of one expression
print without parentheses. -/
def tuples (g : Grammar) (lead : String) (single bare : Bool) : Parser Expr := do
  let sets ← parenthesized (commaList g (tuple g single))
  let parts := sets.map fun es =>
    if bare && es.length == 1 then Part.separated "" es else Part.enclosed "(" es ")"
  return assemble ([.text (lead ++ " (")] ++ Part.joined ", " parts ++ [.text ")"])

/-- An expression to group by. -/
def groupKey (g : Grammar) : Parser Expr := do
  if g.dialect.groupingForms then
    if ← words ["GROUPING", "SETS"] then tuples g "GROUPING SETS" false false
    else if ← word "CUBE" then tuples g "CUBE" true true
    else if ← word "ROLLUP" then tuples g "ROLLUP" true true
    else if ← symbols ["(", ")"] then return phrase ["()"] []
    else anyExpr g
  else anyExpr g

/-- The expressions to group by and what else stands in the clause. -/
structure Grouping where
  keys : List Expr
  others : List Expr

/-- `GROUP BY`, if it follows. -/
def grouping (g : Grammar) : Parser Grouping := do
  if ← words ["GROUP", "BY"] then
    let all ← word "ALL"
    let keys ← if all then pure [] else commaList g (groupKey g)
    let modifiers ← do
      if g.dialect.groupingModifiers then
        repeatStep (fun ms => do
          if ← word "WITH" then
            let k ← expectOneOf ["ROLLUP", "CUBE", "TOTALS"]
            return some (ms ++ [phrase ["WITH " ++ k] []])
          else return none) []
      else pure []
    let sets ← do
      if ← words ["GROUPING", "SETS"] then pure [← tuples g "GROUPING SETS" true false]
      else pure []
    let lead := if all then [phrase ["GROUP BY ALL"] []] else []
    return ⟨keys, lead ++ modifiers ++ sets⟩
  else return ⟨[], []⟩

/-- A named window. -/
def namedWindow (g : Grammar) : Parser Window := do
  let name ← identifier
  expectWord "AS"
  if ← symbol "(" then return .spec name (← windowSpec g)
  else if g.dialect.windowReferences then return .reference name (← identifier)
  else expected "("

/-- The windows and the condition on them, in either order. -/
structure Windowing where
  windows : List Window
  qualify : List Expr
  /-- The windows come first. -/
  windowsFirst : Bool

def windowing (g : Grammar) : Parser Windowing := do
  if ← word "WINDOW" then
    let windows ← commaList g (namedWindow g)
    return ⟨windows, ← optional "QUALIFY" (anyExpr g), true⟩
  else
    let qualify ← optional "QUALIFY" (anyExpr g)
    if !qualify.isEmpty && (← atWord "WINDOW") then
      skip
      return ⟨← commaList g (namedWindow g), qualify, false⟩
    else return ⟨[], qualify, false⟩

/-- The start and the steps of a hierarchy, in either order, if some follow. -/
def hierarchy (g : Grammar) : Parser (List Expr) := do
  let steps : Parser (List Expr) := inMode .connectBy (commaList g (anyExpr g))
  let start : Parser Expr := do
    expectWords ["START", "WITH"]
    anyExpr g
  let clauses (e : Expr) (es : List Expr) : List Expr :=
    [assemble ([.text "START WITH ", .operand e] ++ Part.enclosed " CONNECT BY " es "")]
  if !(g.dialect.connectBy && (← atOneOf ["START", "CONNECT"])) then return []
  else if ← words ["CONNECT", "BY"] then
    let es ← steps
    return clauses (← start) es
  else
    let e ← start
    expectWords ["CONNECT", "BY"]
    return clauses e (← steps)

/-- Expressions behind two keywords, if these follow. -/
def clauseBy (g : Grammar) (k : String) (item : Parser Expr) : Parser (List Expr) := do
  if ← words [k, "BY"] then commaList g item else return []

/-- A clause as one expression, nothing if it is empty. -/
def clauseExpr (lead : String) (es : List Expr) : List Expr :=
  if es.isEmpty then [] else [assemble (Part.enclosed lead es "")]

/-- A select. In some dialects the sources may come first, or alone. -/
def select (g : Grammar) : Parser Select := do
  let d := g.dialect
  let first := (← peek).map fun x => x.region
  let sourcesFirst ← do
    if d.fromFirst && (← atWord "FROM") then
      skip
      pure (some (← tableSources g))
    else pure none
  if sourcesFirst.isSome && !(← atWord "SELECT") then
    return ⟨first, [], [], [], sourcesFirst.getD [], [], [], [], [], [], [], [], [], [], false,
      []⟩
  else
    let start := (← peek).map fun x => x.region
    expectWord "SELECT"
    let mode ← valueTable g
    let topFirst ← if d.topBeforeDistinct then topAmount g else pure []
    let distinct ← distinctness g
    let top ← if d.topBeforeDistinct then pure [] else topAmount g
    let projection ← do
      if d.emptyProjections && (← atWord "FROM") then pure []
      else listOf d.projectionTrailingCommas (reservedWord g) (projectionItem g)
    let exclude ← if d.projectionExclude then excludedColumns g else pure []
    let into ← optional "INTO" (intoTable g)
    let sources ← do
      match sourcesFirst with
      | some ts => pure ts
      | none => if ← word "FROM" then tableSources g else pure []
    let views ← lateralViews g
    let prewhere ← if d.clickhouseClauses then optional "PREWHERE" (anyExpr g) else pure []
    let selection ← optional "WHERE" (anyExpr g)
    let groups ← grouping g
    let cluster ← clauseBy g "CLUSTER" (anyExpr g)
    let distribute ← clauseBy g "DISTRIBUTE" (anyExpr g)
    let sorting ← clauseBy g "SORT" (sortKey g)
    let having ← optional "HAVING" (anyExpr g)
    let w ← windowing g
    let levels ← hierarchy g
    return {
      region := start
      quantifiers := mode ++ topFirst ++ distinct ++ top
      projection := projection
      into := exclude ++ into
      sources := sources
      views := views
      prewhere := prewhere
      selection := selection
      groups := groups.keys
      others := groups.others ++ clauseExpr "CLUSTER BY " cluster
        ++ clauseExpr "DISTRIBUTE BY " distribute
      sorting := sorting
      having := having
      qualify := w.qualify
      windows := w.windows
      windowsFirst := w.windowsFirst
      hierarchy := levels }

end ColumnLint.Sql.Grammar
