import ColumnLint.Sql.Extent
import ColumnLint.Sql.Grammar.Interval

/-
  Sort keys, window specifications and calls of functions.
-/

namespace ColumnLint.Sql.Grammar

open ColumnLint.Text ColumnLint.Sql.Parser

/-- The direction of a sort key and the place of its nulls. -/
def sortOptions : Parser String := do
  let direction ← oneOf ["ASC", "DESC"]
  let nulls ← do
    if ← words ["NULLS", "FIRST"] then pure " NULLS FIRST"
    else if ← words ["NULLS", "LAST"] then pure " NULLS LAST"
    else pure ""
  return spaced (direction.getD "") ++ nulls

/-- How the gaps between the values of a sort key are filled, if said. -/
def fillClause (g : Grammar) : Parser (List Part) := do
  if g.dialect.oneOf [.clickhouse, .generic] && (← atWords ["WITH", "FILL"]) then
    expectWords ["WITH", "FILL"]
    let first ← optional "FROM" (anyExpr g)
    let last ← optional "TO" (anyExpr g)
    let step ← optional "STEP" (anyExpr g)
    return .text " WITH FILL" :: Part.clause " FROM " "" first ++ Part.clause " TO " "" last
      ++ Part.clause " STEP " "" step
  else return []

def sortKey (g : Grammar) : Parser Expr := do
  let e ← anyExpr g
  let options ← sortOptions
  let fill ← fillClause g
  if fill.isEmpty then
    return if options == "" then e else assemble [.operand e, .text options]
  else return .filled e (Part.words options fill) (Part.operands fill)

def sortKeys (g : Grammar) : Parser (List Expr) := commaList g (sortKey g)

/-- A bound of a window's frame. -/
def frameBound (g : Grammar) : Parser (List Part) := do
  if ← words ["CURRENT", "ROW"] then return [.text "CURRENT ROW"]
  else
    let distance ← do
      if ← word "UNBOUNDED" then pure [.text "UNBOUNDED"]
      else
        match ← peekToken with
        | some (.literal .single _) =>
          let read := if g.dialect.intervalUnits then anyExpr g else g.operand
          pure [Part.operand (← interval g read)]
        | _ => pure [Part.operand (← anyExpr g)]
    if ← word "PRECEDING" then return distance ++ [.text " PRECEDING"]
    else if ← word "FOLLOWING" then return distance ++ [.text " FOLLOWING"]
    else expected "PRECEDING or FOLLOWING"

/-- The frame of a window. -/
def frame (g : Grammar) : Parser (List Part) := do
  match ← oneOf ["ROWS", "RANGE", "GROUPS"] with
  | none => expected "ROWS, RANGE, GROUPS"
  | some units =>
    if ← word "BETWEEN" then
      let first ← frameBound g
      expectWord "AND"
      let last ← frameBound g
      return [.text (units ++ " BETWEEN ")] ++ first ++ [.text " AND "] ++ last
    else
      return .text (units ++ " ") :: (← frameBound g)

/-- A window specification behind its opening parenthesis. -/
def windowSpec (g : Grammar) : Parser Expr := do
  let base ← do
    match ← peek with
    | some x =>
      match x.token with
      | .word text quote k =>
        if Keyword.all.contains k then pure []
        else
          skip
          pure [[Part.text (Ident.mk text quote none).print]]
      | _ => pure []
    | none => pure []
  let partition ← do
    if ← words ["PARTITION", "BY"] then
      pure [Part.text "PARTITION BY " :: Part.separated ", " (← commaList g (anyExpr g))]
    else pure []
  let keys ← do
    if ← words ["ORDER", "BY"] then
      pure [Part.text "ORDER BY " :: Part.separated ", " (← sortKeys g)]
    else pure []
  let frame ← do
    if ← symbol ")" then pure []
    else
      let f ← frame g
      expectSymbol ")"
      pure [f]
  return assemble ([.text "("] ++ Part.joined " " (base ++ partition ++ keys ++ frame)
    ++ [.text ")"])

/-- `IGNORE NULLS` or `RESPECT NULLS`, if such words follow. -/
def nullTreatment : Parser String := do
  match ← oneOf ["RESPECT", "IGNORE"] with
  | some k =>
    expectWord "NULLS"
    return " " ++ k ++ " NULLS"
  | none => return ""

/-- What becomes of nulls in a document, if said. -/
def nullClause : Parser String := do
  if ← words ["ABSENT", "ON", "NULL"] then return " ABSENT ON NULL"
  else if ← words ["NULL", "ON", "NULL"] then return " NULL ON NULL"
  else return ""

/-- The type of a document, if said. -/
def returningClause (g : Grammar) : Parser (List Part) := do
  if ← word "RETURNING" then return .text " " :: .text "RETURNING " :: (← dataType g).parts
  else return []

/-- `ALL` or `DISTINCT`, if one follows, but not both. -/
def duplicates : Parser String := do
  let here ← place
  let all ← word "ALL"
  let distinct ← word "DISTINCT"
  if all && distinct then fail (.broken "Cannot specify both ALL and DISTINCT" here)
  else return if all then "ALL " else if distinct then "DISTINCT " else ""

/-- What a joined list does when it grows too long, if said. -/
def overflowClause (g : Grammar) : Parser (List Part) := do
  if ← words ["ON", "OVERFLOW"] then
    if ← word "ERROR" then return [.text " ON OVERFLOW ERROR"]
    else
      expectWord "TRUNCATE"
      let filler ← do
        match ← peekToken with
        | some (.literal .single _) | some (.literal .escape _) | some (.literal .unicode _)
        | some (.literal .national _) | some (.literal .hex _) => pure [← anyExpr g]
        | _ =>
          if ← atOneOf ["WITH", "WITHOUT"] then pure []
          else expected "either filler, WITH, or WITHOUT in LISTAGG"
      let count ← do
        match ← oneOf ["WITH", "WITHOUT"] with
        | some k => pure k
        | none => expected "either WITH or WITHOUT in LISTAGG"
      expectWord "COUNT"
      return .text " ON OVERFLOW TRUNCATE" :: Part.clause " " ", " filler
        ++ [.text (" " ++ count ++ " COUNT")]
  else return []

/-- A call's arguments and the clauses among them. -/
structure Arguments where
  parts : List Part
  /-- The clauses say how nulls are treated. -/
  treatsNulls : Bool

/-- The arguments of a call up to the closing parenthesis, which is taken. -/
def callArguments (g : Grammar) : Parser Arguments := do
  let d := g.dialect
  let nulls ← nullClause
  let returning ← returningClause g
  if ← symbol ")" then
    return ⟨if nulls == "" then returning.drop 1
      else .text (nulls.drop 1).toString :: returning, false⟩
  else
    let lead ← duplicates
    let items ← commaList g (argument g)
    let treatment ← if d.nullTreatmentArguments then nullTreatment else pure ""
    let keys ← if ← words ["ORDER", "BY"] then sortKeys g else pure []
    let limit ← optional "LIMIT" (anyExpr g)
    let having ← do
      if d.oneOf [.generic, .bigquery] && (← atWord "HAVING") then
        skip
        let k ← expectOneOf ["MIN", "MAX"]
        pure [Part.text (" HAVING " ++ k ++ " "), .operand (← anyExpr g)]
      else pure []
    let separator ← do
      if d.oneOf [.generic, .mysql] && (← atWord "SEPARATOR") then
        skip
        pure (" SEPARATOR " ++ (← value g).text)
      else pure ""
    let overflow ← overflowClause g
    let nulls' ← nullClause
    let returning' ← returningClause g
    expectSymbol ")"
    return ⟨[.text lead] ++ Part.separated ", " items
      ++ [.text nulls] ++ returning ++ [.text treatment]
      ++ Part.clause " ORDER BY " ", " keys ++ Part.clause " LIMIT " ", " limit ++ having
      ++ [.text separator] ++ overflow ++ [.text nulls'] ++ returning',
      treatment != ""⟩

/-- The condition of `FILTER`, which dialects take word by word. -/
def filterClause (g : Grammar) : Parser (List Part) := do
  if !g.dialect.aggregateFilters then return []
  else if !(← word "FILTER") then return []
  else if !(← symbol "(") then return []
  else if !(← word "WHERE") then return []
  else
    let e ← anyExpr g
    expectSymbol ")"
    return [.text " FILTER (WHERE ", .operand e, .text ")"]

/-- A call of a named function, from its parts. -/
def callForm (name : Name) (parts : List Part) : Expr :=
  let parts := nameParts name ++ parts
  .form ⟨.call, Part.words "" parts, .marked (Name.extent name)⟩ (Part.operands parts)

/-- A call behind the name of its function. -/
def call (g : Grammar) (name : Name) : Parser Expr := do
  let d := g.dialect
  expectSymbol "("
  if d.queryArguments && (← atOneOf ["SELECT", "WITH"]) then
    let q ← g.query
    expectSymbol ")"
    return callForm name [.operand (.query q)]
  else
    let first ← callArguments g
    let second ← do
      if d.parametricCalls && (← atSymbol "(") then
        skip
        pure (some (← callArguments g))
      else pure none
    let within ← do
      if ← words ["WITHIN", "GROUP"] then
        parenthesized do
          expectWords ["ORDER", "BY"]
          sortKeys g
      else pure []
    let filter ← filterClause g
    let treatsNulls := match second with
      | some a => a.treatsNulls
      | none => first.treatsNulls
    let treatment ← if treatsNulls then pure "" else nullTreatment
    let window ← do
      if ← word "OVER" then
        if ← symbol "(" then pure [Part.text " OVER ", .operand (← windowSpec g)]
        else pure [Part.text (" OVER " ++ (← identifier).print)]
      else pure []
    let enclosed (a : Arguments) : List Part := [.text "("] ++ a.parts ++ [.text ")"]
    let withinParts := if within.isEmpty then []
      else Part.clause " WITHIN GROUP (ORDER BY " ", " within ++ [.text ")"]
    return callForm name (enclosed first ++ (second.map enclosed).getD [] ++ filter
      ++ withinParts ++ [.text treatment] ++ window)

end ColumnLint.Sql.Grammar
