import ColumnLint.Sql.Grammar.Path
import ColumnLint.Sql.Grammar.Table

/-
  Table sources and joins.
-/

namespace ColumnLint.Sql.Grammar

open ColumnLint.Text ColumnLint.Sql.Parser

/-- Rows of values; in some dialects a row may be empty. -/
def valueRows (g : Grammar) : Parser (List Expr) := do
  let rows ← commaList g do
    let marked ← word "ROW"
    expectSymbol "("
    let items ← do
      if g.dialect.oneOf [.mysql] && (← atSymbol ")") then pure [] else commaList g (anyExpr g)
    expectSymbol ")"
    return (marked, items)
  let lead := if rows.any fun r => r.1 then "ROW(" else "("
  return rows.map fun r => assemble (Part.enclosed lead r.2 ")")

/-- The condition of a join, if it has one. -/
structure Condition where
  on : List Expr
  shared : List Name

def joinCondition (g : Grammar) : Parser Condition := do
  if ← word "ON" then return ⟨[← anyExpr g], []⟩
  else if ← word "USING" then return ⟨[], ← columnList g false false (objectName g true)⟩
  else return ⟨[], []⟩

/-- The words of a join other than crossing ones, behind `NATURAL`; nothing if no join follows. -/
def joinWords (natural : Bool) : Parser (Option String) := do
  let join (lead : String) : Parser (Option String) := do
    expectWord "JOIN"
    return some (lead ++ "JOIN")
  if ← atOneOf ["INNER", "JOIN"] then
    let inner ← word "INNER"
    join (if inner then "INNER " else "")
  else
    match ← oneOf ["LEFT", "RIGHT"] with
    | some side =>
      match ← oneOf ["OUTER", "SEMI", "ANTI", "JOIN"] with
      | some "JOIN" => return some (side ++ " JOIN")
      | some k => join (side ++ " " ++ k ++ " ")
      | none => fail (.broken ("expected OUTER, SEMI, ANTI or JOIN after " ++ side) none)
    | none =>
      if ← word "ANTI" then join "ANTI "
      else if ← word "SEMI" then join "SEMI "
      else if ← word "FULL" then
        let _ ← word "OUTER"
        join "FULL "
      else if ← atWord "OUTER" then expected "LEFT, RIGHT, or FULL"
      else if ← word "STRAIGHT_JOIN" then return some "STRAIGHT_JOIN"
      else if natural then expected "a join type after NATURAL"
      else return none

/-- The joins behind a source, given how a source is read, with enough `fuel` for joins inside
joins. -/
def joinsWithin (g : Grammar) (source : Parser Source) : Nat → Parser (List Join)
  | 0 => pure []
  | fuel + 1 => do
    let joins ← repeatStep (fun joins => do
      let lead := if ← word "GLOBAL" then "GLOBAL " else ""
      let more (j : Join) : Option (List Join) := some (joins ++ [j])
      if ← word "CROSS" then
        if ← word "JOIN" then
          let s ← source
          let c ← if g.dialect.crossJoinConditions then joinCondition g else pure ⟨[], []⟩
          return more ⟨lead ++ "CROSS JOIN", s, [], c.on, c.shared⟩
        else if ← word "APPLY" then return more ⟨lead ++ "CROSS APPLY", ← source, [], [], []⟩
        else expected "JOIN or APPLY after CROSS"
      else if ← word "OUTER" then
        expectWord "APPLY"
        return more ⟨lead ++ "OUTER APPLY", ← source, [], [], []⟩
      else if ← word "ASOF" then
        expectWord "JOIN"
        let s ← source
        expectWord "MATCH_CONDITION"
        let e ← parenthesized (anyExpr g)
        let c ← joinCondition g
        return more ⟨lead ++ "ASOF JOIN", s, [phrase ["(", ")"] [e]], c.on, c.shared⟩
      else
        let natural ← word "NATURAL"
        match ← joinWords natural with
        | none => return none
        | some words =>
          let s ← source
          let s ← do
            if g.dialect.nestsJoins && (← atOneOf ["JOIN", "INNER", "LEFT", "RIGHT", "FULL"]) then
              pure (Source.nested ⟨s, ← joinsWithin g source fuel⟩ none)
            else pure s
          let c ← if natural then pure ⟨[], []⟩ else joinCondition g
          let words := lead ++ (if natural then "NATURAL " else "") ++ words
          return more ⟨words, s, [], c.on, c.shared⟩) []
    return joins

/-- A source and what is joined to it, given how a source is read. -/
def joinedWith (g : Grammar) (source : Parser Source) : Parser Joined := do
  let first ← source
  let joins ← joinsWithin g source ((← get).rest.length + 1)
  return ⟨first, joins⟩

/-- The alias of a source, if it has one. -/
def aliasOf : Source → Option Alias
  | .table _ _ a _ | .derived _ _ a | .nested _ a | .computed _ a _ | .reshaped _ _ a => a

/-- A source under another alias. -/
def renamed (label : Option Alias) : Source → Source
  | .table n details _ hints => .table n details label hints
  | .derived lateral q _ => .derived lateral q label
  | .nested t _ => .nested t label
  | .computed e _ tail => .computed e label tail
  | .reshaped s e _ => .reshaped s e label

/-- A query as a source, behind the opening parenthesis. -/
def derivedTable (g : Grammar) (lateral : Bool) : Parser Source := do
  let q ← g.query
  expectSymbol ")"
  return .derived lateral q (← tableAlias g)

/-- Joined tables behind an opening parenthesis. A single table may stand there in some dialects;
an alias behind the parentheses is then its own. -/
def nestedTables (g : Grammar) (source : Parser Source) : Parser Source := do
  let t ← joinedWith g source
  let isNested := !t.joins.isEmpty || match t.source with
    | .nested .. => true
    | _ => false
  if isNested then
    expectSymbol ")"
    return .nested t (← tableAlias g)
  else if g.dialect.parenthesizedTables then
    expectSymbol ")"
    match ← tableAlias g, aliasOf t.source with
    | none, _ => return t.source
    | some a, none => return renamed (some a) t.source
    | some _, some inner =>
      fail (.broken ("duplicate alias " ++ inner.print) none)
  else expected "joined table"

/-- A source that a name starts. -/
def namedTable (g : Grammar) : Parser Source := do
  let d := g.dialect
  let name ← objectName g true
  let path ← do
    if d.partiql && (← atSymbol "[") then pure [assemble (← documentPath g)] else pure []
  let partitions ← do
    if d.tablePartitions && (← atWord "PARTITION") then
      skip
      let names ← parenthesized (commaList0 g ")" identifier)
      pure (if names.isEmpty then []
        else [phrase ["PARTITION " ++ inParentheses (names.map Ident.print)] []])
    else pure []
  let version ← tableVersion g
  let arguments ← do
    if ← symbol "(" then pure [← tableArguments g] else pure []
  let ordinality ← do
    if ← words ["WITH", "ORDINALITY"] then pure [phrase [" WITH ORDINALITY"] []] else pure []
  let before ← do
    if d.sampleBeforeAlias then pure ((← sample g).map fun e => phrase [" ", ""] [e])
    else pure []
  let label ← tableAlias g
  let hints ← do
    if d.indexHints then pure ((← attempt (indexHints g)).getD []) else pure []
  let moreHints ← tableHints g
  let behind ← if d.sampleBeforeAlias then pure [] else sample g
  let details := path ++ partitions ++ arguments ++ ordinality ++ before
  let s ← pivots g (.table name details label (hints ++ moreHints ++ version ++ behind))
  if d.matchRecognize && (← atWord "MATCH_RECOGNIZE") then
    skip
    recognition g s
  else return s

/-- A source that unfolds arrays, behind its keyword. -/
def unnestTable (g : Grammar) : Parser Source := do
  expectSymbol "("
  let items ← commaList g (anyExpr g)
  expectSymbol ")"
  let ordinality ← words ["WITH", "ORDINALITY"]
  let label ← tableAlias g
  let offset ← do
    if ← word "WITH" then
      if ← word "OFFSET" then
        let a ← aliasExcept Keyword.notColumnAlias
        pure (" WITH OFFSET" ++ ((a.map fun i => " AS " ++ i.print).getD ""))
      else pure ""
    else pure ""
  let last := if ordinality then ") WITH ORDINALITY" else ")"
  return .computed (assemble (Part.enclosed "UNNEST(" items last)) label offset

/-- A table source, with enough `fuel` for sources in parentheses. -/
def sourceWithin (g : Grammar) : Nat → Parser Source
  | 0 => expected "identifier"
  | fuel + 1 => do
    let d := g.dialect
    let aliased (e : Expr) : Parser Source := do return .computed e (← tableAlias g) ""
    if ← word "LATERAL" then
      if ← symbol "(" then derivedTable g true
      else
        let name ← objectName g false
        expectSymbol "("
        let items ← arguments g
        aliased (assembleOver (.marked (Name.extent name))
          ([.text "LATERAL "] ++ nameParts name ++ Part.enclosed "(" items ")"))
    else if ← word "TABLE" then
      let e ← parenthesized (anyExpr g)
      aliased (phrase ["TABLE(", ")"] [e])
    else if ← symbol "(" then
      match ← attempt (derivedTable g false) with
      | some s => pivots g s
      | none => nestedTables g (sourceWithin g fuel)
    else if d.valuesTables && (← atWord "VALUES") && (← atSymbolAt 1 "(") then
      skip
      let rows ← valueRows g
      return .derived false ⟨none, "", [], .values rows, [], []⟩ (← tableAlias g)
    else if d.unnest && (← atWord "UNNEST") then
      skip
      unnestTable g
    else if (← atWord "JSON_TABLE") && (← atSymbolAt 1 "(") then
      skip
      skip
      aliased (← documentTable g)
    else if (← atWord "OPENJSON") && (← atSymbolAt 1 "(") then
      skip
      skip
      aliased (← openedDocument g)
    else if (← atWord "XMLTABLE") && (← atSymbolAt 1 "(") then
      skip
      skip
      aliased (← elementTable g)
    else if d.semanticViews && (← atWord "SEMANTIC_VIEW") && (← atSymbolAt 1 "(") then
      skip
      aliased (← semanticView g)
    else namedTable g

/-- A table source. -/
def tableSource (g : Grammar) : Parser Source := do
  sourceWithin g ((← get).rest.length + 1)

/-- A table source and what is joined to it. -/
def joinedTables (g : Grammar) : Parser Joined := joinedWith g (tableSource g)

end ColumnLint.Sql.Grammar
