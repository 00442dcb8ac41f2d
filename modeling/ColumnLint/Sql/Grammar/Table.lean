import ColumnLint.Sql.Grammar.Alias
import ColumnLint.Sql.Grammar.Call
import ColumnLint.Sql.Grammar.Precedence

/-
  Parts of table sources: tables that functions make, samples, hints, pivots and row patterns.
  What is inside them names no column of the select.
-/

namespace ColumnLint.Sql.Grammar

open ColumnLint.Text ColumnLint.Sql.Parser

/-- An expression with an optional name behind `AS`. -/
def aliasedExpr (g : Grammar) : Parser Expr := do
  let e ← anyExpr g
  if ← word "AS" then return phrase ["", " AS " ++ (← identifier).print] [e] else return e

/-- Settings of a query or a table function, if some follow. -/
def settings (g : Grammar) : Parser (List Expr) := do
  if g.dialect.clickhouseClauses && (← atWord "SETTINGS") then
    skip
    let items ← commaList g do
      let k ← identifier
      expectSymbol "="
      let e ← anyExpr g
      return phrase [k.print ++ " = ", ""] [e]
    return [assemble (Part.enclosed "SETTINGS " items "")]
  else return []

/-- The arguments of a table function up to the closing parenthesis, which is taken. -/
def tableArguments (g : Grammar) : Parser Expr := do
  if ← symbol ")" then return phrase ["()"] []
  else
    let (items, _) ← repeatStep (fun (items, done) => do
      if done then return none
      else
        let s ← settings g
        if !s.isEmpty then return some (items ++ s, true)
        else
          let a ← argument g
          return some (items ++ [a], ← listEnds g.dialect.trailingCommas (reservedWord g)))
      ([], false)
    expectSymbol ")"
    return assemble (Part.enclosed "(" items ")")

/-- The time that a table is read as of, if one follows. -/
def tableVersion (g : Grammar) : Parser (List Expr) := do
  if !g.dialect.tableVersions then return []
  else if ← words ["FOR", "SYSTEM_TIME", "AS", "OF"] then
    let e ← anyExpr g
    return [phrase ["FOR SYSTEM_TIME AS OF ", ""] [e]]
  else if ← atOneOf ["AT", "BEFORE"] then
    let name ← objectName g true
    return [← call g name]
  else return []

/-- The number that a sample repeats from. -/
def sampleSeed (g : Grammar) (k : String) : Parser String := do
  let v ← parenthesized (numberValue g)
  return " " ++ k ++ " (" ++ v.text ++ ")"

/-- A sample behind its keyword. -/
def sampleBody (g : Grammar) (k : String) : Parser Expr := do
  let method ← oneOf ["BERNOULLI", "ROW", "SYSTEM", "BLOCK"]
  let lead := k ++ spaced (method.getD "")
  let opened ← symbol "("
  let isBucket ← if opened then word "BUCKET" else pure false
  let amount ←
    if isBucket then do
      let bucket ← numberValue g
      expectWords ["OUT", "OF"]
      let total ← numberValue g
      let on ← optional "ON" (anyExpr g)
      pure ([.text ("BUCKET " ++ bucket.text ++ " OUT OF " ++ total.text)]
        ++ Part.clause " ON " "" on)
    else do
      let e ← do
        match ← attempt (anyExpr g) with
        | some e => pure e
        | none =>
          match ← next with
          | some x =>
            match x.token with
            | .word text _ _ => pure (Expr.constant text (some x.region))
            | _ => fail (.broken "Expecting number or byte length e.g. 100M" (← place))
          | none => fail (.broken "Expecting number or byte length e.g. 100M" none)
      let unit ← oneOf ["ROWS", "PERCENT"]
      pure [Part.operand e, .text (spaced (unit.getD ""))]
  if opened then expectSymbol ")"
  let seed ← do
    match ← oneOf ["REPEATABLE", "SEED"] with
    | some w => sampleSeed g w
    | none => pure ""
  let offset ← optional "OFFSET" (anyExpr g)
  let amount := if opened then [.text " ("] ++ amount ++ [.text ")"] else .text " " :: amount
  let body := if isBucket then .text seed :: amount else amount ++ [.text seed]
  return assemble ([.text lead] ++ body ++ Part.clause " OFFSET " "" offset)

/-- A sample, if one follows. -/
def sample (g : Grammar) : Parser (List Expr) := do
  match ← oneOf ["TABLESAMPLE", "SAMPLE"] with
  | some k => return [← sampleBody g k]
  | none => return []

/-- Hints on indexes. -/
def indexHints (g : Grammar) : Parser (List Expr) := do
  repeatStep (fun hints => do
    match ← oneOf ["USE", "IGNORE", "FORCE"] with
    | none => return none
    | some use =>
      match ← oneOf ["INDEX", "KEY"] with
      | none => expected "expected to match INDEX/KEY keyword"
      | some kind =>
        let purpose ← do
          if ← word "FOR" then
            if ← word "JOIN" then pure " FOR JOIN"
            else if ← words ["ORDER", "BY"] then pure " FOR ORDER BY"
            else if ← words ["GROUP", "BY"] then pure " FOR GROUP BY"
            else expected "expected to match FOR/ORDER BY/GROUP BY table hint in for clause"
          else pure ""
        expectSymbol "("
        let names ← if ← atSymbol ")" then pure [] else commaList g identifier
        expectSymbol ")"
        let text := use ++ " " ++ kind ++ purpose ++ " ("
          ++ ", ".intercalate (names.map Ident.print) ++ ")"
        return some (hints ++ [phrase [text] []])) []

/-- Hints in parentheses behind `WITH`, if some follow. -/
def tableHints (g : Grammar) : Parser (List Expr) := do
  if (← atWord "WITH") && (← atSymbolAt 1 "(") then
    skip
    skip
    let items ← commaList g (anyExpr g)
    expectSymbol ")"
    return [assemble (Part.enclosed "WITH (" items ")")]
  else return []

/-- The aggregates of a pivot. -/
def aggregateCalls (g : Grammar) : Parser (List Expr) :=
  commaList g do
    match ← next with
    | some x =>
      match x.token with
      | .word text _ _ =>
        let e ← call g [.ident ⟨text, none, none⟩]
        if ← word "AS" then return phrase ["", " AS " ++ (← identifier).print] [e] else return e
      | _ => expected "a function identifier"
    | none => expected "a function identifier"

/-- The values that a pivot turns into columns, in parentheses. -/
def pivotValues (g : Grammar) : Parser (List Part) :=
  parenthesized do
    if ← word "ANY" then
      let keys ← if ← words ["ORDER", "BY"] then sortKeys g else pure []
      return [.text "(ANY"] ++ Part.clause " ORDER BY " ", " keys ++ [.text ")"]
    else if ← atOneOf ["SELECT", "WITH"] then return [.operand (.query (← g.query))]
    else return Part.enclosed "(" (← commaList g (aliasedExpr g)) ")"

/-- `PIVOT` behind its keyword. -/
def pivot (g : Grammar) (source : Source) : Parser Source := do
  let between := g.expr (Binding.between.level g.dialect)
  expectSymbol "("
  let aggregates ← aggregateCalls g
  expectWord "FOR"
  let column ← do
    if ← atSymbol "(" then
      match ← columnList g false false between with
      | [e] => pure e
      | es => pure (assemble (Part.enclosed "(" es ")"))
    else between
  expectWord "IN"
  let values ← pivotValues g
  let default ← do
    if ← words ["DEFAULT", "ON", "NULL"] then
      let e ← parenthesized (anyExpr g)
      pure [.text " DEFAULT ON NULL (", .operand e, .text ")"]
    else pure []
  expectSymbol ")"
  let label ← tableAlias g
  let parts := Part.enclosed "PIVOT(" aggregates " FOR " ++ [.operand column, .text " IN "]
    ++ values ++ default ++ [.text ")"]
  return .reshaped source (assemble parts) label

/-- `UNPIVOT` behind its keyword. -/
def unpivot (g : Grammar) (source : Source) : Parser Source := do
  let nulls ← do
    match ← oneOf ["INCLUDE", "EXCLUDE"] with
    | some k =>
      expectWord "NULLS"
      pure (" " ++ k ++ " NULLS ")
    | none => pure ""
  expectSymbol "("
  let e ← anyExpr g
  expectWord "FOR"
  let name ← identifier
  expectWord "IN"
  let columns ← columnList g false false (aliasedExpr g)
  expectSymbol ")"
  let label ← tableAlias g
  return .reshaped source (assemble ([.text ("UNPIVOT" ++ nulls ++ "("), .operand e,
    .text (" FOR " ++ name.print)] ++ Part.enclosed " IN (" columns "))")) label

/-- A source with the pivots that follow it. -/
def pivots (g : Grammar) (source : Source) : Parser Source := do
  repeatStep (fun source => do
    match ← oneOf ["PIVOT", "UNPIVOT"] with
    | some "PIVOT" => return some (← pivot g source)
    | some _ => return some (← unpivot g source)
    | none => return none) source

/-- The digits of the next token if it is a number, which is taken. -/
def digits? : Parser (Option String) := do
  match ← peekToken with
  | some (.number digits _) =>
    skip
    return some digits
  | _ => return none

/-- A range of counts behind its opening brace. Whether the numbers are counts is asked when the
range is closed, and a fault is told of its first token. -/
def patternRange : Parser String := do
  let start ← peek
  let count (digits : String) : Parser String := do
    let place := (start.map fun x => x.region.start).getD ⟨0, 0⟩
    return toString (← readNumber (Nat.pow 2 32) "u32" digits place)
  if ← symbol "," then
    match ← digits? with
    | some high =>
      expectSymbol "\x7d"
      return "\x7b," ++ (← count high) ++ "\x7d"
    | none => expected "literal number"
  else
    match ← digits? with
    | none => expected "quantifier range"
    | some low =>
      if ← symbol "," then
        match ← digits? with
        | some high =>
          expectSymbol "\x7d"
          return "\x7b" ++ (← count low) ++ "," ++ (← count high) ++ "\x7d"
        | none =>
          if ← symbol "\x7d" then return "\x7b" ++ (← count low) ++ ",\x7d"
          else expected "\x7d or upper bound"
      else
        expectSymbol "\x7d"
        return "\x7b" ++ (← count low) ++ "\x7d"

/-- How often a part of a row pattern repeats. -/
def patternCount : Parser (Option String) := do
  if ← symbol "*" then return some "*"
  else if ← symbol "+" then return some "+"
  else
    match ← peekToken with
    | some (.placeholder "?") =>
      skip
      return some "?"
    | some (.symbol "\x7b") =>
      skip
      some <$> patternRange
    | _ => return none

/-- A row pattern up to a closing parenthesis, with enough `fuel` for patterns inside. -/
def rowPattern (g : Grammar) : Nat → Parser String
  | 0 => expected "a pattern"
  | fuel + 1 => do
    let inner := rowPattern g fuel
    let base : Parser String := do
      if ← symbol "^" then return "^"
      else if ← symbol "\x7b" then
        expectSymbol "-"
        let i ← identifier
        expectSymbol "-"
        expectSymbol "\x7d"
        return "\x7b- " ++ i.print ++ " -\x7d"
      else if ← symbol "(" then
        let p ← inner
        expectSymbol ")"
        return "( " ++ p ++ " )"
      else
        match ← peekToken with
        | some (.placeholder "$") =>
          skip
          return "$"
        | some (.word "PERMUTE" none _) =>
          skip
          let names ← parenthesized (commaList g identifier)
          return "PERMUTE" ++ inParentheses (names.map Ident.print)
        | _ => return (← identifier).print
    let repeated : Parser String := do
      let p ← base
      repeatStep (fun p => do
        match ← patternCount with
        | some n => return some (p ++ n)
        | none => return none) p
    let sequence : Parser String := do
      let first ← repeated
      repeatStep (fun p => do
        if (← atSymbol ")") || (← atSymbol "|") then return none
        else return some (p ++ " " ++ (← repeated))) first
    let first ← sequence
    repeatStep (fun p => do
      if ← symbol "|" then return some (p ++ " | " ++ (← sequence)) else return none) first

/-- Which rows a row pattern gives for a match, if said. -/
def rowsPerMatch : Parser String := do
  if ← words ["ONE", "ROW", "PER", "MATCH"] then return "ONE ROW PER MATCH "
  else if ← words ["ALL", "ROWS", "PER", "MATCH"] then
    if ← words ["SHOW", "EMPTY", "MATCHES"] then return "ALL ROWS PER MATCH SHOW EMPTY MATCHES "
    else if ← words ["OMIT", "EMPTY", "MATCHES"] then
      return "ALL ROWS PER MATCH OMIT EMPTY MATCHES "
    else if ← words ["WITH", "UNMATCHED", "ROWS"] then
      return "ALL ROWS PER MATCH WITH UNMATCHED ROWS "
    else return "ALL ROWS PER MATCH "
  else return ""

/-- Where the search goes on after a match, if said. -/
def afterMatch : Parser String := do
  if ← words ["AFTER", "MATCH", "SKIP"] then
    let lead := "AFTER MATCH SKIP "
    if ← words ["PAST", "LAST", "ROW"] then return lead ++ "PAST LAST ROW "
    else if ← words ["TO", "NEXT", "ROW"] then return lead ++ "TO NEXT ROW "
    else if ← words ["TO", "FIRST"] then return lead ++ "TO FIRST " ++ (← identifier).print ++ " "
    else if ← words ["TO", "LAST"] then return lead ++ "TO LAST " ++ (← identifier).print ++ " "
    else expected "after match skip option"
  else return ""

/-- `MATCH_RECOGNIZE` behind its keyword. -/
def recognition (g : Grammar) (source : Source) : Parser Source := do
  expectSymbol "("
  let partition ← if ← words ["PARTITION", "BY"] then commaList g (anyExpr g) else pure []
  let keys ← if ← words ["ORDER", "BY"] then sortKeys g else pure []
  let measures ← do
    if ← word "MEASURES" then
      commaList g do
        let e ← anyExpr g
        let _ ← word "AS"
        return phrase ["", " AS " ++ (← identifier).print] [e]
    else pure []
  let rows ← rowsPerMatch
  let after ← afterMatch
  expectWord "PATTERN"
  let pattern ← parenthesized (do rowPattern g ((← get).rest.length + 1))
  expectWord "DEFINE"
  let definitions ← commaList g do
    let name ← identifier
    expectWord "AS"
    let e ← anyExpr g
    return phrase [name.print ++ " AS ", ""] [e]
  expectSymbol ")"
  let label ← tableAlias g
  let clause (lead : String) (es : List Expr) : List Part :=
    if es.isEmpty then [] else Part.enclosed lead es " "
  let parts := [.text "MATCH_RECOGNIZE("] ++ clause "PARTITION BY " partition
    ++ clause "ORDER BY " keys ++ clause "MEASURES " measures
    ++ [.text (rows ++ after ++ "PATTERN (" ++ pattern ++ ")")]
    ++ Part.clause " DEFINE " ", " definitions ++ [.text ")"]
  return .reshaped source (assemble parts) label

/-- What a document's table does where a value is missing or wrong. -/
def documentErrors (g : Grammar) : Parser String := do
  let (missing, wrong) ← repeatStep (fun (missing, wrong) => do
    match ← oneOf ["NULL", "ERROR", "DEFAULT"] with
    | none => return none
    | some k =>
      let text ← if k == "DEFAULT" then (fun v => k ++ " " ++ v.text) <$> value g else pure k
      expectWord "ON"
      if ← word "EMPTY" then return some (" " ++ text ++ " ON EMPTY", wrong)
      else
        expectWord "ERROR"
        return some (missing, " " ++ text ++ " ON ERROR")) ("", "")
  return missing ++ wrong

/-- A column of a document's table, with enough `fuel` for nested ones. -/
def documentColumn (g : Grammar) : Nat → Parser (List Part)
  | 0 => expected "identifier"
  | fuel + 1 => do
    if ← word "NESTED" then
      let _ ← word "PATH"
      let path ← value g
      expectWord "COLUMNS"
      let columns ← parenthesized (commaList g (documentColumn g fuel))
      return .text ("NESTED PATH " ++ path.text ++ " COLUMNS ") :: Part.inParentheses columns
    else
      let name ← identifier
      if ← word "FOR" then
        expectWord "ORDINALITY"
        return [.text (name.print ++ " FOR ORDINALITY")]
      else
        let t ← dataType g
        let exist ← word "EXISTS"
        expectWord "PATH"
        let path ← value g
        let errors ← documentErrors g
        let lead := if exist then " EXISTS PATH " else " PATH "
        return [.text (name.print ++ " ")] ++ t.parts ++ [.text (lead ++ path.text ++ errors)]

/-- A table made from a document, behind the opening parenthesis. -/
def documentTable (g : Grammar) : Parser Expr := do
  let e ← anyExpr g
  expectSymbol ","
  let path ← value g
  expectWord "COLUMNS"
  expectSymbol "("
  let fuel := (← get).rest.length + 1
  let columns ← commaList g (documentColumn g fuel)
  expectSymbol ")"
  expectSymbol ")"
  return assembleOver (.marked path.region) ([.text "JSON_TABLE(", .operand e,
    .text (", " ++ path.text ++ " COLUMNS")] ++ Part.inParentheses columns ++ [.text ")"])

/-- A table opened from a document, behind the opening parenthesis. -/
def openedDocument (g : Grammar) : Parser Expr := do
  let e ← anyExpr g
  let path ← do
    if ← symbol "," then pure (", " ++ (← value g).text) else pure ""
  expectSymbol ")"
  let columns ← do
    if ← word "WITH" then
      let items ← parenthesized <| commaList g do
        let name ← identifier
        let t ← dataType g
        let path ← do
          match ← peekToken with
          | some (.literal .single s) =>
            skip
            pure (" " ++ quotedPrint '\'' s)
          | _ => pure ""
        let json ← do
          if ← word "AS" then
            expectWord "JSON"
            pure " AS JSON"
          else pure ""
        return [.text (name.print ++ " ")] ++ t.parts ++ [.text (path ++ json)]
      pure (.text " WITH " :: Part.inParentheses items)
    else pure []
  return assembleOver .unknown ([.text "OPENJSON(", .operand e, .text (path ++ ")")] ++ columns)

/-- A table made from a tree of elements, behind the opening parenthesis. -/
def elementTable (g : Grammar) : Parser Expr := do
  let namespaces ← do
    if ← word "XMLNAMESPACES" then
      let items ← parenthesized <| commaList g do
        let e ← anyExpr g
        expectWord "AS"
        return phrase ["", " AS " ++ (← identifier).print] [e]
      expectSymbol ","
      pure (Part.enclosed "XMLNAMESPACES(" items "), ")
    else pure []
  let row ← anyExpr g
  let passing ← do
    if ← word "PASSING" then
      listOf false (reservedWord g) do
        let byValue ← do
          if ← word "BY" then word "VALUE" else pure false
        let e ← aliasedExpr g
        return if byValue then phrase ["BY VALUE ", ""] [e] else e
    else pure []
  expectWord "COLUMNS"
  let columns ← commaList g do
    let name ← identifier
    if ← word "FOR" then
      expectWord "ORDINALITY"
      return phrase [name.print ++ " FOR ORDINALITY"] []
    else
      let t ← dataType g
      let path ← optional "PATH" (anyExpr g)
      let default ← optional "DEFAULT" (anyExpr g)
      let notNull ← words ["NOT", "NULL"]
      if !notNull then let _ ← word "NULL"
      return assemble ([.text (name.print ++ " ")] ++ t.parts ++ Part.clause " PATH " "" path
        ++ Part.clause " DEFAULT " "" default ++ [.text (if notNull then " NOT NULL" else "")])
  expectSymbol ")"
  return assembleOver .unknown ([.text "XMLTABLE("] ++ namespaces ++ [.operand row]
    ++ Part.clause " PASSING " ", " passing ++ Part.enclosed " COLUMNS " columns ")")

/-- A view with dimensions and metrics, behind its keyword. -/
def semanticView (g : Grammar) : Parser Expr := do
  expectSymbol "("
  let name ← objectName g true
  let kinds := ["DIMENSIONS", "METRICS", "FACTS", "WHERE"]
  let clauses ← repeatStep (fun (clauses : List (String × List Part)) => do
    if ← atSymbol ")" then return none
    else
      match ← oneOf kinds with
      | some k =>
        if (clauses.lookup k).isSome then
          fail (.broken (k ++ " clause can only be specified once") none)
        else if k == "WHERE" then
          let e ← anyExpr g
          return some ((k, [Part.text " WHERE ", .operand e]) :: clauses)
        else
          let items ← commaList g (starOrExpr g)
          return some ((k, Part.clause (" " ++ k ++ " ") ", " items) :: clauses)
      | none =>
        let found := ((← peek).map fun x => x.token.render).getD "EOF"
        fail (.broken ("Expected one of DIMENSIONS, METRICS, FACTS or WHERE, got " ++ found)
          (← place))) []
  expectSymbol ")"
  let parts := kinds.flatMap fun k => (clauses.lookup k).getD []
  return assembleOver (.marked (Name.extent name))
    ([.text "SEMANTIC_VIEW("] ++ nameParts name ++ parts ++ [.text ")"])

end ColumnLint.Sql.Grammar
