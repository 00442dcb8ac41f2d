import ColumnLint.Sql.Grammar.Operand

/-
  What follows an operand without an operator: fields behind periods, subscripts in brackets, and
  paths into documents.
-/

namespace ColumnLint.Sql.Grammar

open ColumnLint.Text ColumnLint.Sql.Parser

/-- A subscript behind its opening bracket: an index or a slice. -/
def subscript (g : Grammar) : Parser Access := do
  let bound : Parser Part := do return .operand (← anyExpr g)
  let close (parts : List Part) : Access :=
    let parts := [.text "["] ++ parts ++ [.text "]"]
    .subscript (Part.words "" parts) (Part.operands parts)
  let colon := Part.text ":"
  let lower ← if ← symbol ":" then pure none else some <$> bound
  if ← symbol "]" then
    return close (match lower with
      | some e => [e]
      | none => [colon])
  else
    if lower.isSome then expectSymbol ":"
    let low := lower.toList
    if ← symbol "]" then return close (low ++ [colon])
    else
      let high ← bound
      if ← symbol "]" then return close (low ++ [colon, high])
      else
        expectSymbol ":"
        if ← symbol "]" then return close (low ++ [colon, high])
        else
          let step ← anyExpr g
          expectSymbol "]"
          return close (low ++ [colon, high, colon, .operand step])

/-- The name of a field that an access reads. -/
def fieldIdent? : Access → Option Ident
  | .field (.column [i]) => some i
  | _ => none

/-- The names in a path that has nothing else in it. -/
def idents? (root : Expr) (path : List Access) : Option (List Ident) :=
  match root with
  | .column [i] => (path.mapM fieldIdent?).map (i :: ·)
  | _ => none

/-- The fields that an expression behind a period stands for. -/
def fieldsOf : Expr → List Access
  | .access root path => .field root :: path
  | .column parts => parts.map fun i => .field (.column [i])
  | e => [.field e]

/-- A call whose function's name has more parts in front. -/
def qualifyCall (parts : List Ident) (f : Form) (operands : List Expr) : Expr :=
  let lead := String.join (parts.map fun i => i.print ++ ".")
  let words := match f.words with
    | [] => [lead]
    | w :: ws => (lead ++ w) :: ws
  let reach := match f.reach with
    | .marked region => Reach.marked (joinRegions (identsExtent parts) region)
    | r => r
  .form { f with words := words, reach := reach } operands

/-- The expression of a root and a path. A name in front of a call is part of the function's name,
and a name in front of an outer join mark is part of the column's: only names may stand there. -/
def pathExpr (root : Expr) (path : List Access) : Parser Expr :=
  if path.isEmpty then pure root
  else
    match idents? root path with
    | some parts => pure (.column parts)
    | none =>
      let marked := match path with
        | [.field (.form f [.column inner])] =>
          if f.kind == FormKind.outerJoin then some (f, inner) else none
        | _ => none
      match marked with
      | some (f, inner) =>
        match idents? root [] with
        | some parts => pure (.form f [.column (parts ++ inner)])
        | none =>
          fail (.broken "column identifier before (+)" (root.extent.map Region.start))
      | none =>
        match path.getLast?, idents? root path.dropLast with
        | some (.field (.form f operands)), some parts =>
          if f.kind == FormKind.call then pure (qualifyCall parts f operands)
          else pure (.access root path)
        | _, _ => pure (.access root path)

/-- The path behind a root, and the star that ends it in some dialects. -/
def pathOf (g : Grammar) : Parser (List Access × Option Region) := do
  let d := g.dialect
  let (path, star, _) ← repeatStep (fun (path, star, done) => do
    if done then return none
    else if ← atSymbol "." then
      let start ← get
      skip
      match ← peek with
      | some x =>
        match x.token with
        | .symbol "*" =>
          if d.oneOf [.postgres] then
            skip
            return some (path, some x.region, true)
          else
            set start
            return some (path, star, true)
        | .literal .single s =>
          skip
          return some (path ++ [Access.field (.column [⟨s, some '\'', some x.region⟩])], star, false)
        | _ =>
          let e ← g.expr (Binding.period.level d)
          return some (path ++ fieldsOf e, star, false)
      | none =>
        let e ← g.expr (Binding.period.level d)
        return some (path ++ fieldsOf e, star, false)
    else if !d.partiql && (← atSymbol "[") then
      skip
      return some (path ++ [← subscript g], star, false)
    else return none) ([], none, false)
  return (path, star)

/-- An operand with the path behind it. -/
def operandWithPath (g : Grammar) : Parser Expr := do
  let ((root, path, star), taken) ← taking do
    let root ← anyOperand g
    let (path, star) ← pathOf g
    return (root, path, star)
  match star with
  | some region =>
    match idents? root path with
    | some parts => return .starOf (parts.map .ident) (some region)
    | none => expected "an identifier or a '*' after '.'"
  | none =>
    if ← atOuterJoinMark g then
      match idents? root path with
      | some parts =>
        skip
        skip
        skip
        return .form ⟨.outerJoin, ["", "(+)"], .operands⟩ [.column parts]
      | none => fail (.expected "column identifier before (+)" taken.getLast?)
    else pathExpr root path

/-- A key of a path into a document. -/
def pathKey : Parser String := do
  match ← peekToken with
  | some (.word text quote _) =>
    if quote.isNone || quote == some '"' then
      skip
      return (Ident.mk text quote none).print
    else expected "variant object key name"
  | some (.literal .double text) =>
    skip
    return quotedPrint '"' text
  | _ => expected "variant object key name"

/-- A path into a document: keys and elements. -/
def documentPath (g : Grammar) : Parser (List Part) := do
  repeatStep (fun parts => do
    if parts.isEmpty && (← atSymbol ":") then
      skip
      return some [Part.text (":" ++ (← pathKey))]
    else if !parts.isEmpty && (← atSymbol ".") then
      skip
      return some (parts ++ [.text ("." ++ (← pathKey))])
    else if ← symbol "[" then
      let e ← anyExpr g
      expectSymbol "]"
      return some (parts ++ [.text "[", .operand e, .text "]"])
    else return none) []

end ColumnLint.Sql.Grammar
