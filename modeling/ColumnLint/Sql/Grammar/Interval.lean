import ColumnLint.Sql.Grammar.DataType

/-
  Fields of dates and times, and what follows the value of an interval.
-/

namespace ColumnLint.Sql.Grammar

open ColumnLint.Text ColumnLint.Sql.Parser

/-- The name of a field of a date or a time. -/
def dateField (g : Grammar) : Parser String := do
  let d := g.dialect
  match ← peekToken with
  | some (.word text quote k) =>
    if Keyword.dateFields.contains k then
      skip
      if k == "WEEK" && d.oneOf [.bigquery, .generic] && (← atSymbol "(") then
        skip
        let day ← identifier
        expectSymbol ")"
        return "WEEK(" ++ day.print ++ ")"
      else return k
    else if d.extractWords then
      skip
      return (Ident.mk text quote none).print
    else expected "date/time field"
  | some (.literal .single s) =>
    if d.extractStrings then
      skip
      return quotedPrint '\'' s
    else expected "date/time field"
  | _ => expected "date/time field"

/-- `(n)` or `(n, m)` behind the seconds of an interval, if a parenthesis follows. -/
def secondsPrecision? : Parser String := do
  if ← symbol "(" then
    let n ← wholeNumber
    let m ← if ← symbol "," then (", " ++ ·) <$> wholeNumber else pure ""
    expectSymbol ")"
    return "(" ++ n ++ m ++ ")"
  else return ""

/-- What follows the value of an interval: units and their precision. -/
def intervalUnits (g : Grammar) : Parser String := do
  let field ← do
    if ← atOneOf Keyword.units then pure (some (← dateField g))
    else if g.dialect.intervalUnits then
      fail (.broken "INTERVAL requires a unit after the literal value" (← place))
    else pure none
  let lead := spaced (field.getD "")
  if field == some "SECOND" then return lead ++ spaced (← secondsPrecision?)
  else
    let p ← precision?
    if ← word "TO" then
      let last ← dateField g
      let q ← if last == "SECOND" then precision? else pure ""
      return lead ++ spaced p ++ " TO " ++ last ++ spaced q
    else return lead ++ spaced p

/-- An interval behind its keyword, given how its value is read. -/
def interval (g : Grammar) (value : Parser Expr) : Parser Expr := do
  let e ← value
  let units ← intervalUnits g
  return assemble [.text "INTERVAL ", .operand e, .text units]

end ColumnLint.Sql.Grammar
