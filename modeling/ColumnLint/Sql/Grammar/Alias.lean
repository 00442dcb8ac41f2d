import ColumnLint.Sql.Grammar.DataType

/-
  Aliases of projection items and of table sources.
-/

namespace ColumnLint.Sql.Grammar

open ColumnLint.Text ColumnLint.Sql.Parser

/-- An alias, if one follows. Behind `AS` every word is one; else the rule decides. A string is an
alias anywhere. -/
def aliasBy (rule : String → Option Token → Bool) : Parser (Option Ident) := do
  let explicit ← word "AS"
  let none' : Parser (Option Ident) :=
    if explicit then expected "an identifier after AS" else return none
  match ← peek with
  | none => none'
  | some x =>
    match x.token with
    | .word text quote k =>
      let behind := (← peekAt 1).map Lexeme.token
      if explicit || rule k behind then
        skip
        return some ⟨text, quote, some x.region⟩
      else none'
    | .literal .single text =>
      skip
      return some ⟨text, some '\'', none⟩
    | .literal .double text =>
      skip
      return some ⟨text, some '"', none⟩
    | _ => none'

/-- An alias that no word of a list is. -/
def aliasExcept (reserved : List String) : Parser (Option Ident) :=
  aliasBy fun k _ => !reserved.contains k

/-- The alias of a projection item, if one follows. -/
def columnAlias (g : Grammar) : Parser (Option Ident) := aliasBy g.dialect.aliasesColumn

/-- The columns that an alias names, with or without types. -/
def aliasColumns (g : Grammar) : Parser (List Expr) := do
  if ← symbol "(" then
    let columns ← commaList g do
      let i ← identifier
      let t ← attempt (dataType g)
      let type := (t.map fun t => Part.text " " :: t.parts).getD []
      return assembleOver (.marked i.region) (.text i.print :: type)
    expectSymbol ")"
    return columns
  else return []

/-- The alias of a table source, if one follows. -/
def tableAlias (g : Grammar) : Parser (Option Alias) := do
  match ← aliasBy g.dialect.aliasesTable with
  | some i => return some ⟨i, ← aliasColumns g⟩
  | none => return none

end ColumnLint.Sql.Grammar
