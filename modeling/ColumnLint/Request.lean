import ColumnLint.Linter

/-
  Requests to lint a text.
-/

namespace ColumnLint

open Text Sql

structure Request where
  sql : String
  dialect : Dialect := .generic
  /-- The name of the text, which issues then carry. -/
  sourceName : Option String := none
  config : Option Config := none

namespace Request

/-- The result of a request, or what is wrong with its configuration. -/
def lint (r : Request) : Except ConfigError LintResult :=
  match Linter.ofConfig (r.config.getD {}) with
  | .error e => .error e
  | .ok linter =>
    let result := linter.lint r.dialect r.sql.toList
    match r.sourceName with
    | none => .ok result
    | some name =>
      .ok { result with issues := result.issues.map fun i => i.withSource name }

end Request

end ColumnLint
