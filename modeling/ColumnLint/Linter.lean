import ColumnLint.Rule.References
import ColumnLint.Sql.Parse
import ColumnLint.Suppression

/-
  The linter. A text is parsed once, the rules that apply are checked on each of its statements,
  the issues that comments suppress are dropped, and the rest is put in order.
-/

namespace ColumnLint

open Text Sql

/-- A configuration whose options are valid, with the policy that they name. -/
structure Linter where
  config : Config
  policy : Policy

/-- A statement of a document. -/
structure Entry where
  statement : Statement
  /-- The number of the statement that issues carry. -/
  index : Nat
  /-- The bytes of the statement. -/
  range : Span

/-- A text with statements of it, and what its comments suppress. -/
structure Document where
  text : List Char
  entries : List Entry
  suppression : Suppression

/-- The document of a text with these statements. -/
def Document.ofText (d : Dialect) (text : List Char) (entries : List Entry) : Document :=
  ⟨text, entries, Suppression.ofText d text⟩

/-- The line of an issue: that of its place, else that of its statement. -/
def Document.lineOf? (doc : Document) (i : Issue) : Option Nat :=
  match i.span, i.statementIndex with
  | some s, _ => some (lineAt doc.text s.start)
  | none, some n => (doc.entries.find? fun e => e.index == n).map fun e =>
      lineAt doc.text e.range.start
  | none, none => none

/-- The comments of the document suppress an issue. -/
def Document.suppresses (doc : Document) (i : Issue) : Bool :=
  match doc.lineOf? i with
  | some line => doc.suppression.suppresses line i.code
  | none => false

namespace Linter

/-- The linter of a configuration. The options are checked whether or not their rule applies. -/
def ofConfig (c : Config) : Except ConfigError Linter :=
  match Policy.ofConfig c with
  | .ok p => .ok ⟨c, p⟩
  | .error e => .error e

/-- The rules that apply. -/
def rules (l : Linter) : List Rule := Rule.all.filter fun r => l.config.applies r.code

/-- The issues of a rule in a statement. -/
def check (l : Linter) (text : List Char) (e : Entry) : Rule → List Issue
  | .consistentReferences => l.policy.issues text e.index e.statement

/-- The issues that the rules raise in a document. -/
def raised (l : Linter) (doc : Document) : List Issue :=
  l.rules.flatMap fun r => doc.entries.flatMap fun e => l.check doc.text e r

/-- The issues of a document. -/
def checkDocument (l : Linter) (doc : Document) : List Issue :=
  if l.config.enabled then
    normalize ((l.raised doc).filter fun i => !doc.suppresses i)
  else []

/-- The issues of one statement. -/
def checkStatement (l : Linter) (d : Dialect) (text : List Char) (e : Entry) : List Issue :=
  l.checkDocument (Document.ofText d text [e])

end Linter

/-- The bytes of a statement: what its extent covers, or all of the text where that is unknown or
empty. -/
def statementRange (text : List Char) (s : Statement) : Span :=
  match s.extent.bind (span? text) with
  | some r => if r.start < r.stop then r else ⟨0, byteSize text⟩
  | none => ⟨0, byteSize text⟩

/-- The statements of a text as entries, numbered from 0. -/
def entriesOf (text : List Char) (statements : List Statement) : List Entry :=
  statements.zipIdx.map fun (s, n) => ⟨s, n, statementRange text s⟩

/-- The issue of a text that is no list of statements. -/
def parseIssue (text : List Char) (e : ParseError) : Issue where
  severity := .error
  code := parseErrorCode
  message := e.render
  span := (e.position.bind (offset? text)).map fun o => ⟨o, o⟩

/-- The result of linting a text. A text that cannot be parsed has one issue that says so. -/
def Linter.lint (l : Linter) (d : Dialect) (text : List Char) : LintResult :=
  match parse d text with
  | .ok statements =>
    .ofIssues statements.length
      (l.checkDocument (Document.ofText d text (entriesOf text statements)))
  | .error e => .ofIssues 0 [parseIssue text e]

end ColumnLint
