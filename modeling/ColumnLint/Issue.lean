import ColumnLint.Text.Location

/-
  Issues, and the result of linting a text: its issues with a summary of them.
-/

namespace ColumnLint

open Text

inductive Severity where
  | error
  | warning
  | info
deriving DecidableEq, Repr

namespace Severity

def word : Severity → String
  | error => "error"
  | warning => "warning"
  | info => "info"

def all : List Severity := [error, warning, info]

def ofWord? (s : String) : Option Severity := all.find? fun v => v.word == s

/-- The graver comes first. -/
def rank : Severity → Nat
  | error => 0
  | warning => 1
  | info => 2

end Severity

/-- The code of a text that is no list of statements. -/
def parseErrorCode : String := "PARSE_ERROR"

structure Issue where
  severity : Severity
  code : String
  message : String
  span : Option Span := none
  /-- The number of the statement, counted from 0. -/
  statementIndex : Option Nat := none
  /-- The name of the text. -/
  sourceName : Option String := none
deriving DecidableEq, Repr

namespace Issue

def withSpan (i : Issue) (s : Span) : Issue := { i with span := some s }

def withStatement (i : Issue) (n : Nat) : Issue := { i with statementIndex := some n }

def withSource (i : Issue) (name : String) : Issue := { i with sourceName := some name }

end Issue

/-- How many issues of each severity there are. -/
structure IssueCount where
  errors : Nat
  warnings : Nat
  infos : Nat
deriving DecidableEq, Repr

namespace IssueCount

def ofIssues (issues : List Issue) : IssueCount where
  errors := issues.countP fun i => i.severity == .error
  warnings := issues.countP fun i => i.severity == .warning
  infos := issues.countP fun i => i.severity == .info

def total (c : IssueCount) : Nat := c.errors + c.warnings + c.infos

end IssueCount

structure Summary where
  statementCount : Nat
  issueCount : IssueCount
  hasErrors : Bool
deriving DecidableEq, Repr

structure LintResult where
  issues : List Issue
  summary : Summary
deriving DecidableEq, Repr

namespace LintResult

/-- The result with these issues, of a text of so many statements. -/
def ofIssues (statementCount : Nat) (issues : List Issue) : LintResult :=
  let count := IssueCount.ofIssues issues
  ⟨issues, statementCount, count, 0 < count.errors⟩

/-- The result that is one error. -/
def ofError (code message : String) : LintResult :=
  ofIssues 0 [⟨.error, code, message, none, none, none⟩]

end LintResult

/-- The place of missing numbers in the order of issues: the largest 64-bit number. -/
def missingPlace : Nat := Nat.pow 2 64 - 1

namespace Issue

/-- The order of issues: by statement, place, severity, code and message. Issues without a
statement or a place come behind those that have one. -/
def order (a b : Issue) : Ordering :=
  (compare (a.statementIndex.getD missingPlace) (b.statementIndex.getD missingPlace)).then <|
  (compare ((a.span.map Span.start).getD missingPlace) ((b.span.map Span.start).getD missingPlace)).then <|
  (compare ((a.span.map Span.stop).getD missingPlace) ((b.span.map Span.stop).getD missingPlace)).then <|
  (compare a.severity.rank b.severity.rank).then <|
  (compare a.code b.code).then (compare a.message b.message)

/-- Two issues say the same about the same place. -/
def repeats (a b : Issue) : Bool :=
  a.span.isSome && b.span.isSome && a.statementIndex == b.statementIndex && a.span == b.span &&
    a.severity == b.severity && a.code == b.code && a.message == b.message

/-- The issues from `a` on, where one that repeats the last one kept is dropped. -/
def withoutRepeats (a : Issue) : List Issue → List Issue
  | [] => [a]
  | b :: rest => if a.repeats b then withoutRepeats a rest else a :: withoutRepeats b rest

end Issue

/-- Issues in order, each place told once. -/
def normalize (issues : List Issue) : List Issue :=
  match issues.mergeSort fun a b => (a.order b).isLE with
  | [] => []
  | a :: rest => a.withoutRepeats rest

end ColumnLint
