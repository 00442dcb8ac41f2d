import ColumnLint.Issue
import ColumnLint.Policy
import ColumnLint.Scope.Forest
import ColumnLint.Text.Quoted

/-
  The rule that the column references of a select from one table are of one kind. Stars without a
  prefix do not count as references.
-/

namespace ColumnLint

open Text Sql

namespace Policy

/-- A reference offends after references of the kinds `seen`: it is not of the required kind, or,
where no kind is required, it is of a kind that none before it has. -/
def offends (p : Policy) (seen : List Qualification) (kind : Qualification) : Bool :=
  match p.required with
  | some k => kind != k
  | none => !seen.isEmpty && !seen.contains kind

/-- The references that offend, after references of the kinds `seen`. -/
def offendersAfter (p : Policy) (seen : List Qualification) : List Reference → List Reference
  | [] => []
  | r :: rest =>
    if r.isBareStar then p.offendersAfter seen rest
    else
      let offenders := p.offendersAfter (r.kind :: seen) rest
      if p.offends seen r.kind then r :: offenders else offenders

/-- What is wrong with a reference that offends. -/
def complaint (p : Policy) : String :=
  match p.required with
  | some _ => " found in single table select."
  | none => " found in single table select which is inconsistent with previous references."

/-- What is said about a reference that offends. -/
def message (p : Policy) (r : Reference) : String :=
  r.kind.capitalized ++ " reference " ++ String.ofList (quoted r.text.toList) ++ p.complaint

end Policy

/-- A reference that offends, and what is said about it. -/
structure Violation where
  reference : Reference
  message : String
deriving DecidableEq, Repr

/-- The violations of a policy in a scope. A scope of several tables has none. -/
def violations? (p : Policy) (s : Scope) : Option (List Violation) :=
  if s.aliases.length > 1 then none
  else
    match p.offendersAfter [] s.references with
    | [] => none
    | offenders => some (offenders.map fun r => ⟨r, p.message r⟩)

/-- The issue of a violation in a statement. -/
def Violation.issue (index : Nat) (v : Violation) : Issue where
  severity := .info
  code := Rule.consistentReferences.code
  message := v.message
  span := v.reference.span
  statementIndex := some index

/-- The issues of a statement. Only selects that read from a table have some. -/
def Policy.issues (p : Policy) (text : List Char) (index : Nat) (s : Statement) : List Issue :=
  (selectScopes text s).flatMap fun placed =>
    if placed.scope.aliases.isEmpty then []
    else ((violations? p placed.scope).getD []).map (Violation.issue index)

end ColumnLint
