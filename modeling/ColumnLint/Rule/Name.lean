import ColumnLint.Text.Blank
import ColumnLint.Text.Case
import ColumnLint.Text.Digit

/-
  Rules and the names they go by. A name is read without regard to the case of ASCII letters and
  to blanks around it; a name of letters and a number may also have underscores anywhere, a
  leading `LINT`, and any number of leading zeros.
-/

namespace ColumnLint

open Text

inductive Rule where
  | consistentReferences
deriving DecidableEq, Repr

/-- The names of a rule, the first the one that issues carry. -/
structure RuleNames where
  code : String
  dotted : String
  short : String
  legacy : String
deriving DecidableEq, Repr

namespace RuleNames

/-- The names in the order in which options are looked up by them. -/
def list (n : RuleNames) : List String := [n.code, n.dotted, n.short, n.legacy]

end RuleNames

namespace Rule

def all : List Rule := [consistentReferences]

def names : Rule → RuleNames
  | consistentReferences => ⟨"LINT_RF_003", "references.consistent", "RF03", "L028"⟩

def code (r : Rule) : String := r.names.code

def title : Rule → String
  | consistentReferences => "References consistent"

def description : Rule → String
  | consistentReferences =>
    "Column references in a single-table select should be qualified consistently."

/-- A decimal number with at least three digits. -/
def padded (n : Nat) : String :=
  let digits := toString n
  String.ofList (List.replicate (3 - digits.length) '0') ++ digits

/-- The code that a family of two letters and a number stand for. -/
def codeOfNumbered? (name : List Char) : Option String := do
  let compact := (upper name).filter (· ≠ '_')
  let compact := if "LINT".toList.isPrefixOf compact then compact.drop 4 else compact
  let family := compact.takeWhile fun c => !c.isDigit
  let number := compact.dropWhile fun c => !c.isDigit
  if number.isEmpty || family.length ≠ 2 || !family.all Char.isAlpha then none
  else return "LINT_" ++ String.ofList family ++ "_" ++ padded (← numberBelow? (Nat.pow 2 32) number)

/-- The rule has this name, read without regard to the case of ASCII letters. -/
def isNamed (name : List Char) (r : Rule) : Bool :=
  r.names.list.any fun n => sameLetters n.toList name

/-- The rule that a name refers to. -/
def ofName? (raw : String) : Option Rule :=
  let name := trim raw.toList
  match all.find? (isNamed name) with
  | some r => some r
  | none => (codeOfNumbered? name).bind fun code => all.find? fun r => r.code == code

end Rule

end ColumnLint
