import ColumnLint.Config
import ColumnLint.Scope.Reference

/-
  Policies: how the column references of a select from one table should be written. A
  configuration names the policy by an option of the rule.
-/

namespace ColumnLint

open Text

/-- References all of one kind, whichever it is, or all of a given kind. -/
inductive Policy where
  | consistent
  | qualified
  | unqualified
deriving DecidableEq, Repr

/-- What may be wrong with the option that names the policy. -/
inductive ConfigError where
  /-- The value is no word of a policy. -/
  | invalidOption (value : String)
  /-- The value is no string but of this type. -/
  | invalidType (found : String)
deriving DecidableEq, Repr

namespace Policy

def all : List Policy := [consistent, qualified, unqualified]

def word : Policy → String
  | consistent => "consistent"
  | qualified => "qualified"
  | unqualified => "unqualified"

/-- The kind that every reference must be of. -/
def required : Policy → Option Qualification
  | consistent => none
  | qualified => some .qualified
  | unqualified => some .unqualified

/-- The option that names the policy. -/
def optionName : String := "single_table_references"

/-- The policy that a word names, blanks around it and the case of ASCII letters disregarded. -/
def ofWord (raw : String) : Except ConfigError Policy :=
  match all.find? fun p => p.word.toList == lower (trim raw.toList) with
  | some p => .ok p
  | none => .error (.invalidOption raw)

/-- The policy of a configuration. -/
def ofConfig (c : Config) : Except ConfigError Policy :=
  match c.option? Rule.consistentReferences.code optionName with
  | none => .ok .consistent
  | some (.string s) => ofWord s
  | some j => .error (.invalidType j.typeName)

end Policy

/-- The text of a configuration error. -/
def ConfigError.message : ConfigError → String
  | invalidOption value =>
    "invalid value '" ++ value ++ "' for option '" ++ Policy.optionName ++ "' of rule " ++
      Rule.consistentReferences.code ++ "; expected one of: " ++
      ", ".intercalate (Policy.all.map Policy.word)
  | invalidType found =>
    "option '" ++ Policy.optionName ++ "' of rule " ++ Rule.consistentReferences.code ++
      " must be a string, found " ++ found

end ColumnLint
