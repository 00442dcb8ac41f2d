import ColumnLint.Request

/-
  Requests, configurations, issues and results as JSON. What is unset or empty is left out on
  writing; fields that are not known are disregarded on reading. A record may also be read from an
  array of its values, and a word from an object that has it as its only field.
-/

namespace ColumnLint

open Text Sql

/-- The fields of a record of these names: those of an object, or the items of an array by their
places. An array may be too short but not too long. -/
def Json.record? (names : List String) : Json → Option Json
  | .object fields => some (.object fields)
  | .array items =>
    if items.length ≤ names.length then some (.object (names.zip items)) else none
  | _ => none

/-- The word that a value stands for: a string, or the only field of an object, which is null. -/
def Json.variant? : Json → Option String
  | .string s => some s
  | .object [(name, .null)] => some name
  | _ => none

/-- A field that may be missing or null, read by `read` otherwise. -/
def optionalField {α : Type} (read : Json → Option α) (j : Json) (name : String) :
    Option (Option α) :=
  match j.get? name with
  | none | some .null => some none
  | some v => (read v).map some

/-- A field that may be missing, read by `read` otherwise. -/
def defaultField {α : Type} (default : α) (read : Json → Option α) (j : Json) (name : String) :
    Option α :=
  match j.get? name with
  | none => some default
  | some v => read v

/-- A field that must be there. -/
def requiredField {α : Type} (read : Json → Option α) (j : Json) (name : String) : Option α :=
  (j.get? name).bind read

/-- A field to write, if its value is set. -/
def setFields (fields : List (String × Option Json)) : Json :=
  .object (fields.filterMap fun f => f.2.map fun v => (f.1, v))

def Sql.Dialect.ofJson? (j : Json) : Option Dialect := j.variant?.bind Dialect.ofWord?

def Severity.ofJson? (j : Json) : Option Severity := j.variant?.bind Severity.ofWord?

namespace OptionMap

def toJson (m : OptionMap) : Json := .object m.entries

def ofJson? (j : Json) : Option OptionMap := j.asObject?.map ofList

end OptionMap

namespace Config

def toJson (c : Config) : Json :=
  setFields [
    ("enabled", some (.bool c.enabled)),
    ("disabledRules", if c.disabledRules.isEmpty then none else some (.ofStrings c.disabledRules)),
    ("ruleConfigs", if c.ruleConfigs.isEmpty then none else some c.ruleConfigs.toJson)]

def fieldNames : List String := ["enabled", "disabledRules", "ruleConfigs"]

def ofJson? (j : Json) : Option Config := do
  let j ← j.record? fieldNames
  return {
    enabled := ← defaultField true Json.asBool? j "enabled"
    disabledRules := ← defaultField [] Json.asStrings? j "disabledRules"
    ruleConfigs := ← defaultField .empty OptionMap.ofJson? j "ruleConfigs" }

end Config

namespace Request

def toJson (r : Request) : Json :=
  setFields [
    ("sql", some (.string r.sql)),
    ("dialect", some (.string r.dialect.word)),
    ("sourceName", r.sourceName.map .string),
    ("lint", r.config.map Config.toJson)]

def fieldNames : List String := ["sql", "dialect", "sourceName", "lint"]

def ofJson? (j : Json) : Option Request := do
  let j ← j.record? fieldNames
  return {
    sql := ← requiredField Json.asString? j "sql"
    dialect := ← defaultField .generic Dialect.ofJson? j "dialect"
    sourceName := ← optionalField Json.asString? j "sourceName"
    config := ← optionalField Config.ofJson? j "lint" }

end Request

def Text.Span.toJson (s : Span) : Json :=
  .object [("start", .ofNat s.start), ("end", .ofNat s.stop)]

def Text.Span.ofJson? (j : Json) : Option Span := do
  let j ← j.record? ["start", "end"]
  return {
    start := ← requiredField Json.asNat64? j "start"
    stop := ← requiredField Json.asNat64? j "end" }

namespace Issue

def toJson (i : Issue) : Json :=
  setFields [
    ("severity", some (.string i.severity.word)),
    ("code", some (.string i.code)),
    ("message", some (.string i.message)),
    ("span", i.span.map Span.toJson),
    ("statementIndex", i.statementIndex.map .ofNat),
    ("sourceName", i.sourceName.map .string)]

def fieldNames : List String :=
  ["severity", "code", "message", "span", "statementIndex", "sourceName"]

def ofJson? (j : Json) : Option Issue := do
  let j ← j.record? fieldNames
  return {
    severity := ← requiredField Severity.ofJson? j "severity"
    code := ← requiredField Json.asString? j "code"
    message := ← requiredField Json.asString? j "message"
    span := ← optionalField Span.ofJson? j "span"
    statementIndex := ← optionalField Json.asNat64? j "statementIndex"
    sourceName := ← optionalField Json.asString? j "sourceName" }

end Issue

namespace IssueCount

def toJson (c : IssueCount) : Json :=
  .object [("errors", .ofNat c.errors), ("warnings", .ofNat c.warnings), ("infos", .ofNat c.infos)]

def ofJson? (j : Json) : Option IssueCount := do
  let j ← j.record? ["errors", "warnings", "infos"]
  return {
    errors := ← requiredField Json.asNat64? j "errors"
    warnings := ← requiredField Json.asNat64? j "warnings"
    infos := ← requiredField Json.asNat64? j "infos" }

end IssueCount

namespace Summary

def toJson (s : Summary) : Json :=
  .object [
    ("statementCount", .ofNat s.statementCount),
    ("issueCount", s.issueCount.toJson),
    ("hasErrors", .bool s.hasErrors)]

def ofJson? (j : Json) : Option Summary := do
  let j ← j.record? ["statementCount", "issueCount", "hasErrors"]
  return {
    statementCount := ← requiredField Json.asNat64? j "statementCount"
    issueCount := ← requiredField IssueCount.ofJson? j "issueCount"
    hasErrors := ← requiredField Json.asBool? j "hasErrors" }

end Summary

namespace LintResult

def toJson (r : LintResult) : Json :=
  .object [("issues", .array (r.issues.map Issue.toJson)), ("summary", r.summary.toJson)]

def fieldNames : List String := ["issues", "summary"]

def ofJson? (j : Json) : Option LintResult := do
  let j ← j.record? fieldNames
  return {
    issues := ← requiredField (fun v => v.asArray?.bind fun l => l.mapM Issue.ofJson?) j "issues"
    summary := ← requiredField Summary.ofJson? j "summary" }

end LintResult

end ColumnLint
