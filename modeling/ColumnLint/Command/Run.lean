import ColumnLint.Command.Options
import ColumnLint.Command.Tree
import ColumnLint.Json.Reader
import ColumnLint.Linter
import ColumnLint.Report

/-
  A run of the command: the configuration is built from the options, all texts are read, each is
  linted, and the report is written to standard output or to a file. A run that fails reports
  nothing but the failure.
-/

namespace ColumnLint.Command

open Text Sql

/-- Why a run fails. -/
inductive RunError where
  /-- The options of rules are no JSON. -/
  | badRuleConfigs (e : Json.ReadError)
  /-- They are no JSON object. -/
  | ruleConfigsNotObject
  /-- Those under a name are no JSON object. -/
  | entryNotObject (name : String)
  | badConfig (e : ConfigError)
  | unreadableInput (e : FileError)
  | unreadableFile (path : String) (e : FileError)
  /-- A directory that was come to below a path cannot be listed. -/
  | unwalkable (path directory : String) (e : FileError)
  | unwritableFile (path : String) (e : FileError)
deriving DecidableEq, Repr

def RunError.message : RunError → String
  | badRuleConfigs e => "Failed to parse --rule-configs JSON: " ++ e.message
  | ruleConfigsNotObject => "--rule-configs must be a JSON object"
  | entryNotObject name => "--rule-configs entry for '" ++ name ++ "' must be a JSON object"
  | badConfig e => "Invalid lint configuration: " ++ e.message
  | unreadableInput e => "Failed to read from stdin: " ++ e.message
  | unreadableFile path e => "Failed to read file: " ++ path ++ ": " ++ e.message
  | unwalkable path directory e =>
    "Failed to walk directory: " ++ path ++ ": IO error for operation on " ++ directory ++ ": "
      ++ e.message ++ ": " ++ e.message
  | unwritableFile path e => "Failed to write to " ++ path ++ ": " ++ e.message

/-! The configuration. -/

/-- The first field whose value is no object. -/
def firstNonObject? (fields : List (String × Json)) : Option String :=
  (fields.find? fun f => f.2.asObject?.isNone).map Prod.fst

/-- The options of rules that a text gives. -/
def readRuleConfigs : Option String → Except RunError OptionMap
  | none => .ok .empty
  | some text =>
    match Json.read text.toList with
    | .error e => .error (.badRuleConfigs e)
    | .ok (.object fields) =>
      match firstNonObject? fields with
      | some name => .error (.entryNotObject name)
      | none => .ok (OptionMap.ofList fields)
    | .ok _ => .error .ruleConfigsNotObject

/-- The options of rules with a policy set under the rule's code. What stands there and is no object
is left as it is. -/
def withPolicy (m : OptionMap) (p : Policy) : OptionMap :=
  let code := Rule.consistentReferences.code
  match ((m.get? code).getD (.object [])).asObject? with
  | some fields => m.insert code (.object (Json.setField Policy.optionName (.string p.word) fields))
  | none => m

/-- The configuration of a run. A policy given by itself wins over one among the options. -/
def Options.config (o : Options) : Except RunError Config :=
  match readRuleConfigs o.ruleConfigs with
  | .error e => .error e
  | .ok m =>
    .ok {
      enabled := true
      disabledRules := o.excludedRules
      ruleConfigs := match o.policy with
        | some p => withPolicy m p
        | none => m }

/-- The linter of a run. -/
def Options.linter (o : Options) : Except RunError Linter :=
  match o.config with
  | .error e => .error e
  | .ok c =>
    match Linter.ofConfig c with
    | .ok l => .ok l
    | .error e => .error (.badConfig e)

/-! The texts. -/

/-- A text to lint, and its name in the report. -/
structure Source where
  name : String
  text : List Char
deriving DecidableEq, Repr

/-- The text of a file. -/
def readFile (path : String) (content : ByteArray) : Except RunError Source :=
  match decodeText content with
  | .ok s => .ok ⟨path, s.toList⟩
  | .error e => .error (.unreadableFile path e)

/-- The texts of the files of SQL below a directory. The whole directory is listed before the first
file is read. -/
def readDirectory (path : String) (directory : Tree) : Except RunError (List Source) :=
  match directory.sqlFiles with
  | .error (way, e) => .error (.unwalkable path (Tree.joined path way) e)
  | .ok found => found.mapM fun f => readFile (Tree.joined path f.1) f.2

/-- The texts that a path leads to: a file, or the files of SQL below a directory. -/
def readPath (find : String → Except FileError Tree) (path : String) :
    Except RunError (List Source) :=
  match find path with
  | .error e => .error (.unreadableFile path e)
  | .ok (.file content) => (readFile path content).map fun s => [s]
  | .ok directory => readDirectory path directory

/-- The texts of a run: those that its paths lead to, or standard input if there are none. -/
def readSources (find : String → Except FileError Tree) (input : ByteArray)
    (paths : List String) : Except RunError (List Source) :=
  if paths.isEmpty then
    match decodeText input with
    | .ok s => .ok [⟨"<stdin>", s.toList⟩]
    | .error e => .error (.unreadableInput e)
  else (paths.mapM (readPath find)).map List.flatten

/-! The report. -/

/-- The issues of a text. -/
def Source.issues (l : Linter) (d : Dialect) (s : Source) : List Issue := (l.lint d s.text).issues

/-- The report on a text. -/
def Source.report (l : Linter) (d : Dialect) (s : Source) : FileReport :=
  ⟨s.name, (s.issues l d).map (Row.ofIssue s.text)⟩

/-- The warning that a text cannot be parsed. -/
def Source.warning? (l : Linter) (d : Dialect) (s : Source) : Option String :=
  ((s.issues l d).find? fun i => i.code == parseErrorCode).map fun i =>
    "refscope: warning: " ++ s.name ++ ": " ++ i.message ++ "\n"

/-- What a run finds. -/
structure Findings where
  warnings : List String
  files : List FileReport
deriving DecidableEq, Repr

namespace Findings

/-- Some text has an issue. -/
def hasViolations (f : Findings) : Bool := f.files.any fun r => !r.passes

/-- The report in the format of the options. Only a table has colours. -/
def report (o : Options) (colored : Bool) (nanos : Nat) (f : Findings) : List Char :=
  match o.format with
  | .json => jsonReport o.compact f.files
  | .table => table colored nanos f.files

/-- The exit code: 1 if some text has an issue. -/
def exit (f : Findings) : Nat := if f.hasViolations then 1 else 0

end Findings

/-- What a run with these options finds, given what paths lead to and the standard input. The
configuration is checked before anything is read. -/
def examine (o : Options) (find : String → Except FileError Tree) (input : ByteArray) :
    Except RunError Findings := do
  let linter ← o.linter
  let sources ← readSources find input o.paths
  return {
    warnings := if o.quiet then [] else sources.filterMap (Source.warning? linter o.dialect)
    files := sources.map (Source.report linter o.dialect) }

/-- A text that ends its last line. -/
def endingLine (text : List Char) : List Char :=
  if text.getLast? = some '\n' then text else text ++ ['\n']

/-- What a run tells: its exit code and the texts on the two streams, without what it logs. -/
structure Answer where
  exit : Nat
  stdout : String
  stderr : String
deriving DecidableEq, Repr

/-- The exit code of a run that fails. -/
def failureExit : Nat := 66

/-- The line that tells why a run fails. -/
def RunError.line (e : RunError) : String := "refscope: error: " ++ e.message ++ "\n"

/-- The answer of a run that fails. -/
def Answer.failure (warnings : List String) (e : RunError) : Answer :=
  ⟨failureExit, "", String.join warnings ++ e.line⟩

/-- The answer of a run that has tried to write its report to a file. -/
def Findings.afterWriting (path : String) (f : Findings) : Except FileError Unit → Answer
  | .ok _ => ⟨f.exit, "", String.join f.warnings⟩
  | .error e => .failure f.warnings (.unwritableFile path e)

/-- Ends a run, whatever it is done on: `write` writes a text to a file. -/
def finish {m : Type → Type} [Monad m] (write : String → String → m (Except FileError Unit))
    (o : Options) (colored : Bool) (nanos : Nat) : Except RunError Findings → m Answer
  | .error e => return .failure [] e
  | .ok findings => do
    let text := findings.report o colored nanos
    match o.output with
    | none =>
      return ⟨findings.exit, String.ofList (endingLine text), String.join findings.warnings⟩
    | some path => return findings.afterWriting path (← write path (String.ofList text))

/-- What a run leaves behind. -/
structure Outcome extends Answer where
  /-- The files after the run. -/
  files : Files

/-- Writes a text to a file, if that can be done. -/
def Files.save (path text : String) : StateM Files (Except FileError Unit) := fun files =>
  match files.write path text.toUTF8 with
  | .ok files => (.ok (), files)
  | .error e => (.error e, files)

/-- A run on files, away from a terminal. -/
def run (o : Options) (files : Files) (input : ByteArray) (nanos : Nat) : Outcome :=
  let (answer, files) :=
    (finish Files.save o false nanos (examine o files.find input)).run files
  ⟨answer, files⟩

/-- The line that tells the version. -/
def versionLine : String := "refscope 0.1.0\n"

/-- The answer to arguments that give no options. The wording of help and of usage errors is left
out. -/
def Refusal.answer : Refusal → Answer
  | .help => ⟨0, "", ""⟩
  | .version => ⟨0, versionLine, ""⟩
  | _ => ⟨2, "", ""⟩

/-- The outcome of the command with these arguments. -/
def runArguments (arguments : List String) (files : Files) (input : ByteArray) (nanos : Nat) :
    Outcome :=
  match Options.ofArguments arguments with
  | .ok o => run o files input nanos
  | .error r => ⟨r.answer, files⟩

end ColumnLint.Command
