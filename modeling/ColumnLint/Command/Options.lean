import ColumnLint.Policy
import ColumnLint.Sql.Dialect
import ColumnLint.Text.Search

/-
  The options of a run, read from command-line arguments. A switch is given by its long name, as
  `--name value` or `--name=value`, or by its letter, as `-l value`, `-lvalue` or `-l=value`; letters
  without a value can be grouped. All else is a path, and so is all behind `--`.

  A value that stands in an argument of its own is checked when the next argument that is known has
  been read, so a fault in such an argument is reported before a fault in the value.
-/

namespace ColumnLint.Command

open Text Sql

inductive Format where
  | table
  | json
deriving DecidableEq, Repr

namespace Format

def word : Format → String
  | table => "table"
  | json => "json"

def ofWord? (s : String) : Option Format := [table, json].find? fun f => f.word == s

end Format

/-- What a run is asked to do. -/
structure Options where
  /-- The files and directories to lint; without any, standard input is. -/
  paths : List String := []
  dialect : Dialect := .generic
  format : Format := .table
  policy : Option Policy := none
  /-- Options of rules, as JSON text. -/
  ruleConfigs : Option String := none
  excludedRules : List String := []
  /-- The file that the report is written to instead of standard output. -/
  output : Option String := none
  compact : Bool := false
  quiet : Bool := false
  verbose : Bool := false
deriving DecidableEq, Repr

/-- Why arguments give no options. -/
inductive Refusal where
  /-- A value is missing, or is none that the switch takes. -/
  | invalidValue
  | unknownArgument
  /-- A switch is given twice, or two switches exclude each other. -/
  | argumentConflict
  /-- A value is given to a switch that takes none. -/
  | tooManyValues
  /-- The arguments ask for help. -/
  | help
  /-- The arguments ask for the version. -/
  | version
deriving DecidableEq, Repr

/-- A switch that takes a value. -/
inductive Setting where
  | dialect
  | format
  | policy
  | ruleConfigs
  | excludedRules
  | output
deriving DecidableEq, Repr

/-- A switch that takes no value. -/
inductive Flag where
  | compact
  | quiet
  | verbose
  | help
  | version
deriving DecidableEq, Repr

inductive Switch where
  | setting (s : Setting)
  | flag (f : Flag)
deriving DecidableEq, Repr

namespace Switch

def longNames : List (String × Switch) :=
  [("dialect", .setting .dialect), ("format", .setting .format),
   ("single-table-references", .setting .policy), ("rule-configs", .setting .ruleConfigs),
   ("exclude-rules", .setting .excludedRules), ("output", .setting .output),
   ("compact", .flag .compact), ("quiet", .flag .quiet), ("verbose", .flag .verbose),
   ("help", .flag .help), ("version", .flag .version)]

def letters : List (Char × Switch) :=
  [('d', .setting .dialect), ('f', .setting .format), ('o', .setting .output),
   ('c', .flag .compact), ('q', .flag .quiet), ('v', .flag .verbose), ('h', .flag .help),
   ('V', .flag .version)]

end Switch

/-- Arguments that are read but not yet checked. -/
inductive Pending where
  | paths (list : List String)
  /-- A setting, and its value once that is read. -/
  | setting (s : Setting) (value : Option String)
deriving DecidableEq, Repr

/-- The arguments read so far. -/
structure Progress where
  options : Options := {}
  /-- The switches given so far. -/
  seen : List Switch := []
  pending : Option Pending := none
  /-- All that follows is a path. -/
  onlyPaths : Bool := false

namespace Progress

/-- The options with a value set, if the setting takes it. -/
def withValue (o : Options) (value : String) : Setting → Option Options
  | .dialect => (Dialect.ofWord? value).map fun d => { o with dialect := d }
  | .format => (Format.ofWord? value).map fun f => { o with format := f }
  | .policy => (Policy.all.find? fun p => p.word == value).map fun p => { o with policy := some p }
  | .ruleConfigs => some { o with ruleConfigs := some value }
  | .excludedRules => some { o with excludedRules := o.excludedRules ++ pieces ',' value }
  | .output => if value.isEmpty then none else some { o with output := some value }

/-- Gives a setting its value. Only the setting for excluded rules may be given again. -/
def assign (p : Progress) (s : Setting) (value : String) : Except Refusal Progress :=
  if s ≠ .excludedRules && p.seen.contains (.setting s) then .error .argumentConflict
  else
    match withValue p.options value s with
    | some o => .ok { p with options := o, seen := .setting s :: p.seen }
    | none => .error .invalidValue

/-- Checks what is pending. -/
def settle (p : Progress) : Except Refusal Progress :=
  match p.pending with
  | none => .ok p
  | some (.paths list) =>
    if list.any String.isEmpty then .error .invalidValue
    else .ok { p with options := { p.options with paths := p.options.paths ++ list }, pending := none }
  | some (.setting _ none) => .error .invalidValue
  | some (.setting s (some value)) => assign { p with pending := none } s value

/-- Turns a flag on. -/
def withFlag (o : Options) : Flag → Except Refusal Options
  | .compact => .ok { o with compact := true }
  | .quiet => .ok { o with quiet := true }
  | .verbose => .ok { o with verbose := true }
  | .help => .error .help
  | .version => .error .version

/-- Reads a flag. -/
def flag (p : Progress) (f : Flag) : Except Refusal Progress := do
  let p ← p.settle
  if p.seen.contains (.flag f) then throw .argumentConflict
  return { p with options := ← withFlag p.options f, seen := .flag f :: p.seen }

/-- Reads a setting whose value is in the same argument. -/
def attached (p : Progress) (s : Setting) (value : String) : Except Refusal Progress := do
  (← p.settle).assign s value

/-- Reads a setting whose value is the next argument. -/
def awaiting (p : Progress) (s : Setting) : Except Refusal Progress := do
  return { ← p.settle with pending := some (.setting s none) }

/-- Reads a path. -/
def path (p : Progress) (value : String) : Except Refusal Progress :=
  match p.pending with
  | some (.paths list) => .ok { p with pending := some (.paths (list ++ [value])) }
  | _ => do return { ← p.settle with pending := some (.paths [value]) }

/-- Reads letters behind a hyphen. -/
def letters (p : Progress) : List Char → Except Refusal Progress
  | [] => .ok p
  | c :: rest =>
    match Switch.letters.lookup c with
    | none => .error .unknownArgument
    | some (.flag f) =>
      match p.flag f with
      | .ok p => p.letters rest
      | .error e => .error e
    | some (.setting s) =>
      match rest with
      | [] => p.awaiting s
      | '=' :: value => p.attached s (String.ofList value)
      | value => p.attached s (String.ofList value)

/-- Reads a name behind two hyphens, with the value behind its equals sign. -/
def long (p : Progress) (name : String) (value : Option String) : Except Refusal Progress :=
  match Switch.longNames.lookup name, value with
  | none, _ => .error .unknownArgument
  | some (.flag f), none => p.flag f
  | some (.flag _), some _ => .error .tooManyValues
  | some (.setting s), none => p.awaiting s
  | some (.setting s), some value => p.attached s value

/-- Reads an argument that is no switch: the value that is awaited, or a path. -/
def plain (p : Progress) (value : String) : Except Refusal Progress :=
  match p.pending with
  | some (.setting s none) => .ok { p with pending := some (.setting s (some value)) }
  | _ => p.path value

/-- Reads an argument. -/
def next (p : Progress) (argument : String) : Except Refusal Progress :=
  if p.onlyPaths then p.path argument
  else
    match argument.toList with
    | ['-', '-'] => .ok { p with onlyPaths := true }
    | '-' :: '-' :: rest =>
      let name := String.ofList (rest.takeWhile (· ≠ '='))
      match rest.dropWhile (· ≠ '=') with
      | [] => p.long name none
      | _ :: value => p.long name (some (String.ofList value))
    | ['-'] => p.plain argument
    | '-' :: rest => p.letters rest
    | _ => p.plain argument

end Progress

/-- The options that arguments give, or why they give none. -/
def Options.ofArguments (arguments : List String) : Except Refusal Options := do
  let p ← arguments.foldlM Progress.next {}
  let p ← p.settle
  if p.options.verbose && p.options.quiet then throw .argumentConflict
  return p.options

end ColumnLint.Command
