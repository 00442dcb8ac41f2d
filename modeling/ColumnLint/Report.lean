import ColumnLint.Issue
import ColumnLint.Json.Printer
import ColumnLint.Rounding
import ColumnLint.Rule.Name

/-
  Reports on linted texts: a table for reading, with or without colours, and JSON.
-/

namespace ColumnLint

open Text

/-- An issue at its line and column. -/
structure Row where
  line : Nat
  column : Nat
  code : String
  message : String
  severity : Severity
deriving DecidableEq, Repr

/-- The row of an issue of a text. An issue without a place stands at the start. -/
def Row.ofIssue (text : List Char) (i : Issue) : Row :=
  let place := match i.span with
    | some s => locationAt text s.start
    | none => Location.first
  ⟨place.line, place.column, i.code, i.message, i.severity⟩

/-- The issues of a named text. -/
structure FileReport where
  name : String
  rows : List Row
deriving DecidableEq, Repr

/-- A text passes if it has no issue. -/
def FileReport.passes (f : FileReport) : Bool := f.rows.isEmpty

/-! Colours. -/

inductive Colour where
  | red
  | green
  | yellow
  | blue
deriving DecidableEq, Repr

/-- The number that switches the colour on. -/
def Colour.digits : Colour → List Char
  | red => "31".toList
  | green => "32".toList
  | yellow => "33".toList
  | blue => "34".toList

/-- The sequence that switches to a colour, given its number. -/
def colourSwitch (digits : List Char) : List Char := '\x1b' :: '[' :: digits ++ ['m']

/-- A text in a colour, if colours are on. -/
def paint (colored : Bool) (c : Colour) (text : List Char) : List Char :=
  if colored then colourSwitch c.digits ++ text ++ colourSwitch "39".toList else text

def Severity.colour : Severity → Colour
  | error => .red
  | warning => .yellow
  | info => .blue

/-! The table. -/

/-- A number in four places or more. -/
def inPlaces (n : Nat) : List Char :=
  let digits := (toString n).toList
  List.replicate (4 - digits.length) ' ' ++ digits

/-- The line of a row. -/
def Row.print (colored : Bool) (r : Row) : List Char :=
  "L:".toList ++ inPlaces r.line ++ " | P:".toList ++ inPlaces r.column ++ " | ".toList ++
    paint colored r.severity.colour r.code.toList ++ " | ".toList ++ r.message.toList ++ ['\n']

/-- Rows are listed by line and column. -/
def Row.notAfter (a b : Row) : Bool :=
  a.line < b.line || (a.line == b.line && a.column ≤ b.column)

/-- The section of a text. -/
def FileReport.print (colored : Bool) (f : FileReport) : List Char :=
  let status := if f.passes then paint colored .green "PASS".toList
    else paint colored .red "FAIL".toList
  "== [".toList ++ f.name.toList ++ "] ".toList ++ status ++ ['\n'] ++
    (f.rows.mergeSort Row.notAfter).flatMap (Row.print colored)

/-- A number of files. -/
def fileCount (n : Nat) : List Char :=
  (toString n).toList ++ (if n = 1 then " file" else " files").toList

/-- Whole seconds and a fraction in nanoseconds as a double, in units of `2 ^ -100` seconds. -/
def secondsScaled (nanos : Nat) : Nat :=
  let fraction := nearestDouble (nanos % Nat.pow 10 9 * Nat.pow 2 100) (Nat.pow 10 9)
  nearestDouble (nanos / Nat.pow 10 9 * Nat.pow 2 100 + fraction) 1

/-- A number of hundredths with two places behind the point. -/
def hundredths (n : Nat) : List Char :=
  let digits := (toString (n % 100)).toList
  (toString (n / 100)).toList ++ '.' :: List.replicate (2 - digits.length) '0' ++ digits

/-- A time: in seconds with two places, in milliseconds below a second, in microseconds below a
millisecond. -/
def elapsed (nanos : Nat) : List Char :=
  if Nat.pow 10 9 ≤ nanos then
    hundredths (roundDiv (secondsScaled nanos * 100) (Nat.pow 2 100)) ++ ['s']
  else if Nat.pow 10 6 ≤ nanos then (toString (nanos / Nat.pow 10 6)).toList ++ "ms".toList
  else (toString (nanos / Nat.pow 10 3)).toList ++ "us".toList

/-- How many of the texts fail. -/
def failedCount (files : List FileReport) : Nat := files.countP fun f => !f.passes

/-- How many rows the texts have. -/
def violationCount (files : List FileReport) : Nat := (files.flatMap FileReport.rows).length

/-- The table of a report that took so many nanoseconds. -/
def table (colored : Bool) (nanos : Nat) (files : List FileReport) : List Char :=
  let failed := failedCount files
  files.flatMap (FileReport.print colored) ++
    "All Finished in ".toList ++ elapsed nanos ++ "!\n  ".toList ++
    paint colored .green (fileCount (files.length - failed)) ++ " passed. ".toList ++
    paint colored .red (fileCount failed) ++ " failed. ".toList ++
    (toString (violationCount files)).toList ++ " violations found.\n".toList

/-! JSON. -/

/-- The dotted name of the rule that a code refers to. -/
def Rule.dottedOf? (code : String) : Option String := (ofName? code).map fun r => r.names.dotted

def Row.toJson (r : Row) : Json :=
  .object [
    ("line", .ofNat r.line),
    ("column", .ofNat r.column),
    ("code", .string r.code),
    ("name", match Rule.dottedOf? r.code with
      | some name => .string name
      | none => .null),
    ("message", .string r.message),
    ("severity", .string r.severity.word)]

def FileReport.toJson (f : FileReport) : Json :=
  .object [("file", .string f.name), ("violations", .array (f.rows.map Row.toJson))]

/-- The report as JSON, on one line or laid out over lines. -/
def jsonReport (compact : Bool) (files : List FileReport) : List Char :=
  let j := Json.array (files.map FileReport.toJson)
  if compact then j.compact else j.pretty 0

end ColumnLint
