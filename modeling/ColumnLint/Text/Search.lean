import ColumnLint.Text.Blank
import ColumnLint.Text.Digit
import ColumnLint.Text.Location

/-
  Searching a text: for a substring, for a location written as `Line: l, Column: c`, and for the
  places where a character stands.
-/

namespace ColumnLint.Text

/-- A text occurs in another one. -/
def occursIn (needle : List Char) : List Char → Bool
  | [] => needle.isEmpty
  | c :: cs => needle.isPrefixOf (c :: cs) || occursIn needle cs

/-- What follows a text at the front of another one. -/
def afterFront? : List Char → List Char → Option (List Char)
  | [], cs => some cs
  | _ :: _, [] => none
  | p :: ps, c :: cs => if p = c then afterFront? ps cs else none

/-- The longest run of decimal digits at the front, if there is one, and what follows. -/
def digitRun? (cs : List Char) : Option (List Char × List Char) :=
  let digits := cs.takeWhile isDecimal
  if digits.isEmpty then none else some (digits, cs.dropWhile isDecimal)

/-- The two digit runs of a location written at the front of a text. Blanks may stand around the
comma and the numbers. -/
def writtenLocation? (cs : List Char) : Option (List Char × List Char) := do
  let cs ← afterFront? "Line:".toList cs
  let (line, cs) ← digitRun? (cs.dropWhile isBlank)
  let cs ← afterFront? [','] (cs.dropWhile isBlank)
  let cs ← afterFront? "Column:".toList (cs.dropWhile isBlank)
  let (column, _) ← digitRun? (cs.dropWhile isBlank)
  return (line, column)

/-- The first location written in a text. -/
def findLocation? : List Char → Option (List Char × List Char)
  | [] => none
  | c :: cs =>
    match writtenLocation? (c :: cs) with
    | some r => some r
    | none => findLocation? cs

/-- The location that a message gives. Only the first one written counts, and only if both of its
numbers are ASCII and fit 64 bits. -/
def locationIn? (message : List Char) : Option Location := do
  let (line, column) ← findLocation? message
  return ⟨← numberBelow? (Nat.pow 2 64) line, ← numberBelow? (Nat.pow 2 64) column⟩

/-- A text cut at each place where a character stands. -/
def cutAt (separator : Char) : List Char → List (List Char)
  | [] => [[]]
  | c :: cs =>
    if c = separator then [] :: cutAt separator cs
    else
      match cutAt separator cs with
      | [] => [[c]]
      | piece :: rest => (c :: piece) :: rest

/-- The pieces of a string between a character. -/
def pieces (separator : Char) (s : String) : List String :=
  (cutAt separator s.toList).map String.ofList

end ColumnLint.Text
