/-
  Places in a text. A location is a line and a column, both counted from 1, columns in characters;
  an offset counts the bytes of the text's UTF-8 form. Only a line feed ends a line.
-/

namespace ColumnLint.Text

structure Location where
  line : Nat
  column : Nat
deriving DecidableEq, Repr, Inhabited

/-- A stretch of text between two locations, the second not included. -/
structure Region where
  start : Location
  stop : Location
deriving DecidableEq, Repr, Inhabited

/-- A range of bytes, the end not included. -/
structure Span where
  start : Nat
  stop : Nat
deriving DecidableEq, Repr, Inhabited

namespace Location

/-- Where a text starts. -/
def first : Location := ⟨1, 1⟩

/-- The location after a character. -/
def after (l : Location) (c : Char) : Location :=
  if c = '\n' then ⟨l.line + 1, 1⟩ else ⟨l.line, l.column + 1⟩

def before (a b : Location) : Bool :=
  a.line < b.line || (a.line == b.line && a.column < b.column)

end Location

/-- The smallest region that covers both. -/
def Region.union (a b : Region) : Region :=
  ⟨if b.start.before a.start then b.start else a.start,
   if a.stop.before b.stop then b.stop else a.stop⟩

/-- Regions that may be unknown are joined as far as they are known. -/
def joinRegions : Option Region → Option Region → Option Region
  | none, b => b
  | a, none => a
  | some a, some b => some (a.union b)

/-- The number of bytes of a text. -/
def byteSize : List Char → Nat
  | [] => 0
  | c :: cs => c.utf8Size + byteSize cs

/-- The offset of a column within the first line of a text; the column after the last character of
the line counts. -/
def seekColumn : List Char → Nat → Option Nat
  | _, 0 => none
  | _, 1 => some 0
  | [], _ + 2 => none
  | c :: cs, n + 2 => if c = '\n' then none else (seekColumn cs (n + 1)).map (c.utf8Size + ·)

/-- The offset of a column in the line that starts after `n` line feeds. -/
def seekLine : List Char → Nat → Nat → Option Nat
  | cs, 0, column => seekColumn cs column
  | [], _ + 1, _ => none
  | c :: cs, n + 1, column =>
    (seekLine cs (if c = '\n' then n else n + 1) column).map (c.utf8Size + ·)

/-- The offset of a location, if the text has that location. -/
def offset? (text : List Char) (l : Location) : Option Nat :=
  match l.line with
  | 0 => none
  | n + 1 => seekLine text n l.column

/-- The byte range of a region whose ends the text has, in order. -/
def span? (text : List Char) (r : Region) : Option Span :=
  match offset? text r.start, offset? text r.stop with
  | some a, some b => if a ≤ b then some ⟨a, b⟩ else none
  | _, _ => none

/-- The line of an offset: one more than the line feeds among the bytes before it. -/
def lineAt : List Char → Nat → Nat
  | [], _ => 1
  | c :: cs, n =>
    if n = 0 then 1 else (if c = '\n' then 1 else 0) + lineAt cs (n - c.utf8Size)

/-- The location of an offset, walking on from `l`; an offset inside a character belongs to the
next one, and one past the end to the end. -/
def locationFrom : List Char → Nat → Location → Location
  | [], _, l => l
  | c :: cs, n, l => if n = 0 then l else locationFrom cs (n - c.utf8Size) (l.after c)

/-- The location of an offset. -/
def locationAt (text : List Char) (offset : Nat) : Location :=
  locationFrom text offset Location.first

/-- The text from an offset on, if the offset is a character boundary. -/
def dropBytes : List Char → Nat → Option (List Char)
  | cs, 0 => some cs
  | [], _ + 1 => none
  | c :: cs, n + 1 => if c.utf8Size ≤ n + 1 then dropBytes cs (n + 1 - c.utf8Size) else none

/-- The text before an offset, if the offset is a character boundary. -/
def takeBytes : List Char → Nat → Option (List Char)
  | _, 0 => some []
  | [], _ + 1 => none
  | c :: cs, n + 1 =>
    if c.utf8Size ≤ n + 1 then (takeBytes cs (n + 1 - c.utf8Size)).map (c :: ·) else none

/-- The text under a span, if both ends are character boundaries. -/
def slice? (text : List Char) (s : Span) : Option (List Char) :=
  if s.start ≤ s.stop then
    (dropBytes text s.start).bind fun rest => takeBytes rest (s.stop - s.start)
  else none

end ColumnLint.Text
