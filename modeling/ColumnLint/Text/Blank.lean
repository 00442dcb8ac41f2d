import ColumnLint.Text.Range

/-
  Blanks: the 25 characters with the White_Space property of Unicode, and trimming by them.
-/

namespace ColumnLint.Text

/-- The ranges of White_Space characters. -/
def blankRanges : List (Nat × Nat) :=
  [(0x9, 0xd), (0x20, 0x20), (0x85, 0x85), (0xa0, 0xa0), (0x1680, 0x1680), (0x2000, 0x200a),
   (0x2028, 0x2029), (0x202f, 0x202f), (0x205f, 0x205f), (0x3000, 0x3000)]

/-- A White_Space character. -/
def isBlank (c : Char) : Bool := inRanges blankRanges c

/-- Drops the characters that satisfy `p` from both ends. -/
def stripBy (p : Char → Bool) (cs : List Char) : List Char :=
  ((cs.dropWhile p).reverse.dropWhile p).reverse

/-- Drops blanks from both ends. -/
def trim (cs : List Char) : List Char := stripBy isBlank cs

end ColumnLint.Text
