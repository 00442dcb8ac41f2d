/-
  Character classes given by tables of code point ranges.
-/

namespace ColumnLint.Text

/-- The code point of `c` lies in one of the closed ranges. -/
def inRanges (table : List (Nat × Nat)) (c : Char) : Bool :=
  table.any fun r => r.1 ≤ c.toNat && c.toNat ≤ r.2

end ColumnLint.Text
