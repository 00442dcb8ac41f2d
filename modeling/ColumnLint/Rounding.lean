/-
  Rounding of exact quotients: to whole numbers, and to the precision of a double.
-/

namespace ColumnLint

/-- The whole number nearest to `n / d`, a tie to the even neighbour. -/
def roundDiv (n d : Nat) : Nat :=
  let q := n / d
  let r := n % d
  if 2 * r < d || (2 * r == d && q % 2 == 0) then q else q + 1

/-- The number of 53 significant bits nearest to `n / d`, a tie to the even neighbour. Exact where
the quotient has at least 53 bits before the point or is whole. -/
def nearestDouble (n d : Nat) : Nat :=
  let unit := Nat.pow 2 ((n / d).log2 - 52)
  roundDiv n (d * unit) * unit

end ColumnLint
