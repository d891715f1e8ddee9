/-
**Whole numbers as doubles.**

A double has 53 significant bits. A whole number between two doubles is rounded to the nearer one,
and to the one with an even significand if it stands in the middle.

* `Double.nearest_of_lt`: a whole number of at most 53 bits is a double already.
-/

import CellSyntax.Text.Decimal

namespace CellSyntax

namespace Double

/-- The number of significant bits. -/
def significantBits : Nat := 53

/-- The least whole number whose nearest double is infinite. -/
def limit : Nat := Nat.pow 2 1024 - Nat.pow 2 970

/-- The double nearest to a whole number below the limit. -/
def nearest (value : Nat) : Nat :=
  let excess := value.log2 + 1 - significantBits
  let significand := value >>> excess
  let lost := 2 * (value - significand <<< excess)
  let unit := 1 <<< excess
  let up := unit < lost ∨ (unit = lost ∧ significand % 2 = 1)
  (if up then significand + 1 else significand) <<< excess

theorem nearest_of_lt {value : Nat} (small : value.log2 < significantBits) :
    nearest value = value := by
  have excess : value.log2 + 1 - significantBits = 0 := by omega
  simp [nearest, excess]

end Double

end CellSyntax
