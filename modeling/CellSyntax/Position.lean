/-
**Positions in a cell's text.**

A position is a zero-based line and a zero-based column counted in characters. Positions are
ordered line first. Moving one by signed amounts keeps both coordinates inside the 64-bit range.

* `Position.le_total`, `Position.le_trans`, `Position.le_antisymm`: the order is linear;
* `Position.lt_iff_not_le`: the strict order is its complement;
* `shiftCoordinate_zero`: moving by nothing changes nothing inside the range.
-/

namespace CellSyntax

/-- A point in a cell's text: a zero-based line and a column counted in characters. -/
structure Position where
  line : Nat
  column : Nat
deriving DecidableEq, Repr, Inhabited

/-- The largest line or column that moving a position yields. -/
def maxCoordinate : Nat := 0xFFFFFFFFFFFFFFFF

/-- A coordinate moved by a signed amount, held between zero and `maxCoordinate`. -/
def shiftCoordinate (coordinate : Nat) (amount : Int) : Nat :=
  min (coordinate + amount).toNat maxCoordinate

theorem shiftCoordinate_zero {coordinate : Nat} (inRange : coordinate ≤ maxCoordinate) :
    shiftCoordinate coordinate 0 = coordinate := by
  unfold shiftCoordinate
  omega

theorem shiftCoordinate_le (coordinate : Nat) (amount : Int) :
    shiftCoordinate coordinate amount ≤ maxCoordinate :=
  Nat.min_le_right _ _

namespace Position

/-- The beginning of every text. -/
def origin : Position := ⟨0, 0⟩

/-- One position is before another if its line is, or its column on the same line. -/
instance : LT Position where
  lt first second :=
    first.line < second.line ∨ first.line = second.line ∧ first.column < second.column

instance : LE Position where
  le first second :=
    first.line < second.line ∨ first.line = second.line ∧ first.column ≤ second.column

theorem lt_def {first second : Position} :
    first < second ↔
      first.line < second.line ∨ first.line = second.line ∧ first.column < second.column :=
  Iff.rfl

theorem le_def {first second : Position} :
    first ≤ second ↔
      first.line < second.line ∨ first.line = second.line ∧ first.column ≤ second.column :=
  Iff.rfl

instance (first second : Position) : Decidable (first < second) :=
  decidable_of_iff _ lt_def.symm

instance (first second : Position) : Decidable (first ≤ second) :=
  decidable_of_iff _ le_def.symm

/-! ### The order -/

theorem le_refl (position : Position) : position ≤ position := by
  rw [le_def]
  omega

theorem le_trans {first second third : Position} (left : first ≤ second)
    (right : second ≤ third) : first ≤ third := by
  rw [le_def] at *
  omega

theorem le_total (first second : Position) : first ≤ second ∨ second ≤ first := by
  rw [le_def, le_def]
  omega

theorem le_antisymm {first second : Position} (left : first ≤ second)
    (right : second ≤ first) : first = second := by
  rw [le_def] at *
  rcases first with ⟨line, column⟩
  rcases second with ⟨line', column'⟩
  simp only [mk.injEq] at *
  omega

theorem lt_iff_not_le {first second : Position} : first < second ↔ ¬ second ≤ first := by
  rw [le_def, lt_def]
  omega

theorem le_of_lt {first second : Position} (less : first < second) : first ≤ second := by
  rw [lt_def] at less
  rw [le_def]
  omega

theorem origin_le (position : Position) : origin ≤ position := by
  rw [le_def]
  simp only [origin]
  omega

theorem origin_or_lt (position : Position) : position = origin ∨ origin < position := by
  by_cases after : origin < position
  · exact Or.inr after
  · rw [lt_iff_not_le] at after
    exact Or.inl (le_antisymm (Classical.not_not.1 after) (origin_le position))

/-- How two positions compare. -/
def compare (first second : Position) : Ordering :=
  if first < second then .lt else if first = second then .eq else .gt

/-- The position moved by signed amounts. -/
def shifted (position : Position) (lines columns : Int) : Position :=
  ⟨shiftCoordinate position.line lines, shiftCoordinate position.column columns⟩

/-- The written form, `line:column`. -/
def render (position : Position) : String :=
  toString position.line ++ ":" ++ toString position.column

end Position

end CellSyntax
