/-
**How the rules of a correction move positions, for every edit.**

The end of a node around an edit moves by lines or by columns, never by both; a following subtree
moves by lines, and by columns if it starts on the line that the removed text ends on. If the number
of lines changes these rules are not the position map of the edit. They still keep an end before the
edit's followers, with one exception: if lines move and the column shift is negative, then what
follows on the line that the removed text ends on may come to start before that end.

* `EditDescriptor.endAfter_le`: a corrected end is not after the start of what follows;
* `EditDescriptor.line_endAfter_le`: nor is its line, for every edit;
* `Range.shifted_apart`: ranges that move with following subtrees keep apart.
-/

import CellSyntax.Proofs.Edit.PositionMap
import CellSyntax.Propagate

namespace CellSyntax

open Text

theorem shiftCoordinate_eq {coordinate : Nat} {amount : Int}
    (fits : coordinate + amount ≤ maxCoordinate) :
    shiftCoordinate coordinate amount = (coordinate + amount).toNat := by
  unfold shiftCoordinate
  omega

theorem Position.le_of_columns {line line' : Nat} {column column' : Int} (same : line = line')
    (upTo : column ≤ column') :
    (⟨line, column.toNat⟩ : Position) ≤ ⟨line', column'.toNat⟩ :=
  Or.inr ⟨same, Int.toNat_le_toNat upTo⟩

/-- Both coordinates are at most `bound`. -/
structure Position.Within (position : Position) (bound : Nat) : Prop where
  line : position.line ≤ bound
  column : position.column ≤ bound

instance (position : Position) (bound : Nat) : Decidable (position.Within bound) :=
  decidable_of_iff (position.line ≤ bound ∧ position.column ≤ bound)
    ⟨fun both => ⟨both.1, both.2⟩, fun within => ⟨within.line, within.column⟩⟩

/-- Both ends have coordinates of at most `bound`. -/
structure Range.Within (range : Range) (bound : Nat) : Prop where
  start : range.start.Within bound
  stop : range.stop.Within bound

instance (range : Range) (bound : Nat) : Decidable (range.Within bound) :=
  decidable_of_iff (range.start.Within bound ∧ range.stop.Within bound)
    ⟨fun both => ⟨both.1, both.2⟩, fun within => ⟨within.start, within.stop⟩⟩

/-! ### Bounds on coordinates -/

theorem Position.Within.shifted {position : Position} {bound more : Nat} {lines columns : Int}
    (within : position.Within bound) (few : lines ≤ more) (few' : columns ≤ more) :
    (position.shifted lines columns).Within (bound + more) := by
  have ⟨line, column⟩ := within
  unfold Position.shifted shiftCoordinate
  exact ⟨by simp only; omega, by simp only; omega⟩

theorem Position.Within.mono {position : Position} {bound : Nat} (within : position.Within bound)
    (more : Nat) : position.Within (bound + more) :=
  ⟨Nat.le_add_right_of_le within.line, Nat.le_add_right_of_le within.column⟩

theorem Range.Within.mono {range : Range} {bound : Nat} (within : range.Within bound)
    (more : Nat) : range.Within (bound + more) :=
  ⟨within.start.mono more, within.stop.mono more⟩

theorem Range.Within.ofEnds {first second : Position} {bound : Nat} (within : first.Within bound)
    (within' : second.Within bound) : (Range.ofEnds first second).Within bound := by
  unfold Range.ofEnds
  split
  · exact ⟨within, within'⟩
  · exact ⟨within', within⟩

/-- Moving a range by no more than `more` raises no coordinate by more than that. -/
theorem Range.Within.shifted {range : Range} {bound more : Nat} {lines columns : Int}
    (within : range.Within bound) (few : lines ≤ more) (few' : columns ≤ more) :
    (range.shifted lines columns).Within (bound + more) := by
  have stop := within.stop.shifted few few'
  refine .ofEnds (within.start.shifted few few') ⟨stop.line, ?_⟩
  simp only
  split
  · exact stop.column
  · exact (within.stop.mono more).column

namespace EditDescriptor

/-- Where the end of a range around the edit goes. -/
def endAfter (edit : EditDescriptor) (position : Position) : Position :=
  if edit.endLine = position.line then position.shifted 0 edit.deltaColumn
  else position.shifted edit.deltaLine 0

/-- The column shift of a following subtree, by the line that it starts on. -/
def columnsAt (edit : EditDescriptor) (line : Nat) : Int :=
  if line = edit.stop.line then edit.deltaColumn else 0

/-- Coordinates of at most `bound` are not moved past the largest coordinate. -/
structure HasRoom (edit : EditDescriptor) (bound : Nat) : Prop where
  still : bound ≤ maxCoordinate
  lines : bound + edit.deltaLine ≤ maxCoordinate
  columns : bound + edit.deltaColumn ≤ maxCoordinate

variable {edit : EditDescriptor} {bound : Nat} {first second : Position}
  {before removed inserted : List Char}

theorem HasRoom.columnsAt (room : edit.HasRoom bound) (line : Nat) :
    bound + edit.columnsAt line ≤ maxCoordinate := by
  have still := room.still
  have columns := room.columns
  unfold EditDescriptor.columnsAt
  split <;> omega

theorem columnsAt_le {more : Nat} (few : edit.deltaColumn ≤ more) (line : Nat) :
    edit.columnsAt line ≤ more := by
  unfold columnsAt
  split <;> omega

/-- Where the second of two ranges starts on the last line of the first, its columns move no further
back than the end of the first does. -/
theorem columnsAt_meet {range other : Range} (ordered : range.Ordered)
    (below : edit.stop.line ≤ range.start.line) (meet : range.stop.line = other.start.line) :
    (if range.isSingleLine then edit.columnsAt range.start.line else 0) ≤
      edit.columnsAt other.start.line := by
  split
  · rename_i single
    have oneLine : range.start.line = range.stop.line := beq_iff_eq.1 single
    exact Int.le_of_eq (congrArg edit.columnsAt (oneLine.trans meet))
  · rename_i several
    have twoLines : range.start.line ≠ range.stop.line :=
      fun same => several (beq_iff_eq.2 same)
    rw [Range.Ordered, Position.le_def] at ordered
    exact Int.le_of_eq (if_neg (by omega)).symm

namespace Splices

theorem start_le_stop (splices : edit.Splices before removed inserted) :
    edit.start ≤ edit.stop := by
  rw [splices.start, splices.stop, endOf_append]
  exact Position.le_plus _ _

/-- The edit moves the line that the removed text ends on to the line that it ends on itself. -/
theorem endLine_eq_add (splices : edit.Splices before removed inserted) :
    (edit.endLine : Int) = edit.stop.line + edit.deltaLine := by
  have line (text : List Char) :
      (endOf (before ++ text)).line = (endOf before).line + (endOf text).line := by
    rw [endOf_append, Position.plus]
    split
    · rename_i oneLine
      simp only [oneLine, Nat.add_zero]
    · rfl
  rw [splices.endLine_eq, splices.deltaLine_eq, splices.stop, line, line]
  omega

theorem start_line_le (splices : edit.Splices before removed inserted) :
    edit.start.line ≤ edit.endLine := by
  have order := Position.le_plus (endOf before) (endOf inserted)
  rw [splices.endLine_eq, splices.start, endOf_append]
  rw [Position.le_def] at order
  omega

/-- Neither shift is larger than the number of inserted characters. -/
theorem delta_le (splices : edit.Splices before removed inserted) :
    edit.deltaLine ≤ inserted.length ∧ edit.deltaColumn ≤ inserted.length := by
  have size (text : List Char) : (endOf text).line + (endOf text).column ≤ text.length := by
    induction text with
    | nil => exact Nat.le_refl _
    | cons char rest ih =>
      rw [endOf_cons, List.length_cons]
      unfold charStep Position.plus
      split <;> split <;> simp only at * <;> omega
  have small := size inserted
  rw [splices.deltaLine_eq, splices.deltaColumn_eq]
  omega

theorem hasRoom (splices : edit.Splices before removed inserted)
    (room : bound + inserted.length ≤ maxCoordinate) : edit.HasRoom bound := by
  obtain ⟨lines, columns⟩ := splices.delta_le
  exact ⟨by omega, by omega, by omega⟩

end Splices

theorem adjustEnd_within {range : Range} {more : Nat} (within : range.Within bound)
    (few : edit.deltaLine ≤ more) (few' : edit.deltaColumn ≤ more) :
    (range.adjustEnd edit.delta).Within (bound + more) := by
  refine .ofEnds (within.start.mono more) ?_
  split
  · exact within.stop.shifted (Int.natCast_nonneg more) few'
  · exact within.stop.shifted few (Int.natCast_nonneg more)

/-! ### Ends and what follows them -/

section Ends

variable (splices : edit.Splices before removed inserted) (room : edit.HasRoom bound)
  (within : first.Within bound) (within' : second.Within bound) (after : edit.stop ≤ first)
include splices room within within' after

/-- **A corrected end is not on a later line than what follows it.** -/
theorem line_endAfter_le (ordered : first.line ≤ second.line) :
    (edit.endAfter first).line ≤ (second.line + edit.deltaLine).toNat := by
  have ⟨line, column⟩ := within
  have ⟨line', column'⟩ := within'
  have ⟨still, lines, columns⟩ := room
  have ends := splices.endLine_eq_add
  rw [Position.le_def] at after
  unfold endAfter Position.shifted
  split
  · simp only
    rw [shiftCoordinate_eq (by omega)]
    omega
  · simp only
    rw [shiftCoordinate_eq (by omega)]
    omega

/-- **A corrected end is not after the start of what follows it**, if on the line that the removed
text ends on columns move back only if no line moves. -/
theorem endAfter_le (ordered : first ≤ second)
    (keeps : second.line = edit.stop.line → edit.deltaColumn < 0 → edit.deltaLine = 0) :
    edit.endAfter first ≤ second.shifted edit.deltaLine (edit.columnsAt second.line) := by
  have ⟨line, column⟩ := within
  have ⟨line', column'⟩ := within'
  have ⟨still, lines, columns⟩ := room
  have ends := splices.endLine_eq_add
  have movedColumns := room.columnsAt second.line
  have down : ((second.line + edit.deltaLine).toNat : Int) = second.line + edit.deltaLine :=
    Int.toNat_of_nonneg (by rw [Position.le_def] at after ordered; omega)
  rw [Position.shifted, shiftCoordinate_eq (by omega), shiftCoordinate_eq (by omega)]
  unfold endAfter
  by_cases onLine : second.line = edit.stop.line
  · -- Then the end is on that line too, and it moves by columns exactly if no line moves.
    have here : first.line = second.line ∧ first.column ≤ second.column := by
      rw [Position.le_def] at after ordered
      omega
    rw [show edit.columnsAt second.line = edit.deltaColumn from if_pos onLine]
    split
    · rw [Position.shifted, shiftCoordinate_eq (by omega), shiftCoordinate_eq (by omega)]
      exact Position.le_of_columns (by omega) (by omega)
    · have forward : 0 ≤ edit.deltaColumn := by
        refine Int.not_lt.1 fun back => ?_
        have none := keeps onLine back
        omega
      rw [Position.shifted, shiftCoordinate_eq (by omega), shiftCoordinate_eq (by omega)]
      exact Position.le_of_columns (by rw [here.1]) (by omega)
  · have further : edit.stop.line < second.line := by
      rw [Position.le_def] at after ordered
      omega
    rw [show edit.columnsAt second.line = 0 from if_neg onLine]
    split
    · rw [Position.shifted, shiftCoordinate_eq (by omega), shiftCoordinate_eq (by omega)]
      exact Or.inl (by simp only; omega)
    · rw [Position.shifted, shiftCoordinate_eq (by omega), shiftCoordinate_eq (by omega)]
      rcases ordered with less | ⟨same, upTo⟩
      · exact Or.inl (by simp only; omega)
      · exact Position.le_of_columns (by rw [same]) (by omega)

end Ends

end EditDescriptor

/-! ### Ranges of following subtrees -/

namespace Range

theorem shifted_zero {range : Range} (within : range.Within maxCoordinate)
    (ordered : range.Ordered) : range.shifted 0 0 = range := by
  have ⟨⟨line, column⟩, ⟨line', column'⟩⟩ := within
  unfold Range.shifted Position.shifted
  rw [shiftCoordinate_zero line, shiftCoordinate_zero column, shiftCoordinate_zero line',
    shiftCoordinate_zero column', ite_self]
  exact ofEnds_of_le ordered

variable {edit : EditDescriptor} {bound : Nat} {range first second : Range}
  {before removed inserted : List Char} {columns columns' : Int}
  (splices : edit.Splices before removed inserted) (room : edit.HasRoom bound)
include splices room

/-- A range after the edit keeps the order of its ends when it moves. -/
theorem shifted_eq_ends (fits : bound + columns ≤ maxCoordinate) (within : range.Within bound)
    (ordered : range.Ordered) (below : edit.stop.line ≤ range.start.line) :
    range.shifted edit.deltaLine columns =
      ⟨range.start.shifted edit.deltaLine columns, ⟨shiftCoordinate range.stop.line edit.deltaLine,
        if range.isSingleLine then shiftCoordinate range.stop.column columns
        else range.stop.column⟩⟩ := by
  have ⟨⟨line, column⟩, ⟨line', column'⟩⟩ := within
  have lines := room.lines
  have ends := splices.endLine_eq_add
  refine ofEnds_of_le ?_
  rw [Ordered, Position.le_def] at ordered
  rw [Position.le_def]
  unfold Position.shifted
  simp only
  rw [shiftCoordinate_eq (by omega), shiftCoordinate_eq (by omega), shiftCoordinate_eq (by omega)]
  split
  · rename_i single
    have oneLine : range.start.line = range.stop.line := beq_iff_eq.1 single
    rw [shiftCoordinate_eq (by omega)]
    omega
  · rename_i several
    have twoLines : range.start.line ≠ range.stop.line := fun same => several (beq_iff_eq.2 same)
    omega

/-- **Ranges that move with following subtrees keep apart**, if on a common line the second does not
move back further than the end of the first. -/
theorem shifted_apart (fits : bound + columns ≤ maxCoordinate)
    (fits' : bound + columns' ≤ maxCoordinate) (within : first.Within bound)
    (within' : second.Within bound) (ordered : first.Ordered) (ordered' : second.Ordered)
    (below : edit.stop.line ≤ first.start.line) (apart : first.stop ≤ second.start)
    (together : first.stop.line = second.start.line →
      (if first.isSingleLine then columns else 0) ≤ columns') :
    (first.shifted edit.deltaLine columns).stop ≤
      (second.shifted edit.deltaLine columns').start := by
  have ⟨_, ⟨line, column⟩⟩ := within
  have ⟨⟨line', column'⟩, _⟩ := within'
  have lines := room.lines
  have ends := splices.endLine_eq_add
  have later : first.start.line ≤ first.stop.line := by
    rw [Ordered, Position.le_def] at ordered
    omega
  have further : first.stop.line ≤ second.start.line := by
    rw [Position.le_def] at apart
    omega
  rw [shifted_eq_ends splices room fits within ordered below,
    shifted_eq_ends splices room fits' within' ordered' (by omega)]
  have start : shiftCoordinate second.start.column columns' =
      (second.start.column + columns').toNat := shiftCoordinate_eq (by omega)
  rw [Position.le_def] at apart ⊢
  unfold Position.shifted
  simp only
  rw [start, shiftCoordinate_eq (by omega), shiftCoordinate_eq (by omega)]
  split
  · rename_i single
    rw [if_pos single] at together
    rw [shiftCoordinate_eq (by omega)]
    omega
  · rename_i several
    rw [if_neg several] at together
    omega

end Range

end CellSyntax
