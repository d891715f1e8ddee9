/-
**Where an edit carries every place of a text.**

A replacement keeps the places before it with their positions. A place after the removed text stays
as many bytes behind the inserted text as it was behind the removed one. If it was on the line that
the removed text ends on, then it is now on the line that the edited text ends on, as many columns
behind; a place on a later line moves by the change in the number of lines and keeps its column. The
change in the length of the last line says how far columns move on that line only if the edit starts
at a column of zero, or if inserted and removed text are both on one line or both on several.

* `Text.isBoundary_append_iff`: the places of a text in two parts;
* `EditDescriptor.Splices.endColumn_eq`: the column that the edited text ends on;
* `EditDescriptor.Splices.carries`: where a place after the edit goes;
* `EditDescriptor.Splices.endColumn_shift_iff`: when columns move by the change of the last line;
* `EditDescriptor.positions_replace`: all places of the text after a replacement.
-/

import CellSyntax.Proofs.Edit.LineShift
import CellSyntax.Proofs.Text.OrderIsomorphism

namespace CellSyntax

namespace Text

variable {front back : List Char} {bytes : Nat}

/-! ### Places of a text in two parts -/

/-- **A place of a text in two parts is one of the first or one of the second.** -/
theorem isBoundary_append_iff : IsBoundary (front ++ back) bytes ↔
    IsBoundary front bytes ∨
      ∃ further, IsBoundary back further ∧ bytes = byteLength front + further := by
  constructor
  · rintro ⟨before, after, parts, rfl⟩
    rcases List.append_eq_append_iff.1 parts with ⟨middle, rfl, rfl⟩ | ⟨middle, rfl, rfl⟩
    · refine Or.inr ⟨byteLength middle, isBoundary_append middle after, ?_⟩
      exact byteLength_append front middle
    · exact Or.inl (isBoundary_append before middle)
  · rintro (⟨before, after, rfl, rfl⟩ | ⟨_, ⟨before, after, rfl, rfl⟩, rfl⟩)
    · rw [List.append_assoc]
      exact isBoundary_append before _
    · rw [← byteLength_append, ← List.append_assoc]
      exact isBoundary_append _ after

theorem IsBoundary.byteLength_le (boundary : IsBoundary front bytes) :
    bytes ≤ byteLength front := by
  obtain ⟨before, after, rfl, rfl⟩ := boundary
  rw [byteLength_append]
  exact Nat.le_add_right _ _

/-- The whole of a text ends at a place. -/
theorem isBoundary_byteLength (text : List Char) : IsBoundary text (byteLength text) :=
  ⟨text, [], (List.append_nil text).symm, rfl⟩

theorem isBoundary_zero (text : List Char) : IsBoundary text 0 := ⟨[], text, rfl, rfl⟩

theorem IsBoundary.of_le (boundary : IsBoundary (front ++ back) bytes)
    (upTo : bytes ≤ byteLength front) : IsBoundary front bytes := by
  rcases isBoundary_append_iff.1 boundary with inFront | ⟨further, -, rfl⟩
  · exact inFront
  · have here : byteLength front + further = byteLength front := by omega
    rw [here]
    exact isBoundary_byteLength front

theorem IsBoundary.of_ge (boundary : IsBoundary (front ++ back) bytes)
    (after : byteLength front ≤ bytes) :
    ∃ further, IsBoundary back further ∧ bytes = byteLength front + further := by
  rcases isBoundary_append_iff.1 boundary with inFront | inBack
  · have upTo := inFront.byteLength_le
    exact ⟨0, isBoundary_zero back, by omega⟩
  · exact inBack

/-- The position of a place is the end of the text before it. -/
theorem position_byteLength (before after : List Char) :
    position (before ++ after) (byteLength before) = endOf before := by
  have inside : before.length ≤ (before ++ after).length := by
    rw [List.length_append]
    exact Nat.le_add_right _ _
  have within := charsWithin_byteLength_take (before ++ after) inside
  rw [List.take_left] at within
  rw [position, within, positionAt_append_of_le after (Nat.le_refl _), endOf]

/-- The places of the first part keep their positions, whatever comes after it. -/
theorem IsBoundary.position_eq (boundary : IsBoundary (front ++ back) bytes)
    (upTo : bytes ≤ byteLength front) (back' : List Char) :
    IsBoundary (front ++ back') bytes ∧
      position (front ++ back') bytes = position (front ++ back) bytes := by
  obtain ⟨before, after, rfl, rfl⟩ := boundary.of_le upTo
  rw [List.append_assoc, List.append_assoc, position_byteLength, position_byteLength]
  exact ⟨isBoundary_append _ _, rfl⟩

/-- The offset of the end of a part. -/
theorem offset_endOf (before after : List Char) :
    offset (before ++ after) (endOf before) = byteLength before := by
  rw [offset, place_endOf, List.take_left]

end Text

namespace EditDescriptor

open Text

/-- The column that the edited text ends on after the edit: the length of the last inserted line,
from the column of the edit on if there is no other inserted line. -/
def endColumn (edit : EditDescriptor) : Nat :=
  lastLength edit.inserted + if edit.insertedLineCount = 1 then edit.start.column else 0

/-- **Where the edit carries a position after the removed text.** On the line that the removed text
ends on it comes as many columns behind the end of the edited text as it was behind that of the
removed one; on a later line it moves with its line. -/
def Carries (edit : EditDescriptor) (old new : Position) : Prop :=
  if old.line = edit.stop.line then
    new.line = edit.endLine ∧ (new.column : Int) = old.column - edit.stop.column + edit.endColumn
  else (new.line : Int) = old.line + edit.deltaLine ∧ new.column = old.column

instance (edit : EditDescriptor) (old new : Position) : Decidable (edit.Carries old new) :=
  inferInstanceAs (Decidable (ite _ _ _))

namespace Splices

variable {edit : EditDescriptor} {before removed inserted : List Char}

theorem insertedLineCount_eq (splices : edit.Splices before removed inserted) :
    edit.insertedLineCount = (endOf inserted).line + 1 := by
  rw [insertedLineCount, splices.inserted, lineCount_eq_endOf]

theorem removedLineCount_eq (splices : edit.Splices before removed inserted) :
    edit.removedLineCount = (endOf removed).line + 1 := by
  rw [removedLineCount, splices.removed, lineCount_eq_endOf]

/-- **The edited text ends on the column that the position after the inserted text has.** -/
theorem endColumn_eq (splices : edit.Splices before removed inserted) :
    edit.endColumn = (endOf (before ++ inserted)).column := by
  rw [endColumn, splices.insertedLineCount_eq, splices.inserted, lastLength_eq_endOf,
    splices.start, endOf_append, Position.plus]
  by_cases oneLine : (endOf inserted).line = 0
  · simp [oneLine, Nat.add_comm]
  · simp [oneLine]

/-- **Where a position after the removed text goes.** -/
theorem carries (splices : edit.Splices before removed inserted) (further : Position) :
    edit.Carries ((endOf (before ++ removed)).plus further)
      ((endOf (before ++ inserted)).plus further) := by
  have lines := splices.endLine_eq_add
  have line := splices.endLine_eq
  have column := splices.endColumn_eq
  unfold Carries Position.plus
  rw [splices.stop] at lines ⊢
  by_cases here : further.line = 0
  · simp only [here, if_true]
    exact ⟨line.symm, by omega⟩
  · have beyond : ¬ (endOf (before ++ removed)).line + further.line =
        (endOf (before ++ removed)).line := by
      omega
    simp only [here, if_false, beyond]
    exact ⟨by omega, trivial⟩

/-- **Where a place after the removed text goes.** -/
theorem carries_place (splices : edit.Splices before removed inserted) {after : List Char}
    {bytes : Nat} (boundary : IsBoundary (before ++ removed ++ after) bytes)
    (later : byteLength (before ++ removed) ≤ bytes) :
    IsBoundary (before ++ inserted ++ after)
        (bytes - byteLength (before ++ removed) + byteLength before + byteLength inserted) ∧
      edit.Carries (position (before ++ removed ++ after) bytes)
        (position (before ++ inserted ++ after)
          (bytes - byteLength (before ++ removed) + byteLength before + byteLength inserted)) := by
  obtain ⟨_, ⟨middle, last, rfl, rfl⟩, rfl⟩ := boundary.of_ge later
  have oldBytes : byteLength (before ++ removed) + byteLength middle =
      byteLength (before ++ removed ++ middle) := (byteLength_append _ _).symm
  have newBytes : byteLength (before ++ removed) + byteLength middle -
      byteLength (before ++ removed) + byteLength before + byteLength inserted =
        byteLength (before ++ inserted ++ middle) := by
    rw [Nat.add_sub_cancel_left, byteLength_append (before ++ inserted), byteLength_append before]
    omega
  rw [newBytes, oldBytes, ← List.append_assoc (before ++ removed),
    ← List.append_assoc (before ++ inserted), position_byteLength, position_byteLength,
    endOf_append (before ++ removed), endOf_append (before ++ inserted)]
  exact ⟨isBoundary_append _ _, splices.carries _⟩

/-- **When columns move by the change of the last line**, on the line that the removed text ends
on. -/
theorem endColumn_shift_iff (splices : edit.Splices before removed inserted) :
    (edit.endColumn : Int) - edit.stop.column = edit.deltaColumn ↔
      edit.start.column = 0 ∨ (edit.insertedLineCount = 1 ↔ edit.removedLineCount = 1) := by
  rw [splices.endColumn_eq, splices.deltaColumn_eq, splices.insertedLineCount_eq,
    splices.removedLineCount_eq, splices.start, splices.stop, endOf_append, endOf_append]
  unfold Position.plus
  -- Inserted and removed text are each on one line or on several.
  split <;> split <;> dsimp only <;> omega

end Splices

/-- **Where a replacement carries every place of a text.** Let both ends of the replaced range be
positions of the text. A place up to its start keeps its position. A place from its end on becomes
the place of the new text that is as many bytes behind the inserted text, and the edit carries its
position there. On the line that the removed text ends on, columns move by the change of the last
line exactly if the edit starts at a column of zero or if inserted and removed text are both on one
line or both on several. -/
theorem positions_replace {text replacement : String} {range : Range}
    (isIn : range.IsIn text.toList) :
    let edit := replace text range replacement
    let new := (edit.apply text).toList
    let old := LineIndex.of text.toList
    let index := LineIndex.of new
    (∀ bytes, IsBoundary text.toList bytes → bytes ≤ old.offset range.start →
      IsBoundary new bytes ∧ index.position bytes = old.position bytes) ∧
    (∀ bytes, IsBoundary text.toList bytes → old.offset range.stop ≤ bytes →
      let shifted := bytes - old.offset range.stop + old.offset range.start +
        byteLength replacement.toList
      IsBoundary new shifted ∧ edit.Carries (old.position bytes) (index.position shifted)) ∧
    ((edit.endColumn : Int) - range.stop.column = edit.deltaColumn ↔
      range.start.column = 0 ∨ (edit.insertedLineCount = 1 ↔ edit.removedLineCount = 1)) := by
  intro edit new old index
  have made : edit = replace text range replacement := rfl
  obtain ⟨before, removed, after, splices, whole, result⟩ := Splices.exists_parts made isIn
  have start : old.offset range.start = byteLength before := by
    have same : range.start = endOf before := splices.start
    rw [LineIndex.offset_of, same, whole, List.append_assoc, offset_endOf]
  have stop : old.offset range.stop = byteLength (before ++ removed) := by
    have same : range.stop = endOf (before ++ removed) := splices.stop
    rw [LineIndex.offset_of, same, whole, offset_endOf]
  refine ⟨fun bytes boundary upTo => ?_, fun bytes boundary later => ?_,
    splices.endColumn_shift_iff⟩
  · rw [start] at upTo
    rw [LineIndex.position_of, LineIndex.position_of]
    rw [whole, List.append_assoc] at boundary ⊢
    rw [show new = before ++ (replacement.toList ++ after) from
      result.trans (List.append_assoc _ _ _)]
    exact boundary.position_eq upTo _
  · rw [stop] at later
    rw [whole] at boundary
    have carried := splices.carries_place boundary later
    rw [← whole, ← result, ← start, ← stop] at carried
    intro shifted
    rwa [LineIndex.position_of, LineIndex.position_of]

/-- Joining the lines of `é = [⏎  1,⏎]⏎`: the place behind the closer goes from `2:1` to `0:9`. -/
theorem positions_replace_joinedLines :
    let edit := replace "é = [\n  1,\n]\n" ⟨⟨0, 5⟩, ⟨2, 0⟩⟩ "1,ü"
    Range.IsIn ⟨⟨0, 5⟩, ⟨2, 0⟩⟩ "é = [\n  1,\n]\n".toList ∧
      (LineIndex.of "é = [\n  1,\n]\n".toList).position 13 = ⟨2, 1⟩ ∧
      (LineIndex.of (edit.apply "é = [\n  1,\n]\n").toList).position 11 = ⟨0, 9⟩ ∧
      edit.Carries ⟨2, 1⟩ ⟨0, 9⟩ ∧ edit.endColumn = 8 ∧ edit.deltaColumn = 3 := by
  intro edit
  have isIn : Range.IsIn ⟨⟨0, 5⟩, ⟨2, 0⟩⟩ "é = [\n  1,\n]\n".toList :=
    ⟨by decide, by decide, by decide⟩
  have boundary : IsBoundary "é = [\n  1,\n]\n".toList 13 :=
    ⟨"é = [\n  1,\n]".toList, ['\n'], by decide, by decide⟩
  have carried := ((@positions_replace _ "1,ü" _ isIn).2.1 13 boundary (by decide)).2
  exact ⟨isIn, by decide, by decide, carried, by decide, by decide⟩

end EditDescriptor

end CellSyntax
