/-
**Where positions go when a part of a text is replaced.**

A replacement leaves the text before it and after it as they are. The text before it keeps its
positions. The text after it is displaced by what was put in and no longer by what was taken out; if
both have the same number of lines, then the line that the removed text ended on moves its columns
and all later lines stay.

* `EditDescriptor.splices_replace`: a replacement, as a text cut into parts;
* `EditDescriptor.Splices.applyChars_eq`: the text after it;
* `EditDescriptor.Splices.moved_plus`: where a position after the removed text goes;
* `EditDescriptor.Splices.slice_moved`: the text between a position before and one after.
-/

import CellSyntax.Edit
import CellSyntax.Proofs.Text.Displacement

namespace CellSyntax

open Text

/-- **Both ends of a range are positions of the text**, in order. -/
structure Range.IsIn (range : Range) (text : List Char) : Prop where
  ordered : range.Ordered
  start : position text (offset text range.start) = range.start
  stop : position text (offset text range.stop) = range.stop

namespace EditDescriptor

/-- **The edit puts `inserted` in the place of `removed` after `before`.** -/
structure Splices (edit : EditDescriptor) (before removed inserted : List Char) : Prop where
  start : edit.start = endOf before
  stop : edit.stop = endOf (before ++ removed)
  removed : edit.removed = textLines removed
  inserted : edit.inserted = textLines inserted

/-- **A replacement cuts the text at the ends of the range.** -/
theorem splices_replace {text : String} {range : Range} (isIn : range.IsIn text.toList)
    (replacement : String) : ∃ before removed after,
      text.toList = before ++ removed ++ after ∧
        (replace text range replacement).Splices before removed replacement.toList := by
  have first_le := place_le_length text.toList range.start
  have last_le := place_le_length text.toList range.stop
  have first_le_last : place text.toList range.start ≤ place text.toList range.stop :=
    place_mono isIn.ordered
  have start := isIn.start
  have stop := isIn.stop
  rw [position_offset, positionAt_eq_endOf first_le] at start
  rw [position_offset, positionAt_eq_endOf last_le] at stop
  have upTo : text.toList.take (place text.toList range.start) ++ slice text.toList range =
      text.toList.take (place text.toList range.stop) := by
    rw [← part_zero, ← part_zero]
    exact part_append_part (Nat.zero_le _) first_le_last
  refine ⟨text.toList.take (place text.toList range.start), slice text.toList range,
    text.toList.drop (place text.toList range.stop),
    (slice_append_rest text.toList range first_le_last).symm, start.symm, ?_, rfl, rfl⟩
  rw [upTo, stop]
  rfl

theorem ends_replace {edit : EditDescriptor} {text replacement : String} {range : Range}
    (made : edit = replace text range replacement) :
    edit.start = range.start ∧ edit.stop = range.stop := by
  rw [made]
  exact ⟨rfl, rfl⟩

/-- Where an edit that keeps the number of lines moves a position after the removed text. -/
def moved (edit : EditDescriptor) (position : Position) : Position :=
  if position.line = edit.stop.line then
    ⟨position.line, (position.column + edit.deltaColumn).toNat⟩
  else position

theorem moved_line (edit : EditDescriptor) (position : Position) :
    (edit.moved position).line = position.line := by
  unfold moved
  split <;> rfl

theorem moved_of_line_ne {edit : EditDescriptor} {position : Position}
    (other : position.line ≠ edit.stop.line) : edit.moved position = position :=
  if_neg other

theorem lineCount_eq_endOf (text : List Char) :
    lineCount (textLines text) = (endOf text).line + 1 := by
  have some := List.length_pos_iff.2 (lines_ne_nil text)
  rw [lineCount_textLines, endOf_eq]
  simp only
  omega

theorem lastLength_eq_endOf (text : List Char) :
    lastLength (textLines text) = (endOf text).column := by
  rw [endOf_eq, lastLength, textLines, List.getLast?_map]
  cases (lines text).getLast? with
  | none => rfl
  | some line => exact String.length_ofList

namespace Splices

variable {edit : EditDescriptor} {before removed inserted : List Char}

/-! ### The text after the edit -/

theorem insertedText_eq (splices : edit.Splices before removed inserted) :
    edit.insertedText = inserted := by
  rw [insertedText, splices.inserted, unlines_textLines]

/-- **The text after the edit.** -/
theorem applyChars_eq (splices : edit.Splices before removed inserted) (after : List Char) :
    edit.applyChars (before ++ removed ++ after) = before ++ inserted ++ after := by
  have first : place (before ++ removed ++ after) edit.start = before.length := by
    rw [splices.start, List.append_assoc, place_endOf]
  have last : place (before ++ removed ++ after) edit.stop = (before ++ removed).length := by
    rw [splices.stop, place_endOf]
  have upTo : (before ++ removed ++ after).take before.length = before := by
    rw [List.append_assoc, List.take_left]
  have longer : before.length ≤ (before ++ removed).length := by
    rw [List.length_append]
    exact Nat.le_add_right _ _
  rw [applyChars, first, last, splices.insertedText_eq, Nat.max_eq_left longer, upTo,
    List.drop_left]

/-- **A replacement, as the parts of the text before it and after it.** -/
theorem exists_parts {text replacement : String} {range : Range}
    (made : edit = replace text range replacement) (isIn : range.IsIn text.toList) :
    ∃ before removed after, edit.Splices before removed replacement.toList ∧
      text.toList = before ++ removed ++ after ∧
      (edit.apply text).toList = before ++ replacement.toList ++ after := by
  obtain ⟨before, removed, after, parts, splices⟩ := splices_replace isIn replacement
  rw [← made] at splices
  refine ⟨before, removed, after, splices, parts, ?_⟩
  rw [apply, String.toList_ofList, parts, splices.applyChars_eq]

/-! ### What the edit reports -/

theorem deltaLine_eq (splices : edit.Splices before removed inserted) :
    edit.deltaLine = (endOf inserted).line - (endOf removed).line := by
  rw [deltaLine, insertedLineCount, removedLineCount, splices.inserted, splices.removed,
    lineCount_eq_endOf, lineCount_eq_endOf]
  omega

theorem deltaColumn_eq (splices : edit.Splices before removed inserted) :
    edit.deltaColumn = (endOf inserted).column - (endOf removed).column := by
  rw [deltaColumn, splices.inserted, splices.removed, lastLength_eq_endOf, lastLength_eq_endOf]

/-- The edited text ends on the line that the position after the inserted text is on. -/
theorem endLine_eq (splices : edit.Splices before removed inserted) :
    edit.endLine = (endOf (before ++ inserted)).line := by
  rw [endLine, insertedLineCount, splices.inserted, splices.start, lineCount_eq_endOf,
    endOf_append, Position.plus]
  split
  · rename_i none
    rw [none]
    rfl
  · rfl

/-! ### Edits that keep the number of lines -/

section KeepsLines

variable (splices : edit.Splices before removed inserted) (keepsLines : edit.deltaLine = 0)
include splices keepsLines

/-- **What lies after the removed text is displaced by the inserted text instead.** -/
theorem moved_plus (further : Position) :
    edit.moved ((endOf (before ++ removed)).plus further) =
      (endOf (before ++ inserted)).plus further := by
  have lines := splices.deltaLine_eq
  have columns := splices.deltaColumn_eq
  rw [keepsLines] at lines
  rw [moved, splices.stop, columns, endOf_append, endOf_append]
  unfold Position.plus
  have same : (endOf inserted).line = (endOf removed).line := by omega
  by_cases oneLine : (endOf removed).line = 0 <;> by_cases here : further.line = 0 <;>
    simp [same, oneLine, here] <;> omega

theorem endLine_eq_stop : edit.endLine = edit.stop.line := by
  have here := splices.moved_plus keepsLines .origin
  rw [Position.plus_origin, Position.plus_origin] at here
  rw [splices.endLine_eq, ← here, moved_line, splices.stop]

/-- Positions after the removed text keep their order. -/
theorem moved_mono {first second : Position} (after : edit.stop ≤ first)
    (ordered : first ≤ second) : edit.moved first ≤ edit.moved second := by
  have after' := Position.le_trans after ordered
  rw [splices.stop] at after after'
  obtain ⟨near, rfl⟩ := Position.exists_plus after
  obtain ⟨far, rfl⟩ := Position.exists_plus after'
  rw [splices.moved_plus keepsLines, splices.moved_plus keepsLines, Position.plus_le_plus_iff]
  exact Position.plus_le_plus_iff.1 ordered

/-- What lies after the removed text stays after the start of the edit. -/
theorem start_le_moved {position : Position} (after : edit.stop ≤ position) :
    edit.start ≤ edit.moved position := by
  rw [splices.stop] at after
  obtain ⟨further, rfl⟩ := Position.exists_plus after
  rw [splices.moved_plus keepsLines, splices.start, endOf_append, Position.plus_assoc]
  exact Position.le_plus _ _

/-- **The text between a position before the edit and one after it**, in the text after the edit. -/
theorem slice_moved {start stop : Position} (after : List Char) (starts : start ≤ edit.start)
    (stops : edit.stop ≤ stop) :
    slice (before ++ inserted ++ after) ⟨start, edit.moved stop⟩ =
      slice (before ++ removed ++ after) ⟨start, edit.start⟩ ++ inserted ++
        slice (before ++ removed ++ after) ⟨edit.stop, stop⟩ := by
  rw [splices.stop] at stops
  obtain ⟨further, rfl⟩ := Position.exists_plus stops
  rw [splices.moved_plus keepsLines, splices.start, splices.stop]
  rw [splices.start] at starts
  have startPlace (middle : List Char) :
      place (before ++ middle ++ after) start = place before start := by
    rw [List.append_assoc, place_append_of_le _ starts]
  have inside := place_le_length before start
  have middlePlace : place (before ++ removed ++ after) (endOf before) = before.length := by
    rw [List.append_assoc, place_endOf]
  have left : part (before ++ removed ++ after) (place before start) before.length =
      part before (place before start) before.length := by
    rw [List.append_assoc, part_append_left before _ (Nat.le_refl _)]
  simp only [slice]
  rw [startPlace, startPlace, middlePlace, place_plus, place_plus, place_endOf,
    part_splice before inserted after inside, left]
  exact congrArg _ (part_append_right (before ++ removed) after 0 _).symm

end KeepsLines

end Splices

/-- **The text after an edit, seen from the positions before it**, for an edit that keeps the number
of lines: what comes before the edited text has the positions it had, and what comes after it has
those that the position map gives. -/
structure MapsPositions (edit : EditDescriptor) (text newText : List Char) : Prop where
  place_before : ∀ position ≤ edit.start, place newText position = place text position
  positionAt_before : ∀ spot ≤ place text edit.start, positionAt newText spot = positionAt text spot
  /-- The text after a position is the same as before. -/
  drop_after : ∀ position, edit.stop ≤ position →
    newText.drop (place newText (edit.moved position)) = text.drop (place text position)
  positionAt_after : ∀ further,
    positionAt newText (place text edit.start + edit.insertedText.length + further) =
      edit.moved (positionAt text (place text edit.stop + further))

/-- **The position map of a replacement is right.** -/
theorem Splices.mapsPositions {edit : EditDescriptor} {before removed inserted : List Char}
    (splices : edit.Splices before removed inserted) (keepsLines : edit.deltaLine = 0)
    (after : List Char) :
    edit.MapsPositions (before ++ removed ++ after) (before ++ inserted ++ after) := by
  have startPlace (middle : List Char) :
      place (before ++ middle ++ after) edit.start = before.length := by
    rw [splices.start, List.append_assoc, place_endOf]
  have stopPlace : place (before ++ removed ++ after) edit.stop = (before ++ removed).length := by
    rw [splices.stop, place_endOf]
  refine ⟨fun position upTo => ?_, fun spot upTo => ?_, fun position later => ?_, fun further => ?_⟩
  · rw [splices.start] at upTo
    rw [List.append_assoc, List.append_assoc, place_append_of_le _ upTo, place_append_of_le _ upTo]
  · rw [startPlace] at upTo
    rw [List.append_assoc, List.append_assoc, positionAt_append_of_le _ upTo,
      positionAt_append_of_le _ upTo]
  · rw [splices.stop] at later
    obtain ⟨further, rfl⟩ := Position.exists_plus later
    rw [splices.moved_plus keepsLines, place_plus, place_plus, List.drop_length_add_append,
      List.drop_length_add_append]
  · rw [startPlace, stopPlace, splices.insertedText_eq, positionAt_plus,
      splices.moved_plus keepsLines, ← List.length_append, positionAt_plus]

end EditDescriptor

end CellSyntax
