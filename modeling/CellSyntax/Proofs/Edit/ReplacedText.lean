/-
**Which text an edit replaces.**

The node that an edit lies in is located by the range between the two ends of the edit, which puts
them in order. The text is changed between the byte offsets of the ends as they are given, and an
offset that is in front of the first one counts as the first one. The two agree for ends in order.
Given the other way round, they are the ends of one range for the tree, but the text under it stays,
and what is inserted is put in behind it.

* `Range.Ordered.cuts`: a text is cut at the byte offsets of an ordered range;
* `EditDescriptor.apply_cut`: the text after an edit, and when it is the one with the text under the
  range replaced;
* `Session.edit_backward`: an edit whose ends are not in order.
-/

import CellSyntax.Json.Edit
import CellSyntax.Proofs.Text.OrderIsomorphism
import CellSyntax.Session
import CellSyntax.Zip.Cell

namespace CellSyntax

open Text

/-- **A text cut at the byte offsets of a range**, into what is in front of the range, under it and
behind it. -/
structure Range.Cuts (range : Range) (text before under after : List Char) : Prop where
  whole : text = before ++ under ++ after
  start : byteLength before = (LineIndex.of text).offset range.start
  stop : byteLength (before ++ under) = (LineIndex.of text).offset range.stop

/-- What is in front of a range and what is under it make up the text up to the end of the range. -/
theorem Range.Ordered.take_append_slice {range : Range} (ordered : range.Ordered)
    (text : List Char) : text.take (place text range.start) ++ slice text range =
      text.take (place text range.stop) := by
  rw [← part_zero, ← part_zero, slice]
  exact part_append_part (Nat.zero_le _) (place_mono ordered)

/-- **A text is cut at the byte offsets of an ordered range.** -/
theorem Range.Ordered.cuts {range : Range} (ordered : range.Ordered) (text : List Char) :
    range.Cuts text (text.take (place text range.start)) (slice text range)
      (text.drop (place text range.stop)) where
  whole := (slice_append_rest text range (place_mono ordered)).symm
  start := by rw [LineIndex.offset_of, offset]
  stop := by rw [ordered.take_append_slice, LineIndex.offset_of, offset]

namespace EditDescriptor

variable {edit : EditDescriptor}

theorem beforeRange_ordered (edit : EditDescriptor) : edit.beforeRange.Ordered :=
  Range.ofEnds_ordered _ _

/-- Ends in order: the text under the range is replaced. -/
theorem applyChars_forward (forward : edit.start ≤ edit.stop) (text : List Char) :
    edit.applyChars text = text.take (place text edit.beforeRange.start) ++ edit.insertedText ++
      text.drop (place text edit.beforeRange.stop) := by
  have range : edit.beforeRange = ⟨edit.start, edit.stop⟩ := Range.ofEnds_of_le forward
  rw [range, applyChars, Nat.max_eq_left (place_mono forward)]

/-- Ends that are not in order: the text under the range stays. -/
theorem applyChars_backward (backward : ¬ edit.start ≤ edit.stop) (text : List Char) :
    edit.applyChars text = text.take (place text edit.beforeRange.start) ++
      slice text edit.beforeRange ++ edit.insertedText ++
      text.drop (place text edit.beforeRange.stop) := by
  have range : edit.beforeRange = ⟨edit.stop, edit.start⟩ := if_neg backward
  have upTo : place text edit.stop ≤ place text edit.start :=
    place_mono ((Position.le_total edit.start edit.stop).resolve_left backward)
  rw [edit.beforeRange_ordered.take_append_slice, range, applyChars, Nat.max_eq_right upTo]

/-- **The text after an edit.** The text under the range by which the edit is located is replaced if
the ends of the edit are in order. If they are not, all text stays and the inserted text is put in
behind the range; that comes to the same only if there is no text under the range. -/
theorem apply_cut (edit : EditDescriptor) (text : String) :
    ∃ before under after, edit.beforeRange.Cuts text.toList before under after ∧
      edit.apply text = String.ofList (before ++ (if edit.start ≤ edit.stop then [] else under) ++
        edit.insertedText ++ after) ∧
      (edit.apply text = String.ofList (before ++ edit.insertedText ++ after) ↔
        edit.start ≤ edit.stop ∨ under = []) ∧
      ∀ root : Node, (root.repair edit (edit.apply text)).2.path = root.locate edit.beforeRange := by
  refine ⟨_, _, _, edit.beforeRange_ordered.cuts text.toList, ?_⟩
  by_cases forward : edit.start ≤ edit.stop
  · rw [apply, applyChars_forward forward, if_pos forward, List.append_nil]
    exact ⟨rfl, iff_of_true rfl (Or.inl forward), fun root => root.repair_path edit _⟩
  · rw [apply, applyChars_backward forward, if_neg forward]
    refine ⟨rfl, ?_, fun root => root.repair_path edit _⟩
    simp only [forward, false_or]
    constructor
    · intro same
      have lengths := congrArg List.length (String.ofList_injective same)
      simp only [List.length_append] at lengths
      exact List.length_eq_zero_iff.1 (by omega)
    · intro nothing
      rw [nothing, List.append_nil]

/-- The text of an edit of `a;b` whose second end is in front of the first. -/
def backwardText : String :=
  "\x7b\"from\":\x7b\"line\":0,\"ch\":2\x7d,\"to\":\x7b\"line\":0,\"ch\":0\x7d," ++
    "\"removed\":[\"a;\"],\"text\":[\"x\"]\x7d"

theorem read_backwardText : read backwardText = .ok ⟨⟨0, 2⟩, ⟨0, 0⟩, ["a;"], ["x"]⟩ := by
  have found : (read backwardText).toOption = some ⟨⟨0, 2⟩, ⟨0, 0⟩, ["a;"], ["x"]⟩ := by
    decide +kernel
  cases outcome : read backwardText with
  | error fault =>
    rw [outcome] at found
    cases found
  | ok edit =>
    rw [outcome] at found
    exact congrArg Except.ok (Option.some.inj found)

end EditDescriptor

/-- **Text and tree drift apart** over an edit whose ends are not in order: the text under its range
stays, but the tree is corrected as if that text had been replaced, and ends before the cell does. -/
theorem Session.edit_backward : ∃ edit root corrected,
    EditDescriptor.read EditDescriptor.backwardText = .ok edit ∧
      edit.beforeRange.Cuts "a;b".toList [] "a;".toList "b".toList ∧
      edit.apply "a;b" ≠ String.ofList ([] ++ edit.insertedText ++ "b".toList) ∧
      zipSource {} "a;b" ⟨"Module", none, [⟨"Name", some ⟨0, 0⟩, []⟩, ⟨"Name", some ⟨0, 2⟩, []⟩]⟩
        [⟨"NAME", ⟨⟨0, 0⟩, ⟨0, 1⟩⟩, "a"⟩, ⟨"OP", ⟨⟨0, 1⟩, ⟨0, 2⟩⟩, ";"⟩,
          ⟨"NAME", ⟨⟨0, 2⟩, ⟨0, 3⟩⟩, "b"⟩] = .ok (.tree root) ∧
      ((Session.new "a;b" (.tree root)).applyEdit edit).1 = ⟨"a;xb", .tree corrected, 1⟩ ∧
      corrected.range = ⟨⟨0, 0⟩, ⟨0, 2⟩⟩ := by
  exact ⟨_, _, _, EditDescriptor.read_backwardText,
    ⟨by decide +kernel, by decide +kernel, by decide +kernel⟩, by decide +kernel, rfl, rfl,
    by decide +kernel⟩

end CellSyntax
