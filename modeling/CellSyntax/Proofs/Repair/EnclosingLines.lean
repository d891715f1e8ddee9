/-
**The lines that the nodes around an edit end on.**

Where an edit adds or takes lines, the last line of a node around it should go along. The rule for
ends asks whether the edit, once made, ends on the line that the node ended on before, and if so it
moves the column alone. If the number of lines changes then these two lines belong to different
texts: the node still ends on its old line, whatever has moved past it.

* `Range.line_adjustEnd`: the last line of a range around the edit;
* `Node.repair_endLine`: the last lines of all nodes around an edit, and which of them go along;
* `Node.repair_endLine_stuck`: a tree whose root ends before its last child starts.
-/

import CellSyntax.Proofs.Edit.LineShift
import CellSyntax.Proofs.Locate.Search
import CellSyntax.Proofs.Propagate.ClosedForm
import CellSyntax.Proofs.Zip.TreeOver
import CellSyntax.Repair

namespace CellSyntax

open Text

variable {edit : EditDescriptor} {before removed inserted : List Char} {range : Range}

/-- Where the corrected end of a range is not before its start, it is the end of the new range; where
it is, the line is the same. -/
theorem Range.line_ofEnds {first second : Position} (upTo : first.line ≤ second.line) :
    (Range.ofEnds first second).stop.line = second.line := by
  unfold Range.ofEnds
  split
  · rfl
  · rename_i back
    rw [Position.le_def] at back
    simp only
    omega

/-- **The last line of a range around an edit** stays if the edit ends on a line of that number once
it is made, and else moves by the line shift. -/
theorem Range.line_adjustEnd (splices : edit.Splices before removed inserted)
    (starts : range.start ≤ edit.start) (stops : edit.stop ≤ range.stop)
    (fits : range.stop.line ≤ maxCoordinate)
    (room : range.stop.line + edit.deltaLine ≤ maxCoordinate) :
    ((range.adjustEnd edit.delta).stop.line : Int) =
      if edit.endLine = range.stop.line then (range.stop.line : Int)
      else range.stop.line + edit.deltaLine := by
  have order := splices.start_le_stop
  have ends := splices.endLine_eq_add
  have startLine := splices.start_line_le
  rw [Position.le_def] at starts stops order
  have same : (range.adjustEnd edit.delta).stop.line = (edit.endAfter range.stop).line :=
    Range.line_ofEnds ?upTo
  case upTo =>
    show range.start.line ≤ (edit.endAfter range.stop).line
    unfold EditDescriptor.endAfter Position.shifted
    split
    · simp only
      rw [shiftCoordinate_zero fits]
      omega
    · simp only
      rw [shiftCoordinate_eq room]
      omega
  rw [same]
  unfold EditDescriptor.endAfter Position.shifted
  split
  · simp only
    rw [shiftCoordinate_zero fits]
  · simp only
    rw [shiftCoordinate_eq room]
    omega

namespace Node

variable {root node located : Node} {path : Path} {text replacement : String}

/-- **All nodes around an edit have their end corrected**, the located one among them. -/
theorem exists_adjusted (found : root.at? path = some node) {around : Path}
    (isAround : around <+: path) {outer : Node} (isOuter : root.at? around = some outer)
    (moves : ¬ edit.delta.isZero = true) :
    ∃ corrected, (root.propagate edit.delta path).at? around = some corrected ∧
      corrected.range = outer.range.adjustEnd edit.delta := by
  obtain ⟨rest, rfl⟩ := isAround
  rw [at?_append_of_at? isOuter] at found
  have range := (propagateFrom_range edit.delta (Option.isSome_iff_exists.2 ⟨node, found⟩)).1
  refine ⟨_, ?_, range⟩
  rw [propagate, if_neg moves]
  exact at?_propagateFrom isOuter rest

/-- **The last lines of the nodes around an edit.** After a replacement between two positions of the
text, take the located node or a node around it; the root is left out unless it contains the edit,
which all others do. Its last line is the old one, moved by the line shift, exactly if the edit keeps
the number of lines or does not end on a line with the number of the old one; in the case left the
last line stays. -/
theorem repair_endLine (root : Node) (made : edit = .replace text range replacement)
    (isIn : range.IsIn text.toList) (around : path <+: root.locate edit.beforeRange)
    (found : root.at? path = some node)
    (contains : path ≠ [] ∨ node.range.containsRange edit.beforeRange = true)
    (fits : node.range.stop.line ≤ maxCoordinate)
    (room : node.range.stop.line + edit.deltaLine ≤ maxCoordinate) :
    ∃ corrected, (root.repair edit (edit.apply text)).1.at? path = some corrected ∧
      ((corrected.range.stop.line : Int) = node.range.stop.line + edit.deltaLine ↔
        edit.deltaLine = 0 ∨ edit.endLine ≠ node.range.stop.line) ∧
      (edit.endLine = node.range.stop.line →
        corrected.range.stop.line = node.range.stop.line) := by
  obtain ⟨before, removed, after, splices, -, -⟩ := EditDescriptor.Splices.exists_parts made isIn
  have covers : node.range.containsRange edit.beforeRange = true :=
    contains.elim (fun below => (root.reaches_nodeAt _).contains around below found) id
  have ends : edit.beforeRange = ⟨edit.start, edit.stop⟩ :=
    Range.ofEnds_of_le splices.start_le_stop
  rw [ends] at covers
  obtain ⟨starts, stops⟩ := Range.containsRange_iff.1 covers
  by_cases still : edit.delta.isZero = true
  · have keepsLines : edit.deltaLine = 0 := beq_iff_eq.1 (Bool.and_eq_true_iff.1 still).1
    refine ⟨node, ?_, ?_, fun _ => rfl⟩
    · rw [repair]
      simp only
      rw [propagate_zero still]
      exact found
    · rw [keepsLines]
      simp
  · obtain ⟨corrected, reached, isAdjusted⟩ :=
      exists_adjusted (root.at?_locate edit.beforeRange) around found still
    have line := Range.line_adjustEnd splices starts stops fits room
    rw [← isAdjusted] at line
    refine ⟨corrected, reached, ?_, fun onLine => ?_⟩
    · rw [line]
      split <;> omega
    · rw [if_pos onLine] at line
      omega

end Node

/-- The answer for two lines with a name on each, the first of which owns the line feed. -/
def twoNamesOutput : ParseOutput where
  source := some "a\nb"
  tokens :=
    [⟨"NAME", ⟨⟨0, 0⟩, ⟨0, 1⟩⟩, "a"⟩, ⟨"NL", ⟨⟨0, 1⟩, ⟨0, 2⟩⟩, "\n"⟩,
      ⟨"NAME", ⟨⟨1, 0⟩, ⟨1, 1⟩⟩, "b"⟩]
  ast := some ⟨"Module", none, [⟨"Name", some ⟨0, 0⟩, []⟩, ⟨"Name", some ⟨1, 0⟩, []⟩]⟩

/-- A line break is put in after the first of two names. The line of that name goes along, as it
should, and that of the root would too if a third line followed. -/
theorem Node.repair_endLine_twoNames : ∃ root node edit,
    zipOutput {} twoNamesOutput = .ok (.tree root) ∧
      edit = EditDescriptor.replace "a\nb" ⟨⟨0, 1⟩, ⟨0, 1⟩⟩ "\n" ∧
      root.locate edit.beforeRange = [0] ∧ root.at? [0] = some node ∧
      ∃ corrected, (root.repair edit (edit.apply "a\nb")).1.at? [0] = some corrected ∧
        ((corrected.range.stop.line : Int) = node.range.stop.line + edit.deltaLine ↔
          edit.deltaLine = 0 ∨ edit.endLine ≠ node.range.stop.line) ∧
        (edit.endLine = node.range.stop.line →
          corrected.range.stop.line = node.range.stop.line) := by
  have isIn : Range.IsIn ⟨⟨0, 1⟩, ⟨0, 1⟩⟩ "a\nb".toList := ⟨by decide, by decide, by decide⟩
  obtain ⟨edit, made⟩ : ∃ edit, edit =
      EditDescriptor.replace "a\nb" ⟨⟨0, 1⟩, ⟨0, 1⟩⟩ "\n" := ⟨_, rfl⟩
  obtain ⟨root, node, zipped, path, found, fits, room⟩ : ∃ root node,
      zipOutput {} twoNamesOutput = .ok (.tree root) ∧ root.locate edit.beforeRange = [0] ∧
      root.at? [0] = some node ∧ node.range.stop.line ≤ maxCoordinate ∧
      node.range.stop.line + edit.deltaLine ≤ maxCoordinate := by
    rw [made]
    exact ⟨_, _, rfl, by decide +kernel, rfl, by decide +kernel, by decide +kernel⟩
  exact ⟨root, node, edit, zipped, made, path, found,
    repair_endLine root made isIn (path ▸ List.prefix_rfl) found (.inl nofun) fits room⟩

/-- **The end of the root stays behind**: with that line break the second name goes to the third
line, and the root, around the edit and one line longer by it, still ends on the second. -/
theorem Node.repair_endLine_stuck : ∃ root edit,
    zipOutput {} twoNamesOutput = .ok (.tree root) ∧
      edit = EditDescriptor.replace "a\nb" ⟨⟨0, 1⟩, ⟨0, 1⟩⟩ "\n" ∧
      Range.IsIn ⟨⟨0, 1⟩, ⟨0, 1⟩⟩ "a\nb".toList ∧
      (root.nodeAt edit.beforeRange).range.containsRange edit.beforeRange = true ∧
      edit.deltaLine = 1 ∧ root.range = ⟨⟨0, 0⟩, ⟨1, 1⟩⟩ ∧
      (root.repair edit (edit.apply "a\nb")).1.range = ⟨⟨0, 0⟩, ⟨1, 1⟩⟩ ∧
      ((root.repair edit (edit.apply "a\nb")).1.at? [1]).map Node.range =
        some ⟨⟨2, 0⟩, ⟨2, 1⟩⟩ := by
  refine ⟨_, _, rfl, rfl, ⟨by decide, by decide, by decide⟩, ?_, ?_, ?_, ?_, ?_⟩
  · decide +kernel
  · decide +kernel
  · decide +kernel
  · decide +kernel
  · decide +kernel

end CellSyntax
