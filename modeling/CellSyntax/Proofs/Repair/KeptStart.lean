/-
**Where the nodes around an edit start.**

An edit inside a node moves the node's end only, and the end should not come to lie before the
start. The rule for ends moves lines or columns, never both. So when an edit joins the last line of
a range to its first, the corrected end is on the first line and has the column of the old end. If
the range starts further right than that, the two ends change places, and the range starts where its
end was put.

* `EditDescriptor.FoldsBack`: the edits for which this happens;
* `Range.endAfter_lt_start_iff`: the corrected end lies before the start for these alone;
* `Node.repair_start`: where a node around an edit starts after a repair;
* `Node.repair_start_moved`: a node that a repair makes start in the text before it.
-/

import CellSyntax.Proofs.Repair.EnclosingLines
import CellSyntax.Proofs.Repair.SameLines

namespace CellSyntax

variable {edit : EditDescriptor} {before removed inserted : List Char} {range : Range}

/-- **The edit folds the range back**: it takes lines away so that the last line of the range
becomes its first, and the range ends in an earlier column than it starts in. -/
structure EditDescriptor.FoldsBack (edit : EditDescriptor) (range : Range) : Prop where
  shortens : edit.deltaLine < 0
  ontoFirst : edit.endLine = range.start.line
  fromLast : edit.stop.line = range.stop.line
  columns : range.stop.column < range.start.column

/-! ### The corrected end and the start -/

namespace Range

section Around

variable (splices : edit.Splices before removed inserted) (within : range.Within maxCoordinate)
  (starts : range.start ≤ edit.start) (stops : edit.stop ≤ range.stop)
include splices within starts stops

/-- Where the end moves by columns it stays after the start. -/
theorem start_le_endAfter_of_columns (onLine : edit.endLine = range.stop.line) :
    range.start ≤ edit.endAfter range.stop := by
  have ⟨⟨line, column⟩, ⟨line', column'⟩⟩ := within
  have ends := splices.endLine_eq_add
  have order := splices.start_le_stop
  have moved : edit.endAfter range.stop = range.stop.shifted 0 edit.deltaColumn := if_pos onLine
  rw [moved, Position.shifted, shiftCoordinate_zero line', Position.le_def]
  rw [Position.le_def] at starts order
  by_cases sameLine : range.start.line = range.stop.line
  · -- Then no line goes and the removed text lies on that line, where the edit keeps the order.
    have lowest := stops
    rw [Position.le_def] at lowest
    have keepsLines : edit.deltaLine = 0 := by omega
    have upTo := splices.start_le_moved keepsLines stops
    rw [EditDescriptor.moved, if_pos (by omega), Position.le_def] at upTo
    unfold shiftCoordinate
    simp only at upTo ⊢
    omega
  · simp only
    rw [Position.le_def] at stops
    omega

/-- Where the end moves by lines it comes before the start only if the edit folds the range back. -/
theorem endAfter_lt_start_of_lines (offLine : edit.endLine ≠ range.stop.line) :
    edit.endAfter range.stop < range.start ↔ edit.FoldsBack range := by
  have ⟨⟨line, column⟩, ⟨line', column'⟩⟩ := within
  have ends := splices.endLine_eq_add
  have order := splices.start_le_stop
  have firstLine := splices.start_line_le
  have moved : edit.endAfter range.stop = range.stop.shifted edit.deltaLine 0 := if_neg offLine
  rw [moved, Position.shifted, shiftCoordinate_zero column', shiftCoordinate, Position.lt_def]
  rw [Position.le_def] at starts stops order
  constructor
  · intro back
    simp only at back
    exact ⟨by omega, by omega, by omega, by omega⟩
  · rintro ⟨shortens, ontoFirst, fromLast, columns⟩
    simp only
    omega

/-- **The corrected end comes before the start exactly if the edit folds the range back.** -/
theorem endAfter_lt_start_iff :
    edit.endAfter range.stop < range.start ↔ edit.FoldsBack range := by
  by_cases onLine : edit.endLine = range.stop.line
  · have upTo := start_le_endAfter_of_columns splices within starts stops onLine
    have notFolded : ¬ edit.FoldsBack range := by
      rintro ⟨shortens, ontoFirst, fromLast, -⟩
      have ends := splices.endLine_eq_add
      omega
    exact iff_of_false (fun back => Position.lt_iff_not_le.1 back upTo) notFolded
  · exact endAfter_lt_start_of_lines splices within starts stops onLine

theorem start_le_endAfter (keeps : ¬ edit.FoldsBack range) :
    range.start ≤ edit.endAfter range.stop := by
  by_contra back
  rw [← Position.lt_iff_not_le, endAfter_lt_start_iff splices within starts stops] at back
  exact keeps back

theorem adjustEnd_of_not_foldsBack (keeps : ¬ edit.FoldsBack range) :
    range.adjustEnd edit.delta = ⟨range.start, edit.endAfter range.stop⟩ :=
  ofEnds_of_le (start_le_endAfter splices within starts stops keeps)

/-- A range that is folded back starts on its first line in the column where it ended, and ends
where it started. -/
theorem adjustEnd_of_foldsBack (folds : edit.FoldsBack range) :
    range.adjustEnd edit.delta = ⟨⟨range.start.line, range.stop.column⟩, range.start⟩ := by
  have back := (endAfter_lt_start_iff splices within starts stops).2 folds
  have swapped : range.adjustEnd edit.delta = ⟨edit.endAfter range.stop, range.start⟩ :=
    if_neg (Position.lt_iff_not_le.1 back)
  have ends := splices.endLine_eq_add
  have offLine : ¬ edit.endLine = range.stop.line := by
    have := folds.shortens
    have := folds.fromLast
    omega
  have moved : edit.endAfter range.stop = range.stop.shifted edit.deltaLine 0 := if_neg offLine
  have line : shiftCoordinate range.stop.line edit.deltaLine = range.start.line := by
    have := folds.ontoFirst
    have := folds.fromLast
    have := within.start.line
    rw [shiftCoordinate]
    omega
  rw [swapped, moved, Position.shifted, line, shiftCoordinate_zero within.stop.column]

end Around

/-- A correction by nothing changes nothing. -/
theorem adjustEnd_of_isZero {delta : Delta} (still : delta.isZero = true)
    (within : range.Within maxCoordinate) (ordered : range.Ordered) :
    range.adjustEnd delta = range := by
  obtain ⟨line, column⟩ := Bool.and_eq_true_iff.1 still
  have stays : range.stop.shifted 0 0 = range.stop :=
    Position.shifted_zero ⟨within.stop.line, within.stop.column⟩
  rw [adjustEnd, beq_iff_eq.1 line, beq_iff_eq.1 column, stays, ite_self]
  exact ofEnds_of_le ordered

end Range

/-! ### Repaired nodes -/

namespace Node

variable {root node : Node} {path : Path} {text replacement : String}

/-- **A node around an edit has its end corrected by a repair**, and contains the edit before it.
The root is left out unless it contains the edit. -/
theorem exists_repaired (root : Node) (made : edit = .replace text range replacement)
    (isIn : range.IsIn text.toList) (around : path <+: root.locate edit.beforeRange)
    (found : root.at? path = some node)
    (contains : path ≠ [] ∨ node.range.containsRange edit.beforeRange = true)
    (within : node.range.Within maxCoordinate) :
    ∃ before removed corrected, edit.Splices before removed replacement.toList ∧
      node.range.start ≤ edit.start ∧ edit.stop ≤ node.range.stop ∧
      (root.repair edit (edit.apply text)).1.at? path = some corrected ∧
      corrected.range = node.range.adjustEnd edit.delta := by
  obtain ⟨before, removed, after, splices, -, -⟩ := EditDescriptor.Splices.exists_parts made isIn
  have covers : node.range.containsRange edit.beforeRange = true :=
    contains.elim (fun below => (root.reaches_nodeAt _).contains around below found) id
  have ends : edit.beforeRange = ⟨edit.start, edit.stop⟩ := Range.ofEnds_of_le splices.start_le_stop
  rw [ends] at covers
  obtain ⟨starts, stops⟩ := Range.containsRange_iff.1 covers
  by_cases still : edit.delta.isZero = true
  · have ordered : node.range.Ordered :=
      Position.le_trans starts (Position.le_trans splices.start_le_stop stops)
    refine ⟨before, removed, node, splices, starts, stops, ?_,
      (Range.adjustEnd_of_isZero still within ordered).symm⟩
    rw [repair]
    simp only
    rw [propagate_zero still]
    exact found
  · obtain ⟨corrected, reached, adjusted⟩ :=
      exists_adjusted (root.at?_locate edit.beforeRange) around found still
    exact ⟨before, removed, corrected, splices, starts, stops, reached, adjusted⟩

/-- **Where the nodes around an edit start.** After a replacement between two positions of the text,
take the located node or a node around it; the root is left out unless it contains the edit, which
all others do. Its start is the old one exactly if the edit does not fold its range back, and its
end is not before the old start in any case. If the edit does fold the range back then the old start
is the new end. -/
theorem repair_start (root : Node) (made : edit = .replace text range replacement)
    (isIn : range.IsIn text.toList) (around : path <+: root.locate edit.beforeRange)
    (found : root.at? path = some node)
    (contains : path ≠ [] ∨ node.range.containsRange edit.beforeRange = true)
    (within : node.range.Within maxCoordinate) :
    ∃ corrected, (root.repair edit (edit.apply text)).1.at? path = some corrected ∧
      (corrected.range.start = node.range.start ↔ ¬ edit.FoldsBack node.range) ∧
      node.range.start ≤ corrected.range.stop ∧
      (edit.FoldsBack node.range →
        corrected.range = ⟨⟨node.range.start.line, node.range.stop.column⟩, node.range.start⟩) := by
  obtain ⟨before, removed, corrected, splices, starts, stops, reached, adjusted⟩ :=
    exists_repaired root made isIn around found contains within
  refine ⟨corrected, reached, ?_⟩
  rw [adjusted]
  by_cases folds : edit.FoldsBack node.range
  · rw [Range.adjustEnd_of_foldsBack splices within starts stops folds]
    have different : (⟨node.range.start.line, node.range.stop.column⟩ : Position) ≠
        node.range.start := by
      intro same
      have columns := folds.columns
      rw [← same] at columns
      exact Nat.lt_irrefl _ columns
    exact ⟨iff_of_false different (not_not_intro folds), Position.le_refl _, fun _ => rfl⟩
  · rw [Range.adjustEnd_of_not_foldsBack splices within starts stops folds]
    have upTo := Range.start_le_endAfter splices within starts stops folds
    exact ⟨iff_of_true rfl folds, upTo, fun back => absurd back folds⟩

/-- The answer for an assignment whose value is an empty tuple, written over two lines. -/
def emptyTupleOutput : ParseOutput where
  source := some "x=(\n)"
  tokens :=
    [⟨"NAME", ⟨⟨0, 0⟩, ⟨0, 1⟩⟩, "x"⟩, ⟨"OP", ⟨⟨0, 1⟩, ⟨0, 2⟩⟩, "="⟩,
      ⟨"OP", ⟨⟨0, 2⟩, ⟨0, 3⟩⟩, "("⟩, ⟨"NL", ⟨⟨0, 3⟩, ⟨0, 4⟩⟩, "\n"⟩,
      ⟨"OP", ⟨⟨1, 0⟩, ⟨1, 1⟩⟩, ")"⟩]
  ast := some ⟨"Module", none,
    [⟨"Assign", some ⟨0, 0⟩, [⟨"Name", some ⟨0, 0⟩, []⟩, ⟨"Tuple", some ⟨0, 2⟩, []⟩]⟩]⟩

/-- The line break between the parentheses is taken out. The assignment keeps its start. -/
theorem repair_start_emptyTuple : ∃ root node edit,
    zipOutput {} emptyTupleOutput = .ok (.tree root) ∧
      edit = EditDescriptor.replace "x=(\n)" ⟨⟨0, 3⟩, ⟨1, 0⟩⟩ "" ∧
      root.locate edit.beforeRange = [0, 1] ∧ root.at? [0] = some node ∧
      ¬ edit.FoldsBack node.range ∧
      ∃ corrected, (root.repair edit (edit.apply "x=(\n)")).1.at? [0] = some corrected ∧
        (corrected.range.start = node.range.start ↔ ¬ edit.FoldsBack node.range) ∧
        node.range.start ≤ corrected.range.stop ∧
        (edit.FoldsBack node.range →
          corrected.range =
            ⟨⟨node.range.start.line, node.range.stop.column⟩, node.range.start⟩) := by
  have isIn : Range.IsIn ⟨⟨0, 3⟩, ⟨1, 0⟩⟩ "x=(\n)".toList := ⟨by decide, by decide, by decide⟩
  obtain ⟨edit, made⟩ : ∃ edit, edit =
      EditDescriptor.replace "x=(\n)" ⟨⟨0, 3⟩, ⟨1, 0⟩⟩ "" := ⟨_, rfl⟩
  obtain ⟨root, node, zipped, path, found, within, forward⟩ : ∃ root node,
      zipOutput {} emptyTupleOutput = .ok (.tree root) ∧ root.locate edit.beforeRange = [0, 1] ∧
      root.at? [0] = some node ∧ node.range.Within maxCoordinate ∧
      node.range.start.column ≤ node.range.stop.column := by
    rw [made]
    exact ⟨_, _, rfl, by decide +kernel, rfl, by decide +kernel, by decide +kernel⟩
  have keeps : ¬ edit.FoldsBack node.range := fun folds => Nat.not_lt.2 forward folds.columns
  have around : [0] <+: root.locate edit.beforeRange := path ▸ List.prefix_append [0] [1]
  exact ⟨root, node, edit, zipped, made, path, found, keeps,
    repair_start root made isIn around found (.inl nofun) within⟩

/-- **The start of a node moves**: with the line break taken out, the tuple that it was in starts in
the column where it ended, one before its own, and the text handed back is not in the tuple. -/
theorem repair_start_moved : ∃ root edit,
    zipOutput {} emptyTupleOutput = .ok (.tree root) ∧
      edit = EditDescriptor.replace "x=(\n)" ⟨⟨0, 3⟩, ⟨1, 0⟩⟩ "" ∧
      Range.IsIn ⟨⟨0, 3⟩, ⟨1, 0⟩⟩ "x=(\n)".toList ∧
      root.locate edit.beforeRange = [0, 1] ∧
      (root.nodeAt edit.beforeRange).range = ⟨⟨0, 2⟩, ⟨1, 1⟩⟩ ∧
      (root.nodeAt edit.beforeRange).range.containsRange edit.beforeRange = true ∧
      edit.apply "x=(\n)" = "x=()" ∧
      (root.repair edit (edit.apply "x=(\n)")).2.range = ⟨⟨0, 1⟩, ⟨0, 2⟩⟩ ∧
      (root.repair edit (edit.apply "x=(\n)")).2.text = "=" := by
  exact ⟨_, _, rfl, rfl, ⟨by decide, by decide, by decide⟩, by decide +kernel⟩

end Node

end CellSyntax
