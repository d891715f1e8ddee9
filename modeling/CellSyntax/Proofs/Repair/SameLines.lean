/-
**Ranges after an edit that keeps the number of lines.**

Such an edit moves only the columns of one line, the one that the removed text ends on, and of it
only what lies after the removed text. The correction of a tree finds these positions again: the end
of a node around the edit is moved by the column shift if it is on that line, and a following
subtree that starts on that line has the columns of its one-line ranges moved. Only what starts on a
later line inside such a subtree is moved where nothing moves.

* `Range.adjustEnd_eq`, `Range.shifted_eq`: corrected ranges, by the position map of the edit;
* `Node.range_around`, `Node.range_after`: corrected ranges of the nodes around and after an edit.
-/

import CellSyntax.Proofs.Edit.PositionMap
import CellSyntax.Proofs.Propagate.FollowingOrder

namespace CellSyntax

/-! ### Positions -/

/-- Both coordinates are at most the largest that moving a position yields. -/
def Position.Fits (position : Position) : Prop :=
  position.line ≤ maxCoordinate ∧ position.column ≤ maxCoordinate

instance (position : Position) : Decidable position.Fits := inferInstanceAs (Decidable (_ ∧ _))

theorem Position.shifted_zero {position : Position} (fits : position.Fits) :
    position.shifted 0 0 = position := by
  rw [shifted, shiftCoordinate_zero fits.1, shiftCoordinate_zero fits.2]

namespace EditDescriptor

variable {edit : EditDescriptor} {position : Position}

/-- On the line that moves, moving by the column shift is the position map. -/
theorem shifted_eq_moved (onLine : position.line = edit.stop.line)
    (fits : (edit.moved position).Fits) :
    position.shifted 0 edit.deltaColumn = edit.moved position := by
  have line := fits.1
  have column := fits.2
  rw [moved_line] at line
  rw [moved, if_pos onLine] at column ⊢
  rw [Position.shifted, shiftCoordinate_zero line, shiftCoordinate, Nat.min_eq_left column]

theorem moved_of_deltaColumn_eq_zero (none : edit.deltaColumn = 0) (position : Position) :
    edit.moved position = position := by
  unfold moved
  split
  · rw [none, Int.add_zero, Int.toNat_natCast]
  · rfl

/-- Where no shift of the edit goes past the largest coordinate: the position itself does not, nor
does what it moves to. -/
structure Unsaturated (edit : EditDescriptor) (position : Position) : Prop where
  here : position.Fits
  moved : edit.stop ≤ position → (edit.moved position).Fits

instance (edit : EditDescriptor) (position : Position) : Decidable (edit.Unsaturated position) :=
  decidable_of_iff (position.Fits ∧ (edit.stop ≤ position → (edit.moved position).Fits))
    ⟨fun both => ⟨both.1, both.2⟩, fun fits => ⟨fits.here, fits.moved⟩⟩

end EditDescriptor

/-! ### Ranges -/

theorem Range.isSingleLine_iff {range : Range} :
    range.isSingleLine = true ↔ range.start.line = range.stop.line :=
  beq_iff_eq

section Ranges

variable {edit : EditDescriptor} {before removed inserted : List Char} {range : Range}
  (splices : edit.Splices before removed inserted) (keepsLines : edit.deltaLine = 0)
include splices keepsLines

/-- **A range around the edit keeps its start, and its end is mapped.** -/
theorem Range.adjustEnd_eq (starts : range.start ≤ edit.start) (stops : edit.stop ≤ range.stop)
    (unsaturated : edit.Unsaturated range.stop) :
    range.adjustEnd edit.delta = ⟨range.start, edit.moved range.stop⟩ := by
  have fits := unsaturated.moved stops
  have stop : (if edit.delta.endLine = range.stop.line then range.stop.shifted 0 edit.delta.column
      else range.stop.shifted edit.delta.line 0) = edit.moved range.stop := by
    rw [EditDescriptor.delta]
    simp only
    rw [keepsLines, splices.endLine_eq_stop keepsLines]
    split
    · rename_i onLine
      exact EditDescriptor.shifted_eq_moved onLine.symm fits
    · rename_i offLine
      rw [EditDescriptor.moved_of_line_ne (Ne.symm offLine)]
      exact Position.shifted_zero unsaturated.here
  rw [Range.adjustEnd, stop]
  exact Range.ofEnds_of_le (Position.le_trans starts (splices.start_le_moved keepsLines stops))

/-- **A range after the edit that starts on the line that moves has both ends mapped.** -/
theorem Range.shifted_eq (after : edit.stop ≤ range.start) (ordered : range.Ordered)
    (onLine : range.start.line = edit.stop.line) (startFits : edit.Unsaturated range.start)
    (stopFits : edit.Unsaturated range.stop) :
    range.shifted 0 edit.deltaColumn = ⟨edit.moved range.start, edit.moved range.stop⟩ := by
  have stop : (⟨shiftCoordinate range.stop.line 0,
      if range.isSingleLine then shiftCoordinate range.stop.column edit.deltaColumn
      else range.stop.column⟩ : Position) = edit.moved range.stop := by
    by_cases single : range.start.line = range.stop.line
    · rw [if_pos (Range.isSingleLine_iff.2 single)]
      exact EditDescriptor.shifted_eq_moved (single.symm.trans onLine)
        (stopFits.moved (Position.le_trans after ordered))
    · rw [if_neg (mt Range.isSingleLine_iff.1 single), shiftCoordinate_zero stopFits.here.1,
        EditDescriptor.moved_of_line_ne (fun same => single (onLine.trans same.symm))]
  rw [Range.shifted, stop, EditDescriptor.shifted_eq_moved onLine (startFits.moved after)]
  exact Range.ofEnds_of_le (splices.moved_mono keepsLines after ordered)

end Ranges

/-! ### Nodes -/

namespace Node

/-- No shift of the edit goes past the largest coordinate at the ends of a node; the nodes below the
one at `path` are left out, as none of them is shifted. -/
def Unsaturated (root : Node) (edit : EditDescriptor) (path : Path) : Prop :=
  ∀ other node, root.at? other = some node → (path <+: other → other = path) →
    edit.Unsaturated node.range.start ∧ edit.Unsaturated node.range.stop

section

variable {root node located subtree : Node} {path other top : Path}
  {edit : EditDescriptor} {before removed inserted : List Char}
  (splices : edit.Splices before removed inserted) (keepsLines : edit.deltaLine = 0)
  (found : root.at? path = some located) (unsaturated : root.Unsaturated edit path)

/-- A subtree that follows the edit is not in the located node, so none of its nodes is left out. -/
theorem Unsaturated.of_follows (unsaturated : root.Unsaturated edit path)
    (follows : top.Follows path) (inside : top <+: other) (isNode : root.at? other = some node) :
    edit.Unsaturated node.range.start ∧ edit.Unsaturated node.range.stop :=
  unsaturated other node isNode fun below =>
    absurd below (Path.precedes_iff.2 ⟨top, follows, inside⟩).not_inside

theorem Unsaturated.followingRanges_fit (unsaturated : root.Unsaturated edit path)
    (valid : (root.at? path).isSome) :
    ∀ range ∈ root.followingRanges path, range.start.line ≤ maxCoordinate := by
  intro range member
  obtain ⟨⟨top, subtree⟩, listed, rfl⟩ := List.mem_map.1 member
  obtain ⟨follows, isTop⟩ := (mem_following_iff valid).1 listed
  exact (unsaturated.of_follows follows List.prefix_rfl isTop).1.here.1

theorem deltaColumn_of_isZero (still : edit.delta.isZero = true) : edit.deltaColumn = 0 :=
  (beq_iff_eq.1 (Bool.and_eq_true_iff.1 still).2)

include splices keepsLines

/-- **Moving a subtree that follows the edit maps both ends of a node in it**, unless the node starts
on a later line and the subtree on the line that moves. -/
theorem range_follow (isNode : subtree.at? other = some node)
    (within : subtree.range.start ≤ node.range.start) (after : edit.stop ≤ subtree.range.start)
    (ordered : node.range.Ordered)
    (early : subtree.range.start.line = edit.stop.line → node.range.start.line ≤ edit.stop.line)
    (startFits : edit.Unsaturated node.range.start) (stopFits : edit.Unsaturated node.range.stop) :
    ∃ corrected, (subtree.follow edit.delta
        (if subtree.range.start.line = edit.stop.line then edit.deltaColumn else 0)).at? other =
          some corrected ∧
      corrected.kind = node.kind ∧
      corrected.range = ⟨edit.moved node.range.start, edit.moved node.range.stop⟩ := by
  have nodeAfter := Position.le_trans after within
  by_cases onLine : subtree.range.start.line = edit.stop.line
  · rw [if_pos onLine]
    by_cases still : edit.deltaColumn = 0
    · rw [follow, if_pos ⟨keepsLines, still⟩, EditDescriptor.moved_of_deltaColumn_eq_zero still,
        EditDescriptor.moved_of_deltaColumn_eq_zero still]
      exact ⟨node, isNode, rfl, rfl⟩
    · have lineKept : edit.delta.line = 0 := keepsLines
      have nodeLine : node.range.start.line = edit.stop.line := by
        have upTo := early onLine
        rw [Position.le_def] at nodeAfter
        omega
      rw [follow, if_neg (fun both => still both.2), lineKept, at?_shifted, isNode]
      exact ⟨_, rfl, rfl,
        Range.shifted_eq splices keepsLines nodeAfter ordered nodeLine startFits stopFits⟩
  · have below : edit.stop.line < node.range.start.line ∧
        edit.stop.line < node.range.stop.line := by
      rw [Range.Ordered] at ordered
      rw [Position.le_def] at after within ordered
      omega
    rw [if_neg onLine, follow, if_pos ⟨keepsLines, rfl⟩,
      EditDescriptor.moved_of_line_ne (Nat.ne_of_gt below.1),
      EditDescriptor.moved_of_line_ne (Nat.ne_of_gt below.2)]
    exact ⟨node, isNode, rfl, rfl⟩

include found

/-- **The nodes around the edit keep their start and have their end mapped.** -/
theorem range_around (around : other <+: path) (isNode : root.at? other = some node)
    (starts : node.range.start ≤ edit.start) (stops : edit.stop ≤ node.range.stop)
    (fits : edit.Unsaturated node.range.stop) :
    ∃ corrected, (root.propagate edit.delta path).at? other = some corrected ∧
      corrected.kind = node.kind ∧
      corrected.range = ⟨node.range.start, edit.moved node.range.stop⟩ := by
  by_cases still : edit.delta.isZero = true
  · rw [propagate_zero still,
      EditDescriptor.moved_of_deltaColumn_eq_zero (deltaColumn_of_isZero still)]
    exact ⟨node, isNode, rfl, rfl⟩
  · obtain ⟨rest, rfl⟩ := around
    have valid : (node.at? rest).isSome := by
      rw [at?_append_of_at? isNode] at found
      exact Option.isSome_iff_exists.2 ⟨located, found⟩
    obtain ⟨range, kind⟩ := propagateFrom_range edit.delta valid
    rw [propagate_of_ne_zero still]
    refine ⟨_, at?_propagateFrom isNode rest, kind, ?_⟩
    rw [range]
    exact Range.adjustEnd_eq splices keepsLines starts stops fits

include unsaturated

/-- **The nodes after the edit have both ends mapped**, unless they start on a later line in a
subtree that starts on the line that moves. -/
theorem range_after (siblings : root.SiblingsInOrder) (nested : root.Nested)
    (stops : edit.stop ≤ located.range.stop) (follows : top.Follows path)
    (isTop : root.at? top = some subtree) (inside : top <+: other)
    (isNode : root.at? other = some node)
    (early : subtree.range.start.line = edit.stop.line →
      node.range.start.line ≤ edit.stop.line) :
    ∃ corrected, (root.propagate edit.delta path).at? other = some corrected ∧
      corrected.kind = node.kind ∧
      corrected.range = ⟨edit.moved node.range.start, edit.moved node.range.stop⟩ := by
  have valid : (root.at? path).isSome := Option.isSome_iff_exists.2 ⟨located, found⟩
  have listed := (mem_following_iff valid).2 ⟨follows, isTop⟩
  by_cases still : edit.delta.isZero = true
  · have none := deltaColumn_of_isZero still
    rw [propagate_zero still, EditDescriptor.moved_of_deltaColumn_eq_zero none,
      EditDescriptor.moved_of_deltaColumn_eq_zero none]
    exact ⟨node, isNode, rfl, rfl⟩
  · obtain ⟨place, spot⟩ := List.mem_iff_getElem?.1 listed
    have endLine : edit.delta.endLine = edit.stop.line := splices.endLine_eq_stop keepsLines
    have ends : edit.delta.endLine ≤ located.range.stop.line := by
      rw [Position.le_def] at stops
      omega
    have after : edit.stop ≤ subtree.range.start := Position.le_trans stops
      ((List.pairwise_cons.1 (following_apart siblings nested found)).1 _
        (List.mem_map_of_mem listed))
    have ordered : node.range.Ordered := by
      refine siblings.ordered_at (fun isRoot => follows.ne_nil ?_) isNode
      exact List.prefix_nil.1 (isRoot ▸ inside)
    obtain ⟨startFits, stopFits⟩ := unsaturated.of_follows follows inside isNode
    have moved := at?_propagateFrom_following edit.delta valid spot
    rw [column_in_force siblings nested found spot keepsLines ends
      (unsaturated.followingRanges_fit valid), endLine] at moved
    obtain ⟨rest, rfl⟩ := inside
    rw [at?_append_of_at? isTop] at isNode
    rw [propagate_of_ne_zero still, at?_append_of_at? moved]
    exact range_follow splices keepsLines isNode ((nested.at? isTop).covers isNode).1 after ordered
      early startFits stopFits

end

end Node

end CellSyntax
