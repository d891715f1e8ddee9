/-
**The subtrees that follow a node, in order.**

If siblings are in order and nodes cover their children, then the subtrees that follow a node come
one after the other, the first of them after the node. So if one of them starts on the line that an
edit in the node ends on, all those before it do.

* `Node.following_apart`: the node and the subtrees that follow it are apart;
* `Node.column_in_force`: the column shift in force for a subtree, by its own start.
-/

import CellSyntax.Proofs.Propagate.ClosedForm
import CellSyntax.Proofs.Tree.Nesting

namespace CellSyntax.Node

variable {root node subtree : Node} {path top : Path} {place : Nat} {delta : Delta}

theorem ordered_of_mem_following (siblings : root.SiblingsInOrder)
    (found : root.at? path = some node) {range : Range}
    (member : range ∈ root.followingRanges path) : range.Ordered := by
  obtain ⟨⟨top, subtree⟩, listed, rfl⟩ := List.mem_map.1 member
  have valid : (root.at? path).isSome := Option.isSome_iff_exists.2 ⟨node, found⟩
  obtain ⟨⟨above, i, j, -, -, rfl⟩, reached⟩ := (mem_following_iff valid).1 listed
  exact siblings.ordered_at (List.append_ne_nil_of_right_ne_nil _ (List.cons_ne_nil _ _)) reached

/-- A subtree that follows a node inside another one ends where that one does or earlier. -/
theorem stop_le_of_mem_following (nested : root.Nested) (found : root.at? path = some node)
    {range : Range} (member : range ∈ node.range :: root.followingRanges path) :
    range.stop ≤ root.range.stop := by
  rcases List.mem_cons.1 member with rfl | later
  · exact (nested.covers found).2
  · obtain ⟨⟨top, subtree⟩, listed, rfl⟩ := List.mem_map.1 later
    have valid : (root.at? path).isSome := Option.isSome_iff_exists.2 ⟨node, found⟩
    exact (nested.covers ((mem_following_iff valid).1 listed).2).2

/-- **A node and the subtrees that follow it are apart.** -/
theorem following_apart (siblings : root.SiblingsInOrder) (nested : root.Nested)
    (found : root.at? path = some node) :
    (node.range :: root.followingRanges path).Pairwise
      fun first second => first.stop ≤ second.start := by
  induction path generalizing root with
  | nil => exact List.pairwise_singleton _ _
  | cons index path ih =>
    obtain ⟨child, isChild, below⟩ := at?_cons.1 found
    rw [followingRanges_cons isChild, ← List.cons_append]
    refine List.pairwise_append.2 ⟨ih (siblings.of_child isChild) (nested.of_child isChild) below,
      (siblings [] root rfl).apart.sublist ((List.drop_sublist _ _).map _),
      fun inner isInner later isLater => ?_⟩
    -- Between the two lies the end of the child that the first of them is in.
    obtain ⟨sibling, isSibling, rfl⟩ := List.mem_map.1 isLater
    obtain ⟨further, spot⟩ := List.mem_iff_getElem?.1 isSibling
    rw [List.getElem?_drop] at spot
    exact Position.le_trans (stop_le_of_mem_following (nested.of_child isChild) below isInner)
      (siblings.apart (by omega) isChild spot)

/-- No subtree starts before an earlier one in the list. -/
theorem following_start_le (siblings : root.SiblingsInOrder) (nested : root.Nested)
    (found : root.at? path = some node) {first second : Range}
    (isSecond : (root.followingRanges path)[place]? = some second)
    (isFirst : first ∈ (root.followingRanges path).take (place + 1)) :
    first.start ≤ second.start := by
  have pairs := (List.pairwise_cons.1 (following_apart siblings nested found)).2
  have ordered := ordered_of_mem_following siblings found ((List.take_subset _ _) isFirst)
  obtain ⟨number, spot⟩ := List.mem_iff_getElem?.1 isFirst
  rw [List.getElem?_take] at spot
  split at spot
  · rename_i upTo
    rcases Nat.lt_or_eq_of_le (Nat.le_of_lt_succ upTo) with less | rfl
    · obtain ⟨inside, rfl⟩ := List.getElem?_eq_some_iff.1 spot
      obtain ⟨inside', rfl⟩ := List.getElem?_eq_some_iff.1 isSecond
      exact Position.le_trans ordered (List.pairwise_iff_getElem.1 pairs _ _ inside inside' less)
    · rw [spot] at isSecond
      cases isSecond
      exact Position.le_refl _
  · cases spot

/-- **The column shift in force for a subtree, by its own start**, if no line moves: that of the
edit on the line that the edit ends on, and nothing below. -/
theorem column_in_force (siblings : root.SiblingsInOrder) (nested : root.Nested)
    (found : root.at? path = some node)
    (listed : (root.following path)[place]? = some (top, subtree))
    (keepsLines : delta.line = 0) (ends : delta.endLine ≤ node.range.stop.line)
    (inRange : ∀ range ∈ root.followingRanges path, range.start.line ≤ maxCoordinate) :
    ((Carry.start delta).along delta ((root.followingRanges path).take (place + 1))).column =
      if subtree.range.start.line = delta.endLine then delta.column else 0 := by
  have last : (root.followingRanges path)[place]? = some subtree.range := by
    rw [followingRanges, List.getElem?_map, listed]
    rfl
  refine Carry.column_take last (fun range member => ?_) (fun range member => ?_)
    fun range member => ?_
  · rw [Carry.OnEndLine, keepsLines, shiftCoordinate_zero (inRange range member)]
  · have after := (List.pairwise_cons.1 (following_apart siblings nested found)).1 range member
    rw [Position.le_def] at after
    omega
  · have before := following_start_le siblings nested found last member
    rw [Position.le_def] at before
    omega

end CellSyntax.Node
