/-
**Trees whose lines are in order.**

After edits a node need not cover its children any more. What stays is that no node ends on a later
line than one that comes after it starts on, and this is enough to say which column shift is in force
for a following subtree: the subtrees before it start on lines between that of the edit and its own.

* `Node.following_ordered`: the list of the following subtrees is in document order;
* `Node.linesInOrder`: lines are in order if siblings are and nodes cover their children;
* `Node.column_by_line`: the column shift in force for a subtree, by its own start;
* `Node.siblingsInOrder_of_apart`: the order of siblings, by their paths.
-/

import CellSyntax.Proofs.Propagate.FollowingOrder

namespace CellSyntax.Node

variable {root node located subtree : Node} {path top : Path} {place : Nat} {delta : Delta}

/-- **The following subtrees are listed in document order.** -/
theorem following_ordered (valid : (root.at? path).isSome) :
    (root.following path).Pairwise fun first second => first.1.Precedes second.1 := by
  induction path generalizing root with
  | nil => exact .nil
  | cons index path ih =>
    obtain ⟨located, reached⟩ := Option.isSome_iff_exists.1 valid
    obtain ⟨child, isChild, below⟩ := at?_cons.1 reached
    have laterPath {found : Path × Node} {further : Nat}
        (spot : (root.laterChildren index)[further]? = some found) :
        found.1 = [index + 1 + further] := by
      rw [getElem?_laterChildren] at spot
      obtain ⟨sibling, -, rfl⟩ := Option.map_eq_some_iff.1 spot
      rfl
    rw [following_cons isChild]
    refine List.pairwise_append.2
      ⟨List.pairwise_map.2 ?_, ?_, fun first isFirst second isSecond => ?_⟩
    · exact (ih (Option.isSome_iff_exists.2 ⟨located, below⟩)).imp fun before => before.cons index
    · refine List.pairwise_iff_getElem.2 fun i j inside inside' less => ?_
      rw [laterPath (List.getElem?_eq_getElem inside), laterPath (List.getElem?_eq_getElem inside')]
      exact Path.precedes_of_lt (by omega)
    · obtain ⟨inner, -, rfl⟩ := List.mem_map.1 isFirst
      obtain ⟨further, spot⟩ := List.mem_iff_getElem?.1 isSecond
      rw [laterPath spot]
      exact Path.precedes_of_lt (by omega)

/-- **Lines in order**: no node ends on a later line than one that comes after it starts on. -/
def LinesInOrder (root : Node) : Prop :=
  ∀ first second node node', first.Precedes second → root.at? first = some node →
    root.at? second = some node' → node.range.stop.line ≤ node'.range.start.line

/-- Lines are in order if siblings are and every node covers its children. -/
theorem linesInOrder (siblings : root.SiblingsInOrder) (nested : root.Nested) :
    root.LinesInOrder := by
  rintro first second node node' ⟨above, i, j, less, ⟨inner, rfl⟩, ⟨inner', rfl⟩⟩ found found'
  obtain ⟨left, isLeft, belowLeft⟩ := at?_append_eq_some_iff.1 found
  obtain ⟨right, isRight, belowRight⟩ := at?_append_eq_some_iff.1 found'
  obtain ⟨parent, isParent, isChild⟩ := exists_parent isLeft
  rw [at?_concat isParent] at isRight
  have apart := (siblings.at? isParent).apart less isChild isRight
  have inLeft := ((nested.at? isLeft).covers belowLeft).2
  have inRight := ((nested.at? (at?_concat isParent j ▸ isRight)).covers belowRight).1
  have order := Position.le_trans inLeft (Position.le_trans apart inRight)
  rw [Position.le_def] at order
  omega

namespace LinesInOrder

variable (lines : root.LinesInOrder) (siblings : root.SiblingsInOrder)
  (found : root.at? path = some located)
include lines found

/-- A node that comes after another one starts on the line where that one ends or further down. -/
theorem after_located {other : Path} (after : path.Precedes other)
    (isNode : root.at? other = some node) : located.range.stop.line ≤ node.range.start.line :=
  lines path other located node after found isNode

include siblings

/-- **The column shift in force for a following subtree, by its own start**: that of the edit on the
line that the removed text ends on, and nothing further down. -/
theorem column_by_line {line : Nat} (ends : line ≤ located.range.stop.line)
    (onEndLine : ∀ range ∈ root.followingRanges path, line ≤ range.start.line →
      (Carry.OnEndLine delta range ↔ range.start.line = line))
    (listed : (root.following path)[place]? = some (top, subtree)) :
    ((Carry.start delta).along delta ((root.followingRanges path).take (place + 1))).column =
      if subtree.range.start.line = line then delta.column else 0 := by
  have valid : (root.at? path).isSome := Option.isSome_iff_exists.2 ⟨located, found⟩
  have spot : (root.followingRanges path)[place]? = some subtree.range := by
    rw [followingRanges, List.getElem?_map, listed]
    rfl
  have notBefore : ∀ range ∈ root.followingRanges path, line ≤ range.start.line := by
    intro range member
    obtain ⟨⟨other, node⟩, inList, rfl⟩ := List.mem_map.1 member
    obtain ⟨follows, isNode⟩ := (mem_following_iff valid).1 inList
    exact Nat.le_trans ends (lines.after_located found follows.precedes isNode)
  refine Carry.column_take spot (fun range member => onEndLine range member (notBefore range member))
    notBefore fun range member => ?_
  obtain ⟨number, inTake⟩ := List.mem_iff_getElem?.1 member
  rw [List.getElem?_take] at inTake
  split at inTake
  · rename_i upTo
    rw [followingRanges, List.getElem?_map] at inTake
    obtain ⟨⟨other, node⟩, isListed, rfl⟩ := Option.map_eq_some_iff.1 inTake
    obtain ⟨follows, isNode⟩ := (mem_following_iff valid).1 (List.mem_of_getElem? isListed)
    rcases Nat.lt_or_eq_of_le (Nat.le_of_lt_succ upTo) with less | rfl
    · have isTop := ((mem_following_iff valid).1 (List.mem_of_getElem? listed)).2
      obtain ⟨inside, first⟩ := List.getElem?_eq_some_iff.1 isListed
      obtain ⟨inside', second⟩ := List.getElem?_eq_some_iff.1 listed
      have before := List.pairwise_iff_getElem.1 (following_ordered valid) _ _ inside inside' less
      rw [first, second] at before
      have ordered := siblings.ordered_at follows.ne_nil isNode
      have apart := lines other top node subtree before isNode isTop
      rw [Range.Ordered, Position.le_def] at ordered
      simp only
      omega
    · rw [isListed] at listed
      cases listed
      exact Nat.le_refl _
  · cases inTake

end LinesInOrder

/-- **Siblings are in order** if no node below the root ends before it starts, and of two siblings
the first ends where the second starts or before. -/
theorem siblingsInOrder_of_apart
    (ordered : ∀ path node, path ≠ [] → root.at? path = some node → node.range.Ordered)
    (apart : ∀ above i j first second, i < j → root.at? (above ++ [i]) = some first →
      root.at? (above ++ [j]) = some second → first.range.stop ≤ second.range.start) :
    root.SiblingsInOrder := by
  intro path node found
  refine Range.inOrder_of_apart (fun range member => ?_) (List.pairwise_map.2 ?_)
  · obtain ⟨child, isChild, rfl⟩ := List.mem_map.1 member
    obtain ⟨index, spot⟩ := List.mem_iff_getElem?.1 isChild
    refine ordered (path ++ [index]) child
      (List.append_ne_nil_of_right_ne_nil _ (List.cons_ne_nil _ _)) ?_
    rw [at?_concat found]
    exact spot
  · refine List.pairwise_iff_getElem.2 fun i j inside inside' less => ?_
    refine apart path i j _ _ less ?_ ?_
    · rw [at?_concat found]
      exact List.getElem?_eq_getElem inside
    · rw [at?_concat found]
      exact List.getElem?_eq_getElem inside'

end CellSyntax.Node
