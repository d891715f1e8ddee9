/-
**Trees whose ranges are in order.**

The ranges of siblings are in order, or every node covers its children: both are conditions on all
levels of a tree, so they go over from a tree to each of its subtrees.

* `Node.SiblingsInOrder.apart`: of two siblings, the first ends before the second starts;
* `Node.Nested.covers`: a node covers every node of its subtree.
-/

import CellSyntax.Proofs.Range.InOrder
import CellSyntax.Proofs.Tree.DocumentOrder

namespace CellSyntax.Node

variable {root node child : Node} {path : Path} {index : Nat}

/-- **The ranges of siblings are in order**, at every level. -/
def SiblingsInOrder (root : Node) : Prop :=
  ∀ path node, root.at? path = some node → Range.InOrder (node.children.map Node.range)

/-- **Every node covers its children.** -/
def Nested (root : Node) : Prop :=
  ∀ path node, root.at? path = some node →
    ∀ child ∈ node.children, node.range.containsRange child.range = true

/-- No path leads down from a leaf. -/
theorem eq_nil_of_isLeaf (isLeaf : root.isLeaf = true) (found : root.at? path = some node) :
    path = [] := by
  cases path with
  | nil => rfl
  | cons index path =>
    obtain ⟨child, isChild, -⟩ := at?_cons.1 found
    rw [child?, List.isEmpty_iff.1 isLeaf] at isChild
    cases isChild

namespace SiblingsInOrder

theorem of_child (inOrder : root.SiblingsInOrder) (isChild : root.child? index = some child) :
    child.SiblingsInOrder :=
  fun path node found => inOrder (index :: path) node (by rw [at?_child isChild, found])

theorem at? (inOrder : root.SiblingsInOrder) (found : root.at? path = some node) :
    node.SiblingsInOrder :=
  fun below parent reached =>
    inOrder (path ++ below) parent ((at?_append_of_at? found below).trans reached)

theorem ordered (inOrder : root.SiblingsInOrder) (isChild : root.child? index = some child) :
    child.range.Ordered :=
  (inOrder [] root rfl).ordered _ (List.mem_map_of_mem (mem_children_of_child? isChild))

/-- No node below the root ends before it starts. -/
theorem ordered_at (inOrder : root.SiblingsInOrder) (below : path ≠ [])
    (found : root.at? path = some node) : node.range.Ordered := by
  obtain ⟨above, parent, -, reached, isChild⟩ := root.inDocumentOrder.parent path node below found
  exact (inOrder above parent reached).ordered _
    (List.mem_map_of_mem (mem_children_of_child? isChild))

/-- **Of two siblings, the first ends before the second starts.** -/
theorem apart {other : Node} {later : Nat} (inOrder : root.SiblingsInOrder) (less : index < later)
    (isChild : root.child? index = some child) (isOther : root.child? later = some other) :
    child.range.stop ≤ other.range.start := by
  have pairs := List.pairwise_map.1 (inOrder [] root rfl).apart
  obtain ⟨inside, rfl⟩ := List.getElem?_eq_some_iff.1 isChild
  obtain ⟨inside', rfl⟩ := List.getElem?_eq_some_iff.1 isOther
  exact List.pairwise_iff_getElem.1 pairs index later inside inside' less

/-- Two siblings, by their paths. -/
theorem apart_at {first second : Node} {i j : Nat} (inOrder : root.SiblingsInOrder) (less : i < j)
    (isFirst : root.at? (path ++ [i]) = some first)
    (isSecond : root.at? (path ++ [j]) = some second) : first.range.stop ≤ second.range.start := by
  obtain ⟨parent, isParent, isChild⟩ := exists_parent isFirst
  rw [at?_concat isParent] at isSecond
  exact (inOrder.at? isParent).apart less isChild isSecond

end SiblingsInOrder

namespace Nested

theorem of_child (nested : root.Nested) (isChild : root.child? index = some child) : child.Nested :=
  fun path node found => nested (index :: path) node (by rw [at?_child isChild, found])

theorem at? (nested : root.Nested) (found : root.at? path = some node) : node.Nested :=
  fun below child reached =>
    nested (path ++ below) child ((at?_append_of_at? found below).trans reached)

/-- **A node covers every node of its subtree.** -/
theorem covers (nested : root.Nested) (found : root.at? path = some node) :
    root.range.start ≤ node.range.start ∧ node.range.stop ≤ root.range.stop := by
  induction path generalizing root with
  | nil =>
    cases found
    exact ⟨Position.le_refl _, Position.le_refl _⟩
  | cons index path ih =>
    obtain ⟨first, isFirst, below⟩ := at?_cons.1 found
    have outer := Range.containsRange_iff.1
      (nested [] root rfl first (mem_children_of_child? isFirst))
    have inner := ih (nested.of_child isFirst) below
    exact ⟨Position.le_trans outer.1 inner.1, Position.le_trans inner.2 outer.2⟩

/-- A node covers every node further down on the same path. -/
theorem covers_between {deeper : Path} {below : Node} (nested : root.Nested)
    (around : path <+: deeper) (found : root.at? path = some node)
    (isBelow : root.at? deeper = some below) :
    node.range.start ≤ below.range.start ∧ below.range.stop ≤ node.range.stop := by
  obtain ⟨rest, rfl⟩ := around
  rw [at?_append_of_at? found] at isBelow
  exact (nested.at? found).covers isBelow

end Nested

end CellSyntax.Node
