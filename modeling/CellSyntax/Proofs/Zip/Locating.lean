/-
**Locating in the tree of a cell.**

The search for the narrowest node around an edit is correct in every tree whose siblings are in
order, and in a tree over tokens that do not overlap they are. There a leaf is found again by its
own range: every node above it covers the range, and unless the range is empty, there is no other
way down.

* `TreeOver.siblingsInOrder`, `TreeOver.nested`: what the search needs of a tree;
* `locate_correct`: the search, for every tree with siblings in order and for the leaves of a cell.
-/

import CellSyntax.Proofs.Locate.Search
import CellSyntax.Proofs.Zip.Ranges

namespace CellSyntax

namespace TreeOver

variable {config : TokenConfig} {table : List Token} {root node leaf : Node} {path : Path}

/-- **The siblings in the tree of a cell are in order.** -/
theorem siblingsInOrder (covers : TreeOver config table root) (inOrder : Token.InOrder table) :
    root.SiblingsInOrder := by
  intro path node found
  have formed := covers.formed.at? found
  have spaced := covers.spaced inOrder found
  refine Range.inOrder_of_apart (fun range member => ?_)
    (List.pairwise_map.2 (formed.children_apart spaced))
  obtain ⟨child, isChild, rfl⟩ := List.mem_map.1 member
  exact formed.child_ordered spaced isChild

/-- **Every node in the tree of a cell covers its children.** -/
theorem nested (covers : TreeOver config table root) (inOrder : Token.InOrder table) :
    root.Nested :=
  fun _ _ found _ member =>
    (covers.formed.at? found).contains_child (covers.spaced inOrder found) member

/-- **A leaf is located by its own range**, unless the range is empty. -/
theorem locate_leaf (covers : TreeOver config table root) (inOrder : Token.InOrder table)
    (found : root.at? path = some leaf) (isLeaf : leaf.isLeaf = true)
    (nonempty : leaf.range.start < leaf.range.stop) :
    root.locate leaf.range = path ∧ root.nodeAt leaf.range = leaf := by
  have siblings := covers.siblingsInOrder inOrder
  obtain ⟨rest, whole⟩ :=
    ((covers.nested inOrder).reaches found).isPrefix_locate siblings nonempty
  have below := root.at?_locate leaf.range
  rw [← whole, Node.at?_append_of_at? found] at below
  obtain rfl := Node.eq_nil_of_isLeaf isLeaf below
  rw [List.append_nil] at whole
  rw [Node.nodeAt, ← whole, found]
  exact ⟨rfl, rfl⟩

end TreeOver

/-- **The search is correct**: in every tree whose siblings are in order, and for the leaves of a
cell whose tokens do not overlap. -/
theorem locate_correct :
    (∀ root : Node, root.SiblingsInOrder → ∀ edit, root.SearchCorrect edit) ∧
      ∀ config table root, TreeOver config table root → Token.InOrder table →
        ∀ path leaf, root.at? path = some leaf → leaf.isLeaf = true →
          leaf.range.start < leaf.range.stop →
            root.locate leaf.range = path ∧ root.nodeAt leaf.range = leaf :=
  ⟨fun _ inOrder edit => Node.search inOrder edit,
    fun _ _ _ covers inOrder _ _ found isLeaf nonempty =>
      covers.locate_leaf inOrder found isLeaf nonempty⟩

/-- In the tree of `callOutput`: an insertion at the start of a leaf, and a leaf on the second
line. -/
theorem locate_correct_callOutput : ∃ root leaf,
    zipOutput {} callOutput = .ok (.tree root) ∧
      root.SiblingsInOrder ∧ root.SearchCorrect (.point ⟨0, 2⟩) ∧
      Token.InOrder (cellTokens {} callOutput.source callOutput.tokens) ∧
      root.at? [0, 2] = some leaf ∧ leaf.isLeaf = true ∧ leaf.range = ⟨⟨1, 1⟩, ⟨1, 2⟩⟩ ∧
      root.locate leaf.range = [0, 2] ∧ root.nodeAt leaf.range = leaf := by
  have inOrder : Token.InOrder (cellTokens {} callOutput.source callOutput.tokens) :=
    ⟨by decide, by decide⟩
  have covers := TreeOver.ofOutput (rfl : zipOutput {} callOutput = .ok (.tree _))
  have siblings := covers.siblingsInOrder inOrder
  exact ⟨_, _, rfl, siblings, locate_correct.1 _ siblings _, inOrder, rfl, rfl, rfl,
    locate_correct.2 _ _ _ covers inOrder _ _ rfl rfl (by decide)⟩

end CellSyntax
