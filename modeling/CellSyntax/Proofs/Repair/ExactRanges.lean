/-
**Repaired ranges are the true ones.**

For an edit that keeps the number of lines, made inside the located node, repairing a tree gives the
range that each node has in the new text, with two exceptions: below the located node nothing is
corrected, as its text is parsed again, and in a following subtree that starts on the line that
moves, what starts on a later line is moved along.

* `Node.RepairedExactly`: what is right of a repaired tree;
* `Node.repair_exact`: it is right after every such edit, for every tree whose siblings are in order
  and whose nodes cover their children.
-/

import CellSyntax.Proofs.Repair.SameLines
import CellSyntax.Proofs.Zip.Locating
import CellSyntax.Repair

namespace CellSyntax

/-- **The ranges of a tree that was repaired after an edit in the node at `located` are right.** -/
structure Node.RepairedExactly (root : Node) (edit : EditDescriptor) (located : Path)
    (repaired : Node) : Prop where
  /-- A node is below the located one, around it, before it or after it. -/
  everywhere : ∀ (path : Path) (node : Node), root.at? path = some node →
    located <+: path ∧ path ≠ located ∨ path <+: located ∨ path.Precedes located ∨
      ∃ (top : Path) (subtree : Node), top.Follows located ∧ top <+: path ∧
        root.at? top = some subtree
  /-- The located node and those around it keep their start, and their end is mapped. -/
  around : ∀ path node, path <+: located → root.at? path = some node →
    ∃ corrected, repaired.at? path = some corrected ∧ corrected.kind = node.kind ∧
      corrected.range = ⟨node.range.start, edit.moved node.range.stop⟩
  /-- What comes before the located node is unchanged. -/
  before : ∀ path : Path, path.Precedes located → repaired.at? path = root.at? path
  /-- What comes after it has both ends mapped, unless it starts on a later line in a following
  subtree that starts on the line that moves. -/
  after : ∀ (top : Path) (subtree : Node) (path : Path) (node : Node), top.Follows located →
    top <+: path → root.at? top = some subtree → root.at? path = some node →
      ¬ (subtree.range.start.line = edit.stop.line ∧ edit.stop.line < node.range.start.line) →
        ∃ corrected, repaired.at? path = some corrected ∧ corrected.kind = node.kind ∧
          corrected.range = ⟨edit.moved node.range.start, edit.moved node.range.stop⟩

namespace Node

variable {root node : Node} {edit : EditDescriptor} {text replacement : String} {range : Range}
  {path located : Path}

theorem everywhere (found : root.at? path = some node) (located : Path) :
    located <+: path ∧ path ≠ located ∨ path <+: located ∨ path.Precedes located ∨
      ∃ (top : Path) (subtree : Node), top.Follows located ∧ top <+: path ∧
        root.at? top = some subtree := by
  rcases path.trichotomy located with around | inside | before | after
  · exact Or.inr (Or.inl around)
  · by_cases same : path = located
    · exact Or.inr (Or.inl (same ▸ List.prefix_rfl))
    · exact Or.inl ⟨inside, same⟩
  · exact Or.inr (Or.inr (Or.inl before))
  · obtain ⟨top, follows, ⟨rest, rfl⟩⟩ := Path.precedes_iff.1 after
    obtain ⟨subtree, isTop, -⟩ := at?_append_eq_some_iff.1 found
    exact Or.inr (Or.inr (Or.inr ⟨top, subtree, follows, List.prefix_append top rest, isTop⟩))

theorem at?_propagate_before {delta : Delta} (valid : (root.at? located).isSome)
    (before : path.Precedes located) : (root.propagate delta located).at? path = root.at? path := by
  unfold propagate
  split
  · rfl
  · exact at?_propagateFrom_before valid before

/-- **The repaired ranges are right.** -/
theorem repair_exact (made : edit = .replace text range replacement)
    (isIn : range.IsIn text.toList) (keepsLines : edit.deltaLine = 0)
    (siblings : root.SiblingsInOrder) (nested : root.Nested)
    (contains : (root.nodeAt edit.beforeRange).range.containsRange range = true)
    (unsaturated : root.Unsaturated edit (root.locate edit.beforeRange)) :
    edit.MapsPositions text.toList (edit.apply text).toList ∧
      root.RepairedExactly edit (root.locate edit.beforeRange)
        (root.repair edit (edit.apply text)).1 := by
  obtain ⟨before, removed, after, splices, oldText, newText⟩ :=
    EditDescriptor.Splices.exists_parts made isIn
  have found := root.at?_locate edit.beforeRange
  obtain ⟨starts, stops⟩ := Range.containsRange_iff.1 contains
  rw [← (EditDescriptor.ends_replace made).1] at starts
  rw [← (EditDescriptor.ends_replace made).2] at stops
  refine ⟨?_, fun path node reached => everywhere reached _, ?_, ?_, ?_⟩
  · rw [newText, oldText]
    exact splices.mapsPositions keepsLines after
  · intro path node around reached
    have covers := nested.covers_between around reached found
    have fits := unsaturated path node reached fun below => around.eq_of_length_le below.length_le
    exact range_around splices keepsLines found around reached
      (Position.le_trans covers.1 starts) (Position.le_trans stops covers.2) fits.2
  · intro path before
    exact at?_propagate_before (Option.isSome_iff_exists.2 ⟨_, found⟩) before
  · intro top subtree path node follows inside isTop reached early
    exact range_after splices keepsLines found unsaturated siblings nested stops follows isTop
      inside reached fun onLine => Nat.le_of_not_lt fun later => early ⟨onLine, later⟩

/-- In the tree of `callOutput`: the name of the called function gets longer, so that of the two
arguments the one on its line moves. -/
theorem repair_exact_callOutput : ∃ root edit,
    zipOutput {} callOutput = .ok (.tree root) ∧
      edit = EditDescriptor.replace "f(a,\n b)\n" ⟨⟨0, 0⟩, ⟨0, 1⟩⟩ "long" ∧
      edit.deltaLine = 0 ∧ root.SiblingsInOrder ∧ root.Nested ∧
      root.locate edit.beforeRange = [0, 0] ∧
      (root.nodeAt edit.beforeRange).range = ⟨⟨0, 0⟩, ⟨0, 1⟩⟩ ∧
      root.Unsaturated edit (root.locate edit.beforeRange) ∧
      edit.MapsPositions "f(a,\n b)\n".toList (edit.apply "f(a,\n b)\n").toList ∧
      root.RepairedExactly edit (root.locate edit.beforeRange)
        (root.repair edit (edit.apply "f(a,\n b)\n")).1 := by
  have inOrder : Token.InOrder (cellTokens {} callOutput.source callOutput.tokens) :=
    ⟨by decide, by decide⟩
  have isIn : Range.IsIn ⟨⟨0, 0⟩, ⟨0, 1⟩⟩ "f(a,\n b)\n".toList :=
    ⟨by decide, by decide, by decide⟩
  obtain ⟨edit, made⟩ : ∃ edit, edit =
      EditDescriptor.replace "f(a,\n b)\n" ⟨⟨0, 0⟩, ⟨0, 1⟩⟩ "long" := ⟨_, rfl⟩
  have keepsLines : edit.deltaLine = 0 := by
    rw [made]
    decide +kernel
  obtain ⟨root, zipped, path, name, small⟩ : ∃ root, zipOutput {} callOutput = .ok (.tree root) ∧
      root.locate edit.beforeRange = [0, 0] ∧
      (root.nodeAt edit.beforeRange).range = ⟨⟨0, 0⟩, ⟨0, 1⟩⟩ ∧
      ∀ path ∈ root.preorder, ∀ node ∈ root.at? path,
        edit.Unsaturated node.range.start ∧ edit.Unsaturated node.range.stop := by
    rw [made]
    exact ⟨_, rfl, by decide +kernel, by decide +kernel, by decide +kernel⟩
  have covers := TreeOver.ofOutput zipped
  have siblings := covers.siblingsInOrder inOrder
  have nested := covers.nested inOrder
  have unsaturated : root.Unsaturated edit (root.locate edit.beforeRange) :=
    fun path node found _ => small path (mem_preorder.2 (by rw [found]; rfl)) node found
  exact ⟨root, edit, zipped, made, keepsLines, siblings, nested, path, name, unsaturated,
    repair_exact made isIn keepsLines siblings nested (by rw [name]; decide) unsaturated⟩

end Node

end CellSyntax
