/-
**Where the ranges of a corrected tree come from.**

Correcting a tree after an edit in a leaf keeps its shape, so every node of the corrected tree was
one of the tree before. Which rule its range went through is decided by where it lies: before the
leaf, around it, or in a subtree that follows it.

* `Node.exists_corrected`: every node of the corrected tree, by the rule for its range;
* `Node.Corrected.of_precedes`: a node after the leaf went through the rule for following subtrees.
-/

import CellSyntax.Proofs.Edit.LineShift
import CellSyntax.Proofs.Propagate.LineOrder

namespace CellSyntax.Node

variable {root located node subtree : Node} {path other top : Path} {edit : EditDescriptor}

/-! ### The shape of the tree -/

section Shape

variable {delta : Delta} (found : root.at? path = some located)
include found

theorem exists_of_around (around : other <+: path)
    (isNode : (root.propagateFrom delta path).1.at? other = some node) :
    ∃ old, root.at? other = some old ∧ node.range = old.range.adjustEnd delta := by
  obtain ⟨rest, rfl⟩ := around
  obtain ⟨old, isOld, below⟩ := at?_append_eq_some_iff.1 found
  have ⟨range, _⟩ := propagateFrom_range delta (Option.isSome_iff_exists.2 ⟨located, below⟩)
  rw [at?_propagateFrom isOld rest] at isNode
  refine ⟨old, isOld, ?_⟩
  rw [← Option.some.inj isNode, range]

theorem exists_of_follows (follows : top.Follows path)
    (isNode : (root.propagateFrom delta path).1.at? top = some node) :
    ∃ old, root.at? top = some old := by
  obtain ⟨above, i, j, less, ⟨rest, rfl⟩, rfl⟩ := follows
  obtain ⟨place, rfl⟩ := Nat.exists_eq_add_of_lt less
  rw [List.append_assoc] at found isNode
  obtain ⟨parent, isParent, down⟩ := at?_append_eq_some_iff.1 found
  obtain ⟨child, isChild, -⟩ := at?_cons.1 down
  rw [at?_append_of_at? (at?_propagateFrom isParent ([i] ++ rest))] at isNode
  obtain ⟨sibling, isSibling, -⟩ := at?_cons.1 isNode
  rw [List.singleton_append, Nat.add_right_comm, child?_propagateFrom_of_gt isChild] at isSibling
  obtain ⟨old, isOld, -⟩ := Option.map_eq_some_iff.1 isSibling
  refine ⟨old, ?_⟩
  rw [at?_concat isParent, Nat.add_right_comm]
  exact isOld

/-- A leaf stays one. -/
theorem eq_of_below_leaf (isLeaf : located.isLeaf = true) (below : path <+: other)
    (isNode : (root.propagateFrom delta path).1.at? other = some node) : other = path := by
  obtain ⟨rest, rfl⟩ := below
  have here : (root.propagateFrom delta (path ++ [])).1.at? path =
      some (located.propagateFrom delta []).1 := at?_propagateFrom found []
  rw [List.append_nil] at here
  rw [at?_append_of_at? here] at isNode
  have stays : (located.propagateFrom delta []).1.isLeaf = true := isLeaf
  rw [eq_nil_of_isLeaf stays isNode, List.append_nil]

end Shape

/-! ### The rules -/

/-- **How a correction after an edit in the leaf at `path` takes the range of a node.** -/
inductive Corrected (root : Node) (edit : EditDescriptor) (path : Path) :
    (other : Path) → (range corrected : Range) → Prop
  | before {other : Path} {range : Range} (before : other.Precedes path) :
    Corrected root edit path other range range
  | around {other : Path} {range : Range} (around : other <+: path) :
    Corrected root edit path other range (range.adjustEnd edit.delta)
  | after {other top : Path} {subtree : Node} {range : Range} (follows : top.Follows path)
    (isTop : root.at? top = some subtree) (inside : top <+: other) :
    Corrected root edit path other range
      (range.shifted edit.deltaLine (edit.columnsAt subtree.range.start.line))

/-- A node after the leaf lies in a following subtree. -/
theorem Corrected.of_precedes {range corrected : Range}
    (rule : Corrected root edit path other range corrected) (after : path.Precedes other) :
    ∃ top subtree, top.Follows path ∧ root.at? top = some subtree ∧ top <+: other ∧
      corrected = range.shifted edit.deltaLine (edit.columnsAt subtree.range.start.line) := by
  cases rule with
  | before before => exact absurd before after.asymm
  | around around => exact absurd around after.not_around
  | after follows isTop inside => exact ⟨_, _, follows, isTop, inside, rfl⟩

/-- The root of a following subtree moves by its own start. -/
theorem Corrected.of_follows {corrected : Range} (follows : other.Follows path)
    (isNode : root.at? other = some node)
    (rule : Corrected root edit path other node.range corrected) :
    corrected = node.range.shifted edit.deltaLine (edit.columnsAt node.range.start.line) := by
  obtain ⟨top, subtree, follows', isTop, inside, moved⟩ := rule.of_precedes follows.precedes
  obtain rfl := follows'.unique follows inside List.prefix_rfl
  rw [isNode] at isTop
  cases isTop
  exact moved

/-- A node that is not after the leaf keeps its range or has its end corrected. -/
theorem Corrected.not_precedes {range corrected : Range}
    (rule : Corrected root edit path other range corrected) (notAfter : ¬ path.Precedes other) :
    other.Precedes path ∧ corrected = range ∨
      other <+: path ∧ corrected = range.adjustEnd edit.delta := by
  cases rule with
  | before before => exact Or.inl ⟨before, rfl⟩
  | around around => exact Or.inr ⟨around, rfl⟩
  | after follows _ inside =>
    exact absurd (follows.precedes.extend List.prefix_rfl inside) notAfter

theorem Corrected.ordered {range corrected : Range}
    (rule : Corrected root edit path other range corrected) (ordered : range.Ordered) :
    corrected.Ordered := by
  cases rule with
  | before => exact ordered
  | around => exact Range.adjustEnd_ordered _ _
  | after => exact Range.shifted_ordered _ _ _

theorem Corrected.within {range corrected : Range} {bound more : Nat}
    (rule : Corrected root edit path other range corrected) (within : range.Within bound)
    (few : edit.deltaLine ≤ more) (few' : edit.deltaColumn ≤ more) :
    corrected.Within (bound + more) := by
  cases rule with
  | before => exact within.mono more
  | around => exact EditDescriptor.adjustEnd_within within few few'
  | after => exact within.shifted few (EditDescriptor.columnsAt_le few' _)

section Rules

variable {bound : Nat} {before removed inserted : List Char}
  (splices : edit.Splices before removed inserted) (room : edit.HasRoom bound)
  (siblings : root.SiblingsInOrder) (lines : root.LinesInOrder)
  (within : ∀ other node, root.at? other = some node → node.range.Within bound)
  (found : root.at? path = some located) (ends : edit.stop.line ≤ located.range.stop.line)
include splices room siblings lines within found ends

/-- **A following subtree moves by lines, and by columns if it starts on the line that the removed
text ends on.** -/
theorem at?_propagateFrom_top (follows : top.Follows path) (isTop : root.at? top = some subtree) :
    (root.propagateFrom edit.delta path).1.at? top =
      some (subtree.follow edit.delta (edit.columnsAt subtree.range.start.line)) := by
  have valid : (root.at? path).isSome := Option.isSome_iff_exists.2 ⟨located, found⟩
  obtain ⟨place, listed⟩ := List.mem_iff_getElem?.1 ((mem_following_iff valid).2 ⟨follows, isTop⟩)
  have onEndLine : ∀ range ∈ root.followingRanges path, edit.stop.line ≤ range.start.line →
      (Carry.OnEndLine edit.delta range ↔ range.start.line = edit.stop.line) := by
    intro range member later
    obtain ⟨sibling, isListed, rfl⟩ := List.mem_map.1 member
    have small := (within _ _ ((mem_following_iff valid).1 isListed).2).start.line
    have ⟨_, room, _⟩ := room
    have moved := splices.endLine_eq_add
    have line : shiftCoordinate sibling.2.range.start.line edit.deltaLine =
        (sibling.2.range.start.line + edit.deltaLine).toNat := shiftCoordinate_eq (by omega)
    show shiftCoordinate sibling.2.range.start.line edit.deltaLine = edit.endLine ↔ _
    rw [line]
    omega
  rw [at?_propagateFrom_following edit.delta valid listed,
    lines.column_by_line siblings found ends onEndLine listed]
  rfl

/-- **Every node of the corrected tree was one before**, and its range went through a rule. -/
theorem exists_corrected (isLeaf : located.isLeaf = true)
    (isNode : (root.propagateFrom edit.delta path).1.at? other = some node) :
    ∃ old, root.at? other = some old ∧ Corrected root edit path other old.range node.range := by
  have valid : (root.at? path).isSome := Option.isSome_iff_exists.2 ⟨located, found⟩
  rcases other.trichotomy path with around | below | before | after
  · obtain ⟨old, isOld, range⟩ := exists_of_around found around isNode
    exact ⟨old, isOld, range ▸ .around around⟩
  · obtain rfl := eq_of_below_leaf found isLeaf below isNode
    obtain ⟨old, isOld, range⟩ := exists_of_around found List.prefix_rfl isNode
    exact ⟨old, isOld, range ▸ .around List.prefix_rfl⟩
  · rw [at?_propagateFrom_before valid before] at isNode
    exact ⟨node, isNode, .before before⟩
  · obtain ⟨top, follows, ⟨rest, rfl⟩⟩ := Path.precedes_iff.1 after
    obtain ⟨moved, isMoved, -⟩ := at?_append_eq_some_iff.1 isNode
    obtain ⟨subtree, isTop⟩ := exists_of_follows found follows isMoved
    rw [at?_append_of_at? (at?_propagateFrom_top splices room siblings lines within found ends
      follows isTop)] at isNode
    have inside : top <+: top ++ rest := List.prefix_append top rest
    unfold follow at isNode
    split at isNode
    · -- If nothing moves then the subtree is left alone, which moving by nothing does too.
      rename_i still
      have isOld : root.at? (top ++ rest) = some node := (at?_append_of_at? isTop rest).trans isNode
      have small := within _ _ isOld
      have fits : node.range.Within maxCoordinate := by
        have ⟨⟨_, _⟩, ⟨_, _⟩⟩ := small
        have limit := room.still
        exact ⟨⟨by omega, by omega⟩, ⟨by omega, by omega⟩⟩
      have nonempty : top ++ rest ≠ [] := List.append_ne_nil_of_left_ne_nil follows.ne_nil rest
      have same := Range.shifted_zero fits (siblings.ordered_at nonempty isOld)
      have rule : Corrected root edit path (top ++ rest) node.range _ := .after follows isTop inside
      rw [still.2, show edit.deltaLine = 0 from still.1, same] at rule
      exact ⟨node, isOld, rule⟩
    · rw [at?_shifted] at isNode
      obtain ⟨old, isOld, rfl⟩ := Option.map_eq_some_iff.1 isNode
      exact ⟨old, (at?_append_of_at? isTop rest).trans isOld, .after follows isTop inside⟩

end Rules

end CellSyntax.Node
