/-
**Nodes before, around and after a node.**

One of two paths precedes the other if they part and it takes the earlier child. Two paths of which
none is a part of the other are so ordered. What comes after a node falls into subtrees: those of
the later siblings of the node and of the nodes around it.

* `Path.trichotomy`: two nodes lie one in the other, or one precedes the other;
* `Path.precedes_iff`: what comes after a node lies in a subtree that follows it;
* `Path.Precedes.trans`, `Path.Precedes.asymm`: the order is strict;
* `Path.Follows.unique`: it lies in no other such subtree.
-/

import CellSyntax.Tree.Path
import Mathlib.Data.List.Infix

namespace CellSyntax.Path

/-- **The node at `first` comes before the one at `second`**, neither lying in the other: the paths
part, and the first takes the earlier child. -/
def Precedes (first second : Path) : Prop :=
  ∃ above i j, i < j ∧ above ++ [i] <+: first ∧ above ++ [j] <+: second

/-- **The subtree at `top` follows the node at `path`** and lies in no larger one that does: its
root is a later sibling of the node or of a node around it. -/
def Follows (top path : Path) : Prop :=
  ∃ above i j, i < j ∧ above ++ [i] <+: path ∧ top = above ++ [j]

variable {first second top path : Path}

theorem precedes_iff : Precedes first second ↔ ∃ top, Follows top first ∧ top <+: second := by
  constructor
  · intro ⟨above, i, j, less, left, right⟩
    exact ⟨above ++ [j], ⟨above, i, j, less, left, rfl⟩, right⟩
  · rintro ⟨-, ⟨above, i, j, less, left, rfl⟩, right⟩
    exact ⟨above, i, j, less, left, right⟩

theorem Follows.ne_nil (follows : Follows top path) : top ≠ [] := by
  obtain ⟨above, i, j, -, -, rfl⟩ := follows
  exact List.append_ne_nil_of_right_ne_nil _ (List.cons_ne_nil _ _)

/-- What comes after a node does not lie in it. -/
theorem Precedes.not_inside (precedes : Precedes first second) : ¬ first <+: second := by
  obtain ⟨above, i, j, less, left, right⟩ := precedes
  intro inside
  have size : (above ++ [i]).length = (above ++ [j]).length := by
    rw [List.length_append, List.length_append, List.length_singleton, List.length_singleton]
  have same := (List.prefix_of_prefix_length_le (left.trans inside) right
    (Nat.le_of_eq size)).eq_of_length size
  exact Nat.ne_of_lt less (List.singleton_inj.1 (List.append_cancel_left same))

theorem Precedes.cons (precedes : Precedes first second) (index : Nat) :
    Precedes (index :: first) (index :: second) := by
  obtain ⟨above, i, j, less, left, right⟩ := precedes
  exact ⟨index :: above, i, j, less, List.cons_prefix_cons.2 ⟨rfl, left⟩,
    List.cons_prefix_cons.2 ⟨rfl, right⟩⟩

theorem precedes_of_lt {i j : Nat} (less : i < j) : Precedes (i :: first) (j :: second) :=
  ⟨[], i, j, less, List.prefix_append [i] first, List.prefix_append [j] second⟩

/-- **Two nodes lie one in the other, or one precedes the other.** -/
theorem trichotomy (first second : Path) :
    first <+: second ∨ second <+: first ∨ Precedes first second ∨ Precedes second first := by
  induction first generalizing second with
  | nil => exact Or.inl List.nil_prefix
  | cons i first ih =>
    cases second with
    | nil => exact Or.inr (Or.inl List.nil_prefix)
    | cons j second =>
      rcases Nat.lt_trichotomy i j with less | rfl | more
      · exact Or.inr (Or.inr (Or.inl (precedes_of_lt less)))
      · rcases ih second with inside | around | before | after
        · exact Or.inl (List.cons_prefix_cons.2 ⟨rfl, inside⟩)
        · exact Or.inr (Or.inl (List.cons_prefix_cons.2 ⟨rfl, around⟩))
        · exact Or.inr (Or.inr (Or.inl (before.cons i)))
        · exact Or.inr (Or.inr (Or.inr (after.cons i)))
      · exact Or.inr (Or.inr (Or.inr (precedes_of_lt more)))

/-- Nothing follows the root. -/
theorem not_follows_nil : ¬ Follows top [] := by
  rintro ⟨above, i, j, -, inside, -⟩
  exact absurd (List.prefix_nil.1 inside)
    (List.append_ne_nil_of_right_ne_nil _ (List.cons_ne_nil _ _))

/-- What follows a node further down follows it inside the same child, or is a later child. -/
theorem follows_cons_iff {index : Nat} :
    Follows top (index :: path) ↔
      (∃ below, top = index :: below ∧ Follows below path) ∨ ∃ later > index, top = [later] := by
  constructor
  · rintro ⟨above, i, j, less, inside, rfl⟩
    cases above with
    | nil =>
      obtain ⟨rfl, -⟩ := List.cons_prefix_cons.1 inside
      exact Or.inr ⟨j, less, rfl⟩
    | cons number above =>
      obtain ⟨rfl, deeper⟩ := List.cons_prefix_cons.1 inside
      exact Or.inl ⟨above ++ [j], rfl, above, i, j, less, deeper, rfl⟩
  · rintro (⟨-, rfl, above, i, j, less, inside, rfl⟩ | ⟨later, less, rfl⟩)
    · exact ⟨index :: above, i, j, less, List.cons_prefix_cons.2 ⟨rfl, inside⟩, rfl⟩
    · exact ⟨[], index, later, less, List.prefix_append [index] path, rfl⟩

/-! ### The order -/

theorem precedes_cons_iff {i j : Nat} :
    Precedes (i :: first) (j :: second) ↔ i < j ∨ i = j ∧ Precedes first second := by
  constructor
  · rintro ⟨above, a, b, less, left, right⟩
    cases above with
    | nil =>
      obtain ⟨rfl, -⟩ := List.cons_prefix_cons.1 left
      obtain ⟨rfl, -⟩ := List.cons_prefix_cons.1 right
      exact Or.inl less
    | cons number above =>
      obtain ⟨rfl, inFirst⟩ := List.cons_prefix_cons.1 left
      obtain ⟨rfl, inSecond⟩ := List.cons_prefix_cons.1 right
      exact Or.inr ⟨rfl, above, a, b, less, inFirst, inSecond⟩
  · rintro (less | ⟨rfl, precedes⟩)
    · exact precedes_of_lt less
    · exact precedes.cons i

theorem Precedes.ne_nil (precedes : Precedes first second) : first ≠ [] ∧ second ≠ [] := by
  obtain ⟨above, i, j, -, left, right⟩ := precedes
  have some (number : Nat) : above ++ [number] ≠ [] :=
    List.append_ne_nil_of_right_ne_nil _ (List.cons_ne_nil _ _)
  exact ⟨fun none => some i (List.prefix_nil.1 (none ▸ left)),
    fun none => some j (List.prefix_nil.1 (none ▸ right))⟩

/-- Of two nodes of which one comes before the other, so do any two nodes inside them. -/
theorem Precedes.extend {first' second' : Path} (precedes : Precedes first second)
    (inFirst : first <+: first') (inSecond : second <+: second') : Precedes first' second' := by
  obtain ⟨above, i, j, less, left, right⟩ := precedes
  exact ⟨above, i, j, less, left.trans inFirst, right.trans inSecond⟩

theorem Precedes.trans {third : Path} (left : Precedes first second)
    (right : Precedes second third) : Precedes first third := by
  induction first generalizing second third with
  | nil => exact absurd rfl left.ne_nil.1
  | cons i first ih =>
    obtain ⟨j, second, rfl⟩ := List.exists_cons_of_ne_nil left.ne_nil.2
    obtain ⟨k, third, rfl⟩ := List.exists_cons_of_ne_nil right.ne_nil.2
    rw [precedes_cons_iff] at left right ⊢
    rcases left with less | ⟨rfl, left⟩
    · exact Or.inl (by omega)
    · rcases right with less | ⟨rfl, right⟩
      · exact Or.inl less
      · exact Or.inr ⟨rfl, ih left right⟩

theorem Precedes.asymm (precedes : Precedes first second) : ¬ Precedes second first :=
  fun back => (precedes.trans back).not_inside List.prefix_rfl

/-- What comes before a node does not lie in it. -/
theorem Precedes.not_around (precedes : Precedes first second) : ¬ second <+: first :=
  fun around => (precedes.extend List.prefix_rfl around).not_inside List.prefix_rfl

theorem precedes_siblings (above : Path) {i j : Nat} (less : i < j) :
    Precedes (above ++ [i]) (above ++ [j]) :=
  ⟨above, i, j, less, List.prefix_rfl, List.prefix_rfl⟩

theorem Follows.precedes (follows : Follows top path) : Precedes path top :=
  precedes_iff.2 ⟨top, follows, List.prefix_rfl⟩

/-- A node lies in one subtree that follows `path`. -/
theorem Follows.unique {top' inside : Path} (follows : Follows top path)
    (follows' : Follows top' path) (within : top <+: inside) (within' : top' <+: inside) :
    top = top' := by
  -- If one lay in the other, then it would lie in a node around `path`, so around `path` itself.
  have outermost {outer inner : Path} (followsOuter : Follows outer path)
      (followsInner : Follows inner path) (nested : outer <+: inner) : outer = inner := by
    obtain ⟨above, i, j, less, around, rfl⟩ := followsInner
    rcases List.prefix_concat_iff.1 nested with same | shorter
    · exact same
    · refine absurd ?_ followsOuter.precedes.not_around
      exact shorter.trans ((List.prefix_append _ _).trans around)
  rcases List.prefix_or_prefix_of_prefix within within' with nested | nested
  · exact outermost follows follows' nested
  · exact (outermost follows' follows nested).symm

/-! ### Siblings -/

section Siblings

variable {above : Path} {i j : Nat}

theorem follows_sibling (less : i < j) (around : above ++ [i] <+: path) :
    Follows (above ++ [j]) path :=
  ⟨above, i, j, less, around, rfl⟩

/-- A later sibling of a following subtree is one too. -/
theorem Follows.sibling (follows : Follows (above ++ [i]) path) (less : i < j) :
    Follows (above ++ [j]) path := by
  obtain ⟨outer, a, b, before, around, same⟩ := follows
  obtain ⟨rfl, last⟩ := List.append_inj' same rfl
  obtain rfl := List.singleton_inj.1 last
  exact ⟨above, a, j, Nat.lt_trans before less, around, rfl⟩

/-- Between two siblings, one before a node and one after it, there is one around it. -/
theorem exists_between (before : Precedes (above ++ [i]) path)
    (after : Precedes path (above ++ [j])) : ∃ k, i < k ∧ k < j ∧ above ++ [k] <+: path := by
  induction above generalizing path with
  | nil =>
    obtain ⟨k, rest, rfl⟩ := List.exists_cons_of_ne_nil before.ne_nil.2
    rcases precedes_cons_iff.1 before with less | ⟨-, inside⟩
    · rcases precedes_cons_iff.1 after with less' | ⟨-, inside⟩
      · exact ⟨k, less, less', List.prefix_append [k] rest⟩
      · exact absurd rfl inside.ne_nil.2
    · exact absurd rfl inside.ne_nil.1
  | cons index above ih =>
    obtain ⟨number, rest, rfl⟩ := List.exists_cons_of_ne_nil before.ne_nil.2
    rcases precedes_cons_iff.1 before with less | ⟨rfl, inFront⟩
    · rcases precedes_cons_iff.1 after with less' | ⟨rfl, -⟩
      · exact absurd less' (Nat.lt_asymm less)
      · exact absurd less (Nat.lt_irrefl _)
    · rcases precedes_cons_iff.1 after with less | ⟨-, behind⟩
      · exact absurd less (Nat.lt_irrefl _)
      · obtain ⟨k, more, less, inside⟩ := ih inFront behind
        exact ⟨k, more, less, List.cons_prefix_cons.2 ⟨rfl, inside⟩⟩

end Siblings

end CellSyntax.Path
