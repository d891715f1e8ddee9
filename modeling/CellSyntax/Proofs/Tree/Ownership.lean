/-
**Which node owns a token.**

A node owns the tokens that are items of its own content; those of its child nodes belong to the
children. Going through a tree in source order and noting the owner of every token gives the same
tokens as going through it for the tokens alone. So if no token occurs twice in the tree, then
every token of the tree has one owner.

* `Node.map_owners`: the tokens with their owners are the tokens of the tree, in order;
* `Node.mem_owners_iff`: the owners that are noted are the nodes that own the token;
* `Node.owns_unique`: where the numbers of the tokens differ, each has one owner.
-/

import CellSyntax.Proofs.Tree.Formed
import Mathlib.Data.List.Nodup

namespace CellSyntax

/-- The node at `path` owns the token itself, and not through a child node. -/
def Node.Owns (root : Node) (path : Path) (lexeme : Lexeme) : Prop :=
  ∃ node, root.at? path = some node ∧ .token lexeme ∈ node.content

namespace Element

mutual

/-- The tokens of an element with the paths of their owners, in source order; `index` is the number
of the element among the child nodes of its parent. -/
def owners (index : Nat) : Element → List (Path × Lexeme)
  | .token lexeme => [([], lexeme)]
  | .node _ _ content => (ownersOf 0 content).map fun owned => (index :: owned.1, owned.2)

/-- The tokens of a content whose first child node has the number `index`, with their owners. -/
def ownersOf (index : Nat) : List Element → List (Path × Lexeme)
  | [] => []
  | element :: rest => element.owners index ++ ownersOf (index + element.width) rest

end

mutual

theorem map_owners : ∀ (index : Nat) (element : Element),
    (element.owners index).map Prod.snd = element.lexemes
  | _, .token _ => rfl
  | _, .node _ _ content => by
    rw [owners, List.map_map, lexemes, ← map_ownersOf 0 content]
    rfl

theorem map_ownersOf : ∀ (index : Nat) (content : List Element),
    (ownersOf index content).map Prod.snd = lexemesOf content
  | _, [] => rfl
  | index, element :: rest => by
    rw [ownersOf, List.map_append, map_owners index element,
      map_ownersOf (index + element.width) rest, lexemesOf]

end

/-- An owner is the node of the content itself, or it lies in one of the child nodes. -/
theorem mem_ownersOf_iff {index : Nat} {content : List Element} {path : Path} {lexeme : Lexeme} :
    (path, lexeme) ∈ ownersOf index content ↔
      path = [] ∧ .token lexeme ∈ content ∨
        ∃ number child below, (content.filterMap node?)[number]? = some child ∧
          path = (index + number) :: below ∧ (below, lexeme) ∈ ownersOf 0 child.content := by
  induction content generalizing index with
  | nil => simp [ownersOf]
  | cons element rest ih =>
    rw [ownersOf, List.mem_append, ih]
    cases element with
    | token first =>
      simp only [owners, List.mem_cons, List.not_mem_nil, or_false, Prod.mk.injEq, width,
        Nat.add_zero, Element.token.injEq, List.filterMap_cons, node?]
      constructor
      · rintro (⟨own, same⟩ | ⟨own, member⟩ | below)
        · exact Or.inl ⟨own, Or.inl same⟩
        · exact Or.inl ⟨own, Or.inr member⟩
        · exact Or.inr below
      · rintro (⟨own, same | member⟩ | below)
        · exact Or.inl ⟨own, same⟩
        · exact Or.inr (Or.inl ⟨own, member⟩)
        · exact Or.inr (Or.inr below)
    | node kind range inner =>
      simp only [owners, List.mem_map, Prod.mk.injEq, Prod.exists, width, List.mem_cons,
        reduceCtorEq, false_or, List.filterMap_cons, node?]
      constructor
      · rintro (⟨below, owned, inside, rfl, rfl⟩ | ⟨own, member⟩ | later)
        · exact Or.inr ⟨0, ⟨kind, range, inner⟩, below, rfl, rfl, inside⟩
        · exact Or.inl ⟨own, member⟩
        · obtain ⟨number, child, below, found, rfl, inside⟩ := later
          refine Or.inr ⟨number + 1, child, below, found, ?_, inside⟩
          rw [Nat.add_assoc, Nat.add_comm 1]
      · rintro (⟨own, member⟩ | ⟨number, child, below, found, rfl, inside⟩)
        · exact Or.inr (Or.inl ⟨own, member⟩)
        · cases number with
          | zero =>
            cases found
            exact Or.inl ⟨below, lexeme, inside, rfl, rfl⟩
          | succ number =>
            refine Or.inr (Or.inr ⟨number, child, below, found, ?_, inside⟩)
            rw [Nat.add_assoc, Nat.add_comm 1]

end Element

namespace Node

/-- The tokens of a tree with the paths of their owners, in source order. -/
def owners (root : Node) : List (Path × Lexeme) := Element.ownersOf 0 root.content

theorem map_owners (root : Node) : root.owners.map Prod.snd = root.lexemes :=
  Element.map_ownersOf 0 root.content

/-- **The owners that are noted are the nodes that own the token.** -/
theorem mem_owners_iff {root : Node} {path : Path} {lexeme : Lexeme} :
    (path, lexeme) ∈ root.owners ↔ root.Owns path lexeme := by
  induction path generalizing root with
  | nil =>
    rw [owners, Element.mem_ownersOf_iff]
    simp only [reduceCtorEq, false_and, and_false, exists_false, or_false, true_and]
    constructor
    · exact fun member => ⟨root, rfl, member⟩
    · rintro ⟨node, reached, owned⟩
      cases reached
      exact owned
  | cons index path ih =>
    rw [owners, Element.mem_ownersOf_iff]
    simp only [reduceCtorEq, false_and, false_or, Nat.zero_add, List.cons.injEq]
    constructor
    · rintro ⟨_, child, _, found, ⟨rfl, rfl⟩, inside⟩
      obtain ⟨node, reached, owned⟩ := ih.1 inside
      exact ⟨node, at?_cons.2 ⟨child, found, reached⟩, owned⟩
    · rintro ⟨node, reached, owned⟩
      obtain ⟨child, found, below⟩ := at?_cons.1 reached
      exact ⟨index, child, path, found, ⟨rfl, rfl⟩, ih.2 ⟨node, below, owned⟩⟩

theorem exists_owner {root : Node} {lexeme : Lexeme} (member : lexeme ∈ root.lexemes) :
    ∃ path, root.Owns path lexeme := by
  rw [← map_owners, List.mem_map] at member
  obtain ⟨⟨path, _⟩, inside, rfl⟩ := member
  exact ⟨path, mem_owners_iff.1 inside⟩

/-- **Where the numbers of the tokens differ, each token has one owner.** -/
theorem owns_unique {root : Node} (distinct : (root.lexemes.map Lexeme.number).Nodup)
    {path path' : Path} {lexeme lexeme' : Lexeme} (owns : root.Owns path lexeme)
    (owns' : root.Owns path' lexeme') (same : lexeme.number = lexeme'.number) : path = path' := by
  rw [← map_owners, List.map_map] at distinct
  have equal := List.inj_on_of_nodup_map distinct (mem_owners_iff.2 owns)
    (mem_owners_iff.2 owns') same
  exact congrArg Prod.fst equal

end Node

end CellSyntax
