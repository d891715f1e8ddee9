/-
**The nodes of a fresh tree in an arena.**

A zip finishes the children of a node before the node, so a tree is allocated in construction
order. Its arena has the ranges that the tree has, its links are in order, and following them agrees
with the functions on the tree.

* `Fresh.arena_linked`: the three statements, for every tree that zipping returns and for every
  single node over a token sequence.
-/

import CellSyntax.Proofs.Tree.Links
import CellSyntax.Proofs.Zip.TreeOver

namespace CellSyntax

theorem Lexeme.token_of_mem_sequenceFrom {first : Nat} {tokens : List Token} {lexeme : Lexeme}
    (member : lexeme ∈ sequenceFrom first tokens) :
    ∃ place, lexeme.number = first + place ∧ tokens[place]? = some lexeme.token := by
  induction tokens generalizing first with
  | nil => cases member
  | cons token rest ih =>
    rcases List.mem_cons.1 member with rfl | later
    · exact ⟨0, rfl, rfl⟩
    · obtain ⟨place, number, at_place⟩ := ih later
      exact ⟨place + 1, by omega, at_place⟩

/-- A lexeme of a sequence has the token of its number. -/
theorem Lexeme.token_of_mem_sequence {tokens : List Token} {lexeme : Lexeme}
    (member : lexeme ∈ sequence tokens) : tokens[lexeme.number]? = some lexeme.token := by
  obtain ⟨place, number, at_place⟩ := token_of_mem_sequenceFrom member
  rw [number, Nat.zero_add, at_place]

/-- **A fresh tree over a token sequence**: one that zipping returned, or a single node. -/
inductive Fresh (table : List Token) (root : Node) : Prop
  | zipped {config : TokenConfig} (covers : TreeOver config table root)
  | flat {kind : String} (single : CellTree.flat kind table = .tree root)

namespace Fresh

variable {table : List Token} {root : Node}

theorem lexemes_eq (fresh : Fresh table root) : root.lexemes = Lexeme.sequence table := by
  cases fresh with
  | zipped covers => exact covers.lexemes_eq
  | flat single =>
    rw [(flat_tree single).1]
    exact Element.lexemesOf_tokens _

theorem formed (fresh : Fresh table root) : root.Formed := by
  cases fresh with
  | zipped covers => exact covers.formed
  | flat single =>
    obtain ⟨rfl, some⟩ := flat_tree single
    exact Node.ofTokens_formed some

theorem shows_arena (fresh : Fresh table root) : (root.arena table).Shows root := by
  refine Node.shows_arena fresh.formed fun lexeme member => ?_
  rw [fresh.lexemes_eq] at member
  exact Lexeme.token_of_mem_sequence member

/-- **The links of a fresh tree's arena are in order**: the traversals of the tree keep document
order, parents come after their children in the arena, and following links agrees with the
traversals. -/
theorem arena_linked (fresh : Fresh table root) :
    root.InDocumentOrder ∧ (root.arena table).Linked ∧ (root.arena table).Agrees root :=
  ⟨root.inDocumentOrder, fresh.shows_arena.linked, fresh.shows_arena.agrees⟩

/-- The tree of `callOutput` has an arena of five nodes. -/
theorem arena_linked_callOutput : ∃ root,
    zipOutput {} callOutput = .ok (.tree root) ∧
      (root.arena (cellTokens {} callOutput.source callOutput.tokens)).nodes.length = 5 ∧
      root.InDocumentOrder ∧
      (root.arena (cellTokens {} callOutput.source callOutput.tokens)).Linked ∧
      (root.arena (cellTokens {} callOutput.source callOutput.tokens)).Agrees root := by
  refine ⟨_, rfl, ?_, arena_linked (.zipped (.ofOutput (rfl : zipOutput {} callOutput = _)))⟩
  decide +kernel

end Fresh

end CellSyntax
