/-
**The tokens of a cell are shared out among the nodes of its tree.**

Going through the tree from the root gives the tokens of the cell, each once and in their order, so
every token has one owner. The tokens of the subtree at any node are one stretch of that order, and
there is at least one.

* `TreeOver.partition`: both statements, for every tree that zipping returns.
-/

import CellSyntax.Proofs.Tree.Ownership
import CellSyntax.Proofs.Zip.TreeOver

namespace CellSyntax

namespace TreeOver

variable {config : TokenConfig} {table : List Token} {root : Node}

theorem numbers_eq (covers : TreeOver config table root) :
    root.lexemes.map Lexeme.number = List.range table.length := by
  rw [covers.lexemes_eq]
  exact (Lexeme.number_sequence table).1

/-- Every token of the cell has one owner. -/
theorem existsUnique_owner (covers : TreeOver config table root) {number : Nat}
    (inside : number < table.length) :
    ∃! path, ∃ lexeme, lexeme.number = number ∧ root.Owns path lexeme := by
  have distinct : (root.lexemes.map Lexeme.number).Nodup := by
    rw [covers.numbers_eq]
    exact List.nodup_range
  have listed : number ∈ root.lexemes.map Lexeme.number := by
    rw [covers.numbers_eq]
    exact List.mem_range.2 inside
  obtain ⟨lexeme, member, rfl⟩ := List.mem_map.1 listed
  obtain ⟨path, owns⟩ := Node.exists_owner member
  refine ⟨path, ⟨lexeme, rfl, owns⟩, ?_⟩
  rintro other ⟨again, same, ownsToo⟩
  exact Node.owns_unique distinct ownsToo owns same

/-- **The tree shares out the tokens of its cell**: in source order the tree has the tokens with the
numbers `0, 1, …`, each token has one owner, and the tokens of every subtree are a stretch of them
that is not empty. -/
theorem partition (covers : TreeOver config table root) :
    root.lexemes.map Lexeme.number = List.range table.length ∧
      root.lexemes.map Lexeme.token = table ∧
      (∀ number < table.length, ∃! path, ∃ lexeme, lexeme.number = number ∧
        root.Owns path lexeme) ∧
      ∀ path node, root.at? path = some node → node.lexemes ≠ [] ∧
        node.lexemes.map Lexeme.number <:+: List.range table.length := by
  refine ⟨covers.numbers_eq, covers.tokens_eq, fun _ => covers.existsUnique_owner,
    fun path node found => ⟨(covers.formed.at? found).lexemes_ne_nil, ?_⟩⟩
  rw [← covers.numbers_eq]
  exact (Node.lexemes_infix found).map Lexeme.number

/-- The nine tokens of `callOutput`, with the blank filled in, are shared out. -/
theorem partition_callOutput : ∃ root,
    zipOutput {} callOutput = .ok (.tree root) ∧
      root.lexemes.map Lexeme.number = List.range 9 ∧
      root.lexemes.map Lexeme.token = cellTokens {} callOutput.source callOutput.tokens ∧
      (∀ number < 9, ∃! path, ∃ lexeme, lexeme.number = number ∧ root.Owns path lexeme) ∧
      ∀ path node, root.at? path = some node → node.lexemes ≠ [] ∧
        node.lexemes.map Lexeme.number <:+: List.range 9 :=
  ⟨_, rfl, partition (.ofOutput (rfl : zipOutput {} callOutput = .ok (.tree _)))⟩

end TreeOver

end CellSyntax
