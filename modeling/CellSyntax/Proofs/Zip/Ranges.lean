/-
**The ranges of the nodes of a cell's tree.**

If the tokens of a cell do not overlap, then the range of every node of its tree is that of the
tokens in the node's subtree, siblings follow one another, and every node covers its children.

* `TreeOver.ranges`: the three statements, for every tree that zipping returns.
-/

import CellSyntax.Proofs.Tree.Span
import CellSyntax.Proofs.Zip.TreeOver

namespace CellSyntax

namespace TreeOver

variable {config : TokenConfig} {table : List Token} {root node : Node} {path : Path}

/-- The tokens below a node do not overlap if those of the cell do not. -/
theorem spaced (covers : TreeOver config table root) (inOrder : Token.InOrder table)
    (found : root.at? path = some node) : Lexeme.Spaced node.lexemes := by
  have whole : Lexeme.Spaced root.lexemes := by
    rw [covers.lexemes_eq]
    exact Lexeme.spaced_sequence inOrder
  exact whole.sublist (Node.lexemes_infix found).sublist

/-- **Ranges are hulls, in order and nested**: over tokens that do not overlap, every node has the
range of its tokens, its children follow one another, and it covers each of them. -/
theorem ranges (covers : TreeOver config table root) (inOrder : Token.InOrder table) :
    ∀ path node, root.at? path = some node →
      node.range.Spans node.lexemes ∧
        (node.children.Pairwise fun first second => first.range.stop ≤ second.range.start) ∧
        ∀ child ∈ node.children, node.range.containsRange child.range = true := by
  intro path node found
  have formed := covers.formed.at? found
  have spaced := covers.spaced inOrder found
  exact ⟨formed.range_spans spaced, formed.children_apart spaced,
    fun child member => formed.contains_child spaced member⟩

/-- The tokens of `callOutput`, with the blank filled in, do not overlap. -/
theorem ranges_callOutput : ∃ root,
    zipOutput {} callOutput = .ok (.tree root) ∧
      Token.InOrder (cellTokens {} callOutput.source callOutput.tokens) ∧
      ∀ path node, root.at? path = some node →
        node.range.Spans node.lexemes ∧
          (node.children.Pairwise fun first second => first.range.stop ≤ second.range.start) ∧
          ∀ child ∈ node.children, node.range.containsRange child.range = true := by
  have inOrder : Token.InOrder (cellTokens {} callOutput.source callOutput.tokens) :=
    ⟨by decide, by decide⟩
  exact ⟨_, rfl, inOrder, ranges (.ofOutput rfl) inOrder⟩

end TreeOver

end CellSyntax
