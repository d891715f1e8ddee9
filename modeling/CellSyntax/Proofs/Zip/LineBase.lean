/-
**Where lines are counted from does not matter to a zip.**

Parsers count lines from zero or from one, so an answer is brought to lines counted from zero before
its tokens are zipped. The subtraction stops at zero, and would not keep the order of positions
below the base. When no line lies below the base it can be undone: the answer as it came is the
rebased one moved down, which is a rigid move. So zipping first and rebasing the outcome comes to
the same.

* `Token.lowered_rebase`, `AstNode.lowered_rebase`: rebasing is undone by moving down;
* `zipOutput_rebase`: the zip of a rebased answer.
-/

import CellSyntax.Proofs.Ast.Anchors
import CellSyntax.Proofs.Zip.Relocation

namespace CellSyntax

variable {lineBase : Nat}

/-! ### Rebasing, undone -/

/-- Rebasing undoes moving down. -/
theorem Position.rebase_lowered (position : Position) :
    (position.lowered lineBase).rebase lineBase = position := by
  show Position.mk (position.line + lineBase - lineBase) position.column = position
  rw [Nat.add_sub_cancel]

/-- Moving down undoes rebasing, unless the line lies below the base. -/
theorem Position.lowered_rebase {position : Position} (based : lineBase ≤ position.line) :
    (position.rebase lineBase).lowered lineBase = position := by
  show Position.mk (position.line - lineBase + lineBase) position.column = position
  rw [Nat.sub_add_cancel based]

theorem Token.lowered_rebase {token : Token} (first : lineBase ≤ token.range.start.line)
    (last : lineBase ≤ token.range.stop.line) :
    (token.rebase lineBase).relocate (Position.lowered lineBase) = token := by
  show Token.mk token.kind ⟨(token.range.start.rebase lineBase).lowered lineBase,
    (token.range.stop.rebase lineBase).lowered lineBase⟩ token.literal = token
  rw [Position.lowered_rebase first, Position.lowered_rebase last]

/-- **A syntax tree is its rebased form, moved down**, if no anchor lies below the base. -/
theorem AstNode.lowered_rebase {node : AstNode}
    (based : ∀ anchor ∈ node.anchors, lineBase ≤ anchor.line) :
    (node.rebase lineBase).relocate (Position.lowered lineBase) = node := by
  induction node using AstNode.children_induction with
  | step node ih =>
    obtain ⟨kind, anchor, children⟩ := node
    have below : (children.map (AstNode.rebase lineBase)).map
        (AstNode.relocate (Position.lowered lineBase)) = children := by
      rw [List.map_map]
      refine (List.map_congr_left fun child member => ?_).trans (List.map_id children)
      exact ih child member fun position inside =>
        based position (AstNode.anchors_of_mem_children member position inside)
    have own : (anchor.map (Position.rebase lineBase)).map (Position.lowered lineBase) =
        anchor := by
      cases anchor with
      | none => rfl
      | some position =>
        have line := based position (AstNode.mem_anchors_iff.2 (Or.inl rfl))
        rw [Option.map_some, Option.map_some, Position.lowered_rebase line]
    rw [rebase, relocate, rebase_children, relocateAll_eq_map, below, own]

/-! ### Zips -/

/-- Outcomes are as before when they are moved down and rebased. -/
theorem relocateOutcome_rebase_lowered (outcome : Except BracketMismatch CellTree) :
    relocateOutcome (Position.rebase lineBase) (CellTree.relocate (Position.rebase lineBase))
        (relocateOutcome (Position.lowered lineBase)
          (CellTree.relocate (Position.lowered lineBase)) outcome) = outcome := by
  cases outcome with
  | error mismatch =>
    show Except.error (BracketMismatch.mk ((mismatch.position.lowered lineBase).rebase lineBase)
      mismatch.found mismatch.expected) = .error mismatch
    rw [Position.rebase_lowered]
  | ok tree => exact congrArg Except.ok (CellTree.relocate_undone Position.rebase_lowered tree)

/-- **Rebasing commutes with zipping.** When no line of a token and of an anchor lies below the
base, the zip of the rebased answer is the outcome of the zip with all its lines rebased. The
subtraction loses nothing: moved down again, it is the outcome of the zip. -/
theorem zipOutput_rebase (config : TokenConfig) (tokens : List Token) (ast : AstNode)
    (lines : ∀ token ∈ tokens,
      lineBase ≤ token.range.start.line ∧ lineBase ≤ token.range.stop.line)
    (anchors : ∀ anchor ∈ ast.anchors, lineBase ≤ anchor.line) :
    zipOutput config (ParseOutput.rebase lineBase ⟨none, tokens, some ast⟩) =
        relocateOutcome (Position.rebase lineBase) (CellTree.relocate (Position.rebase lineBase))
          (zipOutput config ⟨none, tokens, some ast⟩) ∧
      zipOutput config ⟨none, tokens, some ast⟩ =
        relocateOutcome (Position.lowered lineBase) (CellTree.relocate (Position.lowered lineBase))
          (zipOutput config (ParseOutput.rebase lineBase ⟨none, tokens, some ast⟩)) := by
  have undone : (tokens.map (Token.rebase lineBase)).map
      (Token.relocate (Position.lowered lineBase)) = tokens := by
    rw [List.map_map]
    refine (List.map_congr_left fun token member => ?_).trans (List.map_id tokens)
    exact Token.lowered_rebase (lines token member).1 (lines token member).2
  have moved : zipTokens config ast tokens =
      relocateOutcome (Position.lowered lineBase) (CellTree.relocate (Position.lowered lineBase))
        (zipTokens config (ast.rebase lineBase) (tokens.map (Token.rebase lineBase))) := by
    rw [← zipTokens_relocate (Position.Rigid.lowered lineBase), AstNode.lowered_rebase anchors,
      undone]
  refine ⟨?_, moved⟩
  show zipTokens config (ast.rebase lineBase) (tokens.map (Token.rebase lineBase)) =
    relocateOutcome _ _ (zipTokens config ast tokens)
  rw [moved, relocateOutcome_rebase_lowered]

/-- The tokens of `(a⏎)⏎`, lines being counted from one. -/
def bracketedTokens : List Token :=
  [⟨"OP", ⟨⟨1, 0⟩, ⟨1, 1⟩⟩, "("⟩, ⟨"NAME", ⟨⟨1, 1⟩, ⟨1, 2⟩⟩, "a"⟩, ⟨"NL", ⟨⟨1, 2⟩, ⟨1, 3⟩⟩, "\n"⟩,
    ⟨"OP", ⟨⟨2, 0⟩, ⟨2, 1⟩⟩, ")"⟩, ⟨"NEWLINE", ⟨⟨2, 1⟩, ⟨2, 2⟩⟩, "\n"⟩]

def bracketedAst : AstNode :=
  ⟨"Module", none, [⟨"Expr", some ⟨1, 0⟩, [⟨"Name", some ⟨1, 1⟩, []⟩]⟩]⟩

theorem zipOutput_rebase_bracketed :
    (∀ token ∈ bracketedTokens, 1 ≤ token.range.start.line ∧ 1 ≤ token.range.stop.line) ∧
      (∀ anchor ∈ bracketedAst.anchors, 1 ≤ anchor.line) ∧
      ∃ root, zipOutput {} ⟨none, bracketedTokens, some bracketedAst⟩ = .ok (.tree root) ∧
        root.range = ⟨⟨1, 0⟩, ⟨2, 2⟩⟩ ∧
        zipOutput {} (ParseOutput.rebase 1 ⟨none, bracketedTokens, some bracketedAst⟩) =
          .ok (.tree (root.relocate (Position.rebase 1))) := by
  have lines : ∀ token ∈ bracketedTokens,
      1 ≤ token.range.start.line ∧ 1 ≤ token.range.stop.line := by decide
  have anchors : ∀ anchor ∈ bracketedAst.anchors, 1 ≤ anchor.line := by decide
  obtain ⟨root, zipped, range⟩ : ∃ root,
      zipOutput {} ⟨none, bracketedTokens, some bracketedAst⟩ = .ok (.tree root) ∧
        root.range = ⟨⟨1, 0⟩, ⟨2, 2⟩⟩ := ⟨_, rfl, rfl⟩
  refine ⟨lines, anchors, root, zipped, range, ?_⟩
  rw [(zipOutput_rebase {} bracketedTokens bracketedAst lines anchors).1, zipped]
  rfl

end CellSyntax
