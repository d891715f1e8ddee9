/-
**The trees that zipping returns, and the tokens they stand covers.**

A tree comes from tokens alone, from tokens and the source, or from a parser's whole answer, with a
syntax tree or without one. `TreeOver` collects the ways. It names the token sequence that each of
them works on: the tokens without markers and, where the source is known, with its gaps filled in.
Whichever way it was, the sequence is not empty, and the tree is either a zip of it or a single node
that owns all of it.

* `TreeOver.zipped_or_flat`: the two kinds of trees;
* `TreeOver.lexemes_eq`: the tokens of the tree are the sequence, numbered from zero on;
* `TreeOver.formed`: the tree is formed.
-/

import CellSyntax.Proofs.Zip.Conservation
import CellSyntax.Zip.Cell

namespace CellSyntax

/-- The tokens that the tree of a cell stands over: those of the stream without markers, with text
that none of them covers filled in if the source is known. -/
def cellTokens (config : TokenConfig) (source : Option String) (tokens : List Token) :
    List Token :=
  match source with
  | none => stripMarkers config tokens
  | some text => fillGaps text config.triviaKind (stripMarkers config tokens)

/-- **Zipping returned `root` as the tree of a cell whose tokens are the given ones.** -/
inductive TreeOver (config : TokenConfig) : List Token → Node → Prop
  | ofTokens {ast : AstNode} {tokens : List Token} {root : Node}
      (zipped : zipTokens config ast tokens = .ok (.tree root)) :
      TreeOver config (cellTokens config none tokens) root
  | ofSource {source : String} {ast : AstNode} {tokens : List Token} {root : Node}
      (zipped : zipSource config source ast tokens = .ok (.tree root)) :
      TreeOver config (cellTokens config (some source) tokens) root
  | ofOutput {output : ParseOutput} {root : Node}
      (zipped : zipOutput config output = .ok (.tree root)) :
      TreeOver config (cellTokens config output.source output.tokens) root

/-! ### The outcomes of zipping -/

section Outcomes

variable {config : TokenConfig} {ast : AstNode} {tokens : List Token} {root : Node}

theorem zipStripped_tree (zipped : zipStripped config ast tokens = .ok (.tree root)) :
    Zip.zipModule (.ofConfig config) ast tokens = .ok root ∧ tokens ≠ [] := by
  unfold zipStripped at zipped
  split at zipped
  · cases zipped
  · rename_i written
    split at zipped
    · cases zipped
    · rename_i tree done
      cases zipped
      refine ⟨done, fun none => written ?_⟩
      rw [none]
      rfl

theorem zipSource_tree {source : String}
    (zipped : zipSource config source ast tokens = .ok (.tree root)) :
    zipStripped config ast (cellTokens config (some source) tokens) = .ok (.tree root) := by
  unfold zipSource at zipped
  split at zipped
  · cases zipped
  · exact zipped

theorem flat_tree {kind : String} (flat : CellTree.flat kind tokens = .tree root) :
    root = .ofContent kind ((Lexeme.sequence tokens).map .token) ∧ tokens ≠ [] := by
  unfold CellTree.flat at flat
  split at flat
  · cases flat
  · rename_i some
    cases flat
    refine ⟨rfl, fun none => some ?_⟩
    rw [none]
    rfl

/-- A node that owns every token of a sequence which is not empty is formed. -/
theorem Node.ofTokens_formed {kind : String} (some : tokens ≠ []) :
    (Node.ofContent kind ((Lexeme.sequence tokens).map .token)).Formed := by
  refine Node.ofContent_formed (fun none => some ?_) fun element member => ?_
  · rw [← (Lexeme.number_sequence tokens).2, List.map_eq_nil_iff.1 none]
    rfl
  · exact Element.formed_of_mem_tokens member

theorem flatTree_tree {source : Option String} (flat : flatTree config source tokens = .tree root) :
    CellTree.flat config.rootKind (cellTokens config source tokens) = .tree root := by
  cases source with
  | none => exact flat
  | some text =>
    simp only [flatTree] at flat
    split at flat
    · cases flat
    · exact flat

end Outcomes

/-! ### The two kinds of trees -/

namespace TreeOver

variable {config : TokenConfig} {table : List Token} {root : Node}

/-- **A tree is a zip of its tokens or a single node over all of them.** -/
theorem zipped_or_flat (covers : TreeOver config table root) :
    ((∃ ast, Zip.zipModule (.ofConfig config) ast table = .ok root) ∨
      root = .ofContent config.rootKind ((Lexeme.sequence table).map .token)) ∧ table ≠ [] := by
  cases covers with
  | @ofTokens ast tokens _ zipped =>
    obtain ⟨done, some⟩ := zipStripped_tree zipped
    exact ⟨Or.inl ⟨ast, done⟩, some⟩
  | @ofSource source ast tokens _ zipped =>
    obtain ⟨done, some⟩ := zipStripped_tree (zipSource_tree zipped)
    exact ⟨Or.inl ⟨ast, done⟩, some⟩
  | @ofOutput output _ zipped =>
    obtain ⟨source, tokens, ast⟩ := output
    cases ast with
    | none =>
      obtain ⟨same, some⟩ := flat_tree (flatTree_tree (Except.ok.inj zipped))
      exact ⟨Or.inr same, some⟩
    | some ast =>
      rw [zipOutput_of_ast] at zipped
      cases source with
      | none =>
        obtain ⟨done, some⟩ := zipStripped_tree zipped
        exact ⟨Or.inl ⟨ast, done⟩, some⟩
      | some text =>
        obtain ⟨done, some⟩ := zipStripped_tree (zipSource_tree zipped)
        exact ⟨Or.inl ⟨ast, done⟩, some⟩

theorem lexemes_eq (covers : TreeOver config table root) :
    root.lexemes = Lexeme.sequence table := by
  rcases covers.zipped_or_flat.1 with ⟨ast, done⟩ | rfl
  · exact Zip.zipModule_lexemes done
  · exact Element.lexemesOf_tokens _

theorem tokens_eq (covers : TreeOver config table root) :
    root.lexemes.map Lexeme.token = table := by
  rw [covers.lexemes_eq]
  exact (Lexeme.number_sequence table).2

theorem formed (covers : TreeOver config table root) : root.Formed := by
  obtain ⟨⟨ast, done⟩ | rfl, some⟩ := covers.zipped_or_flat
  · exact Zip.zipModule_formed done some
  · exact Node.ofTokens_formed some

end TreeOver

/-! ### A cell of two lines -/

/-- The answer for `f(a,⏎ b)⏎`. Two nodes have the anchor of `a`, one has an anchor off every token,
one has none, and no token covers the blank before `b`. -/
def callOutput : ParseOutput where
  source := some "f(a,\n b)\n"
  tokens :=
    [⟨"ENCODING", ⟨⟨0, 0⟩, ⟨0, 0⟩⟩, "utf-8"⟩, ⟨"NAME", ⟨⟨0, 0⟩, ⟨0, 1⟩⟩, "f"⟩,
      ⟨"OP", ⟨⟨0, 1⟩, ⟨0, 2⟩⟩, "("⟩, ⟨"NAME", ⟨⟨0, 2⟩, ⟨0, 3⟩⟩, "a"⟩,
      ⟨"OP", ⟨⟨0, 3⟩, ⟨0, 4⟩⟩, ","⟩, ⟨"NL", ⟨⟨0, 4⟩, ⟨0, 5⟩⟩, "\n"⟩,
      ⟨"NAME", ⟨⟨1, 1⟩, ⟨1, 2⟩⟩, "b"⟩, ⟨"OP", ⟨⟨1, 2⟩, ⟨1, 3⟩⟩, ")"⟩,
      ⟨"NEWLINE", ⟨⟨1, 3⟩, ⟨1, 4⟩⟩, "\n"⟩, ⟨"ENDMARKER", ⟨⟨2, 0⟩, ⟨2, 0⟩⟩, ""⟩]
  ast := some ⟨"Module", none, [⟨"Call", some ⟨0, 0⟩,
    [⟨"Name", some ⟨0, 0⟩, []⟩, ⟨"Load", none, []⟩, ⟨"Name", some ⟨0, 2⟩, []⟩,
      ⟨"Name", some ⟨0, 2⟩, []⟩, ⟨"Name", some ⟨1, 1⟩, []⟩, ⟨"Name", some ⟨7, 7⟩, []⟩]⟩]⟩

end CellSyntax
