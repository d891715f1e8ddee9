/-
**The tree of a cell without its syntax tree.**

A parser that cannot parse a cell still reports its tokens, and the tree is then a single node over
all of them. Wherever a syntax tree leads to a tree, leaving it out leads to one as well: the tokens
that the two stand over are the same, so there are some, and the source is not blank. Both trees
share out the same tokens, so they have the same text; and if the tokens do not overlap then the
range of either root is that of all of them.

* `zipOutput_not_blank`: only a source that is not blank leads to a tree;
* `flatTree_of_ne_nil`: the single node;
* `TreeOver.text_eq`, `TreeOver.range_eq`: two trees over the same tokens;
* `zipOutput_withoutAst`: the tree with and the tree without the syntax tree.
-/

import CellSyntax.Proofs.Zip.FaithfulText

namespace CellSyntax

variable {config : TokenConfig} {output : ParseOutput} {table : List Token} {root other : Node}

/-! ### The single node -/

theorem Element.nodeCountOf_tokens (lexemes : List Lexeme) :
    nodeCountOf (lexemes.map .token) = 0 := by
  induction lexemes with
  | nil => rfl
  | cons lexeme rest ih => rw [List.map_cons, nodeCountOf, ih, nodeCount]

/-- **Only a source that is not blank leads to a tree.** -/
theorem zipOutput_not_blank (zipped : zipOutput config output = .ok (.tree root)) :
    ∀ source ∈ output.source, Text.isBlank source = false := by
  obtain ⟨known, tokens, ast⟩ := output
  rintro source isKnown
  obtain rfl : known = some source := isKnown
  by_contra blank
  rw [Bool.not_eq_false] at blank
  cases ast with
  | some ast =>
    have empty : zipOutput config ⟨some source, tokens, some ast⟩ = .ok .empty :=
      zipSource_blank ast tokens blank
    rw [empty] at zipped
    cases zipped
  | none =>
    have empty : zipOutput config ⟨some source, tokens, none⟩ = .ok .empty := by
      show Except.ok (flatTree config (some source) tokens) = _
      rw [flatTree]
      exact congrArg _ (if_pos blank)
    rw [empty] at zipped
    cases zipped

/-- **The single node of a cell** whose source is not blank, if there are tokens. -/
theorem flatTree_of_ne_nil {source : Option String} {tokens : List Token}
    (notBlank : ∀ text ∈ source, Text.isBlank text = false)
    (some : cellTokens config source tokens ≠ []) :
    flatTree config source tokens = .tree (.ofContent config.rootKind
      ((Lexeme.sequence (cellTokens config source tokens)).map .token)) := by
  have flat : flatTree config source tokens =
      .flat config.rootKind (cellTokens config source tokens) := by
    cases source with
    | none => rfl
    | some text => simp [flatTree, cellTokens, notBlank text rfl]
  rw [flat, CellTree.flat, if_neg (by simpa using some)]

/-! ### Two trees over the same tokens -/

theorem Range.Spans.unique {range range' : Range} {lexemes : List Lexeme}
    (spans : range.Spans lexemes) (spans' : range'.Spans lexemes) : range = range' := by
  obtain ⟨first, last, first_eq, last_eq, rfl⟩ := spans
  obtain ⟨first', last', first_eq', last_eq', rfl⟩ := spans'
  obtain rfl := Option.some.inj (first_eq.symm.trans first_eq')
  obtain rfl := Option.some.inj (last_eq.symm.trans last_eq')
  rfl

namespace TreeOver

theorem text_eq (covers : TreeOver config table root) (covers' : TreeOver config table other) :
    root.text = other.text := by
  rw [Node.text, Node.text, Node.chars_eq, Node.chars_eq, covers.tokens_eq, covers'.tokens_eq]

/-- **Two trees over tokens that do not overlap have the same range.** -/
theorem range_eq (covers : TreeOver config table root) (covers' : TreeOver config table other)
    (inOrder : Token.InOrder table) : root.range = other.range := by
  have atRoot (node : Node) : node.at? [] = some node := rfl
  have spans := covers.formed.range_spans (covers.spaced inOrder (atRoot root))
  have spans' := covers'.formed.range_spans (covers'.spaced inOrder (atRoot other))
  rw [covers.lexemes_eq] at spans
  rw [covers'.lexemes_eq] at spans'
  exact spans.unique spans'

end TreeOver

/-- **A cell that has a tree has one without its syntax tree**: a single node, with the same tokens,
the same text and, if the tokens do not overlap, the same range. -/
theorem zipOutput_withoutAst (zipped : zipOutput config output = .ok (.tree root)) :
    ∃ flat, zipOutput config { output with ast := none } = .ok (.tree flat) ∧
      flat.nodeCount = 1 ∧ flat.lexemes = root.lexemes ∧ flat.text = root.text ∧
      (Token.InOrder (root.lexemes.map Lexeme.token) → flat.range = root.range) := by
  have covers := TreeOver.ofOutput zipped
  have notBlank := zipOutput_not_blank zipped
  have isFlat : zipOutput config { output with ast := none } = .ok (.tree _) :=
    congrArg Except.ok (flatTree_of_ne_nil notBlank covers.zipped_or_flat.2)
  have covers' := TreeOver.ofOutput isFlat
  refine ⟨_, isFlat, ?_, ?_, covers'.text_eq covers, fun inOrder => ?_⟩
  · show Element.nodeCountOf _ + 1 = 1
    rw [Node.ofContent, Element.nodeCountOf_tokens]
  · rw [covers'.lexemes_eq, covers.lexemes_eq]
  · rw [covers.tokens_eq] at inOrder
    exact covers'.range_eq covers inOrder

/-- The nine tokens of `callOutput`, with the blank filled in, in a single node. -/
theorem zipOutput_withoutAst_callOutput : ∃ root flat,
    zipOutput {} callOutput = .ok (.tree root) ∧ root.nodeCount = 5 ∧
      zipOutput {} { callOutput with ast := none } = .ok (.tree flat) ∧ flat.nodeCount = 1 ∧
      flat.lexemes = root.lexemes ∧ flat.text = root.text ∧
      Token.InOrder (root.lexemes.map Lexeme.token) ∧ flat.range = root.range := by
  obtain ⟨root, zipped, count⟩ : ∃ root, zipOutput {} callOutput = .ok (.tree root) ∧
      root.nodeCount = 5 := ⟨_, rfl, by decide +kernel⟩
  have inOrder : Token.InOrder (root.lexemes.map Lexeme.token) := by
    rw [(TreeOver.ofOutput zipped).tokens_eq]
    exact ⟨by decide, by decide⟩
  obtain ⟨flat, isFlat, one, tokens, text, range⟩ := zipOutput_withoutAst zipped
  exact ⟨root, flat, zipped, count, isFlat, one, tokens, text, inOrder, range inOrder⟩

end CellSyntax
