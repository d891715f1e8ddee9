/-
**Trivia is transparent.**

A cell can be zipped from its tokens alone or with its source, whose gaps are then filled. Over tokens
that are faithful to the source, with gaps that are plain white space, and with a separated syntax
tree whose leaves are anchored at tokens, both come to the same: the same outcome, and of two trees
the one is the other without the tokens that fill gaps. A token that fills a gap has text, so the first
token at an anchor is always a given one; this is why no leaf loses its token to a gap.

* `Zip.leavesBeginGiven`: the window of every leaf begins with a given token;
* `zipTokens_eq_sift`: zipping the tokens is zipping with the source and taking out what fills gaps;
* `zip_transparent`: the outcomes, compared.
-/

import CellSyntax.Proofs.Trivia.Given
import CellSyntax.Proofs.Zip.AnchoredLeaves
import CellSyntax.Proofs.Zip.FaithfulText
import CellSyntax.Proofs.Zip.SiftedRun

namespace CellSyntax

variable {source kind : String} {tokens : List Token} {table : BracketTable} {ast : AstNode}

/-! ### Plain gaps -/

/-- **Plain white space**: blank, on one line, and no bracket. -/
structure Token.Plain (table : BracketTable) (token : Token) : Prop where
  blank : Text.isBlank token.literal = true
  oneLine : '\n' ∉ token.literal.toList
  noBracket : table.role token.literal = none

instance (table : BracketTable) (token : Token) : Decidable (token.Plain table) :=
  decidable_of_iff (Text.isBlank token.literal = true ∧ '\n' ∉ token.literal.toList ∧
      table.role token.literal = none)
    ⟨fun ⟨blank, oneLine, noBracket⟩ => ⟨blank, oneLine, noBracket⟩,
      fun plain => ⟨plain.blank, plain.oneLine, plain.noBracket⟩⟩

section Filled

variable (faithful : Token.Faithful source tokens)
  (plain : ∀ gap ∈ gapTokens source kind tokens, gap.Plain table)

/-- Sifting the filled sequence gives that of the given tokens. -/
theorem sift_fillGaps (source kind : String) (tokens : List Token) :
    Lexeme.sift (isGiven source kind tokens) (Lexeme.sequence (fillGaps source kind tokens)) =
      Lexeme.sequence tokens := by
  have sifted := Lexeme.sift_sequence (fillGapsMarked source kind tokens)
  rw [map_fst_fillGapsMarked, filter_snd_fillGapsMarked] at sifted
  exact sifted

/-- A given token is in the filled sequence, with a mark. -/
theorem exists_given_of_mem (source kind : String) {token : Token} (member : token ∈ tokens) :
    ∃ lexeme ∈ Lexeme.sequence (fillGaps source kind tokens),
      isGiven source kind tokens lexeme.number = true ∧ lexeme.token = token := by
  rw [← (Lexeme.number_sequence tokens).2, ← sift_fillGaps source kind tokens] at member
  obtain ⟨sifted, isSifted, rfl⟩ := List.mem_map.1 member
  obtain ⟨lexeme, inside, given, rfl⟩ := Lexeme.mem_sift.1 isSifted
  exact ⟨lexeme, inside, given, rfl⟩

include faithful

/-- **If some token starts at a position then the first one of the filled sequence is given.** -/
theorem Token.Faithful.exists_first (kind : String) {token : Token} (member : token ∈ tokens) :
    ∃ first, (Lexeme.sequence (fillGaps source kind tokens)).find?
        (fun lexeme => lexeme.start = token.range.start) = some first ∧
      isGiven source kind tokens first.number = true := by
  obtain ⟨lexeme, inside, given, same⟩ := exists_given_of_mem source kind member
  have starts : lexeme.start = token.range.start := congrArg (·.range.start) same
  obtain ⟨first, isFirst⟩ : ∃ first, (Lexeme.sequence (fillGaps source kind tokens)).find?
      (fun lexeme => lexeme.start = token.range.start) = some first := by
    rw [← Option.isSome_iff_exists, List.find?_isSome]
    exact ⟨lexeme, inside, decide_eq_true starts⟩
  refine ⟨first, isFirst, ?_⟩
  by_contra other
  have otherMark := Bool.eq_false_of_not_eq_true other
  obtain ⟨firstStarts, before, after, whole, none⟩ := List.find?_eq_some_iff_append.1 isFirst
  have gap := gapTokens_start_lt
    (mem_gapTokens_of_not_isGiven (List.mem_of_find?_eq_some isFirst) otherMark)
  -- The given token at the position comes after this one, so it does not start before it ends.
  have spaced := Lexeme.spaced_sequence (faithful.fillGaps_inOrder kind)
  rw [whole] at inside spaced
  have later : lexeme ∈ after := by
    rcases List.mem_append.1 inside with early | late
    · have skipped := none lexeme early
      rw [starts] at skipped
      simp at skipped
    · refine (List.mem_cons.1 late).resolve_left fun same => other ?_
      rw [← same, given]
  have apart : first.stop ≤ lexeme.start :=
    (List.pairwise_cons.1 (List.pairwise_append.1 spaced.apart).2.1).1 lexeme later
  rw [starts, ← of_decide_eq_true firstStarts] at apart
  exact Position.lt_iff_not_le.1 gap apart

include plain

/-- **The filled sequence is a mixed run**: what was put in lies on one line and is no bracket. -/
theorem Token.Faithful.mixed_fillGaps : Lexeme.Mixed table (isGiven source kind tokens)
    (Lexeme.sequence (fillGaps source kind tokens)) where
  spaced := Lexeme.spaced_sequence (faithful.fillGaps_inOrder kind)
  consecutive := Lexeme.consecutive_sequence _
  silent := fun _ member other => (plain _ (mem_gapTokens_of_not_isGiven member other)).noBracket
  oneLine := fun _ member other =>
    gapTokens_oneLine (mem_gapTokens_of_not_isGiven member other)
      (plain _ (mem_gapTokens_of_not_isGiven member other)).oneLine

/-- The source is blank exactly if all tokens are. -/
theorem Token.Faithful.isBlank_eq :
    Text.isBlank source = tokens.all fun token => Text.isBlank token.literal := by
  have filled : Text.isBlank source =
      (fillGaps source kind tokens).all fun token => Text.isBlank token.literal := by
    rw [Text.isBlank, ← faithful.textOf_fillGaps kind, Token.textOf, List.all_flatMap]
    rfl
  rw [filled, Bool.eq_iff_iff, List.all_eq_true, List.all_eq_true]
  constructor
  · intro all token member
    rw [← filter_snd_fillGapsMarked source kind tokens] at member
    obtain ⟨item, inside, rfl⟩ := List.mem_map.1 member
    refine all item.1 ?_
    rw [← map_fst_fillGapsMarked]
    exact List.mem_map_of_mem (List.mem_filter.1 inside).1
  · intro all token member
    rw [← (Lexeme.number_sequence (fillGaps source kind tokens)).2] at member
    obtain ⟨lexeme, inside, rfl⟩ := List.mem_map.1 member
    cases given : isGiven source kind tokens lexeme.number with
    | true => exact all _ (mem_of_isGiven inside given)
    | false => exact (plain _ (mem_gapTokens_of_not_isGiven inside given)).blank

end Filled

/-! ### Leaves -/

/-- A seat without children is that of a leaf of the anchored part. -/
theorem Seat.anchoredLeaf {seat : Seat} (leaf : seat.children = []) :
    seat.node.AnchoredLeaf seat.lead := by
  have below : ∀ child ∈ seat.node.children, child.anchors = [] := by
    intro child member
    rw [List.eq_nil_iff_forall_not_mem]
    intro position anchored
    obtain ⟨number, isChild⟩ := List.mem_iff_getElem?.1 member
    obtain ⟨other, inside, -⟩ := Seat.exists_mem_ofNodes isChild anchored
    exact List.ne_nil_of_mem inside leaf
  refine ⟨?_, below⟩
  rcases AstNode.mem_anchors_iff.1 seat.lead_mem with own | ⟨child, member, inside⟩
  · exact own
  · rw [below child member] at inside
    cases inside

/-- **The leaves of the anchored part, below the module, are anchored at starts of tokens.** -/
def AstNode.LeavesAtTokens (ast : AstNode) (tokens : List Token) : Prop :=
  ∀ origin leaf anchor, origin ≠ [] → ast.at? origin = some leaf → leaf.AnchoredLeaf anchor →
    ∃ token ∈ tokens, token.range.start = anchor

/-- It is enough that all anchors are starts of tokens. -/
theorem AstNode.leavesAtTokens_of_anchors
    (starts : ∀ anchor ∈ ast.anchors, ∃ token ∈ tokens, token.range.start = anchor) :
    ast.LeavesAtTokens tokens :=
  fun _ _ anchor _ found leaf =>
    starts anchor (anchors_of_at? found anchor ((leaf.anchors anchor).2 rfl))

/-- **The window of every leaf begins with a given token at its anchor.** -/
theorem Zip.leavesBeginGiven (faithful : Token.Faithful source tokens) (separated : ast.Separated)
    (leaves : ast.LeavesAtTokens tokens) :
    LeavesBeginGiven table (isGiven source kind tokens) (Seat.ofNodes ast.children)
      (Lexeme.sequence (fillGaps source kind tokens)) [] := by
  intro origin path visit visits leaf
  have anchored := Seat.anchoredLeaf leaf
  obtain ⟨token, member, starts⟩ :=
    leaves origin _ _ visits.origin_ne_nil visits.ast_at? anchored
  obtain ⟨first, isFirst, given⟩ := faithful.exists_first kind member
  rw [starts] at isFirst
  have ordered := (Lexeme.spaced_sequence (faithful.fillGaps_inOrder kind)).startOrdered
  obtain ⟨rest, window⟩ := visits.window_head separated ordered anchored isFirst
  have firstStarts : first.start = visit.seat.lead := by simpa using List.find?_some isFirst
  exact ⟨first, rest, window, firstStarts ▸ anchored.own, given⟩

/-! ### The two ways to zip -/

section Outcomes

variable {config : TokenConfig} (faithful : Token.Faithful source (stripMarkers config tokens))
  (plain : ∀ gap ∈ gapTokens source config.triviaKind (stripMarkers config tokens),
    gap.Plain (.ofConfig config))
  (separated : ast.Separated) (leaves : ast.LeavesAtTokens (stripMarkers config tokens))
include faithful plain separated leaves

/-- **Zipping the tokens is zipping with the source and taking out what fills gaps.** -/
theorem zipTokens_eq_sift : zipTokens config ast tokens =
    (zipSource config source ast tokens).map
      (.sift (isGiven source config.triviaKind (stripMarkers config tokens))) := by
  have same := faithful.isBlank_eq plain
  unfold zipTokens zipSource zipStripped
  by_cases blank : Text.isBlank source = true
  · rw [if_pos blank, if_pos (same ▸ blank)]
    rfl
  · have filled : ¬ ((fillGaps source config.triviaKind (stripMarkers config tokens)).all
        fun token => Text.isBlank token.literal) = true := by
      intro all
      have text := textOf_blank (List.all_eq_true.1 all)
      rw [faithful.textOf_fillGaps] at text
      exact blank text
    rw [if_neg blank, if_neg (same ▸ blank), if_neg filled,
      Zip.zipModule_sift (faithful.mixed_fillGaps plain)
        (sift_fillGaps source config.triviaKind (stripMarkers config tokens))
        (Zip.leavesBeginGiven faithful separated leaves)]
    cases Zip.zipModule (.ofConfig config) ast
        (fillGaps source config.triviaKind (stripMarkers config tokens)) with
    | error mismatch => rfl
    | ok root => rfl

end Outcomes

/-- **Trivia is transparent.** Over tokens that are faithful to a source, with gaps of plain white
space, and with a separated syntax tree whose leaves are anchored at tokens, zipping with the source
and zipping the tokens agree. Either both trees are empty, or both fail with the same mismatch, or
the tree of the tokens is that of the source without the tokens that fill gaps: it has the same nodes
at the same paths, each of the same kind and with what is left of its content. -/
theorem zip_transparent {config : TokenConfig} {source : String} {tokens : List Token}
    {ast : AstNode} (faithful : Token.Faithful source (stripMarkers config tokens))
    (plain : ∀ gap ∈ gapTokens source config.triviaKind (stripMarkers config tokens),
      gap.Plain (.ofConfig config))
    (separated : ast.Separated) (leaves : ast.LeavesAtTokens (stripMarkers config tokens)) :
    let given := isGiven source config.triviaKind (stripMarkers config tokens)
    (zipSource config source ast tokens = .ok .empty ∧ zipTokens config ast tokens = .ok .empty) ∨
      (∃ mismatch, zipSource config source ast tokens = .error mismatch ∧
        zipTokens config ast tokens = .error mismatch) ∨
      ∃ root bare, zipSource config source ast tokens = .ok (.tree root) ∧
        zipTokens config ast tokens = .ok (.tree bare) ∧ bare = root.sift given ∧
        ∀ path, bare.at? path = (root.at? path).map (Node.sift given) := by
  intro given
  rw [zipTokens_eq_sift faithful plain separated leaves]
  cases zipSource config source ast tokens with
  | error mismatch => exact Or.inr (Or.inl ⟨mismatch, rfl, rfl⟩)
  | ok tree =>
    cases tree with
    | empty => exact Or.inl ⟨rfl, rfl⟩
    | tree root =>
      exact Or.inr (Or.inr ⟨root, root.sift given, rfl, rfl, rfl, root.at?_sift given⟩)

/-- In `f(a,⏎ b)⏎` the blank before `b` fills a gap. -/
theorem zip_transparent_callOutput :
    let given := isGiven "f(a,\n b)\n" "WHITESPACE" (stripMarkers {} callOutput.tokens)
    Token.Faithful "f(a,\n b)\n" (stripMarkers {} callOutput.tokens) ∧
    (gapTokens "f(a,\n b)\n" "WHITESPACE" (stripMarkers {} callOutput.tokens)).map Token.literal =
      [" "] ∧
    ((zipSource {} "f(a,\n b)\n" separatedAst callOutput.tokens = .ok .empty ∧
        zipTokens {} separatedAst callOutput.tokens = .ok .empty) ∨
      (∃ mismatch, zipSource {} "f(a,\n b)\n" separatedAst callOutput.tokens = .error mismatch ∧
        zipTokens {} separatedAst callOutput.tokens = .error mismatch) ∨
      ∃ root bare, zipSource {} "f(a,\n b)\n" separatedAst callOutput.tokens = .ok (.tree root) ∧
        zipTokens {} separatedAst callOutput.tokens = .ok (.tree bare) ∧ bare = root.sift given ∧
        ∀ path, bare.at? path = (root.at? path).map (Node.sift given)) := by
  have faithful : Token.Faithful "f(a,\n b)\n" (stripMarkers {} callOutput.tokens) :=
    ⟨⟨by decide, by decide⟩, by decide, by decide⟩
  have plain : ∀ gap ∈ gapTokens "f(a,\n b)\n" (TokenConfig.triviaKind {})
      (stripMarkers {} callOutput.tokens), gap.Plain (.ofConfig {}) := by decide +kernel
  have leaves : separatedAst.LeavesAtTokens (stripMarkers {} callOutput.tokens) :=
    AstNode.leavesAtTokens_of_anchors (by decide)
  exact ⟨faithful, by decide +kernel,
    zip_transparent faithful plain separatedAst_separated leaves⟩

end CellSyntax
