/-
**Filling gaps puts in the uncovered text and nothing else.**

A range covers the bytes from the offset of its start up to that of its end. The given tokens may
overlap, be empty, end past their line or lie past the end of the text. As long as their starts do
not go back, the text up to the largest end so far is accounted for at every point of the run: a byte
before it is covered by a token or lies in a gap that was filled, and no later gap reaches back to it.
So the gaps come in order and make up the bytes that no token covers. If in addition no byte is
covered twice and literals are right, then all literals together are the source.

* `coversByte_iff`: bytes by the places of their characters;
* `exists_gap_covers_iff`: which places lie in a gap, at any point of the run;
* `textOf_fillGapsFrom`: the text of the filled tokens, at any point of the run;
* `fillGaps_uncovered`: the tokens that are put in, and the text with them.
-/

import CellSyntax.Proofs.Text.OrderIsomorphism
import CellSyntax.Proofs.Trivia.Given

namespace CellSyntax

/-! ### Bytes and places -/

/-- **The bytes that a range covers**: from the offset of its start up to that of its end. -/
def Range.CoversByte (source : List Char) (range : Range) (byte : Nat) : Prop :=
  Text.offset source range.start ≤ byte ∧ byte < Text.offset source range.stop

/-- The places that a range covers: from that of its start up to that of its end. -/
def Range.CoversPlace (source : List Char) (range : Range) (spot : Nat) : Prop :=
  Text.place source range.start ≤ spot ∧ spot < Text.place source range.stop

instance (source : List Char) (range : Range) (byte : Nat) :
    Decidable (range.CoversByte source byte) := inferInstanceAs (Decidable (_ ∧ _))

/-- **A range covers a byte exactly if it covers the place of its character.** -/
theorem Range.coversByte_iff {source : List Char} {range : Range} {byte : Nat} :
    range.CoversByte source byte ↔ range.CoversPlace source (Text.charsWithin source byte) := by
  have starts := @Text.byteLength_take_le_iff source _ byte
    (Text.place_le_length source range.start)
  have stops := @Text.byteLength_take_le_iff source _ byte (Text.place_le_length source range.stop)
  unfold CoversByte CoversPlace Text.offset
  omega

/-! ### The gaps of a run -/

section Gaps

variable {source : List Char} {kind : String} {tokens : List Token} {gap : Token}
  {covered first last spot : Nat}

/-- The tokens that filling gaps puts in, all text before the place `covered` being accounted
for. -/
def gapTokensFrom (source : List Char) (kind : String) (covered : Nat) (tokens : List Token) :
    List Token :=
  ((fillGapsMarkedFrom source kind covered tokens).filter fun item => !item.2).map Prod.fst

theorem gapTokensFrom_nil (source : List Char) (kind : String) (covered : Nat) :
    gapTokensFrom source kind covered [] = gapBetween source kind covered source.length := by
  simp [gapTokensFrom, fillGapsMarkedFrom, List.filter_map, Function.comp_def]

theorem gapTokensFrom_cons (source : List Char) (kind : String) (covered : Nat) (token : Token)
    (rest : List Token) :
    gapTokensFrom source kind covered (token :: rest) =
      gapBetween source kind covered (Text.place source token.range.start) ++
        gapTokensFrom source kind (max covered (Text.place source token.range.stop)) rest := by
  simp [gapTokensFrom, fillGapsMarkedFrom, List.filter_map, Function.comp_def]

/-- The one gap between two places covers what lies between them. -/
theorem gapBetween_covers_iff (inside : last ≤ source.length) :
    (∃ gap ∈ gapBetween source kind first last, gap.range.CoversPlace source spot) ↔
      first ≤ spot ∧ spot < last := by
  unfold gapBetween
  split
  · rename_i less
    have start := Text.place_positionAt (Nat.le_trans (Nat.le_of_lt less) inside)
    have stop := Text.place_positionAt inside
    simp only [List.mem_singleton, exists_eq_left, Range.CoversPlace,
      gapToken_range kind less inside, start, stop]
  · rename_i notLess
    simp only [List.not_mem_nil, false_and, exists_false, false_iff]
    omega

theorem place_of_mem_gapBetween (inside : last ≤ source.length)
    (member : gap ∈ gapBetween source kind first last) :
    Text.place source gap.range.start = first ∧ Text.place source gap.range.stop = last := by
  unfold gapBetween at member
  split at member
  · rename_i less
    rw [List.mem_singleton.1 member, gapToken_range kind less inside]
    exact ⟨Text.place_positionAt (Nat.le_trans (Nat.le_of_lt less) inside),
      Text.place_positionAt inside⟩
  · cases member

/-- No gap reaches back to what is accounted for. -/
theorem le_place_of_mem_gapTokensFrom (member : gap ∈ gapTokensFrom source kind covered tokens) :
    covered ≤ Text.place source gap.range.start := by
  induction tokens generalizing covered with
  | nil =>
    rw [gapTokensFrom_nil] at member
    exact Nat.le_of_eq (place_of_mem_gapBetween (Nat.le_refl _) member).1.symm
  | cons token rest ih =>
    rw [gapTokensFrom_cons] at member
    rcases List.mem_append.1 member with here | later
    · exact Nat.le_of_eq (place_of_mem_gapBetween (Text.place_le_length _ _) here).1.symm
    · exact Nat.le_trans (Nat.le_max_left _ _) (ih later)

/-- **A place that is not accounted for yet lies in a gap exactly if no token covers it.** -/
theorem exists_gap_covers_iff
    (starts : tokens.Pairwise fun first second =>
      Text.place source first.range.start ≤ Text.place source second.range.start)
    (upTo : covered ≤ spot) (inside : spot < source.length) :
    (∃ gap ∈ gapTokensFrom source kind covered tokens, gap.range.CoversPlace source spot) ↔
      ∀ token ∈ tokens, ¬ token.range.CoversPlace source spot := by
  induction tokens generalizing covered with
  | nil =>
    rw [gapTokensFrom_nil, gapBetween_covers_iff (Nat.le_refl _)]
    simp [upTo, inside]
  | cons token rest ih =>
    obtain ⟨ahead, laterStarts⟩ := List.pairwise_cons.1 starts
    have gaps : (∃ gap ∈ gapTokensFrom source kind covered (token :: rest),
        gap.range.CoversPlace source spot) ↔
        (covered ≤ spot ∧ spot < Text.place source token.range.start) ∨
          ∃ gap ∈ gapTokensFrom source kind (max covered (Text.place source token.range.stop)) rest,
            gap.range.CoversPlace source spot := by
      simp only [gapTokensFrom_cons, List.mem_append, or_and_right, exists_or,
        gapBetween_covers_iff (Text.place_le_length _ _)]
    rw [gaps, List.forall_mem_cons]
    by_cases before : spot < Text.place source token.range.start
    · -- The gap in front of the token has the place, and all tokens start behind it.
      refine iff_of_true (Or.inl ⟨upTo, before⟩) ⟨fun covers => ?_, fun other member covers => ?_⟩
      · exact absurd covers.1 (Nat.not_le.2 before)
      · exact absurd (Nat.le_trans (ahead other member) covers.1) (Nat.not_le.2 before)
    · by_cases here : spot < Text.place source token.range.stop
      · -- The token covers the place, and no gap behind it reaches back.
        refine iff_of_false ?_ fun none => none.1 ⟨Nat.not_lt.1 before, here⟩
        rintro (⟨-, earlier⟩ | ⟨gap, member, covers⟩)
        · exact before earlier
        · have behind := le_place_of_mem_gapTokensFrom member
          have start := covers.1
          omega
      · rw [ih laterStarts (by omega)]
        constructor
        · rintro (⟨-, earlier⟩ | none)
          · exact absurd earlier before
          · exact ⟨fun covers => here covers.2, none⟩
        · exact fun none => Or.inr none.2

/-- **The gaps come in order.** -/
theorem gapTokensFrom_apart (ordered : ∀ token ∈ tokens, token.range.Ordered) :
    (gapTokensFrom source kind covered tokens).Pairwise fun first second =>
      Text.place source first.range.stop ≤ Text.place source second.range.start := by
  induction tokens generalizing covered with
  | nil =>
    rw [gapTokensFrom_nil]
    exact gapBetween_pairwise _ source kind covered source.length
  | cons token rest ih =>
    obtain ⟨here, later⟩ := List.forall_mem_cons.1 ordered
    rw [gapTokensFrom_cons]
    refine List.pairwise_append.2 ⟨gapBetween_pairwise _ source kind covered _, ih later,
      fun gap isGap other isOther => ?_⟩
    rw [(place_of_mem_gapBetween (Text.place_le_length _ _) isGap).2]
    have upTo := @Text.place_mono source _ _ here
    have behind := le_place_of_mem_gapTokensFrom isOther
    omega

end Gaps

/-! ### The text of a run -/

section Text

variable {source : List Char} {kind : String} {tokens : List Token} {covered : Nat}

theorem Token.textOf_append (first second : List Token) :
    textOf (first ++ second) = textOf first ++ textOf second :=
  List.flatMap_append

theorem textOf_gapBetween (source : List Char) (kind : String) (first last : Nat) :
    Token.textOf (gapBetween source kind first last) = Text.part source first last := by
  unfold gapBetween
  split
  · simp [Token.textOf, gapToken, String.toList_ofList]
  · rename_i notLess
    rw [Text.part_of_le source (Nat.not_lt.1 notLess)]
    rfl

/-- Two ranges of which one is empty, or the first ends before the second starts. -/
def Range.Apart (source : List Char) (first second : Range) : Prop :=
  Text.place source first.start = Text.place source first.stop ∨
    Text.place source second.start = Text.place source second.stop ∨
      Text.place source first.stop ≤ Text.place source second.start

/-- **The text that is not accounted for yet is that of the filled tokens**, as long as no token
that has a text reaches back. -/
theorem textOf_fillGapsFrom (kind : String) (inside : covered ≤ source.length)
    (ordered : ∀ token ∈ tokens, token.range.Ordered)
    (starts : tokens.Pairwise fun first second =>
      Text.place source first.range.start ≤ Text.place source second.range.start)
    (apart : tokens.Pairwise fun first second => first.range.Apart source second.range)
    (literal : ∀ token ∈ tokens, token.literal.toList = Text.slice source token.range)
    (behind : ∀ token ∈ tokens, Text.place source token.range.start =
        Text.place source token.range.stop ∨ covered ≤ Text.place source token.range.start) :
    Token.textOf (fillGapsFrom source kind covered tokens) =
      Text.part source covered source.length := by
  induction tokens generalizing covered with
  | nil => rw [fillGapsFrom_nil, textOf_gapBetween]
  | cons token rest ih =>
    obtain ⟨orderedHere, orderedLater⟩ := List.forall_mem_cons.1 ordered
    obtain ⟨startsHere, startsLater⟩ := List.pairwise_cons.1 starts
    obtain ⟨apartHere, apartLater⟩ := List.pairwise_cons.1 apart
    obtain ⟨literalHere, literalLater⟩ := List.forall_mem_cons.1 literal
    obtain ⟨behindHere, behindLater⟩ := List.forall_mem_cons.1 behind
    have upTo := @Text.place_mono source _ _ orderedHere
    have stop := Text.place_le_length source token.range.stop
    have following := ih (Nat.max_le.2 ⟨inside, stop⟩) orderedLater startsLater apartLater
      literalLater fun other member => by
        have later := startsHere other member
        rcases behindLater other member with empty | reached
        · exact Or.inl empty
        · rcases apartHere other member with empty | empty | separate
          · exact Or.inr (by omega)
          · exact Or.inl empty
          · exact Or.inr (by omega)
    have split : Token.textOf (fillGapsFrom source kind covered (token :: rest)) =
        Text.part source covered (Text.place source token.range.start) ++
          (Text.slice source token.range ++
            Text.part source (max covered (Text.place source token.range.stop))
              source.length) := by
      rw [fillGapsFrom_cons, Token.textOf_append, textOf_gapBetween, ← following, ← literalHere]
      rfl
    rw [split, Text.slice, Text.part_append_part_max behindHere upTo stop]

end Text

/-! ### The whole run -/

/-- **Tokens that are the uncovered text of a source**, `tokens` being what covers the rest: each has
the kind asked for and a literal that is the text of its range and not empty; each is some bytes, all
of them behind those of the one before; and together they are the bytes of the source that nothing in
`tokens` covers. -/
structure Token.Uncovered (source : List Char) (kind : String) (tokens gaps : List Token) :
    Prop where
  literal : ∀ gap ∈ gaps, gap.kind = kind ∧ gap.literal ≠ "" ∧
    gap.literal.toList = Text.slice source gap.range
  proper : ∀ gap ∈ gaps, Text.offset source gap.range.start < Text.offset source gap.range.stop
  apart : gaps.Pairwise fun first second =>
    Text.offset source first.range.stop ≤ Text.offset source second.range.start
  covers : ∀ byte < Text.byteLength source,
    (∃ gap ∈ gaps, gap.range.CoversByte source byte) ↔
      ¬ ∃ token ∈ tokens, token.range.CoversByte source byte

section Whole

variable {source kind : String} {tokens : List Token} {gap : Token}

theorem gapTokens_proper (member : gap ∈ gapTokens source kind tokens) :
    Text.offset source.toList gap.range.start < Text.offset source.toList gap.range.stop := by
  obtain ⟨first, last, less, inside, rfl⟩ := exists_gap_of_mem member
  rw [Text.offset_lt_offset_iff, gapToken_range kind less inside, Text.place_positionAt inside,
    Text.place_positionAt (Nat.le_trans (Nat.le_of_lt less) inside)]
  exact less

theorem gapTokens_literal (member : gap ∈ gapTokens source kind tokens) :
    gap.kind = kind ∧ gap.literal ≠ "" ∧
      gap.literal.toList = Text.slice source.toList gap.range := by
  obtain ⟨first, last, less, inside, rfl⟩ := exists_gap_of_mem member
  have upTo := Nat.le_trans (Nat.le_of_lt less) inside
  have literal : (gapToken source.toList kind first last).literal.toList =
      Text.part source.toList first last := String.toList_ofList
  refine ⟨rfl, fun none => ?_, ?_⟩
  · have size : (Text.part source.toList first last).length = last - first := by
      rw [Text.part, List.length_take, List.length_drop]
      omega
    rw [← literal, none] at size
    have nothing : "".toList.length = 0 := rfl
    omega
  · rw [literal, Text.slice, gapToken_range kind less inside, Text.place_positionAt inside,
      Text.place_positionAt upTo]

/-- Tokens of which none covers a byte of another are empty or follow one another. -/
theorem Range.apart_of_disjoint {source : List Char} {first second : Range}
    (starts : Text.offset source first.start ≤ Text.offset source second.start)
    (disjoint : ∀ byte < Text.byteLength source,
      ¬ (first.CoversByte source byte ∧ second.CoversByte source byte))
    (ordered : first.Ordered) (ordered' : second.Ordered) : first.Apart source second := by
  have upTo := @Text.place_mono source _ _ ordered
  have upTo' := @Text.place_mono source _ _ ordered'
  by_contra overlap
  unfold Apart at overlap
  -- Both cover the byte that the second one starts with.
  have inFirst : Text.offset source second.start < Text.offset source first.stop :=
    Text.offset_lt_offset_iff.2 (by omega)
  have inSecond : Text.offset source second.start < Text.offset source second.stop :=
    Text.offset_lt_offset_iff.2 (by omega)
  exact disjoint _ (Nat.lt_of_lt_of_le inFirst (Text.byteLength_take_le source _))
    ⟨⟨starts, inFirst⟩, Nat.le_refl _, inSecond⟩

/-- **Filling gaps puts in exactly the uncovered text.** The given tokens may overlap and lie past the
end of the text, as long as none ends before it starts and their starts do not go back. They stay as
they are and in their order, and the tokens that are put in between are the text that none of them
covers. If no byte is covered twice and the literals are those of the ranges, then all literals
together are the source. -/
theorem fillGaps_uncovered (ordered : ∀ token ∈ tokens, token.range.Ordered)
    (starts : tokens.Pairwise fun first second =>
      Text.offset source.toList first.range.start ≤ Text.offset source.toList second.range.start) :
    (fillGapsMarked source kind tokens).map Prod.fst = fillGaps source kind tokens ∧
      ((fillGapsMarked source kind tokens).filter Prod.snd).map Prod.fst = tokens ∧
      Token.Uncovered source.toList kind tokens (gapTokens source kind tokens) ∧
      ((tokens.Pairwise fun first second => ∀ byte < Text.byteLength source.toList,
          ¬ (first.range.CoversByte source.toList byte ∧
            second.range.CoversByte source.toList byte)) →
        (∀ token ∈ tokens, token.literal.toList = Text.slice source.toList token.range) →
        Token.textOf (fillGaps source kind tokens) = source.toList) := by
  have places : tokens.Pairwise fun first second =>
      Text.place source.toList first.range.start ≤ Text.place source.toList second.range.start :=
    starts.imp Text.offset_le_offset_iff.1
  refine ⟨map_fst_fillGapsMarked source kind tokens, filter_snd_fillGapsMarked source kind tokens,
    ⟨fun gap => gapTokens_literal, fun gap => gapTokens_proper, ?_, fun byte inside => ?_⟩,
    fun disjoint literal => ?_⟩
  · exact (gapTokensFrom_apart ordered).imp Text.offset_le_offset_iff.2
  · simp only [Range.coversByte_iff, not_exists, not_and]
    exact exists_gap_covers_iff places (Nat.zero_le _) (Text.charsWithin_lt inside)
  · have apart : tokens.Pairwise fun first second =>
        first.range.Apart source.toList second.range :=
      (starts.and disjoint).imp_of_mem fun isFirst isSecond ⟨upTo, once⟩ =>
        Range.apart_of_disjoint upTo once (ordered _ isFirst) (ordered _ isSecond)
    have text := textOf_fillGapsFrom kind (Nat.zero_le _) ordered places apart literal
      fun token _ => Or.inr (Nat.zero_le _)
    rwa [Text.part_whole] at text

/-- A text with a character of two bytes. A token starts behind the first one, an empty one starts
where the one before it does, a line feed ends one column past its line, and the last token lies past
the end of the text. -/
theorem fillGaps_uncovered_pastEnd :
    let source := "é = 1\n  y\n"
    let tokens : List Token := [⟨"NAME", ⟨⟨0, 0⟩, ⟨0, 1⟩⟩, "é"⟩, ⟨"OP", ⟨⟨0, 2⟩, ⟨0, 3⟩⟩, "="⟩,
      ⟨"NUMBER", ⟨⟨0, 4⟩, ⟨0, 5⟩⟩, "1"⟩, ⟨"DEDENT", ⟨⟨0, 4⟩, ⟨0, 4⟩⟩, ""⟩,
      ⟨"NEWLINE", ⟨⟨0, 5⟩, ⟨0, 6⟩⟩, "\n"⟩, ⟨"NAME", ⟨⟨1, 2⟩, ⟨1, 3⟩⟩, "y"⟩,
      ⟨"ENDMARKER", ⟨⟨7, 0⟩, ⟨7, 3⟩⟩, ""⟩]
    (∀ token ∈ tokens, token.range.Ordered) ∧
      (tokens.Pairwise fun first second =>
        Text.offset source.toList first.range.start ≤
          Text.offset source.toList second.range.start) ∧
      (gapTokens source "WHITESPACE" tokens).map Token.literal = [" ", " ", "  ", "\n"] ∧
      Token.Uncovered source.toList "WHITESPACE" tokens (gapTokens source "WHITESPACE" tokens) ∧
      Token.textOf (fillGaps source "WHITESPACE" tokens) = source.toList := by
  intro source tokens
  have ordered : ∀ token ∈ tokens, token.range.Ordered := by decide
  have starts : tokens.Pairwise fun first second =>
      Text.offset source.toList first.range.start ≤
        Text.offset source.toList second.range.start := by decide +kernel
  obtain ⟨-, -, uncovered, whole⟩ := @fillGaps_uncovered source "WHITESPACE" tokens ordered starts
  exact ⟨ordered, starts, by decide +kernel, uncovered,
    whole (by decide +kernel) (by decide +kernel)⟩

end Whole

end CellSyntax
