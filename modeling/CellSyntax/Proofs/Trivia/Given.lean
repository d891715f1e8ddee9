/-
**Which tokens are given and which fill gaps.**

Filling gaps puts tokens in between the given ones. The filled sequence with a mark at each token
tells the two kinds apart: without the marks it is what `fillGaps` yields, and the marked tokens in
it are the given ones, in their order. A token that fills a gap has text, so it does not end where it
starts; if its text has no line break then it ends on the line that it starts on.

* `map_fst_fillGapsMarked`, `filter_snd_fillGapsMarked`: the marks;
* `mem_gapTokens_or_mem`: there are no other tokens than these two kinds;
* `exists_gap_of_mem`: what a token is that fills a gap;
* `mem_of_isGiven`, `mem_gapTokens_of_not_isGiven`: the marks, by the numbers of tokens.
-/

import CellSyntax.Proofs.Text.Displacement
import CellSyntax.Proofs.Trivia.Tiling

namespace CellSyntax

variable {source : List Char} {text kind : String} {tokens : List Token} {token : Token}
  {lexeme : Lexeme} {covered first last : Nat}

/-! ### Marks -/

/-- The tokens with gaps filled, as by `fillGapsFrom`, each with whether it is a given one. -/
def fillGapsMarkedFrom (source : List Char) (kind : String) (covered : Nat) :
    List Token → List (Token × Bool)
  | [] => (gapBetween source kind covered source.length).map (·, false)
  | token :: rest =>
    (gapBetween source kind covered (Text.place source token.range.start)).map (·, false) ++
      (token, true) :: fillGapsMarkedFrom source kind
        (max covered (Text.place source token.range.stop)) rest

/-- **The tokens with gaps filled, each with whether it is a given one.** -/
def fillGapsMarked (text kind : String) (tokens : List Token) : List (Token × Bool) :=
  fillGapsMarkedFrom text.toList kind 0 tokens

/-- The tokens that filling gaps puts in. -/
def gapTokens (text kind : String) (tokens : List Token) : List Token :=
  ((fillGapsMarked text kind tokens).filter fun item => !item.2).map Prod.fst

/-- Whether the token with a number in the filled sequence is a given one. -/
def isGiven (text kind : String) (tokens : List Token) (number : Nat) : Bool :=
  ((fillGapsMarked text kind tokens)[number]?).any Prod.snd

/-- **Without the marks it is the filled sequence.** -/
theorem map_fst_fillGapsMarked (text kind : String) (tokens : List Token) :
    (fillGapsMarked text kind tokens).map Prod.fst = fillGaps text kind tokens := by
  have unmarked (gap : List Token) : (gap.map (·, false)).map Prod.fst = gap := by
    rw [List.map_map]
    exact List.map_id _
  have from_ (covered : Nat) : (fillGapsMarkedFrom text.toList kind covered tokens).map Prod.fst =
      fillGapsFrom text.toList kind covered tokens := by
    induction tokens generalizing covered with
    | nil => exact unmarked _
    | cons token rest ih =>
      rw [fillGapsMarkedFrom, List.map_append, unmarked, List.map_cons, ih, fillGapsFrom_cons]
  exact from_ 0

/-- **The marked tokens are the given ones**, in their order. -/
theorem filter_snd_fillGapsMarked (text kind : String) (tokens : List Token) :
    ((fillGapsMarked text kind tokens).filter Prod.snd).map Prod.fst = tokens := by
  have unmarked (gap : List Token) : (gap.map (·, false)).filter Prod.snd = [] := by
    rw [List.filter_eq_nil_iff]
    intro item member
    obtain ⟨_, -, rfl⟩ := List.mem_map.1 member
    exact Bool.false_ne_true
  have from_ (covered : Nat) :
      ((fillGapsMarkedFrom text.toList kind covered tokens).filter Prod.snd).map Prod.fst =
        tokens := by
    induction tokens generalizing covered with
    | nil =>
      rw [fillGapsMarkedFrom, unmarked]
      rfl
    | cons token rest ih =>
      rw [fillGapsMarkedFrom, List.filter_append, unmarked, List.nil_append,
        List.filter_cons_of_pos rfl, List.map_cons, ih]
  exact from_ 0

theorem mem_of_marked (marked : (token, true) ∈ fillGapsMarked text kind tokens) :
    token ∈ tokens := by
  rw [← filter_snd_fillGapsMarked text kind tokens]
  exact List.mem_map_of_mem (f := Prod.fst) (List.mem_filter.2 ⟨marked, rfl⟩)

theorem mem_gapTokens_of_unmarked (unmarked : (token, false) ∈ fillGapsMarked text kind tokens) :
    token ∈ gapTokens text kind tokens :=
  List.mem_map_of_mem (f := Prod.fst) (List.mem_filter.2 ⟨unmarked, rfl⟩)

/-- **A token of the filled sequence fills a gap or is a given one.** -/
theorem mem_gapTokens_or_mem (member : token ∈ fillGaps text kind tokens) :
    token ∈ gapTokens text kind tokens ∨ token ∈ tokens := by
  rw [← map_fst_fillGapsMarked] at member
  obtain ⟨⟨token, mark⟩, isItem, rfl⟩ := List.mem_map.1 member
  cases mark with
  | false => exact Or.inl (mem_gapTokens_of_unmarked isItem)
  | true => exact Or.inr (mem_of_marked isItem)

/-! ### Tokens that fill gaps -/

theorem exists_gap_of_mem_between (inside : last ≤ source.length)
    (member : (token, false) ∈ (gapBetween source kind covered last).map (·, false)) :
    ∃ first last, first < last ∧ last ≤ source.length ∧
      token = gapToken source kind first last := by
  obtain ⟨_, isGap, same⟩ := List.mem_map.1 member
  cases same
  unfold gapBetween at isGap
  split at isGap
  · rename_i less
    exact ⟨covered, last, less, inside, List.mem_singleton.1 isGap⟩
  · cases isGap

theorem exists_gap_of_mem_from
    (member : (token, false) ∈ fillGapsMarkedFrom source kind covered tokens) :
    ∃ first last, first < last ∧ last ≤ source.length ∧
      token = gapToken source kind first last := by
  induction tokens generalizing covered with
  | nil => exact exists_gap_of_mem_between (Nat.le_refl _) member
  | cons given rest ih =>
    rw [fillGapsMarkedFrom] at member
    rcases List.mem_append.1 member with gap | later
    · exact exists_gap_of_mem_between (Text.place_le_length _ _) gap
    · rcases List.mem_cons.1 later with same | inside
      · cases same
      · exact ih inside

/-- **A token that fills a gap** is the one for the text from some place up to a later one. -/
theorem exists_gap_of_mem (member : token ∈ gapTokens text kind tokens) :
    ∃ first last, first < last ∧ last ≤ text.toList.length ∧
      token = gapToken text.toList kind first last := by
  obtain ⟨⟨gap, mark⟩, inside, rfl⟩ := List.mem_map.1 member
  obtain ⟨isItem, unmarked⟩ := List.mem_filter.1 inside
  cases mark with
  | true => cases unmarked
  | false => exact exists_gap_of_mem_from isItem

/-- A token that fills a gap does not end where it starts. -/
theorem gapTokens_start_lt (member : token ∈ gapTokens text kind tokens) :
    token.range.start < token.range.stop := by
  obtain ⟨first, last, less, inside, rfl⟩ := exists_gap_of_mem member
  rw [gapToken_range kind less inside]
  exact Text.positionAt_lt less inside

/-- **A token that fills a gap without a line break lies on one line.** -/
theorem gapTokens_oneLine (member : token ∈ gapTokens text kind tokens)
    (oneLine : '\n' ∉ token.literal.toList) : token.range.start.line = token.range.stop.line := by
  obtain ⟨first, last, less, inside, rfl⟩ := exists_gap_of_mem member
  have literal : (gapToken text.toList kind first last).literal.toList =
      Text.part text.toList first last := String.toList_ofList
  rw [literal] at oneLine
  have upTo := Nat.le_of_lt less
  have whole : Text.part text.toList 0 first ++ Text.part text.toList first last =
      Text.part text.toList 0 last := Text.part_append_part (Nat.zero_le first) upTo
  rw [Text.part_zero, Text.part_zero] at whole
  rw [gapToken_range kind less inside, Text.positionAt_eq_endOf inside,
    Text.positionAt_eq_endOf (Nat.le_trans upTo inside), ← whole, Text.endOf_append,
    Position.plus, if_pos (Text.endOf_line_of_not_mem oneLine)]

/-! ### Marks by number -/

theorem Lexeme.getElem?_sequenceFrom (first : Nat) (tokens : List Token) (place : Nat) :
    (sequenceFrom first tokens)[place]? = tokens[place]?.map (⟨first + place, ·⟩) := by
  induction tokens generalizing first place with
  | nil => rfl
  | cons token rest ih =>
    cases place with
    | zero => rfl
    | succ place =>
      rw [sequenceFrom, List.getElem?_cons_succ, List.getElem?_cons_succ, ih, Nat.add_assoc,
        Nat.add_comm 1 place]

/-- A token of the filled sequence is in the marked one, with its mark. -/
theorem mem_fillGapsMarked (member : lexeme ∈ Lexeme.sequence (fillGaps text kind tokens)) :
    (lexeme.token, isGiven text kind tokens lexeme.number) ∈ fillGapsMarked text kind tokens := by
  rw [← map_fst_fillGapsMarked, Lexeme.sequence] at member
  obtain ⟨place, found⟩ := List.mem_iff_getElem?.1 member
  rw [Lexeme.getElem?_sequenceFrom, List.getElem?_map, Option.map_map] at found
  obtain ⟨⟨token, mark⟩, isItem, rfl⟩ := Option.map_eq_some_iff.1 found
  simp only [Function.comp_apply, Nat.zero_add]
  rw [isGiven, isItem]
  exact List.mem_of_getElem? isItem

theorem mem_of_isGiven (member : lexeme ∈ Lexeme.sequence (fillGaps text kind tokens))
    (given : isGiven text kind tokens lexeme.number = true) : lexeme.token ∈ tokens := by
  have marked := mem_fillGapsMarked member
  rw [given] at marked
  exact mem_of_marked marked

/-- **A token without a mark fills a gap.** -/
theorem mem_gapTokens_of_not_isGiven
    (member : lexeme ∈ Lexeme.sequence (fillGaps text kind tokens))
    (other : isGiven text kind tokens lexeme.number = false) :
    lexeme.token ∈ gapTokens text kind tokens := by
  have unmarked := mem_fillGapsMarked member
  rw [other] at unmarked
  exact mem_gapTokens_of_unmarked unmarked

end CellSyntax
