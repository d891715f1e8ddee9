/-
**Filling gaps keeps tokens in order.**

A gap starts at the position of the place where it begins. The tokens in front of it may start at
positions that are not in the text, past their line or past the last line. Still none of them starts
behind the gap: its place is accounted for, and a position is at most that of any later place inside
the text. A token behind the gap has a later place than the gap, and so a later start. The filled
tokens are thus in the order of their starts, which is what the search for the window of a node relies
on. If the given tokens do not overlap and reach the positions of their places, neither do the filled
ones.

* `Text.le_positionAt_of_place_le`, `Text.positionAt_le_of_lt_place`: the position of a place between
  those of two others;
* `fillGapsFrom_starts`: the order of starts, at any point of the run;
* `fillGaps_starts`: the order of the filled tokens, and the search in them.
-/

import CellSyntax.Proofs.Trivia.Tiling
import CellSyntax.Proofs.Zip.Windows

namespace CellSyntax

namespace Text

variable {source : List Char} {position : Position} {spot : Nat}

/-- A position whose place is not behind another one is not behind the position of that, inside the
text. -/
theorem le_positionAt_of_place_le (upTo : place source position ≤ spot)
    (inside : spot < source.length) : position ≤ positionAt source spot := by
  have clamped := le_positionAt_place (Nat.lt_of_le_of_lt upTo inside)
  rcases Nat.lt_or_eq_of_le upTo with less | same
  · exact Position.le_trans clamped (Position.le_of_lt (positionAt_lt less (Nat.le_of_lt inside)))
  · rwa [same] at clamped

/-- A position whose place is behind another one is behind the position of that. -/
theorem positionAt_le_of_lt_place (less : spot < place source position) :
    positionAt source spot ≤ position := by
  refine (Position.le_total _ _).resolve_right fun before => ?_
  have mono := @place_mono source _ _ before
  rw [place_positionAt (Nat.le_of_lt (Nat.lt_of_lt_of_le less (place_le_length _ _)))] at mono
  exact Nat.not_lt.2 mono less

end Text

section Run

variable {source : List Char} {kind : String} {tokens : List Token} {item : Token} {covered : Nat}
  {position : Position}

/-- A gap does not start in front of a position that is accounted for. -/
theorem le_start_of_mem_gapBetween {last : Nat} (upTo : Text.place source position ≤ covered)
    (inside : last ≤ source.length) (member : item ∈ gapBetween source kind covered last) :
    position ≤ item.range.start := by
  unfold gapBetween at member
  split at member
  · rename_i less
    rw [List.mem_singleton.1 member, gapToken_range kind less inside]
    exact Text.le_positionAt_of_place_le upTo (Nat.lt_of_lt_of_le less inside)
  · cases member

/-- A gap in front of a token does not start behind it. -/
theorem start_le_of_mem_gapBetween
    (member : item ∈ gapBetween source kind covered (Text.place source position)) :
    item.range.start ≤ position := by
  unfold gapBetween at member
  split at member
  · rename_i less
    rw [List.mem_singleton.1 member, gapToken_range kind less (Text.place_le_length _ _)]
    exact Text.positionAt_le_of_lt_place less
  · cases member

/-- No token of a filled run starts in front of a position that is accounted for and that no given
token starts in front of. -/
theorem le_start_of_mem_fillGapsFrom (upTo : Text.place source position ≤ covered)
    (starts : ∀ token ∈ tokens, position ≤ token.range.start)
    (member : item ∈ fillGapsFrom source kind covered tokens) : position ≤ item.range.start := by
  induction tokens generalizing covered with
  | nil => exact le_start_of_mem_gapBetween upTo (Nat.le_refl _) member
  | cons token rest ih =>
    obtain ⟨here, later⟩ := List.forall_mem_cons.1 starts
    rw [fillGapsFrom_cons] at member
    rcases List.mem_append.1 member with isGap | behind
    · exact le_start_of_mem_gapBetween upTo (Text.place_le_length _ _) isGap
    · rcases List.mem_cons.1 behind with rfl | inRest
      · exact here
      · exact ih (Nat.le_trans upTo (Nat.le_max_left _ _)) later inRest

/-- **The tokens of a filled run are in the order of their starts.** -/
theorem fillGapsFrom_starts (ordered : ∀ token ∈ tokens, token.range.Ordered)
    (starts : tokens.Pairwise fun first second => first.range.start ≤ second.range.start) :
    (fillGapsFrom source kind covered tokens).Pairwise fun first second =>
      first.range.start ≤ second.range.start := by
  induction tokens generalizing covered with
  | nil => exact gapBetween_pairwise _ source kind covered source.length
  | cons token rest ih =>
    obtain ⟨orderedHere, orderedLater⟩ := List.forall_mem_cons.1 ordered
    obtain ⟨startsHere, startsLater⟩ := List.pairwise_cons.1 starts
    -- The text up to the end of the token is accounted for behind it, and its start with it.
    have behind : ∀ item ∈ fillGapsFrom source kind
        (max covered (Text.place source token.range.stop)) rest,
        token.range.start ≤ item.range.start := fun item member =>
      le_start_of_mem_fillGapsFrom
        (Nat.le_trans (Text.place_mono orderedHere) (Nat.le_max_right _ _)) startsHere member
    rw [fillGapsFrom_cons]
    refine List.pairwise_append.2 ⟨gapBetween_pairwise _ source kind covered _,
      List.pairwise_cons.2 ⟨behind, ih orderedLater startsLater⟩, fun gap isGap item isItem => ?_⟩
    have front := start_le_of_mem_gapBetween isGap
    rcases List.mem_cons.1 isItem with rfl | inRest
    · exact front
    · exact Position.le_trans front (behind item inRest)

end Run

/-! ### The whole run -/

section Whole

variable {source kind : String} {tokens : List Token}

/-- Numbering tokens does not change the order of their starts. -/
theorem startOrdered_sequence_iff :
    StartOrdered (Lexeme.sequence tokens) ↔
      tokens.Pairwise fun first second => first.range.start ≤ second.range.start := by
  have numbered : ((Lexeme.sequence tokens).map Lexeme.token).Pairwise
      (fun first second => first.range.start ≤ second.range.start) ↔
        StartOrdered (Lexeme.sequence tokens) := List.pairwise_map
  rw [(Lexeme.number_sequence tokens).2] at numbered
  exact numbered.symm

/-- **Filling gaps keeps tokens in the order of their starts**, if none of them ends before it starts,
so that the search in any window of them cuts it where the tokens stop to start before the position.
If the given tokens also do not overlap and each starts at or behind the position of its offset, then
the filled ones do not overlap either. -/
theorem fillGaps_starts (ordered : ∀ token ∈ tokens, token.range.Ordered)
    (starts : tokens.Pairwise fun first second => first.range.start ≤ second.range.start) :
    ((fillGaps source kind tokens).Pairwise fun first second =>
        first.range.start ≤ second.range.start) ∧
      (∀ window, window <:+: Lexeme.sequence (fillGaps source kind tokens) →
        ∀ position, ∀ lexeme ∈ window,
          (lexeme ∈ beforeLead position window ↔ lexeme.start < position) ∧
            (lexeme ∈ fromLead position window ↔ position ≤ lexeme.start)) ∧
      ((tokens.IsChain fun first second => first.range.stop ≤ second.range.start) →
        (∀ token ∈ tokens, Text.position source.toList
          (Text.offset source.toList token.range.start) ≤ token.range.start) →
        (∀ token ∈ fillGaps source kind tokens, token.range.Ordered) ∧
          (fillGaps source kind tokens).IsChain fun first second =>
            first.range.stop ≤ second.range.start) := by
  have filled : (fillGaps source kind tokens).Pairwise fun first second =>
      first.range.start ≤ second.range.start := fillGapsFrom_starts ordered starts
  refine ⟨filled, fun window inside position lexeme member => ?_, fun following reached => ?_⟩
  · have inOrder := (startOrdered_sequence_iff.2 filled).of_inside inside
    exact ⟨inOrder.mem_beforeLead_iff.trans (and_iff_right member),
      inOrder.mem_fromLead_iff.trans (and_iff_right member)⟩
  · simp only [Text.position_offset] at reached
    obtain ⟨filledOrdered, filledFollowing⟩ := fillGaps_inOrder kind ⟨ordered, following⟩ reached
    exact ⟨filledOrdered, filledFollowing⟩

/-- A line feed that ends past its line, a token that starts past the end of the text and one on a line
behind the last one: the gaps in front of them end at other positions than those where they start. -/
theorem fillGaps_starts_pastEnd :
    let source := "a\n b "
    let tokens : List Token := [⟨"NAME", ⟨⟨0, 0⟩, ⟨0, 1⟩⟩, "a"⟩, ⟨"NL", ⟨⟨0, 1⟩, ⟨0, 2⟩⟩, "\n"⟩,
      ⟨"NAME", ⟨⟨1, 1⟩, ⟨1, 2⟩⟩, "b"⟩, ⟨"NEWLINE", ⟨⟨1, 4⟩, ⟨1, 5⟩⟩, ""⟩,
      ⟨"ENDMARKER", ⟨⟨2, 0⟩, ⟨2, 0⟩⟩, ""⟩]
    (∀ token ∈ tokens, token.range.Ordered) ∧
      (tokens.Pairwise fun first second => first.range.start ≤ second.range.start) ∧
      (tokens.IsChain fun first second => first.range.stop ≤ second.range.start) ∧
      (∀ token ∈ tokens, Text.position source.toList
        (Text.offset source.toList token.range.start) ≤ token.range.start) ∧
      (fillGaps source "WHITESPACE" tokens).map Token.range =
        [⟨⟨0, 0⟩, ⟨0, 1⟩⟩, ⟨⟨0, 1⟩, ⟨0, 2⟩⟩, ⟨⟨1, 0⟩, ⟨1, 1⟩⟩, ⟨⟨1, 1⟩, ⟨1, 2⟩⟩, ⟨⟨1, 2⟩, ⟨1, 3⟩⟩,
          ⟨⟨1, 4⟩, ⟨1, 5⟩⟩, ⟨⟨2, 0⟩, ⟨2, 0⟩⟩] ∧
      ((fillGaps source "WHITESPACE" tokens).Pairwise fun first second =>
        first.range.start ≤ second.range.start) ∧
      (fillGaps source "WHITESPACE" tokens).IsChain fun first second =>
        first.range.stop ≤ second.range.start := by
  intro source tokens
  have ordered : ∀ token ∈ tokens, token.range.Ordered := by decide
  have starts : tokens.Pairwise fun first second => first.range.start ≤ second.range.start := by
    decide
  have following : tokens.IsChain fun first second => first.range.stop ≤ second.range.start := by
    decide
  have reached : ∀ token ∈ tokens, Text.position source.toList
      (Text.offset source.toList token.range.start) ≤ token.range.start := by decide +kernel
  obtain ⟨filled, -, apart⟩ := @fillGaps_starts source "WHITESPACE" tokens ordered starts
  exact ⟨ordered, starts, following, reached, by decide +kernel, filled,
    (apart following reached).2⟩

end Whole

end CellSyntax
