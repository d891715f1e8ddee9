/-
**Filling gaps once is enough.**

A run of filling gaps puts nothing in if each token starts in the text that is accounted for and at the
end all of it is. Tokens that are so arranged are exactly those that filling gaps leaves as they are.
Whatever the given tokens are, in order or not, overlapping, past the end of the text or inverted, the
filled ones are so arranged: a token that was put in ends where the next one starts, and the text that
is accounted for on the second run is at every point at least that of the first one.

* `Covering`, `fillGapsFrom_eq_self_iff`: what filling gaps leaves as it is;
* `covering_fillGapsFrom`: the filled tokens, with more accounted for than when they were filled;
* `fillGaps_fillGaps`: filling gaps twice.
-/

import CellSyntax.Proofs.Trivia.Tiling

namespace CellSyntax

variable {source : List Char} {kind : String} {tokens rest : List Token}
  {covered covered' last : Nat}

/-- **Tokens that leave no gap**, all text before the place `covered` being accounted for. -/
def Covering (source : List Char) : (covered : Nat) → List Token → Prop
  | covered, [] => source.length ≤ covered
  | covered, token :: rest =>
    Text.place source token.range.start ≤ covered ∧
      Covering source (max covered (Text.place source token.range.stop)) rest

theorem gapBetween_eq_nil_iff {first last : Nat} :
    gapBetween source kind first last = [] ↔ last ≤ first := by
  unfold gapBetween
  split
  · simp only [List.cons_ne_nil, false_iff]
    omega
  · simp only [true_iff]
    omega

/-- Filling gaps takes no token out. -/
theorem length_le_fillGapsFrom (source : List Char) (kind : String) (covered : Nat)
    (tokens : List Token) : tokens.length ≤ (fillGapsFrom source kind covered tokens).length := by
  induction tokens generalizing covered with
  | nil => exact Nat.zero_le _
  | cons token rest ih =>
    have later := ih (max covered (Text.place source token.range.stop))
    rw [fillGapsFrom_cons, List.length_append, List.length_cons, List.length_cons]
    omega

/-- **What filling gaps leaves as it is**: tokens that leave no gap, and no others. -/
theorem fillGapsFrom_eq_self_iff :
    fillGapsFrom source kind covered tokens = tokens ↔ Covering source covered tokens := by
  induction tokens generalizing covered with
  | nil =>
    rw [fillGapsFrom_nil]
    exact gapBetween_eq_nil_iff
  | cons token rest ih =>
    rw [fillGapsFrom_cons, Covering, ← ih, ← @gapBetween_eq_nil_iff source kind]
    constructor
    · intro same
      have more := length_le_fillGapsFrom source kind
        (max covered (Text.place source token.range.stop)) rest
      have size := congrArg List.length same
      rw [List.length_append, List.length_cons, List.length_cons] at size
      have none := List.length_eq_zero_iff.1 (by omega :
        (gapBetween source kind covered (Text.place source token.range.start)).length = 0)
      rw [none, List.nil_append] at same
      exact ⟨none, (List.cons.inj same).2⟩
    · rintro ⟨none, same⟩
      rw [none, same, List.nil_append]

/-- A gap that was filled leaves none behind it, if at least what was accounted for then still is. -/
theorem Covering.gapBetween_append (upTo : covered ≤ covered') (inside : last ≤ source.length)
    (covering : Covering source (max covered' last) rest) :
    Covering source covered' (gapBetween source kind covered last ++ rest) := by
  unfold gapBetween
  split
  · rename_i less
    rw [List.singleton_append, Covering, gapToken_range kind less inside,
      Text.place_positionAt inside,
      Text.place_positionAt (Nat.le_trans (Nat.le_of_lt less) inside)]
    exact ⟨upTo, covering⟩
  · rename_i notLess
    rwa [Nat.max_eq_left (by omega)] at covering

/-- **Filled tokens leave no gap**, if at least what was accounted for when they were filled is. -/
theorem covering_fillGapsFrom (upTo : covered ≤ covered') :
    Covering source covered' (fillGapsFrom source kind covered tokens) := by
  induction tokens generalizing covered covered' with
  | nil =>
    rw [fillGapsFrom_nil, ← List.append_nil (gapBetween _ _ _ _)]
    exact .gapBetween_append upTo (Nat.le_refl _) (Nat.le_max_right _ _)
  | cons token rest ih =>
    rw [fillGapsFrom_cons]
    exact .gapBetween_append upTo (Text.place_le_length _ _)
      ⟨Nat.le_max_right _ _, ih (by omega)⟩

/-- **Filling gaps twice changes nothing more**, whatever the tokens are and whatever kind is asked
for on the second run. -/
theorem fillGaps_fillGaps (source kind kind' : String) (tokens : List Token) :
    fillGaps source kind' (fillGaps source kind tokens) = fillGaps source kind tokens :=
  fillGapsFrom_eq_self_iff.2 (covering_fillGapsFrom (Nat.le_refl _))

end CellSyntax
