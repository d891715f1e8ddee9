/-
**Filling gaps makes the tokens tile the source.**

Tokens tile a text between two places if each starts at the place where the one before it stops and
its literal is the text of its range. A run of such tokens has the text of the range from its first
start to its last stop. Tokens that do not overlap and whose literals are right tile the whole
source once the gaps between them are filled. They still do not overlap then, as long as each of
them starts at or after the position of its own place: a gap ends at that position.

* `Tiles.text_eq_slice`: the text of a run of tokens is that of its range;
* `fillGaps_tiles`: filling gaps makes tokens tile the source;
* `fillGaps_inOrder`: filling gaps makes no tokens overlap.
-/

import CellSyntax.Proofs.Text.Places
import CellSyntax.Proofs.Token.InOrder
import CellSyntax.Trivia

namespace CellSyntax

/-! ### Tilings -/

/-- **Tokens that tile a text** from one place up to another. -/
def Tiles (source : List Char) : (first : Nat) → List Token → (last : Nat) → Prop
  | first, [], last => first = last
  | first, token :: rest, last =>
    Text.place source token.range.start = first ∧ first ≤ Text.place source token.range.stop ∧
      token.literal.toList = Text.slice source token.range ∧
      Tiles source (Text.place source token.range.stop) rest last

/-- The literals of tokens, one after the other. -/
def Token.textOf (tokens : List Token) : List Char :=
  tokens.flatMap fun token => token.literal.toList

section Tilings

variable {source : List Char} {first last : Nat} {tokens run : List Token}

theorem tiles_append {others : List Token} :
    Tiles source first (tokens ++ others) last ↔
      ∃ middle, Tiles source first tokens middle ∧ Tiles source middle others last := by
  induction tokens generalizing first with
  | nil => exact ⟨fun tiles => ⟨first, rfl, tiles⟩, fun ⟨_, same, tiles⟩ => same ▸ tiles⟩
  | cons token rest ih =>
    constructor
    · rintro ⟨start, ordered, literal, later⟩
      obtain ⟨middle, left, right⟩ := ih.1 later
      exact ⟨middle, ⟨start, ordered, literal, left⟩, right⟩
    · rintro ⟨middle, ⟨start, ordered, literal, left⟩, right⟩
      exact ⟨start, ordered, literal, ih.2 ⟨middle, left, right⟩⟩

namespace Tiles

theorem le (tiles : Tiles source first tokens last) : first ≤ last := by
  induction tokens generalizing first with
  | nil => exact Nat.le_of_eq tiles
  | cons token rest ih => exact Nat.le_trans tiles.2.1 (ih tiles.2.2.2)

/-- **Tokens that tile a text have the text between the two places.** -/
theorem text_eq_part (tiles : Tiles source first tokens last) :
    Token.textOf tokens = Text.part source first last := by
  induction tokens generalizing first with
  | nil =>
    obtain rfl : first = last := tiles
    rw [Text.part_self]
    rfl
  | cons token rest ih =>
    obtain ⟨rfl, ordered, literal, later⟩ := tiles
    have following : Token.textOf (token :: rest) = token.literal.toList ++ Token.textOf rest :=
      List.flatMap_cons
    rw [following, literal, ih later, Text.slice, Text.part_append_part ordered later.le]

theorem of_infix (tiles : Tiles source first tokens last) (within : run <:+: tokens) :
    ∃ start stop, Tiles source start run stop := by
  obtain ⟨before, after, rfl⟩ := within
  obtain ⟨stop, front, -⟩ := tiles_append.1 tiles
  obtain ⟨start, -, middle⟩ := tiles_append.1 front
  exact ⟨start, stop, middle⟩

theorem head_place {token : Token} (tiles : Tiles source first tokens last)
    (starts : tokens.head? = some token) : Text.place source token.range.start = first := by
  obtain ⟨rest, rfl⟩ := List.head?_eq_some_iff.1 starts
  exact tiles.1

theorem last_place {token : Token} (tiles : Tiles source first tokens last)
    (ends : tokens.getLast? = some token) : Text.place source token.range.stop = last := by
  obtain ⟨earlier, rfl⟩ := List.getLast?_eq_some_iff.1 ends
  obtain ⟨middle, -, -, -, -, same⟩ := tiles_append.1 tiles
  exact same

/-- **The text of a run of tokens is that of its range.** -/
theorem text_eq_slice {firstToken lastToken : Token} (tiles : Tiles source first tokens last)
    (within : run <:+: tokens) (starts : run.head? = some firstToken)
    (ends : run.getLast? = some lastToken) :
    Token.textOf run = Text.slice source ⟨firstToken.range.start, lastToken.range.stop⟩ := by
  obtain ⟨start, stop, inside⟩ := tiles.of_infix within
  rw [inside.text_eq_part, Text.slice, inside.head_place starts, inside.last_place ends]

end Tiles

end Tilings

/-! ### Filling a gap -/

section Gaps

variable {source : List Char} {kind : String} {first last : Nat}

/-- The token for the text between two places, if there is any. -/
def gapBetween (source : List Char) (kind : String) (first last : Nat) : List Token :=
  if first < last then [gapToken source kind first last] else []

/-- There is at most one such token. -/
theorem gapBetween_pairwise (holds : Token → Token → Prop) (source : List Char) (kind : String)
    (first last : Nat) : (gapBetween source kind first last).Pairwise holds := by
  unfold gapBetween
  split
  · exact List.pairwise_singleton _ _
  · exact .nil

theorem fillGapsFrom_nil (source : List Char) (kind : String) (covered : Nat) :
    fillGapsFrom source kind covered [] = gapBetween source kind covered source.length := rfl

theorem fillGapsFrom_cons (source : List Char) (kind : String) (covered : Nat) (token : Token)
    (rest : List Token) :
    fillGapsFrom source kind covered (token :: rest) =
      gapBetween source kind covered (Text.place source token.range.start) ++
        token :: fillGapsFrom source kind
          (max covered (Text.place source token.range.stop)) rest := by
  simp only [fillGapsFrom, gapBetween]
  split <;> rfl

/-- The token for a gap covers the text from the position of its first place to that of its
last. -/
theorem gapToken_range (kind : String) (less : first < last) (inside : last ≤ source.length) :
    (gapToken source kind first last).range =
      ⟨Text.positionAt source first, Text.positionAt source last⟩ :=
  Range.ofEnds_of_le (Position.le_of_lt (Text.positionAt_lt less inside))

theorem gapBetween_tiles (ordered : first ≤ last) (inside : last ≤ source.length) :
    Tiles source first (gapBetween source kind first last) last := by
  unfold gapBetween
  split
  · rename_i less
    have start := Text.place_positionAt (Nat.le_trans ordered inside)
    have stop := Text.place_positionAt inside
    refine ⟨?_, ?_, ?_, ?_⟩
    · rw [gapToken_range kind less inside, start]
    · rw [gapToken_range kind less inside, stop]
      exact ordered
    · rw [gapToken_range kind less inside, Text.slice, start, stop]
      exact String.toList_ofList
    · rw [gapToken_range kind less inside]
      exact stop
  · rename_i notLess
    exact Nat.le_antisymm ordered (Nat.not_lt.1 notLess)

/-- A gap after `stop` keeps tokens from overlapping. -/
theorem gapBetween_inOrderFrom {stop : Position} {tokens : List Token}
    (inside : last ≤ source.length) (after : Token.InOrderFrom stop tokens)
    (afterGap : Token.InOrderFrom (Text.positionAt source last) tokens) :
    Token.InOrderFrom stop (gapBetween source kind (Text.place source stop) last ++ tokens) := by
  unfold gapBetween
  split
  · rename_i less
    have span := gapToken_range kind less inside
    refine ⟨?_, ?_, ?_⟩
    · rw [span]
      exact Text.le_positionAt_place (Nat.lt_of_lt_of_le less inside)
    · rw [span]
      exact Position.le_of_lt (Text.positionAt_lt less inside)
    · rw [span]
      exact afterGap
  · exact after

end Gaps

/-! ### Filling all gaps -/

section Fill

variable {source : List Char} {stop : Position} {tokens : List Token}

/-- What is covered after a token that is in order is what comes before its end. -/
theorem max_place_stop {start stop' : Position} (after : stop ≤ start) (ordered : start ≤ stop') :
    max (Text.place source stop) (Text.place source stop') = Text.place source stop' :=
  Nat.max_eq_right (Text.place_mono (Position.le_trans after ordered))

theorem fillGapsFrom_tiles (kind : String) (after : Token.InOrderFrom stop tokens)
    (literal : ∀ token ∈ tokens, token.literal.toList = Text.slice source token.range) :
    Tiles source (Text.place source stop)
      (fillGapsFrom source kind (Text.place source stop) tokens) source.length := by
  induction tokens generalizing stop with
  | nil =>
    rw [fillGapsFrom_nil]
    exact gapBetween_tiles (Text.place_le_length source stop) (Nat.le_refl _)
  | cons token rest ih =>
    obtain ⟨start, ordered, later⟩ := after
    rw [fillGapsFrom_cons, max_place_stop start ordered]
    refine tiles_append.2 ⟨_, gapBetween_tiles (Text.place_mono start)
      (Text.place_le_length source _), rfl, Text.place_mono ordered,
      literal token List.mem_cons_self, ih later fun other member => ?_⟩
    exact literal other (List.mem_cons_of_mem _ member)

theorem fillGapsFrom_inOrder (kind : String) (after : Token.InOrderFrom stop tokens)
    (reached : ∀ token ∈ tokens,
      Text.positionAt source (Text.place source token.range.start) ≤ token.range.start) :
    Token.InOrderFrom stop (fillGapsFrom source kind (Text.place source stop) tokens) := by
  induction tokens generalizing stop with
  | nil =>
    rw [fillGapsFrom_nil, ← List.append_nil (gapBetween _ _ _ _)]
    exact gapBetween_inOrderFrom (Nat.le_refl _) trivial trivial
  | cons token rest ih =>
    obtain ⟨start, ordered, later⟩ := after
    have following := ih later fun other member => reached other (List.mem_cons_of_mem _ member)
    rw [fillGapsFrom_cons, max_place_stop start ordered]
    exact gapBetween_inOrderFrom (Text.place_le_length source _) ⟨start, ordered, following⟩
      ⟨reached token List.mem_cons_self, ordered, following⟩

end Fill

section Whole

variable {source : String} {tokens : List Token}

/-- **Filling gaps makes tokens tile the source.** -/
theorem fillGaps_tiles (kind : String) (inOrder : Token.InOrder tokens)
    (literal : ∀ token ∈ tokens, token.literal.toList = Text.slice source.toList token.range) :
    Tiles source.toList 0 (fillGaps source kind tokens) source.toList.length := by
  have filled := fillGapsFrom_tiles kind (Token.inOrder_iff.1 inOrder) literal
  rwa [Text.place_origin] at filled

/-- **Filling gaps makes no tokens overlap.** -/
theorem fillGaps_inOrder (kind : String) (inOrder : Token.InOrder tokens)
    (reached : ∀ token ∈ tokens,
      Text.positionAt source.toList (Text.place source.toList token.range.start) ≤
        token.range.start) :
    Token.InOrder (fillGaps source kind tokens) := by
  have filled := fillGapsFrom_inOrder kind (Token.inOrder_iff.1 inOrder) reached
  rw [Text.place_origin] at filled
  exact Token.inOrder_iff.2 filled

end Whole

end CellSyntax
