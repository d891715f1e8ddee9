/-
**Positions and places of a text.**

A place is the number of characters before it. Turning a place into a position and back loses
nothing; turning a position into a place clamps it, to the start of the next line or to the end of
the text. Both directions respect the order. A position that lands before the end of the text is
never after the position of its place, so clamping only moves it forward there.

* `place_cons`: the place of a position, one character of the text being read;
* `place_mono`: later positions have later places;
* `place_positionAt`: the place of the position of a place is that place;
* `positionAt_lt`: later places have later positions;
* `le_positionAt_place`: clamping inside the text moves a position forward;
* `part_append_part`: two parts that meet make up one;
* `position_offset`: byte offsets say the same as places.
-/

import CellSyntax.Text.Lines

namespace CellSyntax.Text

variable {text : List Char}

/-! ### One character -/

/-- The position in the rest of a text, one character of it being read; a column past a line feed
lands on the start of the rest. -/
def dropFirst (char : Char) (position : Position) : Position :=
  if char = '\n' then
    if position.line = 0 then .origin else ⟨position.line - 1, position.column⟩
  else if position.line = 0 then ⟨0, position.column - 1⟩
  else position

theorem beginWith_le_iff {char : Char} {first second : Position} :
    beginWith char first ≤ beginWith char second ↔ first ≤ second := by
  rw [Position.le_def, Position.le_def]
  unfold beginWith
  by_cases feed : char = '\n'
  · simp only [feed, if_true]
    omega
  · simp only [feed, if_false]
    split <;> split <;> grind

theorem beginWith_lt_iff {char : Char} {first second : Position} :
    beginWith char first < beginWith char second ↔ first < second := by
  rw [Position.lt_iff_not_le, Position.lt_iff_not_le, beginWith_le_iff]

theorem origin_lt_beginWith (char : Char) (position : Position) :
    Position.origin < beginWith char position := by
  rw [Position.lt_def]
  unfold beginWith Position.origin
  split
  · simp
  · split
    · simp
    · simp only
      omega

/-- Reading a character undoes putting it in front. -/
theorem dropFirst_beginWith (char : Char) (position : Position) :
    dropFirst char (beginWith char position) = position := by
  rcases position with ⟨line, column⟩
  unfold dropFirst beginWith
  by_cases feed : char = '\n'
  · simp [feed]
  · cases line with
    | zero => simp [feed]
    | succ line => simp [feed]

theorem dropFirst_mono {char : Char} {first second : Position} (ordered : first ≤ second) :
    dropFirst char first ≤ dropFirst char second := by
  rw [Position.le_def] at ordered ⊢
  unfold dropFirst Position.origin
  by_cases feed : char = '\n'
  · simp only [feed, if_true]
    split <;> split <;> grind
  · simp only [feed, if_false]
    split <;> split <;> grind

/-- Putting back a character that was read moves a position forward, if it moves it. -/
theorem le_beginWith_dropFirst (char : Char) (position : Position) :
    position ≤ beginWith char (dropFirst char position) := by
  rcases position with ⟨line, column⟩
  rw [Position.le_def]
  unfold beginWith dropFirst Position.origin
  by_cases feed : char = '\n'
  · cases line with
    | zero => simp [feed]
    | succ line => simp [feed]
  · cases line with
    | zero =>
      refine Or.inr ⟨?_, ?_⟩
      · simp [feed]
      · simp only [feed, if_false, if_true]
        omega
    | succ line => simp [feed]

/-- The place of a position after the first character, by its place in the rest. -/
theorem place_cons {char : Char} {rest : List Char} {position : Position}
    (after : Position.origin < position) :
    place (char :: rest) position = place rest (dropFirst char position) + 1 := by
  rcases position with ⟨line, column⟩
  unfold place dropFirst
  cases line with
  | zero =>
    obtain ⟨column, rfl⟩ : ∃ before, column = before + 1 := by
      rw [Position.lt_def] at after
      simp only [Position.origin] at after
      exact ⟨column - 1, by omega⟩
    by_cases feed : char = '\n'
    · simp only [placeAt, feed, if_true]
      cases rest <;> rfl
    · simp [placeAt, feed]
  | succ line =>
    by_cases feed : char = '\n'
    · simp [placeAt, feed]
    · simp [placeAt, feed]

/-! ### From positions to places -/

theorem place_origin (text : List Char) : place text .origin = 0 := by
  cases text <;> rfl

/-- **Later positions have later places.** -/
theorem place_mono {first second : Position} (ordered : first ≤ second) :
    place text first ≤ place text second := by
  induction text generalizing first second with
  | nil => exact Nat.le_refl _
  | cons char rest ih =>
    rcases Position.origin_or_lt first with rfl | after
    · rw [place_origin]
      exact Nat.zero_le _
    · have later : Position.origin < second := by
        rw [Position.lt_iff_not_le] at after ⊢
        exact fun before => after (Position.le_trans ordered before)
      rw [place_cons after, place_cons later]
      exact Nat.succ_le_succ (ih (dropFirst_mono ordered))

/-! ### There and back -/

/-- **The place of the position of a place is that place.** -/
theorem place_positionAt {spot : Nat} (inside : spot ≤ text.length) :
    place text (positionAt text spot) = spot := by
  induction text generalizing spot with
  | nil =>
    rw [List.length_nil, Nat.le_zero] at inside
    rw [inside]
    rfl
  | cons char rest ih =>
    cases spot with
    | zero => rfl
    | succ before =>
      rw [positionAt, place_cons (origin_lt_beginWith char _), dropFirst_beginWith,
        ih (Nat.le_of_succ_le_succ inside)]

/-- **Later places have later positions.** -/
theorem positionAt_lt {first second : Nat} (less : first < second)
    (inside : second ≤ text.length) : positionAt text first < positionAt text second := by
  induction text generalizing first second with
  | nil => exact absurd inside (by simp only [List.length_nil]; omega)
  | cons char rest ih =>
    obtain ⟨second, rfl⟩ : ∃ before, second = before + 1 := ⟨second - 1, by omega⟩
    cases first with
    | zero => exact origin_lt_beginWith char _
    | succ first =>
      exact beginWith_lt_iff.2 (ih (Nat.lt_of_succ_lt_succ less) (Nat.le_of_succ_le_succ inside))

/-- **Inside the text, clamping moves a position forward.** -/
theorem le_positionAt_place {position : Position} (inside : place text position < text.length) :
    position ≤ positionAt text (place text position) := by
  induction text generalizing position with
  | nil => exact absurd inside (Nat.not_lt_zero _)
  | cons char rest ih =>
    rcases Position.origin_or_lt position with rfl | after
    · exact Position.origin_le _
    · rw [place_cons after] at inside ⊢
      have inRest := ih (Nat.lt_of_succ_lt_succ inside)
      exact Position.le_trans (le_beginWith_dropFirst char position) (beginWith_le_iff.2 inRest)

/-! ### Parts between places -/

theorem part_self (text : List Char) (spot : Nat) : part text spot spot = [] := by
  rw [part, Nat.sub_self, List.take_zero]

theorem part_of_le (text : List Char) {first last : Nat} (none : last ≤ first) :
    part text first last = [] := by
  rw [part, Nat.sub_eq_zero_of_le none, List.take_zero]

theorem part_zero (text : List Char) (spot : Nat) : part text 0 spot = text.take spot := rfl

theorem part_whole (text : List Char) : part text 0 text.length = text := by
  rw [part, List.drop_zero, Nat.sub_zero, List.take_length]

/-- **Two parts that meet make up one.** -/
theorem part_append_part {first middle last : Nat} (left : first ≤ middle) (right : middle ≤ last) :
    part text first middle ++ part text middle last = part text first last := by
  have split : last - first = (middle - first) + (last - middle) := by omega
  have skip : middle = first + (middle - first) := by omega
  rw [part, part, part, split, List.take_add, List.drop_drop, ← skip]

/-- Two parts that meet make up one with what comes before them, if the first of them is empty or does
not reach back in front of that. -/
theorem part_append_part_max {covered first last stop : Nat}
    (behind : first = last ∨ covered ≤ first) (ordered : first ≤ last) (inside : last ≤ stop) :
    part text covered first ++ (part text first last ++ part text (max covered last) stop) =
      part text covered stop := by
  rcases Nat.le_total covered first with gap | none
  · rw [Nat.max_eq_right (Nat.le_trans gap ordered), part_append_part ordered inside,
      part_append_part gap (Nat.le_trans ordered inside)]
  · rw [part_of_le text none, List.nil_append]
    rcases behind with rfl | reached
    · rw [part_self, List.nil_append, Nat.max_eq_left none]
    · obtain rfl := Nat.le_antisymm reached none
      rw [Nat.max_eq_right ordered, part_append_part ordered inside]

/-- A part of the first of two texts is one of both together. -/
theorem part_append_left (front back : List Char) {first last : Nat}
    (inside : last ≤ front.length) : part (front ++ back) first last = part front first last := by
  rcases Nat.le_total last first with none | some
  · rw [part, part, Nat.sub_eq_zero_of_le none, List.take_zero, List.take_zero]
  · rw [part, part, List.drop_append_of_le_length (Nat.le_trans some inside),
      List.take_append_of_le_length (by rw [List.length_drop]; omega)]

/-- A part of the second of two texts is one of both together, further on. -/
theorem part_append_right (front back : List Char) (first last : Nat) :
    part (front ++ back) (front.length + first) (front.length + last) = part back first last := by
  rw [part, part, List.drop_length_add_append, Nat.add_sub_add_left]

/-- A part from inside the first of three texts to inside the last takes in the second. -/
theorem part_splice (before middle after : List Char) {first : Nat}
    (inside : first ≤ before.length) (count : Nat) :
    part (before ++ middle ++ after) first ((before ++ middle).length + count) =
      part before first before.length ++ middle ++ part after 0 count := by
  have size : (before ++ middle).length = before.length + middle.length := List.length_append
  have front : part (before ++ middle) first (before ++ middle).length =
      part before first before.length ++ middle := by
    rw [← part_append_part inside (by omega), part_append_left before middle (Nat.le_refl _), size]
    exact congrArg _ ((part_append_right before middle 0 middle.length).trans (part_whole middle))
  have upTo : first ≤ (before ++ middle).length := by omega
  rw [← part_append_part upTo (Nat.le_add_right _ _),
    part_append_left (before ++ middle) after (Nat.le_refl _), front]
  exact congrArg _ (part_append_right (before ++ middle) after 0 count)

/-! ### Byte offsets -/

theorem charsWithin_byteLength_take (text : List Char) {count : Nat}
    (inside : count ≤ text.length) :
    charsWithin text (byteLength (text.take count)) = count := by
  induction text generalizing count with
  | nil =>
    rw [List.length_nil, Nat.le_zero] at inside
    rw [inside]
    rfl
  | cons char rest ih =>
    cases count with
    | zero =>
      have wide := Char.utf8Size_pos char
      simp only [List.take_zero, byteLength, charsWithin]
      rw [if_neg (by omega)]
    | succ count =>
      simp only [List.take_succ_cons, byteLength, charsWithin]
      rw [if_pos (by omega), Nat.add_sub_cancel_left, ih (Nat.le_of_succ_le_succ inside)]

/-- The first characters take up at most some bytes exactly if they lie wholly within them. -/
theorem byteLength_take_le_iff {count bytes : Nat} (inside : count ≤ text.length) :
    byteLength (text.take count) ≤ bytes ↔ count ≤ charsWithin text bytes := by
  induction text generalizing count bytes with
  | nil =>
    rw [List.length_nil, Nat.le_zero] at inside
    simp [inside, byteLength]
  | cons char rest ih =>
    cases count with
    | zero => simp [byteLength]
    | succ count =>
      rw [List.take_succ_cons, byteLength, charsWithin]
      split
      · rw [Nat.succ_le_succ_iff, ← ih (Nat.le_of_succ_le_succ inside)]
        omega
      · omega

/-- A byte of a text belongs to one of its characters. -/
theorem charsWithin_lt {bytes : Nat} (inside : bytes < byteLength text) :
    charsWithin text bytes < text.length := by
  have whole := @byteLength_take_le_iff text text.length bytes (Nat.le_refl _)
  rw [List.take_length] at whole
  omega

/-- **The position of a byte offset is that of its place.** -/
theorem position_offset (text : List Char) (spot : Position) :
    position text (offset text spot) = positionAt text (place text spot) := by
  rw [position, offset, charsWithin_byteLength_take text (place_le_length text spot)]

end CellSyntax.Text
