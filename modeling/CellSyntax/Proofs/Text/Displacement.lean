/-
**Positions of a text that is put together from parts.**

A part of a text displaces what comes after it: a part without a line feed moves the first line by
its length, and one with line feeds moves all lines down and the first of them by the length of its
own last line. So positions add up as displacements do, `Position.plus`, and the position of the end
of a part, `endOf`, says all about the places and positions after it.

* `endOf_append`: displacements add up;
* `place_plus`, `positionAt_plus`: places and positions after a part;
* `place_append_of_le`, `positionAt_append_of_le`: places and positions inside it;
* `endOf_eq`: a displacement, by the lines of the part.
-/

import CellSyntax.Proofs.Text.Places

namespace CellSyntax

/-! ### Displacements -/

/-- The position that lies `further` on from `base`: columns add up on the first line only. -/
def Position.plus (base further : Position) : Position :=
  if further.line = 0 then ⟨base.line, base.column + further.column⟩
  else ⟨base.line + further.line, further.column⟩

namespace Position

variable {base first second : Position}

theorem plus_origin (base : Position) : base.plus .origin = base := rfl

theorem origin_plus (further : Position) : origin.plus further = further := by
  rcases further with ⟨line, column⟩
  unfold plus origin
  split <;> simp_all

theorem plus_assoc (base first second : Position) :
    (base.plus first).plus second = base.plus (first.plus second) := by
  unfold plus
  by_cases above : first.line = 0 <;> by_cases below : second.line = 0 <;>
    simp [above, below, Nat.add_assoc]

theorem plus_le_plus_iff : base.plus first ≤ base.plus second ↔ first ≤ second := by
  rw [le_def, le_def]
  unfold plus
  by_cases atFirst : first.line = 0
  · by_cases atSecond : second.line = 0
    · simp [atFirst, atSecond]
    · have later := Nat.pos_of_ne_zero atSecond
      simp [atFirst, atSecond, later]
  · by_cases atSecond : second.line = 0 <;> simp [atFirst, atSecond]

theorem le_plus (base further : Position) : base ≤ base.plus further := by
  rw [← plus_origin base, plus_assoc, plus_le_plus_iff, origin_plus]
  exact origin_le further

/-- Every later position lies some way further on. -/
theorem exists_plus (ordered : base ≤ first) : ∃ further, first = base.plus further := by
  rcases first with ⟨line, column⟩
  rw [le_def] at ordered
  by_cases same : base.line = line
  · refine ⟨⟨0, column - base.column⟩, ?_⟩
    simp only at ordered
    rw [plus, if_pos rfl, mk.injEq]
    exact ⟨same.symm, by simp only; omega⟩
  · refine ⟨⟨line - base.line, column⟩, ?_⟩
    simp only at ordered
    rw [plus, if_neg (by simp only; omega), mk.injEq]
    exact ⟨by simp only; omega, rfl⟩

end Position

namespace Text

/-- How far one character displaces what comes after it. -/
def charStep (char : Char) : Position := if char = '\n' then ⟨1, 0⟩ else ⟨0, 1⟩

theorem beginWith_eq (char : Char) (position : Position) :
    beginWith char position = (charStep char).plus position := by
  rcases position with ⟨line, column⟩
  unfold beginWith charStep Position.plus
  by_cases feed : char = '\n' <;> by_cases above : line = 0 <;>
    simp [feed, above, Nat.add_comm]

/-- The position of the end of a text: how far the text displaces what comes after it. -/
def endOf (text : List Char) : Position := positionAt text text.length

theorem endOf_nil : endOf [] = .origin := rfl

theorem endOf_cons (char : Char) (rest : List Char) :
    endOf (char :: rest) = (charStep char).plus (endOf rest) :=
  beginWith_eq char (endOf rest)

/-- **Displacements add up.** -/
theorem endOf_append (first second : List Char) :
    endOf (first ++ second) = (endOf first).plus (endOf second) := by
  induction first with
  | nil => exact (Position.origin_plus _).symm
  | cons char rest ih =>
    rw [List.cons_append, endOf_cons, endOf_cons, ih, Position.plus_assoc]

/-! ### Places and positions after a part -/

/-- **The place of a position after a part.** -/
theorem place_plus (part rest : List Char) (further : Position) :
    place (part ++ rest) ((endOf part).plus further) = part.length + place rest further := by
  induction part with
  | nil => rw [List.nil_append, endOf_nil, Position.origin_plus, List.length_nil, Nat.zero_add]
  | cons char part ih =>
    -- Reading the first character takes one step off the displacement, whatever comes after.
    have step : (endOf (char :: part)).plus further =
        beginWith char ((endOf part).plus further) := by
      rw [endOf_cons, Position.plus_assoc, beginWith_eq]
    rw [List.cons_append, step, place_cons (origin_lt_beginWith char _), dropFirst_beginWith, ih,
      List.length_cons]
    omega

/-- The place of the end of a part. -/
theorem place_endOf (part rest : List Char) : place (part ++ rest) (endOf part) = part.length := by
  have at_end := place_plus part rest .origin
  rwa [Position.plus_origin, place_origin, Nat.add_zero] at at_end

/-- **The position of a place after a part.** -/
theorem positionAt_plus (part rest : List Char) (spot : Nat) :
    positionAt (part ++ rest) (part.length + spot) = (endOf part).plus (positionAt rest spot) := by
  induction part with
  | nil => rw [List.nil_append, endOf_nil, Position.origin_plus, List.length_nil, Nat.zero_add]
  | cons char part ih =>
    rw [List.length_cons, Nat.add_right_comm, List.cons_append, positionAt, ih, endOf_cons,
      beginWith_eq, Position.plus_assoc]

/-! ### Places and positions inside a part -/

theorem place_append_of_le {part : List Char} (rest : List Char) {position : Position}
    (inside : position ≤ endOf part) : place (part ++ rest) position = place part position := by
  induction part generalizing position with
  | nil =>
    rw [Position.le_antisymm inside (Position.origin_le position), endOf_nil, place_origin,
      place_origin]
  | cons char part ih =>
    rcases Position.origin_or_lt position with rfl | after
    · rw [place_origin, place_origin]
    · have below : dropFirst char position ≤ dropFirst char (endOf (char :: part)) :=
        dropFirst_mono inside
      rw [endOf_cons, ← beginWith_eq, dropFirst_beginWith] at below
      rw [List.cons_append, place_cons after, place_cons after, ih below]

theorem positionAt_append_of_le {part : List Char} (rest : List Char) {spot : Nat}
    (inside : spot ≤ part.length) : positionAt (part ++ rest) spot = positionAt part spot := by
  induction part generalizing spot with
  | nil =>
    rw [Nat.le_zero.1 inside]
    cases rest <;> rfl
  | cons char part ih =>
    cases spot with
    | zero => rfl
    | succ spot => rw [List.cons_append, positionAt, positionAt, ih (Nat.le_of_succ_le_succ inside)]

/-- The position of a place is the end of the text before it. -/
theorem positionAt_eq_endOf {text : List Char} {spot : Nat} (inside : spot ≤ text.length) :
    positionAt text spot = endOf (text.take spot) := by
  have cut : (text.take spot).length = spot := List.length_take_of_le inside
  have same := positionAt_append_of_le (text.drop spot) (Nat.le_of_eq cut.symm)
  rw [List.take_append_drop] at same
  rw [same, endOf, cut]

/-! ### Displacements by lines -/

/-- **A text displaces by its line feeds and by the length of its last line.** -/
theorem endOf_eq (text : List Char) :
    endOf text = ⟨(lines text).length - 1, ((lines text).getLast?.getD []).length⟩ := by
  fun_induction lines text with
  | case1 => rfl
  | case2 rest ih =>
    have some := List.length_pos_iff.2 (lines_ne_nil rest)
    rw [endOf_cons, ih, List.length_cons, List.getLast?_cons_of_ne_nil (lines_ne_nil rest)]
    simp only [charStep, if_true, Position.plus]
    split <;> simp only [Position.mk.injEq, Nat.zero_add, and_true] <;> omega
  | case3 char rest _ none => exact absurd none (lines_ne_nil rest)
  | case4 char rest feed line later found ih =>
    rw [endOf_cons, ih, found]
    simp only [charStep, feed, if_false, Position.plus]
    cases later <;> simp [Nat.add_comm]

/-- A text without a line break ends on the line that it starts on. -/
theorem endOf_line_of_not_mem {text : List Char} (oneLine : '\n' ∉ text) :
    (endOf text).line = 0 := by
  induction text with
  | nil => rfl
  | cons char rest ih =>
    obtain ⟨notFeed, later⟩ := not_or.1 (mt List.mem_cons.2 oneLine)
    rw [endOf_cons, charStep, if_neg (Ne.symm notFeed), Position.plus, if_pos (ih later)]

end Text

end CellSyntax
