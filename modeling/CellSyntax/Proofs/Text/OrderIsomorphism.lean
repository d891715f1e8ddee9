/-
**Positions and byte offsets correspond in order.**

The positions that are in a text and the byte offsets between its characters correspond one to one,
and later positions have later offsets. A position that is not in the text still has an offset: it
is clamped, and no position of the text comes from it.

* `IsBoundary`, `HasPosition`: which offsets and which positions correspond;
* `hasPosition_cons`: the positions of a text, its first character being read;
* `positionAt_place_iff`: a position is that of its place exactly if it is in the text;
* `position_lt`: later offsets have later positions;
* `LineIndex.orderIsomorphic`: all of this together, for the table of line starts.
-/

import CellSyntax.Proofs.Text.LineIndex

namespace CellSyntax

namespace Text

/-- **A byte offset between two characters of a text**, or at one of its ends. -/
def IsBoundary (text : List Char) (bytes : Nat) : Prop :=
  ∃ before after, text = before ++ after ∧ bytes = byteLength before

/-- **A position that is in a text.** Its line is one of the text, and its column is less than the
number of characters of that line with its line feed; on the last line, which has no line feed, the
column is at most the number of characters. -/
def HasPosition (text : List Char) (position : Position) : Prop :=
  ∃ line, (lines text)[position.line]? = some line ∧
    if position.line + 1 < (lines text).length then position.column < line.length + 1
    else position.column ≤ line.length

/-- **Positions and byte offsets of a text correspond in order.** -/
structure OrderIsomorphic (text : List Char) (offset : Position → Nat)
    (position : Nat → Position) : Prop where
  offset_mono : ∀ first second, first ≤ second → offset first ≤ offset second
  offset_isBoundary : ∀ spot, IsBoundary text (offset spot)
  offset_le : ∀ spot, offset spot ≤ byteLength text
  offset_position : ∀ bytes, IsBoundary text bytes → offset (position bytes) = bytes
  position_lt : ∀ first second, IsBoundary text first → IsBoundary text second →
    first < second → position first < position second
  position_offset_iff : ∀ spot, position (offset spot) = spot ↔ HasPosition text spot

variable {text rest : List Char} {char : Char} {spot : Position} {first second bytes : Nat}

/-! ### Offsets between characters -/

theorem isBoundary_append (before after : List Char) :
    IsBoundary (before ++ after) (byteLength before) :=
  ⟨before, after, rfl, rfl⟩

/-- The offsets between characters are those of the places of the text. -/
theorem isBoundary_iff : IsBoundary text bytes ↔
    ∃ spot, spot ≤ text.length ∧ bytes = byteLength (text.take spot) := by
  constructor
  · rintro ⟨before, after, rfl, rfl⟩
    refine ⟨before.length, ?_, ?_⟩
    · rw [List.length_append]
      exact Nat.le_add_right _ _
    · rw [List.take_left]
  · rintro ⟨spot, -, rfl⟩
    exact ⟨text.take spot, text.drop spot, (List.take_append_drop spot text).symm, rfl⟩

theorem byteLength_take_mono (upTo : first ≤ second) :
    byteLength (text.take first) ≤ byteLength (text.take second) := by
  obtain ⟨further, rfl⟩ := Nat.exists_eq_add_of_le upTo
  rw [List.take_add, byteLength_append]
  exact Nat.le_add_right _ _

theorem byteLength_take_le (text : List Char) (spot : Nat) :
    byteLength (text.take spot) ≤ byteLength text := by
  have parts := byteLength_append (text.take spot) (text.drop spot)
  rw [List.take_append_drop] at parts
  omega

/-- **Later positions have later offsets.** -/
theorem offset_mono {position position' : Position} (ordered : position ≤ position') :
    offset text position ≤ offset text position' :=
  byteLength_take_mono (place_mono ordered)

theorem offset_le_offset_iff {position position' : Position} :
    offset text position ≤ offset text position' ↔ place text position ≤ place text position' := by
  rw [offset, byteLength_take_le_iff (place_le_length text position), offset,
    charsWithin_byteLength_take text (place_le_length text position')]

theorem offset_lt_offset_iff {position position' : Position} :
    offset text position < offset text position' ↔ place text position < place text position' := by
  rw [← Nat.not_le, ← Nat.not_le, offset_le_offset_iff]

/-- **The offset of the position of an offset between characters is that offset.** -/
theorem offset_position (boundary : IsBoundary text bytes) :
    offset text (position text bytes) = bytes := by
  obtain ⟨spot, inside, rfl⟩ := isBoundary_iff.1 boundary
  rw [position, charsWithin_byteLength_take text inside, offset, place_positionAt inside]

/-- **Later offsets between characters have later positions.** -/
theorem position_lt (isFirst : IsBoundary text first) (isSecond : IsBoundary text second)
    (less : first < second) : position text first < position text second := by
  obtain ⟨spot, inside, rfl⟩ := isBoundary_iff.1 isFirst
  obtain ⟨spot', inside', rfl⟩ := isBoundary_iff.1 isSecond
  have later : spot < spot' := by
    refine Nat.not_le.1 fun back => ?_
    have notLater := @byteLength_take_mono text _ _ back
    omega
  rw [position, position, charsWithin_byteLength_take text inside,
    charsWithin_byteLength_take text inside']
  exact positionAt_lt later inside'

/-! ### Positions in the text -/

theorem hasPosition_nil : HasPosition [] spot ↔ spot = .origin := by
  rcases spot with ⟨_ | line, column⟩
  · simp [HasPosition, lines, Position.origin]
  · simp [HasPosition, lines, Position.origin]

theorem hasPosition_origin (text : List Char) : HasPosition text .origin := by
  obtain ⟨line, later, found⟩ := List.exists_cons_of_ne_nil (lines_ne_nil text)
  refine ⟨line, ?_, ?_⟩
  · rw [found]
    rfl
  · split
    · exact Nat.succ_pos _
    · exact Nat.zero_le _

/-- **The positions of a text after its first character**: those of the rest that reading the
character moves, and no others. -/
theorem hasPosition_cons (after : Position.origin < spot) : HasPosition (char :: rest) spot ↔
    beginWith char (dropFirst char spot) = spot ∧ HasPosition rest (dropFirst char spot) := by
  rcases spot with ⟨_ | line, column⟩
  · obtain ⟨column, rfl⟩ : ∃ before, column = before + 1 := by
      rw [Position.lt_def] at after
      simp only [Position.origin] at after
      exact ⟨column - 1, by omega⟩
    by_cases feed : char = '\n'
    · -- The first line has no column after the line feed.
      simp [HasPosition, lines, feed, dropFirst, beginWith, Position.origin]
    · obtain ⟨line, later, found⟩ := List.exists_cons_of_ne_nil (lines_ne_nil rest)
      simp [HasPosition, lines, feed, dropFirst, beginWith, found]
  · by_cases feed : char = '\n'
    · simp [HasPosition, lines, feed, dropFirst, beginWith]
    · obtain ⟨first, later, found⟩ := List.exists_cons_of_ne_nil (lines_ne_nil rest)
      simp [HasPosition, lines, feed, dropFirst, beginWith, found]

/-- **A position is that of its place exactly if it is in the text.** -/
theorem positionAt_place_iff :
    positionAt text (place text spot) = spot ↔ HasPosition text spot := by
  induction text generalizing spot with
  | nil => exact eq_comm.trans hasPosition_nil.symm
  | cons char rest ih =>
    rcases Position.origin_or_lt spot with rfl | after
    · rw [place_origin]
      exact iff_of_true rfl (hasPosition_origin _)
    · rw [place_cons after, positionAt, hasPosition_cons after, ← ih]
      constructor
      · intro same
        have inRest := congrArg (dropFirst char) same
        rw [dropFirst_beginWith] at inRest
        rw [inRest] at same ⊢
        exact ⟨same, rfl⟩
      · rintro ⟨same, inRest⟩
        rw [inRest, same]

/-- Positions and offsets as they are read off a text character by character. -/
theorem orderIsomorphic_offset_position (text : List Char) :
    OrderIsomorphic text (offset text) (position text) where
  offset_mono _ _ ordered := offset_mono ordered
  offset_isBoundary spot := isBoundary_iff.2 ⟨_, place_le_length text spot, rfl⟩
  offset_le spot := byteLength_take_le text _
  offset_position _ boundary := offset_position boundary
  position_lt _ _ isFirst isSecond less := position_lt isFirst isSecond less
  position_offset_iff spot := by rw [position_offset, positionAt_place_iff]

end Text

/-- **Positions and byte offsets correspond in order**, as they are looked up in the table of line
starts. Reading them off the text character by character comes to the same. -/
theorem LineIndex.orderIsomorphic (text : String) :
    Text.OrderIsomorphic text.toList (of text.toList).offset (of text.toList).position ∧
      (of text.toList).offset = Text.offset text.toList ∧
      (of text.toList).position = Text.position text.toList := by
  have offsets : (of text.toList).offset = Text.offset text.toList := by
    funext position
    exact offset_of text.toList position
  have positions : (of text.toList).position = Text.position text.toList := by
    funext bytes
    exact position_of text.toList bytes
  refine ⟨?_, offsets, positions⟩
  rw [offsets, positions]
  exact Text.orderIsomorphic_offset_position text.toList

end CellSyntax
