/-
**Looking up line starts gives the places of a text.**

The table of line starts and the reading of a text character by character agree on every position
and every byte offset. Both sides are taken apart at the first character: putting one in front of a
text moves all line starts by its size, and a line feed begins one line more.

* `Text.lineStarts_cons`: the table, one character being put in front;
* `Text.partitionPoint_lineStarts`: halving the table counts the line starts up to an offset;
* `LineIndex.offset_of`, `LineIndex.position_of`: the two ways agree.
-/

import CellSyntax.Proofs.Text.Places
import CellSyntax.Text.LineIndex

namespace CellSyntax

namespace Text

variable {text rest : List Char} {char : Char} {bytes first last : Nat}

/-! ### Line starts -/

theorem lineStartsFrom_eq_map (bytes : Nat) (text : List Char) :
    lineStartsFrom bytes text = (lineStartsFrom 0 text).map (bytes + ·) := by
  induction text generalizing bytes with
  | nil => rfl
  | cons char rest ih =>
    unfold lineStartsFrom
    split
    · rw [ih (bytes + 1), ih (0 + 1), List.map_cons, List.map_map]
      simp [Function.comp_def, Nat.add_assoc]
    · rw [ih (bytes + char.utf8Size), ih (0 + char.utf8Size), List.map_map]
      simp [Function.comp_def, Nat.add_assoc]

/-- **One character in front moves every line start by its size**; a line feed begins a line more.
-/
theorem lineStartsFrom_cons (char : Char) (rest : List Char) :
    lineStartsFrom 0 (char :: rest) =
      if char = '\n' then (lineStarts rest).map (char.utf8Size + ·)
      else (lineStartsFrom 0 rest).map (char.utf8Size + ·) := by
  rw [lineStartsFrom]
  split
  · rename_i feed
    have size : '\n'.utf8Size = 1 := rfl
    rw [feed, size, lineStarts, List.map_cons, lineStartsFrom_eq_map]
  · rw [Nat.zero_add, lineStartsFrom_eq_map]

theorem lineStarts_sorted (text : List Char) : (lineStarts text).Pairwise (· ≤ ·) := by
  induction text with
  | nil => exact List.pairwise_singleton _ _
  | cons char rest ih =>
    have shifted (starts : List Nat) (sorted : starts.Pairwise (· ≤ ·)) :
        (starts.map (char.utf8Size + ·)).Pairwise (· ≤ ·) :=
      List.pairwise_map.2 (sorted.imp fun upTo => Nat.add_le_add_left upTo _)
    rw [lineStarts, lineStartsFrom_cons]
    refine List.pairwise_cons.2 ⟨fun _ _ => Nat.zero_le _, ?_⟩
    split
    · exact shifted _ ih
    · exact shifted _ (List.pairwise_cons.1 ih).2

/-- Numbers in order, cut behind the last that is at most `bytes`. -/
theorem exists_cut {starts : List Nat} (sorted : starts.Pairwise (· ≤ ·)) (bytes : Nat) :
    ∃ passing failing, starts = passing ++ failing ∧ (∀ start ∈ passing, start ≤ bytes) ∧
      ∀ start ∈ failing, bytes < start := by
  induction starts with
  | nil => exact ⟨[], [], rfl, nofun, nofun⟩
  | cons start starts ih =>
    obtain ⟨ahead, later⟩ := List.pairwise_cons.1 sorted
    by_cases pass : start ≤ bytes
    · obtain ⟨passing, failing, rfl, below, above⟩ := ih later
      exact ⟨start :: passing, failing, rfl, List.forall_mem_cons.2 ⟨pass, below⟩, above⟩
    · refine ⟨[], start :: starts, rfl, nofun, List.forall_mem_cons.2 ⟨by omega, ?_⟩⟩
      intro other member
      have := ahead other member
      omega

/-- **Halving the table counts the line starts up to an offset**, the first line's among them. -/
theorem partitionPoint_lineStarts (text : List Char) (bytes : Nat) :
    partitionPoint (fun start => decide (start ≤ bytes)) (lineStarts text) =
      (lineStartsFrom 0 text).countP (fun start => decide (start ≤ bytes)) + 1 := by
  obtain ⟨passing, failing, parts, below, above⟩ := exists_cut (lineStarts_sorted text) bytes
  have pass : ∀ start ∈ passing, decide (start ≤ bytes) = true :=
    fun start member => decide_eq_true (below start member)
  have fail : ∀ start ∈ failing, ¬ decide (start ≤ bytes) = true :=
    fun start member => by simpa using above start member
  have count : (lineStarts text).countP (fun start => decide (start ≤ bytes)) = passing.length := by
    rw [parts, List.countP_append, List.countP_eq_length.2 pass, List.countP_eq_zero.2 fail]
    rfl
  rw [parts, partitionPoint_append pass fail, ← count, lineStarts, List.countP_cons]
  simp

/-! ### Parts between byte offsets -/

theorem charsWithin_zero (text : List Char) : charsWithin text 0 = 0 := by
  cases text with
  | nil => rfl
  | cons char rest =>
    have wide := Char.utf8Size_pos char
    rw [charsWithin, if_neg (by omega)]

theorem charsWithin_cons_add (char : Char) (rest : List Char) (bytes : Nat) :
    charsWithin (char :: rest) (char.utf8Size + bytes) = charsWithin rest bytes + 1 := by
  rw [charsWithin, if_pos (Nat.le_add_right _ _), Nat.add_sub_cancel_left]

theorem bytePart_cons_add (char : Char) (rest : List Char) (first last : Nat) :
    bytePart (char :: rest) (char.utf8Size + first) (char.utf8Size + last) =
      bytePart rest first last := by
  rw [bytePart, charsWithin_cons_add, charsWithin_cons_add, part, List.drop_succ_cons,
    Nat.add_sub_add_right]
  rfl

theorem bytePart_cons_zero (char : Char) (rest : List Char) (last : Nat) :
    bytePart (char :: rest) 0 (char.utf8Size + last) = char :: bytePart rest 0 last := by
  rw [bytePart, bytePart, charsWithin_zero, charsWithin_zero, charsWithin_cons_add, part_zero,
    part_zero, List.take_succ_cons]

theorem bytePart_self (text : List Char) (bytes : Nat) : bytePart text bytes bytes = [] :=
  part_self text _

/-- The offset of a position after the first character, by its offset in the rest. -/
theorem offset_cons {position : Position} (after : Position.origin < position) :
    offset (char :: rest) position = char.utf8Size + offset rest (dropFirst char position) := by
  rw [offset, place_cons after, List.take_succ_cons, byteLength, offset]

theorem offset_origin (text : List Char) : offset text .origin = 0 := by
  rw [offset, place_origin]
  rfl

end Text

namespace LineIndex

open Text

variable {rest : List Char} {char : Char} {starts : List Nat}

/-! ### From positions to offsets -/

theorem offset_of_origin (text : List Char) : (of text).offset .origin = 0 := by
  show 0 + byteLength (List.take 0 _) = 0
  rw [List.take_zero]
  rfl

/-- The end of a line in the table of the rest, moved by the first character. -/
theorem getD_map_add (char : Char) (rest : List Char) (entry : Option Nat) :
    (entry.map (char.utf8Size + ·)).getD (byteLength (char :: rest)) =
      char.utf8Size + entry.getD (byteLength rest) := by
  cases entry <;> rfl

/-- Looking up a position on a later line, in a table whose later entries moved. -/
theorem offset_later (char : Char) (rest : List Char) (starts : List Nat) (line column : Nat) :
    offset ⟨char :: rest, 0 :: starts.map (char.utf8Size + ·)⟩ ⟨line + 1, column⟩ =
      char.utf8Size + offset ⟨rest, starts⟩ ⟨line, column⟩ := by
  simp only [offset, List.getElem?_cons_succ, List.getElem?_map, getD_map_add]
  cases starts[line]? with
  | none => rfl
  | some start =>
    simp only [Option.map_some]
    rw [bytePart_cons_add, Nat.add_assoc]

/-- Looking up a position on the first line, in such a table. -/
theorem offset_first (char : Char) (rest : List Char) (starts : List Nat) (column : Nat) :
    offset ⟨char :: rest, 0 :: starts.map (char.utf8Size + ·)⟩ ⟨0, column + 1⟩ =
      char.utf8Size +
        byteLength ((bytePart rest 0 (starts[0]?.getD (byteLength rest))).take column) := by
  simp only [offset, List.getElem?_cons_zero, List.getElem?_cons_succ, List.getElem?_map,
    getD_map_add]
  rw [bytePart_cons_zero, List.take_succ_cons, byteLength, Nat.zero_add]

/-- Looking up a position after the first character, by looking it up in the rest. -/
theorem offset_of_cons {position : Position} (after : Position.origin < position) :
    (of (char :: rest)).offset position =
      char.utf8Size + (of rest).offset (dropFirst char position) := by
  rcases position with ⟨_ | line, column⟩
  · obtain ⟨column, rfl⟩ : ∃ before, column = before + 1 := by
      rw [Position.lt_def] at after
      simp only [Position.origin] at after
      exact ⟨column - 1, by omega⟩
    by_cases feed : char = '\n'
    · have here : dropFirst char ⟨0, column + 1⟩ = .origin := by simp [dropFirst, feed]
      have first : ((lineStarts rest)[0]?.getD (byteLength rest)) = 0 := rfl
      rw [of, lineStarts, lineStartsFrom_cons, if_pos feed, offset_first, here, offset_of_origin,
        first, bytePart_self, List.take_nil, byteLength]
    · have here : dropFirst char ⟨0, column + 1⟩ = ⟨0, column⟩ := by simp [dropFirst, feed]
      rw [of, lineStarts, lineStartsFrom_cons, if_neg feed, offset_first, here]
      exact congrArg _ (Nat.zero_add _).symm
  · by_cases feed : char = '\n'
    · have here : dropFirst char ⟨line + 1, column⟩ = ⟨line, column⟩ := by simp [dropFirst, feed]
      rw [of, lineStarts, lineStartsFrom_cons, if_pos feed, offset_later, here]
      rfl
    · have here : dropFirst char ⟨line + 1, column⟩ = ⟨line + 1, column⟩ := by
        simp [dropFirst, feed]
      rw [of, lineStarts, lineStartsFrom_cons, if_neg feed, offset_later, here]
      rfl

/-- **Looking up the line of a position gives its byte offset.** -/
theorem offset_of (text : List Char) (position : Position) :
    (of text).offset position = Text.offset text position := by
  induction text generalizing position with
  | nil =>
    rcases position with ⟨_ | line, column⟩
    · simp [of, offset, lineStarts, lineStartsFrom, bytePart, part, Text.offset, byteLength]
    · simp [of, offset, lineStarts, lineStartsFrom, Text.offset, byteLength]
  | cons char rest ih =>
    rcases Position.origin_or_lt position with rfl | after
    · rw [offset_of_origin, offset_origin]
    · rw [offset_of_cons after, offset_cons after, ih]

/-! ### From offsets to positions -/

/-- The position of an offset by the number of line starts up to it. -/
theorem position_of_eq {text : List Char} {bytes inside line : Nat}
    (within : min bytes (byteLength text) = inside)
    (count : ((lineStartsFrom 0 text).countP fun start => decide (start ≤ inside)) = line) :
    (of text).position bytes =
      ⟨line, (bytePart text ((lineStarts text)[line]?.getD 0) inside).length⟩ := by
  have number : partitionPoint (fun start => decide (start ≤ inside)) (lineStarts text) - 1 =
      line := by
    rw [partitionPoint_lineStarts, count, Nat.add_sub_cancel]
  unfold position
  simp only [of, within, number]

/-- Line starts up to an offset, both moved by the first character. -/
theorem countP_map_add (size bytes : Nat) (starts : List Nat) :
    (starts.map (size + ·)).countP (fun start => decide (start ≤ size + bytes)) =
      starts.countP fun start => decide (start ≤ bytes) := by
  rw [List.countP_map]
  congr 1
  funext start
  simp

/-- Before the end of the first character there is no further line start. -/
theorem countP_map_add_of_lt {size bytes : Nat} (before : bytes < size) (starts : List Nat) :
    (starts.map (size + ·)).countP (fun start => decide (start ≤ bytes)) = 0 := by
  rw [List.countP_eq_zero]
  intro start member
  obtain ⟨other, -, rfl⟩ := List.mem_map.1 member
  simp only [decide_eq_true_eq]
  omega

/-- An offset inside the first character has the first position. -/
theorem position_of_lt {bytes : Nat} (before : bytes < char.utf8Size) (rest : List Char) :
    (of (char :: rest)).position bytes = .origin := by
  have within : min bytes (byteLength (char :: rest)) = bytes := by
    rw [byteLength]
    omega
  have none : (lineStartsFrom 0 (char :: rest)).countP
      (fun start => decide (start ≤ bytes)) = 0 := by
    rw [lineStartsFrom_cons]
    split
    · exact countP_map_add_of_lt before _
    · exact countP_map_add_of_lt before _
  have nothing : charsWithin (char :: rest) bytes = 0 := by
    rw [charsWithin, if_neg (by omega)]
  have first : (lineStarts (char :: rest))[0]?.getD 0 = 0 := rfl
  rw [position_of_eq within none, first, bytePart, charsWithin_zero, nothing, part_self]
  rfl

/-- The position of an offset after the first character, by its position in the rest. -/
theorem position_of_cons (char : Char) (rest : List Char) (bytes : Nat) :
    (of (char :: rest)).position (char.utf8Size + bytes) =
      beginWith char ((of rest).position bytes) := by
  have within : min (char.utf8Size + bytes) (byteLength (char :: rest)) =
      char.utf8Size + min bytes (byteLength rest) := by
    rw [byteLength]
    omega
  generalize inside_eq : min bytes (byteLength rest) = inside at within
  generalize line_eq : (lineStartsFrom 0 rest).countP (fun start => decide (start ≤ inside)) = line
  rw [position_of_eq inside_eq line_eq]
  by_cases feed : char = '\n'
  · have count : (lineStartsFrom 0 (char :: rest)).countP
        (fun start => decide (start ≤ char.utf8Size + inside)) = line + 1 := by
      rw [lineStartsFrom_cons, if_pos feed, countP_map_add, lineStarts, List.countP_cons, line_eq]
      simp
    obtain ⟨start, found⟩ : ∃ start, (lineStarts rest)[line]? = some start := by
      have few := List.countP_le_length (p := fun start => decide (start ≤ inside))
        (l := lineStartsFrom 0 rest)
      exact ⟨_, List.getElem?_eq_getElem (by rw [lineStarts, List.length_cons]; omega)⟩
    have moved : (lineStarts (char :: rest))[line + 1]? = some (char.utf8Size + start) := by
      rw [lineStarts, lineStartsFrom_cons, if_pos feed, List.getElem?_cons_succ, List.getElem?_map,
        found]
      rfl
    rw [position_of_eq within count, moved, found, Option.getD_some, Option.getD_some,
      bytePart_cons_add, beginWith, if_pos feed]
  · have count : (lineStartsFrom 0 (char :: rest)).countP
        (fun start => decide (start ≤ char.utf8Size + inside)) = line := by
      rw [lineStartsFrom_cons, if_neg feed, countP_map_add, line_eq]
    rw [position_of_eq within count, beginWith, if_neg feed]
    cases line with
    | zero =>
      have first (text : List Char) : (lineStarts text)[0]?.getD 0 = 0 := rfl
      rw [first, first, bytePart_cons_zero, List.length_cons, if_pos rfl]
    | succ line =>
      obtain ⟨start, found⟩ : ∃ start, (lineStartsFrom 0 rest)[line]? = some start := by
        have few := List.countP_le_length (p := fun start => decide (start ≤ inside))
          (l := lineStartsFrom 0 rest)
        exact ⟨_, List.getElem?_eq_getElem (by omega)⟩
      have moved : (lineStarts (char :: rest))[line + 1]? = some (char.utf8Size + start) := by
        rw [lineStarts, lineStartsFrom_cons, if_neg feed, List.getElem?_cons_succ,
          List.getElem?_map, found]
        rfl
      have still : (lineStarts rest)[line + 1]? = some start := found
      rw [moved, still, Option.getD_some, Option.getD_some, bytePart_cons_add,
        if_neg (Nat.succ_ne_zero line)]

/-- **Looking up the line of a byte offset gives its position.** -/
theorem position_of (text : List Char) (bytes : Nat) :
    (of text).position bytes = Text.position text bytes := by
  induction text generalizing bytes with
  | nil => exact position_of_eq (Nat.min_zero bytes) rfl
  | cons char rest ih =>
    by_cases inside : char.utf8Size ≤ bytes
    · obtain ⟨further, rfl⟩ := Nat.exists_eq_add_of_le inside
      rw [position_of_cons, ih, Text.position, Text.position, charsWithin_cons_add, positionAt]
    · rw [position_of_lt (Nat.not_le.1 inside), Text.position, charsWithin, if_neg inside]
      rfl

end LineIndex

end CellSyntax
