/-
**Lines and places of a text.**

A text is a list of characters; a line ends after its line feed, and only a line feed ends one. A
position is turned into a place (the number of characters before it), a place back into a
position, and both into byte offsets of the UTF-8 form. Places are clamped: a column past its line
lands on the start of the next line, and a line past the text lands on the end of the text.

* `byteLength_append`: byte lengths add up;
* `place_le_length`: a place is inside the text;
* `slice_append_rest`: a slice is a part of the text in its place.
-/

import CellSyntax.Range

namespace CellSyntax.Text

/-- The number of bytes of the UTF-8 form. -/
def byteLength : List Char → Nat
  | [] => 0
  | char :: rest => char.utf8Size + byteLength rest

theorem byteLength_append (first second : List Char) :
    byteLength (first ++ second) = byteLength first + byteLength second := by
  induction first with
  | nil => simp [byteLength]
  | cons char rest ih => simp [byteLength, ih, Nat.add_assoc]

/-! ### From positions to places -/

/-- The number of characters before a line and column, inside the text. -/
def placeAt : List Char → Nat → Nat → Nat
  | [], _, _ => 0
  | _ :: _, 0, 0 => 0
  | char :: rest, 0, column + 1 => if char = '\n' then 1 else placeAt rest 0 column + 1
  | char :: rest, line + 1, column =>
    placeAt rest (if char = '\n' then line else line + 1) column + 1

/-- The place of a position: how many characters of the text come before it. -/
def place (text : List Char) (position : Position) : Nat :=
  placeAt text position.line position.column

theorem placeAt_le_length (text : List Char) (line column : Nat) :
    placeAt text line column ≤ text.length := by
  fun_induction placeAt text line column <;> simp_all

theorem place_le_length (text : List Char) (position : Position) :
    place text position ≤ text.length :=
  placeAt_le_length text position.line position.column

/-- The byte offset of a position. -/
def offset (text : List Char) (position : Position) : Nat :=
  byteLength (text.take (place text position))

/-! ### From places to positions -/

/-- The position one character earlier in the text than `position`, that character being read
first. -/
def beginWith (char : Char) (position : Position) : Position :=
  if char = '\n' then ⟨position.line + 1, position.column⟩
  else if position.line = 0 then ⟨0, position.column + 1⟩
  else position

/-- The position of a place, clamped to the end of the text. -/
def positionAt : List Char → Nat → Position
  | [], _ => .origin
  | _ :: _, 0 => .origin
  | char :: rest, place + 1 => beginWith char (positionAt rest place)

/-- How many characters lie wholly within the first `bytes` bytes. -/
def charsWithin : List Char → Nat → Nat
  | [], _ => 0
  | char :: rest, bytes =>
    if char.utf8Size ≤ bytes then charsWithin rest (bytes - char.utf8Size) + 1 else 0

/-- The position of a byte offset, clamped to the end of the text. -/
def position (text : List Char) (bytes : Nat) : Position :=
  positionAt text (charsWithin text bytes)

/-! ### Parts of a text -/

/-- The text from one place up to another; nothing if they are out of order. -/
def part (text : List Char) (first last : Nat) : List Char :=
  (text.drop first).take (last - first)

/-- The text that a range covers, clamped to the text. -/
def slice (text : List Char) (range : Range) : List Char :=
  part text (place text range.start) (place text range.stop)

/-- The text between two positions; nothing if the second is not after the first. -/
def between (text : List Char) (first second : Position) : List Char :=
  if second ≤ first then [] else slice text (Range.ofEnds first second)

theorem slice_append_rest (text : List Char) (range : Range)
    (ordered : place text range.start ≤ place text range.stop) :
    text.take (place text range.start) ++ slice text range ++
      text.drop (place text range.stop) = text := by
  have split : text.drop (place text range.stop) =
      (text.drop (place text range.start)).drop
        (place text range.stop - place text range.start) := by
    rw [List.drop_drop]
    congr 1
    omega
  rw [slice, part, split, List.append_assoc, List.take_append_drop, List.take_append_drop]

/-! ### Lines -/

/-- The byte offsets after each line feed, the text starting at `bytes`. -/
def lineStartsFrom (bytes : Nat) : List Char → List Nat
  | [] => []
  | char :: rest =>
    if char = '\n' then (bytes + 1) :: lineStartsFrom (bytes + 1) rest
    else lineStartsFrom (bytes + char.utf8Size) rest

/-- The byte offset of the start of every line; there is always at least one line. -/
def lineStarts (text : List Char) : List Nat := 0 :: lineStartsFrom 0 text

/-- The lines of a text without their line feeds; a text that ends in a line feed has an empty
last line. -/
def lines : List Char → List (List Char)
  | [] => [[]]
  | char :: rest =>
    if char = '\n' then [] :: lines rest
    else match lines rest with
      | [] => [[char]]
      | line :: later => (char :: line) :: later

/-- Lines put together again with a line feed between two of them. -/
def unlines : List (List Char) → List Char
  | [] => []
  | [line] => line
  | line :: next :: later => line ++ '\n' :: unlines (next :: later)

theorem lines_ne_nil (text : List Char) : lines text ≠ [] := by
  fun_induction lines text <;> simp

theorem unlines_lines (text : List Char) : unlines (lines text) = text := by
  fun_induction lines text with
  | case1 => rfl
  | case2 rest ih =>
    cases later : lines rest with
    | nil => exact absurd later (lines_ne_nil rest)
    | cons line more => rw [later] at ih; simp [unlines, ih]
  | case3 char rest _ none => exact absurd none (lines_ne_nil rest)
  | case4 char rest _ line more found ih =>
    rw [found] at ih
    cases more with
    | nil => simpa [unlines] using ih
    | cons next later => simpa [unlines] using ih

/-- The first line, without the line feed and the carriage return that end it. -/
def firstLine (text : List Char) : List Char :=
  let line := text.takeWhile (· ≠ '\n')
  if text.contains '\n' ∧ line.getLast? = some '\r' then line.dropLast else line

/-- Whether `needle` starts somewhere in `text`. -/
def containsText (text needle : List Char) : Bool :=
  match text with
  | [] => needle.isEmpty
  | _ :: rest => needle.isPrefixOf text || containsText rest needle

end CellSyntax.Text
