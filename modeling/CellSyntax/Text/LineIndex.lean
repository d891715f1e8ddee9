/-
**The table of line starts.**

Byte offsets are looked up in a table of where the lines of a text start: from a position to an
offset by the entries of its line and of the next one, and back by halving the table. A column past
its line lands on the start of the next line, and a line past the text lands on the end of the text.

* `LineIndex.offset_past`: a line past the text;
* `LineIndex.position_past`: an offset past the text.
-/

import CellSyntax.Text.Lines
import CellSyntax.Zip.Boundary

namespace CellSyntax

/-- The text from one byte offset up to another: the characters that lie wholly between them. -/
def Text.bytePart (text : List Char) (first last : Nat) : List Char :=
  part text (charsWithin text first) (charsWithin text last)

/-- A text with the byte offset of the start of every line. -/
structure LineIndex where
  text : List Char
  starts : List Nat
deriving DecidableEq, Repr

namespace LineIndex

/-- The table of a text. -/
def of (text : List Char) : LineIndex := ⟨text, Text.lineStarts text⟩

/-- The byte offset of a position. -/
def offset (index : LineIndex) (position : Position) : Nat :=
  match index.starts[position.line]? with
  | none => Text.byteLength index.text
  | some start =>
    let limit := index.starts[position.line + 1]?.getD (Text.byteLength index.text)
    start + Text.byteLength ((Text.bytePart index.text start limit).take position.column)

/-- The position of a byte offset, clamped to the end of the text. -/
def position (index : LineIndex) (bytes : Nat) : Position :=
  let inside := min bytes (Text.byteLength index.text)
  let line := partitionPoint (fun start => decide (start ≤ inside)) index.starts - 1
  let start := index.starts[line]?.getD 0
  ⟨line, (Text.bytePart index.text start inside).length⟩

theorem offset_past {index : LineIndex} {position : Position}
    (past : index.starts.length ≤ position.line) :
    index.offset position = Text.byteLength index.text := by
  unfold offset
  rw [List.getElem?_eq_none past]

theorem position_past {index : LineIndex} {bytes : Nat}
    (past : Text.byteLength index.text ≤ bytes) :
    index.position bytes = index.position (Text.byteLength index.text) := by
  unfold position
  rw [Nat.min_eq_right past, Nat.min_self]

end LineIndex

end CellSyntax
