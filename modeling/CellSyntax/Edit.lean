/-
**Text edits.**

An edit replaces the text between two positions. It carries the removed and the inserted text as
lines, so that an edit inside one line has one line of each, and putting in a line break inserts
two. Positions are those before the edit.

* `EditDescriptor.deltaLine_replace`: a replacement moves later lines by the difference of the
  line counts;
* `EditDescriptor.apply_insert_nothing`: an empty insertion changes nothing.
-/

import CellSyntax.Text.Lines

namespace CellSyntax

/-- One edit of a text. -/
structure EditDescriptor where
  /-- Where the replaced text starts. -/
  start : Position
  /-- Where the replaced text ends. -/
  stop : Position
  /-- The lines of the replaced text. -/
  removed : List String
  /-- The lines of the text put in its place. -/
  inserted : List String
deriving DecidableEq, Repr, Inhabited

/-- How far an edit moves what comes after it. -/
structure Delta where
  line : Int
  column : Int
  /-- The line that the edited text ends on after the edit. -/
  endLine : Nat
deriving DecidableEq, Repr, Inhabited

/-- Whether nothing moves. -/
def Delta.isZero (delta : Delta) : Bool := delta.line == 0 && delta.column == 0

namespace EditDescriptor

/-- The lines of a text, a line feed ending each but the last. -/
def textLines (text : List Char) : List String := (Text.lines text).map String.ofList

/-- The number of lines that a list of lines stands for; no line stands for an empty one. -/
def lineCount (lines : List String) : Nat := max lines.length 1

/-- The number of characters in the last line. -/
def lastLength (lines : List String) : Nat := (lines.getLast?.getD "").length

/-- The edit that puts `replacement` in the place of a range of `text`. -/
def replace (text : String) (range : Range) (replacement : String) : EditDescriptor :=
  ⟨range.start, range.stop, textLines (Text.slice text.toList range),
    textLines replacement.toList⟩

/-- The edit that puts `insertion` in at a position of `text`. -/
def insert (text : String) (position : Position) (insertion : String) : EditDescriptor :=
  replace text (.point position) insertion

/-- The range that is replaced. -/
def beforeRange (edit : EditDescriptor) : Range := .ofEnds edit.start edit.stop

/-- The number of inserted lines. -/
def insertedLineCount (edit : EditDescriptor) : Nat := lineCount edit.inserted

/-- The number of removed lines. -/
def removedLineCount (edit : EditDescriptor) : Nat := lineCount edit.removed

/-- How many lines the edit adds. -/
def deltaLine (edit : EditDescriptor) : Int := edit.insertedLineCount - edit.removedLineCount

/-- How many characters the last inserted line has more than the last removed one. -/
def deltaColumn (edit : EditDescriptor) : Int := lastLength edit.inserted - lastLength edit.removed

/-- The line that the edited text ends on after the edit. The sum is not cut off: it is the one that
coordinates of 64 bits have as long as it stays below `2 ^ 64`. -/
def endLine (edit : EditDescriptor) : Nat := edit.start.line + edit.insertedLineCount - 1

/-- How far the edit moves what comes after it. -/
def delta (edit : EditDescriptor) : Delta := ⟨edit.deltaLine, edit.deltaColumn, edit.endLine⟩

/-- The inserted text. -/
def insertedText (edit : EditDescriptor) : List Char :=
  Text.unlines (edit.inserted.map String.toList)

/-- The characters of a text after the edit. -/
def applyChars (edit : EditDescriptor) (text : List Char) : List Char :=
  let first := Text.place text edit.start
  let last := max (Text.place text edit.stop) first
  text.take first ++ edit.insertedText ++ text.drop last

/-- The text after the edit. -/
def apply (edit : EditDescriptor) (text : String) : String :=
  String.ofList (edit.applyChars text.toList)

theorem unlines_textLines (text : List Char) :
    Text.unlines ((textLines text).map String.toList) = text := by
  have lists : ((Text.lines text).map String.ofList).map String.toList = Text.lines text := by
    rw [List.map_map]
    exact (List.map_congr_left fun line _ => String.toList_ofList).trans (List.map_id _)
  rw [textLines, lists, Text.unlines_lines]

theorem insertedText_replace (text : String) (range : Range) (replacement : String) :
    (replace text range replacement).insertedText = replacement.toList :=
  unlines_textLines replacement.toList

theorem lineCount_textLines (text : List Char) :
    lineCount (textLines text) = (Text.lines text).length := by
  have some := List.length_pos_iff.2 (Text.lines_ne_nil text)
  rw [lineCount, textLines, List.length_map]
  omega

theorem deltaLine_replace (text : String) (range : Range) (replacement : String) :
    (replace text range replacement).deltaLine =
      (Text.lines replacement.toList).length -
        (Text.lines (Text.slice text.toList range)).length := by
  rw [deltaLine, insertedLineCount, removedLineCount, replace, lineCount_textLines,
    lineCount_textLines]

theorem apply_insert_nothing (text : String) (position : Position) :
    (insert text position "").apply text = text := by
  have nothing : (insert text position "").insertedText = [] := insertedText_replace _ _ _
  rw [apply, applyChars, nothing]
  simp [insert, replace, Range.point, String.ofList_toList]

end EditDescriptor

end CellSyntax
