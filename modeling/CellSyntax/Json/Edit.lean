/-
**Edits as JSON.**

An edit is an object with `from` and `to`, and with the removed lines and the inserted ones, called
`text`; a missing list is empty. It may be an array of these fields in this order as well.

* `EditDescriptor.ofJson?_toJson`: what is written is read back.
-/

import CellSyntax.Edit
import CellSyntax.Json.Position

namespace CellSyntax

namespace EditDescriptor

/-- An edit written as JSON. -/
def toJson (edit : EditDescriptor) : Json :=
  .object [("from", edit.start.toJson), ("to", edit.stop.toJson),
    ("removed", .strings edit.removed), ("text", .strings edit.inserted)]

/-- The edit that a value stands for. -/
def ofJson? : Json → Option EditDescriptor
  | .array [start, stop] => do return ⟨← Position.ofJson? start, ← Position.ofJson? stop, [], []⟩
  | .array [start, stop, removed] => do
    return ⟨← Position.ofJson? start, ← Position.ofJson? stop, ← removed.asStrings?, []⟩
  | .array [start, stop, removed, inserted] => do
    return ⟨← Position.ofJson? start, ← Position.ofJson? stop, ← removed.asStrings?,
      ← inserted.asStrings?⟩
  | .object members => do
    let start ← Position.ofJson? (← Json.member? "from" members)
    let stop ← Position.ofJson? (← Json.member? "to" members)
    let removed ← ((Json.member? "removed" members).map Json.asStrings?).getD (some [])
    let inserted ← ((Json.member? "text" members).map Json.asStrings?).getD (some [])
    return ⟨start, stop, removed, inserted⟩
  | _ => none

theorem asStrings?_strings (lines : List String) :
    (Json.strings lines).asStrings? = some lines := by
  show (lines.map Json.string).mapM Json.asString? = some lines
  induction lines with
  | nil => rfl
  | cons line rest ih =>
    rw [List.map_cons, List.mapM_cons, ih]
    rfl

theorem ofJson?_toJson (edit : EditDescriptor) : ofJson? edit.toJson = some edit := by
  simp [toJson, ofJson?, Json.member?, Position.ofJson?_toJson, asStrings?_strings]

/-! ### Reading from text -/

/-- The fields of an edit that have been read. -/
structure Fields where
  start : Option Position := none
  stop : Option Position := none
  removed : Option (List String) := none
  inserted : Option (List String) := none

/-- The edit of the fields, if no position is missing. -/
def Fields.edit? (fields : Fields) : Option EditDescriptor := do
  return ⟨← fields.start, ← fields.stop, fields.removed.getD [], fields.inserted.getD []⟩

/-- One more member of the object of an edit. -/
def Fields.read (fields : Fields) (key : String) (text : List Char) :
    Except Json.Fault (Fields × List Char) :=
  if key = "from" then do
    let (start, text) ← Json.Direct.readOnce Position.readDirect fields.start text
    return ({ fields with start }, text)
  else if key = "to" then do
    let (stop, text) ← Json.Direct.readOnce Position.readDirect fields.stop text
    return ({ fields with stop }, text)
  else if key = "removed" then do
    let (removed, text) ← Json.Direct.readOnce Json.Direct.readTexts fields.removed text
    return ({ fields with removed }, text)
  else if key = "text" then do
    let (inserted, text) ← Json.Direct.readOnce Json.Direct.readTexts fields.inserted text
    return ({ fields with inserted }, text)
  else do return (fields, ← Json.Direct.skipValue (← Json.Direct.readColon text))

/-- A list of lines as a later item of an array, empty if the array has ended. -/
def readLaterLines (text : List Char) : Except Json.Fault (List String × List Char) := do
  match ← Json.Direct.nextItem false text with
  | none => return ([], text)
  | some text => Json.Direct.readTexts text

/-- An edit read straight from text. -/
def readDirect (text : List Char) : Except Json.Fault (EditDescriptor × List Char) :=
  match Json.skipBlanks text with
  | '[' :: rest => do
    let some rest ← Json.Direct.nextItem true rest | .error .mismatch
    let (start, rest) ← Position.readDirect rest
    let some rest ← Json.Direct.nextItem false rest | .error .mismatch
    let (stop, rest) ← Position.readDirect rest
    let (removed, rest) ← readLaterLines rest
    let (inserted, rest) ← readLaterLines rest
    return (⟨start, stop, removed, inserted⟩, ← Json.Direct.closeArray rest)
  | '\x7b' :: rest => Json.Direct.readFields Fields.read {} Fields.edit? rest
  | rest => .error (Json.Direct.wrongType rest)

/-- The edit that a text holds. -/
def read (text : String) : Except Json.Fault EditDescriptor :=
  Json.Direct.readWhole readDirect text

end EditDescriptor

end CellSyntax
