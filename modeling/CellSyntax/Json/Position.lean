/-
**Positions as JSON.**

A position is an object with its line and its column; the column may also be called `ch` or `col`,
but only one of the three may occur. It may be an array of the two as well.

* `Position.ofJson?_toJson`: what is written is read back.
-/

import CellSyntax.Json.Direct
import CellSyntax.Range

namespace CellSyntax

namespace Position

/-- The keys that the column of a position may have. -/
def columnKeys : List String := ["column", "ch", "col"]

/-- A position written as JSON. -/
def toJson (position : Position) : Json :=
  .object [("line", .natural position.line), ("column", .natural position.column)]

/-- The one column that the members of an object give. -/
def columnIn? (members : List (String × Json)) : Option Json :=
  match columnKeys.filterMap fun key => Json.member? key members with
  | [column] => some column
  | _ => none

/-- The position that a value stands for. -/
def ofJson? : Json → Option Position
  | .array [line, column] => do return ⟨← line.asNatural?, ← column.asNatural?⟩
  | .object members => do
    return ⟨← (← Json.member? "line" members).asNatural?, ← (← columnIn? members).asNatural?⟩
  | _ => none

theorem ofJson?_toJson (position : Position) : ofJson? position.toJson = some position := rfl

/-- A position read straight from text. -/
def readDirect (text : List Char) : Except Json.Fault (Position × List Char) :=
  match Json.skipBlanks text with
  | '[' :: rest => do
    let some rest ← Json.Direct.nextItem true rest | .error .mismatch
    let (line, rest) ← Json.Direct.readNatural rest
    let some rest ← Json.Direct.nextItem false rest | .error .mismatch
    let (column, rest) ← Json.Direct.readNatural rest
    return (⟨line, column⟩, ← Json.Direct.closeArray rest)
  | '\x7b' :: rest =>
    Json.Direct.readFields
      (fun (line, column) key text =>
        if key = "line" then do
          let (line, text) ← Json.Direct.readOnce Json.Direct.readNatural line text
          return ((line, column), text)
        else if key ∈ columnKeys then do
          let (column, text) ← Json.Direct.readOnce Json.Direct.readNatural column text
          return ((line, column), text)
        else do return ((line, column), ← Json.Direct.skipValue (← Json.Direct.readColon text)))
      ((none, none) : Option Nat × Option Nat)
      (fun (line, column) => do return ⟨← line, ← column⟩) rest
  | rest => .error (Json.Direct.wrongType rest)

end Position

/-- A range written as JSON. -/
def Range.toJson (range : Range) : Json :=
  .object [("start", range.start.toJson), ("end", range.stop.toJson)]

end CellSyntax
