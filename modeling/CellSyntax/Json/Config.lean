/-
**Configurations as documents.**

A configuration is an object of two sections; every field may be missing and then has its default,
and unknown fields are ignored. A section, and the whole, may also be an array of its fields in
their order. Some kinds of documents allow such an array to have items left over.

* `Config.ofJson?_empty`: an empty object is the default configuration.
-/

import CellSyntax.Config
import CellSyntax.Json.Basic

namespace CellSyntax

namespace Json

/-- A field of a section: of an object by its key, of an array by its index; `default` if it is
missing. -/
def fieldD {Value : Type} (decode : Json → Option Value) (default : Value) (key : String)
    (index : Nat) : Json → Option Value
  | .object members =>
    match member? key members with
    | none => some default
    | some json => decode json
  | .array items =>
    match items[index]? with
    | none => some default
    | some json => decode json
  | _ => none

/-- Whether a value can be a section of `size` fields: an object, or an array that is not too
long unless items may be left over. -/
def isSection (surplus : Bool) (size : Nat) : Json → Bool
  | .object _ => true
  | .array items => surplus || items.length ≤ size
  | _ => false

end Json

/-- The token section that a value stands for. -/
def TokenConfig.ofJson? (surplus : Bool) (json : Json) : Option TokenConfig :=
  let default : TokenConfig := {}
  if json.isSection surplus 5 then do
    return {
      encodingMarker :=
        ← json.fieldD Json.asString? default.encodingMarker "encoding_marker" 0
      endMarker := ← json.fieldD Json.asString? default.endMarker "end_marker" 1
      triviaKind := ← json.fieldD Json.asString? default.triviaKind "trivia_kind" 2
      rootKind := ← json.fieldD Json.asString? default.rootKind "root_kind" 3
      brackets := ← json.fieldD Json.asStrings? default.brackets "brackets" 4 }
  else none

/-- The parser section that a value stands for. -/
def ParserConfig.ofJson? (surplus : Bool) (json : Json) : Option ParserConfig :=
  let default : ParserConfig := {}
  if json.isSection surplus 3 then do
    return {
      program := ← json.fieldD Json.asString? default.program "program" 0
      args := ← json.fieldD Json.asStrings? default.args "args" 1
      lineBase := ← json.fieldD Json.asNatural? default.lineBase "line_base" 2 }
  else none

/-- The configuration that a value stands for. -/
def Config.ofJson? (surplus : Bool) (json : Json) : Option Config :=
  if json.isSection surplus 2 then do
    return {
      tokens := ← json.fieldD (TokenConfig.ofJson? surplus) {} "tokens" 0
      parser := ← json.fieldD (ParserConfig.ofJson? surplus) {} "parser" 1 }
  else none

theorem Config.ofJson?_empty (surplus : Bool) : Config.ofJson? surplus (.object []) = some {} :=
  rfl

end CellSyntax
