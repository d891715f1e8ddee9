/-
**Writing JSON text.**

Strings escape quotes, backslashes and control characters and nothing else. The pretty form puts
every item and member on a line of its own, two spaces deeper than what it is part of.

* `escapeChar_self`: characters that need no escape stand for themselves.
-/

import CellSyntax.Json.Basic

namespace CellSyntax

namespace Json

/-- A hexadecimal digit, in lower case. -/
def hexDigit (value : Nat) : Char :=
  if value < 10 then Char.ofNat ('0'.toNat + value) else Char.ofNat ('a'.toNat + (value - 10))

/-- A character as it is written inside a string. -/
def escapeChar (char : Char) : List Char :=
  match char with
  | '"' => ['\\', '"']
  | '\\' => ['\\', '\\']
  | '\x08' => ['\\', 'b']
  | '\x0c' => ['\\', 'f']
  | '\n' => ['\\', 'n']
  | '\r' => ['\\', 'r']
  | '\t' => ['\\', 't']
  | _ =>
    if char.toNat < 0x20 then
      ['\\', 'u', '0', '0', hexDigit (char.toNat / 16), hexDigit (char.toNat % 16)]
    else [char]

theorem escapeChar_self {char : Char} (printable : 0x20 ≤ char.toNat) (quote : char ≠ '"')
    (backslash : char ≠ '\\') : escapeChar char = [char] := by
  unfold escapeChar
  split
  · exact absurd rfl quote
  · exact absurd rfl backslash
  · exact absurd printable (by decide)
  · exact absurd printable (by decide)
  · exact absurd printable (by decide)
  · exact absurd printable (by decide)
  · exact absurd printable (by decide)
  · rw [if_neg (by omega)]

/-- A string with its quotes. -/
def quote (text : String) : String :=
  "\"" ++ String.ofList (text.toList.flatMap escapeChar) ++ "\""

/-- The spaces in front of a line. -/
def margin (depth : Nat) : String := String.ofList (List.replicate (2 * depth) ' ')

mutual

/-- A value over several lines, the first of them not indented. -/
def pretty (depth : Nat) : Json → String
  | .null => "null"
  | .bool value => if value then "true" else "false"
  | .integer value => toString value
  | .real literal => literal
  | .string value => quote value
  | .array [] => "[]"
  | .array (item :: rest) =>
    "[\n" ++ margin (depth + 1) ++ pretty (depth + 1) item ++ prettyItems (depth + 1) rest ++
      "\n" ++ margin depth ++ "]"
  | .object [] => "\x7b\x7d"
  | .object ((key, value) :: rest) =>
    "\x7b\n" ++ margin (depth + 1) ++ quote key ++ ": " ++ pretty (depth + 1) value ++
      prettyMembers (depth + 1) rest ++ "\n" ++ margin depth ++ "\x7d"

/-- The items after the first, each on its own line. -/
def prettyItems (depth : Nat) : List Json → String
  | [] => ""
  | item :: rest => ",\n" ++ margin depth ++ pretty depth item ++ prettyItems depth rest

/-- The members after the first, each on its own line. -/
def prettyMembers (depth : Nat) : List (String × Json) → String
  | [] => ""
  | (key, value) :: rest =>
    ",\n" ++ margin depth ++ quote key ++ ": " ++ pretty depth value ++ prettyMembers depth rest

end

mutual

/-- A value on one line. -/
def compact : Json → String
  | .null => "null"
  | .bool value => if value then "true" else "false"
  | .integer value => toString value
  | .real literal => literal
  | .string value => quote value
  | .array items => "[" ++ ",".intercalate (compactItems items) ++ "]"
  | .object members => "\x7b" ++ ",".intercalate (compactMembers members) ++ "\x7d"

/-- Items, each on one line. -/
def compactItems : List Json → List String
  | [] => []
  | item :: rest => compact item :: compactItems rest

/-- Members, each on one line. -/
def compactMembers : List (String × Json) → List String
  | [] => []
  | (key, value) :: rest => (quote key ++ ":" ++ compact value) :: compactMembers rest

end

end Json

end CellSyntax
