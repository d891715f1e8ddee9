/-
**Reading JSON text.**

The grammar is strict: no control characters in strings, no leading zeros, nothing after the
value. Arrays and objects nest at most `Json.maxLevels` deep. A number too large for a double
and half of a surrogate pair are refused as well, except in values that are only skipped.

* `skipBlanks_length_le`: skipping blanks never lengthens the text;
* `Json.read_blank`: a text of blanks is not a value.
-/

import CellSyntax.Json.Number

namespace CellSyntax

namespace Json

/-- How deep arrays and objects may nest. -/
def maxLevels : Nat := 127

/-- Whether a character may stand between the parts of a JSON text. -/
def isSpace (char : Char) : Bool :=
  char == ' ' || char == '\n' || char == '\t' || char == '\r'

/-- The text from the first character on that is not a space. -/
def skipBlanks (text : List Char) : List Char := text.dropWhile isSpace

theorem skipBlanks_length_le (text : List Char) : (skipBlanks text).length ≤ text.length := by
  unfold skipBlanks
  induction text with
  | nil => simp
  | cons char rest ih =>
    rw [List.dropWhile_cons]
    split
    · exact Nat.le_succ_of_le ih
    · exact Nat.le_refl _

/-! ### Strings -/

/-- The character of a one-letter escape. -/
def simpleEscape? : Char → Option Char
  | '"' => some '"'
  | '\\' => some '\\'
  | '/' => some '/'
  | 'b' => some '\x08'
  | 'f' => some '\x0c'
  | 'n' => some '\n'
  | 'r' => some '\r'
  | 't' => some '\t'
  | _ => none

/-- The code unit of four hexadecimal digits. -/
def codeUnit? (digits : List Char) : Option Nat :=
  if digits.all Text.isHexDigit then some (Text.numeral 16 digits) else none

/-- The characters of a string up to its closing quote, with the text after the quote. With
`checked`, surrogates have to come in pairs. -/
def readChars (checked : Bool) : List Char → Option (List Char × List Char)
  | [] => none
  | '"' :: rest => some ([], rest)
  | '\\' :: 'u' :: a :: b :: c :: d :: rest =>
    match codeUnit? [a, b, c, d] with
    | none => none
    | some unit =>
      if checked = false ∨ unit < 0xD800 ∨ 0xDFFF < unit then
        (readChars checked rest).map fun (chars, rest) => (Char.ofNat unit :: chars, rest)
      else
        match rest with
        | '\\' :: 'u' :: e :: f :: g :: h :: rest =>
          match codeUnit? [e, f, g, h] with
          | none => none
          | some low =>
            if unit < 0xDC00 ∧ 0xDC00 ≤ low ∧ low ≤ 0xDFFF then
              (readChars checked rest).map fun (chars, rest) =>
                (Char.ofNat (0x10000 + (unit - 0xD800) * 0x400 + (low - 0xDC00)) :: chars, rest)
            else none
        | _ => none
  | '\\' :: letter :: rest =>
    match simpleEscape? letter with
    | none => none
    | some char => (readChars checked rest).map fun (chars, rest) => (char :: chars, rest)
  | char :: rest =>
    if char.toNat < 0x20 ∨ char = '\\' then none
    else (readChars checked rest).map fun (chars, rest) => (char :: chars, rest)

/-- The text of a string after its opening quote, with what follows. -/
def readString (checked : Bool) (text : List Char) : Option (String × List Char) :=
  (readChars checked text).map fun (chars, rest) => (String.ofList chars, rest)

/-! ### Values -/

mutual

/-- A value, with what follows. With `checked`, arrays and objects nest at most `levels` deep. -/
def readValue (checked : Bool) :
    (steps levels : Nat) → List Char → Option (Json × List Char)
  | 0, _, _ => none
  | steps + 1, levels, text =>
    match skipBlanks text with
    | 'n' :: 'u' :: 'l' :: 'l' :: rest => some (.null, rest)
    | 't' :: 'r' :: 'u' :: 'e' :: rest => some (.bool true, rest)
    | 'f' :: 'a' :: 'l' :: 's' :: 'e' :: rest => some (.bool false, rest)
    | '"' :: rest => (readString checked rest).map fun (value, rest) => (.string value, rest)
    | '[' :: rest =>
      if checked && levels == 0 then none
      else
        match skipBlanks rest with
        | ']' :: rest => some (.array [], rest)
        | rest =>
          (readItems checked steps (levels - 1) rest).map fun (items, rest) => (.array items, rest)
    | '\x7b' :: rest =>
      if checked && levels == 0 then none
      else
        match skipBlanks rest with
        | '\x7d' :: rest => some (.object [], rest)
        | rest =>
          (readMembers checked steps (levels - 1) rest).map fun (members, rest) =>
            (.object members, rest)
    | text => readNumber checked text

/-- The items of an array up to its end, at least one. -/
def readItems (checked : Bool) :
    (steps levels : Nat) → List Char → Option (List Json × List Char)
  | 0, _, _ => none
  | steps + 1, levels, text =>
    match readValue checked steps levels text with
    | none => none
    | some (item, rest) =>
      match skipBlanks rest with
      | ']' :: rest => some ([item], rest)
      | ',' :: rest =>
        (readItems checked steps levels rest).map fun (items, rest) => (item :: items, rest)
      | _ => none

/-- The members of an object up to its end, at least one. -/
def readMembers (checked : Bool) :
    (steps levels : Nat) → List Char → Option (List (String × Json) × List Char)
  | 0, _, _ => none
  | steps + 1, levels, text =>
    match skipBlanks text with
    | '"' :: rest =>
      match readString checked rest with
      | none => none
      | some (key, rest) =>
        match skipBlanks rest with
        | ':' :: rest =>
          match readValue checked steps levels rest with
          | none => none
          | some (value, rest) =>
            match skipBlanks rest with
            | '\x7d' :: rest => some ([(key, value)], rest)
            | ',' :: rest =>
              (readMembers checked steps levels rest).map fun (members, rest) =>
                ((key, value) :: members, rest)
            | _ => none
        | _ => none
    | _ => none

end

/-- Enough steps to read a value from a text: every other step reads a character. -/
def stepsFor (text : List Char) : Nat := 2 * text.length + 2

/-- The value that a whole text holds, nested at most `levels` deep. -/
def readWithin (levels : Nat) (text : String) : Option Json :=
  match readValue true (stepsFor text.toList) levels text.toList with
  | some (value, rest) => if (skipBlanks rest).isEmpty then some value else none
  | none => none

/-- The value that a whole text holds. -/
def read (text : String) : Option Json := readWithin maxLevels text

theorem read_blank {text : String} (blank : skipBlanks text.toList = []) : read text = none := by
  unfold read readWithin
  have steps : stepsFor text.toList = 2 * text.toList.length + 1 + 1 := rfl
  rw [steps, readValue, blank]
  rfl

end Json

end CellSyntax
