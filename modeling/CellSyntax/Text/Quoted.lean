/-
**Quoted text.**

A text in double quotes, with everything that does not print written as an escape.

* `quotedChar_self`: a character that prints, apart from the quote and the backslash, stands for
  itself.
-/

import CellSyntax.Text.Printable

namespace CellSyntax.Text

/-- The digits of a number in lower-case hexadecimal, without leading zeros. -/
def hexadecimal (value : Nat) : List Char := Nat.toDigits 16 value

/-- A character as it is written between the quotes. -/
def quotedChar (char : Char) : List Char :=
  match char with
  | '\x00' => ['\\', '0']
  | '\t' => ['\\', 't']
  | '\n' => ['\\', 'n']
  | '\r' => ['\\', 'r']
  | '"' => ['\\', '"']
  | '\\' => ['\\', '\\']
  | _ =>
    if isPrintable char then [char]
    else ['\\', 'u', '\x7b'] ++ hexadecimal char.toNat ++ ['\x7d']

theorem quotedChar_self {char : Char} (prints : isPrintable char = true) (quote : char ≠ '"')
    (backslash : char ≠ '\\') : quotedChar char = [char] := by
  unfold quotedChar
  split
  · exact absurd prints (by decide)
  · exact absurd prints (by decide)
  · exact absurd prints (by decide)
  · exact absurd prints (by decide)
  · exact absurd rfl quote
  · exact absurd rfl backslash
  · rw [if_pos prints]

/-- A text with its quotes. -/
def quoted (text : String) : String :=
  "\"" ++ String.ofList (text.toList.flatMap quotedChar) ++ "\""

end CellSyntax.Text
