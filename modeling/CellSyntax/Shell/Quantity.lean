/-
**Quantities in texts.**

A quantity is a number, infinity, or no number at all. In a text a number is written in decimal or,
behind `0x`, in hexadecimal digits with an exponent of two; the other two are written as words.

* `Quantity.ofNumber_zero`: zero is a number.
-/

import CellSyntax.Shell.Decimal

namespace CellSyntax.Shell

/-- What a text that should be a number can say. -/
inductive Quantity where
  | finite (number : Decimal)
  | infinite (negative : Bool)
  | undefined (negative : Bool)
deriving DecidableEq, Repr

namespace Quantity

/-- A number as a double. -/
def ofNumber (number : Decimal) : Quantity :=
  if number.isHuge then infinite number.negative else finite number.toDouble

theorem ofNumber_zero : ofNumber (Decimal.ofNat 0) = finite (Decimal.ofNat 0) := by decide

/-- What follows a word at the front of a text, whatever the case of its letters. -/
def afterWord? : (word text : List Char) → Option (List Char)
  | [], text => some text
  | letter :: word, char :: text =>
    if char.toLower = letter then afterWord? word text else none
  | _ :: _, [] => none

/-- The text behind a label in brackets that may stand behind the word for no number. -/
def afterLabel (text : List Char) : List Char :=
  match text with
  | '(' :: rest =>
    match rest.dropWhile fun char => char.isAlphanum || char == '_' with
    | ')' :: rest => rest
    | _ => text
  | _ => text

/-- Digits with a point among them, at the front of a text: the digits before and behind the point,
and what follows. -/
def readDigits (isDigit : Char → Bool) (text : List Char) : List Char × List Char × List Char :=
  let whole := text.takeWhile isDigit
  match text.drop whole.length with
  | '.' :: rest =>
    let fraction := rest.takeWhile isDigit
    if whole.isEmpty && fraction.isEmpty then ([], [], text)
    else (whole, fraction, rest.drop fraction.length)
  | rest => (whole, [], rest)

/-- The greatest exponent that is told from a greater one. -/
def greatestExponent : Nat := 5000

/-- An exponent behind its letter at the front of a text; none if there are no digits. -/
def readExponent (letter : Char) (text : List Char) : Int × List Char :=
  match text with
  | char :: after =>
    let (negative, digits) :=
      match after with
      | '-' :: rest => (true, rest)
      | '+' :: rest => (false, rest)
      | rest => (false, rest)
    let size := digits.takeWhile Text.isDigit
    if char.toLower = letter ∧ size ≠ [] then
      let value : Int := min greatestExponent (Text.numeral 10 size)
      (if negative then -value else value, digits.drop size.length)
    else (0, text)
  | [] => (0, [])

/-- The number with a sign, a size and an exponent, whose powers are those of some base. -/
def number (negative : Bool) (size : Nat) (power : Nat → Nat) (exponent : Int) : Decimal :=
  if 0 ≤ exponent then ⟨negative, size * power exponent.toNat, 1⟩
  else ⟨negative, size, power (-exponent).toNat⟩

/-- The hexadecimal number at the front of a text behind its mark. -/
def hexadecimal? (negative : Bool) (text : List Char) : Option (Decimal × List Char) :=
  let (whole, fraction, rest) := readDigits Text.isHexDigit text
  if whole.isEmpty && fraction.isEmpty then none
  else
    let (exponent, rest) := readExponent 'p' rest
    some (number negative (Text.numeral 16 (whole ++ fraction)) Decimal.bit
      (exponent - 4 * fraction.length), rest)

/-- The decimal number at the front of a text. -/
def decimal? (negative : Bool) (text : List Char) : Option (Decimal × List Char) :=
  let (whole, fraction, rest) := readDigits Text.isDigit text
  if whole.isEmpty && fraction.isEmpty then none
  else
    let (exponent, rest) := readExponent 'e' rest
    some (number negative (Text.numeral 10 (whole ++ fraction)) Decimal.power
      (exponent - fraction.length), rest)

/-- The number at the front of a text without its sign. -/
def number? (negative : Bool) (text : List Char) : Option (Decimal × List Char) :=
  match text with
  | '0' :: mark :: rest =>
    match if mark = 'x' ∨ mark = 'X' then hexadecimal? negative rest else none with
    | some found => some found
    | none => decimal? negative text
  | text => decimal? negative text

/-- What stands at the front of a text, whether a double is too small or too large for it, and what
follows. -/
def read? (text : List Char) : Option (Quantity × Bool × List Char) :=
  let (negative, text) :=
    match text with
    | '-' :: rest => (true, rest)
    | '+' :: rest => (false, rest)
    | rest => (false, rest)
  match number? negative text with
  | some (number, rest) => some (ofNumber number, number.isHuge || number.isTiny, rest)
  | none =>
    match afterWord? "infinity".toList text, afterWord? "inf".toList text,
        afterWord? "nan".toList text with
    | some rest, _, _ | none, some rest, _ => some (infinite negative, false, rest)
    | none, none, some rest => some (undefined negative, false, afterLabel rest)
    | none, none, none => none

end Quantity

end CellSyntax.Shell
