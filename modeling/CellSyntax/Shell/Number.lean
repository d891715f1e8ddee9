/-
**Numbers in texts of the shell.**

A number may have spaces and a sign in front. Where the base is not fixed, `0x` in front of the
digits makes them hexadecimal, `0b` binary and another zero octal. A number is cut to the nearest
one of 64 bits.

* `Number.clamp_of_mem`: a number that fits is not changed.
-/

import CellSyntax.Shell.Bytes

namespace CellSyntax.Shell

namespace Number

/-- Whether a character may stand around a number. -/
def isSpace (char : Char) : Bool := char == ' ' || (9 ≤ char.toNat && char.toNat ≤ 13)

/-- The least number of 64 bits. -/
def least : Int := -0x8000000000000000

/-- The greatest number of 64 bits. -/
def greatest : Int := 0x7FFFFFFFFFFFFFFF

/-- The greatest number of 64 bits without a sign. -/
def greatestUnsigned : Int := 0xFFFFFFFFFFFFFFFF

/-- The nearest number between two bounds. -/
def clamp (lower upper number : Int) : Int := max lower (min upper number)

theorem clamp_of_mem {lower upper number : Int} (low : lower ≤ number) (high : number ≤ upper) :
    clamp lower upper number = number := by
  unfold clamp
  omega

/-- The number that is left of a result when only 64 bits are kept. -/
def wrap (number : Int) : Int := Int.bmod number 0x10000000000000000

/-- The digits at the front of a text, their base and what follows. -/
def digits (base : Option Nat) (text : List Char) : Nat × List Char × List Char :=
  let split (base : Nat) (isDigit : Char → Bool) (text : List Char) :=
    (base, text.takeWhile isDigit, text.dropWhile isDigit)
  let isOctal (char : Char) : Bool := '0' ≤ char ∧ char ≤ '7'
  let isBit (char : Char) : Bool := char = '0' ∨ char = '1'
  match base, text with
  | some base, text => split base Text.isDigit text
  | none, '0' :: letter :: digit :: rest =>
    if (letter = 'x' ∨ letter = 'X') ∧ Text.isHexDigit digit = true then
      split 16 Text.isHexDigit (digit :: rest)
    else if (letter = 'b' ∨ letter = 'B') ∧ isBit digit = true then split 2 isBit (digit :: rest)
    else split 8 isOctal text
  | none, '0' :: _ => split 8 isOctal text
  | none, _ => split 10 Text.isDigit text

/-- The number at the front of a text, and what follows; nothing if there are no digits. -/
def read? (base : Option Nat) (text : List Char) : Option (Int × List Char) :=
  let (negative, text) :=
    match text.dropWhile isSpace with
    | '-' :: rest => (true, rest)
    | '+' :: rest => (false, rest)
    | rest => (false, rest)
  match digits base text with
  | (_, [], _) => none
  | (base, digits, rest) =>
    let size : Int := Text.numeral base digits
    some (if negative then -size else size, rest)

/-- The number that a whole text is. -/
def ofText? (base : Option Nat) (text : List Char) : Option Int :=
  match read? base text with
  | some (number, rest) =>
    if rest.all isSpace ∧ least ≤ number ∧ number ≤ greatest then some number else none
  | none => none

/-- The greatest number that can be asked for in a command. -/
def greatestCount : Int := 0x7FFFFFFF

/-- A whole text as a number that can be asked for in a command. -/
def count? (text : List Char) : Option Nat :=
  match ofText? (some 10) text with
  | some number => if 0 ≤ number ∧ number ≤ greatestCount then some number.toNat else none
  | none => none

end Number

end CellSyntax.Shell
