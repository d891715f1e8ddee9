/-
**Decimal numbers in print.**

A number that is read as a decimal fraction is rounded to the nearest double, whose exact value is
then printed: with fixed places, with an exponent, or as whichever of the two is shorter.

* `Decimal.fixed_zero`: zero has as many places as are asked for.
-/

import CellSyntax.Shell.Number
import CellSyntax.Text.Double

namespace CellSyntax.Shell

/-- A number that is a quotient of two whole numbers, apart from its sign. -/
structure Decimal where
  negative : Bool
  numerator : Nat
  /-- Never zero. -/
  denominator : Nat
deriving DecidableEq, Repr

namespace Decimal

/-- A whole number. -/
def ofNat (size : Nat) : Decimal := ⟨false, size, 1⟩

/-- The whole number nearest to a quotient, the even one of two. -/
def roundDiv (numerator denominator : Nat) : Nat :=
  let whole := numerator / denominator
  let double := 2 * (numerator % denominator)
  if denominator < double ∨ (double = denominator ∧ whole % 2 = 1) then whole + 1 else whole

/-- A power of ten. -/
def power (exponent : Nat) : Nat := Nat.pow 10 exponent

/-- A power of two. -/
def bit (exponent : Nat) : Nat := 1 <<< exponent

/-- The exponent of the least double that is not zero, negated. -/
def finest : Nat := 1074

/-- The nearest double if there is no greatest one. -/
def toDouble (number : Decimal) : Decimal :=
  if number.numerator = 0 then number
  else
    let size : Int := number.numerator.log2 - number.denominator.log2
    let shift := (Double.significantBits : Int) + 1 - size
    let (numerator, denominator) :=
      if 0 ≤ shift then (number.numerator * bit shift.toNat, number.denominator)
      else (number.numerator, number.denominator * bit (-shift).toNat)
    let excess :=
      max ((numerator / denominator).log2 + 1 - Double.significantBits) (shift - finest).toNat
    let significand := roundDiv numerator (denominator * bit excess)
    let exponent := (excess : Int) - shift
    if 0 ≤ exponent then ⟨number.negative, significand * bit exponent.toNat, 1⟩
    else ⟨number.negative, significand, bit (-exponent).toNat⟩

/-- Whether two numbers have the same size. -/
def sameSize (one other : Decimal) : Bool :=
  one.numerator * other.denominator == other.numerator * one.denominator

/-- Whether a number is too large for a double. -/
def isHuge (number : Decimal) : Bool :=
  number.toDouble.denominator * bit 1024 ≤ number.toDouble.numerator

/-- Whether a number is too small for a double with all its bits. -/
def isTiny (number : Decimal) : Bool :=
  let double := number.toDouble
  number.numerator != 0 && !double.sameSize number &&
    double.numerator * bit 1022 < double.denominator

/-- The digits of a number times a power of ten, rounded to a whole number. -/
def scaled (number : Decimal) (places : Int) : Nat :=
  if 0 ≤ places then roundDiv (number.numerator * power places.toNat) number.denominator
  else roundDiv number.numerator (number.denominator * power (-places).toNat)

/-- Digits with a point before the last `places` of them. -/
def withPoint (digits : List Char) (places : Nat) (sharp : Bool) : List Char :=
  let digits := List.replicate (places + 1 - digits.length) '0' ++ digits
  let whole := digits.take (digits.length - places)
  if places = 0 then (if sharp then whole ++ ['.'] else whole)
  else whole ++ '.' :: digits.drop (digits.length - places)

/-- A number with fixed places. -/
def fixed (number : Decimal) (places : Nat) (sharp : Bool) : List Char :=
  withPoint (Nat.toDigits 10 (number.scaled places)) places sharp

theorem fixed_zero : fixed (ofNat 0) 2 false = "0.00".toList := by decide

/-- The exponent of the first digit that is not zero. -/
def leading (number : Decimal) : Int :=
  if number.numerator = 0 then 0
  else if number.denominator ≤ number.numerator then
    (Nat.toDigits 10 (number.numerator / number.denominator)).length - 1
  else
    let size := (Nat.toDigits 10 (number.denominator / number.numerator)).length
    if number.denominator ≤ number.numerator * power (size - 1) then 1 - (size : Int)
    else -(size : Int)

/-- The digits of a number, one before the point and `places` after it, and its exponent. -/
def significant (number : Decimal) (places : Nat) : List Char × Int :=
  let exponent := number.leading
  let digits := Nat.toDigits 10 (number.scaled (places - exponent))
  if places + 1 < digits.length then (digits.take (places + 1), exponent + 1)
  else (List.replicate (places + 1 - digits.length) '0' ++ digits, exponent)

/-- An exponent in at least two digits. -/
def showExponent (exponent : Int) : List Char :=
  let digits := Nat.toDigits 10 exponent.natAbs
  'e' :: (if exponent < 0 then '-' else '+') :: (List.replicate (2 - digits.length) '0' ++ digits)

/-- A number with an exponent. -/
def scientific (number : Decimal) (places : Nat) (sharp : Bool) : List Char :=
  let (digits, exponent) := number.significant places
  withPoint digits places sharp ++ showExponent exponent

/-- Digits without the zeros after the point that end them. -/
def dropZeros (digits : List Char) : List Char :=
  if digits.contains '.' then
    let kept := digits.reverse.dropWhile (· = '0')
    (match kept with
      | '.' :: rest => rest
      | kept => kept).reverse
  else digits

/-- A number with a count of digits, in whichever form is shorter. -/
def general (number : Decimal) (count : Nat) (sharp : Bool) : List Char :=
  let count := max 1 count
  let (digits, exponent) := number.significant (count - 1)
  let trim (digits : List Char) : List Char := if sharp then digits else dropZeros digits
  if -4 ≤ exponent ∧ exponent < count then
    trim (number.fixed ((count : Int) - 1 - exponent).toNat sharp)
  else trim (withPoint digits (count - 1) sharp) ++ showExponent exponent

/-- The exponent of the first bit that is not zero. -/
def leadingBit (number : Decimal) : Int :=
  if number.numerator = 0 then 0
  else
    let size : Int := number.numerator.log2 - number.denominator.log2
    let reaches :=
      if 0 ≤ size then number.denominator * bit size.toNat ≤ number.numerator
      else number.denominator ≤ number.numerator * bit (-size).toNat
    max (-1022) (if reaches then size else size - 1)

/-- The hexadecimal digits of the significant bits of a double, with a point behind the first one,
and the exponent of two. As many places are shown as are asked for, else as many as are needed. -/
def hexadecimal (number : Decimal) (places : Option Nat) (sharp : Bool) : List Char :=
  let exponent := number.leadingBit
  let count := places.getD 13
  let shift := 4 * (count : Int) - exponent
  let size :=
    if 0 ≤ shift then roundDiv (number.numerator * bit shift.toNat) number.denominator
    else roundDiv number.numerator (number.denominator * bit (-shift).toNat)
  let digits := Nat.toDigits 16 size
  let digits := List.replicate (count + 1 - digits.length) '0' ++ digits
  let kept := if places.isSome then digits
    else digits.take 1 ++ ((digits.drop 1).reverse.dropWhile (· = '0')).reverse
  withPoint kept (kept.length - 1) sharp ++
    ['p', if exponent < 0 then '-' else '+'] ++ Nat.toDigits 10 exponent.natAbs

end Decimal

end CellSyntax.Shell
