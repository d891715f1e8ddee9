/-
**Numbers of a JSON text.**

A number keeps the parts that it is written with. An integer that fits is read as it is; any other
number only has to fit into a double, where its significand is first cut to an integer of 64 bits.

* `keptDigits_le`: cutting a significand drops digits and adds none.
-/

import CellSyntax.Json.Basic
import CellSyntax.Text.Double

namespace CellSyntax

namespace Json

/-- The digits at the front of a text, with what follows; none if there is no digit. -/
def readDigits (text : List Char) : Option (List Char × List Char) :=
  match text.takeWhile Text.isDigit with
  | [] => none
  | digit :: digits => some (digit :: digits, text.dropWhile Text.isDigit)

/-- The parts of a number: its whole digits, its fraction digits and its exponent. -/
structure NumberParts where
  negative : Bool
  whole : List Char
  /-- The digits after the point, if there is one. -/
  fraction : Option (List Char)
  /-- The sign of the exponent, true if it is negative, and its digits. -/
  exponent : Option (Bool × List Char)
deriving Repr

namespace NumberParts

/-- The exponent that is written. -/
def writtenExponent (parts : NumberParts) : Int :=
  match parts.exponent with
  | none => 0
  | some (negative, digits) =>
    let size : Int := Text.numeral 10 digits
    if negative then -size else size

/-- Whether the nearest double of a number is infinite. -/
def isInfinite (parts : NumberParts) : Bool :=
  let fraction := parts.fraction.getD []
  let digits := parts.whole ++ fraction
  let significand := Text.numeral 10 digits
  let exponent := parts.writtenExponent - fraction.length
  if significand = 0 then false
  else if 310 < exponent then true
  else if exponent + digits.length < 300 then false
  else if 0 ≤ exponent then Double.limit ≤ significand * Nat.pow 10 exponent.toNat
  else Double.limit * Nat.pow 10 (-exponent).toNat ≤ significand

/-- The number of the front digits that are kept so that with them a significand stays below the
limit of integers. -/
def keptDigits (significand : Nat) : List Char → Nat
  | [] => 0
  | digit :: rest =>
    let next := significand * 10 + Text.digitValue digit
    if next < unsignedLimit then keptDigits next rest + 1 else 0

/-- The significand of a number cut to an integer below the limit, with its exponent. Of the whole
digits those that are cut count in the exponent, and of the fraction those that are kept. -/
def scaled (parts : NumberParts) : Nat × Int :=
  let whole := keptDigits 0 parts.whole
  let front := Text.numeral 10 (parts.whole.take whole)
  let fraction := parts.fraction.getD []
  let kept := keptDigits front fraction
  (Text.numeral 10 (parts.whole.take whole ++ fraction.take kept),
    parts.writtenExponent + (parts.whole.length - whole : Nat) - kept)

/-- The largest power of ten that is a finite double. -/
def maxPower : Nat := 308

/-- Whether a number is too large: the double nearest to its cut significand, times the double
nearest to its power of ten, rounds to infinity. -/
def overflows (parts : NumberParts) : Bool :=
  let (significand, exponent) := parts.scaled
  if significand = 0 ∨ exponent < 0 then false
  else if maxPower < exponent then true
  else Double.limit ≤
    Double.nearest significand * Double.nearest (Nat.pow 10 exponent.toNat)

theorem keptDigits_le (significand : Nat) (digits : List Char) :
    keptDigits significand digits ≤ digits.length := by
  induction digits generalizing significand with
  | nil => simp [keptDigits]
  | cons digit rest ih =>
    simp only [keptDigits]
    split
    · simpa using ih _
    · exact Nat.zero_le _

/-- The number as it is written, exponent signs apart. -/
def literal (parts : NumberParts) : String :=
  (if parts.negative then "-" else "") ++ String.ofList parts.whole ++
    (match parts.fraction with
      | none => ""
      | some digits => "." ++ String.ofList digits) ++
    match parts.exponent with
      | none => ""
      | some (negative, digits) => (if negative then "e-" else "e") ++ String.ofList digits

/-- The value of a number: an integer if it is written as one and fits. -/
def value (parts : NumberParts) : Json :=
  let size := Text.numeral 10 parts.whole
  match parts.fraction, parts.exponent, parts.negative with
  | none, none, false => if size < unsignedLimit then .integer size else .real parts.literal
  | none, none, true =>
    if size ≠ 0 ∧ size ≤ signedLimit then .integer (-size) else .real parts.literal
  | _, _, _ => .real parts.literal

end NumberParts

/-- The whole digits of a number: a single zero, or digits that start with another one. -/
def readWhole (text : List Char) : Option (List Char × List Char) :=
  match readDigits text with
  | some ('0' :: _ :: _, _) => none
  | found => found

/-- The fraction of a number, if there is a point. -/
def readFraction : List Char → Option (Option (List Char) × List Char)
  | '.' :: rest => (readDigits rest).map fun (digits, rest) => (some digits, rest)
  | text => some (none, text)

/-- The exponent of a number, if there is one. -/
def readExponent : List Char → Option (Option (Bool × List Char) × List Char)
  | letter :: rest =>
    if letter = 'e' ∨ letter = 'E' then
      let (negative, rest) :=
        match rest with
        | '-' :: rest => (true, rest)
        | '+' :: rest => (false, rest)
        | _ => (false, rest)
      (readDigits rest).map fun (digits, rest) => (some (negative, digits), rest)
    else some (none, letter :: rest)
  | [] => some (none, [])

/-- A number, with what follows. With `checked`, it has to fit into a double. -/
def readNumber (checked : Bool) (text : List Char) : Option (Json × List Char) := do
  let (negative, text) :=
    match text with
    | '-' :: rest => (true, rest)
    | _ => (false, text)
  let (whole, text) ← readWhole text
  let (fraction, text) ← readFraction text
  let (exponent, text) ← readExponent text
  let parts : NumberParts := ⟨negative, whole, fraction, exponent⟩
  if checked && parts.overflows then none else some (parts.value, text)

end Json

end CellSyntax
