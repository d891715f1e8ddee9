/-
**Decimal numbers in text.**

* `numeral_snoc`: reading one more digit multiplies by the base and adds the digit.
-/

namespace CellSyntax.Text

/-- Whether a character is one of the ten decimal digits. -/
def isDigit (char : Char) : Bool := '0' ≤ char ∧ char ≤ '9'

/-- The value of a digit: decimal, or a letter from `a` on in either case. -/
def digitValue (char : Char) : Nat :=
  if isDigit char then char.toNat - '0'.toNat
  else if 'a' ≤ char ∧ char ≤ 'z' then char.toNat - 'a'.toNat + 10
  else char.toNat - 'A'.toNat + 10

/-- Whether a character is a hexadecimal digit. -/
def isHexDigit (char : Char) : Bool :=
  isDigit char || ('a' ≤ char ∧ char ≤ 'f') || ('A' ≤ char ∧ char ≤ 'F')

/-- The number that digits of a base stand for. -/
def numeral (base : Nat) (digits : List Char) : Nat :=
  digits.foldl (fun value char => value * base + digitValue char) 0

theorem numeral_snoc (base : Nat) (digits : List Char) (char : Char) :
    numeral base (digits ++ [char]) = numeral base digits * base + digitValue char := by
  simp [numeral]

end CellSyntax.Text
