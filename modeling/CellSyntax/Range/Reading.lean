/-
**Ranges as a user writes them.**

A position is written as a line and a column with a colon between them, a range as two positions
with a hyphen between them; a position by itself is the empty range there. The numbers may have a
plus sign and blanks around them and have to fit into 64 bits.

* `cut_append`: a text is cut at the first separator;
* `readNatural_toDigits`: a number in decimal digits is read back.
-/

import CellSyntax.Range
import CellSyntax.Text.Blank
import CellSyntax.Text.Decimal

namespace CellSyntax

/-- What is wrong with the text of a range. -/
inductive RangeFault where
  /-- There is no colon in a position. -/
  | noColon (position : String)
  | badLine (line : String)
  | badColumn (column : String)
deriving DecidableEq, Repr

/-- The wording of a fault. -/
def RangeFault.message : RangeFault → String
  | noColon position => s!"expected line:col, got '{position}'"
  | badLine line => s!"invalid line '{line}'"
  | badColumn column => s!"invalid column '{column}'"

namespace Text

/-- The text before and after the first `separator`. -/
def cut? (separator : Char) : List Char → Option (List Char × List Char)
  | [] => none
  | char :: rest =>
    if char = separator then some ([], rest)
    else (cut? separator rest).map fun (before, after) => (char :: before, after)

theorem cut_append {separator : Char} {before : List Char} (absent : separator ∉ before)
    (after : List Char) : cut? separator (before ++ separator :: after) = some (before, after) := by
  induction before with
  | nil => simp [cut?]
  | cons char rest ih =>
    have other : char ≠ separator := fun same => absent (same ▸ List.mem_cons_self)
    simp [cut?, other, ih fun member => absent (List.mem_cons_of_mem _ member)]

/-- A text without a plus sign in front. -/
def withoutPlus : List Char → List Char
  | '+' :: rest => rest
  | text => text

/-- The number that decimal digits stand for, if there are any and it fits into 64 bits. -/
def readNatural? (text : List Char) : Option Nat :=
  let digits := withoutPlus text
  if digits ≠ [] ∧ digits.all isDigit ∧ numeral 10 digits ≤ maxCoordinate then
    some (numeral 10 digits)
  else none

theorem digit_digitChar {value : Nat} (small : value < 10) :
    isDigit (Nat.digitChar value) = true ∧ digitValue (Nat.digitChar value) = value := by
  have all : ∀ digit ∈ List.range 10,
      isDigit (Nat.digitChar digit) = true ∧ digitValue (Nat.digitChar digit) = digit := by decide
  exact all value (List.mem_range.2 small)

theorem numeral_toDigits (value : Nat) :
    (Nat.toDigits 10 value).all isDigit = true ∧ numeral 10 (Nat.toDigits 10 value) = value := by
  induction value using Nat.strongRecOn with
  | _ value ih =>
    by_cases small : value < 10
    · have digit := digit_digitChar small
      rw [Nat.toDigits_of_lt_base small]
      simp [digit, numeral]
    · have tail := digit_digitChar (Nat.mod_lt value (by omega : 0 < 10))
      have head := ih (value / 10) (by omega)
      rw [Nat.toDigits_of_base_le (by omega) (by omega), numeral_snoc, List.all_append]
      refine ⟨by simp [head.1, tail.1], ?_⟩
      rw [head.2, tail.2]
      omega

theorem readNatural_toDigits {value : Nat} (fits : value ≤ maxCoordinate) :
    readNatural? (Nat.toDigits 10 value) = some value := by
  obtain ⟨digits, number⟩ := numeral_toDigits value
  have unsigned : withoutPlus (Nat.toDigits 10 value) = Nat.toDigits 10 value := by
    unfold withoutPlus
    split
    · rename_i rest plus
      rw [plus] at digits
      simp [isDigit] at digits
    · rfl
  rw [readNatural?, unsigned, number, if_pos]
  exact ⟨Nat.toDigits_ne_nil, digits, fits⟩

end Text

/-- The position that a text stands for. -/
def Position.read (text : List Char) : Except RangeFault Position :=
  match Text.cut? ':' text with
  | none => .error (.noColon (String.ofList text))
  | some (line, column) =>
    match Text.readNatural? (Text.trim line), Text.readNatural? (Text.trim column) with
    | none, _ => .error (.badLine (String.ofList line))
    | _, none => .error (.badColumn (String.ofList column))
    | some line, some column => .ok ⟨line, column⟩

/-- The range that a text stands for. -/
def Range.read (text : String) : Except RangeFault Range :=
  match Text.cut? '-' text.toList with
  | none => (Position.read text.toList).map Range.point
  | some (first, second) => do return Range.ofEnds (← Position.read first) (← Position.read second)

end CellSyntax
