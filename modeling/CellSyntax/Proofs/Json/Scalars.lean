/-
**Strings and numbers of a JSON text are read back.**

A string is read character by character, so it is enough that every character comes back from what
it is written as. A number goes on as far as it can, so it is read back where nothing follows that
would be part of it. A whole number that fits into 64 bits is an integer, and it is far too small
not to fit into a double.

* `Json.readString_escape`: a string is read back;
* `Json.NumberParts.overflows_integer`: integers of 64 bits fit into a double;
* `Json.readNumber_toString`: an integer is read back.
-/

import CellSyntax.Json.Printer
import CellSyntax.Json.Reader
import CellSyntax.Range.Reading
import Mathlib.Algebra.Group.Nat.Defs
import Mathlib.Data.List.Induction

namespace CellSyntax

namespace Json

/-! ### Strings -/

/-- **A character is read back from what it is written as.** -/
theorem readChars_escapeChar (checked : Bool) (char : Char) (rest : List Char) :
    readChars checked (escapeChar char ++ rest) =
      (readChars checked rest).map fun (chars, rest) => (char :: chars, rest) := by
  unfold escapeChar
  split
  · rfl
  · rfl
  · rfl
  · rfl
  · rfl
  · rfl
  · rfl
  · rename_i notQuote notBackslash _ _ _ _ _
    split
    · rename_i control
      have units : ∀ code ∈ List.range 0x20,
        codeUnit? ['0', '0', hexDigit (code / 16), hexDigit (code % 16)] = some code := by decide
      simp only [List.cons_append, List.nil_append]
      rw [readChars, units _ (List.mem_range.2 control)]
      simp only
      rw [if_pos (by omega), Char.ofNat_toNat]
    · rename_i printable
      rw [List.singleton_append, readChars]
      · rw [if_neg (not_or.2 ⟨printable, notBackslash⟩)]
      · exact notQuote
      · exact fun _ _ _ _ _ backslash => absurd backslash notBackslash
      · exact fun _ _ backslash => absurd backslash notBackslash

theorem readChars_escape (checked : Bool) (chars rest : List Char) :
    readChars checked (chars.flatMap escapeChar ++ '"' :: rest) = some (chars, rest) := by
  induction chars with
  | nil => rfl
  | cons char chars ih =>
    rw [List.flatMap_cons, List.append_assoc, readChars_escapeChar, ih]
    rfl

theorem toList_quote (text : String) :
    (quote text).toList = '"' :: (text.toList.flatMap escapeChar ++ ['"']) := by
  simp [quote]

/-- **A string is read back** behind its opening quote. -/
theorem readString_escape (checked : Bool) (text : String) (rest : List Char) :
    readString checked (text.toList.flatMap escapeChar ++ '"' :: rest) = some (text, rest) := by
  rw [readString, readChars_escape, Option.map_some]
  simp only [String.ofList_toList]

/-! ### Numbers -/

/-- **A text does not go on with a number**: what follows is no digit, point or exponent. -/
def EndsNumber (rest : List Char) : Prop :=
  ∀ char ∈ rest.head?, Text.isDigit char = false ∧ char ≠ '.' ∧ char ≠ 'e' ∧ char ≠ 'E'

theorem endsNumber_nil : EndsNumber [] := nofun

theorem endsNumber_cons {char : Char} (isEnd : char = ',' ∨ char = ']' ∨ char = '\x7d')
    (rest : List Char) : EndsNumber (char :: rest) := by
  rintro _ ⟨⟩
  rcases isEnd with rfl | rfl | rfl <;> decide

/-- The digits of a number do not start with a zero, except those of zero. -/
theorem head?_toDigits {value : Nat} (zero : (Nat.toDigits 10 value).head? = some '0') :
    value = 0 := by
  induction value using Nat.strongRecOn with
  | _ value ih =>
    by_cases small : value < 10
    · have all : ∀ digit ∈ List.range 10, Nat.digitChar digit = '0' → digit = 0 := by decide
      rw [Nat.toDigits_of_lt_base small, List.head?_cons, Option.some.injEq] at zero
      exact all value (List.mem_range.2 small) zero
    · obtain ⟨digit, digits, front⟩ :=
        List.exists_cons_of_ne_nil (@Nat.toDigits_ne_nil (value / 10) 10)
      rw [Nat.toDigits_of_base_le (by omega) (by omega), front] at zero
      have none := ih (value / 10) (by omega) (front ▸ zero)
      omega

theorem takeWhile_isDigit {digits rest : List Char} (decimal : digits.all Text.isDigit = true)
    (ends : EndsNumber rest) : (digits ++ rest).takeWhile Text.isDigit = digits ∧
      (digits ++ rest).dropWhile Text.isDigit = rest := by
  have all := List.all_eq_true.1 decimal
  rw [List.takeWhile_append_of_pos all, List.dropWhile_append_of_pos all]
  cases rest with
  | nil => exact ⟨List.append_nil _, rfl⟩
  | cons char rest =>
    have stop : ¬ Text.isDigit char = true := by
      rw [(ends char rfl).1]
      exact Bool.false_ne_true
    rw [List.takeWhile_cons_of_neg stop, List.dropWhile_cons_of_neg stop]
    exact ⟨List.append_nil _, rfl⟩

/-- **The whole digits of a written number are read up to where they end.** -/
theorem readWhole_toDigits (value : Nat) {rest : List Char} (ends : EndsNumber rest) :
    readWhole (Nat.toDigits 10 value ++ rest) = some (Nat.toDigits 10 value, rest) := by
  have decimal := (Text.numeral_toDigits value).1
  obtain ⟨taken, dropped⟩ := takeWhile_isDigit decimal ends
  obtain ⟨digit, digits, written⟩ := List.exists_cons_of_ne_nil (@Nat.toDigits_ne_nil value 10)
  have read : readDigits (Nat.toDigits 10 value ++ rest) = some (digit :: digits, rest) := by
    rw [readDigits, taken, dropped, written]
  rw [readWhole, read, written]
  split
  · rename_i zero
    cases zero
    rw [head?_toDigits (congrArg List.head? written)] at written
    cases written
  · rfl

theorem readFraction_none {rest : List Char} (ends : EndsNumber rest) :
    readFraction rest = some (none, rest) := by
  unfold readFraction
  split
  · exact absurd rfl (ends '.' rfl).2.1
  · rfl

theorem readExponent_none {rest : List Char} (ends : EndsNumber rest) :
    readExponent rest = some (none, rest) := by
  cases rest with
  | nil => rfl
  | cons char rest =>
    obtain ⟨-, -, lower, upper⟩ := ends char rfl
    simp [readExponent, lower, upper]

/-! ### Integers fit into a double -/

namespace NumberParts

/-- A number that is written as an integer. -/
def integer (negative : Bool) (value : Nat) : NumberParts :=
  ⟨negative, Nat.toDigits 10 value, none, none⟩

theorem numeral_le_append (front digits : List Char) :
    Text.numeral 10 front ≤ Text.numeral 10 (front ++ digits) := by
  induction digits using List.reverseRecOn with
  | nil => exact Nat.le_of_eq (congrArg _ (List.append_nil _).symm)
  | append_singleton digits digit ih =>
    rw [← List.append_assoc, Text.numeral_snoc]
    omega

/-- No digit of a significand below the limit is cut. -/
theorem keptDigits_eq_length {front digits : List Char}
    (below : Text.numeral 10 (front ++ digits) < unsignedLimit) :
    keptDigits (Text.numeral 10 front) digits = digits.length := by
  induction digits generalizing front with
  | nil => rfl
  | cons digit digits ih =>
    have upTo := numeral_le_append (front ++ [digit]) digits
    rw [List.append_cons] at below
    have later := ih below
    rw [Text.numeral_snoc] at upTo later
    rw [keptDigits, if_pos (Nat.lt_of_le_of_lt upTo below), later, List.length_cons]

/-- Rounding adds less than one unit of the last bit that is kept. -/
theorem nearest_le (value : Nat) : Double.nearest value ≤
    value + 2 ^ (value.log2 + 1 - Double.significantBits) := by
  simp only [Double.nearest, Nat.shiftLeft_eq, Nat.shiftRight_eq_div_pow]
  generalize value.log2 + 1 - Double.significantBits = excess
  have cut : value / 2 ^ excess * 2 ^ excess ≤ value := Nat.div_mul_le_self _ _
  split
  · rw [Nat.add_mul, Nat.one_mul]
    exact Nat.add_le_add_right cut _
  · exact Nat.le_add_right_of_le cut

theorem nearest_lt_limit {value : Nat} (fits : value < unsignedLimit) :
    Double.nearest value < Double.limit := by
  have bits : value.log2 + 1 - Double.significantBits ≤ 11 := by
    by_cases zero : value = 0
    · rw [zero]
      decide
    · have log : value.log2 < 64 := (Nat.log2_lt zero).2 fits
      have : Double.significantBits = 53 := rfl
      omega
  calc Double.nearest value ≤ value + 2 ^ (value.log2 + 1 - Double.significantBits) :=
        nearest_le value
    _ ≤ unsignedLimit + 2 ^ 11 :=
        Nat.add_le_add (Nat.le_of_lt fits) (Nat.pow_le_pow_right (by decide) bits)
    _ < Double.limit := by decide +kernel

/-- **An integer of 64 bits fits into a double.** -/
theorem overflows_integer (negative : Bool) {value : Nat} (fits : value < unsignedLimit) :
    (integer negative value).overflows = false := by
  have number := (Text.numeral_toDigits value).2
  have kept : keptDigits 0 (Nat.toDigits 10 value) = (Nat.toDigits 10 value).length :=
    @keptDigits_eq_length [] _ (by rwa [List.nil_append, number])
  have scaled : (integer negative value).scaled = (value, 0) := by
    simp [NumberParts.scaled, integer, kept, number, writtenExponent, keptDigits]
  have one : Double.nearest (Nat.pow 10 (0 : Int).toNat) = 1 := by decide
  have finite := nearest_lt_limit fits
  rw [overflows, scaled]
  simp only [one, Nat.mul_one, maxPower]
  split
  · rfl
  · rw [if_neg (by decide)]
    exact decide_eq_false (Nat.not_le_of_lt finite)

end NumberParts

/-- **The digits of an integer are read up to where they end**, behind a sign if there is one. -/
theorem readNumber_integer (negative : Bool) (value : Nat) {rest : List Char}
    (ends : EndsNumber rest) (fits : value < unsignedLimit) :
    readNumber true ((if negative then ['-'] else []) ++ (Nat.toDigits 10 value ++ rest)) =
      some ((NumberParts.integer negative value).value, rest) := by
  have finite : (NumberParts.integer negative value).overflows = false :=
    NumberParts.overflows_integer negative fits
  have whole := readWhole_toDigits value ends
  have fraction := readFraction_none ends
  have exponent := readExponent_none ends
  rw [NumberParts.integer] at finite ⊢
  cases negative with
  | false =>
    -- Without a sign in front, the first digit is not taken for one.
    have unsigned : ∀ digits, Nat.toDigits 10 value ++ rest = '-' :: digits → False := by
      intro digits minus
      obtain ⟨digit, others, written⟩ := List.exists_cons_of_ne_nil (@Nat.toDigits_ne_nil value 10)
      have decimal := (Text.numeral_toDigits value).1
      rw [written] at minus decimal
      rw [(List.cons.inj minus).1] at decimal
      cases decimal
    rw [if_neg Bool.false_ne_true, List.nil_append]
    simp only [readNumber, whole, fraction, exponent, finite, Option.bind_eq_bind,
      Option.bind_some, Bool.and_false, Bool.false_eq_true, if_false]
  | true =>
    rw [if_pos rfl, List.singleton_append]
    simp only [readNumber, whole, fraction, exponent, finite, Option.bind_eq_bind,
      Option.bind_some, Bool.and_false, Bool.false_eq_true, if_false]

theorem toList_ofNat (value : Nat) :
    (toString (Int.ofNat value)).toList = Nat.toDigits 10 value := by
  show (String.ofList (Nat.toDigits 10 value)).toList = _
  rw [String.toList_ofList]

theorem toList_negSucc (value : Nat) :
    (toString (Int.negSucc value)).toList = '-' :: Nat.toDigits 10 (value + 1) := by
  show ("-" ++ String.ofList (Nat.toDigits 10 (value + 1))).toList = _
  simp

/-- A written integer starts with a digit or a sign. -/
theorem exists_first_toString (value : Int) : ∃ first rest,
    (toString value).toList = first :: rest ∧ (Text.isDigit first = true ∨ first = '-') := by
  cases value with
  | ofNat value =>
    obtain ⟨first, rest, written⟩ := List.exists_cons_of_ne_nil (@Nat.toDigits_ne_nil value 10)
    have decimal := (Text.numeral_toDigits value).1
    rw [written] at decimal
    exact ⟨first, rest, (toList_ofNat value).trans written,
      Or.inl (List.all_eq_true.1 decimal first List.mem_cons_self)⟩
  | negSucc value => exact ⟨'-', _, toList_negSucc value, Or.inr rfl⟩

/-- **An integer of 64 bits is read back**, signed or not. -/
theorem readNumber_toString {value : Int} (low : -(signedLimit : Int) ≤ value)
    (high : value < unsignedLimit) {rest : List Char} (ends : EndsNumber rest) :
    readNumber true ((toString value).toList ++ rest) = some (.integer value, rest) := by
  cases value with
  | ofNat value =>
    have fits : value < unsignedLimit := Int.ofNat_lt.1 high
    have integral : (NumberParts.integer false value).value = .integer value := by
      simp only [NumberParts.value, NumberParts.integer, (Text.numeral_toDigits value).2,
        if_pos fits]
    rw [toList_ofNat]
    exact integral ▸ readNumber_integer false value ends fits
  | negSucc value =>
    have small : value + 1 ≤ signedLimit := by omega
    have fits : value + 1 < unsignedLimit := Nat.lt_of_le_of_lt small (by decide)
    have integral : (NumberParts.integer true (value + 1)).value = .integer (.negSucc value) := by
      simp only [NumberParts.value, NumberParts.integer, (Text.numeral_toDigits (value + 1)).2,
        if_pos (And.intro (Nat.succ_ne_zero value) small)]
      rfl
    rw [toList_negSucc]
    exact integral ▸ readNumber_integer true (value + 1) ends fits

end Json

end CellSyntax
