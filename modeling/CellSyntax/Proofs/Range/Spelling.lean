/-
**Which texts are ranges.**

The grammar of written ranges, apart from how they are read: a number is decimal digits, perhaps
with a plus sign in front and white space around; a position is two numbers with a colon between
them; a range is two positions with a hyphen between them, or one position. The separators are the
first ones in the text. Reading accepts exactly the texts of the grammar and yields what they spell,
and among them is the written form of every range of 64-bit coordinates.

* `Text.trim_eq_iff`: what is left of a text without the blanks at its ends;
* `Text.readNatural?_trim_eq_some_iff`: which texts are numbers;
* `Text.cut?_eq_some_iff`, `Text.cut?_eq_none_iff`: where a text is cut;
* `Position.read_eq_ok_iff`, `Range.read_eq_ok_iff`: which texts are positions and ranges;
* `Range.read_spellings`: that is all that is read, and the written form is read back.
-/

import CellSyntax.Proofs.Edit.LineShift
import CellSyntax.Range.Reading
import Mathlib.Data.List.Induction
import Mathlib.Data.Nat.Digits.Defs

namespace CellSyntax

/-! ### The grammar -/

namespace Text

/-- The number of decimal digits, the most significant of them first. -/
def decimalValue (digits : List Char) : Nat :=
  Nat.ofDigits 10 (digits.reverse.map fun digit => digit.toNat - '0'.toNat)

/-- **A text spells a number**: decimal digits, at least one, that fit into 64 bits. There may be a
plus sign in front of them and white space around. -/
inductive SpellsNumber : List Char → Nat → Prop
  | intro {before sign digits after : List Char} (blankBefore : ∀ char ∈ before, isBlankChar char)
      (signed : sign = [] ∨ sign = ['+']) (some : digits ≠ [])
      (decimal : ∀ digit ∈ digits, '0' ≤ digit ∧ digit ≤ '9')
      (blankAfter : ∀ char ∈ after, isBlankChar char) (fits : decimalValue digits < 2 ^ 64) :
      SpellsNumber (before ++ (sign ++ digits) ++ after) (decimalValue digits)

/-- **A text spells a position**: a line and a column with the first colon between them. -/
inductive SpellsPosition : List Char → Position → Prop
  | intro {line column : List Char} {position : Position} (first : ':' ∉ line)
      (isLine : SpellsNumber line position.line) (isColumn : SpellsNumber column position.column) :
      SpellsPosition (line ++ ':' :: column) position

/-- **A text spells a range**: a position, or two of them in either order with the first hyphen
between them. -/
inductive SpellsRange : List Char → Range → Prop
  | point {text : List Char} {position : Position} (single : '-' ∉ text)
      (isPosition : SpellsPosition text position) : SpellsRange text (.point position)
  | ends {first second : List Char} {start stop : Position} (cut : '-' ∉ first)
      (isFirst : SpellsPosition first start) (isSecond : SpellsPosition second stop) :
      SpellsRange (first ++ '-' :: second) (.ofEnds start stop)

/-! ### Blanks at the ends -/

theorem trim_of_blank {before core after : List Char}
    (blankBefore : ∀ char ∈ before, isBlankChar char)
    (solid : ∀ char ∈ core, isBlankChar char = false)
    (blankAfter : ∀ char ∈ after, isBlankChar char) (some : core ≠ []) :
    trim (before ++ core ++ after) = core := by
  have stopsAt {text : List Char} (rest : List Char) (some : text ≠ [])
      (solid : ∀ char ∈ text, isBlankChar char = false) :
      (text ++ rest).dropWhile isBlankChar = text ++ rest := by
    obtain ⟨char, others, rfl⟩ := List.exists_cons_of_ne_nil some
    rw [List.cons_append, List.dropWhile_cons_of_neg]
    simp [solid char List.mem_cons_self]
  have reversed : core.reverse ≠ [] := by rwa [Ne, List.reverse_eq_nil_iff]
  have solidReversed : ∀ char ∈ core.reverse, isBlankChar char = false := fun char member =>
    solid char (List.mem_reverse.1 member)
  rw [trim, List.append_assoc, List.dropWhile_append_of_pos blankBefore, stopsAt after some solid,
    List.reverse_append,
    List.dropWhile_append_of_pos fun char member => blankAfter char (List.mem_reverse.1 member)]
  have kept := stopsAt [] reversed solidReversed
  rw [List.append_nil] at kept
  rw [kept, List.reverse_reverse]

/-- Trimming takes blanks off both ends. -/
theorem exists_trim (text : List Char) : ∃ before after, text = before ++ trim text ++ after ∧
    (∀ char ∈ before, isBlankChar char) ∧ ∀ char ∈ after, isBlankChar char := by
  have front := List.takeWhile_append_dropWhile (p := isBlankChar) (l := text)
  have back := List.takeWhile_append_dropWhile (p := isBlankChar)
    (l := (text.dropWhile isBlankChar).reverse)
  refine ⟨text.takeWhile isBlankChar,
    ((text.dropWhile isBlankChar).reverse.takeWhile isBlankChar).reverse, ?_, ?_, ?_⟩
  · rw [trim, List.append_assoc, ← List.reverse_append, back, List.reverse_reverse, front]
  · exact List.all_eq_true.1 List.all_takeWhile
  · exact fun char member => List.all_eq_true.1 List.all_takeWhile char (List.mem_reverse.1 member)

/-! ### Numbers -/

theorem isDigit_iff {char : Char} : isDigit char = true ↔ '0' ≤ char ∧ char ≤ '9' := by
  rw [isDigit, decide_eq_true_eq]

/-- Reading digits from the left gives the number that they have as digits of a base. -/
theorem numeral_eq_decimalValue {digits : List Char} (decimal : digits.all isDigit = true) :
    numeral 10 digits = decimalValue digits := by
  induction digits using List.reverseRecOn with
  | nil => rfl
  | append_singleton digits digit ih =>
    rw [List.all_append, Bool.and_eq_true] at decimal
    have value : digitValue digit = digit.toNat - '0'.toNat := by
      rw [digitValue, if_pos (by simpa using decimal.2)]
    rw [numeral_snoc, ih decimal.1, value, decimalValue, decimalValue, List.reverse_append,
      List.reverse_singleton, List.singleton_append, List.map_cons, Nat.ofDigits_cons]
    omega

/-- Digits are not blank, and neither is a plus sign. -/
theorem isBlankChar_eq_false {char : Char} (solid : isDigit char = true ∨ char = '+') :
    isBlankChar char = false := by
  rcases solid with decimal | rfl
  · have low : 48 ≤ char.toNat := (isDigit_iff.1 decimal).1
    have high : char.toNat ≤ 57 := (isDigit_iff.1 decimal).2
    simp [isBlankChar]
    omega
  · decide

theorem exists_sign (text : List Char) :
    ∃ sign, text = sign ++ withoutPlus text ∧ (sign = [] ∨ sign = ['+']) := by
  unfold withoutPlus
  split
  · exact ⟨['+'], rfl, Or.inr rfl⟩
  · exact ⟨[], rfl, Or.inl rfl⟩

theorem withoutPlus_sign {sign digits : List Char} (signed : sign = [] ∨ sign = ['+'])
    (decimal : digits.all isDigit = true) : withoutPlus (sign ++ digits) = digits := by
  rcases signed with rfl | rfl
  · unfold withoutPlus
    split
    · rename_i rest plus
      rw [List.nil_append] at plus
      rw [plus] at decimal
      cases decimal
    · rfl
  · rfl

/-- **A trimmed text is read as the number that it spells**, and as nothing else. -/
theorem readNatural?_trim_eq_some_iff {text : List Char} {value : Nat} :
    readNatural? (trim text) = some value ↔ SpellsNumber text value := by
  constructor
  · intro read
    obtain ⟨before, after, parts, blankBefore, blankAfter⟩ := exists_trim text
    obtain ⟨sign, signFront, signed⟩ := exists_sign (trim text)
    simp only [readNatural?] at read
    split at read
    · rename_i accepted
      obtain ⟨some, decimal, fits⟩ := accepted
      cases read
      rw [numeral_eq_decimalValue decimal] at fits ⊢
      have spells := SpellsNumber.intro blankBefore signed some
        (fun digit member => isDigit_iff.1 (List.all_eq_true.1 decimal digit member)) blankAfter
        (Nat.lt_succ_of_le fits)
      rwa [← signFront, ← parts] at spells
    · cases read
  · rintro ⟨blankBefore, signed, some, decimal, blankAfter, fits⟩
    rename_i before sign digits after
    have digital : digits.all isDigit = true :=
      List.all_eq_true.2 fun digit member => isDigit_iff.2 (decimal digit member)
    have solid : ∀ char ∈ sign ++ digits, isBlankChar char = false := by
      intro char member
      refine isBlankChar_eq_false ?_
      rcases List.mem_append.1 member with inSign | inDigits
      · rcases signed with rfl | rfl
        · cases inSign
        · exact Or.inr (List.mem_singleton.1 inSign)
      · exact Or.inl (isDigit_iff.2 (decimal char inDigits))
    rw [trim_of_blank blankBefore solid blankAfter (List.append_ne_nil_of_right_ne_nil sign some),
      readNatural?, withoutPlus_sign signed digital, numeral_eq_decimalValue digital]
    exact if_pos ⟨some, digital, Nat.le_of_lt_succ fits⟩

/-! ### Separators -/

theorem cut?_eq_none_iff {separator : Char} {text : List Char} :
    cut? separator text = none ↔ separator ∉ text := by
  induction text with
  | nil => simp [cut?]
  | cons char rest ih =>
    rw [cut?, List.mem_cons]
    split
    · rename_i same
      simp [same]
    · rename_i other
      rw [Option.map_eq_none_iff, ih]
      simp [Ne.symm other]

/-- **A text is cut at the first separator.** -/
theorem cut?_eq_some_iff {separator : Char} {text before after : List Char} :
    cut? separator text = some (before, after) ↔
      text = before ++ separator :: after ∧ separator ∉ before := by
  constructor
  · intro found
    induction text generalizing before with
    | nil => cases found
    | cons char rest ih =>
      rw [cut?] at found
      split at found
      · rename_i same
        cases found
        exact ⟨same ▸ rfl, List.not_mem_nil⟩
      · rename_i other
        obtain ⟨⟨front, back⟩, inRest, same⟩ := Option.map_eq_some_iff.1 found
        cases same
        obtain ⟨parts, absent⟩ := ih inRest
        exact ⟨congrArg (char :: ·) parts,
          List.not_mem_cons_of_ne_of_not_mem (Ne.symm other) absent⟩
  · rintro ⟨rfl, absent⟩
    exact cut_append absent after

end Text

/-! ### Positions and ranges -/

open Text

/-- **Exactly the texts that spell a position are read**, and as that position. -/
theorem Position.read_eq_ok_iff {text : List Char} {position : Position} :
    Position.read text = .ok position ↔ SpellsPosition text position := by
  constructor
  · intro done
    unfold Position.read at done
    split at done
    · cases done
    · rename_i line column found
      obtain ⟨rfl, first⟩ := cut?_eq_some_iff.1 found
      split at done
      · cases done
      · cases done
      · rename_i isLine isColumn
        cases done
        exact .intro first (readNatural?_trim_eq_some_iff.1 isLine)
          (readNatural?_trim_eq_some_iff.1 isColumn)
  · rintro ⟨first, isLine, isColumn⟩
    rw [Position.read, cut_append first]
    simp only
    rw [readNatural?_trim_eq_some_iff.2 isLine, readNatural?_trim_eq_some_iff.2 isColumn]

/-- **Exactly the texts that spell a range are read**, and as that range. -/
theorem Range.read_eq_ok_iff {text : String} {range : Range} :
    Range.read text = .ok range ↔ SpellsRange text.toList range := by
  constructor
  · intro done
    unfold Range.read at done
    split at done
    · rename_i single
      cases position : Position.read text.toList with
      | error fault =>
        rw [position] at done
        cases done
      | ok position' =>
        rw [position] at done
        cases done
        exact .point (cut?_eq_none_iff.1 single) (Position.read_eq_ok_iff.1 position)
    · rename_i first second found
      obtain ⟨parts, cut⟩ := cut?_eq_some_iff.1 found
      rw [parts]
      cases start : Position.read first with
      | error fault =>
        rw [start] at done
        cases done
      | ok start' =>
        cases stop : Position.read second with
        | error fault =>
          rw [start, stop] at done
          cases done
        | ok stop' =>
          rw [start, stop] at done
          cases done
          exact .ends cut (Position.read_eq_ok_iff.1 start) (Position.read_eq_ok_iff.1 stop)
  · intro spells
    unfold Range.read
    generalize text.toList = chars at *
    cases spells with
    | point single isPosition =>
      rw [cut?_eq_none_iff.2 single]
      simp only
      rw [Position.read_eq_ok_iff.2 isPosition]
      rfl
    | ends cut isFirst isSecond =>
      rw [cut_append cut]
      simp only
      rw [Position.read_eq_ok_iff.2 isFirst, Position.read_eq_ok_iff.2 isSecond]
      rfl

/-! ### Written forms -/

namespace Text

theorem toList_toString (value : Nat) : (toString value).toList = Nat.toDigits 10 value :=
  String.toList_ofList

theorem not_mem_toDigits {char : Char} (other : isDigit char = false) (value : Nat) :
    char ∉ Nat.toDigits 10 value := by
  intro member
  have digit := List.all_eq_true.1 (numeral_toDigits value).1 char member
  rw [other] at digit
  cases digit

theorem spellsNumber_toDigits {value : Nat} (fits : value ≤ maxCoordinate) :
    SpellsNumber (Nat.toDigits 10 value) value := by
  obtain ⟨digital, number⟩ := numeral_toDigits value
  rw [numeral_eq_decimalValue digital] at number
  have below : decimalValue (Nat.toDigits 10 value) < 2 ^ 64 := by
    rw [number]
    exact Nat.lt_succ_of_le fits
  have spells := @SpellsNumber.intro [] [] _ [] nofun (Or.inl rfl) Nat.toDigits_ne_nil
    (fun digit member => isDigit_iff.1 (List.all_eq_true.1 digital digit member)) nofun below
  rwa [List.nil_append, List.nil_append, List.append_nil, number] at spells

theorem toList_render (position : Position) : position.render.toList =
    Nat.toDigits 10 position.line ++ ':' :: Nat.toDigits 10 position.column := by
  rw [Position.render, String.toList_append, String.toList_append, toList_toString, toList_toString,
    List.append_assoc]
  rfl

theorem spellsPosition_render {position : Position} (within : position.Within maxCoordinate) :
    SpellsPosition position.render.toList position := by
  rw [toList_render]
  exact .intro (not_mem_toDigits rfl _) (spellsNumber_toDigits within.line)
    (spellsNumber_toDigits within.column)

/-- **The written form of a range spells it**, with its ends put in order. -/
theorem spellsRange_render {range : Range} (within : range.Within maxCoordinate) :
    SpellsRange range.render.toList (.ofEnds range.start range.stop) := by
  have cut : '-' ∉ range.start.render.toList := by
    rw [toList_render]
    intro member
    rcases List.mem_append.1 member with inLine | later
    · exact not_mem_toDigits rfl _ inLine
    · rcases List.mem_cons.1 later with colon | inColumn
      · cases colon
      · exact not_mem_toDigits rfl _ inColumn
  rw [Range.render, String.toList_append, String.toList_append, List.append_assoc]
  exact .ends cut (spellsPosition_render within.start) (spellsPosition_render within.stop)

end Text

/-- **Reading ranges**: exactly the texts of the grammar are read, as the ranges that they spell,
and the written form of an ordered range is read back. -/
theorem Range.read_spellings :
    (∀ text range, Range.read text = .ok range ↔ SpellsRange text.toList range) ∧
      ∀ range : Range, range.Ordered → range.Within maxCoordinate →
        Range.read range.render = .ok range := by
  refine ⟨fun text range => Range.read_eq_ok_iff, fun range ordered within => ?_⟩
  have spells := spellsRange_render within
  rw [Range.ofEnds_of_le ordered] at spells
  exact Range.read_eq_ok_iff.2 spells

/-- A range up to the last line there can be, and a text with its ends the other way round. -/
theorem Range.read_spellings_lastLine :
    (⟨⟨1, 4⟩, ⟨18446744073709551615, 0⟩⟩ : Range).Ordered ∧
      (⟨⟨1, 4⟩, ⟨18446744073709551615, 0⟩⟩ : Range).Within maxCoordinate ∧
      Range.read "1:4-18446744073709551615:0" = .ok ⟨⟨1, 4⟩, ⟨18446744073709551615, 0⟩⟩ ∧
      SpellsRange " +07 :\t2-0: 3".toList ⟨⟨0, 3⟩, ⟨7, 2⟩⟩ := by
  have ordered : (⟨⟨1, 4⟩, ⟨18446744073709551615, 0⟩⟩ : Range).Ordered := by decide
  have within : (⟨⟨1, 4⟩, ⟨18446744073709551615, 0⟩⟩ : Range).Within maxCoordinate := by decide
  have written : (⟨⟨1, 4⟩, ⟨18446744073709551615, 0⟩⟩ : Range).render =
      "1:4-18446744073709551615:0" := by decide +kernel
  refine ⟨ordered, within, ?_, (Range.read_spellings.1 _ _).1 rfl⟩
  rw [← written]
  exact Range.read_spellings.2 _ ordered within

end CellSyntax
