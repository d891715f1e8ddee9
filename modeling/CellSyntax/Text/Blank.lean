/-
**Blank characters.**

The characters of the Unicode property White_Space, with trimming and the test for a blank text.

* `isBlankChar_of_isWhitespace`: every white-space character of the basic class is blank;
* `trim_eq_nil_iff`: a text is blank exactly when trimming leaves nothing.
-/

namespace CellSyntax.Text

/-- Whether a character has the Unicode property White_Space. -/
def isBlankChar (char : Char) : Bool :=
  let code := char.toNat
  (9 ≤ code ∧ code ≤ 13) || code == 0x20 || code == 0x85 || code == 0xA0 || code == 0x1680 ||
    (0x2000 ≤ code ∧ code ≤ 0x200A) || code == 0x2028 || code == 0x2029 || code == 0x202F ||
    code == 0x205F || code == 0x3000

/-- A text without its blank characters at both ends. -/
def trim (text : List Char) : List Char :=
  ((text.dropWhile isBlankChar).reverse.dropWhile isBlankChar).reverse

/-- Whether a text has only blank characters. -/
def isBlank (text : String) : Bool := text.toList.all isBlankChar

theorem isBlankChar_of_isWhitespace {char : Char} (white : char.isWhitespace = true) :
    isBlankChar char = true := by
  simp only [Char.isWhitespace, Bool.or_eq_true, decide_eq_true_eq] at white
  rcases white with ((rfl | rfl) | rfl) | rfl <;> decide

theorem dropWhile_eq_nil_iff (keep : Char → Bool) (text : List Char) :
    text.dropWhile keep = [] ↔ text.all keep = true := by
  induction text with
  | nil => simp
  | cons char rest ih => by_cases holds : keep char <;> simp [holds, ih]

theorem trim_eq_nil_iff (text : String) : trim text.toList = [] ↔ isBlank text = true := by
  unfold trim isBlank
  rw [List.reverse_eq_nil_iff, dropWhile_eq_nil_iff, List.all_reverse]
  constructor
  · intro all
    rw [← dropWhile_eq_nil_iff]
    cases rest : text.toList.dropWhile isBlankChar with
    | nil => rfl
    | cons char later =>
      have blank : isBlankChar char = true := by simp [rest] at all; exact all.1
      have start := List.head?_dropWhile_not isBlankChar text.toList
      rw [rest] at start
      simp [blank] at start
  · intro all
    rw [(dropWhile_eq_nil_iff isBlankChar text.toList).2 all]
    rfl

end CellSyntax.Text
