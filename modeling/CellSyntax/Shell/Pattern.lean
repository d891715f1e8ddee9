/-
**Patterns of the shell.**

In a pattern an asterisk stands for any text, a question mark for any byte, and brackets for one of
a set of bytes, unless they are quoted.

* `Pattern.resolve_literal`: nothing is quoted twice by itself;
* `Pattern.accepts_literal`: a pattern without such characters matches itself;
* `Pattern.accepts_star`: an asterisk matches every text.
-/

import CellSyntax.Shell.Bytes

namespace CellSyntax.Shell

/-- A character of a pattern. -/
structure Glyph where
  char : Char
  /-- It stands for itself. -/
  quoted : Bool
deriving DecidableEq, Repr

/-- Characters with and without a meaning of their own. -/
abbrev Pattern := List Glyph

namespace Pattern

/-- The pattern that only matches a text. -/
def literal (text : List Char) : Pattern := text.map fun char => ⟨char, true⟩

/-- The characters of a pattern. -/
def text (pattern : Pattern) : List Char := pattern.map Glyph.char

/-- The characters that have a meaning in patterns and names. -/
def isSpecial (char : Char) : Bool := "!*?[=~:/-]\\".toList.contains char

/-- The pattern without its bare backslashes, each of which quotes what follows; two quotes of a
special character cancel out. -/
def resolve : Pattern → Pattern
  | [] => []
  | ⟨'\\', false⟩ :: next :: rest =>
    if next.quoted && isSpecial next.char then
      ⟨'\\', true⟩ :: ⟨next.char, false⟩ :: resolve rest
    else ⟨next.char, true⟩ :: resolve rest
  | glyph :: rest => glyph :: resolve rest

theorem resolve_literal (text : List Char) : resolve (literal text) = literal text := by
  induction text with
  | nil => rfl
  | cons char rest ih =>
    show resolve (⟨char, true⟩ :: literal rest) = ⟨char, true⟩ :: literal rest
    rw [resolve]
    · rw [ih]
    · simp

/-- Whether a pattern can match other texts than its own. -/
def isMagic (pattern : Pattern) : Bool :=
  pattern.any fun glyph => !glyph.quoted && "*?[".toList.contains glyph.char

/-! ### Sets of characters -/

/-- Whether a character belongs to a named class. -/
def isOfClass (name : String) (char : Char) : Bool :=
  match name with
  | "alnum" => char.isAlphanum
  | "alpha" => char.isAlpha
  | "blank" => char == ' ' || char == '\t'
  | "cntrl" => char.toNat < 0x20 || char.toNat == 0x7F
  | "digit" => Text.isDigit char
  | "graph" => 0x20 < char.toNat && char.toNat < 0x7F
  | "lower" => char.isLower
  | "print" => 0x20 ≤ char.toNat && char.toNat < 0x7F
  | "punct" => 0x20 < char.toNat && char.toNat < 0x7F && !char.isAlphanum
  | "space" => char == ' ' || (9 ≤ char.toNat && char.toNat ≤ 13)
  | "upper" => char.isUpper
  | "xdigit" => Text.isHexDigit char
  | _ => false

/-- An item of a set of characters. -/
inductive SetItem where
  | range (first last : Char)
  | named (name : String)
deriving DecidableEq, Repr

/-- Whether a character belongs to an item. -/
def SetItem.has (char : Char) : SetItem → Bool
  | range first last => first ≤ char && char ≤ last
  | named name => isOfClass name char

/-- The name of a class and what follows, behind its opening bracket and colon. -/
def className? (pattern : Pattern) : Option (String × Pattern) :=
  let name := pattern.takeWhile fun glyph => glyph.char.isAlpha
  match pattern.drop name.length with
  | ⟨':', _⟩ :: ⟨']', _⟩ :: rest => some (String.ofList (text name), rest)
  | _ => none

/-- The items of a set up to its closing bracket, and what follows; a bracket in the first place
closes nothing. -/
def setItems (isFirst : Bool) : (steps : Nat) → Pattern → Option (List SetItem × Pattern)
  | 0, _ => none
  | _, [] => none
  | steps + 1, glyph :: rest =>
    if glyph = ⟨']', false⟩ ∧ isFirst = false then some ([], rest)
    else
      let named :=
        match glyph, rest with
        | ⟨'[', false⟩, ⟨':', false⟩ :: rest => className? rest
        | _, _ => none
      match named with
      | some (name, rest) =>
        (setItems false steps rest).map fun (items, rest) => (.named name :: items, rest)
      | none =>
        match rest with
        | ⟨'-', false⟩ :: last :: rest =>
          if last = ⟨']', false⟩ then
            (setItems false steps (⟨'-', false⟩ :: last :: rest)).map fun (items, rest) =>
              (.range glyph.char glyph.char :: items, rest)
          else
            (setItems false steps rest).map fun (items, rest) =>
              (.range glyph.char last.char :: items, rest)
        | rest =>
          (setItems false steps rest).map fun (items, rest) =>
            (.range glyph.char glyph.char :: items, rest)

/-- A set behind its opening bracket: whether it is taken the other way round, its items, and what
follows. -/
def set? (pattern : Pattern) : Option (Bool × List SetItem × Pattern) :=
  match pattern with
  | ⟨'!', false⟩ :: rest =>
    (setItems true (rest.length + 1) rest).map fun (items, rest) => (true, items, rest)
  | rest => (setItems true (rest.length + 1) rest).map fun (items, rest) => (false, items, rest)

/-! ### Matching -/

/-- Something that a text is matched with one after the other. -/
inductive Part where
  | one (char : Char)
  | any
  | oneOf (inverted : Bool) (items : List SetItem)
  | star
deriving DecidableEq, Repr

/-- The parts of a pattern. -/
def parts : (steps : Nat) → Pattern → List Part
  | 0, _ => []
  | _, [] => []
  | steps + 1, glyph :: rest =>
    if glyph.quoted then .one glyph.char :: parts steps rest
    else
      match glyph.char with
      | '*' => .star :: parts steps rest
      | '?' => .any :: parts steps rest
      | '[' =>
        match set? rest with
        | some (inverted, items, rest) => .oneOf inverted items :: parts steps rest
        | none => .one '[' :: parts steps rest
      | char => .one char :: parts steps rest

/-- Whether a character is what a part stands for. -/
def Part.has (char : Char) : Part → Bool
  | one own => own == char
  | any => true
  | oneOf inverted items => (items.any (SetItem.has char)) != inverted
  | star => true

/-- Whether parts match a whole text. -/
def matchesParts : List Part → List Char → Bool
  | [], text => text.isEmpty
  | .star :: parts, [] => matchesParts parts []
  | .star :: parts, char :: rest =>
    matchesParts parts (char :: rest) || matchesParts (.star :: parts) rest
  | _ :: _, [] => false
  | part :: parts, char :: rest => part.has char && matchesParts parts rest
termination_by parts text => parts.length + text.length

/-- Whether a pattern matches a whole text. -/
def accepts (pattern : Pattern) (text : List Char) : Bool :=
  matchesParts (parts pattern.length (resolve pattern)) text

/-- What stands between texts of which a pattern can match only one at a time. -/
def gap : Char := Char.ofNat 0

/-- Whether a pattern matches a text up to the first gap. -/
def acceptsFirst (pattern : Pattern) (text : List Char) : Bool :=
  accepts pattern (text.takeWhile (· ≠ gap))

/-- A text without the shortest or the longest part at its front that a pattern matches. The
shortest one does not go over a gap. -/
def dropFront (pattern : Pattern) (longest : Bool) (text : List Char) : List Char :=
  let limit := if longest then text.length else (text.takeWhile (· ≠ gap)).length
  let sizes := List.range (limit + 1)
  let found := (if longest then sizes.reverse else sizes).find? fun size =>
    acceptsFirst pattern (text.take size)
  text.drop (found.getD 0)

/-- A text without the shortest or the longest part at its end that a pattern matches. The longest
one starts in front of the first gap. -/
def dropEnd (pattern : Pattern) (longest : Bool) (text : List Char) : List Char :=
  let limit := if longest then (text.takeWhile (· ≠ gap)).length else text.length
  let sizes := List.range (limit + 1)
  let found := (if longest then sizes else sizes.reverse).find? fun size =>
    acceptsFirst pattern (text.drop size)
  text.take (found.getD text.length)

theorem accepts_literal (text : List Char) : accepts (literal text) text = true := by
  unfold accepts
  rw [resolve_literal]
  have split : parts (literal text).length (literal text) = text.map Part.one := by
    induction text with
    | nil => rfl
    | cons char rest ih => simpa [literal, parts] using ih
  rw [split]
  induction text with
  | nil => rw [List.map_nil, matchesParts]; rfl
  | cons char rest ih =>
    have split : parts (literal rest).length (literal rest) = rest.map Part.one := by
      simpa [literal, parts] using split
    rw [List.map_cons, matchesParts]
    · simp [Part.has, ih split]
    · simp

theorem accepts_star (text : List Char) : accepts [⟨'*', false⟩] text = true := by
  show matchesParts [.star] text = true
  induction text with
  | nil => rw [matchesParts, matchesParts]; rfl
  | cons char rest ih => rw [matchesParts, ih, Bool.or_true]

end Pattern

end CellSyntax.Shell
