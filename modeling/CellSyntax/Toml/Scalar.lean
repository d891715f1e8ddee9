/-
**Scalars of a TOML document.**

Strings in their four forms, numbers, truth values and dates.

* `skipSpaces_length_le`: skipping spaces never lengthens the text.
-/

import CellSyntax.Json.Reader

namespace CellSyntax

namespace Toml

/-- Whether a character is a space inside a line. -/
def isSpace (char : Char) : Bool := char == ' ' || char == '\t'

/-- Whether a character is a control character that may not stand in a line. -/
def isControl (char : Char) : Bool :=
  (char.toNat < 0x20 && char != '\t') || char == '\x7f'

/-- The text from the first character on that is not a space. -/
def skipSpaces (text : List Char) : List Char := text.dropWhile isSpace

theorem skipSpaces_length_le (text : List Char) : (skipSpaces text).length ≤ text.length := by
  unfold skipSpaces
  induction text with
  | nil => simp
  | cons char rest ih =>
    rw [List.dropWhile_cons]
    split
    · exact Nat.le_succ_of_le ih
    · exact Nat.le_refl _

/-! ### Strings -/

/-- The character of a one-letter escape. -/
def simpleEscape? : Char → Option Char
  | 'b' => some '\x08'
  | 't' => some '\t'
  | 'n' => some '\n'
  | 'f' => some '\x0c'
  | 'r' => some '\r'
  | 'e' => some '\x1b'
  | '"' => some '"'
  | '\\' => some '\\'
  | _ => none

/-- The character whose code point hexadecimal digits give. -/
def scalarOf? (digits : List Char) : Option Char :=
  let code := Text.numeral 16 digits
  if digits.all Text.isHexDigit && (code < 0xD800 || (0xDFFF < code && code < 0x110000)) then
    some (Char.ofNat code)
  else none

/-- One more character in front of what a string reader gives. -/
def putFirst (char? : Option Char) (read : Option (List Char × List Char)) :
    Option (List Char × List Char) := do
  let (chars, rest) ← read
  return ((← char?) :: chars, rest)

/-- The characters of a basic string after its opening quote. -/
def readBasic : List Char → Option (List Char × List Char)
  | [] => none
  | '"' :: rest => some ([], rest)
  | '\\' :: 'u' :: a :: b :: c :: d :: rest => putFirst (scalarOf? [a, b, c, d]) (readBasic rest)
  | '\\' :: 'U' :: a :: b :: c :: d :: e :: f :: g :: h :: rest =>
    putFirst (scalarOf? [a, b, c, d, e, f, g, h]) (readBasic rest)
  | '\\' :: 'x' :: a :: b :: rest => putFirst (scalarOf? [a, b]) (readBasic rest)
  | '\\' :: letter :: rest => putFirst (simpleEscape? letter) (readBasic rest)
  | char :: rest =>
    if isControl char ∨ char = '\\' then none else putFirst (some char) (readBasic rest)

/-- The characters of a literal string after its opening quote. -/
def readLiteral : List Char → Option (List Char × List Char)
  | [] => none
  | '\'' :: rest => some ([], rest)
  | char :: rest => if isControl char then none else putFirst (some char) (readLiteral rest)

/-- The end of a string of several lines after three quotes: up to two more quotes belong to the
string. -/
def closeLines (quote : Char) (rest : List Char) : List Char × List Char :=
  let extra := ((rest.take 2).takeWhile (· == quote)).length
  (List.replicate extra quote, rest.drop extra)

/-- Whether a text has a line break before anything that is not a space. -/
def startsWithBreak (text : List Char) : Bool :=
  match skipSpaces text with
  | '\n' :: _ => true
  | '\r' :: '\n' :: _ => true
  | _ => false

/-- Whether a character may stand in a string of several lines before `rest`. -/
def fitsLines (char : Char) (rest : List Char) : Bool :=
  char == '\n' || (char == '\r' && rest.head? == some '\n') || !isControl char

/-- The characters of a basic string of several lines. While `trimming`, after a backslash at the
end of a line, spaces and line breaks are left out. -/
def readBasicLines (trimming : Bool) : List Char → Option (List Char × List Char)
  | [] => none
  | '"' :: '"' :: '"' :: rest => some (closeLines '"' rest)
  | '\\' :: 'u' :: a :: b :: c :: d :: rest =>
    putFirst (scalarOf? [a, b, c, d]) (readBasicLines false rest)
  | '\\' :: 'U' :: a :: b :: c :: d :: e :: f :: g :: h :: rest =>
    putFirst (scalarOf? [a, b, c, d, e, f, g, h]) (readBasicLines false rest)
  | '\\' :: 'x' :: a :: b :: rest => putFirst (scalarOf? [a, b]) (readBasicLines false rest)
  | '\\' :: letter :: rest =>
    if startsWithBreak (letter :: rest) then readBasicLines true rest
    else putFirst (simpleEscape? letter) (readBasicLines false rest)
  | char :: rest =>
    if char = '\\' ∨ fitsLines char rest = false then none
    else if trimming ∧ (isSpace char = true ∨ char = '\n' ∨ char = '\r') then
      readBasicLines true rest
    else putFirst (some char) (readBasicLines false rest)

/-- The characters of a literal string of several lines. -/
def readLiteralLines : List Char → Option (List Char × List Char)
  | [] => none
  | '\'' :: '\'' :: '\'' :: rest => some (closeLines '\'' rest)
  | char :: rest =>
    if fitsLines char rest then putFirst (some char) (readLiteralLines rest) else none

/-- The text without a line break at its start. -/
def dropBreak : List Char → List Char
  | '\n' :: rest => rest
  | '\r' :: '\n' :: rest => rest
  | text => text

/-- A string in one of its four forms, with what follows. -/
def readString? : List Char → Option (Option (String × List Char))
  | '"' :: '"' :: '"' :: rest => some (found (readBasicLines false (dropBreak rest)))
  | '\'' :: '\'' :: '\'' :: rest => some (found (readLiteralLines (dropBreak rest)))
  | '"' :: rest => some (found (readBasic rest))
  | '\'' :: rest => some (found (readLiteral rest))
  | _ => none
where
  /-- The string of its characters. -/
  found (read : Option (List Char × List Char)) : Option (String × List Char) :=
    read.map fun (chars, rest) => (String.ofList chars, rest)

/-! ### Numbers -/

/-- Digits without the underscores between two of them; none if an underscore is elsewhere or
there is no digit. -/
def plainDigits? (isDigit : Char → Bool) : List Char → Option (List Char)
  | [] => none
  | [digit] => if isDigit digit then some [digit] else none
  | digit :: '_' :: rest =>
    if isDigit digit then (plainDigits? isDigit rest).map (digit :: ·) else none
  | digit :: rest => if isDigit digit then (plainDigits? isDigit rest).map (digit :: ·) else none

/-- Decimal digits without a leading zero, unless there is just that digit. -/
def plainDecimal? (text : List Char) : Option (List Char) :=
  match plainDigits? Text.isDigit text with
  | some ('0' :: _ :: _) => none
  | digits => digits

/-- The number of hexadecimal, octal or binary digits after their mark. -/
def radixNumber? : List Char → Option Nat
  | '0' :: 'x' :: rest => (plainDigits? Text.isHexDigit rest).map (Text.numeral 16)
  | '0' :: 'o' :: rest => (plainDigits? (fun char => '0' ≤ char && char ≤ '7') rest).map
      (Text.numeral 8)
  | '0' :: 'b' :: rest => (plainDigits? (fun char => char == '0' || char == '1') rest).map
      (Text.numeral 2)
  | _ => none

/-- A sign and what follows it; true if it is negative. -/
def splitSign : List Char → Bool × List Char
  | '-' :: rest => (true, rest)
  | '+' :: rest => (false, rest)
  | text => (false, text)

/-- An integer of 64 bits. -/
def integer? (text : List Char) : Option Json :=
  match radixNumber? text with
  | some size => if size < Json.signedLimit then some (.integer size) else none
  | none =>
    let (negative, digits) := splitSign text
    match plainDecimal? digits with
    | none => none
    | some digits =>
      let size := Text.numeral 10 digits
      if negative then if size ≤ Json.signedLimit then some (.integer (-size)) else none
      else if size < Json.signedLimit then some (.integer size) else none

/-- Whether a character starts the exponent of a number. -/
def isExponentMark (char : Char) : Bool := char == 'e' || char == 'E'

/-- A number with a fraction or an exponent that fits into a double, or one of the special
values. -/
def float? (text : List Char) : Option Json :=
  let (negative, rest) := splitSign text
  if rest = ['i', 'n', 'f'] ∨ rest = ['n', 'a', 'n'] then some (.real (String.ofList text))
  else do
    let endsWhole (char : Char) : Bool := char == '.' || isExponentMark char
    let whole ← plainDecimal? (rest.takeWhile (!endsWhole ·))
    let rest := rest.dropWhile (!endsWhole ·)
    let (fraction, rest) ←
      match rest with
      | '.' :: rest => do
        let digits ← plainDigits? Text.isDigit (rest.takeWhile (!isExponentMark ·))
        some (some digits, rest.dropWhile (!isExponentMark ·))
      | _ => some (none, rest)
    let exponent ←
      match rest with
      | _ :: rest => do
        let (negative, digits) := splitSign rest
        some (some (negative, ← plainDigits? Text.isDigit digits))
      | [] => some none
    let parts : Json.NumberParts := ⟨negative, whole, fraction, exponent⟩
    if (fraction.isNone && exponent.isNone) || parts.isInfinite then none
    else some (.real parts.literal)

/-! ### Dates -/

/-- The number of exactly `count` digits at the front of a text. -/
def readFixed (count : Nat) (text : List Char) : Option (Nat × List Char) :=
  let digits := text.take count
  if digits.length = count ∧ digits.all Text.isDigit = true then
    some (Text.numeral 10 digits, text.drop count)
  else none

/-- The text after a character. -/
def expect (wanted : Char) : List Char → Option (List Char)
  | char :: rest => if char = wanted then some rest else none
  | [] => none

/-- The number of days of a month. -/
def monthLength (year month : Nat) : Nat :=
  if month = 2 then if year % 4 = 0 ∧ (year % 100 ≠ 0 ∨ year % 400 = 0) then 29 else 28
  else if month = 4 ∨ month = 6 ∨ month = 9 ∨ month = 11 then 30
  else 31

/-- The text after a date. -/
def skipDate (text : List Char) : Option (List Char) := do
  let (year, rest) ← readFixed 4 text
  let (month, rest) ← readFixed 2 (← expect '-' rest)
  let (day, rest) ← readFixed 2 (← expect '-' rest)
  if 1 ≤ month ∧ month ≤ 12 ∧ 1 ≤ day ∧ day ≤ monthLength year month then some rest else none

/-- The text after the seconds of a time and their fraction; both may be missing. -/
def skipSeconds (text : List Char) : Option (List Char) :=
  match text with
  | ':' :: rest => do
    let (second, rest) ← readFixed 2 rest
    if 60 < second then none
    else
      match rest with
      | '.' :: rest =>
        if (rest.takeWhile Text.isDigit).isEmpty then none else some (rest.dropWhile Text.isDigit)
      | _ => some rest
  | _ => some text

/-- The text after hours and minutes. -/
def skipMinutes (text : List Char) : Option (List Char) := do
  let (hour, rest) ← readFixed 2 text
  let (minute, rest) ← readFixed 2 (← expect ':' rest)
  if hour ≤ 23 ∧ minute ≤ 59 then some rest else none

/-- The text after a time of day. -/
def skipTime (text : List Char) : Option (List Char) := do skipSeconds (← skipMinutes text)

/-- The text after a time zone, if there is one. -/
def skipOffset (text : List Char) : Option (List Char) :=
  match text with
  | 'Z' :: rest => some rest
  | 'z' :: rest => some rest
  | '+' :: rest => skipMinutes rest
  | '-' :: rest => skipMinutes rest
  | _ => some text

/-- Whether a text is a date, a time, or both. -/
def isMoment (text : List Char) : Bool :=
  match skipDate text with
  | some [] => true
  | some (separator :: rest) =>
    (separator == 'T' || separator == 't' || separator == ' ') &&
      (skipTime rest).bind skipOffset == some []
  | none => skipTime text == some []

/-! ### All scalars but strings -/

/-- Whether a character may be part of a number, a truth value or a date. -/
def isScalarChar (char : Char) : Bool :=
  char.isAlphanum || char == '_' || char == '+' || char == '-' || char == '.' || char == ':'

/-- The value of a number, a truth value or a date; a date has no members that a field could
take. -/
def scalar? (text : List Char) : Option Json :=
  if text = ['t', 'r', 'u', 'e'] then some (.bool true)
  else if text = ['f', 'a', 'l', 's', 'e'] then some (.bool false)
  else if isMoment text then some (.object [])
  else (integer? text).or (float? text)

/-- A scalar that is no string, with what follows. A date and a time may have a space between
them. -/
def readScalar (text : List Char) : Option (Json × List Char) :=
  let word := text.takeWhile isScalarChar
  let rest := text.dropWhile isScalarChar
  match skipDate word, rest with
  | some [], ' ' :: later =>
    let time := later.takeWhile isScalarChar
    if (time.head?.map Text.isDigit).getD false then
      (scalar? (word ++ ' ' :: time)).map fun value => (value, later.dropWhile isScalarChar)
    else (scalar? word).map fun value => (value, rest)
  | _, _ => (scalar? word).map fun value => (value, rest)

end Toml

end CellSyntax
