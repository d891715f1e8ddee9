/-
**Printing in shell scripts.**

The commands `echo` and `printf` write text with escapes: a letter or up to three octal digits
after a backslash. `printf` uses its format again as long as there are arguments, and goes on after
an argument that is no number.

* `unescape_plain`: a backslash before a character that makes no escape stands for itself.
-/

import CellSyntax.Shell.Number
import CellSyntax.Shell.Quantity

namespace CellSyntax.Shell

/-! ### Escapes -/

/-- The byte that a letter after a backslash stands for. -/
def letterEscape? : Char → Option Char
  | '\\' => some '\\'
  | 'a' => some '\x07'
  | 'b' => some '\x08'
  | 'e' => some '\x1b'
  | 'f' => some '\x0c'
  | 'n' => some '\n'
  | 'r' => some '\r'
  | 't' => some '\t'
  | 'v' => some '\x0b'
  | _ => none

/-- Whether a character is an octal digit. -/
def isOctalDigit (char : Char) : Bool := '0' ≤ char ∧ char ≤ '7'

/-- The octal digits at the front of a text, at most three. -/
def octalDigits (text : List Char) : List Char := (text.take 3).takeWhile isOctalDigit

/-- The byte with the number that octal digits make up. -/
def octalByte (digits : List Char) : Char := Char.ofNat (Text.numeral 8 digits % 256)

/-- The byte that the text after a backslash stands for, with the text left over. -/
def unescape (text : List Char) : Char × List Char :=
  match octalDigits text, text with
  | [], char :: rest =>
    match letterEscape? char with
    | some byte => (byte, rest)
    | none => ('\\', char :: rest)
  | [], [] => ('\\', [])
  | digits, text => (octalByte digits, text.drop digits.length)

theorem unescape_length_le (text : List Char) : (unescape text).2.length ≤ text.length := by
  unfold unescape
  split
  · split <;> simp
  · simp
  · simp

theorem unescape_plain {char : Char} {rest : List Char} (digit : isOctalDigit char = false)
    (letter : letterEscape? char = none) : unescape (char :: rest) = ('\\', char :: rest) := by
  simp [unescape, octalDigits, digit, letter]

/-- A text in which a zero may lead the digits of an escape and `\c` ends all printing: its bytes,
and whether printing goes on. -/
def unescapeAll (text : List Char) : List Char × Bool :=
  match text with
  | [] => ([], true)
  | '\\' :: 'c' :: _ => ([], false)
  | '\\' :: '0' :: rest =>
    let digits := octalDigits rest
    let (bytes, goesOn) := unescapeAll (rest.drop digits.length)
    (octalByte digits :: bytes, goesOn)
  | '\\' :: rest =>
    let (bytes, goesOn) := unescapeAll (unescape rest).2
    ((unescape rest).1 :: bytes, goesOn)
  | char :: rest =>
    let (bytes, goesOn) := unescapeAll rest
    (char :: bytes, goesOn)
termination_by text.length
decreasing_by
  all_goals
    have := unescape_length_le rest
    simp only [List.length_cons, List.length_drop]
    omega

/-- What `echo` writes: its arguments with a blank between two of them, and a line feed unless the
first argument is `-n`. -/
def echo (args : List (List Char)) : List Char :=
  let (args, ending) : List (List Char) × List Char :=
    match args with
    | ['-', 'n'] :: args => (args, [])
    | args => (args, ['\n'])
  let (bytes, goesOn) := unescapeAll ([' '].intercalate args)
  if goesOn then bytes ++ ending else bytes

/-! ### Directives -/

/-- How a value is laid out. -/
structure Layout where
  flags : List Char
  width : Nat
  /-- The digits or characters that are shown, if that is said. -/
  precision : Option Nat

namespace Layout

/-- Whether a flag is given. -/
def has (layout : Layout) (flag : Char) : Bool := layout.flags.contains flag

/-- The size from which on nothing can be laid out. -/
def limit : Nat := 0x7FFFFFFF

/-- Whether nothing can be laid out. -/
def isTooLarge (layout : Layout) : Bool :=
  limit ≤ layout.width || limit ≤ layout.precision.getD 0

/-- A text with spaces up to the width. -/
def pad (layout : Layout) (text : List Char) : List Char :=
  let padding := List.replicate (layout.width - text.length) ' '
  if layout.has '-' then text ++ padding else padding ++ text

/-- A text cut and padded. -/
def showText (layout : Layout) (text : List Char) : List Char :=
  layout.pad (text.take (layout.precision.getD text.length))

/-- The digits of a number behind a sign, with zeros up to the width if `fills` allows it. -/
def showDigits (layout : Layout) (fills : Bool) (sign digits : List Char) : List Char :=
  let zeros :=
    if fills && layout.has '0' && !layout.has '-' then
      layout.width - sign.length - digits.length
    else 0
  layout.pad (sign ++ List.replicate zeros '0' ++ digits)

/-- The sign that is shown in front of a number. -/
def sign (layout : Layout) (negative : Bool) : List Char :=
  if negative then ['-'] else if layout.has '+' then ['+'] else if layout.has ' ' then [' '] else []

/-- The digits of a whole number with zeros up to the precision. -/
def digits (layout : Layout) (base size : Nat) : List Char :=
  if size = 0 ∧ layout.precision = some 0 then []
  else
    let digits := Nat.toDigits base size
    List.replicate (layout.precision.getD 0 - digits.length) '0' ++ digits

/-- A whole number with its sign. -/
def showSigned (layout : Layout) (number : Int) : List Char :=
  layout.showDigits layout.precision.isNone (layout.sign (number < 0))
    (layout.digits 10 number.natAbs)

/-- A whole number without a sign: in octal for `o`, in hexadecimal for `x` or `X`. -/
def showUnsigned (layout : Layout) (letter : Char) (size : Nat) : List Char :=
  let fills := layout.precision.isNone
  match letter with
  | 'o' =>
    let digits := layout.digits 8 size
    let mark := layout.has '#' && digits.head? != some '0'
    layout.showDigits fills [] (if mark then '0' :: digits else digits)
  | 'x' =>
    layout.showDigits fills (if layout.has '#' && size != 0 then ['0', 'x'] else [])
      (layout.digits 16 size)
  | 'X' =>
    layout.showDigits fills (if layout.has '#' && size != 0 then ['0', 'X'] else [])
      ((layout.digits 16 size).map Char.toUpper)
  | _ => layout.showDigits fills [] (layout.digits 10 size)

/-- A number as a letter asks for it, without its sign. -/
def showNumber (layout : Layout) (letter : Char) (number : Decimal) : List Char :=
  let places := layout.precision.getD 6
  let sharp := layout.has '#'
  match letter with
  | 'f' => number.fixed places sharp
  | 'e' => number.scientific places sharp
  | 'a' => number.hexadecimal layout.precision sharp
  | _ => number.general places sharp

/-- A quantity as a letter asks for it. -/
def showQuantity (layout : Layout) (letter : Char) (quantity : Quantity) : List Char :=
  let toCase (text : List Char) : List Char :=
    if letter.isUpper then text.map Char.toUpper else text
  match quantity with
  | .finite number =>
    let mark := if letter.toLower = 'a' then ['0', 'x'] else []
    layout.showDigits true (layout.sign number.negative ++ toCase mark)
      (toCase (layout.showNumber letter.toLower number))
  | .infinite negative => layout.showDigits false (layout.sign negative) (toCase "inf".toList)
  | .undefined negative => layout.showDigits false (layout.sign negative) (toCase "nan".toList)

end Layout

/-- What printing has come to. -/
structure Printed where
  /-- What is written, the last part first. -/
  output : List (List Char) := []
  /-- What is wrong with the arguments. -/
  complaints : List (List Char) := []
  args : List (List Char)
  /-- Whether printing goes on. -/
  goesOn : Bool := true
  /-- What is wrong with the format. -/
  failure : Option (List Char) := none

namespace Printed

/-- One more text written. -/
def add (printed : Printed) (text : List Char) : Printed :=
  { printed with output := text :: printed.output }

/-- The next argument, empty if there is none, and what is left. -/
def next (printed : Printed) : List Char × Printed :=
  (printed.args.head?.getD [], { printed with args := printed.args.tail })

/-- What is wrong with an argument that should be a number, `rest` being what follows the number. -/
def check (printed : Printed) (arg : List Char) (rest : Option (List Char)) (isTooLarge : Bool) :
    Printed :=
  let complain (text : String) : Printed :=
    { printed with complaints := printed.complaints ++ [arg ++ ": ".toList ++ text.toList] }
  match rest with
  | none => if arg.isEmpty then printed else complain "expected numeric value"
  | some [] => if isTooLarge then complain "Numerical result out of range" else printed
  | some _ => complain "not completely converted"

/-- The code of the character after a quotation mark. -/
def quotedCode? : List Char → Option Nat
  | mark :: char :: _ => if mark = '\'' ∨ mark = '"' then some char.toNat else none
  | [mark] => if mark = '\'' ∨ mark = '"' then some 0 else none
  | [] => none

/-- The next argument as a whole number between two bounds. -/
def integer (printed : Printed) (lower upper : Int) : Int × Printed :=
  let isMissing := printed.args.isEmpty
  let (arg, printed) := printed.next
  if isMissing then (0, printed)
  else
    match quotedCode? arg with
    | some code => (code, printed)
    | none =>
      match Number.read? none arg with
      | none => (0, printed.check arg none false)
      | some (number, rest) =>
        (Number.clamp lower upper number,
          printed.check arg (some rest) (number < lower ∨ upper < number))

/-- The next argument as a whole number with a sign. -/
def signed (printed : Printed) : Int × Printed := printed.integer Number.least Number.greatest

/-- The next argument as a whole number without a sign; a negative one is counted from the top. -/
def unsigned (printed : Printed) : Nat × Printed :=
  let (number, printed) := printed.integer (-Number.greatestUnsigned) Number.greatestUnsigned
  ((number % (Number.greatestUnsigned + 1)).toNat, printed)

/-- The next argument as a quantity. -/
def quantity (printed : Printed) : Quantity × Printed :=
  let zero := Quantity.ofNumber (Decimal.ofNat 0)
  let isMissing := printed.args.isEmpty
  let (arg, printed) := printed.next
  if isMissing then (zero, printed)
  else
    match quotedCode? arg with
    | some code => (Quantity.ofNumber (Decimal.ofNat code), printed)
    | none =>
      match Quantity.read? (arg.dropWhile Number.isSpace) with
      | none => (zero, printed.check arg none false)
      | some (found, isLost, rest) => (found, printed.check arg (some rest) isLost)

end Printed

/-- Whether a character can stand in a number of a directive. -/
def isWidthChar (char : Char) : Bool := char == '*' || Text.isDigit char

/-- A width or a precision at the front of a text, if there is one; an asterisk stands for an
argument. -/
def readSize (printed : Printed) (text : List Char) : Option Int × List Char × Printed :=
  match text with
  | '*' :: rest =>
    let (size, printed) := printed.signed
    (some size, rest, printed)
  | text =>
    let digits := text.takeWhile isWidthChar
    let size := if digits.isEmpty then none else some (Text.numeral 10 digits : Int)
    (size, text.drop digits.length, printed)

/-- The flags at the front of a text. -/
def readFlags (text : List Char) : List Char := text.takeWhile "#-+ 0".toList.contains

/-- The precision at the front of a text behind a point, if there is one. -/
def readPrecision (printed : Printed) (text : List Char) : Option Nat × List Char × Printed :=
  match text with
  | '.' :: text =>
    let found := readSize printed text
    let size := found.1.getD 0
    (if size < 0 then none else some size.toNat, found.2)
  | text => (none, text, printed)

/-- The layout of a directive behind its percent sign, and the text from its letter on. -/
def readLayout (printed : Printed) (text : List Char) : Layout × List Char × Printed :=
  let flags := readFlags text
  let width := readSize printed (text.drop flags.length)
  let precision := readPrecision width.2.2 width.2.1
  let size := width.1.getD 0
  (⟨if size < 0 then '-' :: flags else flags, size.natAbs, precision.1⟩, precision.2)

theorem readSize_length_le (printed : Printed) (text : List Char) :
    (readSize printed text).2.1.length ≤ text.length := by
  unfold readSize
  split <;> simp

theorem readPrecision_length_le (printed : Printed) (text : List Char) :
    (readPrecision printed text).2.1.length ≤ text.length := by
  unfold readPrecision
  split
  · rename_i rest
    exact Nat.le_succ_of_le (readSize_length_le printed rest)
  · exact Nat.le_refl _

theorem readLayout_length_le (printed : Printed) (text : List Char) :
    (readLayout printed text).2.1.length ≤ text.length := by
  have first := readSize_length_le printed (text.drop (readFlags text).length)
  rw [List.length_drop] at first
  have second := readPrecision_length_le
    (readSize printed (text.drop (readFlags text).length)).2.2
    (readSize printed (text.drop (readFlags text).length)).2.1
  unfold readLayout
  exact Nat.le_trans second (Nat.le_trans first (Nat.sub_le _ _))

/-- What a directive with a letter writes. -/
def printOne (printed : Printed) (layout : Layout) (letter : Char) (directive : List Char) :
    Printed :=
  match letter with
  | 'b' =>
    let (arg, printed) := printed.next
    let (bytes, goesOn) := unescapeAll arg
    { printed.add (layout.showText bytes) with goesOn }
  | 'c' =>
    let (arg, printed) := printed.next
    printed.add (layout.pad [arg.head?.getD (Char.ofNat 0)])
  | 's' =>
    let (arg, printed) := printed.next
    printed.add (layout.showText arg)
  | letter =>
    if letter = 'd' ∨ letter = 'i' then
      let (number, printed) := printed.signed
      printed.add (layout.showSigned number)
    else if "ouxX".toList.contains letter then
      let (size, printed) := printed.unsigned
      printed.add (layout.showUnsigned letter size)
    else if "aAeEfFgG".toList.contains letter then
      let (quantity, printed) := printed.quantity
      printed.add (layout.showQuantity letter quantity)
    else { printed with failure := some (directive ++ ": invalid directive".toList) }

/-- What a format writes on one use. -/
def formatOnce (text : List Char) (printed : Printed) : Printed :=
  match text with
  | [] => printed
  | '%' :: '%' :: rest => formatOnce rest (printed.add ['%'])
  | '%' :: rest =>
    match _hidden : (readLayout printed rest).2.1 with
    | [] => { printed with failure := some "missing format character".toList }
    | letter :: after =>
      let directive := '%' :: rest.take (rest.length - after.length)
      let found := readLayout printed rest
      let later :=
        if found.1.isTooLarge then
          { found.2.2 with failure := some "xvsnprintf failed".toList }
        else printOne found.2.2 found.1 letter directive
      if later.goesOn && later.failure.isNone then formatOnce after later else later
  | '\\' :: rest => formatOnce (unescape rest).2 (printed.add [(unescape rest).1])
  | char :: rest => formatOnce rest (printed.add [char])
termination_by text.length
decreasing_by
  · simp only [List.length_cons]; omega
  · have shorter := readLayout_length_le printed rest
    rw [_hidden] at shorter
    simp only [List.length_cons] at shorter ⊢
    omega
  · have := unescape_length_le rest
    simp only [List.length_cons]
    omega
  · simp only [List.length_cons]; omega

/-- What a format writes when it is used as long as there are arguments. -/
def formatAll (format : List Char) : (uses : Nat) → Printed → Printed
  | 0, printed => printed
  | uses + 1, printed =>
    let later := formatOnce format printed
    if later.goesOn && later.failure.isNone && !later.args.isEmpty &&
        later.args.length < printed.args.length then
      formatAll format uses later
    else later

/-- What `printf` writes; nothing if it has no format. -/
def printf? : List (List Char) → Option Printed
  | [] => none
  | format :: args => some (formatAll format (args.length + 1) { args })

end CellSyntax.Shell
