/-
**UTF-8 with replacement.**

Bytes are read one at a time; in between, a character may be pending. What is pending when a byte
does not continue it is replaced by U+FFFD, and so is a byte that starts no character.

* `step_ascii`: between characters an ASCII byte is its own character.
-/

namespace CellSyntax.Text

/-- The character that stands for what cannot be read. -/
def replacement : Char := '\uFFFD'

/-- A character whose first bytes have been read: the least and the greatest byte that continues
it, how many bytes it still needs, and the bits read so far. -/
structure Pending where
  low : UInt8
  high : UInt8
  left : Nat
  bits : Nat
deriving DecidableEq, Repr

/-- The character that a byte starts, if it is the first of several bytes. -/
def pendingAfter? (byte : UInt8) : Option Pending :=
  let start (low high : UInt8) (left : Nat) : Option Pending :=
    some ⟨low, high, left, byte.toNat % Nat.pow 2 (6 - left)⟩
  if byte < 0xC2 then none
  else if byte ≤ 0xDF then start 0x80 0xBF 1
  else if byte = 0xE0 then start 0xA0 0xBF 2
  else if byte = 0xED then start 0x80 0x9F 2
  else if byte ≤ 0xEF then start 0x80 0xBF 2
  else if byte = 0xF0 then start 0x90 0xBF 3
  else if byte ≤ 0xF3 then start 0x80 0xBF 3
  else if byte = 0xF4 then start 0x80 0x8F 3
  else none

/-- The characters that a byte completes where no character is pending, and what is pending then. -/
def stepStart (byte : UInt8) : List Char × Option Pending :=
  if byte < 0x80 then ([Char.ofNat byte.toNat], none)
  else
    match pendingAfter? byte with
    | some pending => ([], some pending)
    | none => ([replacement], none)

/-- The characters that a byte completes, and what is pending then. -/
def step (pending : Option Pending) (byte : UInt8) : List Char × Option Pending :=
  match pending with
  | none => stepStart byte
  | some ⟨low, high, left, bits⟩ =>
    if low ≤ byte ∧ byte ≤ high then
      let bits := bits * 64 + byte.toNat % 64
      if left ≤ 1 then ([Char.ofNat bits], none) else ([], some ⟨0x80, 0xBF, left - 1, bits⟩)
    else
      let (chars, pending) := stepStart byte
      (replacement :: chars, pending)

theorem step_ascii {byte : UInt8} (ascii : byte < 0x80) :
    step none byte = ([Char.ofNat byte.toNat], none) :=
  if_pos ascii

/-- The characters of a byte sequence, a character being pending before it. -/
def decodeFrom (pending : Option Pending) : List UInt8 → List Char
  | [] => if pending.isSome then [replacement] else []
  | byte :: rest => (step pending byte).1 ++ decodeFrom (step pending byte).2 rest

/-- The text of a byte sequence. -/
def ofBytes (bytes : List UInt8) : String := String.ofList (decodeFrom none bytes)

/-- The bytes of a text. -/
def toBytes (text : String) : List UInt8 := text.toUTF8.toList

end CellSyntax.Text
