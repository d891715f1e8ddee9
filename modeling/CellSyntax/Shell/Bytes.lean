/-
**Texts of the shell.**

The shell works on bytes. A text of the shell is a list of characters each of which stands for the
byte with its number, so that scripts can be read by their characters all the same.

* `toBytes_ofBytes`: no byte is lost.
-/

import CellSyntax.Text.Decimal
import CellSyntax.Text.Utf8

namespace CellSyntax.Shell

/-- The text whose characters stand for some bytes. -/
def ofBytes (bytes : List UInt8) : List Char := bytes.map fun byte => Char.ofNat byte.toNat

/-- The bytes that the characters of a text stand for. -/
def toBytes (text : List Char) : List UInt8 := text.map fun char => UInt8.ofNat char.toNat

/-- The bytes of a string as a text of the shell. -/
def ofString (string : String) : List Char := ofBytes (Text.toBytes string)

/-- The string that a text of the shell holds. -/
def asString (text : List Char) : String := Text.ofBytes (toBytes text)

/-- A number in decimal digits. -/
def decimal (number : Int) : List Char := (toString number).toList

theorem toBytes_ofBytes (bytes : List UInt8) : toBytes (ofBytes bytes) = bytes := by
  induction bytes with
  | nil => rfl
  | cons byte rest ih =>
    have back : UInt8.ofNat (Char.ofNat byte.toNat).toNat = byte := by
      have small : byte.toNat < 256 := byte.toNat_lt
      have valid : byte.toNat.isValidChar := Or.inl (by omega)
      have kept : (Char.ofNat byte.toNat).toNat = byte.toNat := by
        rw [Char.ofNat, dif_pos valid]
        rfl
      simp [kept]
    simp only [ofBytes, toBytes, List.map_cons, List.cons.injEq] at ih ⊢
    exact ⟨back, ih⟩

end CellSyntax.Shell
