/-
**Texts come back from their bytes.**

Decoding replaces what belongs to no character. In the bytes of a text there is nothing to replace:
the first byte of a character says which bytes may follow it, so that no character has two forms and
none is a surrogate, and what the encoding writes keeps to that. The other bytes carry six bits each.

* `Text.decodeFrom_utf8EncodeChar`: a character is decoded from its bytes;
* `Text.ofBytes_toBytes`: a text is decoded from its bytes.
-/

import CellSyntax.Text.Utf8

namespace CellSyntax

namespace Text

variable {low high : UInt8} {lead second third last : Nat} {rest : List UInt8}

/-! ### Bytes behind the first -/

theorem continues_ofNat (small : last < 64)
    (fits : low.toNat ≤ last + 128 ∧ last + 128 ≤ high.toNat) :
    (low ≤ UInt8.ofNat (last + 128) ∧ UInt8.ofNat (last + 128) ≤ high) ∧
      (UInt8.ofNat (last + 128)).toNat % 64 = last := by
  have value : (UInt8.ofNat (last + 128)).toNat = last + 128 := by
    rw [UInt8.toNat_ofNat']
    omega
  rw [UInt8.le_iff_toNat_le, UInt8.le_iff_toNat_le, value]
  exact ⟨fits, by omega⟩

/-- The last byte of a character completes it. -/
theorem decodeFrom_last (bits : Nat) (small : last < 64)
    (fits : low.toNat ≤ last + 128 ∧ last + 128 ≤ high.toNat) :
    decodeFrom (some ⟨low, high, 1, bits⟩) (UInt8.ofNat (last + 128) :: rest) =
      Char.ofNat (bits * 64 + last) :: decodeFrom none rest := by
  obtain ⟨continues, carries⟩ := continues_ofNat small fits
  rw [decodeFrom, step, if_pos continues, carries]
  rfl

/-- A byte with others behind it leaves the character pending. -/
theorem decodeFrom_next (left bits : Nat) (small : second < 64)
    (fits : low.toNat ≤ second + 128 ∧ second + 128 ≤ high.toNat) :
    decodeFrom (some ⟨low, high, left + 2, bits⟩) (UInt8.ofNat (second + 128) :: rest) =
      decodeFrom (some ⟨0x80, 0xBF, left + 1, bits * 64 + second⟩) rest := by
  obtain ⟨continues, carries⟩ := continues_ofNat small fits
  rw [decodeFrom, step, if_pos continues, carries]
  rfl

/-- Any six bits may follow where the first byte asks for nothing else. -/
theorem fits_any (small : last < 64) :
    (0x80 : UInt8).toNat ≤ last + 128 ∧ last + 128 ≤ (0xBF : UInt8).toNat :=
  ⟨Nat.le_add_left _ _, Nat.add_le_add_right (Nat.le_of_lt_succ small) 128⟩

/-- The least first byte asks for more behind it, and another one for less. -/
theorem fits_of_lead {least greatest : UInt8} {final : Nat} (small : second < 64)
    (long : lead = 0 → least.toNat ≤ second + 128)
    (scalar : lead = final → second + 128 ≤ greatest.toNat) :
    (if lead = 0 then least else 0x80).toNat ≤ second + 128 ∧
      second + 128 ≤ (if lead = final then greatest else 0xBF).toNat := by
  obtain ⟨fromLow, upToHigh⟩ := fits_any small
  constructor
  · split
    case isTrue zero => exact long zero
    case isFalse => exact fromLow
  · split
    case isTrue isFinal => exact scalar isFinal
    case isFalse => exact upToHigh

/-! ### Characters of several bytes -/

theorem decodeFrom_first {byte : UInt8} {pending : Pending}
    (first : stepStart byte = ([], some pending)) :
    decodeFrom none (byte :: rest) = decodeFrom (some pending) rest := by
  rw [decodeFrom, step, first, List.nil_append]

theorem decodeFrom_two (long : 2 ≤ lead) (short : lead < 32) (small : last < 64) :
    decodeFrom none (UInt8.ofNat (lead + 192) :: UInt8.ofNat (last + 128) :: rest) =
      Char.ofNat (lead * 64 + last) :: decodeFrom none rest := by
  have first : ∀ lead ∈ List.range' 2 30, stepStart (UInt8.ofNat (lead + 192)) =
      ([], some ⟨0x80, 0xBF, 1, lead⟩) := by decide
  rw [decodeFrom_first (first lead (List.mem_range'_1.2 ⟨long, short⟩))]
  exact decodeFrom_last lead small (fits_any small)

/-- Three bytes stand for no character of two, and for no surrogate. -/
theorem decodeFrom_three (short : lead < 16) (smallSecond : second < 64) (small : last < 64)
    (long : lead = 0 → 32 ≤ second) (scalar : lead = 13 → second < 32) :
    decodeFrom none (UInt8.ofNat (lead + 224) :: UInt8.ofNat (second + 128) ::
        UInt8.ofNat (last + 128) :: rest) =
      Char.ofNat ((lead * 64 + second) * 64 + last) :: decodeFrom none rest := by
  have first : ∀ lead ∈ List.range 16, stepStart (UInt8.ofNat (lead + 224)) =
      ([], some ⟨if lead = 0 then 0xA0 else 0x80, if lead = 13 then 0x9F else 0xBF, 2, lead⟩) := by
    decide
  rw [decodeFrom_first (first lead (List.mem_range.2 short)), decodeFrom_next 0 lead smallSecond]
  · exact decodeFrom_last _ small (fits_any small)
  · exact fits_of_lead smallSecond (fun zero => Nat.add_le_add_right (long zero) 128)
      fun surrogates => Nat.add_le_add_right (Nat.le_of_lt_succ (scalar surrogates)) 128

/-- Four bytes stand for no character of three, and for nothing behind the last character. -/
theorem decodeFrom_four (short : lead < 5) (smallSecond : second < 64) (smallThird : third < 64)
    (small : last < 64) (long : lead = 0 → 16 ≤ second) (scalar : lead = 4 → second < 16) :
    decodeFrom none (UInt8.ofNat (lead + 240) :: UInt8.ofNat (second + 128) ::
        UInt8.ofNat (third + 128) :: UInt8.ofNat (last + 128) :: rest) =
      Char.ofNat (((lead * 64 + second) * 64 + third) * 64 + last) :: decodeFrom none rest := by
  have first : ∀ lead ∈ List.range 5, stepStart (UInt8.ofNat (lead + 240)) =
      ([], some ⟨if lead = 0 then 0x90 else 0x80, if lead = 4 then 0x8F else 0xBF, 3, lead⟩) := by
    decide
  rw [decodeFrom_first (first lead (List.mem_range.2 short)), decodeFrom_next 1 lead smallSecond,
    decodeFrom_next 0 _ smallThird (fits_any smallThird)]
  · exact decodeFrom_last _ small (fits_any small)
  · exact fits_of_lead smallSecond (fun zero => Nat.add_le_add_right (long zero) 128)
      fun final => Nat.add_le_add_right (Nat.le_of_lt_succ (scalar final)) 128

/-! ### Texts -/

/-- **A character is decoded from its bytes.** -/
theorem decodeFrom_utf8EncodeChar (char : Char) (rest : List UInt8) :
    decodeFrom none (String.utf8EncodeChar char ++ rest) = char :: decodeFrom none rest := by
  have valid : char.toNat < 0xD800 ∨ 0xDFFF < char.toNat ∧ char.toNat < 0x110000 := char.valid
  have back : Char.ofNat char.toNat = char := Char.ofNat_toNat char
  have number : char.val.toNat = char.toNat := rfl
  rw [String.utf8EncodeChar, number]
  generalize char.toNat = code at *
  subst back
  split
  case isTrue one =>
    have value : (UInt8.ofNat code).toNat = code := by
      rw [UInt8.toNat_ofNat']
      omega
    have ascii : UInt8.ofNat code < 0x80 := by
      rw [UInt8.lt_iff_toNat_lt, value]
      exact Nat.lt_succ_of_le one
    rw [List.singleton_append, decodeFrom, step_ascii ascii, value]
    rfl
  case isFalse =>
    split
    case isTrue =>
      have whole : code / 64 % 32 * 64 + code % 64 = code := by omega
      have decoded := @decodeFrom_two (code / 64 % 32) (code % 64) rest (by omega) (by omega)
        (by omega)
      rwa [whole] at decoded
    case isFalse =>
      split
      case isTrue =>
        have whole : (code / 4096 % 16 * 64 + code / 64 % 64) * 64 + code % 64 = code := by omega
        have decoded := @decodeFrom_three (code / 4096 % 16) (code / 64 % 64) (code % 64) rest
          (by omega) (by omega) (by omega) (by omega) (by omega)
        rwa [whole] at decoded
      case isFalse =>
        have whole : ((code / 262144 % 8 * 64 + code / 4096 % 64) * 64 + code / 64 % 64) * 64 +
            code % 64 = code := by omega
        have decoded := @decodeFrom_four (code / 262144 % 8) (code / 4096 % 64) (code / 64 % 64)
          (code % 64) rest (by omega) (by omega) (by omega) (by omega) (by omega) (by omega)
        rwa [whole] at decoded

theorem toList_loop (bytes : ByteArray) (index : Nat) (before : List UInt8) :
    ByteArray.toList.loop bytes index before =
      before.reverse ++ bytes.data.toList.drop index := by
  fun_induction ByteArray.toList.loop bytes index before with
  | case1 index before inside ih =>
    have bound : index < bytes.data.toList.length := inside
    rw [ih, List.drop_eq_getElem_cons bound]
    simp [ByteArray.get!, inside]
  | case2 index before outside =>
    rw [List.drop_eq_nil_of_le (Nat.le_of_not_lt outside), List.append_nil]

theorem toBytes_eq_flatMap (text : String) :
    toBytes text = text.toList.flatMap String.utf8EncodeChar := by
  rw [toBytes, String.toUTF8_eq_toByteArray, ← String.utf8Encode_toList, ByteArray.toList,
    toList_loop]
  exact List.toList_data_toByteArray

/-- **The bytes of a text are decoded to the text.** -/
theorem ofBytes_toBytes (text : String) : ofBytes (toBytes text) = text := by
  have chars (chars : List Char) :
      decodeFrom none (chars.flatMap String.utf8EncodeChar) = chars := by
    induction chars with
    | nil => rfl
    | cons char chars ih => rw [List.flatMap_cons, decodeFrom_utf8EncodeChar, ih]
  rw [ofBytes, toBytes_eq_flatMap, chars, String.ofList_toList]

end Text

end CellSyntax
