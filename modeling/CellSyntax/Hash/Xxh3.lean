/-
**The 64-bit XXH3 hash.**

The hash of a byte sequence with seed zero and the standard secret. There are four rules, by the
length of the input: up to 16 bytes, up to 128, up to 240, and more.

* `mix_comm`: the folded product does not depend on the order of its factors;
* `hash_nil`: the hash of nothing.
-/

namespace CellSyntax.Xxh3

/-! ### Constants -/

def prime32First : UInt64 := 0x9E3779B1
def prime32Second : UInt64 := 0x85EBCA77
def prime32Third : UInt64 := 0xC2B2AE3D
def primeFirst : UInt64 := 0x9E3779B185EBCA87
def primeSecond : UInt64 := 0xC2B2AE3D27D4EB4F
def primeThird : UInt64 := 0x165667B19E3779F9
def primeFourth : UInt64 := 0x85EBCA77C2B2AE63
def primeFifth : UInt64 := 0x27D4EB2F165667C5
def avalanchePrime : UInt64 := 0x165667919E3779F9
def shortPrime : UInt64 := 0x9FB21C651E98DF25

/-- The secret that is mixed into the input. -/
def secret : Array UInt8 := #[
  0xb8, 0xfe, 0x6c, 0x39, 0x23, 0xa4, 0x4b, 0xbe, 0x7c, 0x01, 0x81, 0x2c, 0xf7, 0x21, 0xad, 0x1c,
  0xde, 0xd4, 0x6d, 0xe9, 0x83, 0x90, 0x97, 0xdb, 0x72, 0x40, 0xa4, 0xa4, 0xb7, 0xb3, 0x67, 0x1f,
  0xcb, 0x79, 0xe6, 0x4e, 0xcc, 0xc0, 0xe5, 0x78, 0x82, 0x5a, 0xd0, 0x7d, 0xcc, 0xff, 0x72, 0x21,
  0xb8, 0x08, 0x46, 0x74, 0xf7, 0x43, 0x24, 0x8e, 0xe0, 0x35, 0x90, 0xe6, 0x81, 0x3a, 0x26, 0x4c,
  0x3c, 0x28, 0x52, 0xbb, 0x91, 0xc3, 0x00, 0xcb, 0x88, 0xd0, 0x65, 0x8b, 0x1b, 0x53, 0x2e, 0xa3,
  0x71, 0x64, 0x48, 0x97, 0xa2, 0x0d, 0xf9, 0x4e, 0x38, 0x19, 0xef, 0x46, 0xa9, 0xde, 0xac, 0xd8,
  0xa8, 0xfa, 0x76, 0x3f, 0xe3, 0x9c, 0x34, 0x3f, 0xf9, 0xdc, 0xbb, 0xc7, 0xc7, 0x0b, 0x4f, 0x1d,
  0x8a, 0x51, 0xe0, 0x4b, 0xcd, 0xb4, 0x59, 0x31, 0xc8, 0x9f, 0x7e, 0xc9, 0xd9, 0x78, 0x73, 0x64,
  0xea, 0xc5, 0xac, 0x83, 0x34, 0xd3, 0xeb, 0xc3, 0xc5, 0x81, 0xa0, 0xff, 0xfa, 0x13, 0x63, 0xeb,
  0x17, 0x0d, 0xdd, 0x51, 0xb7, 0xf0, 0xda, 0x49, 0xd3, 0x16, 0x55, 0x26, 0x29, 0xd4, 0x68, 0x9e,
  0x2b, 0x16, 0xbe, 0x58, 0x7d, 0x47, 0xa1, 0xfc, 0x8f, 0xf8, 0xb8, 0xd1, 0x7a, 0xd0, 0x31, 0xce,
  0x45, 0xcb, 0x3a, 0x8f, 0x95, 0x16, 0x04, 0x28, 0xaf, 0xd7, 0xfb, 0xca, 0xbb, 0x4b, 0x40, 0x7e]

/-! ### Words -/

/-- The little-endian word of `size` bytes at an offset; bytes past the end count as zero. -/
def word (size : Nat) (bytes : Array UInt8) (offset : Nat) : UInt64 :=
  (List.range size).foldr
    (fun (index : Nat) (high : UInt64) =>
      high * 256 + (bytes.getD (offset + index) 0).toUInt64) 0

/-- The word of eight bytes at an offset. -/
def word64 : Array UInt8 → Nat → UInt64 := word 8

/-- The word of four bytes at an offset. -/
def word32 : Array UInt8 → Nat → UInt64 := word 4

/-- A word rotated to the left. -/
def rotate (value : UInt64) (bits : UInt64) : UInt64 :=
  (value <<< bits) ||| (value >>> (64 - bits))

/-- A word with its bytes in the opposite order. -/
def swapBytes (value : UInt64) : UInt64 :=
  (List.range 8).foldl
    (fun (swapped : UInt64) (index : Nat) =>
      let byte : UInt64 := (value >>> (8 * index).toUInt64) &&& 0xFF
      swapped * 256 + byte) 0

/-- The two halves of the full product of two words, combined by exclusive or. -/
def mix (first second : UInt64) : UInt64 :=
  let product := first.toNat * second.toNat
  product.toUInt64 ^^^ (product >>> 64).toUInt64

theorem mix_comm (first second : UInt64) : mix first second = mix second first := by
  unfold mix
  rw [Nat.mul_comm]

/-- A word combined with itself shifted to the right. -/
def foldRight (value : UInt64) (bits : UInt64) : UInt64 := value ^^^ (value >>> bits)

/-- The usual last step: every input bit reaches every output bit. -/
def avalanche (value : UInt64) : UInt64 :=
  foldRight (foldRight value 37 * avalanchePrime) 32

/-- The last step for inputs of at most three bytes. -/
def shortAvalanche (value : UInt64) : UInt64 :=
  foldRight (foldRight (foldRight value 33 * primeSecond) 29 * primeThird) 32

/-- The exclusive or of two words of the secret. -/
def secretPair (first second : Nat) : UInt64 := word64 secret first ^^^ word64 secret second

/-! ### Inputs of at most 240 bytes -/

/-- The hash of one to three bytes. -/
def hashTiny (bytes : Array UInt8) : UInt64 :=
  let size := bytes.size
  let byte (index : Nat) : UInt64 := (bytes.getD index 0).toUInt64
  let combined :=
    (byte 0 <<< 16) ||| (byte (size / 2) <<< 24) ||| byte (size - 1) ||| (size.toUInt64 <<< 8)
  shortAvalanche (combined ^^^ (word32 secret 0 ^^^ word32 secret 4))

/-- The hash of four to eight bytes. -/
def hashSmall (bytes : Array UInt8) : UInt64 :=
  let size := bytes.size
  let keyed :=
    (word32 bytes (size - 4) + (word32 bytes 0 <<< 32)) ^^^ secretPair 8 16
  let spread := (keyed ^^^ rotate keyed 49 ^^^ rotate keyed 24) * shortPrime
  foldRight ((spread ^^^ ((spread >>> 35) + size.toUInt64)) * shortPrime) 28

/-- The hash of nine to sixteen bytes. -/
def hashMedium (bytes : Array UInt8) : UInt64 :=
  let size := bytes.size
  let low := word64 bytes 0 ^^^ secretPair 24 32
  let high := word64 bytes (size - 8) ^^^ secretPair 40 48
  avalanche (size.toUInt64 + swapBytes low + high + mix low high)

/-- Sixteen bytes of the input mixed with sixteen bytes of the secret. -/
def mixBlock (bytes : Array UInt8) (offset secretOffset : Nat) : UInt64 :=
  mix (word64 bytes offset ^^^ word64 secret secretOffset)
    (word64 bytes (offset + 8) ^^^ word64 secret (secretOffset + 8))

/-- The hash of 17 to 128 bytes: blocks are taken in pairs from both ends. -/
def hashLarge (bytes : Array UInt8) : UInt64 :=
  let size := bytes.size
  let pairs := (List.range ((size - 1) / 32 + 1)).map fun index =>
    mixBlock bytes (16 * index) (32 * index) +
      mixBlock bytes (size - 16 * (index + 1)) (32 * index + 16)
  avalanche (pairs.foldl (· + ·) (size.toUInt64 * primeFirst))

/-- The hash of 129 to 240 bytes. -/
def hashLarger (bytes : Array UInt8) : UInt64 :=
  let size := bytes.size
  let start := (List.range 8).foldl
    (fun sum index => sum + mixBlock bytes (16 * index) (16 * index))
    (size.toUInt64 * primeFirst)
  let later := (List.range (size / 16 - 8)).foldl
    (fun sum index => sum + mixBlock bytes (16 * (index + 8)) (16 * index + 3))
    (mixBlock bytes (size - 16) 119)
  avalanche (avalanche start + later)

/-! ### Longer inputs -/

/-- The eight running sums of a long input. -/
abbrev Lanes := List UInt64

/-- The sums before any input. -/
def startLanes : Lanes :=
  [prime32Third, primeFirst, primeSecond, primeThird, primeFourth, prime32Second, primeFifth,
    prime32First]

/-- The sums after one more stripe of 64 bytes. -/
def addStripe (bytes : Array UInt8) (offset secretOffset : Nat) (lanes : Lanes) : Lanes :=
  let data (index : Nat) := word64 bytes (offset + 8 * index)
  lanes.mapIdx fun index lane =>
    let keyed := data index ^^^ word64 secret (secretOffset + 8 * index)
    let low : UInt64 := keyed &&& 0xFFFFFFFF
    lane + data (index ^^^ 1) + low * (keyed >>> 32)

/-- The sums after `count` stripes in a row. -/
def addStripes (bytes : Array UInt8) (offset count : Nat) (lanes : Lanes) : Lanes :=
  (List.range count).foldl
    (fun lanes index => addStripe bytes (offset + 64 * index) (8 * index) lanes) lanes

/-- The sums at the end of a block of 1024 bytes. -/
def scramble (lanes : Lanes) : Lanes :=
  lanes.mapIdx fun index lane =>
    (foldRight lane 47 ^^^ word64 secret (128 + 8 * index)) * prime32First

/-- The sums combined into one word. -/
def mergeLanes (start : UInt64) (lanes : Lanes) : UInt64 :=
  let keyed := lanes.mapIdx fun index lane => lane ^^^ word64 secret (11 + 8 * index)
  let rec pairs : Lanes → UInt64
    | first :: second :: rest => mix first second + pairs rest
    | _ => 0
  avalanche (start + pairs keyed)

/-- The hash of more than 240 bytes. -/
def hashLong (bytes : Array UInt8) : UInt64 :=
  let size := bytes.size
  let blocks := (size - 1) / 1024
  let lanes := (List.range blocks).foldl
    (fun lanes block => scramble (addStripes bytes (1024 * block) 16 lanes)) startLanes
  let lanes := addStripes bytes (1024 * blocks) ((size - 1 - 1024 * blocks) / 64) lanes
  mergeLanes (size.toUInt64 * primeFirst) (addStripe bytes (size - 64) 121 lanes)

/-- The hash of a byte sequence. -/
def hash (bytes : Array UInt8) : UInt64 :=
  let size := bytes.size
  if size = 0 then shortAvalanche (secretPair 56 64)
  else if size ≤ 3 then hashTiny bytes
  else if size ≤ 8 then hashSmall bytes
  else if size ≤ 16 then hashMedium bytes
  else if size ≤ 128 then hashLarge bytes
  else if size ≤ 240 then hashLarger bytes
  else hashLong bytes

theorem hash_nil : hash #[] = 0x2d06800538d394c2 := by decide +kernel

end CellSyntax.Xxh3
