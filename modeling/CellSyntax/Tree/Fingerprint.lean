/-
**Fingerprints.**

A fingerprint is a hash of a node's text, so nodes with one text have one fingerprint.

* `Node.fingerprint_of_text`: the fingerprint depends on the text alone.
-/

import CellSyntax.Hash.Xxh3
import CellSyntax.Tree.Text

namespace CellSyntax

/-- A hash as sixteen hexadecimal digits in lower case. -/
def renderHash (hash : UInt64) : String :=
  let digits := Nat.toDigits 16 hash.toNat
  String.ofList (List.replicate (16 - digits.length) '0' ++ digits)

namespace Node

/-- The hash of the UTF-8 form of a node's text. -/
def fingerprint (node : Node) : UInt64 := Xxh3.hash node.text.toUTF8.data

theorem fingerprint_of_text {first second : Node} (same : first.text = second.text) :
    first.fingerprint = second.fingerprint := by
  rw [fingerprint, fingerprint, same]

end Node

end CellSyntax
