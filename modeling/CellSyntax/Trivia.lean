/-
**Text that no token covers.**

A tokenizer skips blanks, line continuations and the like. `fillGaps` puts a token in for every
stretch of the source between the tokens that none of them covers.

* `fillGaps_nil`: without tokens the whole source becomes one token, or none if it is empty.
-/

import CellSyntax.Text.Lines
import CellSyntax.Token

namespace CellSyntax

/-- The token for the text from one place up to another. -/
def gapToken (source : List Char) (kind : String) (first last : Nat) : Token :=
  ⟨kind, Range.ofEnds (Text.positionAt source first) (Text.positionAt source last),
    String.ofList (Text.part source first last)⟩

/-- The tokens with gaps filled, all text before the place `covered` being accounted for. -/
def fillGapsFrom (source : List Char) (kind : String) (covered : Nat) :
    List Token → List Token
  | [] => if covered < source.length then [gapToken source kind covered source.length] else []
  | token :: rest =>
    let start := Text.place source token.range.start
    let following :=
      token :: fillGapsFrom source kind (max covered (Text.place source token.range.stop)) rest
    if covered < start then gapToken source kind covered start :: following else following

/-- The tokens together with a token of kind `kind` for every stretch of `source` that none of
them covers. -/
def fillGaps (source : String) (kind : String) (tokens : List Token) : List Token :=
  fillGapsFrom source.toList kind 0 tokens

theorem fillGaps_nil (source kind : String) :
    fillGaps source kind [] =
      if source.toList = [] then [] else [gapToken source.toList kind 0 source.toList.length] := by
  unfold fillGaps fillGapsFrom
  cases source.toList <;> simp

end CellSyntax
