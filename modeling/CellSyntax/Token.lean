/-
**Tokens.**

A token is what a tokenizer reports: a kind, the range that it covers and its literal text. A
lexeme is a token together with its number in the token sequence of one cell.

* `Lexeme.number_sequence`: numbering a sequence gives `0, 1, …` and loses no token.
-/

import CellSyntax.Range

namespace CellSyntax

/-- A token as the tokenizer reports it. -/
structure Token where
  kind : String
  range : Range
  literal : String
deriving DecidableEq, Repr, Inhabited

/-- A token with its number in the token sequence of its cell. -/
structure Lexeme where
  number : Nat
  token : Token
deriving DecidableEq, Repr, Inhabited

namespace Lexeme

/-- The tokens numbered from `first` on. -/
def sequenceFrom (first : Nat) : List Token → List Lexeme
  | [] => []
  | token :: rest => ⟨first, token⟩ :: sequenceFrom (first + 1) rest

/-- The tokens numbered from zero on. -/
def sequence (tokens : List Token) : List Lexeme := sequenceFrom 0 tokens

theorem sequenceFrom_tokens (first : Nat) (tokens : List Token) :
    (sequenceFrom first tokens).map token = tokens := by
  induction tokens generalizing first with
  | nil => rfl
  | cons token rest ih => simp [sequenceFrom, ih]

theorem sequenceFrom_numbers (first : Nat) (tokens : List Token) :
    (sequenceFrom first tokens).map number = List.range' first tokens.length := by
  induction tokens generalizing first with
  | nil => rfl
  | cons token rest ih => simp [sequenceFrom, ih, List.range'_succ]

theorem number_sequence (tokens : List Token) :
    (sequence tokens).map number = List.range tokens.length ∧
      (sequence tokens).map token = tokens :=
  ⟨(sequenceFrom_numbers 0 tokens).trans List.range_eq_range'.symm, sequenceFrom_tokens 0 tokens⟩

/-- Where the lexeme's token starts. -/
def start (lexeme : Lexeme) : Position := lexeme.token.range.start

/-- Whether the lexeme's token starts before a position. -/
def startsBefore (position : Position) (lexeme : Lexeme) : Bool := lexeme.start < position

end Lexeme

end CellSyntax
