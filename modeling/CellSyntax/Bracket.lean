/-
**Brackets.**

Which tokens are brackets, and the stack of brackets that are open after a run of tokens. Only a
literal of one character is a bracket. An open bracket remembers the number of the token that
opened it, so that one can ask whether it was opened at or after a given token.

* `BracketTable.role_eq_none_of_length`: a literal of any other length is no bracket;
* `BracketTable.scan_append`: scanning goes left to right, part by part.
-/

import CellSyntax.Token
import CellSyntax.Config

namespace CellSyntax

/-- What a bracket does. -/
inductive BracketRole where
  /-- It opens a bracket that `closer` closes. -/
  | opens (closer : Char)
  /-- It closes, `closer` being the character itself. -/
  | closes (closer : Char)
deriving DecidableEq, Repr

/-- The pairs of characters that are brackets, each an opener and its closer. -/
structure BracketTable where
  pairs : List (Char × Char)
deriving DecidableEq, Repr

/-- A bracket that is open: the closer it waits for and the number of the token that opened it. -/
structure OpenBracket where
  closer : Char
  opener : Nat
deriving DecidableEq, Repr

/-- A closer that does not match: either no bracket is open or the innermost one waits for
another closer. -/
structure BracketMismatch where
  position : Position
  found : Char
  expected : Option Char
deriving DecidableEq, Repr

/-- The wording of a mismatch. -/
def BracketMismatch.message (mismatch : BracketMismatch) : String :=
  s!"unmatched '{mismatch.found}' at {mismatch.position.render}" ++
    match mismatch.expected with
    | some closer => s!", expected '{closer}'"
    | none => " with no open bracket"

namespace BracketTable

/-- The table that a configuration asks for. -/
def ofConfig (config : TokenConfig) : BracketTable := ⟨config.bracketPairs⟩

/-- What a character does according to one pair. -/
def pairRole (char : Char) (pair : Char × Char) : Option BracketRole :=
  if char = pair.1 then some (.opens pair.2)
  else if char = pair.2 then some (.closes pair.2)
  else none

/-- What a literal does; the first pair with one of its characters decides. -/
def role (table : BracketTable) (literal : String) : Option BracketRole :=
  match literal.toList with
  | [char] => table.pairs.findSome? (pairRole char)
  | _ => none

theorem role_eq_none_of_length (table : BracketTable) {literal : String}
    (length : literal.toList.length ≠ 1) : table.role literal = none := by
  unfold role
  split
  · rename_i char chars
    rw [chars] at length
    exact absurd rfl length
  · rfl

/-- The open brackets after one more lexeme, innermost first. -/
def step (table : BracketTable) (opened : List OpenBracket) (lexeme : Lexeme) :
    Except BracketMismatch (List OpenBracket) :=
  match table.role lexeme.token.literal, opened with
  | none, _ => .ok opened
  | some (.opens closer), _ => .ok (⟨closer, lexeme.number⟩ :: opened)
  | some (.closes found), [] => .error ⟨lexeme.start, found, none⟩
  | some (.closes found), innermost :: outer =>
    if innermost.closer = found then .ok outer
    else .error ⟨lexeme.start, found, some innermost.closer⟩

/-- The open brackets after a run of lexemes. -/
def scan (table : BracketTable) (opened : List OpenBracket) :
    List Lexeme → Except BracketMismatch (List OpenBracket)
  | [] => .ok opened
  | lexeme :: rest =>
    match table.step opened lexeme with
    | .error mismatch => .error mismatch
    | .ok opened => table.scan opened rest

theorem scan_append (table : BracketTable) (opened : List OpenBracket)
    (first second : List Lexeme) :
    table.scan opened (first ++ second) =
      (table.scan opened first).bind fun opened => table.scan opened second := by
  induction first generalizing opened with
  | nil => rfl
  | cons lexeme rest ih =>
    simp only [List.cons_append, scan]
    cases table.step opened lexeme with
    | error mismatch => rfl
    | ok opened => exact ih opened

end BracketTable

/-- Whether the innermost open bracket was opened by the token numbered `first` or a later one. -/
def owesCloser (first : Nat) (opened : List OpenBracket) : Bool :=
  match opened with
  | [] => false
  | innermost :: _ => first ≤ innermost.opener

end CellSyntax
