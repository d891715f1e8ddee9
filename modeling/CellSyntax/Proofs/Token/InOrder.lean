/-
**Tokens that do not overlap.**

A tokenizer reports tokens from left to right: each ends at its start or later, and at the start of
the next one or earlier. Such tokens are ordered throughout, not only each with its neighbour, and
so are the lexemes of any part of them.

* `Token.InOrder.apart`: no token ends after any later one starts;
* `Token.inOrder_iff`: the same condition, one token after the other;
* `Lexeme.Spaced.first_start_le`, `Lexeme.Spaced.stop_le_last`: the first of some lexemes starts
  earliest and the last one ends latest.
-/

import CellSyntax.Proofs.Range.InOrder
import CellSyntax.Token

namespace CellSyntax

/-! ### Tokens that do not overlap -/

/-- **Tokens that do not overlap**: each ends at its start or later, and at the start of the next
one or earlier. -/
structure Token.InOrder (tokens : List Token) : Prop where
  ordered : ∀ token ∈ tokens, token.range.start ≤ token.range.stop
  following : tokens.IsChain fun first second => first.range.stop ≤ second.range.start

theorem Token.InOrder.map_range {tokens : List Token} (inOrder : Token.InOrder tokens) :
    Range.InOrder (tokens.map Token.range) := by
  refine ⟨fun range member => ?_, List.isChain_map _ |>.2 inOrder.following⟩
  obtain ⟨token, isToken, rfl⟩ := List.mem_map.1 member
  exact inOrder.ordered token isToken

theorem Token.InOrder.apart {tokens : List Token} (inOrder : Token.InOrder tokens) :
    tokens.Pairwise fun first second => first.range.stop ≤ second.range.start :=
  List.pairwise_map.1 inOrder.map_range.apart

/-! ### Tokens after a position -/

/-- Tokens that do not overlap, the first starting at or after `stop`. -/
def Token.InOrderFrom : (stop : Position) → List Token → Prop
  | _, [] => True
  | stop, token :: rest =>
    stop ≤ token.range.start ∧ token.range.start ≤ token.range.stop ∧
      InOrderFrom token.range.stop rest

theorem Token.InOrder.from_stop {stop : Position} {tokens : List Token}
    (inOrder : Token.InOrder tokens) (after : ∀ token ∈ tokens.head?, stop ≤ token.range.start) :
    Token.InOrderFrom stop tokens := by
  obtain ⟨ordered, following⟩ := inOrder
  induction tokens generalizing stop with
  | nil => trivial
  | cons token rest ih =>
    obtain ⟨next, later⟩ := List.isChain_cons.1 following
    exact ⟨after token rfl, ordered token List.mem_cons_self,
      ih next (fun other member => ordered other (List.mem_cons_of_mem _ member)) later⟩

theorem Token.InOrderFrom.inOrder {stop : Position} {tokens : List Token}
    (after : Token.InOrderFrom stop tokens) :
    Token.InOrder tokens ∧ ∀ token ∈ tokens.head?, stop ≤ token.range.start := by
  induction tokens generalizing stop with
  | nil =>
    exact ⟨⟨fun _ member => absurd member List.not_mem_nil, .nil⟩, fun _ none => nomatch none⟩
  | cons token rest ih =>
    obtain ⟨start, ordered, later⟩ := after
    obtain ⟨inOrder, next⟩ := ih later
    have following := List.isChain_cons.2 ⟨next, inOrder.following⟩
    refine ⟨⟨fun other member => ?_, following⟩, fun first isFirst => ?_⟩
    · rcases List.mem_cons.1 member with rfl | inside
      · exact ordered
      · exact inOrder.ordered other inside
    · obtain rfl := Option.some.inj isFirst
      exact start

/-- Tokens that do not overlap are tokens after the beginning. -/
theorem Token.inOrder_iff {tokens : List Token} :
    Token.InOrder tokens ↔ Token.InOrderFrom .origin tokens :=
  ⟨fun inOrder => inOrder.from_stop fun _ _ => Position.origin_le _,
    fun after => after.inOrder.1⟩

/-! ### Lexemes that do not overlap -/

namespace Lexeme

/-- Where the lexeme's token ends. -/
def stop (lexeme : Lexeme) : Position := lexeme.token.range.stop

/-- Lexemes none of which ends before it starts or after a later one starts. -/
structure Spaced (lexemes : List Lexeme) : Prop where
  ordered : ∀ lexeme ∈ lexemes, lexeme.start ≤ lexeme.stop
  apart : lexemes.Pairwise fun first second => first.stop ≤ second.start

theorem spaced_sequence {tokens : List Token} (inOrder : Token.InOrder tokens) :
    Spaced (sequence tokens) := by
  have tokens_eq := (number_sequence tokens).2
  refine ⟨fun lexeme member => inOrder.ordered lexeme.token ?_, ?_⟩
  · rw [← tokens_eq]
    exact List.mem_map_of_mem member
  · have apart := inOrder.apart
    rw [← tokens_eq, List.pairwise_map] at apart
    exact apart

namespace Spaced

variable {lexemes : List Lexeme} {first last lexeme : Lexeme}

theorem sublist {part : List Lexeme} (spaced : Spaced lexemes) (within : part.Sublist lexemes) :
    Spaced part :=
  ⟨fun lexeme member => spaced.ordered lexeme (within.subset member), spaced.apart.sublist within⟩

theorem first_start_le (spaced : Spaced lexemes) (starts : lexemes.head? = some first)
    (member : lexeme ∈ lexemes) : first.start ≤ lexeme.start := by
  obtain ⟨rest, rfl⟩ := List.head?_eq_some_iff.1 starts
  rcases List.mem_cons.1 member with rfl | later
  · exact Position.le_refl _
  · exact Position.le_trans (spaced.ordered first List.mem_cons_self)
      ((List.pairwise_cons.1 spaced.apart).1 lexeme later)

theorem stop_le_last (spaced : Spaced lexemes) (ends : lexemes.getLast? = some last)
    (member : lexeme ∈ lexemes) : lexeme.stop ≤ last.stop := by
  obtain ⟨earlier, rfl⟩ := List.getLast?_eq_some_iff.1 ends
  rcases List.mem_append.1 member with inside | same
  · exact Position.le_trans
      ((List.pairwise_append.1 spaced.apart).2.2 lexeme inside last List.mem_cons_self)
      (spaced.ordered last (List.mem_append_right _ List.mem_cons_self))
  · rw [List.mem_singleton.1 same]
    exact Position.le_refl _

theorem first_start_le_last_stop (spaced : Spaced lexemes) (starts : lexemes.head? = some first)
    (ends : lexemes.getLast? = some last) : first.start ≤ last.stop :=
  Position.le_trans (spaced.ordered first (List.mem_of_head? starts))
    (spaced.stop_le_last ends (List.mem_of_head? starts))

end Spaced

end Lexeme

end CellSyntax
