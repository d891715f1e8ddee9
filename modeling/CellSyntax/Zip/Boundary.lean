/-
**Where the window of a node ends.**

The tokens of a cell come in the order of their starts, so the first one that starts at or after a
position is found by halving. The search is the usual one on any list: it looks at the item in the
middle and goes on with one of the halves. Whatever the order of the tokens is, it cuts a window
into a part before the cut and a part from the cut on; if they are in order, the cut is where the
tokens stop to start before the position.

* `partitionPoint_append`: on items of which the first pass a test and the others fail it, the
  search finds the first that fails;
* `partitionPoint_le_length`: on any items, the search ends within the list;
* `beforeLead_append_fromLead`: the two parts of a window make up the window;
* `StartOrdered.beforeLead_eq`, `StartOrdered.fromLead_eq`: in a window that is ordered by starts,
  the first part is the tokens that start before the position.
-/

import CellSyntax.Token

namespace CellSyntax

/-! ### The search -/

/-- How many items pass `holds` before the first that fails it, found by halving the list at most
`steps` times. -/
def bisectBy {Item : Type} (holds : Item → Bool) : (steps : Nat) → List Item → Nat
  | 0, _ => 0
  | steps + 1, items =>
    let half := items.length / 2
    if half = 0 then items.countP holds
    else if items[half]?.any holds then half + bisectBy holds steps (items.drop half)
    else bisectBy holds steps (items.take (items.length - half))

/-- How many items pass `holds` before the first that fails it, found by halving. -/
def partitionPoint {Item : Type} (holds : Item → Bool) (items : List Item) : Nat :=
  bisectBy holds items.length items

section Search

variable {Item : Type} {holds : Item → Bool}

theorem bisectBy_append {steps : Nat} {passing failing : List Item}
    (enough : passing.length + failing.length ≤ steps)
    (pass : ∀ item ∈ passing, holds item = true) (fail : ∀ item ∈ failing, ¬ holds item = true) :
    bisectBy holds steps (passing ++ failing) = passing.length := by
  induction steps generalizing passing failing with
  | zero =>
    have none : passing = [] := List.length_eq_zero_iff.1 (by omega)
    rw [none]
    rfl
  | succ steps ih =>
    simp only [bisectBy, List.length_append]
    split
    · rw [List.countP_append, List.countP_eq_length.2 pass, List.countP_eq_zero.2 fail]
      rfl
    · rename_i some
      generalize half_eq : (passing.length + failing.length) / 2 = half at *
      by_cases inside : half < passing.length
      · have middle : (passing ++ failing)[half]?.any holds = true := by
          rw [List.getElem?_append_left inside, List.getElem?_eq_getElem inside]
          exact pass _ (List.getElem_mem inside)
        rw [if_pos middle, List.drop_append_of_le_length (Nat.le_of_lt inside), ih]
        · rw [List.length_drop]
          omega
        · rw [List.length_drop]
          omega
        · exact fun item member => pass item (List.mem_of_mem_drop member)
        · exact fail
      · have bound : half - passing.length < failing.length := by omega
        have middle : ¬ (passing ++ failing)[half]?.any holds = true := by
          rw [List.getElem?_append_right (by omega), List.getElem?_eq_getElem bound]
          exact fail _ (List.getElem_mem bound)
        rw [if_neg middle, List.take_append, List.take_of_length_le (by omega), ih]
        · rw [List.length_take]
          omega
        · exact pass
        · exact fun item member => fail item (List.mem_of_mem_take member)

theorem partitionPoint_append {passing failing : List Item}
    (pass : ∀ item ∈ passing, holds item = true) (fail : ∀ item ∈ failing, ¬ holds item = true) :
    partitionPoint holds (passing ++ failing) = passing.length :=
  bisectBy_append (Nat.le_of_eq List.length_append.symm) pass fail

theorem bisectBy_le_length (holds : Item → Bool) (steps : Nat) (items : List Item) :
    bisectBy holds steps items ≤ items.length := by
  induction steps generalizing items with
  | zero => exact Nat.zero_le _
  | succ steps ih =>
    simp only [bisectBy]
    split
    · exact List.countP_le_length
    · split
      · have behind := ih (items.drop (items.length / 2))
        rw [List.length_drop] at behind
        omega
      · have ahead := ih (items.take (items.length - items.length / 2))
        rw [List.length_take] at ahead
        omega

/-- The search ends within the list, whatever the order of the items is. -/
theorem partitionPoint_le_length (holds : Item → Bool) (items : List Item) :
    partitionPoint holds items ≤ items.length :=
  bisectBy_le_length holds items.length items

end Search

/-! ### The two parts of a window -/

/-- The tokens of a window before the place where the search for `position` cuts it. -/
def beforeLead (position : Position) (window : List Lexeme) : List Lexeme :=
  window.take (partitionPoint (Lexeme.startsBefore position) window)

/-- The tokens of a window from the place on where the search for `position` cuts it. -/
def fromLead (position : Position) (window : List Lexeme) : List Lexeme :=
  window.drop (partitionPoint (Lexeme.startsBefore position) window)

theorem beforeLead_append_fromLead (position : Position) (window : List Lexeme) :
    beforeLead position window ++ fromLead position window = window :=
  List.take_append_drop _ _

/-- The lexemes come in the order of their starts. -/
def StartOrdered (window : List Lexeme) : Prop :=
  window.Pairwise fun first second => first.start ≤ second.start

/-- Once a token does not start before a position, no later one does. -/
theorem StartOrdered.dropWhile_fail {position : Position} {window : List Lexeme}
    (ordered : StartOrdered window) :
    ∀ lexeme ∈ window.dropWhile (Lexeme.startsBefore position),
      ¬ Lexeme.startsBefore position lexeme = true := by
  intro lexeme member
  cases found : window.dropWhile (Lexeme.startsBefore position) with
  | nil =>
    rw [found] at member
    cases member
  | cons first later =>
    have sorted : StartOrdered (first :: later) :=
      found ▸ ordered.sublist (List.dropWhile_sublist _)
    have firstFails : ¬ first.start < position := by
      have stop := List.head?_dropWhile_not (Lexeme.startsBefore position) window
      rw [found] at stop
      simpa [Lexeme.startsBefore] using stop
    have reached : position ≤ first.start := by
      rw [Position.lt_iff_not_le] at firstFails
      exact Classical.not_not.1 firstFails
    have after : first.start ≤ lexeme.start := by
      rw [found] at member
      rcases List.mem_cons.1 member with rfl | inside
      · exact Position.le_refl _
      · exact (List.pairwise_cons.1 sorted).1 lexeme inside
    simp only [Lexeme.startsBefore, decide_eq_true_eq, Position.lt_iff_not_le]
    exact fun earlier => earlier (Position.le_trans reached after)

theorem StartOrdered.partitionPoint_eq {position : Position} {window : List Lexeme}
    (ordered : StartOrdered window) :
    partitionPoint (Lexeme.startsBefore position) window =
      (window.takeWhile (Lexeme.startsBefore position)).length := by
  have passing : ∀ lexeme ∈ window.takeWhile (Lexeme.startsBefore position),
      Lexeme.startsBefore position lexeme = true :=
    List.all_eq_true.1 List.all_takeWhile
  have search := partitionPoint_append passing ordered.dropWhile_fail
  rwa [List.takeWhile_append_dropWhile] at search

theorem StartOrdered.beforeLead_eq {position : Position} {window : List Lexeme}
    (ordered : StartOrdered window) :
    beforeLead position window = window.takeWhile (Lexeme.startsBefore position) := by
  have parts := List.takeWhile_append_dropWhile (p := Lexeme.startsBefore position) (l := window)
  rw [beforeLead, ordered.partitionPoint_eq]
  exact (congrArg (List.take _) parts).symm.trans List.take_left

theorem StartOrdered.fromLead_eq {position : Position} {window : List Lexeme}
    (ordered : StartOrdered window) :
    fromLead position window = window.dropWhile (Lexeme.startsBefore position) := by
  have parts := List.takeWhile_append_dropWhile (p := Lexeme.startsBefore position) (l := window)
  rw [fromLead, ordered.partitionPoint_eq]
  exact (congrArg (List.drop _) parts).symm.trans List.drop_left

end CellSyntax
