/-
**Tokens and trees without what was put in.**

Of the tokens of a cell some are given by the tokenizer and others were put in. Sifting a run of
tokens keeps the given ones, each with the number that it has among them; sifting a tree keeps its
nodes and takes the other tokens out of them. Cutting a run at a position cuts the sifted one there
too, and as long as what was put in is no bracket, a scan goes through the sifted run as through the
whole one.

* `Lexeme.sift_sequence`: sifting a sequence gives that of the given tokens;
* `Lexeme.beforeLead_sift`, `Lexeme.fromLead_sift`: cutting a run and sifting it;
* `BracketTable.scan_sift`, `owesCloser_rank`: brackets in a sifted run;
* `Node.at?_sift`: sifting a tree keeps its nodes where they are;
* `Element.lexemesOf_siftAll`: the tokens of a sifted tree.
-/

import CellSyntax.Proofs.Token.InOrder
import CellSyntax.Proofs.Zip.Windows
import Mathlib.Data.Nat.Count

namespace CellSyntax

variable {given : Nat → Bool}

/-! ### Numbers -/

/-- The number that a given token has among the given ones. -/
def rank (given : Nat → Bool) (number : Nat) : Nat := Nat.count (given · = true) number

theorem rank_succ_given {number : Nat} (isGiven : given number = true) :
    rank given (number + 1) = rank given number + 1 := by
  rw [rank, Nat.count_succ, if_pos isGiven]
  rfl

theorem rank_succ_other {number : Nat} (other : given number = false) :
    rank given (number + 1) = rank given number := by
  rw [rank, Nat.count_succ, if_neg (by simp [other])]
  rfl

/-- **A given token keeps its place** among all numbers. -/
theorem rank_le_rank_iff {number other : Nat} (isGiven : given other = true) :
    rank given number ≤ rank given other ↔ number ≤ other := by
  refine ⟨fun upTo => Nat.le_of_not_lt fun less => ?_, fun upTo => Nat.count_monotone _ upTo⟩
  exact Nat.not_lt_of_le upTo (Nat.count_strict_mono isGiven less)

/-! ### Sifting -/

namespace Lexeme

/-- The token with its number among the given ones. -/
def renumber (given : Nat → Bool) (lexeme : Lexeme) : Lexeme :=
  ⟨rank given lexeme.number, lexeme.token⟩

/-- **The given tokens of a run**, numbered without the others. -/
def sift (given : Nat → Bool) (run : List Lexeme) : List Lexeme :=
  (run.filter fun lexeme => given lexeme.number).map (renumber given)

variable {lexeme first : Lexeme} {run rest : List Lexeme} {position : Position}

@[simp] theorem renumber_token (given : Nat → Bool) (lexeme : Lexeme) :
    (lexeme.renumber given).token = lexeme.token := rfl

@[simp] theorem renumber_start (given : Nat → Bool) (lexeme : Lexeme) :
    (lexeme.renumber given).start = lexeme.start := rfl

@[simp] theorem renumber_stop (given : Nat → Bool) (lexeme : Lexeme) :
    (lexeme.renumber given).stop = lexeme.stop := rfl

@[simp] theorem sift_nil (given : Nat → Bool) : sift given [] = [] := rfl

theorem sift_append (given : Nat → Bool) (first second : List Lexeme) :
    sift given (first ++ second) = sift given first ++ sift given second := by
  rw [sift, List.filter_append, List.map_append]
  rfl

theorem sift_cons_given (isGiven : given lexeme.number = true) (rest : List Lexeme) :
    sift given (lexeme :: rest) = lexeme.renumber given :: sift given rest := by
  rw [sift, List.filter_cons, if_pos isGiven]
  rfl

theorem sift_cons_other (other : given lexeme.number = false) (rest : List Lexeme) :
    sift given (lexeme :: rest) = sift given rest := by
  rw [sift, List.filter_cons, if_neg (by simp [other])]
  rfl

/-- A token of the sifted run is a given one of the whole run. -/
theorem mem_sift : lexeme ∈ sift given run ↔
    ∃ whole ∈ run, given whole.number = true ∧ whole.renumber given = lexeme := by
  rw [sift, List.mem_map]
  simp only [List.mem_filter, and_assoc]

theorem sift_sequenceFrom {marked : List (Token × Bool)} {first : Nat}
    (marks : ∀ place, given (first + place) = (marked[place]?).any Prod.snd) :
    sift given (sequenceFrom first (marked.map Prod.fst)) =
      sequenceFrom (rank given first) ((marked.filter Prod.snd).map Prod.fst) := by
  induction marked generalizing first with
  | nil => rfl
  | cons head rest ih =>
    have here : given first = head.2 := marks 0
    have later := ih fun place => by
      rw [Nat.add_assoc, Nat.add_comm 1 place]
      exact marks (place + 1)
    rw [List.map_cons, sequenceFrom]
    cases mark : head.2 with
    | true =>
      rw [mark] at here
      rw [sift_cons_given here, later, List.filter_cons_of_pos mark, rank_succ_given here]
      rfl
    | false =>
      rw [mark] at here
      rw [sift_cons_other here, later, List.filter_cons_of_neg (by simp [mark]),
        rank_succ_other here]

/-- **Sifting a sequence gives the sequence of the given tokens.** -/
theorem sift_sequence (marked : List (Token × Bool)) :
    sift (fun number => (marked[number]?).any Prod.snd) (sequence (marked.map Prod.fst)) =
      sequence ((marked.filter Prod.snd).map Prod.fst) := by
  have start : rank (fun number => (marked[number]?).any Prod.snd) 0 = 0 := Nat.count_zero _
  have from_ := @sift_sequenceFrom (fun number => (marked[number]?).any Prod.snd) marked 0
    fun place => by rw [Nat.zero_add]
  rw [start] at from_
  exact from_

theorem Spaced.sift (spaced : Spaced run) (given : Nat → Bool) : Spaced (sift given run) := by
  have kept := spaced.sublist (List.filter_sublist (p := fun lexeme => given lexeme.number))
  refine ⟨fun lexeme member => ?_, List.pairwise_map.2 kept.apart⟩
  obtain ⟨whole, isWhole, -, rfl⟩ := mem_sift.1 member
  exact spaced.ordered whole isWhole

theorem Spaced.startOrdered (spaced : Spaced run) : StartOrdered run := by
  refine spaced.apart.imp_of_mem fun {first second} isFirst _ apart => ?_
  exact Position.le_trans (spaced.ordered first isFirst) apart

/-! ### Cutting a run -/

theorem sift_parts (given : Nat → Bool) (position : Position) (run : List Lexeme) :
    sift given (beforeLead position run) ++ sift given (fromLead position run) =
      sift given run := by
  rw [← sift_append, beforeLead_append_fromLead]

/-- The search for a position stops in the sifted run where it stops in the whole one. -/
theorem partitionPoint_sift (ordered : StartOrdered run) (position : Position) :
    partitionPoint (startsBefore position) (sift given run) =
      (sift given (beforeLead position run)).length := by
  rw [← sift_parts given position, partitionPoint_append]
  · intro lexeme member
    obtain ⟨whole, inside, -, rfl⟩ := mem_sift.1 member
    exact decide_eq_true (ordered.mem_beforeLead_iff.1 inside).2
  · intro lexeme member
    obtain ⟨whole, inside, -, rfl⟩ := mem_sift.1 member
    have reached := (ordered.mem_fromLead_iff.1 inside).2
    exact fun before => Position.lt_iff_not_le.1 (of_decide_eq_true before) reached

theorem beforeLead_sift (ordered : StartOrdered run) (position : Position) :
    beforeLead position (sift given run) = sift given (beforeLead position run) := by
  rw [beforeLead, partitionPoint_sift ordered, ← sift_parts given position run]
  exact List.take_left

theorem fromLead_sift (ordered : StartOrdered run) (position : Position) :
    fromLead position (sift given run) = sift given (fromLead position run) := by
  rw [fromLead, partitionPoint_sift ordered, ← sift_parts given position run]
  exact List.drop_left

/-- The numbers of a run go up by one. -/
def Consecutive (run : List Lexeme) : Prop :=
  run.IsChain fun first second => second.number = first.number + 1

theorem consecutive_sequence (tokens : List Token) : Consecutive (sequence tokens) := by
  have from_ (first : Nat) : Consecutive (sequenceFrom first tokens) := by
    induction tokens generalizing first with
    | nil => exact .nil
    | cons token rest ih =>
      refine List.isChain_cons.2 ⟨fun next isNext => ?_, ih (first + 1)⟩
      cases rest with
      | nil => cases isNext
      | cons second others =>
        cases isNext
        rfl
  exact from_ 0

/-- The first token of a run has the lowest number. -/
theorem Consecutive.head_le (consecutive : Consecutive (first :: rest)) :
    ∀ lexeme ∈ first :: rest, first.number ≤ lexeme.number := by
  induction rest generalizing first with
  | nil =>
    intro lexeme member
    rw [List.mem_singleton.1 member]
  | cons second rest ih =>
    obtain ⟨next, later⟩ := List.isChain_cons_cons.1 consecutive
    refine List.forall_mem_cons.2 ⟨Nat.le_refl _, fun lexeme member => ?_⟩
    have upTo := ih later lexeme member
    omega

/-- What comes before the first given token has no rank of its own. -/
theorem number_of_head?_sift (consecutive : Consecutive (first :: rest))
    (starts : (sift given (first :: rest)).head? = some lexeme) :
    lexeme.number = rank given first.number := by
  induction rest generalizing first with
  | nil =>
    cases isGiven : given first.number with
    | true =>
      rw [sift_cons_given isGiven] at starts
      cases starts
      rfl
    | false =>
      rw [sift_cons_other isGiven] at starts
      cases starts
  | cons second rest ih =>
    obtain ⟨next, later⟩ := List.isChain_cons_cons.1 consecutive
    cases isGiven : given first.number with
    | true =>
      rw [sift_cons_given isGiven] at starts
      cases starts
      rfl
    | false =>
      rw [sift_cons_other isGiven] at starts
      rw [ih later starts, next, rank_succ_other isGiven]

end Lexeme

/-! ### Brackets -/

theorem owesCloser_of_le {first second : Nat} {opened : List OpenBracket} (upTo : first ≤ second)
    (owes : owesCloser second opened = true) : owesCloser first opened = true := by
  cases opened with
  | nil => cases owes
  | cons innermost outer => exact decide_eq_true (Nat.le_trans upTo (of_decide_eq_true owes))

/-- The open bracket with the number of its opener among the given tokens. -/
def OpenBracket.renumber (given : Nat → Bool) (bracket : OpenBracket) : OpenBracket :=
  ⟨bracket.closer, rank given bracket.opener⟩

/-- Open brackets that given tokens opened. -/
def OpenedByGiven (given : Nat → Bool) (opened : List OpenBracket) : Prop :=
  ∀ bracket ∈ opened, given bracket.opener = true

/-- **A bracket was opened in the sifted run exactly if it was opened in the whole one.** -/
theorem owesCloser_rank {opened : List OpenBracket} (openers : OpenedByGiven given opened)
    (first : Nat) : owesCloser (rank given first) (opened.map (.renumber given)) =
      owesCloser first opened := by
  cases opened with
  | nil => rfl
  | cons innermost outer =>
    exact decide_eq_decide.2 (rank_le_rank_iff (openers innermost List.mem_cons_self))

namespace BracketTable

variable {table : BracketTable} {lexeme : Lexeme} {run : List Lexeme} {opened after : List OpenBracket}

/-- What was put in is no bracket. -/
def Silent (table : BracketTable) (given : Nat → Bool) (run : List Lexeme) : Prop :=
  ∀ lexeme ∈ run, given lexeme.number = false → table.role lexeme.token.literal = none

theorem step_of_role_eq_none (none : table.role lexeme.token.literal = none)
    (opened : List OpenBracket) : table.step opened lexeme = .ok opened := by
  simp only [step, none]

theorem step_renumber (table : BracketTable) (opened : List OpenBracket) (lexeme : Lexeme) :
    table.step (opened.map (.renumber given)) (lexeme.renumber given) =
      (table.step opened lexeme).map (List.map (.renumber given)) := by
  unfold step
  rw [Lexeme.renumber_token, Lexeme.renumber_start]
  cases role : table.role lexeme.token.literal with
  | none => rfl
  | some does =>
    cases does with
    | opens closer => rfl
    | closes found =>
      cases opened with
      | nil => rfl
      | cons innermost outer =>
        by_cases same : innermost.closer = found
        · simp [OpenBracket.renumber, same, Except.map]
        · simp [OpenBracket.renumber, same, Except.map]

/-- **A scan goes through the sifted run as through the whole one.** -/
theorem scan_sift (silent : table.Silent given run) (opened : List OpenBracket) :
    table.scan (opened.map (.renumber given)) (Lexeme.sift given run) =
      (table.scan opened run).map (List.map (.renumber given)) := by
  induction run generalizing opened with
  | nil => rfl
  | cons lexeme rest ih =>
    have ⟨here, later⟩ := List.forall_mem_cons.1 silent
    cases isGiven : given lexeme.number with
    | true =>
      rw [Lexeme.sift_cons_given isGiven, scan, scan, step_renumber]
      cases table.step opened lexeme with
      | error mismatch => rfl
      | ok opened => exact ih later opened
    | false =>
      rw [Lexeme.sift_cons_other isGiven, scan, step_of_role_eq_none (here isGiven)]
      exact ih later opened

theorem step_openers (silent : given lexeme.number = false → table.role lexeme.token.literal = none)
    (openers : OpenedByGiven given opened) (stepped : table.step opened lexeme = .ok after) :
    OpenedByGiven given after := by
  unfold step at stepped
  split at stepped
  · cases stepped
    exact openers
  · rename_i opens
    cases stepped
    refine List.forall_mem_cons.2 ⟨?_, openers⟩
    by_contra other
    rw [silent (Bool.eq_false_of_not_eq_true other)] at opens
    cases opens
  · cases stepped
  · split at stepped
    · cases stepped
      exact (List.forall_mem_cons.1 openers).2
    · cases stepped

/-- **What is open was opened by given tokens.** -/
theorem scan_openers (silent : table.Silent given run) (openers : OpenedByGiven given opened)
    (scanned : table.scan opened run = .ok after) : OpenedByGiven given after := by
  induction run generalizing opened with
  | nil =>
    cases scanned
    exact openers
  | cons lexeme rest ih =>
    have ⟨here, later⟩ := List.forall_mem_cons.1 silent
    rw [scan] at scanned
    split at scanned
    · cases scanned
    · rename_i stepped
      exact ih later (step_openers here openers stepped) scanned

end BracketTable

/-! ### Trees -/

namespace Element

mutual

/-- An element without the tokens that were put in; nothing is left of such a token. -/
def sift (given : Nat → Bool) : Element → List Element
  | .token lexeme => if given lexeme.number then [.token (lexeme.renumber given)] else []
  | .node kind _ content => [.node kind (hull (siftAll given content)) (siftAll given content)]

/-- A content without the tokens that were put in. -/
def siftAll (given : Nat → Bool) : List Element → List Element
  | [] => []
  | element :: rest => element.sift given ++ siftAll given rest

end

theorem siftAll_append (given : Nat → Bool) (first second : List Element) :
    siftAll given (first ++ second) = siftAll given first ++ siftAll given second := by
  induction first with
  | nil => rfl
  | cons element rest ih => rw [List.cons_append, siftAll, ih, siftAll, List.append_assoc]

theorem siftAll_tokens (given : Nat → Bool) (lexemes : List Lexeme) :
    siftAll given (lexemes.map .token) = (Lexeme.sift given lexemes).map .token := by
  induction lexemes with
  | nil => rfl
  | cons lexeme rest ih =>
    rw [List.map_cons, siftAll, sift, ih]
    cases isGiven : given lexeme.number with
    | true =>
      rw [Lexeme.sift_cons_given isGiven]
      rfl
    | false =>
      rw [Lexeme.sift_cons_other isGiven]
      rfl

mutual

theorem lexemesOf_sift (given : Nat → Bool) : ∀ element : Element,
    lexemesOf (element.sift given) = Lexeme.sift given element.lexemes
  | .token lexeme => by
    rw [sift, lexemes]
    cases isGiven : given lexeme.number with
    | true =>
      rw [Lexeme.sift_cons_given isGiven]
      rfl
    | false =>
      rw [Lexeme.sift_cons_other isGiven]
      rfl
  | .node kind range content => by
    rw [sift, lexemes, lexemesOf, lexemes, lexemesOf, List.append_nil,
      lexemesOf_siftAll given content]

/-- **The tokens of a sifted content** are those that are left of its tokens. -/
theorem lexemesOf_siftAll (given : Nat → Bool) : ∀ content : List Element,
    lexemesOf (siftAll given content) = Lexeme.sift given (lexemesOf content)
  | [] => rfl
  | element :: rest => by
    rw [siftAll, lexemesOf_append, lexemesOf_sift given element, lexemesOf_siftAll given rest,
      lexemesOf, Lexeme.sift_append]

end

end Element

namespace Node

/-- **A node without the tokens that were put in**, in the nodes below it too; its range is that of
what is left. -/
def sift (given : Nat → Bool) (node : Node) : Node :=
  .ofContent node.kind (Element.siftAll given node.content)

theorem children_sift (given : Nat → Bool) (node : Node) :
    (node.sift given).children = node.children.map (sift given) := by
  have content (elements : List Element) : (Element.siftAll given elements).filterMap Element.node? =
      (elements.filterMap Element.node?).map (sift given) := by
    induction elements with
    | nil => rfl
    | cons element rest ih =>
      rw [Element.siftAll, List.filterMap_append, ih]
      cases element with
      | node kind range content => rfl
      | token lexeme =>
        rw [Element.sift]
        cases given lexeme.number <;> rfl
  exact content node.content

/-- **Sifting a tree keeps its nodes where they are.** -/
theorem at?_sift (given : Nat → Bool) (node : Node) (path : Path) :
    (node.sift given).at? path = (node.at? path).map (sift given) := by
  induction path generalizing node with
  | nil => rfl
  | cons index path ih =>
    rw [at?, at?, child?, children_sift, List.getElem?_map, ← child?]
    cases node.child? index with
    | none => rfl
    | some child => exact ih child

end Node

/-- The tree of a cell without the tokens that were put in. -/
def CellTree.sift (given : Nat → Bool) : CellTree → CellTree
  | .empty => .empty
  | .tree root => .tree (root.sift given)

/-- A portion without the tokens that were put in. -/
def Portion.sift (given : Nat → Bool) (portion : Portion) : Portion :=
  ⟨Element.siftAll given portion.content, Lexeme.sift given portion.rest,
    portion.opened.map (.renumber given)⟩

end CellSyntax
