/-
**Zipping without what was put in.**

Take two zips with one syntax tree, one over all tokens and one over the given tokens alone. If what
was put in is no bracket and goes over no line break, and if the window of every leaf of the anchored
part begins with a given token at its anchor, then at every node the second zip takes what is left of
what the first one takes. The two differ in the numbers of tokens and in the lines that nodes end on.
Numbers only say which brackets a node owes closers for, and that is the same for both. The lines are
the same as well, unless the node owes a closer when its window ends; then every node around it owes
that closer too and the lines are never looked at.

* `Zip.takeTrailing_sift`: the tokens that trail a node;
* `Zip.closeNode_sift`, `Zip.zipChildren_sift`, `Zip.zipNode_sift`: what a node and siblings take;
* `Zip.zipModule_sift`: the whole zip, with its failures.
-/

import CellSyntax.Proofs.Tree.Span
import CellSyntax.Proofs.Zip.Sift

namespace CellSyntax

open Lexeme (sift Spaced Consecutive)

/-! ### Runs -/

/-- **A run of tokens that some were put in**: these are no brackets and each lies on one line. -/
structure Lexeme.Mixed (table : BracketTable) (given : Nat → Bool) (run : List Lexeme) : Prop where
  spaced : Spaced run
  consecutive : Consecutive run
  silent : table.Silent given run
  oneLine : ∀ lexeme ∈ run, given lexeme.number = false → lexeme.start.line = lexeme.stop.line

namespace Lexeme

variable {table : BracketTable} {given : Nat → Bool} {run part : List Lexeme} {first last : Lexeme}

theorem Mixed.of_inside (mixed : Mixed table given run) (inside : part <:+: run) :
    Mixed table given part where
  spaced := mixed.spaced.sublist inside.sublist
  consecutive := mixed.consecutive.infix inside
  silent := fun lexeme member => mixed.silent lexeme (inside.subset member)
  oneLine := fun lexeme member => mixed.oneLine lexeme (inside.subset member)

/-- The line that the last token of a run ends on. -/
def lastLine (run : List Lexeme) : Option Nat := run.getLast?.map fun lexeme => lexeme.stop.line

theorem lastLine_concat (run : List Lexeme) (last : Lexeme) :
    lastLine (run ++ [last]) = some last.stop.line := by
  rw [lastLine, List.getLast?_concat]
  rfl

theorem lastLine_append (run : List Lexeme) (some : part ≠ []) :
    lastLine (run ++ part) = lastLine part := by
  rw [lastLine, List.getLast?_append_of_ne_nil run some]
  rfl

/-- No token that comes after a run starts on an earlier line than the run ends on. -/
theorem Spaced.lastLine_le {line : Nat} {lexeme : Lexeme} (spaced : Spaced (run ++ part))
    (ends : lastLine run = some line) (member : lexeme ∈ part) : line ≤ lexeme.start.line := by
  obtain ⟨last, isLast, rfl⟩ := Option.map_eq_some_iff.1 ends
  have apart := (List.pairwise_append.1 spaced.apart).2.2 last (List.mem_of_getLast? isLast)
    lexeme member
  rw [Position.le_def] at apart
  omega

end Lexeme

open Lexeme (lastLine Mixed)

/-- The line that a content ends on, by its tokens. -/
theorem Element.lastLine_eq {content : List Element} {last : Element}
    (formed : ∀ element ∈ content, element.Formed) (spaced : Spaced (lexemesOf content))
    (ends : content.getLast? = some last) :
    lastLine (lexemesOf content) = some last.range.stop.line := by
  have member := List.mem_of_getLast? ends
  obtain ⟨_, final, _, isFinal, range⟩ := (formed last member).range_spans
    (spaced.sublist (lexemes_infix_of_mem member).sublist)
  rw [lastLine, getLast?_lexemesOf ends isFinal, range]
  rfl

namespace Zip

variable {table : BracketTable} {given : Nat → Bool}

/-! ### The tokens that trail a node -/

section Trailing

variable {first line line' : Nat} {opened between after : List OpenBracket} {lexeme : Lexeme}
  {before window rest taken later left : List Lexeme}

/-- **A token trails a node** that ends on `line` so far: the node owes a closer, or the token is on
that line and no bracket. -/
def Trails (table : BracketTable) (first line : Nat) (opened : List OpenBracket)
    (lexeme : Lexeme) : Prop :=
  owesCloser first opened = true ∨
    lexeme.start.line = line ∧ table.role lexeme.token.literal = none

/-- The first token of a window trails the node, or nothing does. -/
theorem takeTrailing_cons_ok
    (done : takeTrailing table first line opened (lexeme :: rest) = .ok (taken, left, after)) :
    (∃ between later, Trails table first line opened lexeme ∧
      table.step opened lexeme = .ok between ∧
      takeTrailing table first lexeme.stop.line between rest = .ok (later, left, after) ∧
      taken = lexeme :: later) ∨
    ¬ Trails table first line opened lexeme ∧ taken = [] ∧ left = lexeme :: rest ∧
      after = opened := by
  unfold takeTrailing at done
  split at done
  · rename_i trails
    split at done
    · cases done
    · rename_i between stepped
      split at done
      · cases done
      · rename_i later left after rested
        cases done
        exact Or.inl ⟨between, later, trails, stepped, rested, rfl⟩
  · rename_i stops
    cases done
    exact Or.inr ⟨stops, rfl, rfl, rfl⟩

theorem takeTrailing_cons_of_ok (trails : Trails table first line opened lexeme)
    (stepped : table.step opened lexeme = .ok between)
    (rested : takeTrailing table first lexeme.stop.line between rest = .ok (later, left, after)) :
    takeTrailing table first line opened (lexeme :: rest) = .ok (lexeme :: later, left, after) := by
  unfold Trails at trails
  rw [takeTrailing, if_pos trails, stepped]
  simp only
  rw [show lexeme.token.range.stop.line = lexeme.stop.line from rfl, rested]

/-- Nothing trails a node that the first token of its window does not trail. -/
theorem takeTrailing_stop
    (stops : ∀ lexeme, window.head? = some lexeme → ¬ Trails table first line opened lexeme) :
    takeTrailing table first line opened window = .ok ([], window, opened) := by
  cases window with
  | nil => rfl
  | cons lexeme rest =>
    have stopsHere := stops lexeme rfl
    unfold Trails at stopsHere
    rw [takeTrailing, if_neg stopsHere]

/-- **A given token trails a node in both zips**, if the node ends on one line in both or owes a
closer. -/
theorem Trails.renumber_iff (openers : OpenedByGiven given opened)
    (agrees : owesCloser first opened = true ∨ line = line') :
    Trails table (rank given first) line' (opened.map (.renumber given)) (lexeme.renumber given) ↔
      Trails table first line opened lexeme := by
  unfold Trails
  rw [owesCloser_rank openers, Lexeme.renumber_start, Lexeme.renumber_token]
  rcases agrees with owes | rfl
  · exact iff_of_true (Or.inl owes) (Or.inl owes)
  · exact Iff.rfl

/-- **Where one zip stops, the other stops as well.** If the token there was put in then it starts
below the node, and so do the given tokens after it. -/
theorem takeTrailing_sift_stop (mixed : Mixed table given (before ++ lexeme :: rest))
    (openers : OpenedByGiven given opened) (ends : lastLine before = some line)
    (stops : ¬ Trails table first line opened lexeme) :
    takeTrailing table (rank given first) line (opened.map (.renumber given))
        (sift given (lexeme :: rest)) =
      .ok ([], sift given (lexeme :: rest), opened.map (.renumber given)) := by
  have inside : lexeme ∈ before ++ lexeme :: rest :=
    List.mem_append_right _ List.mem_cons_self
  refine takeTrailing_stop fun next isNext => ?_
  cases isGiven : given lexeme.number with
  | true =>
    rw [Lexeme.sift_cons_given isGiven] at isNext
    cases isNext
    rwa [Trails.renumber_iff openers (Or.inr rfl)]
  | false =>
    rw [Lexeme.sift_cons_other isGiven] at isNext
    obtain ⟨other, isOther, -, rfl⟩ := Lexeme.mem_sift.1 (List.mem_of_head? isNext)
    rw [Trails.renumber_iff openers (Or.inr rfl)]
    obtain ⟨settled, offLine⟩ := not_or.1 stops
    rintro (owes | ⟨onLine, -⟩)
    · exact settled owes
    · have below : lexeme.start.line ≠ line := fun same =>
        offLine ⟨same, mixed.silent lexeme inside isGiven⟩
      have reached := mixed.spaced.lastLine_le ends List.mem_cons_self
      have sameLine := mixed.oneLine lexeme inside isGiven
      have spaced := mixed.spaced
      rw [List.append_cons] at spaced
      have beyond := spaced.lastLine_le (Lexeme.lastLine_concat before lexeme) isOther
      omega

/-- **What trails a node without what was put in.** If the node owes no closer then the lines that it
ends on in the two zips are the same. -/
theorem takeTrailing_sift (mixed : Mixed table given (before ++ window))
    (openers : OpenedByGiven given opened) (ends : lastLine before = some line)
    (ends' : lastLine (sift given before) = some line')
    (agrees : owesCloser first opened = true ∨ line = line')
    (done : takeTrailing table first line opened window = .ok (taken, left, after)) :
    takeTrailing table (rank given first) line' (opened.map (.renumber given)) (sift given window) =
        .ok (sift given taken, sift given left, after.map (.renumber given)) ∧
      (owesCloser first after = true ∨
        lastLine (before ++ taken) = lastLine (sift given (before ++ taken))) := by
  induction window generalizing before line line' opened taken with
  | nil =>
    cases done
    refine ⟨rfl, agrees.imp_right fun same => ?_⟩
    rw [List.append_nil, ends, ends', same]
  | cons lexeme rest ih =>
    have inside : lexeme ∈ before ++ lexeme :: rest :=
      List.mem_append_right _ List.mem_cons_self
    rcases takeTrailing_cons_ok done with
      ⟨between, later, trails, stepped, rested, rfl⟩ | ⟨stops, rfl, rfl, rfl⟩
    · have openers' := BracketTable.step_openers (mixed.silent lexeme inside) openers stepped
      have ends_ := Lexeme.lastLine_concat before lexeme
      rw [List.append_cons] at mixed
      rw [List.append_cons before lexeme later]
      cases isGiven : given lexeme.number with
      | true =>
        have kept : lastLine (sift given (before ++ [lexeme])) = some lexeme.stop.line := by
          rw [Lexeme.sift_append, Lexeme.sift_cons_given isGiven, Lexeme.sift_nil,
            Lexeme.lastLine_concat, Lexeme.renumber_stop]
        obtain ⟨trailing, final⟩ := ih mixed openers' ends_ kept (Or.inr rfl) rested
        have stepped' : table.step (opened.map (.renumber given)) (lexeme.renumber given) =
            .ok (between.map (.renumber given)) := by
          rw [BracketTable.step_renumber, stepped]
          rfl
        refine ⟨?_, final⟩
        rw [Lexeme.sift_cons_given isGiven, Lexeme.sift_cons_given isGiven]
        exact takeTrailing_cons_of_ok ((Trails.renumber_iff openers agrees).2 trails) stepped'
          trailing
      | false =>
        -- The other zip does not see this token; as it lies on one line the last lines stay the same.
        have dropped : lastLine (sift given (before ++ [lexeme])) = some line' := by
          rw [Lexeme.sift_append, Lexeme.sift_cons_other isGiven, Lexeme.sift_nil,
            List.append_nil, ends']
        have silent := mixed.silent lexeme (by simp) isGiven
        have sameLine := mixed.oneLine lexeme (by simp) isGiven
        rw [BracketTable.step_of_role_eq_none silent] at stepped
        cases stepped
        have agrees' : owesCloser first opened = true ∨ lexeme.stop.line = line' := by
          rcases trails with owes | ⟨onLine, -⟩
          · exact Or.inl owes
          · exact agrees.imp_right fun same => sameLine.symm.trans (onLine.trans same)
        rw [Lexeme.sift_cons_other isGiven, Lexeme.sift_cons_other isGiven]
        exact ih mixed openers ends_ dropped agrees' rested
    · have same := agrees.resolve_left fun owes => stops (Or.inl owes)
      refine ⟨same ▸ takeTrailing_sift_stop mixed openers ends stops, Or.inr ?_⟩
      rw [List.append_nil, ends, ends', same]

end Trailing

/-! ### Nodes and siblings -/

/-- **What is known of a portion where the two zips meet again**: a given token is among what was
taken, and the last lines are the same unless a bracket that was opened in the window is open. -/
structure Mirrored (given : Nat → Bool) (window : List Lexeme) (portion : Portion) : Prop where
  owns : sift given (Element.lexemesOf portion.content) ≠ []
  agrees : (∃ lexeme ∈ window, owesCloser lexeme.number portion.opened = true) ∨
    lastLine (Element.lexemesOf portion.content) =
      lastLine (sift given (Element.lexemesOf portion.content))

section Closing

variable {kind : String} {window part rest : List Lexeme} {opened : List OpenBracket}
  {claimed portion : Portion}

theorem Mirrored.lexemes_ne_nil (mirrored : Mirrored given window claimed) :
    Element.lexemesOf claimed.content ≠ [] := by
  intro none
  refine mirrored.owns ?_
  rw [none]
  rfl

/-- What is known of the last part of a portion is known of the whole portion. -/
theorem Mirrored.behind (mirrored : Mirrored given part portion) (inside : part ⊆ window)
    (front : List Element) : Mirrored given window ⟨front ++ portion.content, rest, portion.opened⟩ := by
  refine ⟨?_, ?_⟩
  · rw [Element.lexemesOf_append, Lexeme.sift_append]
    exact List.append_ne_nil_of_right_ne_nil _ mirrored.owns
  · rw [Element.lexemesOf_append, Lexeme.sift_append,
      Lexeme.lastLine_append _ mirrored.lexemes_ne_nil, Lexeme.lastLine_append _ mirrored.owns]
    exact mirrored.agrees.imp_left fun ⟨lexeme, member, owes⟩ => ⟨lexeme, inside member, owes⟩

/-- A window of which something given was taken begins in the sifted run too, with a token that has
the rank of its first one. -/
theorem Mirrored.exists_first {first : Lexeme} (mirrored : Mirrored given (first :: rest) claimed)
    (consecutive : Consecutive (first :: rest))
    (takes : claimed.Takes table (first :: rest) opened) :
    ∃ first' rest', sift given (first :: rest) = first' :: rest' ∧
      first'.number = rank given first.number := by
  obtain ⟨first', rest', starts⟩ : ∃ first' rest',
      sift given (first :: rest) = first' :: rest' := by
    refine List.exists_cons_of_ne_nil fun none => mirrored.owns ?_
    rw [← takes.keeps, Lexeme.sift_append, List.append_eq_nil_iff] at none
    exact none.1
  exact ⟨first', rest', starts,
    Lexeme.number_of_head?_sift consecutive (congrArg List.head? starts)⟩

/-- **Two contents that are closed end on one line**, or the node owes a closer. -/
theorem Mirrored.agrees_of_ends {first : Lexeme} {last last' : Element}
    (mirrored : Mirrored given (first :: rest) claimed) (mixed : Mixed table given (first :: rest))
    (line : lastLine (Element.lexemesOf claimed.content) = some last.range.stop.line)
    (line' : lastLine (sift given (Element.lexemesOf claimed.content)) =
      some last'.range.stop.line) :
    owesCloser first.number claimed.opened = true ∨
      last.range.stop.line = last'.range.stop.line := by
  rcases mirrored.agrees with ⟨lexeme, member, owes⟩ | same
  · exact Or.inl (owesCloser_of_le (mixed.consecutive.head_le lexeme member) owes)
  · rw [line, line'] at same
    exact Or.inr (Option.some.inj same)

/-- What is open after a portion was opened by given tokens. -/
theorem openers_of_takes (mixed : Mixed table given window) (openers : OpenedByGiven given opened)
    (takes : portion.Takes table window opened) : OpenedByGiven given portion.opened := by
  have inside : Element.lexemesOf portion.content <+: window := ⟨_, takes.keeps⟩
  exact BracketTable.scan_openers (mixed.of_inside inside.isInfix).silent openers takes.scans

/-- A node over what was claimed of a window and what trails it. -/
theorem closeNode_of_ok {first : Lexeme} {rest trailing left : List Lexeme} {last : Element}
    {after : List OpenBracket} (starts : window = first :: rest)
    (ends : claimed.content.getLast? = some last)
    (taken : takeTrailing table first.number last.range.stop.line claimed.opened claimed.rest =
      .ok (trailing, left, after)) :
    closeNode table kind window claimed =
      .ok ⟨[(Node.ofContent kind (claimed.content ++ trailing.map .token)).element], left,
        after⟩ := by
  subst starts
  unfold closeNode
  rw [ends]
  simp only
  rw [taken]

/-- **Closing a node without what was put in.** -/
theorem closeNode_sift (mixed : Mixed table given window) (openers : OpenedByGiven given opened)
    (takes : claimed.Takes table window opened)
    (takes' : (claimed.sift given).Takes table (sift given window)
      (opened.map (.renumber given)))
    (mirrored : Mirrored given window claimed)
    (closed : closeNode table kind window claimed = .ok portion) :
    closeNode table kind (sift given window) (claimed.sift given) = .ok (portion.sift given) ∧
      Mirrored given window portion := by
  have lexemes' : Element.lexemesOf (claimed.sift given).content =
      sift given (Element.lexemesOf claimed.content) := Element.lexemesOf_siftAll given _
  rcases closeNode_ok closed with ⟨nothing, -⟩ |
    ⟨first, rest, last, trailing, left, after, rfl, ends, taken, rfl⟩
  · refine absurd ?_ mirrored.lexemes_ne_nil
    rcases nothing with empty | none
    · have none := takes.keeps
      rw [empty, List.append_eq_nil_iff] at none
      exact none.1
    · rw [none]
      rfl
  · have spaced : Spaced (Element.lexemesOf claimed.content) :=
      mixed.spaced.sublist (List.IsPrefix.sublist ⟨_, takes.keeps⟩)
    obtain ⟨first', rest', starts', number⟩ := mirrored.exists_first mixed.consecutive takes
    obtain ⟨last', ends'⟩ : ∃ last', (claimed.sift given).content.getLast? = some last' := by
      rw [← Option.isSome_iff_exists, List.getLast?_isSome]
      intro none
      rw [none] at lexemes'
      exact mirrored.owns lexemes'.symm
    have line := Element.lastLine_eq takes.formed spaced ends
    have line' := Element.lastLine_eq takes'.formed (lexemes' ▸ spaced.sift given) ends'
    rw [lexemes'] at line'
    obtain ⟨trailing', final⟩ := takeTrailing_sift (takes.keeps ▸ mixed)
      (openers_of_takes mixed openers takes) line line' (mirrored.agrees_of_ends mixed line line')
      taken
    rw [← number] at trailing'
    refine ⟨?_, ?_, ?_⟩
    · rw [closeNode_of_ok starts' ends' trailing']
      simp only [Portion.sift, Node.element, Node.ofContent, Element.siftAll, Element.sift,
        Element.siftAll_append, Element.siftAll_tokens, List.append_nil]
    · rw [Element.lexemesOf_closed, Lexeme.sift_append]
      exact List.append_ne_nil_of_left_ne_nil mirrored.owns _
    · rw [Element.lexemesOf_closed]
      exact final.imp_left fun owes => ⟨first, List.mem_cons_self, owes⟩

end Closing

/-! ### Leaves -/

section Leaves

variable {seat : Seat} {seats siblings : List Seat} {window : List Lexeme}
  {opened between : List OpenBracket} {node : Portion}

/-- The window of a leaf begins with a given token at its anchor. -/
def BeginsGiven (given : Nat → Bool) (seat : Seat) (window : List Lexeme) : Prop :=
  seat.children = [] → ∃ first rest, window = first :: rest ∧
    seat.node.anchor = some first.start ∧ given first.number = true

/-- All leaves that a zip visits have such windows. -/
def LeavesBeginGiven (table : BracketTable) (given : Nat → Bool) (seats : List Seat)
    (window : List Lexeme) (opened : List OpenBracket) : Prop :=
  ∀ origin path visit, Visits table seats window opened origin path visit →
    BeginsGiven given visit.seat visit.window

theorem LeavesBeginGiven.of_child {index : Nat} {outer : Visit}
    (leaves : LeavesBeginGiven table given seats window opened)
    (visits : VisitsChild table seats window opened index outer) :
    BeginsGiven given outer.seat outer.window ∧
      LeavesBeginGiven table given outer.seat.children outer.window outer.opened :=
  ⟨leaves _ _ outer (.child visits),
    fun _ _ inner reached =>
      leaves _ _ { inner with later := inner.later ++ outer.later } (.inside visits reached)⟩

theorem LeavesBeginGiven.of_later
    (leaves : LeavesBeginGiven table given (seat :: siblings) window opened)
    (scanned : table.scan opened (beforeLead seat.lead window) = .ok between)
    (zipped : zipNode table seat.shape
      (beforeSibling (siblings.map Seat.shape) (fromLead seat.lead window)) between = .ok node) :
    LeavesBeginGiven table given siblings
      (node.rest ++ fromSibling (siblings.map Seat.shape) (fromLead seat.lead window))
      node.opened := by
  intro origin path visit visits
  cases visits with
  | child visits => exact leaves _ _ visit (.child (.later scanned zipped visits))
  | inside visits inner => exact leaves _ _ _ (.inside (.later scanned zipped visits) inner)

end Leaves

/-! ### Nodes and siblings -/

section Siblings

variable {seat : Seat} {seats : List Seat} {siblings : List Shape} {window : List Lexeme}
  {opened : List OpenBracket} {portion : Portion}

theorem beforeSibling_sift (ordered : StartOrdered window) (siblings : List Shape) :
    beforeSibling siblings (sift given window) = sift given (beforeSibling siblings window) := by
  cases siblings with
  | nil => rfl
  | cons next _ => exact Lexeme.beforeLead_sift ordered next.lead

theorem fromSibling_sift (ordered : StartOrdered window) (siblings : List Shape) :
    fromSibling siblings (sift given window) = sift given (fromSibling siblings window) := by
  cases siblings with
  | nil => rfl
  | cons next _ => exact Lexeme.fromLead_sift ordered next.lead

/-- **At this node the two zips go in parallel**, whatever its window. -/
def Mirrors (table : BracketTable) (given : Nat → Bool) (seat : Seat) : Prop :=
  ∀ window opened portion, Mixed table given window → OpenedByGiven given opened →
    BeginsGiven given seat window → LeavesBeginGiven table given seat.children window opened →
    zipNode table seat.shape window opened = .ok portion →
      zipNode table seat.shape (sift given window) (opened.map (.renumber given)) =
          .ok (portion.sift given) ∧
        Mirrored given window portion

theorem zipChildren_cons_of_ok {child : Shape} {between : List OpenBracket} {node later : Portion}
    (scanned : table.scan opened (beforeLead child.lead window) = .ok between)
    (zipped : zipNode table child (beforeSibling siblings (fromLead child.lead window)) between =
      .ok node)
    (rest : zipChildren table siblings
      (node.rest ++ fromSibling siblings (fromLead child.lead window)) node.opened = .ok later) :
    zipChildren table (child :: siblings) window opened =
      .ok ⟨(beforeLead child.lead window).map .token ++ node.content ++ later.content, later.rest,
        later.opened⟩ := by
  rw [zipChildren]
  simp only [scanned, zipped, rest]

/-- **Siblings without what was put in.** -/
theorem zipChildren_sift (each : ∀ seat ∈ seats, Mirrors table given seat)
    (mixed : Mixed table given window) (openers : OpenedByGiven given opened)
    (leaves : LeavesBeginGiven table given seats window opened)
    (zipped : zipChildren table (seats.map Seat.shape) window opened = .ok portion) :
    zipChildren table (seats.map Seat.shape) (sift given window) (opened.map (.renumber given)) =
        .ok (portion.sift given) ∧
      (seats ≠ [] → Mirrored given window portion) := by
  induction seats generalizing window opened portion with
  | nil =>
    cases zipChildren_nil_ok zipped
    refine ⟨?_, fun some => absurd rfl some⟩
    rw [List.map_nil, zipChildren]
    rfl
  | cons seat siblings ih =>
    have ⟨ofSeat, ofSiblings⟩ := List.forall_mem_cons.1 each
    obtain ⟨between, node, later, scanned, zippedNode, rest, rfl⟩ := zipChildren_cons_ok zipped
    have ordered := mixed.spaced.startOrdered
    have orderedAhead := ordered.from_lead seat.shape.lead
    have cut := Zip.window_parts seat.shape.lead (siblings.map Seat.shape) window
    have mixedBefore := mixed.of_inside (List.IsPrefix.isInfix ⟨_, cut⟩)
    have insideNode :
        beforeSibling (siblings.map Seat.shape) (fromLead seat.shape.lead window) <:+: window :=
      ⟨_, _, (List.append_assoc _ _ _).trans cut⟩
    have behind := rest_isSuffix zippedNode
    have mixedNode := mixed.of_inside insideNode
    have openersBetween := BracketTable.scan_openers mixedBefore.silent openers scanned
    obtain ⟨here, further⟩ := leaves.of_child (.here scanned)
    obtain ⟨zippedNode', mirroredNode⟩ :=
      ofSeat _ _ _ mixedNode openersBetween here further zippedNode
    obtain ⟨rest', mirroredLater⟩ := ih ofSiblings (mixed.of_inside behind.isInfix)
      (openers_of_takes mixedNode openersBetween (zipNode_takes zippedNode))
      (leaves.of_later scanned zippedNode) rest
    refine ⟨?_, fun _ => ?_⟩
    · have scanned' : table.scan (opened.map (.renumber given))
          (beforeLead seat.shape.lead (sift given window)) =
            .ok (between.map (.renumber given)) := by
        rw [Lexeme.beforeLead_sift ordered, BracketTable.scan_sift mixedBefore.silent, scanned]
        rfl
      rw [← beforeSibling_sift orderedAhead, ← Lexeme.fromLead_sift ordered] at zippedNode'
      rw [Lexeme.sift_append, ← fromSibling_sift orderedAhead, ← Lexeme.fromLead_sift ordered]
        at rest'
      rw [List.map_cons, zipChildren_cons_of_ok scanned' zippedNode' rest',
        Lexeme.beforeLead_sift ordered]
      simp only [Portion.sift, Element.siftAll_append, Element.siftAll_tokens]
    · rcases siblings with _ | ⟨next, others⟩
      · -- The last sibling is the last item of what was taken.
        cases zipChildren_nil_ok rest
        rw [List.append_nil]
        exact mirroredNode.behind insideNode.subset _
      · exact (mirroredLater (List.cons_ne_nil _ _)).behind behind.subset _

end Siblings

/-! ### The whole tree -/

theorem zipNode_of_ok {shape : Shape} {window : List Lexeme} {opened : List OpenBracket}
    {claimed portion : Portion}
    (claims : claim table shape.anchor shape.children window opened = .ok claimed)
    (closed : closeNode table shape.kind window claimed = .ok portion) :
    zipNode table shape window opened = .ok portion := by
  cases shape
  rw [zipNode_eq, claims]
  exact closed

/-- **A leaf claims the same token in both zips.** -/
theorem claimAnchor_sift {first : Lexeme} {rest : List Lexeme} {opened : List OpenBracket}
    {claimed : Portion} (isGiven : given first.number = true)
    (claims : claimAnchor table (some first.start) (first :: rest) opened = .ok claimed) :
    claimAnchor table (some first.start) (sift given (first :: rest))
        (opened.map (.renumber given)) = .ok (claimed.sift given) ∧
      Mirrored given (first :: rest) claimed := by
  rcases claimAnchor_ok claims with ⟨_, _, after, starts, -, stepped, rfl⟩ | ⟨elsewhere, -⟩
  · cases starts
    have kept : Element.siftAll given [.token first] = [.token (first.renumber given)] := by
      rw [← List.map_singleton, Element.siftAll_tokens, Lexeme.sift_cons_given isGiven]
      rfl
    have only : sift given [first] = [first.renumber given] := Lexeme.sift_cons_given isGiven []
    refine ⟨?_, ?_, Or.inr ?_⟩
    · rw [Lexeme.sift_cons_given isGiven, claimAnchor, Lexeme.renumber_start, if_pos rfl,
        BracketTable.step_renumber, stepped, Portion.sift, kept]
      rfl
    · show sift given [first] ≠ []
      rw [only]
      exact List.cons_ne_nil _ _
    · show lastLine [first] = lastLine (sift given [first])
      rw [only]
      rfl
  · exact absurd rfl (elsewhere first rfl)

/-- **At every node the two zips go in parallel.** -/
theorem zipNode_sift (table : BracketTable) (given : Nat → Bool) (seat : Seat) :
    Mirrors table given seat := by
  suffices all : ∀ node : AstNode, ∀ seat : Seat, seat.node = node → Mirrors table given seat from
    all seat.node seat rfl
  intro node
  induction node using AstNode.children_induction with
  | step node ih =>
    rintro seat rfl window opened portion mixed openers begins leaves zipped
    obtain ⟨claimed, claims, closed⟩ := zipNode_shape_ok zipped
    suffices both : claim table seat.shape.anchor seat.shape.children (sift given window)
          (opened.map (.renumber given)) = .ok (claimed.sift given) ∧
        Mirrored given window claimed by
      obtain ⟨claims', mirrored⟩ := both
      obtain ⟨closed', mirroredNode⟩ := closeNode_sift mixed openers (claim_takes claims)
        (claim_takes claims') mirrored closed
      exact ⟨zipNode_of_ok claims' closed', mirroredNode⟩
    rw [seat.shape_children, claim] at claims ⊢
    by_cases leaf : seat.children = []
    · obtain ⟨first, rest, rfl, anchor, isGiven⟩ := begins leaf
      have isLeaf : (seat.children.map Seat.shape).isEmpty = true := by
        rw [leaf]
        rfl
      rw [if_pos isLeaf, seat.shape_anchor, anchor] at claims ⊢
      exact claimAnchor_sift isGiven claims
    · have notLeaf : ¬ (seat.children.map Seat.shape).isEmpty = true := by
        rw [List.isEmpty_iff, List.map_eq_nil_iff]
        exact leaf
      rw [if_neg notLeaf] at claims ⊢
      have each : ∀ child ∈ seat.children, Mirrors table given child := fun child member =>
        ih child.node (Seat.node_mem_of_mem_ofNodes member) child rfl
      obtain ⟨claims', mirrored⟩ := zipChildren_sift each mixed openers leaves claims
      exact ⟨claims', mirrored leaf⟩

/-- **The whole zip without what was put in**: the tree is the one of the zip over all tokens, sifted,
and if that zip fails then so does this one, with the same mismatch. -/
theorem zipModule_sift {ast : AstNode} {all tokens : List Token}
    (mixed : Mixed table given (Lexeme.sequence all))
    (sifted : sift given (Lexeme.sequence all) = Lexeme.sequence tokens)
    (leaves : LeavesBeginGiven table given (Seat.ofNodes ast.children) (Lexeme.sequence all) []) :
    zipModule table ast tokens = (zipModule table ast all).map (Node.sift given) := by
  cases outcome : zipModule table ast all with
  | error mismatch =>
    have scanned := BracketTable.scan_sift mixed.silent []
    rw [zipModule_eq_error_iff.1 outcome, sifted] at scanned
    exact zipModule_eq_error_iff.2 scanned
  | ok root =>
    obtain ⟨children, after, zipped, scanned, rfl⟩ := zipModule_ok outcome
    have takes := zipChildren_takes zipped
    rw [← Seat.map_shape_ofNodes] at zipped
    have openers : OpenedByGiven given [] := fun _ none => absurd none List.not_mem_nil
    obtain ⟨zipped', -⟩ := zipChildren_sift (fun seat _ => zipNode_sift table given seat) mixed
      openers leaves zipped
    have behind : children.rest <:+ Lexeme.sequence all := ⟨_, takes.keeps⟩
    have scanned' := BracketTable.scan_sift (mixed.of_inside behind.isInfix).silent children.opened
    rw [scanned] at scanned'
    rw [Seat.map_shape_ofNodes, sifted, List.map_nil] at zipped'
    unfold zipModule
    rw [zipped']
    simp only [Portion.sift]
    rw [scanned']
    simp only [Except.map, Node.sift, Node.ofContent, Element.siftAll_append,
      Element.siftAll_tokens]

end Zip

end CellSyntax
