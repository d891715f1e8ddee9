/-
**The windows of a zip.**

The window of a visited node is one stretch of the tokens, and the brackets that are open when the
zipper comes to the node are those of a plain scan of the tokens before it. If the tokens are ordered
by their starts, then it is the stretch that the leads cut out: from the lead of the node up to the
first lead of the siblings that follow it or a node around it. What earlier siblings have taken does
not matter, for they take only tokens before the lead of the next one.

* `Visits.window_parts`: the stretch, and the open brackets;
* `Visits.mem_window_iff`: the tokens of a window, by their starts.
-/

import CellSyntax.Proofs.Zip.Visits

namespace CellSyntax

theorem Position.lt_of_lt_of_le {first second third : Position} (less : first < second)
    (upTo : second ≤ third) : first < third := by
  rw [lt_def] at *
  rw [le_def] at upTo
  omega

theorem Position.lt_of_le_of_lt {first second third : Position} (upTo : first ≤ second)
    (less : second < third) : first < third := by
  rw [lt_def] at *
  rw [le_def] at upTo
  omega

/-! ### Cutting a window -/

namespace StartOrdered

variable {window : List Lexeme} {position : Position} {lexeme : Lexeme}

theorem of_inside {part : List Lexeme} (ordered : StartOrdered window)
    (inside : part <:+: window) : StartOrdered part :=
  ordered.sublist inside.sublist

theorem from_lead (ordered : StartOrdered window) (position : Position) :
    StartOrdered (fromLead position window) :=
  ordered.sublist (List.drop_sublist _ _)

theorem mem_fromLead_iff (ordered : StartOrdered window) :
    lexeme ∈ fromLead position window ↔ lexeme ∈ window ∧ position ≤ lexeme.start := by
  have parts := beforeLead_append_fromLead position window
  constructor
  · intro member
    refine ⟨parts ▸ List.mem_append_right _ member, ?_⟩
    rw [ordered.fromLead_eq] at member
    have stops := ordered.dropWhile_fail lexeme member
    simp only [Lexeme.startsBefore, decide_eq_true_eq, Position.lt_iff_not_le] at stops
    exact Classical.not_not.1 stops
  · rintro ⟨member, reached⟩
    rw [← parts] at member
    refine (List.mem_append.1 member).resolve_left fun before => ?_
    rw [ordered.beforeLead_eq] at before
    have passes := List.all_eq_true.1 List.all_takeWhile lexeme before
    exact Position.lt_iff_not_le.1 (of_decide_eq_true passes) reached

theorem mem_beforeLead_iff (ordered : StartOrdered window) :
    lexeme ∈ beforeLead position window ↔ lexeme ∈ window ∧ lexeme.start < position := by
  have parts := beforeLead_append_fromLead position window
  constructor
  · intro member
    rw [ordered.beforeLead_eq] at member
    have passes := List.all_eq_true.1 List.all_takeWhile lexeme member
    exact ⟨(List.takeWhile_sublist _).subset member, of_decide_eq_true passes⟩
  · rintro ⟨member, before⟩
    rw [← parts] at member
    refine (List.mem_append.1 member).resolve_right fun after => ?_
    exact Position.lt_iff_not_le.1 before (ordered.mem_fromLead_iff.1 after).2

end StartOrdered

namespace Zip

variable {table : BracketTable} {seats siblings : List Seat} {window : List Lexeme}
  {opened : List OpenBracket} {index : Nat} {origin path : Path} {visit : Visit} {lexeme : Lexeme}
  {portion : Portion}

theorem mem_beforeSibling_iff (ordered : StartOrdered window) (sorted : Seat.Sorted siblings) :
    lexeme ∈ beforeSibling (siblings.map Seat.shape) window ↔
      lexeme ∈ window ∧ ∀ sibling ∈ siblings, lexeme.start < sibling.lead := by
  cases siblings with
  | nil => simp [beforeSibling]
  | cons next rest =>
    have ahead := (List.pairwise_cons.1 sorted).1
    rw [List.map_cons, beforeSibling, ordered.mem_beforeLead_iff, List.forall_mem_cons]
    refine and_congr_right fun _ => ⟨fun before => ⟨before, fun sibling member => ?_⟩, And.left⟩
    exact Position.lt_of_lt_of_le before (ahead sibling member)

/-- What a sibling and those before it leave is the last part of the parent's window. -/
theorem rest_isSuffix {shape : Shape} {shapes : List Shape} {lead : Position}
    {between : List OpenBracket} {node : Portion}
    (zipped : zipNode table shape (beforeSibling shapes (fromLead lead window)) between = .ok node) :
    node.rest ++ fromSibling shapes (fromLead lead window) <:+ window := by
  refine ⟨beforeLead lead window ++ Element.lexemesOf node.content, ?_⟩
  rw [← List.append_assoc, List.append_assoc _ _ node.rest, (zipNode_takes zipped).keeps,
    List.append_assoc, Zip.window_parts]

/-! ### One stretch of the tokens -/

/-- The window of a sibling lies in that of the parent, and what is open is what the tokens before
it leave open. -/
theorem VisitsChild.window_parts (visits : VisitsChild table seats window opened index visit) :
    ∃ before after, window = before ++ visit.window ++ after ∧
      table.scan opened before = .ok visit.opened := by
  induction visits with
  | @here seat siblings window opened between scanned =>
    refine ⟨beforeLead seat.lead window,
      fromSibling (siblings.map Seat.shape) (fromLead seat.lead window), ?_, scanned⟩
    rw [List.append_assoc]
    exact (Zip.window_parts seat.lead (siblings.map Seat.shape) window).symm
  | @later seat siblings window opened between node index visit scanned zipped _ ih =>
    obtain ⟨before, after, parts, scannedRest⟩ := ih
    have takes := zipNode_takes zipped
    refine ⟨beforeLead seat.lead window ++ (Element.lexemesOf node.content ++ before), after, ?_, ?_⟩
    · calc window = beforeLead seat.lead window ++
              (beforeSibling (siblings.map Seat.shape) (fromLead seat.lead window) ++
                fromSibling (siblings.map Seat.shape) (fromLead seat.lead window)) := by
            exact (Zip.window_parts seat.lead (siblings.map Seat.shape) window).symm
        _ = beforeLead seat.lead window ++ (Element.lexemesOf node.content ++
              (before ++ visit.window ++ after)) := by
            rw [← takes.keeps, List.append_assoc, parts]
        _ = _ := by
            rw [List.append_assoc, List.append_assoc, List.append_assoc, List.append_assoc]
    · rw [BracketTable.scan_append_of_ok scanned, BracketTable.scan_append_of_ok takes.scans]
      exact scannedRest

/-- **The window of a visited node is one stretch of the tokens**, and what is open when the zipper
comes to the node is what the tokens before the stretch leave open. -/
theorem Visits.window_parts (visits : Visits table seats window opened origin path visit) :
    ∃ before after, window = before ++ visit.window ++ after ∧
      table.scan opened before = .ok visit.opened := by
  induction visits with
  | child visits => exact visits.window_parts
  | inside visits _ ih =>
    obtain ⟨before, after, parts, scanned⟩ := visits.window_parts
    obtain ⟨early, late, inner, scannedInner⟩ := ih
    refine ⟨before ++ early, late ++ after, ?_, ?_⟩
    · rw [parts, inner]
      simp only [List.append_assoc]
    · rw [BracketTable.scan_append_of_ok scanned]
      exact scannedInner

theorem Visits.window_inside (visits : Visits table seats window opened origin path visit) :
    visit.window <:+: window := by
  obtain ⟨before, after, parts, -⟩ := visits.window_parts
  exact ⟨before, after, parts.symm⟩

theorem VisitsChild.window_inside (visits : VisitsChild table seats window opened index visit) :
    visit.window <:+: window := by
  obtain ⟨before, after, parts, -⟩ := visits.window_parts
  exact ⟨before, after, parts.symm⟩

/-! ### The stretch that the leads cut out -/

/-- **Where a token has to start to be in the window of a visited node.** -/
structure Visit.Within (visit : Visit) (lexeme : Lexeme) : Prop where
  fromLead : visit.seat.lead ≤ lexeme.start
  beforeLater : ∀ sibling ∈ visit.later, lexeme.start < sibling.lead

/-- The tokens in the window of a sibling, by their starts. -/
theorem VisitsChild.mem_window_iff (visits : VisitsChild table seats window opened index visit)
    (ordered : StartOrdered window) (sorted : Seat.Sorted seats) :
    lexeme ∈ visit.window ↔ lexeme ∈ window ∧ visit.Within lexeme := by
  induction visits with
  | @here seat siblings window opened between scanned =>
    have siblingsSorted : Seat.Sorted siblings := (List.pairwise_cons.1 sorted).2
    show lexeme ∈ beforeSibling (siblings.map Seat.shape) (fromLead seat.lead window) ↔ _
    rw [mem_beforeSibling_iff (ordered.from_lead seat.lead) siblingsSorted, ordered.mem_fromLead_iff,
      and_assoc]
    exact and_congr_right fun _ => ⟨fun both => ⟨both.1, both.2⟩, fun both => ⟨both.1, both.2⟩⟩
  | @later seat siblings window opened between node index visit scanned zipped others ih =>
    have ⟨ahead, sortedRest⟩ := List.pairwise_cons.1 sorted
    have rest := rest_isSuffix zipped
    rw [ih (ordered.of_inside rest.isInfix) sortedRest]
    refine and_congr_left fun within => ⟨fun member => rest.subset member, fun member => ?_⟩
    -- The token starts at the next sibling's lead or later, so the sibling before it has not had it.
    refine List.mem_append_right _ ?_
    have inSiblings := others.seat_mem
    rcases siblings with _ | ⟨next, siblings⟩
    · cases inSiblings
    · have reached : next.lead ≤ lexeme.start := by
        refine Position.le_trans ?_ within.fromLead
        rcases List.mem_cons.1 inSiblings with same | later
        · rw [same]
          exact Position.le_refl _
        · exact (List.pairwise_cons.1 sortedRest).1 _ later
      have here := ordered.mem_fromLead_iff.2
        ⟨member, Position.le_trans (ahead next List.mem_cons_self) reached⟩
      exact (ordered.from_lead seat.lead).mem_fromLead_iff.2 ⟨here, reached⟩

/-- A visited node has no earlier lead than some sibling that is visited around it. -/
theorem Visits.lead_le (visits : Visits table seats window opened origin path visit) :
    ∃ seat ∈ seats, seat.lead ≤ visit.seat.lead := by
  induction visits with
  | child visits => exact ⟨_, visits.seat_mem, Position.le_refl _⟩
  | inside visits _ ih =>
    obtain ⟨seat, member, upTo⟩ := ih
    exact ⟨_, visits.seat_mem, Position.le_trans (Seat.lead_le_of_mem_children member) upTo⟩

/-- **The tokens in the window of a visited node, by their starts.** -/
theorem Visits.mem_window_iff (visits : Visits table seats window opened origin path visit)
    (ordered : StartOrdered window) (sorted : Seat.Sorted seats) :
    lexeme ∈ visit.window ↔ lexeme ∈ window ∧ visit.Within lexeme := by
  induction visits with
  | child visits => exact visits.mem_window_iff ordered sorted
  | inside visits inner ih =>
    rw [ih (ordered.of_inside visits.window_inside) (Seat.sorted_ofNodes _),
      visits.mem_window_iff ordered sorted, and_assoc]
    refine and_congr_right fun _ =>
      ⟨fun both => ⟨both.2.fromLead, ?_⟩, fun within => ⟨⟨?_, ?_⟩, ?_, ?_⟩⟩
    · exact List.forall_mem_append.2 ⟨both.2.beforeLater, both.1.beforeLater⟩
    · obtain ⟨seat, member, upTo⟩ := inner.lead_le
      exact Position.le_trans (Seat.lead_le_of_mem_children member)
        (Position.le_trans upTo within.fromLead)
    · exact (List.forall_mem_append.1 within.beforeLater).2
    · exact within.fromLead
    · exact (List.forall_mem_append.1 within.beforeLater).1

end Zip

end CellSyntax
