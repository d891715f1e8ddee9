/-
**Leads bound what a node owns.**

All tokens of a node lie in the window that the zipper gives it. If the tokens are ordered by their
starts, then the window ends before the lead of every sibling that follows the node, and of every
sibling that follows a node around it. Whether these siblings are in the tree of the cell does not
matter: they all have their visits, and their leads cut the windows.

* `Zip.Visits.mem_later`: what follows a node is visited after it;
* `Zip.Visit.Makes.lexemes_prefix`: the tokens of a node are the first ones of its window;
* `zip_leadBounds`: the bounds.
-/

import CellSyntax.Proofs.Ast.Leads
import CellSyntax.Proofs.Zip.Made

namespace CellSyntax

namespace Zip

variable {table : BracketTable} {seats : List Seat} {window : List Lexeme}
  {opened : List OpenBracket} {index : Nat} {origin path : Path} {visit : Visit} {node : Node}
  {seat : Seat}

/-- **A sibling that comes after a visited one is visited after it.** -/
theorem VisitsChild.mem_later (visits : VisitsChild table seats window opened index visit)
    (ordered : seats.Pairwise Seat.Precedes) (member : seat ∈ seats)
    (after : visit.seat.Precedes seat) : seat ∈ visit.later := by
  obtain ⟨earlier, whole⟩ := visits.seats_eq
  rw [whole] at ordered member
  rcases List.mem_append.1 member with before | inside
  · have back := (List.pairwise_append.1 ordered).2.2 seat before visit.seat List.mem_cons_self
    exact absurd back after.asymm
  · rcases List.mem_cons.1 inside with same | later
    · exact absurd (same ▸ after) (same ▸ after).asymm
    · exact later

/-- The sibling after a visited node, as the seat that follows. -/
theorem VisitsChild.exists_later {parent sibling : AstNode} {next : Position} {second : Nat}
    (visits : VisitsChild table (Seat.ofNodes parent.children) window opened index visit)
    (before : parent.LeadsBefore visit.seat.number second)
    (isSibling : parent.children[second]? = some sibling) (lead : sibling.IsLead next) :
    ∃ seat ∈ visit.later, seat.lead = next := by
  obtain ⟨seat, member, rfl, rfl⟩ := Seat.exists_mem_ofNodes isSibling lead.mem
  have isFirst := Seat.mem_ofNodes_iff.1 visits.seat_mem
  have after := (Seat.precedes_iff_leadsBefore isFirst isSibling).2 before
  exact ⟨seat, visits.mem_later (Seat.ofNodes_ordered _) member after, seat.isLead.unique lead⟩

/-- **What follows a node in the syntax tree is visited after it.** -/
theorem Visits.exists_later {ast sibling : AstNode} {next : Position}
    (visits : Visits table (Seat.ofNodes ast.children) window opened origin path visit)
    (follows : ast.Follows origin sibling) (lead : sibling.IsLead next) :
    ∃ seat ∈ visit.later, seat.lead = next := by
  generalize isSeats : Seat.ofNodes ast.children = seats at visits
  induction visits generalizing ast with
  | child visits =>
    subst isSeats
    cases follows with
    | here before isSibling => exact visits.exists_later before isSibling lead
    | inside _ further => cases further
  | inside visits inner ih =>
    subst isSeats
    cases follows with
    | here before isSibling =>
      obtain ⟨seat, member, same⟩ := visits.exists_later before isSibling lead
      exact ⟨seat, List.mem_append_right _ member, same⟩
    | inside isChild further =>
      cases (Seat.mem_ofNodes_iff.1 visits.seat_mem).symm.trans isChild
      obtain ⟨seat, member, same⟩ := ih further rfl
      exact ⟨seat, List.mem_append_left _ member, same⟩

/-- **The tokens of a node are the first ones of its window.** -/
theorem Visit.Makes.lexemes_prefix (makes : visit.Makes table node) :
    node.lexemes <+: visit.window := by
  obtain ⟨rest, after, done⟩ := makes
  have keeps := (zipNode_takes done).keeps
  rw [Element.lexemesOf_element] at keeps
  exact ⟨rest, keeps⟩

/-- **The tokens of a node that a zip makes lie between the leads.** -/
theorem Made.within {ast : AstNode} {tokens : List Token}
    (made : Made table ast tokens origin path node)
    (ordered : StartOrdered (Lexeme.sequence tokens)) :
    ∃ source lead, ast.at? origin = some source ∧ source.IsLead lead ∧
      ∀ lexeme ∈ node.lexemes, lead ≤ lexeme.start ∧
        ∀ sibling next, ast.Follows origin sibling → sibling.IsLead next → lexeme.start < next := by
  obtain ⟨visit, visits, makes⟩ := made
  refine ⟨_, _, visits.ast_at?, visit.seat.isLead, fun lexeme member => ?_⟩
  have inWindow := makes.lexemes_prefix.subset member
  have within := ((visits.mem_window_iff ordered (Seat.sorted_ofNodes _)).1 inWindow).2
  refine ⟨within.fromLead, fun sibling next follows lead => ?_⟩
  obtain ⟨seat, later, rfl⟩ := visits.exists_later follows lead
  exact within.beforeLater seat later

end Zip

/-- **Anchors bound ownership.** Zip tokens that are ordered by their starts with any syntax tree,
with the source or without it. Every node below the root was made for a node of the syntax tree. All
tokens of its subtree start at the lead of that node or after it, and before the lead of every
sibling that follows that node or a node around it, even of siblings that the tree does not have. -/
theorem zip_leadBounds {config : TokenConfig} {source : Option String} {tokens : List Token}
    {ast : AstNode} {root : Node}
    (zipped : zipOutput config ⟨source, tokens, some ast⟩ = .ok (.tree root))
    (ordered : StartOrdered (Lexeme.sequence (cellTokens config source tokens))) :
    let made := Zip.Made (.ofConfig config) ast (cellTokens config source tokens)
    (∀ path node, path ≠ [] → root.at? path = some node → ∃ origin, made origin path node) ∧
    ∀ origin path node, made origin path node → root.at? path = some node ∧
      ∃ built lead, ast.at? origin = some built ∧ built.IsLead lead ∧
        ∀ lexeme ∈ node.lexemes, lead ≤ lexeme.start ∧
          ∀ sibling next, ast.Follows origin sibling → sibling.IsLead next →
            lexeme.start < next := by
  intro made
  have done := zipModule_of_zipOutput zipped
  refine ⟨fun path node below found => Zip.exists_made done below found, ?_⟩
  exact fun origin path node isMade => ⟨isMade.at? done, isMade.within ordered⟩

/-- In the tree of `callOutput` the first argument is followed by the second, and by a name that is
in no tree because its anchor lies after every token. -/
theorem zip_leadBounds_callOutput : ∃ root, zipOutput {} callOutput = .ok (.tree root) ∧
    StartOrdered (Lexeme.sequence (cellTokens {} callOutput.source callOutput.tokens)) ∧
    let made := Zip.Made (.ofConfig {}) (callOutput.ast.get rfl)
      (cellTokens {} callOutput.source callOutput.tokens)
    (∀ path node, path ≠ [] → root.at? path = some node → ∃ origin, made origin path node) ∧
    ∀ origin path node, made origin path node → root.at? path = some node ∧
      ∃ built lead, (callOutput.ast.get rfl).at? origin = some built ∧ built.IsLead lead ∧
        ∀ lexeme ∈ node.lexemes, lead ≤ lexeme.start ∧
          ∀ sibling next, (callOutput.ast.get rfl).Follows origin sibling → sibling.IsLead next →
            lexeme.start < next := by
  obtain ⟨root, zipped⟩ : ∃ root, zipOutput {} callOutput = .ok (.tree root) := ⟨_, rfl⟩
  have ordered : StartOrdered (Lexeme.sequence
      (cellTokens {} callOutput.source callOutput.tokens)) := by
    unfold StartOrdered
    decide
  exact ⟨root, zipped, ordered, zip_leadBounds zipped ordered⟩

end CellSyntax
