/-
**The order of siblings by their leads.**

The lead of a node is the earliest anchor in its subtree. Among the children of a node those that
have one are put in the order of their leads, and two with the same lead stay as they are. The seats
of the children come in this order, each child having one.

* `Seat.isLead`: the lead of a seat is that of its node;
* `Seat.precedes_iff_leadsBefore`: the order of seats is the order by leads;
* `Seat.nodup_numbers`: no child has two seats;
* `AstNode.Follows`: what follows a node, at its level or further up.
-/

import CellSyntax.Proofs.Zip.Seats

namespace CellSyntax

namespace AstNode

/-- **The lead of a node**: the earliest anchor in its subtree. -/
structure IsLead (node : AstNode) (lead : Position) : Prop where
  mem : lead ∈ node.anchors
  le : ∀ anchor ∈ node.anchors, lead ≤ anchor

/-- **The order of the children of a node by their leads**, those with one lead staying in the order
of their numbers. A child without an anchor in its subtree has no place in it. -/
def LeadsBefore (parent : AstNode) (first second : Nat) : Prop :=
  ∃ child sibling lead next, parent.children[first]? = some child ∧ child.IsLead lead ∧
    parent.children[second]? = some sibling ∧ sibling.IsLead next ∧
      (lead < next ∨ lead = next ∧ first < second)

/-- **What follows a node**: the siblings that come after it in the order of leads, and those that
come so after a node around it. -/
inductive Follows : AstNode → Path → AstNode → Prop
  | here {parent sibling : AstNode} {first second : Nat} {path : Path}
      (before : parent.LeadsBefore first second)
      (isSibling : parent.children[second]? = some sibling) :
      Follows parent (first :: path) sibling
  | inside {parent child later : AstNode} {number : Nat} {path : Path}
      (isChild : parent.children[number]? = some child) (follows : child.Follows path later) :
      Follows parent (number :: path) later

theorem IsLead.unique {node : AstNode} {lead other : Position} (first : node.IsLead lead)
    (second : node.IsLead other) : lead = other :=
  Position.le_antisymm (first.le other second.mem) (second.le lead first.mem)

end AstNode

namespace Seat

variable {first second : Seat} {parent : AstNode}

theorem isLead (seat : Seat) : seat.node.IsLead seat.lead := ⟨seat.lead_mem, seat.lead_le⟩

theorem Precedes.asymm (precedes : Precedes first second) : ¬ Precedes second first := by
  intro back
  rcases precedes with less | ⟨same, number⟩
  · exact Position.lt_iff_not_le.1 less back.notAfter
  · rcases back with less | ⟨-, number'⟩
    · exact Position.lt_iff_not_le.1 less (same ▸ Position.le_refl _)
    · omega

/-- **Seats are in the order of the leads.** -/
theorem precedes_iff_leadsBefore (isFirst : parent.children[first.number]? = some first.node)
    (isSecond : parent.children[second.number]? = some second.node) :
    Precedes first second ↔ parent.LeadsBefore first.number second.number := by
  constructor
  · exact fun precedes =>
      ⟨_, _, _, _, isFirst, first.isLead, isSecond, second.isLead, precedes⟩
  · rintro ⟨child, sibling, lead, next, isChild, ofChild, isSibling, ofSibling, before⟩
    cases isFirst.symm.trans isChild
    cases isSecond.symm.trans isSibling
    rw [ofChild.unique first.isLead, ofSibling.unique second.isLead] at before
    exact before

/-- No two seats of siblings have one number. -/
theorem nodup_numbers (nodes : List AstNode) : ((ofNodes nodes).map number).Nodup := by
  have distinct : (ofNodes nodes).Nodup :=
    (ofNodes_ordered nodes).imp fun precedes same => (same ▸ precedes).asymm (same ▸ precedes)
  refine distinct.map_on fun one member other member' same => ext_node same ?_
  have isOne := mem_ofNodes_iff.1 member
  rw [same, mem_ofNodes_iff.1 member'] at isOne
  exact (Option.some.inj isOne).symm

end Seat

end CellSyntax
