/-
**The anchored part of a syntax tree.**

Only nodes with an anchor in their subtree can own tokens. A shape is what is left of a syntax tree
when the others are dropped, with siblings put in the order of their leads; the lead of a node is
the earliest anchor in its subtree. Siblings with one lead keep their order.

* `Shape.insert_perm`: putting a shape among its siblings loses none of them;
* `Shape.insert_sorted`: it keeps them in the order of their leads.
-/

import CellSyntax.ParseOutput

namespace CellSyntax

/-- A syntax tree node with an anchor in its subtree. -/
structure Shape where
  kind : String
  anchor : Option Position
  /-- The earliest anchor in the subtree. -/
  lead : Position
  /-- The children that have an anchor in their subtree, in the order of their leads. -/
  children : List Shape
deriving Repr, Inhabited

namespace Shape

/-- The shape put before the first of the others whose lead is not earlier. -/
def insert (shape : Shape) : List Shape → List Shape
  | [] => [shape]
  | other :: rest =>
    if shape.lead ≤ other.lead then shape :: other :: rest else other :: shape.insert rest

theorem insert_perm (shape : Shape) (others : List Shape) :
    (shape.insert others).Perm (shape :: others) := by
  induction others with
  | nil => exact .refl _
  | cons other rest ih =>
    unfold insert
    split
    · exact .refl _
    · exact (ih.cons other).trans (.swap shape other rest)

theorem insert_sorted {shape : Shape} {others : List Shape}
    (sorted : others.Pairwise fun first second => first.lead ≤ second.lead) :
    (shape.insert others).Pairwise fun first second => first.lead ≤ second.lead := by
  induction others with
  | nil => exact List.pairwise_singleton _ _
  | cons other rest ih =>
    have ⟨ahead, sortedRest⟩ := List.pairwise_cons.1 sorted
    unfold insert
    split
    · rename_i earlier
      refine List.pairwise_cons.2 ⟨fun later member => ?_, sorted⟩
      rcases List.mem_cons.1 member with rfl | inside
      · exact earlier
      · exact Position.le_trans earlier (ahead later inside)
    · rename_i notEarlier
      refine List.pairwise_cons.2 ⟨fun later member => ?_, ih sortedRest⟩
      rcases List.mem_cons.1 ((insert_perm shape rest).mem_iff.1 member) with rfl | inside
      · exact (Position.le_total _ _).resolve_left notEarlier
      · exact ahead later inside

/-- The earlier of a node's own anchor and the lead of its first child. -/
def leadOf? (anchor : Option Position) (children : List Shape) : Option Position :=
  match anchor, children with
  | none, [] => none
  | none, child :: _ => some child.lead
  | some position, [] => some position
  | some position, child :: _ => some (if position ≤ child.lead then position else child.lead)

mutual

/-- The shape of a syntax tree node; none if its subtree has no anchor. -/
def ofNode? : AstNode → Option Shape
  | ⟨kind, anchor, children⟩ =>
    let shapes := ofNodes children
    (leadOf? anchor shapes).map fun lead => ⟨kind, anchor, lead, shapes⟩

/-- The shapes of sibling nodes, in the order of their leads. -/
def ofNodes : List AstNode → List Shape
  | [] => []
  | node :: rest =>
    match ofNode? node with
    | none => ofNodes rest
    | some shape => shape.insert (ofNodes rest)

end

end Shape

end CellSyntax
