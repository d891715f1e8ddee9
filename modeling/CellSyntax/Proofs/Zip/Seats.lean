/-
**The shapes of siblings, with the nodes that they stand for.**

A shape does not tell which node of the syntax tree it comes from. A seat does: it is the shape of a
child node together with that node and its number among all children. The seats of siblings lie in
the order in which the zipper goes through their shapes, that is by their leads, and by their numbers
where two leads are the same.

* `Seat.map_shape_ofNodes`: without the nodes, the seats are the shapes of the siblings;
* `Seat.mem_ofNodes_iff`: every child with an anchor in its subtree has its seat;
* `Seat.ofNodes_ordered`: the order of the seats;
* `Seat.lead_le_of_mem_children`: no child's lead comes before that of its parent.
-/

import CellSyntax.Proofs.Ast.Anchors
import Mathlib.Data.List.Sort

namespace CellSyntax

/-- A child node with an anchor in its subtree: its number among its siblings and its shape. -/
structure Seat where
  number : Nat
  node : AstNode
  shape : Shape
  shows : Shape.ofNode? node = some shape

namespace Seat

/-- The lead of the node. -/
def lead (seat : Seat) : Position := seat.shape.lead

/-- The order in which siblings are put: by their leads. -/
def NotAfter (first second : Seat) : Prop := first.lead ≤ second.lead

instance : DecidableRel NotAfter := fun first second =>
  inferInstanceAs (Decidable (first.lead ≤ second.lead))

/-- The seats of sibling nodes that are numbered from `number` on. -/
def ofNodesFrom (number : Nat) : List AstNode → List Seat
  | [] => []
  | node :: rest =>
    match shows : Shape.ofNode? node with
    | none => ofNodesFrom (number + 1) rest
    | some shape =>
      (ofNodesFrom (number + 1) rest).orderedInsert NotAfter ⟨number, node, shape, shows⟩

/-- The seats of the children of a node, in the order of their leads. -/
def ofNodes (nodes : List AstNode) : List Seat := ofNodesFrom 0 nodes

/-- The seats of the children of the node in a seat. -/
def children (seat : Seat) : List Seat := ofNodes seat.node.children

/-- The order of siblings: by their leads, then by their numbers. -/
def Precedes (first second : Seat) : Prop :=
  first.lead < second.lead ∨ first.lead = second.lead ∧ first.number < second.number

variable {seat first second : Seat} {seats : List Seat} {nodes : List AstNode} {number : Nat}

/-! ### Seats and shapes -/

theorem map_shape_orderedInsert (seat : Seat) (seats : List Seat) :
    (seats.orderedInsert NotAfter seat).map shape = seat.shape.insert (seats.map shape) := by
  induction seats with
  | nil => rfl
  | cons other rest ih =>
    rw [List.orderedInsert_cons, List.map_cons, Shape.insert]
    by_cases earlier : NotAfter seat other
    · have inShapes : seat.shape.lead ≤ other.shape.lead := earlier
      rw [if_pos earlier, if_pos inShapes, List.map_cons, List.map_cons]
    · have inShapes : ¬ seat.shape.lead ≤ other.shape.lead := earlier
      rw [if_neg earlier, if_neg inShapes, List.map_cons, ih]

theorem ofNodesFrom_of_none {node : AstNode} (none : Shape.ofNode? node = none) (number : Nat)
    (rest : List AstNode) : ofNodesFrom number (node :: rest) = ofNodesFrom (number + 1) rest := by
  rw [ofNodesFrom]
  split
  · rfl
  · rename_i shows
    rw [none] at shows
    cases shows

theorem ofNodesFrom_of_some {node : AstNode} {shape : Shape}
    (shows : Shape.ofNode? node = some shape) (number : Nat) (rest : List AstNode) :
    ofNodesFrom number (node :: rest) =
      (ofNodesFrom (number + 1) rest).orderedInsert NotAfter ⟨number, node, shape, shows⟩ := by
  rw [ofNodesFrom]
  split
  · rename_i none
    rw [none] at shows
    cases shows
  · rename_i shows'
    cases shows.symm.trans shows'
    rfl

theorem map_shape_ofNodesFrom (number : Nat) (nodes : List AstNode) :
    (ofNodesFrom number nodes).map shape = Shape.ofNodes nodes := by
  induction nodes generalizing number with
  | nil => rfl
  | cons node rest ih =>
    rw [Shape.ofNodes]
    cases shows : Shape.ofNode? node with
    | none => rw [ofNodesFrom_of_none shows, ih]
    | some shape => rw [ofNodesFrom_of_some shows, map_shape_orderedInsert, ih]

/-- **Without the nodes, the seats are the shapes of the siblings.** -/
theorem map_shape_ofNodes (nodes : List AstNode) :
    (ofNodes nodes).map shape = Shape.ofNodes nodes :=
  map_shape_ofNodesFrom 0 nodes

theorem shape_children (seat : Seat) : seat.shape.children = seat.children.map shape := by
  rw [children, map_shape_ofNodes]
  exact (Shape.ofNode?_parts seat.shows).2.2.1

theorem shape_kind (seat : Seat) : seat.shape.kind = seat.node.kind :=
  (Shape.ofNode?_parts seat.shows).1

theorem shape_anchor (seat : Seat) : seat.shape.anchor = seat.node.anchor :=
  (Shape.ofNode?_parts seat.shows).2.1

/-- The seat of a node is determined by the node and its number. -/
theorem ext_node (number : first.number = second.number) (node : first.node = second.node) :
    first = second := by
  obtain ⟨n, here, shape, shows⟩ := first
  obtain ⟨n', here', shape', shows'⟩ := second
  cases number
  cases node
  cases shows.symm.trans shows'
  rfl

theorem mem_ofNodesFrom_iff : seat ∈ ofNodesFrom number nodes ↔
    ∃ place, seat.number = number + place ∧ nodes[place]? = some seat.node := by
  induction nodes generalizing number with
  | nil => simp [ofNodesFrom]
  | cons node rest ih =>
    have later : (∃ place, seat.number = number + place ∧ (node :: rest)[place]? = some seat.node) ↔
        seat.number = number ∧ node = seat.node ∨
          ∃ place, seat.number = number + 1 + place ∧ rest[place]? = some seat.node := by
      constructor
      · rintro ⟨place | place, same, found⟩
        · exact Or.inl ⟨same, Option.some.inj found⟩
        · exact Or.inr ⟨place, by omega, found⟩
      · rintro (⟨same, found⟩ | ⟨place, same, found⟩)
        · exact ⟨0, same, congrArg some found⟩
        · exact ⟨place + 1, by omega, found⟩
    rw [later]
    cases shows : Shape.ofNode? node with
    | none =>
      rw [ofNodesFrom_of_none shows, ih]
      refine ⟨Or.inr, fun either => either.resolve_left fun both => ?_⟩
      rw [both.2, seat.shows] at shows
      cases shows
    | some shape =>
      rw [ofNodesFrom_of_some shows, List.mem_orderedInsert, ih]
      refine or_congr_left ⟨fun same => ?_, fun both => ext_node both.1 both.2.symm⟩
      rw [same]
      exact ⟨rfl, rfl⟩

/-- **Every child with an anchor in its subtree has its seat**, under its number. -/
theorem mem_ofNodes_iff : seat ∈ ofNodes nodes ↔ nodes[seat.number]? = some seat.node := by
  rw [ofNodes, mem_ofNodesFrom_iff]
  constructor
  · rintro ⟨place, same, found⟩
    rw [same, Nat.zero_add]
    exact found
  · exact fun found => ⟨seat.number, (Nat.zero_add _).symm, found⟩

theorem exists_mem_ofNodes {node : AstNode} {position : Position}
    (found : nodes[number]? = some node) (anchored : position ∈ node.anchors) :
    ∃ seat ∈ ofNodes nodes, seat.number = number ∧ seat.node = node := by
  obtain ⟨shape, shows⟩ := Shape.exists_ofNode? anchored
  exact ⟨⟨number, node, shape, shows⟩, mem_ofNodes_iff.2 found, rfl, rfl⟩

/-! ### The order of seats -/

theorem Precedes.notAfter (precedes : Precedes first second) : first.lead ≤ second.lead := by
  rcases precedes with less | ⟨same, -⟩
  · exact Position.le_of_lt less
  · rw [same]
    exact Position.le_refl _

/-- Putting a seat among seats of higher numbers keeps them in order. -/
theorem orderedInsert_ordered (higher : ∀ other ∈ seats, seat.number < other.number)
    (ordered : seats.Pairwise Precedes) : (seats.orderedInsert NotAfter seat).Pairwise Precedes := by
  induction seats with
  | nil => exact List.pairwise_singleton _ _
  | cons other rest ih =>
    have ⟨ahead, orderedRest⟩ := List.pairwise_cons.1 ordered
    have ⟨higherOther, higherRest⟩ := List.forall_mem_cons.1 higher
    rw [List.orderedInsert_cons]
    split
    · rename_i earlier
      refine List.pairwise_cons.2 ⟨fun later member => ?_, ordered⟩
      have upTo : seat.lead ≤ later.lead := by
        rcases List.mem_cons.1 member with rfl | inside
        · exact earlier
        · exact Position.le_trans earlier (ahead later inside).notAfter
      by_cases same : seat.lead = later.lead
      · exact Or.inr ⟨same, higher later member⟩
      · refine Or.inl (Position.lt_iff_not_le.2 fun back => same ?_)
        exact Position.le_antisymm upTo back
    · rename_i later
      refine List.pairwise_cons.2 ⟨fun found member => ?_, ih higherRest orderedRest⟩
      rcases (List.mem_orderedInsert _).1 member with rfl | inside
      · exact Or.inl (Position.lt_iff_not_le.2 later)
      · exact ahead found inside

/-- **The seats of siblings are in order.** -/
theorem ofNodes_ordered (nodes : List AstNode) : (ofNodes nodes).Pairwise Precedes := by
  have from_ (number : Nat) : (ofNodesFrom number nodes).Pairwise Precedes := by
    induction nodes generalizing number with
    | nil => exact .nil
    | cons node rest ih =>
      cases shows : Shape.ofNode? node with
      | none =>
        rw [ofNodesFrom_of_none shows]
        exact ih (number + 1)
      | some shape =>
        rw [ofNodesFrom_of_some shows]
        refine orderedInsert_ordered (fun other member => ?_) (ih (number + 1))
        obtain ⟨place, same, -⟩ := mem_ofNodesFrom_iff.1 member
        simp only
        omega
  exact from_ 0

/-- The leads of siblings come in order. -/
def Sorted (seats : List Seat) : Prop :=
  seats.Pairwise fun first second => first.lead ≤ second.lead

theorem sorted_ofNodes (nodes : List AstNode) : Sorted (ofNodes nodes) :=
  (ofNodes_ordered nodes).imp Precedes.notAfter

/-! ### Leads -/

theorem lead_mem (seat : Seat) : seat.lead ∈ seat.node.anchors := (Shape.ofNode?_lead seat.shows).1

theorem lead_le (seat : Seat) : ∀ position ∈ seat.node.anchors, seat.lead ≤ position :=
  (Shape.ofNode?_lead seat.shows).2

theorem node_mem_of_mem_ofNodes (member : seat ∈ ofNodes nodes) : seat.node ∈ nodes :=
  List.mem_of_getElem? (mem_ofNodes_iff.1 member)

theorem anchors_of_mem_children (member : second ∈ first.children) :
    ∀ position ∈ second.node.anchors, position ∈ first.node.anchors :=
  AstNode.anchors_of_mem_children (node_mem_of_mem_ofNodes member)

/-- **No child's lead comes before that of its parent.** -/
theorem lead_le_of_mem_children (member : second ∈ first.children) : first.lead ≤ second.lead :=
  first.lead_le _ (anchors_of_mem_children member _ second.lead_mem)

end Seat

end CellSyntax
