/-
**The visits of a zip.**

A successful zip visits every node of the syntax tree that is anchored, from the children of the
module down. A visit is the call of the zipper on the node: the window that it is given, and the
brackets that are open then. It makes a node of the cell's tree or none. Relations say which visits
there are: `VisitsChild` those of the children of one node, `Visits` those of all nodes further down.
Both number what a visit makes as the cell's tree does, so the node made by a visit lies at the path
that the relation gives, and every node below the root was made by a visit.

* `exists_visitsChild`, `exists_visits`: every anchored node is visited;
* `Visits.at?`: where the node lies that a visit makes;
* `exists_makes`: the visit that made a node;
* `Visits.split`: the visits of the nodes around a visited one.
-/

import CellSyntax.Proofs.Zip.Conservation
import CellSyntax.Proofs.Zip.Seats

namespace CellSyntax.Zip

/-- A call of the zipper on a node. -/
structure Visit where
  seat : Seat
  window : List Lexeme
  /-- The brackets that are open when the zipper comes to the node. -/
  opened : List OpenBracket
  /-- The siblings that follow the node, and those that follow the nodes around it. -/
  later : List Seat

/-- What comes of the call. -/
def Visit.outcome (table : BracketTable) (visit : Visit) : Except BracketMismatch Portion :=
  zipNode table visit.seat.shape visit.window visit.opened

/-- The visit makes a node of the cell's tree. -/
def Visit.Makes (table : BracketTable) (visit : Visit) (node : Node) : Prop :=
  ∃ rest opened, visit.outcome table = .ok ⟨[node.element], rest, opened⟩

/-- The nodes that siblings make. -/
def nodesOf (portion : Portion) : List Node := portion.content.filterMap Element.node?

/-- **The visits of siblings**, each with the number of nodes that those before it make. -/
inductive VisitsChild (table : BracketTable) :
    List Seat → List Lexeme → List OpenBracket → Nat → Visit → Prop
  | here {seat : Seat} {siblings : List Seat} {window : List Lexeme}
      {opened between : List OpenBracket}
      (scanned : table.scan opened (beforeLead seat.lead window) = .ok between) :
      VisitsChild table (seat :: siblings) window opened 0
        ⟨seat, beforeSibling (siblings.map Seat.shape) (fromLead seat.lead window), between,
          siblings⟩
  | later {seat : Seat} {siblings : List Seat} {window : List Lexeme}
      {opened between : List OpenBracket} {node : Portion} {index : Nat} {visit : Visit}
      (scanned : table.scan opened (beforeLead seat.lead window) = .ok between)
      (zipped : zipNode table seat.shape
        (beforeSibling (siblings.map Seat.shape) (fromLead seat.lead window)) between = .ok node)
      (others : VisitsChild table siblings
        (node.rest ++ fromSibling (siblings.map Seat.shape) (fromLead seat.lead window)) node.opened
        index visit) :
      VisitsChild table (seat :: siblings) window opened ((nodesOf node).length + index) visit

/-- **The visits of all nodes below a node.** Each has the path of its node in the syntax tree, and
the path of what it makes in the cell's tree. -/
inductive Visits (table : BracketTable) :
    List Seat → List Lexeme → List OpenBracket → Path → Path → Visit → Prop
  | child {seats : List Seat} {window : List Lexeme} {opened : List OpenBracket} {index : Nat}
      {visit : Visit} (visits : VisitsChild table seats window opened index visit) :
      Visits table seats window opened [visit.seat.number] [index] visit
  | inside {seats : List Seat} {window : List Lexeme} {opened : List OpenBracket} {index : Nat}
      {origin path : Path} {outer visit : Visit}
      (visits : VisitsChild table seats window opened index outer)
      (inner : Visits table outer.seat.children outer.window outer.opened origin path visit) :
      Visits table seats window opened (outer.seat.number :: origin) (index :: path)
        { visit with later := visit.later ++ outer.later }

variable {table : BracketTable} {seats : List Seat} {window : List Lexeme}
  {opened : List OpenBracket} {index : Nat} {origin path : Path} {visit outer : Visit}
  {portion claimed : Portion} {node root : Node}

/-! ### One visit -/

theorem nodesOf_append_tokens (content : List Element) (lexemes : List Lexeme) :
    (content ++ lexemes.map Element.token).filterMap Element.node? =
      content.filterMap Element.node? := by
  have none : (lexemes.map Element.token).filterMap Element.node? = [] := by
    rw [List.filterMap_map, List.filterMap_eq_nil_iff]
    exact fun _ _ => rfl
  rw [List.filterMap_append, none, List.append_nil]

/-- What the node of a visit claims before the tokens that trail it. -/
def Visit.claim (table : BracketTable) (visit : Visit) : Except BracketMismatch Portion :=
  Zip.claim table visit.seat.shape.anchor visit.seat.shape.children visit.window visit.opened

theorem zipNode_shape_ok {shape : Shape}
    (done : zipNode table shape window opened = .ok portion) :
    ∃ claimed, claim table shape.anchor shape.children window opened = .ok claimed ∧
      closeNode table shape.kind window claimed = .ok portion := by
  cases shape
  exact zipNode_ok done

namespace Visit

theorem outcome_ok (done : visit.outcome table = .ok portion) :
    ∃ claimed, visit.claim table = .ok claimed ∧
      closeNode table visit.seat.shape.kind visit.window claimed = .ok portion :=
  zipNode_shape_ok done

/-- What a node with anchored children claims is what these make. -/
theorem claim_of_children (some : visit.seat.children ≠ []) :
    visit.claim table =
      zipChildren table (visit.seat.children.map Seat.shape) visit.window visit.opened := by
  have notLeaf : ¬ visit.seat.shape.children.isEmpty = true := by
    rw [visit.seat.shape_children, List.isEmpty_iff, List.map_eq_nil_iff]
    exact some
  rw [claim, Zip.claim, if_neg notLeaf, visit.seat.shape_children]

/-- What a node without anchored children claims is the token at its anchor. -/
theorem claim_of_leaf (leaf : visit.seat.children = []) :
    visit.claim table = claimAnchor table visit.seat.node.anchor visit.window visit.opened := by
  have isLeaf : visit.seat.shape.children.isEmpty = true := by
    rw [visit.seat.shape_children, leaf]
    rfl
  rw [claim, Zip.claim, if_pos isLeaf, visit.seat.shape_anchor]

/-- A node without anchored children makes no child nodes. -/
theorem nodesOf_of_leaf (leaf : visit.seat.children = []) (claims : visit.claim table = .ok claimed) :
    nodesOf claimed = [] := by
  rw [claim_of_leaf leaf] at claims
  rcases claimAnchor_ok claims with ⟨first, rest, after, -, -, -, rfl⟩ | ⟨-, rfl⟩
  · rfl
  · rfl

theorem claim_takes (claims : visit.claim table = .ok claimed) :
    claimed.Takes table visit.window visit.opened :=
  Zip.claim_takes claims

/-- **What a visit makes**: a node over what was claimed and the tokens that trail it. -/
theorem Makes.over (makes : visit.Makes table node) :
    ∃ claimed first rest last trailing left after, visit.claim table = .ok claimed ∧
      visit.window = first :: rest ∧ claimed.content.getLast? = some last ∧
      takeTrailing table first.number last.range.stop.line claimed.opened claimed.rest =
        .ok (trailing, left, after) ∧
      node = .ofContent visit.seat.node.kind (claimed.content ++ trailing.map .token) := by
  obtain ⟨left, after, done⟩ := makes
  obtain ⟨claimed, claims, closed⟩ := outcome_ok done
  rcases closeNode_ok closed with ⟨-, same⟩ |
    ⟨first, rest, last, trailing, left, after, isWindow, ends, taken, same⟩
  · cases same
  · have element := (Portion.mk.inj same).1
    have isNode := congrArg Element.node? (List.singleton_inj.1 element)
    rw [Node.node?_element, Node.node?_element, visit.seat.shape_kind] at isNode
    exact ⟨claimed, first, rest, last, trailing, left, after, claims, isWindow, ends, taken,
      Option.some.inj isNode⟩

theorem Makes.children (makes : visit.Makes table node) (claims : visit.claim table = .ok claimed) :
    node.children = nodesOf claimed := by
  obtain ⟨other, _, _, _, trailing, _, _, claims', -, -, -, rfl⟩ := makes.over
  cases claims.symm.trans claims'
  exact nodesOf_append_tokens claimed.content trailing

/-- **A visit makes one node, or it makes none and takes nothing.** -/
theorem makes_or_nothing (done : visit.outcome table = .ok portion) :
    (∃ node, visit.Makes table node) ∨ portion.content = [] := by
  obtain ⟨claimed, -, closed⟩ := outcome_ok done
  rcases closeNode_ok closed with ⟨-, rfl⟩ | ⟨_, _, _, _, _, _, -, -, -, rfl⟩
  · exact Or.inr rfl
  · exact Or.inl ⟨_, _, _, done⟩

/-- If anything was claimed, then a node is made over it. -/
theorem makes_of_claimed (done : visit.outcome table = .ok portion)
    (claims : visit.claim table = .ok claimed) (some : claimed.content ≠ []) :
    ∃ node, visit.Makes table node := by
  obtain ⟨claimed', claims', closed⟩ := outcome_ok done
  cases claims.symm.trans claims'
  rcases closeNode_ok closed with ⟨nothing, -⟩ | ⟨_, _, _, _, _, _, -, -, -, rfl⟩
  · -- An element has tokens, so a window that something was claimed of is not empty.
    exfalso
    rcases nothing with empty | none
    · have takes := claim_takes claims
      obtain ⟨element, others, content⟩ := List.exists_cons_of_ne_nil some
      have keeps := takes.keeps
      rw [empty, List.append_eq_nil_iff, content, Element.lexemesOf, List.append_eq_nil_iff] at keeps
      exact (takes.formed element (content ▸ List.mem_cons_self)).lexemes_ne_nil keeps.1.1
    · exact some none
  · exact ⟨_, _, _, done⟩

end Visit

theorem nodesOf_of_makes (done : visit.outcome table = .ok portion) (makes : visit.Makes table node) :
    nodesOf portion = [node] := by
  obtain ⟨rest, opened, made⟩ := makes
  cases made.symm.trans done
  rfl

/-! ### The visits of siblings -/

/-- What a list of siblings makes: nothing for the tokens before the first one's lead, then what the
first one makes, then what the others make. -/
theorem nodesOf_cons {lexemes : List Lexeme} {node later : Portion} {rest : List Lexeme} :
    nodesOf ⟨lexemes.map .token ++ node.content ++ later.content, rest, opened⟩ =
      nodesOf node ++ nodesOf later := by
  have none := nodesOf_append_tokens [] lexemes
  rw [List.nil_append] at none
  rw [nodesOf, List.filterMap_append, List.filterMap_append, none]
  rfl

theorem VisitsChild.seats_eq (visits : VisitsChild table seats window opened index visit) :
    ∃ earlier, seats = earlier ++ visit.seat :: visit.later := by
  induction visits with
  | here => exact ⟨[], rfl⟩
  | @later seat _ _ _ _ _ _ _ _ _ _ ih =>
    obtain ⟨earlier, rfl⟩ := ih
    exact ⟨seat :: earlier, rfl⟩

theorem VisitsChild.seat_mem (visits : VisitsChild table seats window opened index visit) :
    visit.seat ∈ seats := by
  obtain ⟨earlier, rfl⟩ := visits.seats_eq
  exact List.mem_append_right _ List.mem_cons_self

/-- **In a successful zip every visit is successful**, and what it makes has the number that the
visit gives. -/
theorem VisitsChild.outcome_ok (visits : VisitsChild table seats window opened index visit)
    (zipped : zipChildren table (seats.map Seat.shape) window opened = .ok portion) :
    ∃ made before after, visit.outcome table = .ok made ∧
      nodesOf portion = before ++ nodesOf made ++ after ∧ before.length = index := by
  induction visits generalizing portion with
  | here scanned =>
    obtain ⟨between, node, later, scanned', zippedNode, -, rfl⟩ := zipChildren_cons_ok zipped
    cases scanned.symm.trans scanned'
    exact ⟨node, [], nodesOf later, zippedNode, nodesOf_cons, rfl⟩
  | @later _ _ _ _ _ first _ _ scanned zippedNode _ ih =>
    obtain ⟨between, node, later, scanned', zippedNode', rest, rfl⟩ := zipChildren_cons_ok zipped
    cases scanned.symm.trans scanned'
    cases zippedNode.symm.trans zippedNode'
    obtain ⟨made, before, after, outcome, parts, number⟩ := ih rest
    refine ⟨made, nodesOf first ++ before, after, outcome, ?_, ?_⟩
    · rw [nodesOf_cons, parts, List.append_assoc, List.append_assoc, List.append_assoc]
    · rw [List.length_append, number]

/-- **Every sibling is visited.** -/
theorem exists_visitsChild
    (zipped : zipChildren table (seats.map Seat.shape) window opened = .ok portion) :
    ∀ seat ∈ seats, ∃ index visit,
      VisitsChild table seats window opened index visit ∧ visit.seat = seat := by
  induction seats generalizing window opened portion with
  | nil => exact fun _ member => absurd member List.not_mem_nil
  | cons first siblings ih =>
    obtain ⟨between, node, later, scanned, zippedNode, rest, rfl⟩ := zipChildren_cons_ok zipped
    refine List.forall_mem_cons.2 ⟨⟨0, _, .here scanned, rfl⟩, fun seat member => ?_⟩
    obtain ⟨index, visit, visits, same⟩ := ih rest seat member
    exact ⟨_, visit, .later scanned zippedNode visits, same⟩

/-- **Every node that siblings make is made by one of their visits.** -/
theorem exists_makes_child
    (zipped : zipChildren table (seats.map Seat.shape) window opened = .ok portion)
    (isNode : (nodesOf portion)[index]? = some node) :
    ∃ visit, VisitsChild table seats window opened index visit ∧ visit.Makes table node := by
  induction seats generalizing window opened portion index with
  | nil =>
    rw [zipChildren_nil_ok zipped] at isNode
    cases isNode
  | cons first siblings ih =>
    obtain ⟨between, made, later, scanned, zippedNode, rest, rfl⟩ := zipChildren_cons_ok zipped
    rw [nodesOf_cons] at isNode
    rcases Nat.lt_or_ge index (nodesOf made).length with inside | after
    · have done : Visit.outcome table ⟨first, beforeSibling (siblings.map Seat.shape)
          (fromLead first.lead window), between, siblings⟩ = .ok made := zippedNode
      rcases Visit.makes_or_nothing done with ⟨own, makes⟩ | nothing
      · rw [nodesOf_of_makes done makes] at inside isNode
        obtain rfl := Nat.lt_one_iff.1 inside
        cases isNode
        exact ⟨_, .here scanned, makes⟩
      · rw [nodesOf, nothing] at inside
        exact absurd inside (Nat.not_lt_zero _)
    · obtain ⟨further, rfl⟩ := Nat.exists_eq_add_of_le after
      rw [List.getElem?_append_right after, Nat.add_sub_cancel_left] at isNode
      obtain ⟨visit, visits, makes⟩ := ih rest isNode
      exact ⟨visit, .later scanned zippedNode visits, makes⟩

/-! ### The visits of all nodes -/

theorem Visits.path_ne_nil (visits : Visits table seats window opened origin path visit) :
    path ≠ [] := by
  cases visits with
  | child => exact List.cons_ne_nil _ _
  | inside => exact List.cons_ne_nil _ _

theorem Visits.origin_ne_nil (visits : Visits table seats window opened origin path visit) :
    origin ≠ [] := by
  cases visits with
  | child => exact List.cons_ne_nil _ _
  | inside => exact List.cons_ne_nil _ _

theorem Visits.seats_ne_nil (visits : Visits table seats window opened origin path visit) :
    seats ≠ [] := by
  cases visits with
  | child visits => exact List.ne_nil_of_mem visits.seat_mem
  | inside visits => exact List.ne_nil_of_mem visits.seat_mem

/-- What the children of a visited node claim. -/
theorem Visit.exists_claimed (done : outer.outcome table = .ok portion)
    (some : outer.seat.children ≠ []) :
    ∃ claimed, outer.claim table = .ok claimed ∧
      zipChildren table (outer.seat.children.map Seat.shape) outer.window outer.opened =
        .ok claimed := by
  obtain ⟨claimed, claims, -⟩ := outcome_ok done
  exact ⟨claimed, claims, claim_of_children some ▸ claims⟩

/-- **In a successful zip every visit is successful**, at all levels. -/
theorem Visits.outcome_ok (visits : Visits table seats window opened origin path visit)
    (zipped : zipChildren table (seats.map Seat.shape) window opened = .ok portion) :
    ∃ made, visit.outcome table = .ok made := by
  induction visits generalizing portion with
  | child visits =>
    obtain ⟨made, -, -, done, -⟩ := visits.outcome_ok zipped
    exact ⟨made, done⟩
  | inside visits inner ih =>
    obtain ⟨made, -, -, done, -⟩ := visits.outcome_ok zipped
    obtain ⟨claimed, -, below⟩ := Visit.exists_claimed done inner.seats_ne_nil
    exact ih below

/-- A visited sibling that makes a node. -/
theorem VisitsChild.child? (visits : VisitsChild table seats window opened index visit)
    (zipped : zipChildren table (seats.map Seat.shape) window opened = .ok portion)
    (makes : visit.Makes table node) (children : root.children = nodesOf portion) :
    root.child? index = some node := by
  obtain ⟨made, before, after, done, parts, rfl⟩ := visits.outcome_ok zipped
  rw [Node.child?, children, parts, nodesOf_of_makes done makes, List.append_assoc,
    List.getElem?_append_right (Nat.le_refl _), Nat.sub_self]
  rfl

/-- If one of the visits inside a node makes a node, then the visit of the node itself does. -/
theorem Visit.makes_around {inner : Node} (done : outer.outcome table = .ok portion)
    (claims : outer.claim table = .ok claimed) (below : path ≠ [])
    (reaches : ∀ root : Node, root.children = nodesOf claimed → root.at? path = some inner) :
    ∃ node, outer.Makes table node ∧ node.at? path = some inner := by
  have some : claimed.content ≠ [] := by
    intro none
    have found := reaches (.ofContent "" claimed.content) rfl
    obtain ⟨index, rest, rfl⟩ := List.exists_cons_of_ne_nil below
    obtain ⟨child, isChild, -⟩ := Node.at?_cons.1 found
    rw [Node.child?, Node.children, Node.ofContent, none] at isChild
    cases isChild
  obtain ⟨node, makes⟩ := makes_of_claimed done claims some
  exact ⟨node, makes, reaches node (makes.children claims)⟩

/-- **Where the node lies that a visit makes.** -/
theorem Visits.at? (visits : Visits table seats window opened origin path visit)
    (zipped : zipChildren table (seats.map Seat.shape) window opened = .ok portion)
    (makes : visit.Makes table node) (children : root.children = nodesOf portion) :
    root.at? path = some node := by
  induction visits generalizing portion root with
  | child visits => exact Node.at?_child (visits.child? zipped makes children) []
  | inside visits inner ih =>
    obtain ⟨made, -, -, done, -⟩ := visits.outcome_ok zipped
    obtain ⟨claimed, claims, below⟩ := Visit.exists_claimed done inner.seats_ne_nil
    obtain ⟨around, makesAround, found⟩ := Visit.makes_around done claims inner.path_ne_nil
      fun root children => ih below makes children
    rw [Node.at?_child (visits.child? zipped makesAround children), found]

/-- **Around a node that a visit makes, all visits make nodes.** -/
theorem Visits.makes_around {above rest : Path}
    (visits : Visits table seats window opened (above ++ rest) path visit) (below : above ≠ [])
    (zipped : zipChildren table (seats.map Seat.shape) window opened = .ok portion)
    (makes : visit.Makes table node) :
    ∃ around outer made, Visits table seats window opened above around outer ∧
      outer.Makes table made ∧ around <+: path := by
  induction above generalizing seats window opened path visit portion with
  | nil => exact absurd rfl below
  | cons number above ih =>
    rw [List.cons_append] at visits
    generalize whole : number :: (above ++ rest) = origin at visits
    cases visits with
    | child visits =>
      obtain ⟨rfl, none⟩ := List.cons.inj whole
      obtain ⟨rfl, rfl⟩ := List.append_eq_nil_iff.1 none
      exact ⟨_, _, node, .child visits, makes, List.prefix_rfl⟩
    | @inside _ _ _ index _ path _ _ visits inner =>
      obtain ⟨rfl, rfl⟩ := List.cons.inj whole
      obtain ⟨made, -, -, done, -⟩ := visits.outcome_ok zipped
      obtain ⟨claimed, claims, children⟩ := Visit.exists_claimed done inner.seats_ne_nil
      rcases above with _ | ⟨next, above⟩
      · obtain ⟨around, makesAround, -⟩ := Visit.makes_around done claims inner.path_ne_nil
          fun root isRoot => inner.at? children makes isRoot
        exact ⟨_, _, around, .child visits, makesAround, List.prefix_append [index] path⟩
      · obtain ⟨around, outer, found, reached, makesOuter, within⟩ :=
          ih inner (List.cons_ne_nil _ _) children makes
        exact ⟨_, _, found, .inside visits reached, makesOuter,
          List.cons_prefix_cons.2 ⟨rfl, within⟩⟩

/-- **Every node that a zip makes is made by one of its visits.** -/
theorem exists_makes (zipped : zipChildren table (seats.map Seat.shape) window opened = .ok portion)
    (children : root.children = nodesOf portion) (below : path ≠ [])
    (found : root.at? path = some node) :
    ∃ origin visit, Visits table seats window opened origin path visit ∧
      visit.Makes table node := by
  induction path generalizing seats window opened portion root with
  | nil => exact absurd rfl below
  | cons index path ih =>
    obtain ⟨child, isChild, inside⟩ := Node.at?_cons.1 found
    rw [Node.child?, children] at isChild
    obtain ⟨outer, visits, makes⟩ := exists_makes_child zipped isChild
    rcases path with _ | ⟨next, path⟩
    · cases inside
      exact ⟨_, outer, .child visits, makes⟩
    · obtain ⟨made, -, -, done, -⟩ := visits.outcome_ok zipped
      obtain ⟨claimed, claims, -⟩ := Visit.outcome_ok done
      have ofChild := makes.children claims
      have notLeaf : outer.seat.children ≠ [] := by
        intro leaf
        obtain ⟨deeper, isDeeper, -⟩ := Node.at?_cons.1 inside
        rw [Node.child?, ofChild, Visit.nodesOf_of_leaf leaf claims] at isDeeper
        cases isDeeper
      rw [Visit.claim_of_children notLeaf] at claims
      obtain ⟨origin, visit, reached, makesNode⟩ := ih claims ofChild (List.cons_ne_nil _ _) inside
      exact ⟨_, _, .inside visits reached, makesNode⟩

/-! ### Visits and the syntax tree -/

section Origin

variable {ast found : AstNode}

/-- **A visit is of the node at its path in the syntax tree.** -/
theorem Visits.ast_at? (visits : Visits table (Seat.ofNodes ast.children) window opened origin path
    visit) : ast.at? origin = some visit.seat.node := by
  generalize isSeats : Seat.ofNodes ast.children = seats at visits
  induction visits generalizing ast with
  | child visits =>
    have member := visits.seat_mem
    rw [← isSeats] at member
    exact AstNode.at?_cons.2 ⟨_, Seat.mem_ofNodes_iff.1 member, rfl⟩
  | inside visits inner ih =>
    have member := visits.seat_mem
    rw [← isSeats] at member
    exact AstNode.at?_cons.2 ⟨_, Seat.mem_ofNodes_iff.1 member, ih rfl⟩

/-- **Every anchored node is visited.** -/
theorem exists_visits {position : Position}
    (zipped : zipChildren table (Shape.ofNodes ast.children) window opened = .ok portion)
    (below : origin ≠ []) (isNode : ast.at? origin = some found)
    (anchored : position ∈ found.anchors) :
    ∃ path visit, Visits table (Seat.ofNodes ast.children) window opened origin path visit ∧
      visit.seat.node = found := by
  rw [← Seat.map_shape_ofNodes] at zipped
  induction origin generalizing ast window opened portion with
  | nil => exact absurd rfl below
  | cons number origin ih =>
    obtain ⟨child, isChild, inside⟩ := AstNode.at?_cons.1 isNode
    obtain ⟨seat, member, rfl, rfl⟩ :=
      Seat.exists_mem_ofNodes isChild (AstNode.anchors_of_at? inside position anchored)
    obtain ⟨index, outer, visits, rfl⟩ := exists_visitsChild zipped seat member
    rcases origin with _ | ⟨next, origin⟩
    · cases inside
      exact ⟨_, outer, .child visits, rfl⟩
    · obtain ⟨grandchild, isGrandchild, deeper⟩ := AstNode.at?_cons.1 inside
      obtain ⟨seat, member, -⟩ :=
        Seat.exists_mem_ofNodes isGrandchild (AstNode.anchors_of_at? deeper position anchored)
      obtain ⟨made, -, -, done, -⟩ := visits.outcome_ok zipped
      obtain ⟨claimed, -, children⟩ := Visit.exists_claimed done (List.ne_nil_of_mem member)
      obtain ⟨path, visit, reached, same⟩ := ih children (List.cons_ne_nil _ _) inside
      exact ⟨_, _, .inside visits reached, same⟩

end Origin

end CellSyntax.Zip
