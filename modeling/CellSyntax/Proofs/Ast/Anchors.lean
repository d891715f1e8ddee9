/-
**The anchors of a syntax tree, and what a shape keeps of them.**

A node of a syntax tree counts as anchored if there is an anchor in its subtree, its own or that of a
node further down. Exactly these nodes have a shape, and the lead of the shape is the earliest anchor
of the subtree. So the leads of the children of a shape come in order, none of them before the lead
of the shape itself.

* `AstNode.mem_anchors_iff`: the anchors of a subtree, by those of the children;
* `Shape.mem_ofNodes_iff`, `Shape.ofNodes_sorted`: the shapes of siblings;
* `Shape.ofNode?_lead`: the lead is the earliest anchor;
* `Shape.ofNode?_eq_none_iff`: only a subtree without anchors has no shape.
-/

import CellSyntax.Tree.Path
import CellSyntax.Zip.Shape

namespace CellSyntax

/-! ### Syntax trees -/

namespace AstNode

/-- What holds of a node if it holds of its children, holds of every node. -/
theorem children_induction {holds : AstNode → Prop}
    (step : ∀ node, (∀ child ∈ node.children, holds child) → holds node) (node : AstNode) :
    holds node := by
  refine @AstNode.rec holds (fun nodes => ∀ node ∈ nodes, holds node) ?node ?nil ?cons node
  case node => exact fun kind anchor children below => step ⟨kind, anchor, children⟩ below
  case nil => exact fun _ member => absurd member List.not_mem_nil
  case cons => exact fun first rest ofFirst ofRest => List.forall_mem_cons.2 ⟨ofFirst, ofRest⟩

/-- The node at the end of a path. -/
def at? (node : AstNode) : Path → Option AstNode
  | [] => some node
  | index :: path =>
    match node.children[index]? with
    | none => none
    | some child => child.at? path

theorem at?_cons {node found : AstNode} {index : Nat} {path : Path} :
    node.at? (index :: path) = some found ↔
      ∃ child, node.children[index]? = some child ∧ child.at? path = some found := by
  rw [at?]
  cases node.children[index]? with
  | none => simp
  | some child => simp

/-- Going on from a node that was found. -/
theorem at?_append_of_at? {node found : AstNode} {path : Path} (isNode : node.at? path = some found)
    (further : Path) : node.at? (path ++ further) = found.at? further := by
  induction path generalizing node with
  | nil =>
    cases isNode
    rfl
  | cons index path ih =>
    obtain ⟨child, isChild, below⟩ := at?_cons.1 isNode
    rw [List.cons_append, at?, isChild]
    exact ih below

theorem at?_concat {node found : AstNode} {path : Path} (isNode : node.at? path = some found)
    (index : Nat) : node.at? (path ++ [index]) = found.children[index]? := by
  rw [at?_append_of_at? isNode, at?]
  cases found.children[index]? with
  | none => rfl
  | some child => rfl

/-- What holds of a node and of every node below its children holds of every node. -/
theorem forall_at?_of_children {holds : AstNode → Prop} {node : AstNode} (own : holds node)
    (children : ∀ child ∈ node.children, ∀ path found, child.at? path = some found → holds found) :
    ∀ path found, node.at? path = some found → holds found := by
  intro path found isNode
  cases path with
  | nil =>
    cases isNode
    exact own
  | cons index path =>
    obtain ⟨child, isChild, below⟩ := at?_cons.1 isNode
    exact children child (List.mem_of_getElem? isChild) path found below

mutual

/-- The anchors in a subtree, that of its root first. -/
def anchors : AstNode → List Position
  | ⟨_, anchor, children⟩ => anchor.toList ++ anchorsOf children

/-- The anchors in the subtrees of siblings. -/
def anchorsOf : List AstNode → List Position
  | [] => []
  | node :: rest => node.anchors ++ anchorsOf rest

end

theorem mem_anchorsOf_iff {nodes : List AstNode} {position : Position} :
    position ∈ anchorsOf nodes ↔ ∃ node ∈ nodes, position ∈ node.anchors := by
  induction nodes with
  | nil => simp [anchorsOf]
  | cons node rest ih => simp [anchorsOf, ih]

/-- **The anchors of a subtree**: that of its root and those of the children's subtrees. -/
theorem mem_anchors_iff {node : AstNode} {position : Position} :
    position ∈ node.anchors ↔
      node.anchor = some position ∨ ∃ child ∈ node.children, position ∈ child.anchors := by
  obtain ⟨kind, anchor, children⟩ := node
  rw [anchors, List.mem_append, Option.mem_toList, mem_anchorsOf_iff]

theorem anchors_of_mem_children {node child : AstNode} (member : child ∈ node.children) :
    ∀ position ∈ child.anchors, position ∈ node.anchors :=
  fun _ inside => mem_anchors_iff.2 (Or.inr ⟨child, member, inside⟩)

theorem anchors_of_at? {node found : AstNode} {path : Path} (isNode : node.at? path = some found) :
    ∀ position ∈ found.anchors, position ∈ node.anchors := by
  induction path generalizing node with
  | nil =>
    cases isNode
    exact fun _ member => member
  | cons index path ih =>
    obtain ⟨child, isChild, below⟩ := at?_cons.1 isNode
    exact fun position member =>
      anchors_of_mem_children (List.mem_of_getElem? isChild) position (ih below position member)

end AstNode

/-! ### Shapes -/

namespace Shape

variable {node : AstNode} {nodes : List AstNode} {shape : Shape} {anchor : Option Position}
  {shapes : List Shape} {lead : Position}

theorem mem_ofNodes_iff : shape ∈ ofNodes nodes ↔ ∃ node ∈ nodes, ofNode? node = some shape := by
  induction nodes with
  | nil => simp [ofNodes]
  | cons node rest ih =>
    rw [ofNodes]
    cases own : ofNode? node with
    | none => simp [own, ih]
    | some first => simp [own, (insert_perm first (ofNodes rest)).mem_iff, ih, eq_comm]

/-- **The shapes of siblings come in the order of their leads.** -/
theorem ofNodes_sorted (nodes : List AstNode) :
    (ofNodes nodes).Pairwise fun first second => first.lead ≤ second.lead := by
  induction nodes with
  | nil => exact .nil
  | cons node rest ih =>
    rw [ofNodes]
    split
    · exact ih
    · exact insert_sorted ih

theorem ofNode?_eq (node : AstNode) :
    ofNode? node = (leadOf? node.anchor (ofNodes node.children)).map fun lead =>
      ⟨node.kind, node.anchor, lead, ofNodes node.children⟩ := by
  obtain ⟨kind, anchor, children⟩ := node
  rw [ofNode?]

/-- What the shape of a node keeps of it. -/
theorem ofNode?_parts (shows : ofNode? node = some shape) :
    shape.kind = node.kind ∧ shape.anchor = node.anchor ∧
      shape.children = ofNodes node.children ∧
      leadOf? node.anchor (ofNodes node.children) = some shape.lead := by
  rw [ofNode?_eq] at shows
  obtain ⟨lead, found, rfl⟩ := Option.map_eq_some_iff.1 shows
  exact ⟨rfl, rfl, rfl, found⟩

theorem leadOf?_eq_none_iff : leadOf? anchor shapes = none ↔ anchor = none ∧ shapes = [] := by
  cases anchor <;> cases shapes <;> simp [leadOf?]

theorem ofNodes_eq_nil_iff : ofNodes nodes = [] ↔ ∀ node ∈ nodes, ofNode? node = none := by
  rw [List.eq_nil_iff_forall_not_mem]
  constructor
  · intro none node member
    rw [Option.eq_none_iff_forall_ne_some]
    exact fun shape shows => none shape (mem_ofNodes_iff.2 ⟨node, member, shows⟩)
  · intro none shape member
    obtain ⟨node, isNode, shows⟩ := mem_ofNodes_iff.1 member
    rw [none node isNode] at shows
    cases shows

/-- **Only a subtree without anchors has no shape.** -/
theorem ofNode?_eq_none_iff : ofNode? node = none ↔ node.anchors = [] := by
  induction node using AstNode.children_induction with
  | step node ih =>
    rw [ofNode?_eq, Option.map_eq_none_iff, leadOf?_eq_none_iff, ofNodes_eq_nil_iff,
      List.eq_nil_iff_forall_not_mem]
    constructor
    · rintro ⟨own, children⟩ position member
      rcases AstNode.mem_anchors_iff.1 member with found | ⟨child, isChild, inside⟩
      · rw [own] at found
        cases found
      · rw [(ih child isChild).1 (children child isChild)] at inside
        cases inside
    · intro none
      refine ⟨Option.eq_none_iff_forall_ne_some.2 fun position own =>
        none position (AstNode.mem_anchors_iff.2 (Or.inl own)), fun child isChild => ?_⟩
      rw [ih child isChild, List.eq_nil_iff_forall_not_mem]
      exact fun position inside => none position (AstNode.anchors_of_mem_children isChild _ inside)

/-- A node with an anchor in its subtree has a shape. -/
theorem exists_ofNode? {position : Position} (anchored : position ∈ node.anchors) :
    ∃ shape, ofNode? node = some shape := by
  rw [← Option.ne_none_iff_exists', ne_eq, ofNode?_eq_none_iff]
  exact List.ne_nil_of_mem anchored

/-- The lead is a node's own anchor or the lead of a child, and none of them comes before it. -/
theorem leadOf?_least (sorted : shapes.Pairwise fun first second => first.lead ≤ second.lead)
    (found : leadOf? anchor shapes = some lead) :
    (anchor = some lead ∨ ∃ shape ∈ shapes, shape.lead = lead) ∧
      (∀ position, anchor = some position → lead ≤ position) ∧
      ∀ shape ∈ shapes, lead ≤ shape.lead := by
  rcases shapes with _ | ⟨first, rest⟩
  · cases anchor with
    | none => cases found
    | some own =>
      cases found
      exact ⟨Or.inl rfl, fun _ same => Option.some.inj same ▸ Position.le_refl _,
        fun _ member => absurd member List.not_mem_nil⟩
  · have ahead : ∀ shape ∈ first :: rest, first.lead ≤ shape.lead :=
      List.forall_mem_cons.2 ⟨Position.le_refl _, (List.pairwise_cons.1 sorted).1⟩
    cases anchor with
    | none =>
      cases found
      exact ⟨Or.inr ⟨first, List.mem_cons_self, rfl⟩, fun _ same => (nomatch same), ahead⟩
    | some own =>
      rw [leadOf?, Option.some.injEq] at found
      split at found
      · rename_i earlier
        cases found
        exact ⟨Or.inl rfl, fun _ same => Option.some.inj same ▸ Position.le_refl _,
          fun shape member => Position.le_trans earlier (ahead shape member)⟩
      · rename_i later
        cases found
        refine ⟨Or.inr ⟨first, List.mem_cons_self, rfl⟩, fun position same => ?_, ahead⟩
        cases same
        exact (Position.le_total _ _).resolve_left later

/-- **The lead of a shape is the earliest anchor of the subtree.** -/
theorem ofNode?_lead (shows : ofNode? node = some shape) :
    shape.lead ∈ node.anchors ∧ ∀ position ∈ node.anchors, shape.lead ≤ position := by
  induction node using AstNode.children_induction generalizing shape with
  | step node ih =>
    obtain ⟨-, -, -, found⟩ := ofNode?_parts shows
    obtain ⟨own, beforeAnchor, beforeShapes⟩ := leadOf?_least (ofNodes_sorted _) found
    refine ⟨?_, fun position member => ?_⟩
    · rcases own with own | ⟨inner, member, same⟩
      · exact AstNode.mem_anchors_iff.2 (Or.inl own)
      · obtain ⟨child, isChild, ofChild⟩ := mem_ofNodes_iff.1 member
        exact AstNode.anchors_of_mem_children isChild _ (same ▸ (ih child isChild ofChild).1)
    · rcases AstNode.mem_anchors_iff.1 member with own | ⟨child, isChild, inside⟩
      · exact beforeAnchor position own
      · obtain ⟨inner, ofChild⟩ := exists_ofNode? inside
        exact Position.le_trans (beforeShapes inner (mem_ofNodes_iff.2 ⟨child, isChild, ofChild⟩))
          ((ih child isChild ofChild).2 position inside)

end Shape

end CellSyntax
