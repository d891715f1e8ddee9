/-
**Trees in an arena.**

A tree can be kept as a table of its nodes in which links are numbers. A node gets the next number
when it is allocated, after its children, and the links of the children to it are filled in then.
The nodes of a tree are allocated in construction order, and the root comes last.

Over the table, the ancestors of a node are found by following the links to the parents, the node
after a whole subtree by climbing until there is a next child, and the nodes of a subtree by a
stack of nodes still to visit. The loops take at most a given number of steps.

* `Builder.alloc_id`: a new node gets the next number;
* `Builder.length_link`: filling in links adds no node.
-/

import CellSyntax.Tree.Order

namespace CellSyntax

/-- One item of a node's content in an arena: the number of a token or of a node. -/
inductive Slot where
  | token (number : Nat)
  | node (id : Nat)
deriving DecidableEq, Repr, Inhabited

/-- The number of the child node that an item is, if it is one. -/
def Slot.node? : Slot → Option Nat
  | .token _ => none
  | .node id => some id

/-- A node in an arena. -/
structure ArenaNode where
  kind : String
  range : Range
  /-- The node's own tokens and its child nodes, in source order. -/
  content : List Slot
  /-- The child nodes only, in source order. -/
  children : List Nat
  parent : Option Nat
  /-- Which child of its parent the node is. -/
  index : Nat
deriving DecidableEq, Repr

/-! ### Allocating nodes -/

/-- A tree under construction. A node's number is its place in the list. -/
structure Builder where
  tokens : List Token
  nodes : List ArenaNode
deriving Repr

namespace Builder

/-- The range that an item covers. -/
def rangeOf (builder : Builder) : Slot → Range
  | .token number => (builder.tokens[number]?.map Token.range).getD ⟨.origin, .origin⟩
  | .node id => (builder.nodes[id]?.map ArenaNode.range).getD ⟨.origin, .origin⟩

/-- The range from the first item's start to the last item's end. -/
def hull (builder : Builder) (content : List Slot) : Range :=
  match content.head?, content.getLast? with
  | some first, some last => Range.ofEnds (builder.rangeOf first).start (builder.rangeOf last).stop
  | _, _ => ⟨.origin, .origin⟩

/-- Fill in the links of `children` to their parent, the first of them being its child `index`. -/
def link (parent : Nat) : (index : Nat) → (children : List Nat) → List ArenaNode → List ArenaNode
  | _, [], nodes => nodes
  | index, child :: children, nodes =>
    link parent (index + 1) children
      (nodes.modify child fun node => { node with parent := some parent, index := index })

/-- Allocate a node over a content, and link the child nodes in it to the new node. -/
def alloc (builder : Builder) (kind : String) (content : List Slot) : Builder × Nat :=
  let id := builder.nodes.length
  let children := content.filterMap Slot.node?
  ({ builder with nodes := link id 0 children builder.nodes ++
      [⟨kind, builder.hull content, content, children, none, 0⟩] }, id)

theorem alloc_id (builder : Builder) (kind : String) (content : List Slot) :
    (builder.alloc kind content).2 = builder.nodes.length := rfl

theorem length_link (parent index : Nat) (children : List Nat) (nodes : List ArenaNode) :
    (link parent index children nodes).length = nodes.length := by
  induction children generalizing index nodes with
  | nil => rfl
  | cons child children ih => rw [link, ih, List.length_modify]

end Builder

namespace Element

mutual

/-- Allocate the nodes of an element, children before their parent. -/
def allocate (builder : Builder) : Element → Builder × Slot
  | .token lexeme => (builder, .token lexeme.number)
  | .node kind _ content =>
    let (below, slots) := allocateAll builder content
    let (whole, id) := below.alloc kind slots
    (whole, .node id)

/-- Allocate the nodes below a content, from left to right. -/
def allocateAll (builder : Builder) : List Element → Builder × List Slot
  | [] => (builder, [])
  | element :: rest =>
    let (first, slot) := element.allocate builder
    let (all, slots) := allocateAll first rest
    (all, slot :: slots)

end

end Element

/-- A tree as a table of its nodes, with the number of its root. -/
structure Arena where
  tokens : List Token
  nodes : List ArenaNode
  root : Nat
deriving Repr

/-- The arena of a tree over a token table. -/
def Node.arena (table : List Token) (root : Node) : Arena :=
  let (below, slots) := Element.allocateAll ⟨table, []⟩ root.content
  let (whole, id) := below.alloc root.kind slots
  ⟨whole.tokens, whole.nodes, id⟩

/-! ### Following links -/

/-- How a climb to the right ended. -/
inductive Climb where
  /-- The climb came to a node. -/
  | found (id : Nat)
  /-- The climb came to the root. -/
  | ended
  /-- There were not enough steps. -/
  | unfinished
deriving DecidableEq, Repr

namespace Arena

variable (arena : Arena)

def parent? (id : Nat) : Option Nat := arena.nodes[id]?.bind ArenaNode.parent

def children (id : Nat) : List Nat := (arena.nodes[id]?.map ArenaNode.children).getD []

def content (id : Nat) : List Slot := (arena.nodes[id]?.map ArenaNode.content).getD []

/-- Which child of its parent a node is. -/
def index (id : Nat) : Nat := (arena.nodes[id]?.map ArenaNode.index).getD 0

/-- The node that a link leads to, its parent, and so on. -/
def chain : (steps : Nat) → Option Nat → List Nat
  | 0, _ => []
  | _ + 1, none => []
  | steps + 1, some id => id :: chain steps (arena.parent? id)

/-- The ancestors of a node, from its parent up. -/
def ancestors (id : Nat) : List Nat := arena.chain arena.nodes.length (arena.parent? id)

/-- The climb from a node to the next child of its parent, or else of the nearest ancestor that has
one. -/
def climb : (steps : Nat) → Nat → Climb
  | 0, _ => .unfinished
  | steps + 1, id =>
    match arena.parent? id with
    | none => .ended
    | some parent =>
      match (arena.children parent)[arena.index id + 1]? with
      | some next => .found next
      | none => climb steps parent

/-- The node after the whole subtree of a node. -/
def rightSibling (id : Nat) : Climb := arena.climb arena.nodes.length id

/-- The walk with a stack of nodes still to visit: the children of a visited node go on top, the
first of them uppermost. -/
def walk : (steps : Nat) → List Nat → List Nat
  | 0, _ => []
  | _ + 1, [] => []
  | steps + 1, id :: stack => id :: walk steps (arena.children id ++ stack)

/-- The nodes of a subtree, its root first. -/
def descendants (id : Nat) : List Nat := arena.walk arena.nodes.length [id]

end Arena

end CellSyntax
