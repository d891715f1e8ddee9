/-
**Orders on the nodes of a tree.**

Document order lists a node before its children; construction order lists it after them. Besides
the two recursions there is a walk with a list of nodes still to visit, and the step to the node
that follows a whole subtree.

* `Node.preorder_ne_nil`, `Node.postorder_ne_nil`: the root is always listed;
* `Node.nodeCount_pos`: a tree has at least one node.
-/

import CellSyntax.Tree.Path

namespace CellSyntax

namespace Element

mutual

/-- The paths of the nodes of an element, a node before its children. -/
def preorder : Element → List Path
  | .token _ => []
  | .node _ _ content => [] :: preorderOf 0 content

/-- The paths below a content whose first child node has the number `index`, a node before its
children. -/
def preorderOf (index : Nat) : List Element → List Path
  | [] => []
  | element :: rest =>
    element.preorder.map (index :: ·) ++ preorderOf (index + element.width) rest

end

mutual

/-- The paths of the nodes of an element, a node after its children. -/
def postorder : Element → List Path
  | .token _ => []
  | .node _ _ content => postorderOf 0 content ++ [[]]

/-- The paths below a content whose first child node has the number `index`, a node after its
children. -/
def postorderOf (index : Nat) : List Element → List Path
  | [] => []
  | element :: rest =>
    element.postorder.map (index :: ·) ++ postorderOf (index + element.width) rest

end

mutual

/-- The number of nodes of an element. -/
def nodeCount : Element → Nat
  | .token _ => 0
  | .node _ _ content => nodeCountOf content + 1

/-- The number of nodes below a content. -/
def nodeCountOf : List Element → Nat
  | [] => 0
  | element :: rest => element.nodeCount + nodeCountOf rest

end

end Element

namespace Node

/-- All paths of a tree in document order: a node before its children. -/
def preorder (root : Node) : List Path := root.element.preorder

/-- All paths of a tree in construction order: a node after its children. -/
def postorder (root : Node) : List Path := root.element.postorder

/-- The number of nodes of a tree. -/
def nodeCount (root : Node) : Nat := root.element.nodeCount

theorem preorder_ne_nil (root : Node) : root.preorder ≠ [] := by
  simp [preorder, element, Element.preorder]

theorem postorder_ne_nil (root : Node) : root.postorder ≠ [] := by
  simp [postorder, element, Element.postorder]

theorem nodeCount_pos (root : Node) : 0 < root.nodeCount := by
  simp [nodeCount, element, Element.nodeCount]

/-- The walk that visits the first of the paths still to visit and puts its children before the
others; it takes at most `steps` steps. -/
def walk (root : Node) : (steps : Nat) → List Path → List Path
  | 0, _ => []
  | _ + 1, [] => []
  | steps + 1, path :: waiting => path :: root.walk steps (root.childPaths path ++ waiting)

/-- The nodes of the subtree at a path, the node itself first. -/
def descendants (root : Node) (path : Path) : List Path := root.walk root.nodeCount [path]

/-- The node after the whole subtree at a path: the next child of the parent, or else of the
nearest ancestor that has one. -/
def rightSibling (node : Node) : Path → Option Path
  | [] => none
  | index :: path =>
    match (node.child? index).bind fun child => child.rightSibling path with
    | some found => some (index :: found)
    | none => if index + 1 < node.children.length then some [index + 1] else none

/-- The number of a node in document order. -/
def number? (root : Node) (path : Path) : Option Nat := root.preorder.idxOf? path

/-- The path of the node with a number in document order. -/
def pathOf? (root : Node) (number : Nat) : Option Path := root.preorder[number]?

end Node

end CellSyntax
