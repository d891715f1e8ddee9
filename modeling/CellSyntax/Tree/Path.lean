/-
**Paths to nodes.**

A node is named by its path: which child node to take at every level, from the root down. A path
stays valid as long as the shape of the tree does, whatever happens to the ranges.

* `Node.at?_append`: following a path part by part;
* `Node.at?_isSome_of_append`: every part of a valid path that leads down from the root is valid.
-/

import CellSyntax.Tree.Basic

namespace CellSyntax

/-- The way from the root to a node: the number of the child node to take at every level. -/
abbrev Path := List Nat

/-- How many child nodes an element adds to its parent. -/
def Element.width : Element → Nat
  | .token _ => 0
  | .node .. => 1

namespace Node

/-- The child node of a number. -/
def child? (node : Node) (index : Nat) : Option Node := node.children[index]?

/-- The node at the end of a path. -/
def at? (node : Node) : Path → Option Node
  | [] => some node
  | index :: path =>
    match node.child? index with
    | none => none
    | some child => child.at? path

/-- What a node has at the end of a path, its parent has one level down. -/
theorem at?_child {node child : Node} {index : Nat} (isChild : node.child? index = some child)
    (path : Path) : node.at? (index :: path) = child.at? path := by
  rw [at?, isChild]

theorem at?_append (node : Node) (first second : Path) :
    node.at? (first ++ second) = (node.at? first).bind fun found => found.at? second := by
  induction first generalizing node with
  | nil => rfl
  | cons index path ih =>
    simp only [List.cons_append, at?]
    cases node.child? index with
    | none => rfl
    | some child => exact ih child

theorem at?_isSome_of_append {node : Node} {first second : Path}
    (valid : (node.at? (first ++ second)).isSome) : (node.at? first).isSome := by
  rw [at?_append] at valid
  cases found : node.at? first with
  | none => rw [found] at valid; exact valid
  | some _ => rfl

/-- Going on from a node that was found. -/
theorem at?_append_of_at? {root node : Node} {first : Path} (found : root.at? first = some node)
    (second : Path) : root.at? (first ++ second) = node.at? second := by
  rw [at?_append, found, Option.bind_some]

/-- A node at the end of a path is found by way of the node at the end of its first part. -/
theorem at?_append_eq_some_iff {root node : Node} {first second : Path} :
    root.at? (first ++ second) = some node ↔
      ∃ outer, root.at? first = some outer ∧ outer.at? second = some node := by
  rw [at?_append, Option.bind_eq_some_iff]

/-- The paths of the child nodes of the node at a path. -/
def childPaths (root : Node) (path : Path) : List Path :=
  match root.at? path with
  | none => []
  | some node => (List.range node.children.length).map fun index => path ++ [index]

end Node

namespace Path

/-- The path of the parent; the root has none. -/
def parent? (path : Path) : Option Path :=
  if path.isEmpty then none else some path.dropLast

/-- Which child of its parent the node is; the root counts as the first. -/
def index (path : Path) : Nat := path.getLast?.getD 0

/-- The paths of the ancestors, from the parent up to the root. -/
def ancestors : Path → List Path
  | [] => []
  | index :: path => (ancestors path).map (index :: ·) ++ [[]]

end Path

end CellSyntax
