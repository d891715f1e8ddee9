/-
**Outlines of trees.**

An outline has a line for every node in document order: its type, its range and the first line of
its text in quotes, indented by the node's depth.

* `Node.outline_length`: an outline has as many lines as the tree has nodes.
-/

import CellSyntax.Text.Quoted
import CellSyntax.Tree.Text

namespace CellSyntax

/-- A type with its range in brackets. -/
def headline (kind : String) (range : Range) : String := kind ++ " [" ++ range.render ++ "]"

namespace Element

mutual

/-- The lines for an element at a depth. -/
def outline (depth : Nat) : Element → List String
  | .token _ => []
  | .node kind range content =>
    (String.ofList (List.replicate (2 * depth) ' ') ++ headline kind range ++ " " ++
      Text.quoted (Node.firstLine ⟨kind, range, content⟩)) :: outlineOf (depth + 1) content

/-- The lines for a content at a depth. -/
def outlineOf (depth : Nat) : List Element → List String
  | [] => []
  | element :: rest => element.outline depth ++ outlineOf depth rest

end

mutual

theorem outline_length : ∀ (depth : Nat) (element : Element),
    (element.outline depth).length = element.nodeCount
  | _, .token _ => rfl
  | depth, .node _ _ content => by
    rw [outline, nodeCount, List.length_cons, outlineOf_length (depth + 1) content]

theorem outlineOf_length : ∀ (depth : Nat) (content : List Element),
    (outlineOf depth content).length = nodeCountOf content
  | _, [] => rfl
  | depth, element :: rest => by
    rw [outlineOf, nodeCountOf, List.length_append, outline_length depth element,
      outlineOf_length depth rest]

end

end Element

/-- The lines of a tree's outline. -/
def Node.outline (root : Node) : List String := root.element.outline 0

theorem Node.outline_length (root : Node) : root.outline.length = root.nodeCount :=
  Element.outline_length 0 root.element

end CellSyntax
