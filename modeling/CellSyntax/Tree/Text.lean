/-
**The text of a tree.**

The text of a node is the literals of its tokens, one after the other. Searching for a text looks
at the children of a node before the node itself, so it finds the deepest node first.

* `Element.textOf_append`: texts add up;
* `Node.text_ofContent`: a new node's text is that of its content.
-/

import CellSyntax.Tree.Order
import CellSyntax.Text.Lines

namespace CellSyntax

namespace Element

/-- The text of a content. -/
def textOf (content : List Element) : List Char :=
  (lexemesOf content).flatMap fun lexeme => lexeme.token.literal.toList

theorem textOf_append (first second : List Element) :
    textOf (first ++ second) = textOf first ++ textOf second := by
  rw [textOf, lexemesOf_append, List.flatMap_append]
  rfl

mutual

/-- The path of the first node, children before their parent, whose text has `needle` in it. -/
def find? (needle : List Char) : Element → Option Path
  | .token _ => none
  | .node _ _ content =>
    match findIn? needle 0 content with
    | some found => some found
    | none => if Text.containsText (textOf content) needle then some [] else none

/-- The first find below a content whose first child node has the number `index`. -/
def findIn? (needle : List Char) (index : Nat) : List Element → Option Path
  | [] => none
  | element :: rest =>
    match element.find? needle with
    | some found => some (index :: found)
    | none => findIn? needle (index + element.width) rest

end

end Element

namespace Node

/-- The characters of a node's text. -/
def chars (node : Node) : List Char := Element.textOf node.content

/-- The text of a node. -/
def text (node : Node) : String := String.ofList node.chars

theorem text_ofContent (kind : String) (content : List Element) :
    (ofContent kind content).text = String.ofList (Element.textOf content) := rfl

/-- The first line of a node's text. -/
def firstLine (node : Node) : String := String.ofList (Text.firstLine node.chars)

/-- The path of the deepest and, of those, earliest node whose text has `needle` in it. -/
def findByText (root : Node) (needle : String) : Option Path := root.element.find? needle.toList

end Node

end CellSyntax
