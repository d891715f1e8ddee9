/-
**Concrete syntax trees.**

The content of a node is a list of elements in source order: tokens that the node owns itself and
child nodes. A node carries the range of its content. The tree of a cell is its root node, or
nothing if the cell is blank.

* `Element.lexemesOf_append`, `Element.lexemesOf_tokens`: the tokens of a content, in order;
* `Node.ofContent_range`: a new node's range runs from its first element to its last.
-/

import CellSyntax.Token

namespace CellSyntax

/-- One item of a node's content: a token or a whole child node. -/
inductive Element where
  | token (lexeme : Lexeme)
  | node (kind : String) (range : Range) (content : List Element)
deriving Repr, Inhabited

/-- A node of a concrete syntax tree. -/
structure Node where
  /-- The name of the node's syntactic type. -/
  kind : String
  range : Range
  /-- The node's own tokens and its child nodes, in source order. -/
  content : List Element
deriving Repr, Inhabited

/-- The tree of a cell. -/
inductive CellTree where
  /-- The cell is blank. -/
  | empty
  | tree (root : Node)
deriving Repr, Inhabited

namespace Element

/-- The child node that an element is, if it is one. -/
def node? : Element → Option Node
  | .token _ => none
  | .node kind range content => some ⟨kind, range, content⟩

/-- The range that an element covers. -/
def range : Element → Range
  | .token lexeme => lexeme.token.range
  | .node _ range _ => range

mutual

/-- The tokens of an element, in source order. -/
def lexemes : Element → List Lexeme
  | .token lexeme => [lexeme]
  | .node _ _ content => lexemesOf content

/-- The tokens of a content, in source order. -/
def lexemesOf : List Element → List Lexeme
  | [] => []
  | element :: rest => element.lexemes ++ lexemesOf rest

end

theorem lexemesOf_append (first second : List Element) :
    lexemesOf (first ++ second) = lexemesOf first ++ lexemesOf second := by
  induction first with
  | nil => rfl
  | cons element rest ih => simp [lexemesOf, ih]

theorem lexemesOf_tokens (lexemes : List Lexeme) : lexemesOf (lexemes.map .token) = lexemes := by
  induction lexemes with
  | nil => rfl
  | cons lexeme rest ih => simp [lexemesOf, Element.lexemes, ih]

/-- The range from the first element's start to the last element's end. -/
def hull (content : List Element) : Range :=
  match content.head?, content.getLast? with
  | some first, some last => Range.ofEnds first.range.start last.range.stop
  | _, _ => ⟨.origin, .origin⟩

end Element

namespace Node

/-- The element that a node is in its parent's content. -/
def element (node : Node) : Element := .node node.kind node.range node.content

/-- A new node over a content. -/
def ofContent (kind : String) (content : List Element) : Node :=
  ⟨kind, Element.hull content, content⟩

theorem ofContent_range (kind : String) (first last : Element) (between : List Element) :
    (ofContent kind (first :: between ++ [last])).range =
      Range.ofEnds first.range.start last.range.stop := by
  have ends : (first :: between ++ [last]).getLast? = some last := List.getLast?_concat
  simp only [ofContent, Element.hull, ends]
  rfl

/-- The child nodes, in source order. -/
def children (node : Node) : List Node := node.content.filterMap Element.node?

/-- Whether a node has no child nodes. -/
def isLeaf (node : Node) : Bool := node.children.isEmpty

/-- The tokens of a node's whole subtree, in source order. -/
def lexemes (node : Node) : List Lexeme := Element.lexemesOf node.content

theorem node?_element (node : Node) : node.element.node? = some node := rfl

theorem lexemes_element (node : Node) : node.element.lexemes = node.lexemes := rfl

end Node

namespace CellTree

/-- The root, if the cell is not blank. -/
def root? : CellTree → Option Node
  | .empty => none
  | .tree root => some root

/-- A tree of one node that owns every token; the empty tree if there are none. -/
def flat (kind : String) (tokens : List Token) : CellTree :=
  if tokens.isEmpty then .empty
  else .tree (.ofContent kind ((Lexeme.sequence tokens).map .token))

end CellTree

end CellSyntax
