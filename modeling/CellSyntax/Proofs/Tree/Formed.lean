/-
**Formed trees: every node over a content that is not empty.**

A zip makes a node only with `Node.ofContent`, over what the node has claimed, and a node that has
claimed nothing is dropped. So every node of a tree carries the hull of its content, and its
content is not empty. `Element.Formed` says this of a whole subtree; it is the invariant from which
the facts on single nodes follow.

* `Node.Formed.at?`: every node of a formed tree is formed;
* `Node.Formed.lexemes_ne_nil`: every node of a formed tree owns a token in its subtree;
* `Node.lexemes_infix`: the tokens of a node's subtree are one stretch of those of the whole tree.
-/

import CellSyntax.Tree.Path
import Mathlib.Data.List.Infix

namespace CellSyntax

/-! ### Contents -/

namespace Element

theorem lexemesOf_eq_flatMap (content : List Element) :
    lexemesOf content = content.flatMap lexemes := by
  induction content with
  | nil => rfl
  | cons element rest ih => rw [lexemesOf, ih, List.flatMap_cons]

theorem lexemesOf_append_tokens (content : List Element) (lexemes : List Lexeme) :
    lexemesOf (content ++ lexemes.map .token) = lexemesOf content ++ lexemes := by
  rw [lexemesOf_append, lexemesOf_tokens]

theorem lexemesOf_element (node : Node) : lexemesOf [node.element] = node.lexemes := by
  rw [lexemesOf, lexemesOf, List.append_nil, Node.lexemes_element]

/-- The tokens of a node over a content and what trails it. -/
theorem lexemesOf_closed (kind : String) (content : List Element) (trailing : List Lexeme) :
    lexemesOf [(Node.ofContent kind (content ++ trailing.map .token)).element] =
      lexemesOf content ++ trailing :=
  (lexemesOf_element _).trans (lexemesOf_append_tokens content trailing)

theorem lexemes_infix_of_mem {content : List Element} {element : Element}
    (member : element ∈ content) : element.lexemes <:+: lexemesOf content := by
  obtain ⟨before, after, rfl⟩ := List.append_of_mem member
  refine ⟨lexemesOf before, lexemesOf after, ?_⟩
  rw [lexemesOf_append, lexemesOf, List.append_assoc]

theorem node?_eq_some_iff {element : Element} {node : Node} :
    element.node? = some node ↔ element = node.element := by
  cases element with
  | token lexeme => simp [node?, Node.element]
  | node kind range content =>
    rw [node?, Option.some.injEq]
    constructor
    · rintro rfl
      rfl
    · intro same
      rw [Node.element, Element.node.injEq] at same
      obtain ⟨rfl, rfl, rfl⟩ := same
      rfl

/-- **A formed subtree**: each of its nodes has the hull of its content as its range, and that
content is not empty. -/
inductive Formed : Element → Prop
  | token (lexeme : Lexeme) : Formed (.token lexeme)
  | node {kind : String} {range : Range} {content : List Element} (owning : content ≠ [])
      (spans : range = hull content) (parts : ∀ element ∈ content, Formed element) :
      Formed (.node kind range content)

theorem formed_of_mem_tokens {lexemes : List Lexeme} {element : Element}
    (member : element ∈ lexemes.map Element.token) : element.Formed := by
  obtain ⟨lexeme, -, rfl⟩ := List.mem_map.1 member
  exact .token lexeme

theorem Formed.lexemes_ne_nil {element : Element} (formed : element.Formed) :
    element.lexemes ≠ [] := by
  induction formed with
  | token lexeme => exact List.cons_ne_nil _ _
  | node owning _ _ ih =>
    obtain ⟨first, rest, rfl⟩ := List.exists_cons_of_ne_nil owning
    intro none
    rw [lexemes, lexemesOf, List.append_eq_nil_iff] at none
    exact ih first List.mem_cons_self none.1

end Element

/-! ### Nodes -/

namespace Node

theorem mem_children {node child : Node} :
    child ∈ node.children ↔ child.element ∈ node.content := by
  rw [children, List.mem_filterMap]
  constructor
  · rintro ⟨element, member, found⟩
    rwa [Element.node?_eq_some_iff.1 found] at member
  · exact fun member => ⟨child.element, member, child.node?_element⟩

theorem mem_children_of_child? {node child : Node} {index : Nat}
    (found : node.child? index = some child) : child ∈ node.children :=
  List.mem_of_getElem? found

theorem at?_cons {node found : Node} {index : Nat} {path : Path} :
    node.at? (index :: path) = some found ↔
      ∃ child, node.child? index = some child ∧ child.at? path = some found := by
  rw [at?]
  cases node.child? index with
  | none => simp
  | some child => simp

/-- What holds of a tree and goes over from a node to its children holds of every node. -/
theorem at?_induction (holds : Node → Prop) {root node : Node} {path : Path} (start : holds root)
    (step : ∀ parent, holds parent → ∀ child ∈ parent.children, holds child)
    (found : root.at? path = some node) : holds node := by
  induction path generalizing root with
  | nil =>
    cases found
    exact start
  | cons index path ih =>
    obtain ⟨child, isChild, below⟩ := at?_cons.1 found
    exact ih (step root start child (mem_children_of_child? isChild)) below

/-- A formed node, as an element of a content is. -/
def Formed (node : Node) : Prop := node.element.Formed

theorem ofContent_formed {kind : String} {content : List Element} (owning : content ≠ [])
    (parts : ∀ element ∈ content, element.Formed) : (ofContent kind content).Formed :=
  .node owning rfl parts

theorem Formed.parts {node : Node} (formed : node.Formed) :
    ∀ element ∈ node.content, element.Formed := by
  cases formed with
  | node _ _ parts => exact parts

theorem Formed.owning {node : Node} (formed : node.Formed) : node.content ≠ [] := by
  cases formed with
  | node owning _ _ => exact owning

theorem Formed.of_mem_children {node child : Node} (formed : node.Formed)
    (member : child ∈ node.children) : child.Formed :=
  formed.parts child.element (mem_children.1 member)

/-- **Every node of a formed tree is formed.** -/
theorem Formed.at? {root node : Node} {path : Path} (formed : root.Formed)
    (found : root.at? path = some node) : node.Formed :=
  at?_induction Formed formed (fun _ parent _ member => parent.of_mem_children member) found

theorem Formed.lexemes_ne_nil {node : Node} (formed : node.Formed) : node.lexemes ≠ [] :=
  Element.Formed.lexemes_ne_nil formed

/-- **The tokens of a node's subtree are one stretch of the tokens of the tree.** -/
theorem lexemes_infix {root node : Node} {path : Path} (found : root.at? path = some node) :
    node.lexemes <:+: root.lexemes :=
  at?_induction (fun node => node.lexemes <:+: root.lexemes) (List.infix_refl _)
    (fun _ inside _ member =>
      (Element.lexemes_infix_of_mem (mem_children.1 member)).trans inside) found

end Node

end CellSyntax
