/-
**No node ever ends before it starts.**

The range of a node comes from `Range.ofEnds`, which puts its ends in order: when the node is made,
when its end is corrected and when it is moved. So whatever the ranges of the tokens are, the ranges of
the nodes of a formed tree are ordered, and a correction keeps them so, whatever is corrected by
whatever amount. Tokens keep their ranges as they were given.

* `Element.Formed.ordered`: the nodes of a formed tree;
* `Element.shifted_ordered`: the nodes of a subtree that is moved;
* `Node.Ordered.propagate`: the nodes of a corrected tree.
-/

import CellSyntax.Proofs.Tree.Formed
import CellSyntax.Propagate

namespace CellSyntax

namespace Element

/-- **An element whose nodes all have a range that is ordered.** -/
inductive Ordered : Element → Prop
  | token (lexeme : Lexeme) : Ordered (.token lexeme)
  | node {kind : String} {range : Range} {content : List Element} (ordered : range.Ordered)
      (parts : ∀ element ∈ content, Ordered element) : Ordered (.node kind range content)

theorem hull_ordered (content : List Element) : (hull content).Ordered := by
  unfold hull
  split
  · exact Range.ofEnds_ordered _ _
  · exact Position.le_refl _

/-- **The nodes of a formed tree**, whatever its tokens are. -/
theorem Formed.ordered {element : Element} (formed : element.Formed) : element.Ordered := by
  induction formed with
  | token lexeme => exact .token lexeme
  | node _ spans _ ih =>
    subst spans
    exact .node (hull_ordered _) ih

mutual

/-- Moving a subtree puts the ends of every range in it in order. -/
theorem shifted_ordered (lines columns : Int) :
    ∀ element : Element, (element.shifted lines columns).Ordered
  | .token lexeme => .token lexeme
  | .node _ range content =>
    .node (Range.shifted_ordered lines columns range) (shiftedAll_ordered lines columns content)

theorem shiftedAll_ordered (lines columns : Int) :
    ∀ content : List Element, ∀ element ∈ shiftedAll lines columns content, element.Ordered
  | [], _, member => nomatch member
  | element :: rest, moved, member => by
    rcases List.mem_cons.1 member with rfl | later
    · exact shifted_ordered lines columns element
    · exact shiftedAll_ordered lines columns rest moved later

end

theorem shiftFollowing_ordered (delta : Delta) (carry : Carry) {content : List Element}
    (ordered : ∀ element ∈ content, element.Ordered) :
    ∀ element ∈ (shiftFollowing delta carry content).1, element.Ordered := by
  induction content generalizing carry with
  | nil => exact ordered
  | cons element rest ih =>
    obtain ⟨here, later⟩ := List.forall_mem_cons.1 ordered
    cases element with
    | token lexeme => exact List.forall_mem_cons.2 ⟨here, ih carry later⟩
    | node kind range content =>
      refine List.forall_mem_cons.2 ⟨?_, ih (carry.next delta range) later⟩
      split
      · exact here
      · exact shifted_ordered _ _ _

end Element

namespace Node

/-- A node whose range is ordered, as are those of all nodes below it. -/
def Ordered (node : Node) : Prop := node.element.Ordered

namespace Ordered

variable {root node child : Node} {path : Path}

theorem range (ordered : node.Ordered) : node.range.Ordered := by
  cases ordered with
  | node ordered _ => exact ordered

theorem parts (ordered : node.Ordered) : ∀ element ∈ node.content, element.Ordered := by
  cases ordered with
  | node _ parts => exact parts

theorem of_mem_children (ordered : node.Ordered) (member : child ∈ node.children) :
    child.Ordered :=
  ordered.parts child.element (mem_children.1 member)

/-- **The range of every node below is ordered.** -/
theorem range_at? (ordered : root.Ordered) (found : root.at? path = some node) :
    node.range.Ordered :=
  range (at?_induction Ordered ordered (fun _ parent _ member => parent.of_mem_children member)
    found)

theorem propagateFrom (ordered : node.Ordered) (delta : Delta) (path : Path) :
    (node.propagateFrom delta path).1.Ordered := by
  induction path generalizing node with
  | nil => exact .node (Range.adjustEnd_ordered delta node.range) ordered.parts
  | cons index path ih =>
    rw [Node.propagateFrom]
    split
    · exact ordered
    · rename_i before child after split
      have content := Element.splitChild?_append split
      have parts := ordered.parts
      rw [content, List.forall_mem_append, List.forall_mem_cons] at parts
      obtain ⟨front, inside, behind⟩ := parts
      refine .node (Range.adjustEnd_ordered delta node.range) ?_
      exact List.forall_mem_append.2 ⟨front, List.forall_mem_cons.2
        ⟨ih inside, Element.shiftFollowing_ordered delta _ behind⟩⟩

/-- **A correction keeps the ranges of nodes ordered**, whichever node it is for and whatever it
moves. -/
theorem propagate (ordered : root.Ordered) (delta : Delta) (path : Path) :
    (root.propagate delta path).Ordered := by
  unfold Node.propagate
  split
  · exact ordered
  · exact ordered.propagateFrom delta path

end Ordered

end Node

end CellSyntax
