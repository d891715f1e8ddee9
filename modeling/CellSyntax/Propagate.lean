/-
**Keeping ranges in step with an edit.**

The node that an edit lies in, and every node around it, has its end moved. Every subtree that
comes after it in document order is moved as a whole: by the edit's line shift, and by its column
shift as long as all subtrees so far start on the line that the edit ends on.

* `Range.adjustEnd_ordered`, `Range.shifted_ordered`: corrected ranges are in order;
* `Node.propagate_zero`: an edit that moves nothing changes nothing.
-/

import CellSyntax.Edit
import CellSyntax.Tree.Path

namespace CellSyntax

/-- A range around an edit with its end corrected: by the column shift if the edit ends on the
range's last line, else by the line shift. -/
def Range.adjustEnd (delta : Delta) (range : Range) : Range :=
  .ofEnds range.start
    (if delta.endLine = range.stop.line then range.stop.shifted 0 delta.column
    else range.stop.shifted delta.line 0)

/-- A range after an edit, moved as a whole. The end column moves only if the range is on one
line. -/
def Range.shifted (lines columns : Int) (range : Range) : Range :=
  .ofEnds (range.start.shifted lines columns)
    ⟨shiftCoordinate range.stop.line lines,
      if range.isSingleLine then shiftCoordinate range.stop.column columns
      else range.stop.column⟩

theorem Range.adjustEnd_ordered (delta : Delta) (range : Range) :
    (range.adjustEnd delta).Ordered :=
  Range.ofEnds_ordered _ _

theorem Range.shifted_ordered (lines columns : Int) (range : Range) :
    (range.shifted lines columns).Ordered :=
  Range.ofEnds_ordered _ _

/-- What is carried from one following subtree to the next: the line that the last one starts on
after the edit, and the column shift still in force. -/
structure Carry where
  line : Nat
  column : Int
deriving DecidableEq, Repr

/-- The shift in force for the next subtree, whose root has the range `range`. -/
def Carry.next (carry : Carry) (delta : Delta) (range : Range) : Carry :=
  let line := shiftCoordinate range.start.line delta.line
  ⟨line, if line = carry.line then carry.column else 0⟩

namespace Element

mutual

/-- An element with all its nodes moved by the same amount. -/
def shifted (lines columns : Int) : Element → Element
  | .token lexeme => .token lexeme
  | .node kind range content =>
    .node kind (range.shifted lines columns) (shiftedAll lines columns content)

/-- A content with all its nodes moved by the same amount. -/
def shiftedAll (lines columns : Int) : List Element → List Element
  | [] => []
  | element :: rest => element.shifted lines columns :: shiftedAll lines columns rest

end

/-- The child nodes of a content moved one after the other, with what is carried on. -/
def shiftFollowing (delta : Delta) : Carry → List Element → List Element × Carry
  | carry, [] => ([], carry)
  | carry, .token lexeme :: rest =>
    let (moved, carry) := shiftFollowing delta carry rest
    (.token lexeme :: moved, carry)
  | carry, .node kind range content :: rest =>
    let carry := carry.next delta range
    let subtree := .node kind range content
    let subtree :=
      if delta.line = 0 ∧ carry.column = 0 then subtree
      else subtree.shifted delta.line carry.column
    let (moved, carry) := shiftFollowing delta carry rest
    (subtree :: moved, carry)

/-- A content split around its child node of number `index`. -/
def splitChild? : (index : Nat) → List Element → Option (List Element × Node × List Element)
  | _, [] => none
  | index, .token lexeme :: rest =>
    (splitChild? index rest).map fun (before, child, after) =>
      (.token lexeme :: before, child, after)
  | 0, .node kind range content :: rest => some ([], ⟨kind, range, content⟩, rest)
  | index + 1, .node kind range content :: rest =>
    (splitChild? index rest).map fun (before, child, after) =>
      (.node kind range content :: before, child, after)

theorem splitChild?_append {index : Nat} {content before after : List Element} {child : Node}
    (split : splitChild? index content = some (before, child, after)) :
    content = before ++ child.element :: after := by
  induction content generalizing index before with
  | nil => cases index <;> cases split
  | cons element rest ih =>
    cases element with
    | token lexeme =>
      have mapped : (splitChild? index rest).map (fun (before, child, after) =>
          (Element.token lexeme :: before, child, after)) = some (before, child, after) := by
        cases index <;> exact split
      obtain ⟨⟨earlier, found, later⟩, inner, same⟩ := Option.map_eq_some_iff.1 mapped
      cases same
      rw [ih inner]
      rfl
    | node kind range content =>
      cases index with
      | zero =>
        cases split
        rfl
      | succ index =>
        obtain ⟨⟨earlier, found, later⟩, inner, same⟩ := Option.map_eq_some_iff.1 split
        cases same
        rw [ih inner]
        rfl

end Element

namespace Node

/-- A node with its end corrected. -/
def adjustEnd (delta : Delta) (node : Node) : Node :=
  { node with range := node.range.adjustEnd delta }

/-- The subtree of `node` corrected after an edit inside the node at `path`, with what is carried
on to the subtrees that follow it. -/
def propagateFrom (delta : Delta) (node : Node) : Path → Node × Carry
  | [] => (node.adjustEnd delta, ⟨delta.endLine, delta.column⟩)
  | index :: path =>
    match Element.splitChild? index node.content with
    | none => (node, ⟨delta.endLine, delta.column⟩)
    | some (before, child, after) =>
      let (child, carry) := child.propagateFrom delta path
      let (after, carry) := Element.shiftFollowing delta carry after
      ({ node.adjustEnd delta with content := before ++ child.element :: after }, carry)

/-- The tree corrected after an edit inside the node at `path`. -/
def propagate (delta : Delta) (root : Node) (path : Path) : Node :=
  if delta.isZero then root else (root.propagateFrom delta path).1

theorem propagate_zero {delta : Delta} (zero : delta.isZero = true) (root : Node) (path : Path) :
    root.propagate delta path = root :=
  if_pos zero

theorem propagate_of_ne_zero {delta : Delta} (moves : ¬ delta.isZero = true) (root : Node)
    (path : Path) : root.propagate delta path = (root.propagateFrom delta path).1 :=
  if_neg moves

end Node

end CellSyntax
