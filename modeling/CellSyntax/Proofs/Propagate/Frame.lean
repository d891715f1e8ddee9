/-
**What a correction moves, and that it touches nothing else.**

Correcting a tree after an edit changes ranges and nothing but ranges. Nodes before the located one
and nodes inside it keep theirs. The located node and those around it have their ends corrected, and
every node of a following subtree is moved once, all of them by the same amount.

* `Node.unranged`: what is left of a tree when ranges are forgotten;
* `Node.unranged_propagateFrom`: a correction keeps all of it;
* `Node.at?_propagateFrom_inside`: what lies inside the located node stays as it is;
* `Node.at?_propagateFrom_within`: what becomes of a node in a following subtree;
* `Node.propagate_moves`: what becomes of every node.
-/

import CellSyntax.Proofs.Edit.LineShift
import CellSyntax.Proofs.Propagate.LineOrder

namespace CellSyntax

/-! ### What is not a range -/

namespace Element

mutual

/-- An element with the ranges of its nodes forgotten. -/
def unranged : Element → Element
  | .token lexeme => .token lexeme
  | .node kind _ content => .node kind (.point .origin) (unrangedAll content)

/-- A content with the ranges of its nodes forgotten. -/
def unrangedAll : List Element → List Element
  | [] => []
  | element :: rest => element.unranged :: unrangedAll rest

end

mutual

theorem unranged_shifted (lines columns : Int) :
    ∀ element : Element, (element.shifted lines columns).unranged = element.unranged
  | .token _ => rfl
  | .node kind range content => by
    rw [shifted, unranged, unranged, unrangedAll_shiftedAll lines columns content]

theorem unrangedAll_shiftedAll (lines columns : Int) :
    ∀ content : List Element, unrangedAll (shiftedAll lines columns content) = unrangedAll content
  | [] => rfl
  | element :: rest => by
    rw [shiftedAll, unrangedAll, unrangedAll, unranged_shifted lines columns element,
      unrangedAll_shiftedAll lines columns rest]

end

theorem unrangedAll_append (first second : List Element) :
    unrangedAll (first ++ second) = unrangedAll first ++ unrangedAll second := by
  induction first with
  | nil => rfl
  | cons element rest ih => rw [List.cons_append, unrangedAll, unrangedAll, ih, List.cons_append]

theorem unrangedAll_shiftFollowing (delta : Delta) (carry : Carry) (content : List Element) :
    unrangedAll (shiftFollowing delta carry content).1 = unrangedAll content := by
  induction content generalizing carry with
  | nil => rfl
  | cons element rest ih =>
    cases element with
    | token lexeme => exact congrArg (_ :: ·) (ih carry)
    | node kind range inner =>
      refine congrArg₂ (· :: ·) ?_ (ih (carry.next delta range))
      show unranged (if _ then _ else _) = _
      split
      · rfl
      · exact unranged_shifted _ _ (.node kind range inner)

mutual

/-- Construction order does not look at ranges. -/
theorem postorder_unranged : ∀ element : Element, element.unranged.postorder = element.postorder
  | .token _ => rfl
  | .node kind range content => by
    rw [unranged, postorder, postorder, postorderOf_unrangedAll 0 content]

theorem postorderOf_unrangedAll : ∀ (index : Nat) (content : List Element),
    postorderOf index (unrangedAll content) = postorderOf index content
  | _, [] => rfl
  | index, element :: rest => by
    have width : element.unranged.width = element.width := by cases element <;> rfl
    rw [unrangedAll, postorderOf, postorderOf, postorder_unranged element, width,
      postorderOf_unrangedAll (index + element.width) rest]

end

mutual

/-- Which tokens an element has does not depend on ranges. -/
theorem lexemes_unranged : ∀ element : Element, element.unranged.lexemes = element.lexemes
  | .token _ => rfl
  | .node kind range content => by
    rw [unranged, lexemes, lexemes, lexemesOf_unrangedAll content]

theorem lexemesOf_unrangedAll :
    ∀ content : List Element, lexemesOf (unrangedAll content) = lexemesOf content
  | [] => rfl
  | element :: rest => by
    rw [unrangedAll, lexemesOf, lexemesOf, lexemes_unranged element, lexemesOf_unrangedAll rest]

end

end Element

/-- **The column shift in force** for the last of some following subtrees, by their ranges: that of
the edit if they all start on the line that the edit ends on, else none. -/
def Carry.inForce (delta : Delta) (ranges : List Range) : Int :=
  if ∀ range ∈ ranges, OnEndLine delta range then delta.column else 0

/-- The range of a node in a following subtree, moved by the column shift in force. -/
def Range.follow (delta : Delta) (columns : Int) (range : Range) : Range :=
  if delta.line = 0 ∧ columns = 0 then range else range.shifted delta.line columns

/-- Moving by nothing, which is left out, would change nothing. -/
theorem Range.follow_eq_shifted {range : Range} (delta : Delta) (columns : Int)
    (within : range.Within maxCoordinate) (ordered : range.Ordered) :
    range.follow delta columns = range.shifted delta.line columns := by
  unfold follow
  split
  · rename_i still
    rw [still.1, still.2, shifted_zero within ordered]
  · rfl

namespace Node

variable {root node located subtree : Node} {path top rest other : Path} {delta : Delta}
  {place : Nat}

/-- A tree with the ranges of its nodes forgotten. -/
def unranged (node : Node) : Node :=
  ⟨node.kind, .point .origin, Element.unrangedAll node.content⟩

theorem unranged_element (node : Node) : node.element.unranged = node.unranged.element := rfl

/-- **A correction keeps everything but ranges**: kinds, tokens, and which nodes and tokens are in
which content. -/
theorem unranged_propagateFrom (delta : Delta) (root : Node) (path : Path) :
    (root.propagateFrom delta path).1.unranged = root.unranged := by
  induction path generalizing root with
  | nil => rfl
  | cons index path ih =>
    rw [propagateFrom]
    split
    · rfl
    · rename_i before child after split
      have content := Element.splitChild?_append split
      have same : (child.propagateFrom delta path).1.element.unranged = child.element.unranged := by
        rw [unranged_element, unranged_element, ih child]
      show (⟨root.kind, _, Element.unrangedAll (before ++ _ :: _)⟩ : Node) = ⟨root.kind, _, _⟩
      rw [content, Element.unrangedAll_append, Element.unrangedAll_append, Element.unrangedAll,
        Element.unrangedAll, same, Element.unrangedAll_shiftFollowing]

theorem unranged_propagate (delta : Delta) (root : Node) (path : Path) :
    (root.propagate delta path).unranged = root.unranged := by
  unfold propagate
  split
  · rfl
  · exact unranged_propagateFrom delta root path

/-- **A correction keeps the tokens**, with their ranges. -/
theorem lexemes_propagate (delta : Delta) (root : Node) (path : Path) :
    (root.propagate delta path).lexemes = root.lexemes := by
  have same := congrArg lexemes (unranged_propagate delta root path)
  rwa [lexemes, lexemes, unranged, unranged, Element.lexemesOf_unrangedAll,
    Element.lexemesOf_unrangedAll] at same

theorem children_unranged (node : Node) :
    node.unranged.children = node.children.map unranged := by
  have listed (content : List Element) :
      (Element.unrangedAll content).filterMap Element.node? =
        (content.filterMap Element.node?).map unranged := by
    induction content with
    | nil => rfl
    | cons element rest ih =>
      cases element with
      | token lexeme => exact ih
      | node kind range content => exact congrArg (unranged ⟨kind, range, content⟩ :: ·) ih
  exact listed node.content

theorem at?_unranged (node : Node) (path : Path) :
    node.unranged.at? path = (node.at? path).map unranged := by
  induction path generalizing node with
  | nil => rfl
  | cons index path ih =>
    rw [at?, at?, child?, child?, children_unranged, List.getElem?_map]
    cases node.children[index]? with
    | none => rfl
    | some child => exact ih child

/-! ### Each node -/

/-- What lies inside the located node stays as it is. -/
theorem at?_propagateFrom_inside (found : root.at? path = some located) (inside : rest ≠ []) :
    (root.propagateFrom delta path).1.at? (path ++ rest) = root.at? (path ++ rest) := by
  have here : (root.propagateFrom delta (path ++ [])).1.at? path =
      some (located.propagateFrom delta []).1 := at?_propagateFrom found []
  rw [List.append_nil] at here
  rw [at?_append_of_at? here, at?_append_of_at? found]
  obtain ⟨index, below, rfl⟩ := List.exists_cons_of_ne_nil inside
  rfl

theorem at?_follow (delta : Delta) (columns : Int) (node : Node) (path : Path) :
    (node.follow delta columns).at? path = (node.at? path).map (follow delta columns) := by
  by_cases still : delta.line = 0 ∧ columns = 0
  · have same (node : Node) : node.follow delta columns = node := if_pos still
    rw [same, Option.map_congr fun node _ => same node, Option.map_id']
  · have moved (node : Node) : node.follow delta columns = node.shifted delta.line columns :=
      if_neg still
    rw [moved, at?_shifted, Option.map_congr fun node _ => moved node]

theorem follow_range (delta : Delta) (columns : Int) (node : Node) :
    (node.follow delta columns).range = node.range.follow delta columns := by
  unfold follow Range.follow
  split <;> rfl

/-- A node that comes after another one lies in a subtree of the list. -/
theorem exists_listed (valid : (root.at? path).isSome) (found : root.at? other = some node)
    (after : path.Precedes other) :
    ∃ (place : Nat) (top : Path) (subtree : Node) (rest : Path), other = top ++ rest ∧
      top.Follows path ∧ (root.following path)[place]? = some (top, subtree) ∧
      subtree.at? rest = some node := by
  obtain ⟨top, follows, ⟨rest, rfl⟩⟩ := Path.precedes_iff.1 after
  obtain ⟨subtree, isTop, below⟩ := at?_append_eq_some_iff.1 found
  obtain ⟨place, listed⟩ := List.mem_iff_getElem?.1 ((mem_following_iff valid).2 ⟨follows, isTop⟩)
  exact ⟨place, top, subtree, rest, rfl, follows, listed, below⟩

/-- **A node in a following subtree is moved by the shift in force for that subtree.** -/
theorem at?_propagateFrom_within (valid : (root.at? path).isSome)
    (listed : (root.following path)[place]? = some (top, subtree))
    (found : subtree.at? rest = some node) :
    (root.propagateFrom delta path).1.at? (top ++ rest) = some (node.follow delta
      ((Carry.start delta).along delta ((root.followingRanges path).take (place + 1))).column) := by
  rw [at?_append_of_at? (at?_propagateFrom_following delta valid listed), at?_follow, found]
  rfl

/-- **What becomes of the nodes of a tree when it is corrected** after an edit in the node at
`path`. -/
structure Moves (root : Node) (delta : Delta) (path : Path) (corrected : Node) : Prop where
  /-- The located node and those around it have their ends corrected once. -/
  around : ∀ (above : Path) (node : Node), above <+: path → root.at? above = some node →
    ∃ node', corrected.at? above = some node' ∧ node'.range = node.range.adjustEnd delta
  /-- What lies inside the located node stays as it is. -/
  inside : ∀ rest : Path, rest ≠ [] → corrected.at? (path ++ rest) = root.at? (path ++ rest)
  /-- What comes before the located node stays as it is. -/
  before : ∀ other : Path, other.Precedes path → corrected.at? other = root.at? other
  /-- The following subtrees are those of the later siblings of the located node and of the nodes
  around it. -/
  listed : ∀ (top : Path) (subtree : Node), (top, subtree) ∈ root.following path ↔
    top.Follows path ∧ root.at? top = some subtree
  /-- They are listed in document order. -/
  inOrder : (root.following path).Pairwise fun first second => first.1.Precedes second.1
  /-- Every node of a following subtree is moved once, by the line shift, and by the column shift if
  all following subtrees up to this one start on the line that the edit ends on. -/
  after : ∀ (place : Nat) (top : Path) (subtree : Node) (rest : Path) (node : Node),
    (root.following path)[place]? = some (top, subtree) → subtree.at? rest = some node →
      ∃ node', corrected.at? (top ++ rest) = some node' ∧
        node'.range = node.range.shifted delta.line
          (Carry.inForce delta ((root.followingRanges path).take (place + 1)))
  /-- There are no other nodes. -/
  everywhere : ∀ other : Path, other <+: path ∨ path <+: other ∨ other.Precedes path ∨
    ∃ top : Path, top.Follows path ∧ top <+: other
  /-- Kinds, tokens and contents stay as they are. -/
  unranged : corrected.unranged = root.unranged

/-- **What becomes of the nodes of a tree when it is corrected**, if their ranges are in order and
something moves. -/
theorem propagate_moves (valid : (root.at? path).isSome)
    (ranges : ∀ other node, root.at? other = some node →
      node.range.Ordered ∧ node.range.Within maxCoordinate)
    (moves : ¬ delta.isZero = true) : root.Moves delta path (root.propagate delta path) := by
  obtain ⟨located, found⟩ := Option.isSome_iff_exists.1 valid
  rw [propagate_of_ne_zero moves]
  constructor
  case around =>
    rintro above node ⟨rest, rfl⟩ isAround
    rw [at?_append_of_at? isAround] at valid
    exact ⟨_, at?_propagateFrom isAround rest, (propagateFrom_range delta valid).1⟩
  case inside => exact fun rest inside => at?_propagateFrom_inside found inside
  case before => exact fun other before => at?_propagateFrom_before valid before
  case listed => exact fun top subtree => mem_following_iff valid
  case inOrder => exact following_ordered valid
  case after =>
    intro place top subtree rest node listed isNode
    have isTop := ((mem_following_iff valid).1 (List.mem_of_getElem? listed)).2
    obtain ⟨ordered, within⟩ := ranges (top ++ rest) node
      ((at?_append_of_at? isTop rest).trans isNode)
    refine ⟨_, at?_propagateFrom_within valid listed isNode, ?_⟩
    rw [follow_range, Range.follow_eq_shifted _ _ within ordered, Carry.column_along]
    rfl
  case everywhere =>
    intro other
    rw [← Path.precedes_iff]
    exact other.trichotomy path
  case unranged => exact unranged_propagateFrom delta root path

end Node

end CellSyntax
