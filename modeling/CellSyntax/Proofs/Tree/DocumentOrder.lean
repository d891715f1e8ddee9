/-
**Document order, by recursion, by a walk and by steps to the right.**

A node is listed before its children in document order and after them in construction order. The
recursion, the walk with a list of nodes still to visit and the step to the node after a whole
subtree all speak of one order. The facts hold of every tree; each is proved by going from a node
to its children, with `siblingPaths` for the paths below a list of siblings.

* `Node.mem_preorder`, `Node.nodup_preorder`: every node is listed once;
* `Node.postorder_perm`: construction order lists the same nodes;
* `Node.walk_eq`: the walk lists the subtrees of the nodes it starts with, in document order;
* `Node.rightSibling_after`: the step to the right leads to what follows the subtree;
* `Node.inDocumentOrder`: all of it, for every tree.
-/

import CellSyntax.Proofs.Tree.Formed
import CellSyntax.Tree.Order
import Mathlib.Data.List.Nodup
import Mathlib.Data.List.Perm.Basic

namespace CellSyntax

namespace Node

/-! ### From a node to its children -/

/-- **What goes over from the children of a node to the node holds of every node.** -/
theorem children_induction {holds : Node → Prop}
    (step : ∀ node, (∀ child ∈ node.children, holds child) → holds node) (node : Node) :
    holds node := by
  let ElementFact (element : Element) : Prop := ∀ node ∈ element.node?, holds node
  let ContentFact (content : List Element) : Prop := ∀ node ∈ content.filterMap Element.node?,
    holds node
  have ofNode : ∀ kind range content, ContentFact content →
      ElementFact (.node kind range content) := by
    intro kind range content below node isNode
    cases isNode
    exact step _ below
  have ofCons : ∀ element rest, ElementFact element → ContentFact rest →
      ContentFact (element :: rest) := by
    intro element rest first others node member
    rw [List.filterMap_cons] at member
    cases found : element.node? with
    | none =>
      rw [found] at member
      exact others node member
    | some child =>
      rw [found] at member
      rcases List.mem_cons.1 member with rfl | inside
      · exact first _ found
      · exact others node inside
  have ofNil : ContentFact [] := fun _ member => nomatch member
  have ofToken : ∀ lexeme, ElementFact (.token lexeme) := fun _ _ isNode => nomatch isNode
  exact @Element.rec ElementFact ContentFact ofToken ofNode ofNil ofCons node.element node rfl

/-- The paths below siblings, the first of them having the number `index`; `listed` gives those
below each, seen from it. -/
def siblingPaths (listed : Node → List Path) (index : Nat) (siblings : List Node) : List Path :=
  (siblings.zipIdx index).flatMap fun sibling => (listed sibling.1).map (sibling.2 :: ·)

section Siblings

variable {listed other : Node → List Path} {index : Nat} {siblings left right : List Node}
  {child : Node} {path : Path}

theorem siblingPaths_cons (listed : Node → List Path) (index : Nat) (child : Node)
    (siblings : List Node) :
    siblingPaths listed index (child :: siblings) =
      (listed child).map (index :: ·) ++ siblingPaths listed (index + 1) siblings := by
  rw [siblingPaths, List.zipIdx_cons, List.flatMap_cons]
  rfl

theorem siblingPaths_append (listed : Node → List Path) (index : Nat) (left right : List Node) :
    siblingPaths listed index (left ++ right) =
      siblingPaths listed index left ++ siblingPaths listed (index + left.length) right := by
  rw [siblingPaths, List.zipIdx_append, List.flatMap_append]
  rfl

theorem mem_siblingPaths :
    path ∈ siblingPaths listed index siblings ↔
      ∃ number child below, siblings[number]? = some child ∧ path = (index + number) :: below ∧
        below ∈ listed child := by
  rw [siblingPaths, List.mem_flatMap]
  constructor
  · rintro ⟨⟨child, number⟩, member, inside⟩
    obtain ⟨below, listedBelow, rfl⟩ := List.mem_map.1 inside
    obtain ⟨reached, found⟩ := List.mk_mem_zipIdx_iff_le_and_getElem?_sub.1 member
    refine ⟨number - index, child, below, found, ?_, listedBelow⟩
    rw [Nat.add_sub_cancel' reached]
  · rintro ⟨number, child, below, found, rfl, listedBelow⟩
    refine ⟨(child, index + number), List.mk_mem_zipIdx_iff_le_and_getElem?_sub.2 ?_,
      List.mem_map_of_mem listedBelow⟩
    rw [Nat.add_sub_cancel_left]
    exact ⟨Nat.le_add_right _ _, found⟩

theorem nodup_siblingPaths (once : ∀ child ∈ siblings, (listed child).Nodup) :
    (siblingPaths listed index siblings).Nodup := by
  induction siblings generalizing index with
  | nil => exact List.nodup_nil
  | cons child siblings ih =>
    rw [siblingPaths_cons, List.nodup_append]
    refine ⟨(once child List.mem_cons_self).map fun _ _ same => (List.cons.inj same).2,
      ih fun other member => once other (List.mem_cons_of_mem _ member), ?_⟩
    intro first isFirst second isSecond same
    obtain ⟨below, -, rfl⟩ := List.mem_map.1 isFirst
    obtain ⟨number, _, _, _, rfl, _⟩ := mem_siblingPaths.1 isSecond
    have := (List.cons.inj same).1
    omega

theorem siblingPaths_perm (same : ∀ child ∈ siblings, (listed child).Perm (other child)) :
    (siblingPaths listed index siblings).Perm (siblingPaths other index siblings) := by
  refine List.Perm.flatMap_left _ fun sibling member => ?_
  exact (same sibling.1 (List.fst_mem_of_mem_zipIdx member)).map _

end Siblings

end Node

/-! ### The two recursions -/

namespace Element

theorem preorderOf_eq (index : Nat) (content : List Element) :
    preorderOf index content =
      Node.siblingPaths Node.preorder index (content.filterMap node?) := by
  induction content generalizing index with
  | nil => rfl
  | cons element rest ih =>
    rw [preorderOf, ih]
    cases element with
    | token lexeme => rfl
    | node kind range content =>
      rw [List.filterMap_cons, node?, Node.siblingPaths_cons]
      rfl

theorem postorderOf_eq (index : Nat) (content : List Element) :
    postorderOf index content =
      Node.siblingPaths Node.postorder index (content.filterMap node?) := by
  induction content generalizing index with
  | nil => rfl
  | cons element rest ih =>
    rw [postorderOf, ih]
    cases element with
    | token lexeme => rfl
    | node kind range content =>
      rw [List.filterMap_cons, node?, Node.siblingPaths_cons]
      rfl

mutual

theorem length_preorder : ∀ element : Element, element.preorder.length = element.nodeCount
  | .token _ => rfl
  | .node _ _ content => by
    rw [preorder, nodeCount, List.length_cons, length_preorderOf 0 content]

theorem length_preorderOf : ∀ (index : Nat) (content : List Element),
    (preorderOf index content).length = nodeCountOf content
  | _, [] => rfl
  | index, element :: rest => by
    rw [preorderOf, nodeCountOf, List.length_append, List.length_map, length_preorder element,
      length_preorderOf (index + element.width) rest]

end

theorem nodeCountOf_append (first second : List Element) :
    nodeCountOf (first ++ second) = nodeCountOf first + nodeCountOf second := by
  induction first with
  | nil => exact (Nat.zero_add _).symm
  | cons element rest ih => rw [List.cons_append, nodeCountOf, nodeCountOf, ih, Nat.add_assoc]

end Element

namespace Node

variable {root node child : Node} {path : Path}

theorem preorder_eq (node : Node) :
    node.preorder = [] :: siblingPaths preorder 0 node.children := by
  rw [children, ← Element.preorderOf_eq]
  rfl

theorem postorder_eq (node : Node) :
    node.postorder = siblingPaths postorder 0 node.children ++ [[]] := by
  rw [children, ← Element.postorderOf_eq]
  rfl

theorem length_preorder (node : Node) : node.preorder.length = node.nodeCount :=
  Element.length_preorder node.element

/-- **Document order lists the nodes of the tree and nothing else.** -/
theorem mem_preorder : path ∈ root.preorder ↔ (root.at? path).isSome := by
  induction path generalizing root with
  | nil => simp [preorder_eq, at?]
  | cons index path ih =>
    rw [preorder_eq, List.mem_cons, mem_siblingPaths]
    simp only [reduceCtorEq, false_or, Nat.zero_add, List.cons.injEq, at?, child?]
    constructor
    · rintro ⟨_, child, _, found, ⟨rfl, rfl⟩, inside⟩
      rw [found]
      exact ih.1 inside
    · intro reached
      cases found : root.children[index]? with
      | none =>
        rw [found] at reached
        cases reached
      | some child =>
        rw [found] at reached
        exact ⟨index, child, path, found, ⟨rfl, rfl⟩, ih.2 reached⟩

/-- What holds of every node can be looked up path by path. -/
theorem forall_at?_iff (holds : Node → Prop) :
    (∀ path node, root.at? path = some node → holds node) ↔
      ∀ path ∈ root.preorder, ∀ node ∈ root.at? path, holds node := by
  constructor
  · exact fun all path _ node found => all path node found
  · intro all path node found
    refine all path (mem_preorder.2 ?_) node found
    rw [found]
    rfl

/-- **Document order lists no node twice.** -/
theorem nodup_preorder (root : Node) : root.preorder.Nodup := by
  induction root using children_induction with
  | step node ih =>
    rw [preorder_eq, List.nodup_cons]
    refine ⟨fun listed => ?_, nodup_siblingPaths ih⟩
    obtain ⟨_, _, _, _, same, _⟩ := mem_siblingPaths.1 listed
    cases same

/-- **Construction order lists the same nodes as document order.** -/
theorem postorder_perm (root : Node) : root.postorder.Perm root.preorder := by
  induction root using children_induction with
  | step node ih =>
    rw [postorder_eq, preorder_eq]
    exact List.perm_append_comm.trans ((siblingPaths_perm ih).cons [])

/-! ### Subtrees within the order -/

theorem at?_concat (found : root.at? path = some node) (index : Nat) :
    root.at? (path ++ [index]) = node.child? index := by
  rw [at?_append_of_at? found, at?]
  cases node.child? index <;> rfl

/-- A node below the root is a child of the node at the path without its last step. -/
theorem exists_parent {last : Nat} (found : root.at? (path ++ [last]) = some node) :
    ∃ parent, root.at? path = some parent ∧ parent.child? last = some node := by
  obtain ⟨parent, reached, -⟩ := at?_append_eq_some_iff.1 found
  exact ⟨parent, reached, by rw [← at?_concat reached, found]⟩

/-- The content of a node around one of its children. -/
theorem content_split {index : Nat} (found : node.child? index = some child) :
    ∃ before after, node.content = before ++ child.element :: after ∧
      (before.filterMap Element.node?).length = index := by
  obtain ⟨inside, isChild⟩ := List.getElem?_eq_some_iff.1 found
  have siblings : node.content.filterMap Element.node? =
      node.children.take index ++ child :: node.children.drop (index + 1) := by
    rw [← isChild, ← List.drop_eq_getElem_cons inside, List.take_append_drop]
    rfl
  obtain ⟨first, second, parts, left, right⟩ := List.filterMap_eq_append_iff.1 siblings
  obtain ⟨skipped, element, after, rfl, tokens, isNode, -⟩ := List.filterMap_eq_cons_iff.1 right
  obtain rfl := Element.node?_eq_some_iff.1 isNode
  refine ⟨first ++ skipped, after, ?_, ?_⟩
  · rw [parts, List.append_assoc]
  · rw [List.filterMap_append, List.filterMap_eq_nil_iff.2 tokens, List.append_nil, left,
      List.length_take_of_le (Nat.le_of_lt inside)]

theorem length_lt_nodeCount (found : root.at? path = some node) :
    path.length < root.nodeCount := by
  induction path generalizing root with
  | nil => exact nodeCount_pos root
  | cons index path ih =>
    obtain ⟨child, isChild, below⟩ := at?_cons.1 found
    obtain ⟨before, after, content, -⟩ := content_split isChild
    have shorter : path.length < child.element.nodeCount := ih below
    rw [nodeCount, element, Element.nodeCount, content, Element.nodeCountOf_append,
      Element.nodeCountOf, List.length_cons]
    omega

theorem children_split {index : Nat} (found : node.child? index = some child) :
    ∃ left right, node.children = left ++ child :: right ∧ left.length = index := by
  obtain ⟨before, after, content, number⟩ := content_split found
  refine ⟨before.filterMap Element.node?, after.filterMap Element.node?, ?_, number⟩
  rw [children, content, List.filterMap_append]
  rfl

theorem rightSibling_cons {index : Nat} (isChild : node.child? index = some child) (path : Path) :
    node.rightSibling (index :: path) =
      match child.rightSibling path with
      | some found => some (index :: found)
      | none => if index + 1 < node.children.length then some [index + 1] else none := by
  rw [rightSibling, isChild]
  rfl

/-- **A subtree is one stretch of document order, and the step to the right leads to the node that
comes after it.** -/
theorem preorder_split (found : root.at? path = some node) :
    ∃ before after, root.preorder = before ++ node.preorder.map (path ++ ·) ++ after ∧
      root.rightSibling path = after.head? := by
  induction path generalizing root with
  | nil =>
    cases found
    refine ⟨[], [], ?_, rfl⟩
    simp only [List.nil_append, List.map_id', List.append_nil]
  | cons index path ih =>
    obtain ⟨child, isChild, below⟩ := at?_cons.1 found
    obtain ⟨before, after, split, next⟩ := ih below
    obtain ⟨left, right, siblings, rfl⟩ := children_split isChild
    refine ⟨[] :: siblingPaths preorder 0 left ++ before.map (left.length :: ·),
      after.map (left.length :: ·) ++ siblingPaths preorder (left.length + 1) right, ?_, ?_⟩
    · rw [preorder_eq, siblings, siblingPaths_append, siblingPaths_cons, split, Nat.zero_add]
      simp only [List.map_append, List.map_map, List.cons_append, List.append_assoc,
        Function.comp_def]
    · rw [rightSibling_cons isChild, next, siblings]
      cases after with
      | cons first later => rfl
      | nil =>
        cases right with
        | nil => simp [siblingPaths]
        | cons sibling later => simp [siblingPaths_cons, preorder_eq]

/-- The paths of the subtree at a path, in document order. -/
def subtree (root : Node) (path : Path) : List Path :=
  match root.at? path with
  | none => []
  | some node => node.preorder.map (path ++ ·)

theorem subtree_of_at? (found : root.at? path = some node) :
    root.subtree path = node.preorder.map (path ++ ·) := by
  rw [subtree, found]

theorem childPaths_of_at? (found : root.at? path = some node) :
    root.childPaths path = (List.range node.children.length).map fun index => path ++ [index] := by
  rw [childPaths, found]

theorem isSome_of_mem_childPaths {below : Path} (found : root.at? path = some node)
    (member : below ∈ root.childPaths path) : (root.at? below).isSome := by
  rw [childPaths_of_at? found, List.mem_map] at member
  obtain ⟨index, inside, rfl⟩ := member
  rw [at?_concat found, child?, List.getElem?_eq_getElem (List.mem_range.1 inside)]
  rfl

/-- A subtree is its root and the subtrees at the children. -/
theorem subtree_eq (found : root.at? path = some node) :
    root.subtree path = path :: (root.childPaths path).flatMap root.subtree := by
  have numbers : List.range node.children.length = node.children.zipIdx.map Prod.snd := by
    rw [List.zipIdx_map_snd, List.range_eq_range']
  rw [subtree_of_at? found, childPaths_of_at? found, numbers, List.map_map, List.flatMap_map,
    preorder_eq, List.map_cons, List.append_nil, siblingPaths, List.map_flatMap]
  refine congrArg (path :: ·) (List.flatMap_congr fun sibling member => ?_)
  have isChild : root.at? (path ++ [sibling.2]) = some sibling.1 := by
    rw [at?_concat found]
    exact List.mem_zipIdx_iff_getElem?.1 member
  rw [Function.comp_apply, subtree_of_at? isChild, List.map_map]
  refine List.map_congr_left fun below _ => ?_
  rw [Function.comp_apply, List.append_assoc]
  rfl

/-- **The walk lists the subtrees of the nodes to visit**, given as many steps as they have
nodes. -/
theorem walk_eq {steps : Nat} {waiting : List Path}
    (valid : ∀ path ∈ waiting, (root.at? path).isSome)
    (enough : (waiting.flatMap root.subtree).length ≤ steps) :
    root.walk steps waiting = waiting.flatMap root.subtree := by
  induction steps generalizing waiting with
  | zero =>
    rw [List.length_eq_zero_iff.1 (Nat.le_zero.1 enough)]
    rfl
  | succ steps ih =>
    cases waiting with
    | nil => rfl
    | cons path waiting =>
      obtain ⟨node, found⟩ := Option.isSome_iff_exists.1 (valid path List.mem_cons_self)
      have next : (path :: waiting).flatMap root.subtree =
          path :: (root.childPaths path ++ waiting).flatMap root.subtree := by
        rw [List.flatMap_cons, subtree_eq found, List.flatMap_append]
        rfl
      rw [next] at enough ⊢
      rw [walk, ih ?_ (Nat.le_of_succ_le_succ enough)]
      intro other member
      rcases List.mem_append.1 member with below | later
      · exact isSome_of_mem_childPaths found below
      · exact valid other (List.mem_cons_of_mem _ later)

/-- A walk from one node lists its subtree, given as many steps as the tree has nodes. -/
theorem walk_single {steps : Nat} (found : root.at? path = some node)
    (enough : root.nodeCount ≤ steps) :
    root.walk steps [path] = node.preorder.map (path ++ ·) := by
  have single : [path].flatMap root.subtree = node.preorder.map (path ++ ·) := by
    rw [List.flatMap_singleton, subtree_of_at? found]
  rw [walk_eq, single]
  · intro other isPath
    rw [List.mem_singleton.1 isPath, found]
    rfl
  · obtain ⟨before, after, split, -⟩ := preorder_split found
    have whole := congrArg List.length split
    rw [length_preorder, List.length_append, List.length_append] at whole
    rw [single]
    omega

/-- **The descendants of a node are its subtree in document order.** -/
theorem descendants_eq (found : root.at? path = some node) :
    root.descendants path = node.preorder.map (path ++ ·) :=
  walk_single found (Nat.le_refl _)

/-- **The step to the right leads to the node after the whole subtree.** -/
theorem rightSibling_after (found : root.at? path = some node) :
    ∃ before after, root.preorder = before ++ root.descendants path ++ after ∧
      root.rightSibling path = after.head? := by
  rw [descendants_eq found]
  exact preorder_split found

/-- The step to the right, by climbing: the next child of the parent, or else the parent's step. -/
theorem rightSibling_concat {index : Nat} (found : root.at? path = some node)
    (isChild : node.child? index = some child) :
    root.rightSibling (path ++ [index]) =
      if index + 1 < node.children.length then some (path ++ [index + 1])
      else root.rightSibling path := by
  induction path generalizing root with
  | nil =>
    cases found
    exact rightSibling_cons isChild []
  | cons number path ih =>
    obtain ⟨first, isFirst, below⟩ := at?_cons.1 found
    rw [List.cons_append, rightSibling_cons isFirst, rightSibling_cons isFirst, ih below]
    by_cases last : index + 1 < node.children.length
    · rw [if_pos last, if_pos last]
      rfl
    · rw [if_neg last, if_neg last]

end Node

namespace Path

theorem parent?_concat (path : Path) (index : Nat) : parent? (path ++ [index]) = some path := by
  simp [parent?]

theorem index_concat (path : Path) (last : Nat) : index (path ++ [last]) = last := by
  rw [index, List.getLast?_concat]
  rfl

/-- The ancestors of a node are its parent and the parent's ancestors. -/
theorem ancestors_concat (path : Path) (index : Nat) :
    ancestors (path ++ [index]) = path :: ancestors path := by
  induction path with
  | nil => rfl
  | cons number path ih =>
    rw [List.cons_append, ancestors, ih]
    rfl

/-- The ancestors of a node end at the root. -/
theorem getLast?_ancestors {path : Path} (below : path ≠ []) :
    path.ancestors.getLast? = some [] := by
  cases path with
  | nil => exact absurd rfl below
  | cons index path => exact List.getLast?_concat

end Path

/-- **The traversals of a tree keep one order**, that of the recursion `preorder`. -/
structure Node.InDocumentOrder (root : Node) : Prop where
  /-- The walk from the root goes as the recursion does. -/
  walk : root.descendants [] = root.preorder
  once : root.preorder.Nodup
  all : ∀ path, path ∈ root.preorder ↔ (root.at? path).isSome
  /-- A node below the root is that child of its parent which its path says. -/
  parent : ∀ (path : Path) (node : Node), path ≠ [] → root.at? path = some node →
    ∃ above parent, path.parent? = some above ∧ root.at? above = some parent ∧
      parent.child? path.index = some node
  ancestors : ∀ path : Path, path ≠ [] → path.ancestors.getLast? = some []
  /-- The step to the right leads to the first node after the whole subtree, or nowhere. -/
  rightSibling : ∀ path node, root.at? path = some node → ∃ before after,
    root.preorder = before ++ root.descendants path ++ after ∧
      root.rightSibling path = after.head?

/-- **The traversals of every tree keep one order.** -/
theorem Node.inDocumentOrder (root : Node) : root.InDocumentOrder where
  walk := by
    have reached : root.at? [] = some root := rfl
    rw [descendants_eq reached]
    simp only [List.nil_append, List.map_id']
  once := nodup_preorder root
  all _ := mem_preorder
  parent path node below found := by
    obtain ⟨above, last, rfl⟩ := path.eq_nil_or_concat'.resolve_left below
    obtain ⟨parent, reached, isChild⟩ := exists_parent found
    refine ⟨above, parent, Path.parent?_concat above last, reached, ?_⟩
    rw [Path.index_concat, isChild]
  ancestors _ := Path.getLast?_ancestors
  rightSibling _ _ := rightSibling_after

end CellSyntax
