/-
**What correcting a tree after an edit does, node by node.**

The correction goes down to the located node, corrects the ends on the way, and on the way back up
moves one following subtree after the other, each by a shift that depends on the ones before it.
Seen from one node: a located node and those around it have their ends corrected, nodes in earlier
siblings are left alone, and a following subtree is moved as a whole. Its column shift is that of
the edit if all following subtrees up to it start on the line that the edit ends on, and nothing
otherwise.

* `Carry.column_along`: the column shift in force after some following subtrees;
* `Carry.column_take`: the one in force for a subtree, by the line that it starts on;
* `Node.at?_propagateFrom`: the nodes around the located one;
* `Node.at?_propagateFrom_before`: the nodes before it;
* `Node.at?_propagateFrom_following`: the subtrees after it.
-/

import CellSyntax.Proofs.Tree.DocumentOrder
import CellSyntax.Proofs.Tree.Precedence
import CellSyntax.Propagate

namespace CellSyntax

/-! ### The shift that is carried on -/

namespace Carry

/-- What is carried on past some following subtrees, whose roots have the given ranges. -/
def along (delta : Delta) (carry : Carry) (ranges : List Range) : Carry :=
  ranges.foldl (fun carry range => carry.next delta range) carry

theorem along_append (delta : Delta) (carry : Carry) (first second : List Range) :
    carry.along delta (first ++ second) = (carry.along delta first).along delta second :=
  List.foldl_append

/-- What is carried to the first following subtree. -/
def start (delta : Delta) : Carry := ⟨delta.endLine, delta.column⟩

/-- Whether a range starts, after the edit, on the line that the edit ends on. -/
def OnEndLine (delta : Delta) (range : Range) : Prop :=
  shiftCoordinate range.start.line delta.line = delta.endLine

instance (delta : Delta) (range : Range) : Decidable (OnEndLine delta range) :=
  inferInstanceAs (Decidable (_ = _))

/-- As long as all following subtrees start on the edit's last line nothing of the shift is lost,
and once one does not all of the column shift is. -/
theorem along_cases (delta : Delta) (ranges : List Range) :
    (∀ range ∈ ranges, OnEndLine delta range) ∧ (start delta).along delta ranges = start delta ∨
      (¬ ∀ range ∈ ranges, OnEndLine delta range) ∧
        ((start delta).along delta ranges).column = 0 := by
  -- From the end: what the last subtree does depends on what is carried past all before it.
  induction ranges using List.reverseRecOn with
  | nil => exact Or.inl ⟨fun _ member => absurd member List.not_mem_nil, rfl⟩
  | append_singleton ranges range ih =>
    have step : (start delta).along delta (ranges ++ [range]) =
        ((start delta).along delta ranges).next delta range := along_append delta _ ranges [range]
    have all : (∀ other ∈ ranges ++ [range], OnEndLine delta other) ↔
        (∀ other ∈ ranges, OnEndLine delta other) ∧ OnEndLine delta range := by
      rw [List.forall_mem_append, List.forall_mem_singleton]
    rw [step, all]
    rcases ih with ⟨here, kept⟩ | ⟨gone, none⟩
    · rw [kept]
      by_cases onLine : OnEndLine delta range
      · have same : shiftCoordinate range.start.line delta.line = delta.endLine := onLine
        refine Or.inl ⟨⟨here, onLine⟩, ?_⟩
        rw [next, start]
        simp only
        rw [if_pos same, same]
      · exact Or.inr ⟨fun both => onLine both.2, if_neg onLine⟩
    · refine Or.inr ⟨fun both => gone both.1, ?_⟩
      rw [next]
      simp only
      rw [none, ite_self]

/-- **The column shift in force after some following subtrees.** -/
theorem column_along (delta : Delta) (ranges : List Range) :
    ((start delta).along delta ranges).column =
      if ∀ range ∈ ranges, OnEndLine delta range then delta.column else 0 := by
  rcases along_cases delta ranges with ⟨here, kept⟩ | ⟨gone, none⟩
  · rw [if_pos here, kept]
    rfl
  · rw [if_neg gone, none]

/-- **The column shift in force for a following subtree, by the line that it starts on**, if no
following subtree starts before `line` and none before this one starts on a later line. -/
theorem column_take {delta : Delta} {ranges : List Range} {range : Range} {place line : Nat}
    (spot : ranges[place]? = some range)
    (onEndLine : ∀ other ∈ ranges, OnEndLine delta other ↔ other.start.line = line)
    (notBefore : ∀ other ∈ ranges, line ≤ other.start.line)
    (upTo : ∀ other ∈ ranges.take (place + 1), other.start.line ≤ range.start.line) :
    ((start delta).along delta (ranges.take (place + 1))).column =
      if range.start.line = line then delta.column else 0 := by
  have itself : range ∈ ranges.take (place + 1) := by
    refine List.mem_iff_getElem?.2 ⟨place, ?_⟩
    rw [List.getElem?_take_of_lt (Nat.lt_succ_self place), spot]
  have all : (∀ other ∈ ranges.take (place + 1), OnEndLine delta other) ↔
      range.start.line = line := by
    constructor
    · exact fun here => (onEndLine range (List.mem_of_getElem? spot)).1 (here range itself)
    · intro here other member
      have inList := List.take_subset _ _ member
      have after := notBefore other inList
      have before := upTo other member
      exact (onEndLine other inList).2 (by omega)
  rw [column_along]
  by_cases here : range.start.line = line
  · rw [if_pos (all.2 here), if_pos here]
  · rw [if_neg (mt all.1 here), if_neg here]

end Carry

/-! ### Moving whole subtrees -/

namespace Node

/-- A node with all nodes of its subtree moved by the same amount. -/
def shifted (lines columns : Int) (node : Node) : Node :=
  ⟨node.kind, node.range.shifted lines columns, Element.shiftedAll lines columns node.content⟩

/-- A following subtree moved by the column shift in force. -/
def follow (delta : Delta) (columns : Int) (node : Node) : Node :=
  if delta.line = 0 ∧ columns = 0 then node else node.shifted delta.line columns

theorem element_follow (delta : Delta) (columns : Int) (node : Node) :
    (node.follow delta columns).element =
      if delta.line = 0 ∧ columns = 0 then node.element
      else node.element.shifted delta.line columns := by
  unfold follow
  split <;> rfl

end Node

namespace Element

variable {lines columns : Int} {delta : Delta} {carry : Carry} {content : List Element}

theorem filterMap_shiftedAll (lines columns : Int) (content : List Element) :
    (shiftedAll lines columns content).filterMap node? =
      (content.filterMap node?).map (Node.shifted lines columns) := by
  induction content with
  | nil => rfl
  | cons element rest ih =>
    rw [shiftedAll]
    cases element with
    | token lexeme => exact ih
    | node kind range inner =>
      exact congrArg (Node.shifted lines columns ⟨kind, range, inner⟩ :: ·) ih

/-- What is carried on past the child nodes of a content. -/
theorem shiftFollowing_carry (delta : Delta) (carry : Carry) (content : List Element) :
    (shiftFollowing delta carry content).2 =
      carry.along delta ((content.filterMap node?).map Node.range) := by
  induction content generalizing carry with
  | nil => rfl
  | cons element rest ih =>
    cases element with
    | token lexeme => exact ih carry
    | node kind range inner => exact ih (carry.next delta range)

/-- The child nodes of a content, moved one after the other. -/
theorem shiftFollowing_node? (delta : Delta) (carry : Carry) (content : List Element)
    (index : Nat) :
    ((shiftFollowing delta carry content).1.filterMap node?)[index]? =
      (content.filterMap node?)[index]?.map (Node.follow delta (carry.along delta
        (((content.filterMap node?).take (index + 1)).map Node.range)).column) := by
  induction content generalizing carry index with
  | nil => rfl
  | cons element rest ih =>
    cases element with
    | token lexeme => exact ih carry index
    | node kind range inner =>
      have moved : (shiftFollowing delta carry (.node kind range inner :: rest)).1 =
          (Node.follow delta (carry.next delta range).column ⟨kind, range, inner⟩).element ::
            (shiftFollowing delta (carry.next delta range) rest).1 := by
        rw [Node.element_follow]
        rfl
      rw [moved]
      cases index with
      | zero => rfl
      | succ index => exact ih (carry.next delta range) index

theorem splitChild?_eq (before : List Element) (child : Node) (after : List Element) :
    splitChild? (before.filterMap node?).length (before ++ child.element :: after) =
      some (before, child, after) := by
  induction before with
  | nil => rfl
  | cons element before ih =>
    cases element with
    | token lexeme =>
      have number : ((Element.token lexeme :: before).filterMap node?).length =
          (before.filterMap node?).length := rfl
      rw [List.cons_append, number]
      cases size : (before.filterMap node?).length with
      | zero => rw [splitChild?, ← size, ih]; rfl
      | succ less => rw [splitChild?, ← size, ih]; rfl
    | node kind range inner =>
      show splitChild? ((before.filterMap node?).length + 1) _ = _
      rw [List.cons_append, splitChild?, ih]
      rfl

end Element

/-! ### One level -/

namespace Node

variable {root node child : Node} {delta : Delta} {path : Path} {index : Nat}

theorem children_shifted (lines columns : Int) (node : Node) :
    (node.shifted lines columns).children = node.children.map (Node.shifted lines columns) :=
  Element.filterMap_shiftedAll lines columns node.content

/-- Moving a subtree moves each of its nodes. -/
theorem at?_shifted (lines columns : Int) (node : Node) (path : Path) :
    (node.shifted lines columns).at? path = (node.at? path).map (Node.shifted lines columns) := by
  induction path generalizing node with
  | nil => rfl
  | cons index path ih =>
    rw [at?, at?, child?, child?, children_shifted, List.getElem?_map]
    cases node.children[index]? with
    | none => rfl
    | some child => exact ih child

/-- **One step down**: what becomes of the children of a node, and what is carried on past them. -/
theorem propagateFrom_step (delta : Delta) (path : Path)
    (isChild : node.child? index = some child) : ∃ left right moved,
      node.children = left ++ child :: right ∧ left.length = index ∧
      (node.propagateFrom delta (index :: path)).1.children =
        left ++ (child.propagateFrom delta path).1 :: moved ∧
      (∀ place : Nat, moved[place]? = right[place]?.map (follow delta
        ((child.propagateFrom delta path).2.along delta
          ((right.take (place + 1)).map Node.range)).column)) ∧
      (node.propagateFrom delta (index :: path)).2 =
        (child.propagateFrom delta path).2.along delta (right.map Node.range) := by
  obtain ⟨before, after, content, number⟩ := content_split isChild
  have step : node.propagateFrom delta (index :: path) =
      ({ node.adjustEnd delta with
          content := before ++ (child.propagateFrom delta path).1.element ::
            (Element.shiftFollowing delta (child.propagateFrom delta path).2 after).1 },
        (Element.shiftFollowing delta (child.propagateFrom delta path).2 after).2) := by
    rw [propagateFrom, content, ← number, Element.splitChild?_eq]
  refine ⟨before.filterMap Element.node?, after.filterMap Element.node?, _, ?_, number, ?_,
    Element.shiftFollowing_node? delta _ after, ?_⟩
  · rw [children, content, List.filterMap_append]
    rfl
  · rw [step, children, List.filterMap_append]
    rfl
  · rw [step, Element.shiftFollowing_carry]

/-- The child that the way down goes through. -/
theorem child?_propagateFrom (isChild : node.child? index = some child) :
    (node.propagateFrom delta (index :: path)).1.child? index =
      some (child.propagateFrom delta path).1 := by
  obtain ⟨left, right, moved, -, rfl, children, -, -⟩ := propagateFrom_step delta path isChild
  rw [child?, children, List.getElem?_append_right (Nat.le_refl _), Nat.sub_self]
  rfl

/-- The children before it are left alone. -/
theorem child?_propagateFrom_of_lt {other : Nat} (isChild : node.child? index = some child)
    (less : other < index) :
    (node.propagateFrom delta (index :: path)).1.child? other = node.child? other := by
  obtain ⟨left, right, moved, old, rfl, new, -, -⟩ := propagateFrom_step delta path isChild
  rw [child?, child?, old, new, List.getElem?_append_left less, List.getElem?_append_left less]

theorem getElem?_after (left : List Node) (child : Node) (right : List Node) (place : Nat) :
    (left ++ child :: right)[left.length + 1 + place]? = right[place]? := by
  rw [List.getElem?_append_right (by omega), Nat.add_assoc, Nat.add_sub_cancel_left, Nat.add_comm,
    List.getElem?_cons_succ]

theorem drop_after (left : List Node) (child : Node) (right : List Node) :
    (left ++ child :: right).drop (left.length + 1) = right :=
  List.drop_length_add_append 1

/-- The children after it are moved. -/
theorem child?_propagateFrom_of_gt (isChild : node.child? index = some child) (place : Nat) :
    (node.propagateFrom delta (index :: path)).1.child? (index + 1 + place) =
      (node.child? (index + 1 + place)).map (follow delta
        ((child.propagateFrom delta path).2.along delta
          (((node.children.drop (index + 1)).take (place + 1)).map Node.range)).column) := by
  obtain ⟨left, right, moved, old, rfl, new, follows, -⟩ := propagateFrom_step delta path isChild
  rw [child?, child?, new, old, getElem?_after, getElem?_after, drop_after, follows]

/-! ### The whole tree -/

/-- The root of what comes out has its end corrected. -/
theorem propagateFrom_range (delta : Delta) (valid : (node.at? path).isSome) :
    (node.propagateFrom delta path).1.range = node.range.adjustEnd delta ∧
      (node.propagateFrom delta path).1.kind = node.kind := by
  cases path with
  | nil => exact ⟨rfl, rfl⟩
  | cons index path =>
    obtain ⟨found, reached⟩ := Option.isSome_iff_exists.1 valid
    obtain ⟨child, isChild, -⟩ := at?_cons.1 reached
    obtain ⟨before, after, content, number⟩ := content_split isChild
    rw [propagateFrom, content, ← number, Element.splitChild?_eq]
    exact ⟨rfl, rfl⟩

/-- **A node around the located one is corrected as the root of its own subtree is.** -/
theorem at?_propagateFrom (found : root.at? path = some node) (rest : Path) :
    (root.propagateFrom delta (path ++ rest)).1.at? path =
      some (node.propagateFrom delta rest).1 := by
  induction path generalizing root with
  | nil =>
    cases found
    rfl
  | cons index path ih =>
    obtain ⟨child, isChild, below⟩ := at?_cons.1 found
    rw [List.cons_append, at?_child (child?_propagateFrom isChild)]
    exact ih below

/-- **The nodes before the located one are left alone.** -/
theorem at?_propagateFrom_before {other : Path} (valid : (root.at? path).isSome)
    (before : other.Precedes path) :
    (root.propagateFrom delta path).1.at? other = root.at? other := by
  obtain ⟨above, i, j, less, ⟨inner, rfl⟩, ⟨rest, rfl⟩⟩ := before
  obtain ⟨located, reached⟩ := Option.isSome_iff_exists.1 valid
  rw [List.append_assoc] at reached
  obtain ⟨node, found, down⟩ := at?_append_eq_some_iff.1 reached
  obtain ⟨child, isChild, -⟩ := at?_cons.1 down
  rw [List.append_assoc, List.append_assoc, at?_append_of_at? (at?_propagateFrom found _),
    at?_append_of_at? found, List.singleton_append, List.singleton_append, at?, at?,
    child?_propagateFrom_of_lt isChild less]

/-! ### Following subtrees -/

/-- The children of a node after the one with the number `index`, each with its path. -/
def laterChildren (node : Node) (index : Nat) : List (Path × Node) :=
  ((node.children.drop (index + 1)).zipIdx (index + 1)).map fun sibling => ([sibling.2], sibling.1)

/-- The maximal subtrees after the node at a path, in document order, each with its path. -/
def following (root : Node) : Path → List (Path × Node)
  | [] => []
  | index :: path =>
    match root.child? index with
    | none => []
    | some child =>
      (child.following path).map (fun found => (index :: found.1, found.2)) ++
        root.laterChildren index

/-- The ranges of the maximal subtrees after the node at a path. -/
def followingRanges (root : Node) (path : Path) : List Range :=
  (root.following path).map fun found => found.2.range

theorem getElem?_laterChildren (node : Node) (index place : Nat) :
    (node.laterChildren index)[place]? =
      (node.child? (index + 1 + place)).map fun child => ([index + 1 + place], child) := by
  rw [laterChildren, List.getElem?_map, List.getElem?_zipIdx, List.getElem?_drop, child?,
    Option.map_map]
  rfl

theorem laterChildren_ranges (node : Node) (index : Nat) :
    (node.laterChildren index).map (fun found => found.2.range) =
      (node.children.drop (index + 1)).map Node.range := by
  rw [laterChildren, List.map_map]
  exact (List.map_map (g := Node.range) (f := Prod.fst)).symm.trans
    (congrArg (List.map Node.range) (List.zipIdx_map_fst _ _))

theorem following_cons (isChild : root.child? index = some child) (path : Path) :
    root.following (index :: path) =
      (child.following path).map (fun found => (index :: found.1, found.2)) ++
        root.laterChildren index := by
  rw [following, isChild]

theorem followingRanges_cons (isChild : root.child? index = some child) (path : Path) :
    root.followingRanges (index :: path) =
      child.followingRanges path ++ (root.children.drop (index + 1)).map Node.range := by
  rw [followingRanges, following_cons isChild, List.map_append, List.map_map, laterChildren_ranges]
  rfl

/-- What is carried on past all subtrees that follow the located node. -/
theorem propagateFrom_carry (valid : (root.at? path).isSome) :
    (root.propagateFrom delta path).2 =
      (Carry.start delta).along delta (root.followingRanges path) := by
  induction path generalizing root with
  | nil => rfl
  | cons index path ih =>
    obtain ⟨located, reached⟩ := Option.isSome_iff_exists.1 valid
    obtain ⟨child, isChild, below⟩ := at?_cons.1 reached
    obtain ⟨left, right, moved, old, rfl, -, -, carry⟩ := propagateFrom_step delta path isChild
    rw [carry, ih (Option.isSome_iff_exists.2 ⟨located, below⟩), followingRanges_cons isChild, old,
      drop_after, Carry.along_append]

/-- **The list has every subtree that follows the node**, and nothing else. -/
theorem mem_following_iff {top : Path} {subtree : Node} (valid : (root.at? path).isSome) :
    (top, subtree) ∈ root.following path ↔ top.Follows path ∧ root.at? top = some subtree := by
  induction path generalizing root top with
  | nil => exact ⟨fun member => (nomatch member), fun both => absurd both.1 Path.not_follows_nil⟩
  | cons index path ih =>
    obtain ⟨located, reached⟩ := Option.isSome_iff_exists.1 valid
    obtain ⟨child, isChild, below⟩ := at?_cons.1 reached
    have inner (rest : Path) : (rest, subtree) ∈ child.following path ↔
        rest.Follows path ∧ child.at? rest = some subtree :=
      ih (Option.isSome_iff_exists.2 ⟨located, below⟩)
    rw [following_cons isChild, List.mem_append, List.mem_map, Path.follows_cons_iff]
    constructor
    · rintro (⟨⟨rest, found⟩, inside, same⟩ | later)
      · cases same
        obtain ⟨follows, found⟩ := (inner rest).1 inside
        exact ⟨Or.inl ⟨rest, rfl, follows⟩, (at?_child isChild rest).trans found⟩
      · obtain ⟨place, spot⟩ := List.mem_iff_getElem?.1 later
        rw [getElem?_laterChildren] at spot
        obtain ⟨sibling, isSibling, same⟩ := Option.map_eq_some_iff.1 spot
        cases same
        exact ⟨Or.inr ⟨_, by omega, rfl⟩, at?_child isSibling []⟩
    · rintro ⟨⟨rest, rfl, follows⟩ | ⟨later, more, rfl⟩, found⟩
      · rw [at?_child isChild] at found
        exact Or.inl ⟨(rest, subtree), (inner rest).2 ⟨follows, found⟩, rfl⟩
      · obtain ⟨place, rfl⟩ := Nat.exists_eq_add_of_lt more
        obtain ⟨sibling, isSibling, same⟩ := at?_cons.1 found
        cases same
        refine Or.inr (List.mem_iff_getElem?.2 ⟨place, ?_⟩)
        rw [getElem?_laterChildren, Nat.add_right_comm, isSibling]
        rfl

/-- **A following subtree is moved by the shift in force after the ones before it.** -/
theorem at?_propagateFrom_following {top : Path} {subtree : Node} {place : Nat} (delta : Delta)
    (valid : (root.at? path).isSome)
    (listed : (root.following path)[place]? = some (top, subtree)) :
    (root.propagateFrom delta path).1.at? top = some (subtree.follow delta
      ((Carry.start delta).along delta ((root.followingRanges path).take (place + 1))).column) := by
  induction path generalizing root top place with
  | nil => cases listed
  | cons index path ih =>
    obtain ⟨located, reached⟩ := Option.isSome_iff_exists.1 valid
    obtain ⟨child, isChild, below⟩ := at?_cons.1 reached
    have inChild : (child.at? path).isSome := Option.isSome_iff_exists.2 ⟨located, below⟩
    have size : (child.following path).length = (child.followingRanges path).length := by
      rw [followingRanges, List.length_map]
    rw [following_cons isChild] at listed
    rw [followingRanges_cons isChild]
    -- The subtrees inside the child come first; its later siblings go on from what those carry.
    rcases Nat.lt_or_ge place (child.following path).length with inside | after
    · rw [List.getElem?_append_left (by rw [List.length_map]; exact inside),
        List.getElem?_map] at listed
      obtain ⟨⟨rest, found⟩, spot, same⟩ := Option.map_eq_some_iff.1 listed
      cases same
      rw [at?_child (child?_propagateFrom isChild), List.take_append_of_le_length (by omega)]
      exact ih inChild spot
    · obtain ⟨further, rfl⟩ := Nat.exists_eq_add_of_le after
      rw [List.getElem?_append_right (by rw [List.length_map]; exact after), List.length_map,
        Nat.add_sub_cancel_left, getElem?_laterChildren] at listed
      obtain ⟨sibling, isSibling, same⟩ := Option.map_eq_some_iff.1 listed
      cases same
      rw [at?, child?_propagateFrom_of_gt isChild, isSibling, propagateFrom_carry inChild, size,
        Nat.add_assoc, List.take_length_add_append, ← List.map_take, Carry.along_append]
      rfl

end Node

end CellSyntax
