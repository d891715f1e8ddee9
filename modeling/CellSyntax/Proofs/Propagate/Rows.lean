/-
**Correcting an arena is correcting the tree that it shows.**

The loop over an arena changes ranges while it follows links. As it changes nothing else, the links
lead where they led before, and the subtrees that it comes to are the maximal subtrees after the
located node, in document order. None of them lies in another one or in a node around the located
one, so every range is changed at most once, and a start that the loop reads is still the one from
before the edit. When it stops early then all that it leaves out would have been moved by nothing.

* `Arena.changeRanges_eq`: changing the ranges of some rows, seen row by row;
* `Node.following_following`: what follows the first subtree that follows a node;
* `Arena.Shows.shiftFollowing_eq`: the loop, given as many steps as there are following subtrees;
* `Arena.Shows.propagate_eq`: the whole correction, row by row;
* `Arena.propagate_closedForm`: it does on rows what the closed form says of nodes.
-/

import CellSyntax.Proofs.Propagate.Frame
import CellSyntax.Proofs.Zip.Allocation
import CellSyntax.Propagate.Arena

namespace CellSyntax

/-! ### Changing ranges row by row -/

namespace Arena

variable {arena : Arena} {change : Nat → Range → Range} {id : Nat}

/-- The arena with the range of every node changed, by the number of the node. -/
def rerange (change : Nat → Range → Range) (arena : Arena) : Arena :=
  { arena with
    nodes := arena.nodes.mapIdx fun id row => { row with range := change id row.range } }

/-- What is left of an arena when ranges are forgotten. -/
def unranged (arena : Arena) : Arena := arena.rerange fun _ _ => .point .origin

theorem getElem?_rerange (change : Nat → Range → Range) (arena : Arena) (id : Nat) :
    (arena.rerange change).nodes[id]? =
      arena.nodes[id]?.map fun row => { row with range := change id row.range } :=
  List.getElem?_mapIdx

theorem rerange_rerange (first second : Nat → Range → Range) (arena : Arena) :
    (arena.rerange first).rerange second =
      arena.rerange fun id range => second id (first id range) :=
  congrArg (fun nodes => { arena with nodes := nodes }) List.mapIdx_mapIdx

/-- Arenas with the same rows, tokens and root are the same. -/
theorem eq_rerange {changed : Arena} (tokens : changed.tokens = arena.tokens)
    (root : changed.root = arena.root)
    (rows : ∀ id : Nat, changed.nodes[id]? = (arena.rerange change).nodes[id]?) :
    changed = arena.rerange change := by
  rcases changed with ⟨_, nodes, _⟩
  obtain rfl : nodes = _ := List.ext_getElem? rows
  rw [rerange, mk.injEq]
  exact ⟨tokens, rfl, root⟩

theorem rerange_id (arena : Arena) : arena.rerange (fun _ range => range) = arena :=
  (eq_rerange rfl rfl fun id => by rw [getElem?_rerange, Option.map_id']).symm

theorem unranged_rerange (change : Nat → Range → Range) (arena : Arena) :
    (arena.rerange change).unranged = arena.unranged :=
  rerange_rerange _ _ _

/-! Links do not depend on ranges. -/

@[simp] theorem length_rerange (change : Nat → Range → Range) (arena : Arena) :
    (arena.rerange change).nodes.length = arena.nodes.length :=
  List.length_mapIdx

@[simp] theorem parent?_rerange (change : Nat → Range → Range) (arena : Arena) (id : Nat) :
    (arena.rerange change).parent? id = arena.parent? id := by
  rw [parent?, parent?, getElem?_rerange, Option.bind_map]
  rfl

@[simp] theorem children_rerange (change : Nat → Range → Range) (arena : Arena) (id : Nat) :
    (arena.rerange change).children id = arena.children id := by
  rw [children, children, getElem?_rerange, Option.map_map]
  rfl

@[simp] theorem index_rerange (change : Nat → Range → Range) (arena : Arena) (id : Nat) :
    (arena.rerange change).index id = arena.index id := by
  rw [index, index, getElem?_rerange, Option.map_map]
  rfl

@[simp] theorem walk_rerange (change : Nat → Range → Range) (arena : Arena) (steps : Nat)
    (stack : List Nat) : (arena.rerange change).walk steps stack = arena.walk steps stack := by
  induction steps generalizing stack with
  | zero => rfl
  | succ steps ih =>
    cases stack with
    | nil => rfl
    | cons id stack => simp [walk, ih]

@[simp] theorem climb_rerange (change : Nat → Range → Range) (arena : Arena) (steps id : Nat) :
    (arena.rerange change).climb steps id = arena.climb steps id := by
  induction steps generalizing id with
  | zero => rfl
  | succ steps ih =>
    simp [climb, ih]

@[simp] theorem descendants_rerange (change : Nat → Range → Range) (arena : Arena) (id : Nat) :
    (arena.rerange change).descendants id = arena.descendants id := by
  simp [descendants]

@[simp] theorem rightSibling_rerange (change : Nat → Range → Range) (arena : Arena) (id : Nat) :
    (arena.rerange change).rightSibling id = arena.rightSibling id := by
  simp [rightSibling]

/-- **Changing the ranges of some rows, seen row by row**, if none is changed twice. -/
theorem changeRanges_eq (change : Range → Range) (arena : Arena) {ids : List Nat}
    (once : ids.Nodup) :
    arena.changeRanges change ids =
      arena.rerange fun id range => if id ∈ ids then change range else range := by
  induction ids generalizing arena with
  | nil => exact (rerange_id arena).symm
  | cons first ids ih =>
    obtain ⟨fresh, once⟩ := List.nodup_cons.1 once
    have one : arena.changeRange change first =
        arena.rerange fun id range => if id = first then change range else range := by
      refine eq_rerange rfl rfl fun id => ?_
      rw [getElem?_rerange, changeRange, List.getElem?_modify]
      cases arena.nodes[id]? with
      | none => rfl
      | some row =>
        by_cases here : id = first
        · simp [here]
        · simp [here, Ne.symm here]
    have rest : arena.changeRanges change (first :: ids) =
        (arena.changeRange change first).changeRanges change ids := rfl
    rw [rest, ih _ once, one, rerange_rerange]
    refine congrArg (rerange · arena) (funext₂ fun id range => ?_)
    by_cases here : id = first
    · subst here
      rw [if_neg fresh, if_pos rfl, if_pos List.mem_cons_self]
    · simp only [List.mem_cons, here, false_or, if_false]

end Arena

/-! ### The nodes around and inside a node, by number -/

theorem Path.mem_ancestors_iff {path other : Path} :
    other ∈ path :: path.ancestors ↔ other <+: path := by
  induction path generalizing other with
  | nil => simp [ancestors]
  | cons index path ih =>
    rw [ancestors, List.mem_cons, List.mem_append, List.mem_map, List.mem_singleton]
    cases other with
    | nil => simp
    | cons number other =>
      rw [List.cons_prefix_cons, ← ih, List.mem_cons]
      constructor
      · rintro (same | ⟨below, isAbove, same⟩ | none)
        · cases same
          exact ⟨rfl, Or.inl rfl⟩
        · cases same
          exact ⟨rfl, Or.inr isAbove⟩
        · cases none
      · rintro ⟨rfl, rfl | isAbove⟩
        · exact Or.inl rfl
        · exact Or.inr (Or.inl ⟨other, isAbove, rfl⟩)

theorem Path.nodup_ancestors (path : Path) : (path :: path.ancestors).Nodup := by
  induction path using List.reverseRecOn with
  | nil => exact List.nodup_singleton _
  | append_singleton path index ih =>
    rw [ancestors_concat, List.nodup_cons]
    refine ⟨fun member => ?_, ih⟩
    have size := (mem_ancestors_iff.1 member).length_le
    rw [List.length_append, List.length_singleton] at size
    omega

namespace Node

variable {root subtree : Node} {path other top : Path} {rest : List (Path × Node)}

theorem serial_inj (valid : (root.at? path).isSome) :
    root.serial path = root.serial other ↔ path = other := by
  obtain ⟨node, found⟩ := Option.isSome_iff_exists.1 valid
  exact List.idxOf_inj (mem_postorder found)

/-! ### The subtrees that follow a node, one after the other -/

/-- The later children of a node, the first of them apart. -/
theorem laterChildren_eq (node : Node) (index : Nat) :
    node.laterChildren index = (node.child? (index + 1)).elim [] fun child =>
      ([index + 1], child) :: node.laterChildren (index + 1) := by
  rw [laterChildren, laterChildren, child?]
  by_cases inside : index + 1 < node.children.length
  · rw [List.getElem?_eq_getElem inside, List.drop_eq_getElem_cons inside]
    rfl
  · have none := Nat.not_lt.1 inside
    rw [List.getElem?_eq_none none, List.drop_eq_nil_of_le none]
    rfl

/-- **The step to the right leads to the first subtree that follows the node.** -/
theorem rightSibling_eq (valid : (root.at? path).isSome) :
    root.rightSibling path = (root.following path).head?.map Prod.fst := by
  induction path generalizing root with
  | nil => rfl
  | cons index path ih =>
    obtain ⟨located, reached⟩ := Option.isSome_iff_exists.1 valid
    obtain ⟨child, isChild, below⟩ := at?_cons.1 reached
    rw [rightSibling_cons isChild, following_cons isChild,
      ih (Option.isSome_iff_exists.2 ⟨located, below⟩)]
    cases child.following path with
    | cons first later => rfl
    | nil =>
      rw [laterChildren_eq, child?]
      by_cases more : index + 1 < root.children.length
      · rw [List.getElem?_eq_getElem more]
        exact if_pos more
      · rw [List.getElem?_eq_none (Nat.not_lt.1 more)]
        exact if_neg more

/-- **What follows the first subtree that follows a node** are the others. -/
theorem following_following (valid : (root.at? path).isSome)
    (first : root.following path = (top, subtree) :: rest) : root.following top = rest := by
  induction path generalizing root top rest with
  | nil => cases first
  | cons index path ih =>
    obtain ⟨located, reached⟩ := Option.isSome_iff_exists.1 valid
    obtain ⟨child, isChild, below⟩ := at?_cons.1 reached
    rw [following_cons isChild] at first
    cases inner : child.following path with
    | cons head later =>
      rw [inner] at first
      cases first
      rw [following_cons isChild, ih (Option.isSome_iff_exists.2 ⟨located, below⟩) inner]
      rfl
    | nil =>
      rw [inner, List.map_nil, List.nil_append, laterChildren_eq] at first
      cases isNext : root.child? (index + 1) with
      | none =>
        rw [isNext] at first
        cases first
      | some sibling =>
        rw [isNext] at first
        cases first
        rw [following_cons isNext]
        rfl

theorem length_following_le (valid : (root.at? path).isSome) :
    (root.following path).length ≤ root.nodeCount := by
  have once : ((root.following path).map Prod.fst).Nodup := by
    rw [List.Nodup, List.pairwise_map]
    refine (following_ordered valid).imp fun before same => before.not_inside ?_
    rw [same]
  have inTree : (root.following path).map Prod.fst ⊆ root.preorder := by
    intro top member
    obtain ⟨⟨_, subtree⟩, listed, rfl⟩ := List.mem_map.1 member
    exact mem_preorder.2 (Option.isSome_iff_exists.2 ⟨_, ((mem_following_iff valid).1 listed).2⟩)
  have size := (List.subperm_of_subset once inTree).length_le
  rwa [List.length_map, length_preorder] at size

end Node

namespace Arena.Shows

variable {arena : Arena} {root node subtree : Node} {path other top : Path}
  {changed : Nat → Range → Range}

/-- The rows of a subtree are those of the nodes in it. -/
theorem serial_mem_descendants (shows : arena.Shows root) (found : root.at? top = some subtree)
    (valid : (root.at? other).isSome) :
    root.serial other ∈ arena.descendants (root.serial top) ↔ top <+: other := by
  rw [shows.agrees.descendants top subtree found, Node.descendants_eq found, List.mem_map]
  constructor
  · rintro ⟨inner, member, same⟩
    obtain ⟨rest, -, rfl⟩ := List.mem_map.1 member
    rw [eq_comm, Node.serial_inj valid] at same
    exact same ▸ List.prefix_append top rest
  · rintro ⟨rest, rfl⟩
    rw [Node.at?_append_of_at? found] at valid
    exact ⟨_, List.mem_map_of_mem (Node.mem_preorder.2 valid), rfl⟩

theorem nodup_descendants (shows : arena.Shows root) (found : root.at? top = some subtree) :
    (arena.descendants (root.serial top)).Nodup := by
  rw [shows.agrees.descendants top subtree found, Node.descendants_eq found]
  refine List.Nodup.map_on ?_
    ((Node.nodup_preorder subtree).map fun _ _ same => List.append_cancel_left same)
  intro first member second _ same
  obtain ⟨rest, inside, rfl⟩ := List.mem_map.1 member
  refine (Node.serial_inj ?_).1 same
  rw [Node.at?_append_of_at? found]
  exact Node.mem_preorder.1 inside

/-- The rows of a node and its ancestors are those of the nodes around it. -/
theorem serial_mem_enclosing (shows : arena.Shows root) (found : root.at? path = some node)
    (valid : (root.at? other).isSome) :
    root.serial other ∈ root.serial path :: arena.ancestors (root.serial path) ↔
      other <+: path := by
  rw [shows.ancestors_serial found, ← List.map_cons, List.mem_map, ← Path.mem_ancestors_iff]
  constructor
  · rintro ⟨above, member, same⟩
    rw [eq_comm, Node.serial_inj valid] at same
    exact same ▸ member
  · exact fun member => ⟨other, member, rfl⟩

theorem nodup_enclosing (shows : arena.Shows root) (found : root.at? path = some node) :
    (root.serial path :: arena.ancestors (root.serial path)).Nodup := by
  rw [shows.ancestors_serial found, ← List.map_cons]
  refine (Path.nodup_ancestors path).map_on fun above member second _ same => ?_
  obtain ⟨rest, rfl⟩ := Path.mem_ancestors_iff.1 member
  exact (Node.serial_inj (Node.at?_isSome_of_append (Option.isSome_iff_exists.2 ⟨_, found⟩))).1 same

theorem range_serial (shows : arena.Shows root) (found : root.at? path = some node)
    (changed : Nat → Range → Range) :
    (arena.rerange changed).range (root.serial path) = changed (root.serial path) node.range := by
  obtain ⟨row, at_row, -, range, -⟩ := shows.row path node found
  rw [Arena.range, getElem?_rerange, at_row, ← range]
  rfl

end Arena.Shows

/-! ### The loop -/

namespace Arena

/-- What the loop makes of the range of a row, the subtrees still to come being `pending`. -/
def followed (arena : Arena) (root : Node) (delta : Delta) :
    Carry → (pending : List (Path × Node)) → (id : Nat) → Range → Range
  | _, [], _, range => range
  | carry, (top, subtree) :: rest, id, range =>
    let carry := carry.next delta subtree.range
    followed arena root delta carry rest id
      (if id ∈ arena.descendants (root.serial top) then range.follow delta carry.column else range)

/-- With nothing left to move, the subtrees still to come stay as they are. -/
theorem followed_still {arena : Arena} {root : Node} {delta : Delta} {carry : Carry}
    {pending : List (Path × Node)} (lines : delta.line = 0) (columns : carry.column = 0) (id : Nat)
    (range : Range) : followed arena root delta carry pending id range = range := by
  induction pending generalizing carry range with
  | nil => rfl
  | cons found rest ih =>
    have none : (carry.next delta found.2.range).column = 0 := by
      rw [Carry.next]
      simp only
      rw [columns, ite_self]
    have stays : range.follow delta (carry.next delta found.2.range).column = range :=
      if_pos ⟨lines, none⟩
    rw [followed, stays, ite_self, ih none]

namespace Shows

variable {arena : Arena} {root node subtree : Node} {path other top rest : Path} {delta : Delta}
  {carry : Carry} {changed : Nat → Range → Range} {pending : List (Path × Node)}

/-- The climb leads to the first subtree that follows the node. -/
theorem rightSibling_serial (shows : arena.Shows root) (found : root.at? path = some node) :
    arena.rightSibling (root.serial path) =
      (root.following path).head?.elim .ended fun first => .found (root.serial first.1) := by
  rw [shows.agrees.rightSibling path node found,
    Node.rightSibling_eq (Option.isSome_iff_exists.2 ⟨node, found⟩)]
  cases (root.following path).head? <;> rfl

/-- Moving a subtree, row by row. -/
theorem shiftSubtree_eq (shows : arena.Shows root) (found : root.at? top = some subtree)
    (lines columns : Int) :
    (arena.rerange changed).shiftSubtree lines columns (root.serial top) =
      arena.rerange fun id range =>
        if id ∈ arena.descendants (root.serial top) then (changed id range).shifted lines columns
        else changed id range := by
  rw [shiftSubtree, descendants_rerange, changeRanges_eq _ _ (shows.nodup_descendants found),
    rerange_rerange]

/-- **The loop from a node on**, given as many steps as there are following subtrees. Ranges may
have been changed before it, but not those that it reads. -/
theorem shiftFollowing_eq (shows : arena.Shows root) {steps : Nat}
    (found : root.at? path = some node) (listed : root.following path = pending)
    (enough : pending.length ≤ steps)
    (unread : ∀ top subtree, (top, subtree) ∈ pending →
      changed (root.serial top) subtree.range = subtree.range) :
    (arena.rerange changed).shiftFollowing delta carry
        ((arena.rerange changed).rightSibling (root.serial path)) steps =
      arena.rerange fun id range =>
        followed arena root delta carry pending id (changed id range) := by
  -- On the subtrees still to come: each one is the first of those that follow the one before it.
  induction pending generalizing path node carry steps changed with
  | nil =>
    rw [rightSibling_rerange, shows.rightSibling_serial found, listed]
    cases steps <;> rfl
  | cons first rest ih =>
    obtain ⟨top, subtree⟩ := first
    obtain ⟨steps, rfl⟩ : ∃ more, steps = more + 1 :=
      Nat.exists_eq_add_one.2 (Nat.lt_of_lt_of_le (Nat.succ_pos _) enough)
    have valid : (root.at? path).isSome := Option.isSome_iff_exists.2 ⟨node, found⟩
    have isTop : root.at? top = some subtree :=
      ((Node.mem_following_iff valid).1 (listed ▸ List.mem_cons_self)).2
    have read : (arena.rerange changed).range (root.serial top) = subtree.range := by
      rw [shows.range_serial isTop, unread top subtree List.mem_cons_self]
    have later := Node.following_following valid listed
    have ordered := Node.following_ordered valid
    rw [listed, List.pairwise_cons] at ordered
    rw [rightSibling_rerange, shows.rightSibling_serial found, listed, List.head?_cons,
      Option.elim_some, shiftFollowing]
    simp only
    rw [read]
    by_cases still : delta.line = 0 ∧ (carry.next delta subtree.range).column = 0
    · rw [if_pos still]
      refine congrArg (rerange · arena) (funext₂ fun id range => ?_)
      have stays : (changed id range).follow delta (carry.next delta subtree.range).column =
          changed id range := if_pos still
      rw [followed, stays, ite_self, followed_still still.1 still.2]
    · rw [if_neg still, shows.shiftSubtree_eq isTop,
        ih isTop later (Nat.le_of_succ_le_succ enough) ?_]
      · refine congrArg (rerange · arena) (funext₂ fun id range => ?_)
        have moves : (changed id range).follow delta (carry.next delta subtree.range).column =
            (changed id range).shifted delta.line (carry.next delta subtree.range).column :=
          if_neg still
        rw [followed, moves]
      · -- The subtree that was moved has no root of a later one in it.
        intro top' subtree' member
        have apart := (ordered.1 _ member).not_inside
        have isLater := (Node.mem_following_iff valid).1 (listed ▸ List.mem_cons_of_mem _ member)
        have outside : root.serial top' ∉ arena.descendants (root.serial top) := by
          rwa [shows.serial_mem_descendants isTop (Option.isSome_iff_exists.2 ⟨_, isLater.2⟩)]
        rw [if_neg outside, unread top' subtree' (List.mem_cons_of_mem _ member)]

/-- **The whole correction, row by row.** -/
theorem propagate_eq (shows : arena.Shows root) (found : root.at? path = some node)
    (moves : ¬ delta.isZero = true) :
    arena.propagate delta (root.serial path) =
      (arena.rerange fun id range =>
        followed arena root delta (.start delta) (root.following path) id
          (if id ∈ root.serial path :: arena.ancestors (root.serial path) then
            range.adjustEnd delta else range),
        node.range.adjustEnd delta) := by
  have valid : (root.at? path).isSome := Option.isSome_iff_exists.2 ⟨node, found⟩
  have enough : (root.following path).length ≤ arena.nodes.length :=
    shows.size ▸ Node.length_following_le valid
  rw [propagate, if_neg moves]
  simp only
  rw [changeRanges_eq _ _ (shows.nodup_enclosing found), length_rerange,
    shows.range_serial found, if_pos List.mem_cons_self]
  refine congrArg (·, node.range.adjustEnd delta)
    (shows.shiftFollowing_eq found rfl enough fun top subtree listed => ?_)
  -- The loop reads no range whose end was corrected: these are of nodes around the located one.
  obtain ⟨follows, isTop⟩ := (Node.mem_following_iff valid).1 listed
  have outside : root.serial top ∉ root.serial path :: arena.ancestors (root.serial path) := by
    rw [shows.serial_mem_enclosing found (Option.isSome_iff_exists.2 ⟨_, isTop⟩)]
    exact follows.precedes.not_around
  rw [if_neg outside]

/-! ### The ranges that come of it -/

/-- Rows outside the following subtrees stay as they are. -/
theorem followed_outside (shows : arena.Shows root) (valid : (root.at? other).isSome)
    (outside : ∀ top subtree, (top, subtree) ∈ pending →
      root.at? top = some subtree ∧ ¬ top <+: other) (range : Range) :
    followed arena root delta carry pending (root.serial other) range = range := by
  induction pending generalizing carry with
  | nil => rfl
  | cons first rest ih =>
    obtain ⟨isTop, notIn⟩ := outside first.1 first.2 List.mem_cons_self
    rw [← shows.serial_mem_descendants isTop valid] at notIn
    rw [followed, if_neg notIn]
    exact ih fun top subtree member => outside top subtree (List.mem_cons_of_mem _ member)

/-- The rows of one following subtree are moved by the shift in force for it. -/
theorem followed_within (shows : arena.Shows root) {place : Nat}
    (ordered : pending.Pairwise fun first second => first.1.Precedes second.1)
    (tops : ∀ top subtree, (top, subtree) ∈ pending → root.at? top = some subtree)
    (listed : pending[place]? = some (top, subtree)) (valid : (root.at? (top ++ rest)).isSome)
    (range : Range) :
    followed arena root delta carry pending (root.serial (top ++ rest)) range =
      range.follow delta (carry.along delta
        ((pending.map fun found => found.2.range).take (place + 1))).column := by
  induction pending generalizing carry place with
  | nil => cases listed
  | cons first later ih =>
    obtain ⟨before, ordered⟩ := List.pairwise_cons.1 ordered
    have isFirst := tops first.1 first.2 List.mem_cons_self
    have member := shows.serial_mem_descendants isFirst valid
    have isLater (top : Path) (subtree : Node) (listed : (top, subtree) ∈ later) :
        root.at? top = some subtree := tops top subtree (List.mem_cons_of_mem _ listed)
    cases place with
    | zero =>
      cases listed
      rw [followed, if_pos (member.2 (List.prefix_append top rest)), shows.followed_outside valid]
      · rfl
      · intro top' subtree' listed
        have apart := (before _ listed).extend (List.prefix_append top rest) List.prefix_rfl
        exact ⟨isLater top' subtree' listed, apart.not_around⟩
    | succ place =>
      have apart := (before _ (List.mem_of_getElem? listed)).extend List.prefix_rfl
        (List.prefix_append top rest)
      rw [followed, if_neg (mt member.1 apart.not_inside)]
      exact ih ordered isLater listed

end Shows

end Arena

/-! ### The tree that is shown -/

namespace Node

variable {root root' node' : Node} {path : Path}

/-- Trees that differ in ranges have the same nodes. -/
theorem exists_of_unranged (same : root'.unranged = root.unranged)
    (found : root'.at? path = some node') :
    ∃ node, root.at? path = some node ∧ node'.unranged = node.unranged := by
  have both : (root'.at? path).map unranged = (root.at? path).map unranged := by
    rw [← at?_unranged, ← at?_unranged, same]
  rw [found] at both
  obtain ⟨node, isNode, equal⟩ := Option.map_eq_some_iff.1 both.symm
  exact ⟨node, isNode, equal.symm⟩

/-- Trees that differ in ranges have their nodes constructed in the same order. -/
theorem postorder_of_unranged (same : root'.unranged = root.unranged) :
    root'.postorder = root.postorder := by
  rw [postorder, postorder, ← Element.postorder_unranged root'.element,
    ← Element.postorder_unranged root.element, unranged_element, unranged_element, same]

theorem serial_of_unranged (same : root'.unranged = root.unranged) :
    root'.serial = root.serial := by
  funext path
  rw [serial, serial, postorder_of_unranged same]

theorem childPaths_of_unranged (same : root'.unranged = root.unranged)
    (found : root'.at? path = some node') : root'.childPaths path = root.childPaths path := by
  obtain ⟨node, isNode, equal⟩ := exists_of_unranged same found
  have count := congrArg (fun node => node.children.length) equal
  simp only [children_unranged, List.length_map] at count
  rw [childPaths_of_at? found, childPaths_of_at? isNode, count]

end Node

namespace Arena

variable {arena : Arena} {root root' node : Node} {path other : Path} {delta : Delta}
  {change : Nat → Range → Range}

/-- An arena shows another tree with the same nodes once its ranges are changed to those of it. -/
theorem Shows.rerange (shows : arena.Shows root) (same : root'.unranged = root.unranged)
    (ranges : ∀ path node node', root.at? path = some node → root'.at? path = some node' →
      change (root.serial path) node.range = node'.range) :
    (arena.rerange change).Shows root' where
  size := by
    rw [length_rerange, shows.size, ← Node.length_postorder, ← Node.length_postorder,
      Node.postorder_of_unranged same]
  rootLast := by
    rw [Node.serial_of_unranged same]
    exact shows.rootLast
  row path node' found := by
    obtain ⟨node, isNode, equal⟩ := Node.exists_of_unranged same found
    obtain ⟨row, at_row, kind, range, items, children, parent, index⟩ := shows.row path node isNode
    refine ⟨{ row with range := change (root.serial path) row.range }, ?_, ?_, ?_, items, ?_, ?_,
      index⟩
    · rw [getElem?_rerange, Node.serial_of_unranged same, at_row]
      rfl
    · exact kind.trans (congrArg Node.kind equal).symm
    · rw [range]
      exact ranges path node node' isNode found
    · rw [Node.serial_of_unranged same, Node.childPaths_of_unranged same found]
      exact children
    · rw [Node.serial_of_unranged same]
      exact parent

/-- **The corrected arena shows the corrected tree.** -/
theorem Shows.propagate (shows : arena.Shows root) (found : root.at? path = some node)
    (moves : ¬ delta.isZero = true) :
    (arena.propagate delta (root.serial path)).1.Shows (root.propagate delta path) := by
  have valid : (root.at? path).isSome := Option.isSome_iff_exists.2 ⟨node, found⟩
  rw [shows.propagate_eq found moves, Node.propagate_of_ne_zero moves]
  dsimp only
  refine shows.rerange (Node.unranged_propagateFrom delta root path) ?_
  intro other old new isOld isNew
  have isNode : (root.at? other).isSome := Option.isSome_iff_exists.2 ⟨old, isOld⟩
  have enclosing := shows.serial_mem_enclosing found isNode
  -- Whatever does not come after the located node is in none of the subtrees of the loop.
  have outside (notAfter : ¬ path.Precedes other) (range : Range) :
      followed arena root delta (.start delta) (root.following path) (root.serial other) range =
        range := by
    refine shows.followed_outside isNode (fun top subtree listed => ?_) range
    obtain ⟨follows, isTop⟩ := (Node.mem_following_iff valid).1 listed
    exact ⟨isTop, fun inside => notAfter (follows.precedes.extend List.prefix_rfl inside)⟩
  by_cases around : other <+: path
  · obtain ⟨rest, rfl⟩ := around
    rw [Node.at?_append_of_at? isOld] at valid
    rw [if_pos (enclosing.2 (List.prefix_append other rest)),
      outside fun after => after.not_around (List.prefix_append other rest)]
    rw [Node.at?_propagateFrom isOld rest] at isNew
    rw [← Option.some.inj isNew, (Node.propagateFrom_range delta valid).1]
  rw [if_neg (mt enclosing.1 around)]
  by_cases after : path.Precedes other
  · obtain ⟨place, top, subtree, rest, rfl, -, listed, below⟩ :=
      Node.exists_listed valid isOld after
    rw [Node.at?_propagateFrom_within valid listed below] at isNew
    rw [← Option.some.inj isNew, Node.follow_range,
      shows.followed_within (Node.following_ordered valid)
        (fun top subtree member => ((Node.mem_following_iff valid).1 member).2) listed isNode]
    rfl
  · have kept : (root.propagateFrom delta path).1.at? other = root.at? other := by
      rcases other.trichotomy path with isAround | ⟨rest, rfl⟩ | before | isAfter
      · exact absurd isAround around
      · refine Node.at?_propagateFrom_inside found fun none => around ?_
        rw [none, List.append_nil]
      · exact Node.at?_propagateFrom_before valid before
      · exact absurd isAfter after
    rw [outside after]
    rw [kept, isOld] at isNew
    rw [Option.some.inj isNew]

/-- **A correction over an arena is the closed form, and changes nothing else.** The arena shows a
tree, ranges are in order and the delta moves something. Then what comes out shows the corrected
tree, in which every node has its number still; it differs from the arena before in ranges alone;
the range handed back is that of the located node with its end corrected; and what becomes of each
node of the tree is as `Node.Moves` says. -/
theorem propagate_closedForm (shows : arena.Shows root) (found : root.at? path = some node)
    (ranges : ∀ other node, root.at? other = some node →
      node.range.Ordered ∧ node.range.Within maxCoordinate)
    (moves : ¬ delta.isZero = true) :
    ∃ corrected, arena.propagate delta (root.serial path) =
        (corrected, node.range.adjustEnd delta) ∧
      corrected.Shows (root.propagate delta path) ∧
      (root.propagate delta path).serial = root.serial ∧
      corrected.unranged = arena.unranged ∧
      root.Moves delta path (root.propagate delta path) := by
  have shown := shows.propagate found moves
  have result := shows.propagate_eq found moves
  rw [result] at shown
  refine ⟨_, result, shown, ?_, unranged_rerange _ _, ?_⟩
  · exact Node.serial_of_unranged (Node.unranged_propagate delta root path)
  · exact Node.propagate_moves (Option.isSome_iff_exists.2 ⟨node, found⟩) ranges moves

/-- In the arena of `callOutput` the name of the called function gets three characters longer. -/
theorem propagate_closedForm_callOutput : ∃ root arena node delta,
    zipOutput {} callOutput = .ok (.tree root) ∧
      arena = root.arena (cellTokens {} callOutput.source callOutput.tokens) ∧
      arena.Shows root ∧ root.at? [0, 0] = some node ∧
      delta = EditDescriptor.delta (.replace "f(a,\n b)\n" ⟨⟨0, 0⟩, ⟨0, 1⟩⟩ "long") ∧
      (∀ other node, root.at? other = some node →
        node.range.Ordered ∧ node.range.Within maxCoordinate) ∧
      ¬ delta.isZero = true ∧
      ∃ corrected, arena.propagate delta (root.serial [0, 0]) =
          (corrected, node.range.adjustEnd delta) ∧
        corrected.Shows (root.propagate delta [0, 0]) ∧
        (root.propagate delta [0, 0]).serial = root.serial ∧
        corrected.unranged = arena.unranged ∧
        root.Moves delta [0, 0] (root.propagate delta [0, 0]) := by
  obtain ⟨delta, made⟩ : ∃ delta, delta =
      EditDescriptor.delta (.replace "f(a,\n b)\n" ⟨⟨0, 0⟩, ⟨0, 1⟩⟩ "long") := ⟨_, rfl⟩
  obtain ⟨root, node, zipped, found, listed⟩ : ∃ root node,
      zipOutput {} callOutput = .ok (.tree root) ∧ root.at? [0, 0] = some node ∧
      ∀ path ∈ root.preorder, ∀ node ∈ root.at? path,
        node.range.Ordered ∧ node.range.Within maxCoordinate :=
    ⟨_, _, rfl, rfl, by decide +kernel⟩
  have ranges := (Node.forall_at?_iff fun node =>
    node.range.Ordered ∧ node.range.Within maxCoordinate).2 listed
  have moves : ¬ delta.isZero = true := by
    rw [made]
    decide +kernel
  have shows := (Fresh.zipped (TreeOver.ofOutput zipped)).shows_arena
  exact ⟨root, _, node, delta, zipped, rfl, shows, found, made, ranges, moves,
    propagate_closedForm shows found ranges moves⟩

end Arena

end CellSyntax
