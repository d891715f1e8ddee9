/-
**The links of an arena are those of the tree.**

An arena shows a tree if the row of every node has the links that the path of the node says: to the
rows of the children, to the row of the parent, and the number among its siblings
(`Arena.Shows`). Loops that follow the links then do on rows what the functions on the tree do on
paths, and they come to an end. Seen from the rows alone, the links are in order
(`Arena.Linked`): parents come after their children, the root is last, and walk, climb and chain of
parents agree on one document order.

* `Node.shows_arena`: the arena of a tree shows it;
* `Arena.Shows.agrees`: loops over the rows agree with the functions on the tree;
* `Arena.Shows.linked`: the links are in order.
-/

import CellSyntax.Proofs.Tree.Layout

namespace CellSyntax

namespace Node

variable {root node child : Node} {path other : Path}

/-! ### Numbers in construction order -/

theorem length_postorder (root : Node) : root.postorder.length = root.nodeCount := by
  rw [(postorder_perm root).length_eq, length_preorder]

theorem mem_postorder (found : root.at? path = some node) : path ∈ root.postorder := by
  rw [(postorder_perm root).mem_iff, mem_preorder, found]
  rfl

theorem serial_lt_nodeCount (found : root.at? path = some node) :
    root.serial path < root.nodeCount := by
  rw [← length_postorder]
  exact List.idxOf_lt_length_iff.2 (mem_postorder found)

/-- Every number below the count is that of one node. -/
theorem exists_serial {id : Nat} (inside : id < root.nodeCount) :
    ∃ path node, root.at? path = some node ∧ root.serial path = id := by
  rw [← length_postorder] at inside
  have listed : root.postorder[id] ∈ root.preorder :=
    (postorder_perm root).mem_iff.1 (List.getElem_mem inside)
  obtain ⟨node, found⟩ := Option.isSome_iff_exists.1 (mem_preorder.1 listed)
  have once : root.postorder.Nodup := (postorder_perm root).nodup_iff.2 (nodup_preorder root)
  exact ⟨_, node, found, once.idxOf_getElem id inside⟩

/-- Numbering the nodes in document order gives every number once. -/
theorem map_serial_preorder (root : Node) :
    (root.preorder.map root.serial).Perm (List.range root.nodeCount) := by
  have once : root.postorder.Nodup := (postorder_perm root).nodup_iff.2 (nodup_preorder root)
  have inOrder : root.postorder.map root.serial = List.range root.nodeCount := by
    refine List.ext_getElem (by rw [List.length_map, length_postorder, List.length_range]) ?_
    intro id inside _
    rw [List.getElem_map, List.getElem_range]
    exact once.idxOf_getElem id _
  rw [← inOrder]
  exact ((postorder_perm root).map root.serial).symm

/-- **A child is allocated before its parent.** -/
theorem serial_concat_lt {index : Nat} (found : root.at? path = some node)
    (isChild : node.child? index = some child) :
    root.serial (path ++ [index]) < root.serial path := by
  induction path generalizing root with
  | nil =>
    cases found
    obtain ⟨before, after, content, rfl⟩ := content_split isChild
    rw [List.nil_append, serial_cons content rfl, serial_nil, serial_nil, content,
      Element.nodeCountOf_append, Element.nodeCountOf, element, Element.nodeCount]
    omega
  | cons number path ih =>
    obtain ⟨first, isFirst, below⟩ := at?_cons.1 found
    obtain ⟨before, after, content, rfl⟩ := content_split isFirst
    have reached : (first.at? (path ++ [index])).isSome := by
      rw [at?_concat below, isChild]
      rfl
    rw [List.cons_append, serial_cons content reached,
      serial_cons content (at?_isSome_of_append reached)]
    exact Nat.add_lt_add_left (ih below) _

end Node

/-! ### Arenas that show a tree -/

/-- **An arena that shows a tree**: the row of every node has the links of its path. -/
structure Arena.Shows (arena : Arena) (root : Node) : Prop where
  size : arena.nodes.length = root.nodeCount
  rootLast : arena.root = root.serial []
  row : ∀ path node, root.at? path = some node → ∃ row,
    arena.nodes[root.serial path]? = some row ∧ row.kind = node.kind ∧ row.range = node.range ∧
      row.children = row.content.filterMap Slot.node? ∧
      row.children = (root.childPaths path).map root.serial ∧
      row.parent = path.parent?.map root.serial ∧ row.index = path.index

/-- **The arena of a formed tree shows it.** -/
theorem Node.shows_arena {root : Node} {table : List Token} (formed : root.Formed)
    (known : ∀ lexeme ∈ root.lexemes, table[lexeme.number]? = some lexeme.token) :
    (root.arena table).Shows root := by
  rw [Node.arena_eq formed known]
  refine ⟨Element.length_rows 0 none 0 root.element, (root.serial_nil).symm, ?_⟩
  intro path node found
  have lies : root.element.rows 0 none 0 = [] ++ root.element.rows 0 none 0 ++ [] :=
    (List.append_nil _).symm
  have start : ([] : List ArenaNode).length = 0 := rfl
  obtain ⟨row, at_row, kind, range, items, children, parent, index⟩ :=
    Node.row_at start lies found
  rw [Nat.zero_add] at at_row
  refine ⟨row, at_row, kind, range, items, ?_, ?_, index⟩
  · rw [children, Node.childPaths_of_at? found, List.map_map]
    exact List.map_congr_left fun number _ => Nat.zero_add _
  · rw [parent]
    cases path.parent? with
    | none => rfl
    | some above => exact congrArg some (Nat.zero_add _)

namespace Arena.Shows

variable {arena : Arena} {root node : Node} {path : Path}

theorem parent?_serial (shows : arena.Shows root) (found : root.at? path = some node) :
    arena.parent? (root.serial path) = path.parent?.map root.serial := by
  obtain ⟨row, at_row, -, -, -, -, parent, -⟩ := shows.row path node found
  rw [parent?, at_row, Option.bind_some, parent]

theorem children_serial (shows : arena.Shows root) (found : root.at? path = some node) :
    arena.children (root.serial path) = (root.childPaths path).map root.serial := by
  obtain ⟨row, at_row, -, -, -, children, -, -⟩ := shows.row path node found
  rw [Arena.children, at_row, ← children]
  rfl

theorem index_serial (shows : arena.Shows root) (found : root.at? path = some node) :
    arena.index (root.serial path) = path.index := by
  obtain ⟨row, at_row, -, -, -, -, -, index⟩ := shows.row path node found
  rw [Arena.index, at_row, ← index]
  rfl

/-! ### Loops over the rows -/

/-- The walk over rows is the walk over paths. -/
theorem walk_serial (shows : arena.Shows root) {steps : Nat} {waiting : List Path}
    (valid : ∀ path ∈ waiting, (root.at? path).isSome) :
    arena.walk steps (waiting.map root.serial) = (root.walk steps waiting).map root.serial := by
  induction steps generalizing waiting with
  | zero => rfl
  | succ steps ih =>
    cases waiting with
    | nil => rfl
    | cons path waiting =>
      obtain ⟨node, found⟩ := Option.isSome_iff_exists.1 (valid path List.mem_cons_self)
      rw [List.map_cons, walk, Node.walk, List.map_cons, shows.children_serial found,
        ← List.map_append, ih]
      intro other member
      rcases List.mem_append.1 member with below | later
      · exact Node.isSome_of_mem_childPaths found below
      · exact valid other (List.mem_cons_of_mem _ later)

theorem chain_serial (shows : arena.Shows root) {steps : Nat} (found : root.at? path = some node)
    (enough : path.length < steps) :
    arena.chain steps (some (root.serial path)) = (path :: path.ancestors).map root.serial := by
  induction steps generalizing path node with
  | zero => exact absurd enough (Nat.not_lt_zero _)
  | succ steps ih =>
    rw [chain, shows.parent?_serial found, List.map_cons]
    refine congrArg (root.serial path :: ·) ?_
    rcases path.eq_nil_or_concat' with rfl | ⟨above, last, rfl⟩
    · cases steps <;> rfl
    · obtain ⟨parent, reached, -⟩ := Node.exists_parent found
      rw [Path.parent?_concat, Path.ancestors_concat]
      rw [List.length_append] at enough
      exact ih reached (Nat.lt_of_succ_lt_succ enough)

/-- The climb over rows leads where the step to the right leads on paths. -/
theorem climb_serial (shows : arena.Shows root) {steps : Nat} (found : root.at? path = some node)
    (enough : path.length < steps) :
    arena.climb steps (root.serial path) =
      (root.rightSibling path).elim .ended fun next => .found (root.serial next) := by
  induction steps generalizing path node with
  | zero => exact absurd enough (Nat.not_lt_zero _)
  | succ steps ih =>
    rw [climb, shows.parent?_serial found]
    rcases path.eq_nil_or_concat' with rfl | ⟨above, last, rfl⟩
    · rfl
    · obtain ⟨parent, reached, isChild⟩ := Node.exists_parent found
      rw [List.length_append] at enough
      rw [Path.parent?_concat, Option.map_some, Node.rightSibling_concat reached isChild]
      simp only
      rw [shows.children_serial reached, shows.index_serial found, Path.index_concat,
        Node.childPaths_of_at? reached, List.getElem?_map, List.getElem?_map]
      by_cases more : last + 1 < parent.children.length
      · rw [List.getElem?_range more, if_pos more]
        rfl
      · rw [List.getElem?_eq_none (by rw [List.length_range]; omega), if_neg more]
        exact ih reached (Nat.lt_of_succ_lt_succ enough)

end Arena.Shows

/-- **Loops over the rows agree with the functions on the tree**, a row being numbered by the place
of its node in construction order. -/
structure Arena.Agrees (arena : Arena) (root : Node) : Prop where
  row : ∀ path node, root.at? path = some node → ∃ row,
    arena.nodes[root.serial path]? = some row ∧ row.kind = node.kind ∧ row.range = node.range
  parent : ∀ path node, root.at? path = some node →
    arena.parent? (root.serial path) = path.parent?.map root.serial ∧
      arena.index (root.serial path) = path.index
  children : ∀ path node, root.at? path = some node →
    arena.children (root.serial path) = (root.childPaths path).map root.serial
  preorder : arena.descendants arena.root = root.preorder.map root.serial
  descendants : ∀ path node, root.at? path = some node →
    arena.descendants (root.serial path) = (root.descendants path).map root.serial
  ancestors : ∀ path node, root.at? path = some node →
    arena.ancestors (root.serial path) = path.ancestors.map root.serial
  rightSibling : ∀ path node, root.at? path = some node →
    arena.rightSibling (root.serial path) =
      (root.rightSibling path).elim .ended fun next => .found (root.serial next)

/-- **The links of an arena are in order**, seen from its rows alone. -/
structure Arena.Linked (arena : Arena) : Prop where
  /-- The root is the last node that was allocated. -/
  rootLast : arena.root + 1 = arena.nodes.length
  rootAlone : arena.parent? arena.root = none
  /-- Every other node is that child of a node allocated after it which it says it is. -/
  parent : ∀ id < arena.root, ∃ parent, arena.parent? id = some parent ∧ id < parent ∧
    parent ≤ arena.root ∧ (arena.children parent)[arena.index id]? = some id
  /-- The children of a node are the child nodes in its content, in order. -/
  children : ∀ id ≤ arena.root, arena.children id = (arena.content id).filterMap Slot.node?
  /-- The chain of parents of a node ends at the root. -/
  ancestors : ∀ id < arena.root, (arena.ancestors id).getLast? = some arena.root
  /-- The walk from the root visits every node once. -/
  once : (arena.descendants arena.root).Perm (List.range arena.nodes.length)
  /-- The walk has come to its end: more steps visit no more nodes. -/
  walked : ∀ id ≤ arena.root, ∀ steps ≥ arena.nodes.length,
    arena.walk steps [id] = arena.descendants id
  /-- The climb ends, at the first node after the whole subtree, or without one. -/
  rightSibling : ∀ id ≤ arena.root, ∃ before after,
    arena.descendants arena.root = before ++ arena.descendants id ++ after ∧
      arena.rightSibling id = after.head?.elim .ended .found

namespace Arena.Shows

variable {arena : Arena} {root node : Node} {path : Path}

theorem ancestors_serial (shows : arena.Shows root) (found : root.at? path = some node) :
    arena.ancestors (root.serial path) = path.ancestors.map root.serial := by
  have bound := Node.length_lt_nodeCount found
  rw [← shows.size] at bound
  rw [ancestors, shows.parent?_serial found]
  rcases path.eq_nil_or_concat' with rfl | ⟨above, last, rfl⟩
  · cases arena.nodes.length <;> rfl
  · obtain ⟨parent, reached, -⟩ := Node.exists_parent found
    rw [List.length_append] at bound
    rw [Path.parent?_concat, Path.ancestors_concat, Option.map_some]
    exact shows.chain_serial reached (Nat.lt_of_succ_lt bound)

theorem walk_single (shows : arena.Shows root) (found : root.at? path = some node) {steps : Nat}
    (enough : arena.nodes.length ≤ steps) :
    arena.walk steps [root.serial path] = (root.descendants path).map root.serial := by
  have valid : ∀ other ∈ [path], (root.at? other).isSome := by
    intro other isPath
    rw [List.mem_singleton.1 isPath, found]
    rfl
  rw [shows.size] at enough
  rw [Node.descendants_eq found, ← Node.walk_single found enough]
  exact shows.walk_serial valid

/-- **Loops over the rows agree with the functions on the tree.** -/
theorem agrees (shows : arena.Shows root) : arena.Agrees root where
  row path node found := by
    obtain ⟨row, at_row, kind, range, -⟩ := shows.row path node found
    exact ⟨row, at_row, kind, range⟩
  parent _ _ found := ⟨shows.parent?_serial found, shows.index_serial found⟩
  children _ _ found := shows.children_serial found
  preorder := by
    have reached : root.at? [] = some root := rfl
    have walked := shows.walk_single reached (Nat.le_refl _)
    rw [Node.descendants_eq reached] at walked
    simp only [List.nil_append, List.map_id'] at walked
    rw [shows.rootLast]
    exact walked
  descendants _ _ found := shows.walk_single found (Nat.le_refl _)
  ancestors _ _ found := shows.ancestors_serial found
  rightSibling path _ found := by
    have bound := Node.length_lt_nodeCount found
    rw [← shows.size] at bound
    exact shows.climb_serial found bound

theorem exists_path (shows : arena.Shows root) {id : Nat} (inside : id ≤ arena.root) :
    ∃ path node, root.at? path = some node ∧ root.serial path = id := by
  have last : root.serial [] < root.nodeCount :=
    Node.serial_lt_nodeCount (show root.at? [] = some root from rfl)
  rw [shows.rootLast] at inside
  exact Node.exists_serial (Nat.lt_of_le_of_lt inside last)

/-- The row of a node below the root is linked to that of its parent. -/
theorem parent_linked (shows : arena.Shows root) {id : Nat} (below : id < arena.root) :
    ∃ parent, arena.parent? id = some parent ∧ id < parent ∧ parent ≤ arena.root ∧
      (arena.children parent)[arena.index id]? = some id := by
  obtain ⟨path, node, found, rfl⟩ := shows.exists_path (Nat.le_of_lt below)
  rcases path.eq_nil_or_concat' with rfl | ⟨above, last, rfl⟩
  · rw [shows.rootLast] at below
    exact absurd below (Nat.lt_irrefl _)
  · obtain ⟨parent, reached, isChild⟩ := Node.exists_parent found
    have inside : last < parent.children.length := (List.getElem?_eq_some_iff.1 isChild).1
    refine ⟨root.serial above, ?_, Node.serial_concat_lt reached isChild, ?_, ?_⟩
    · rw [shows.parent?_serial found, Path.parent?_concat, Option.map_some]
    · have bound := Node.serial_lt_nodeCount reached
      rw [Node.nodeCount, Node.element, Element.nodeCount] at bound
      rw [shows.rootLast, Node.serial_nil]
      exact Nat.le_of_lt_succ bound
    · rw [shows.children_serial reached, shows.index_serial found, Path.index_concat,
        Node.childPaths_of_at? reached, List.getElem?_map, List.getElem?_map,
        List.getElem?_range inside]
      rfl

/-- **The links are in order.** -/
theorem linked (shows : arena.Shows root) : arena.Linked where
  rootLast := by
    rw [shows.rootLast, shows.size, Node.serial_nil]
    rfl
  rootAlone := by
    rw [shows.rootLast, shows.parent?_serial rfl]
    rfl
  parent _ below := shows.parent_linked below
  children id inside := by
    obtain ⟨path, node, found, rfl⟩ := shows.exists_path inside
    obtain ⟨row, at_row, -, -, items, -⟩ := shows.row path node found
    rw [Arena.children, Arena.content, at_row]
    exact items
  ancestors id below := by
    obtain ⟨path, node, found, rfl⟩ := shows.exists_path (Nat.le_of_lt below)
    have notRoot : path ≠ [] := by
      rintro rfl
      rw [shows.rootLast] at below
      exact Nat.lt_irrefl _ below
    rw [shows.ancestors_serial found, List.getLast?_map, Path.getLast?_ancestors notRoot,
      shows.rootLast]
    rfl
  once := by
    rw [shows.agrees.preorder, shows.size]
    exact Node.map_serial_preorder root
  walked id inside steps enough := by
    obtain ⟨path, node, found, rfl⟩ := shows.exists_path inside
    exact (shows.walk_single found enough).trans (shows.walk_single found (Nat.le_refl _)).symm
  rightSibling id inside := by
    obtain ⟨path, node, found, rfl⟩ := shows.exists_path inside
    obtain ⟨before, after, split, next⟩ := Node.rightSibling_after found
    refine ⟨before.map root.serial, after.map root.serial, ?_, ?_⟩
    · rw [shows.agrees.preorder, split, shows.agrees.descendants path node found,
        List.map_append, List.map_append]
    · rw [shows.agrees.rightSibling path node found, next, List.head?_map]
      cases after.head? <;> rfl

end Arena.Shows

end CellSyntax
