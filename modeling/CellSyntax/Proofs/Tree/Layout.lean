/-
**How a tree lies in its arena.**

Allocating a tree calls `Builder.alloc` once for every node, children first, and each call changes
rows that are already there: it fills in the links of the children. What comes of it has a closed
form: a subtree lies in one stretch of the arena, its rows being in construction order, with links
relative to the first (`Element.rows`). So the row of every node can be read off the tree.

* `Element.allocateAll_eq`: what allocating a content adds to the arena;
* `Node.arena_eq`: the arena of a tree that is formed;
* `Node.row_at`: the row of the node at a path, its number being its place in construction order.
-/

import CellSyntax.Proofs.Tree.DocumentOrder
import CellSyntax.Tree.Arena

namespace CellSyntax

namespace Element

/-! ### The closed form -/

/-- The item for an element whose subtree lies from `first` on. -/
def slot (first : Nat) : Element → Slot
  | .token lexeme => .token lexeme.number
  | .node _ _ content => .node (first + nodeCountOf content)

/-- The items for a content that lies from `first` on. -/
def slotsOf (first : Nat) : List Element → List Slot
  | [] => []
  | element :: rest => element.slot first :: slotsOf (first + element.nodeCount) rest

mutual

/-- The rows of an element that lies from `first` on, with the links of its root given. -/
def rows (first : Nat) (parent : Option Nat) (index : Nat) : Element → List ArenaNode
  | .token _ => []
  | .node kind range content =>
    rowsOf first (first + nodeCountOf content) 0 content ++
      [⟨kind, range, slotsOf first content, (slotsOf first content).filterMap Slot.node?, parent,
        index⟩]

/-- The rows of a content that lies from `first` on, linked to the row of its node. -/
def rowsOf (first parent index : Nat) : List Element → List ArenaNode
  | [] => []
  | element :: rest =>
    element.rows first (some parent) index ++
      rowsOf (first + element.nodeCount) parent (index + element.width) rest

end

/-- The rows of a content whose node is not yet allocated. -/
def looseRows (first : Nat) : List Element → List ArenaNode
  | [] => []
  | element :: rest => element.rows first none 0 ++ looseRows (first + element.nodeCount) rest

mutual

theorem length_rows : ∀ (first : Nat) (parent : Option Nat) (index : Nat) (element : Element),
    (element.rows first parent index).length = element.nodeCount
  | _, _, _, .token _ => rfl
  | first, _, _, .node _ _ content => by
    rw [rows, List.length_append, length_rowsOf first _ 0 content]
    rfl

theorem length_rowsOf : ∀ (first parent index : Nat) (content : List Element),
    (rowsOf first parent index content).length = nodeCountOf content
  | _, _, _, [] => rfl
  | first, parent, index, element :: rest => by
    rw [rowsOf, List.length_append, length_rows first (some parent) index element,
      length_rowsOf _ parent _ rest, nodeCountOf]

end

theorem length_looseRows (first : Nat) (content : List Element) :
    (looseRows first content).length = nodeCountOf content := by
  induction content generalizing first with
  | nil => rfl
  | cons element rest ih => rw [looseRows, List.length_append, length_rows, ih, nodeCountOf]

theorem slotsOf_append (first : Nat) (before after : List Element) :
    slotsOf first (before ++ after) =
      slotsOf first before ++ slotsOf (first + nodeCountOf before) after := by
  induction before generalizing first with
  | nil => rfl
  | cons element rest ih =>
    rw [List.cons_append, slotsOf, ih, slotsOf, nodeCountOf, Nat.add_assoc]
    rfl

theorem rowsOf_append (first parent index : Nat) (before after : List Element) :
    rowsOf first parent index (before ++ after) =
      rowsOf first parent index before ++
        rowsOf (first + nodeCountOf before) parent
          (index + (before.filterMap node?).length) after := by
  induction before generalizing first index with
  | nil => rfl
  | cons element rest ih =>
    have count : (List.filterMap node? (element :: rest)).length =
        element.width + (rest.filterMap node?).length := by
      cases element with
      | token lexeme => exact (Nat.zero_add _).symm
      | node kind range content => exact Nat.add_comm _ 1
    rw [List.cons_append, rowsOf, ih, rowsOf, nodeCountOf, count, List.append_assoc, Nat.add_assoc,
      Nat.add_assoc]

theorem looseRows_append (first : Nat) (before after : List Element) :
    looseRows first (before ++ after) =
      looseRows first before ++ looseRows (first + nodeCountOf before) after := by
  induction before generalizing first with
  | nil => rfl
  | cons element rest ih =>
    rw [List.cons_append, looseRows, ih, looseRows, nodeCountOf, List.append_assoc, Nat.add_assoc]

theorem length_children_slotsOf (first : Nat) (content : List Element) :
    ((slotsOf first content).filterMap Slot.node?).length = (content.filterMap node?).length := by
  induction content generalizing first with
  | nil => rfl
  | cons element rest ih =>
    cases element with
    | token lexeme => exact ih _
    | node kind range content => exact congrArg (· + 1) (ih _)

end Element

/-! ### Allocating comes to the closed form -/

namespace Builder

theorem modify_append_cons {Item : Type} {left right : List Item} {item : Item} {place : Nat}
    (size : left.length = place) (change : Item → Item) :
    (left ++ item :: right).modify place change = left ++ change item :: right := by
  subst size
  induction left with
  | nil => rfl
  | cons first left ih => exact congrArg (first :: ·) ih

variable {before : List ArenaNode} {first parent index : Nat} {content : List Element}

/-- Filling in the links to a new node turns the loose rows of its content into linked ones. -/
theorem link_looseRows (start : before.length = first) :
    link parent index ((Element.slotsOf first content).filterMap Slot.node?)
        (before ++ Element.looseRows first content) =
      before ++ Element.rowsOf first parent index content := by
  induction content generalizing before first index with
  | nil => rfl
  | cons element rest ih =>
    cases element with
    | token lexeme =>
      rw [Element.slotsOf, Element.looseRows, Element.rowsOf]
      exact ih start
    | node kind range content =>
      have ahead : (before ++ Element.rowsOf first (first + Element.nodeCountOf content) 0
          content).length = first + Element.nodeCountOf content := by
        rw [List.length_append, start, Element.length_rowsOf]
      have next : (before ++ (Element.node kind range content).rows first (some parent)
          index).length = first + (Element.node kind range content).nodeCount := by
        rw [List.length_append, start, Element.length_rows]
      rw [Element.slotsOf, Element.slot, List.filterMap_cons, Slot.node?, link, Element.looseRows,
        Element.rowsOf, ← List.append_assoc before _ (Element.rowsOf _ _ _ _), ← ih next]
      refine congrArg (link parent (index + 1) _) ?_
      rw [Element.rows, Element.rows, List.append_assoc, List.singleton_append,
        ← List.append_assoc before, modify_append_cons ahead]
      simp only [List.append_assoc, List.singleton_append]

/-- An item of a content has the range of its element, once the content is allocated. -/
theorem rangeOf_slot {tokens : List Token} {front back : List Element} {element : Element}
    (start : before.length = first) (content_eq : content = front ++ element :: back)
    (known : ∀ lexeme ∈ Element.lexemesOf content, tokens[lexeme.number]? = some lexeme.token) :
    rangeOf ⟨tokens, before ++ Element.looseRows first content⟩
      (element.slot (first + Element.nodeCountOf front)) = element.range := by
  subst content_eq
  cases element with
  | token lexeme =>
    have inside : lexeme ∈ Element.lexemesOf (front ++ .token lexeme :: back) := by
      rw [Element.lexemesOf_append, Element.lexemesOf]
      exact List.mem_append_right _ (List.mem_append_left _ List.mem_cons_self)
    rw [Element.slot, rangeOf, known lexeme inside]
    rfl
  | node kind range inner =>
    have ahead : (before ++ Element.looseRows first front ++ Element.rowsOf
        (first + Element.nodeCountOf front)
        (first + Element.nodeCountOf front + Element.nodeCountOf inner) 0 inner).length =
          first + Element.nodeCountOf front + Element.nodeCountOf inner := by
      rw [List.length_append, List.length_append, start, Element.length_looseRows,
        Element.length_rowsOf]
    rw [Element.looseRows_append, Element.looseRows, Element.rows, Element.slot, rangeOf]
    simp only [List.append_assoc, List.singleton_append]
    rw [← List.append_assoc, ← List.append_assoc, List.getElem?_append_right (Nat.le_of_eq ahead),
      ahead, Nat.sub_self]
    rfl

/-- The hull of the items is that of the elements. -/
theorem hull_slotsOf {tokens : List Token} (start : before.length = first)
    (known : ∀ lexeme ∈ Element.lexemesOf content, tokens[lexeme.number]? = some lexeme.token) :
    hull ⟨tokens, before ++ Element.looseRows first content⟩ (Element.slotsOf first content) =
      Element.hull content := by
  rcases List.eq_nil_or_concat' content with rfl | ⟨front, last, content_eq⟩
  · rfl
  · obtain ⟨head, rest, split⟩ : ∃ head rest, content = head :: rest := by
      cases content with
      | nil => simp at content_eq
      | cons head rest => exact ⟨head, rest, rfl⟩
    have starts := rangeOf_slot start (show content = [] ++ head :: rest from split) known
    have ends := rangeOf_slot start content_eq known
    have firstSlot : (Element.slotsOf first content).head? = some (head.slot first) := by
      rw [split]
      rfl
    have lastSlot : (Element.slotsOf first content).getLast? =
        some (last.slot (first + Element.nodeCountOf front)) := by
      rw [content_eq, Element.slotsOf_append, Element.slotsOf, Element.slotsOf,
        List.getLast?_concat]
    have firstElement : content.head? = some head := by rw [split]; rfl
    have lastElement : content.getLast? = some last := by rw [content_eq, List.getLast?_concat]
    rw [hull, Element.hull, firstSlot, lastSlot, firstElement, lastElement]
    simp only
    rw [ends, ← starts]
    rfl

end Builder

namespace Element

mutual

/-- Allocating an element adds its rows, not yet linked to a parent. -/
theorem allocate_eq : ∀ (builder : Builder) (element : Element), element.Formed →
    (∀ lexeme ∈ element.lexemes, builder.tokens[lexeme.number]? = some lexeme.token) →
    element.allocate builder =
      (⟨builder.tokens, builder.nodes ++ element.rows builder.nodes.length none 0⟩,
        element.slot builder.nodes.length)
  | builder, .token lexeme, _, _ => by
    rw [allocate, rows, List.append_nil]
    rfl
  | builder, .node kind range content, formed, known => by
    obtain ⟨spans, parts⟩ : range = hull content ∧ ∀ element ∈ content, element.Formed := by
      cases formed with
      | node _ spans parts => exact ⟨spans, parts⟩
    have size : (builder.nodes ++ looseRows builder.nodes.length content).length =
        builder.nodes.length + nodeCountOf content := by
      rw [List.length_append, length_looseRows]
    rw [allocate, allocateAll_eq builder content parts known]
    simp only [Builder.alloc]
    rw [Builder.link_looseRows rfl, Builder.hull_slotsOf rfl known, size, rows, ← spans,
      List.append_assoc, slot]

/-- **Allocating a content adds the rows of its elements, not yet linked to a parent.** -/
theorem allocateAll_eq : ∀ (builder : Builder) (content : List Element),
    (∀ element ∈ content, element.Formed) →
    (∀ lexeme ∈ lexemesOf content, builder.tokens[lexeme.number]? = some lexeme.token) →
    allocateAll builder content =
      (⟨builder.tokens, builder.nodes ++ looseRows builder.nodes.length content⟩,
        slotsOf builder.nodes.length content)
  | builder, [], _, _ => by
    rw [allocateAll, looseRows, List.append_nil]
    rfl
  | builder, element :: rest, formed, known => by
    have first := allocate_eq builder element (formed element List.mem_cons_self)
      fun lexeme member => known lexeme (List.mem_append_left _ member)
    have others := allocateAll_eq
      ⟨builder.tokens, builder.nodes ++ element.rows builder.nodes.length none 0⟩ rest
      (fun other member => formed other (List.mem_cons_of_mem _ member))
      fun lexeme member => known lexeme (List.mem_append_right _ member)
    rw [allocateAll, first]
    simp only
    rw [others, List.length_append, length_rows, List.append_assoc]
    rfl

end

end Element

namespace Node

variable {node child : Node} {path : Path} {table : List Token}

/-- **The arena of a formed tree whose tokens are those of the table.** -/
theorem arena_eq (formed : node.Formed)
    (known : ∀ lexeme ∈ node.lexemes, table[lexeme.number]? = some lexeme.token) :
    node.arena table =
      ⟨table, node.element.rows 0 none 0, Element.nodeCountOf node.content⟩ := by
  have allocated := Element.allocate_eq ⟨table, []⟩ node.element formed known
  rw [Node.element, Element.allocate, Element.slot, Prod.mk.injEq, Slot.node.injEq,
    List.nil_append, List.length_nil, Nat.zero_add] at allocated
  rw [arena]
  simp only
  rw [allocated.1, allocated.2]
  rfl

/-! ### The number of a node in construction order -/

/-- The number of the node at a path in construction order. -/
def serial (root : Node) (path : Path) : Nat := root.postorder.idxOf path

theorem length_siblings (index : Nat) (content : List Element) :
    (siblingPaths postorder index (content.filterMap Element.node?)).length =
      Element.nodeCountOf content := by
  have same : (siblingPaths postorder index (content.filterMap Element.node?)).Perm
      (siblingPaths preorder index (content.filterMap Element.node?)) :=
    siblingPaths_perm fun child _ => postorder_perm child
  rw [same.length_eq, ← Element.preorderOf_eq, Element.length_preorderOf]

theorem idxOf_map_cons (index : Nat) (path : Path) (paths : List Path) :
    (paths.map (index :: ·)).idxOf (index :: path) = paths.idxOf path := by
  induction paths with
  | nil => rfl
  | cons first paths ih =>
    rw [List.map_cons, List.idxOf_cons, List.idxOf_cons, ih]
    simp

/-- The root has the last number. -/
theorem serial_nil (node : Node) : node.serial [] = Element.nodeCountOf node.content := by
  have notBelow : [] ∉ siblingPaths postorder 0 node.children := by
    intro listed
    obtain ⟨_, _, _, _, same, _⟩ := mem_siblingPaths.1 listed
    cases same
  rw [serial, postorder_eq, List.idxOf_append_of_notMem notBelow, children, length_siblings]
  rfl

/-- The subtree of a child is numbered after everything before it in the content. -/
theorem serial_cons {before after : List Element}
    (content : node.content = before ++ child.element :: after)
    (reached : (child.at? path).isSome) :
    node.serial ((before.filterMap Element.node?).length :: path) =
      Element.nodeCountOf before + child.serial path := by
  have siblings : node.children = before.filterMap Element.node? ++
      child :: after.filterMap Element.node? := by
    rw [children, content, List.filterMap_append]
    rfl
  have listed : path ∈ child.postorder := (postorder_perm child).mem_iff.2 (mem_preorder.2 reached)
  generalize number_eq : (before.filterMap Element.node?).length = number
  have notBefore : number :: path ∉
      siblingPaths postorder 0 (before.filterMap Element.node?) := by
    intro earlier
    obtain ⟨index, _, _, found, same, _⟩ := mem_siblingPaths.1 earlier
    have inside := (List.getElem?_eq_some_iff.1 found).1
    have := (List.cons.inj same).1
    omega
  rw [serial, postorder_eq, siblings, siblingPaths_append, siblingPaths_cons, List.append_assoc,
    List.idxOf_append_of_notMem notBefore, length_siblings, Nat.zero_add, number_eq,
    List.append_assoc, List.idxOf_append_of_mem (List.mem_map_of_mem listed), idxOf_map_cons]
  rfl

/-- The child nodes in the items of a content are numbered as the paths to them are. -/
theorem children_slotsOf (node : Node) (first : Nat) :
    (Element.slotsOf first node.content).filterMap Slot.node? =
      (List.range node.children.length).map fun index => first + node.serial [index] := by
  refine List.ext_getElem? fun index => ?_
  rw [List.getElem?_map]
  cases found : node.child? index with
  | none =>
    have beyond : node.children.length ≤ index := List.getElem?_eq_none_iff.1 found
    rw [List.getElem?_eq_none (by rwa [Element.length_children_slotsOf]),
      List.getElem?_eq_none (by rwa [List.length_range])]
    rfl
  | some child =>
    have inside : index < node.children.length := (List.getElem?_eq_some_iff.1 found).1
    obtain ⟨before, after, content, rfl⟩ := content_split found
    rw [List.getElem?_range inside, Option.map_some, serial_cons content rfl, serial_nil, content,
      Element.slotsOf_append, List.filterMap_append, Element.slotsOf,
      List.getElem?_append_right (Nat.le_of_eq (Element.length_children_slotsOf _ _)),
      Element.length_children_slotsOf, Nat.sub_self, ← Nat.add_assoc]
    rfl

/-! ### The row of a node -/

/-- The rows of a child's subtree, among those of its parent's. -/
theorem rows_split {before after : List Element}
    (content : node.content = before ++ child.element :: after) (first index : Nat)
    (parent : Option Nat) :
    ∃ rest, node.element.rows first parent index =
      Element.rowsOf first (first + node.serial []) 0 before ++
        child.element.rows (first + Element.nodeCountOf before) (some (first + node.serial []))
          (before.filterMap Element.node?).length ++ rest := by
  rw [serial_nil, element, Element.rows, content, Element.rowsOf_append, Element.rowsOf,
    Nat.zero_add, ← List.append_assoc, List.append_assoc]
  exact ⟨_, rfl⟩

/-- **The row of the node at a path**, in an arena in which a tree lies from `first` on. -/
theorem row_at {rows before after : List ArenaNode} {first index : Nat} {parent : Option Nat}
    {found : Node} (start : before.length = first)
    (lies : rows = before ++ node.element.rows first parent index ++ after)
    (reached : node.at? path = some found) :
    ∃ row, rows[first + node.serial path]? = some row ∧ row.kind = found.kind ∧
      row.range = found.range ∧ row.children = row.content.filterMap Slot.node? ∧
      row.children = (List.range found.children.length).map
        (fun number => first + node.serial (path ++ [number])) ∧
      row.parent = path.parent?.elim parent (fun above => some (first + node.serial above)) ∧
      row.index = path.getLast?.getD index := by
  induction path generalizing node first index parent before after with
  | nil =>
    obtain rfl : node = found := Option.some.inj reached
    refine ⟨⟨node.kind, node.range, Element.slotsOf first node.content,
      (Element.slotsOf first node.content).filterMap Slot.node?, parent, index⟩, ?_, rfl, rfl, rfl,
      children_slotsOf node first, rfl, rfl⟩
    have ahead : (before ++ Element.rowsOf first (first + Element.nodeCountOf node.content) 0
        node.content).length = first + node.serial [] := by
      rw [List.length_append, start, Element.length_rowsOf, serial_nil]
    rw [lies, element, Element.rows, ← List.append_assoc, List.append_assoc,
      List.getElem?_append_right (Nat.le_of_eq ahead), ahead, Nat.sub_self]
    rfl
  | cons number path ih =>
    obtain ⟨child, isChild, below⟩ := at?_cons.1 reached
    obtain ⟨front, back, content, rfl⟩ := content_split isChild
    obtain ⟨rest, split⟩ := rows_split content first index parent
    -- Numbers in the child's subtree, seen from the parent, are further on by what comes before it.
    have shift : ∀ other, (child.at? other).isSome →
        first + Element.nodeCountOf front + child.serial other =
          first + node.serial ((front.filterMap Element.node?).length :: other) := by
      intro other valid
      rw [serial_cons content valid, Nat.add_assoc]
    have valid : (child.at? path).isSome := Option.isSome_iff_exists.2 ⟨found, below⟩
    rw [split, ← List.append_assoc, ← List.append_assoc, List.append_assoc] at lies
    obtain ⟨row, at_row, kind, range, items, children, parent_eq, index_eq⟩ :=
      ih (by rw [List.length_append, start, Element.length_rowsOf]) lies below
    refine ⟨row, ?_, kind, range, items, ?_, ?_, ?_⟩
    · rw [← shift path valid]
      exact at_row
    · rw [children]
      refine List.map_congr_left fun index member => shift _ ?_
      rw [at?_concat below, child?, List.getElem?_eq_getElem (List.mem_range.1 member)]
      rfl
    · rw [parent_eq]
      rcases path.eq_nil_or_concat' with rfl | ⟨above, last, rfl⟩
      · rfl
      · have reachable : (child.at? above).isSome := at?_isSome_of_append valid
        rw [← List.cons_append, Path.parent?_concat, Path.parent?_concat]
        exact congrArg some (shift above reachable)
    · rw [index_eq, List.getLast?_cons]
      rfl

end Node

end CellSyntax
