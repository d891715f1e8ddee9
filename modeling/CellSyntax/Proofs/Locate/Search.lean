/-
**The search for the narrowest node.**

The siblings at every level are in order. A sibling that starts after the edit starts rules out
itself and all later ones, and one that ends before the edit ends rules out itself and all earlier
ones; a sibling that the edit spans rules out all. So halving the list finds a sibling that contains
the edit if there is one, and going down level by level ends at a node none of whose children
contains the edit. Two siblings contain an edit only if they touch there and the edit is empty, so
for other edits there is one way down.

* `bisect_contains`, `bisect_isSome`: what halving finds, and that it finds it;
* `Node.reaches_nodeAt`, `Node.nodeAt_narrowest`: where the way down leads;
* `Node.Reaches.isPrefix_locate`: there is no other way down;
* `Node.search`: all of it, for every tree whose siblings are in order.
-/

import CellSyntax.Locate
import CellSyntax.Proofs.Tree.Nesting

namespace CellSyntax

/-! ### Ruling out siblings -/

namespace Range

variable {node other edit : Range}

theorem starts_before_iff :
    edit.start < node.start ↔ relation node edit = .before ∨ relation node edit = .spans := by
  unfold relation
  by_cases starts : edit.start < node.start <;> by_cases stops : node.stop < edit.stop <;>
    simp [starts, stops]

theorem stops_after_iff :
    node.stop < edit.stop ↔ relation node edit = .after ∨ relation node edit = .spans := by
  unfold relation
  by_cases starts : edit.start < node.start <;> by_cases stops : node.stop < edit.stop <;>
    simp [starts, stops]

/-- What comes after a node that the edit starts before does not contain the edit. -/
theorem not_contains_later (starts : edit.start < node.start) (ordered : node.Ordered)
    (follows : node.stop ≤ other.start) : ¬ other.containsRange edit = true := by
  rw [containsRange_iff]
  intro ⟨start, _⟩
  exact Position.lt_iff_not_le.1 starts
    (Position.le_trans ordered (Position.le_trans follows start))

/-- What comes before a node that the edit ends after does not contain the edit. -/
theorem not_contains_earlier (stops : node.stop < edit.stop) (ordered : node.Ordered)
    (follows : other.stop ≤ node.start) : ¬ other.containsRange edit = true := by
  rw [containsRange_iff]
  intro ⟨_, stop⟩
  exact Position.lt_iff_not_le.1 stops
    (Position.le_trans stop (Position.le_trans follows ordered))

/-- Of two ranges that follow one another, only one contains an edit that is not empty. -/
theorem not_contains_both (nonempty : edit.start < edit.stop) (follows : node.stop ≤ other.start)
    (first : node.containsRange edit = true) : ¬ other.containsRange edit = true := by
  rw [containsRange_iff] at first ⊢
  intro ⟨start, _⟩
  exact Position.lt_iff_not_le.1 nonempty
    (Position.le_trans first.2 (Position.le_trans follows start))

end Range

/-! ### One level -/

section Level

variable {edit range : Range} {ranges : List Range} {steps found : Nat}

/-- What halving finds contains the edit. -/
theorem bisect_contains (hit : bisect edit steps ranges = some found) :
    ∃ range, ranges[found]? = some range ∧ range.containsRange edit = true := by
  induction steps generalizing ranges found with
  | zero => cases hit
  | succ steps ih =>
    simp only [bisect] at hit
    split at hit
    · cases hit
    · rename_i middle later dropped
      have split : ∀ place, ranges[ranges.length / 2 + place]? = (middle :: later)[place]? :=
        fun place => by rw [← dropped, List.getElem?_drop]
      split at hit
      · rename_i contains
        cases hit
        exact ⟨middle, split 0, by rw [Range.containsRange, contains]; rfl⟩
      · cases hit
      · obtain ⟨range, isRange, contains⟩ := ih hit
        rw [List.getElem?_take] at isRange
        split at isRange
        · exact ⟨range, isRange, contains⟩
        · cases isRange
      · obtain ⟨inner, inside, rfl⟩ := Option.map_eq_some_iff.1 hit
        obtain ⟨range, isRange, contains⟩ := ih inside
        refine ⟨range, ?_, contains⟩
        rw [Nat.add_assoc, split, Nat.add_comm 1]
        exact isRange

/-- **One comparison leaves the side where the edit is**: a range that contains the edit is the one
compared, or lies on the side that the comparison points to. -/
theorem Range.InOrder.narrowed {middle : Range} {earlier later : List Range}
    (inOrder : Range.InOrder (earlier ++ middle :: later))
    (member : range ∈ earlier ++ middle :: later) (contains : range.containsRange edit = true) :
    middle.relation edit = .contains ∨ middle.relation edit = .before ∧ range ∈ earlier ∨
      middle.relation edit = .after ∧ range ∈ later := by
  obtain ⟨-, after, before⟩ := List.pairwise_append.1 inOrder.apart
  have ordered : middle.Ordered :=
    inOrder.ordered middle (List.mem_append_right _ List.mem_cons_self)
  have notLater : edit.start < middle.start → range ∉ later := fun starts inside =>
    Range.not_contains_later starts ordered ((List.pairwise_cons.1 after).1 range inside) contains
  have notEarlier : middle.stop < edit.stop → range ∉ earlier := fun stops inside =>
    Range.not_contains_earlier stops ordered (before range inside middle List.mem_cons_self)
      contains
  have same : range = middle → middle.relation edit = .contains := by
    rintro rfl
    exact eq_of_beq contains
  rw [List.mem_append, List.mem_cons] at member
  cases relation : middle.relation edit with
  | contains => exact Or.inl rfl
  | spans =>
    have starts := notLater (Range.starts_before_iff.2 (Or.inr relation))
    have stops := notEarlier (Range.stops_after_iff.2 (Or.inr relation))
    simp_all
  | before =>
    have starts := notLater (Range.starts_before_iff.2 (Or.inl relation))
    simp_all
  | after =>
    have stops := notEarlier (Range.stops_after_iff.2 (Or.inl relation))
    simp_all

/-- **Halving finds a range that contains the edit if there is one.** -/
theorem bisect_isSome (inOrder : Range.InOrder ranges) (enough : ranges.length ≤ steps)
    (member : range ∈ ranges) (contains : range.containsRange edit = true) :
    (bisect edit steps ranges).isSome := by
  induction steps generalizing ranges with
  | zero =>
    have := List.length_pos_of_mem member
    omega
  | succ steps ih =>
    have some := List.length_pos_of_mem member
    obtain ⟨middle, later, dropped⟩ : ∃ middle later,
        ranges.drop (ranges.length / 2) = middle :: later :=
      List.exists_cons_of_length_pos (by rw [List.length_drop]; omega)
    -- Both halves are shorter than the list, so there are steps enough for either.
    have size : later.length + 1 = ranges.length - ranges.length / 2 := by
      rw [← List.length_drop, dropped, List.length_cons]
    have whole : ranges.take (ranges.length / 2) ++ middle :: later = ranges := by
      rw [← dropped, List.take_append_drop]
    rw [← whole] at inOrder member
    rw [bisect]
    simp only [dropped]
    rcases inOrder.narrowed member contains with here | ⟨side, inside⟩ | ⟨side, inside⟩
    · rw [here]
      rfl
    · rw [side]
      exact ih (inOrder.sublist (List.sublist_append_left _ _)) (by rw [List.length_take]; omega)
        inside
    · have laterPart : later.Sublist (ranges.take (ranges.length / 2) ++ middle :: later) :=
        (List.sublist_cons_self middle later).trans (List.sublist_append_right _ _)
      rw [side, Option.isSome_map]
      exact ih (inOrder.sublist laterPart) (by omega) inside

end Level

/-! ### From level to level -/

namespace Element

theorem narrowChild_append {edit : Range} {before after : List Element} {child : Node} :
    narrowChild edit (before.filterMap node?).length (before ++ child.element :: after) =
      child.element.narrow edit := by
  induction before with
  | nil => exact if_pos Nat.zero_lt_one
  | cons element before ih =>
    rw [List.cons_append, narrowChild]
    cases element with
    | token lexeme => exact (if_neg (Nat.not_lt_zero _)).trans ih
    | node kind range content => exact (if_neg (by simp [width, node?])).trans ih

end Element

namespace Node

variable {root node child : Node} {edit : Range} {path : Path} {index : Nat}

/-- The child that the search goes down into: one that contains the edit. -/
def affectedChild? (node : Node) (edit : Range) : Option Nat :=
  bisect edit (Element.childRanges node.content).length (Element.childRanges node.content)

theorem childRanges_content (node : Node) :
    Element.childRanges node.content = node.children.map Node.range := rfl

theorem locate_of_none (none : node.affectedChild? edit = none) : node.locate edit = [] := by
  rw [affectedChild?] at none
  rw [locate, element, Element.narrow, none]

theorem locate_of_some (hit : node.affectedChild? edit = some index)
    (isChild : node.child? index = some child) :
    node.locate edit = index :: child.locate edit := by
  rw [affectedChild?] at hit
  obtain ⟨before, after, content, rfl⟩ := content_split isChild
  rw [locate, element, Element.narrow, hit]
  simp only
  rw [content, Element.narrowChild_append]
  rfl

theorem affectedChild?_contains (hit : node.affectedChild? edit = some index) :
    ∃ child, node.child? index = some child ∧ child.range.containsRange edit = true := by
  obtain ⟨range, isRange, contains⟩ := bisect_contains hit
  rw [childRanges_content, List.getElem?_map] at isRange
  obtain ⟨child, isChild, rfl⟩ := Option.map_eq_some_iff.1 isRange
  exact ⟨child, isChild, contains⟩

/-- **The search finds a child that contains the edit if there is one.** -/
theorem affectedChild?_isSome_iff (inOrder : Range.InOrder (node.children.map Node.range)) :
    (node.affectedChild? edit).isSome ↔
      ∃ child ∈ node.children, child.range.containsRange edit = true := by
  constructor
  · intro hit
    obtain ⟨index, hit⟩ := Option.isSome_iff_exists.1 hit
    obtain ⟨child, isChild, contains⟩ := affectedChild?_contains hit
    exact ⟨child, mem_children_of_child? isChild, contains⟩
  · intro ⟨child, member, contains⟩
    exact bisect_isSome inOrder (Nat.le_refl _) (List.mem_map_of_mem member) contains

/-- **The way down to a node through nodes that contain the edit**, the node itself among them and
the root left out. -/
inductive Reaches (edit : Range) : Node → Path → Node → Prop
  | here (node : Node) : Reaches edit node [] node
  | into {parent child node : Node} {index : Nat} {path : Path}
      (isChild : parent.child? index = some child)
      (contains : child.range.containsRange edit = true) (down : Reaches edit child path node) :
      Reaches edit parent (index :: path) node

theorem Reaches.at? (reaches : Reaches edit root path node) : root.at? path = some node := by
  induction reaches with
  | here => rfl
  | into isChild _ _ ih => rw [at?_child isChild, ih]

/-- Every node on the way down contains the edit, the root left out. -/
theorem Reaches.contains {above : Path} {around : Node} (reaches : Reaches edit root path node)
    (onWay : above <+: path) (below : above ≠ []) (found : root.at? above = some around) :
    around.range.containsRange edit = true := by
  induction reaches generalizing above with
  | here => exact absurd (List.prefix_nil.1 onWay) below
  | into isChild contains down ih =>
    obtain ⟨index, rest, rfl⟩ := List.exists_cons_of_ne_nil below
    obtain ⟨rfl, further⟩ := List.cons_prefix_cons.1 onWay
    rw [at?_child isChild] at found
    by_cases here : rest = []
    · subst here
      cases found
      exact contains
    · exact ih further here found

/-- A node is reached through nodes that contain its own range if every node covers its children. -/
theorem Nested.reaches (nested : root.Nested) (found : root.at? path = some node) :
    Reaches node.range root path node := by
  induction path generalizing root with
  | nil =>
    cases found
    exact .here _
  | cons index path ih =>
    obtain ⟨child, isChild, below⟩ := at?_cons.1 found
    exact .into isChild (Range.containsRange_iff.2 ((nested.of_child isChild).covers below))
      (ih (nested.of_child isChild) below)

/-- The search goes down through nodes that contain the edit. -/
theorem exists_reaches_locate (root : Node) (edit : Range) :
    ∃ node, Reaches edit root (root.locate edit) node := by
  induction root using children_induction with
  | step root ih =>
    cases hit : root.affectedChild? edit with
    | none =>
      rw [locate_of_none hit]
      exact ⟨root, .here root⟩
    | some index =>
      obtain ⟨child, isChild, contains⟩ := affectedChild?_contains hit
      obtain ⟨node, down⟩ := ih child (mem_children_of_child? isChild)
      rw [locate_of_some hit isChild]
      exact ⟨node, .into isChild contains down⟩

/-- **The located node is reached through nodes that contain the edit.** -/
theorem reaches_nodeAt (root : Node) (edit : Range) :
    Reaches edit root (root.locate edit) (root.nodeAt edit) := by
  obtain ⟨node, reached⟩ := exists_reaches_locate root edit
  rw [nodeAt, reached.at?]
  exact reached

theorem at?_locate (root : Node) (edit : Range) :
    root.at? (root.locate edit) = some (root.nodeAt edit) :=
  (reaches_nodeAt root edit).at?

/-- **The search goes down as far as there is a child that contains the edit.** -/
theorem nodeAt_narrowest (inOrder : root.SiblingsInOrder) (edit : Range) :
    ∀ child ∈ (root.nodeAt edit).children, ¬ child.range.containsRange edit = true := by
  induction root using children_induction with
  | step root ih =>
    cases hit : root.affectedChild? edit with
    | none =>
      have located := at?_locate root edit
      rw [locate_of_none hit] at located
      rw [← Option.some.inj located]
      intro child member contains
      have some := (affectedChild?_isSome_iff (inOrder [] root rfl)).2 ⟨child, member, contains⟩
      rw [hit] at some
      cases some
    | some index =>
      obtain ⟨child, isChild, -⟩ := affectedChild?_contains hit
      have located := at?_locate root edit
      rw [locate_of_some hit isChild, at?_child isChild, at?_locate] at located
      rw [← Option.some.inj located]
      exact ih child (mem_children_of_child? isChild) (inOrder.of_child isChild)

/-- Only one child contains an edit that is not empty. -/
theorem child_unique {other : Node} {second : Nat} (inOrder : root.SiblingsInOrder)
    (nonempty : edit.start < edit.stop)
    (isChild : root.child? index = some child) (contains : child.range.containsRange edit = true)
    (isOther : root.child? second = some other)
    (containsOther : other.range.containsRange edit = true) : index = second := by
  rcases Nat.lt_trichotomy index second with less | same | more
  · exact absurd containsOther
      (Range.not_contains_both nonempty (inOrder.apart less isChild isOther) contains)
  · exact same
  · exact absurd contains
      (Range.not_contains_both nonempty (inOrder.apart more isOther isChild) containsOther)

/-- **Every way down through nodes that contain an edit which is not empty is a part of the way that
the search takes.** -/
theorem Reaches.isPrefix_locate (reaches : Reaches edit root path node)
    (inOrder : root.SiblingsInOrder) (nonempty : edit.start < edit.stop) :
    path <+: root.locate edit := by
  induction reaches with
  | here => exact List.nil_prefix
  | @into parent child node index path isChild contains down ih =>
    have some := (affectedChild?_isSome_iff (inOrder [] parent rfl)).2
      ⟨child, mem_children_of_child? isChild, contains⟩
    obtain ⟨found, hit⟩ := Option.isSome_iff_exists.1 some
    obtain ⟨other, isOther, containsOther⟩ := affectedChild?_contains hit
    obtain rfl := child_unique inOrder nonempty isChild contains isOther containsOther
    rw [locate_of_some hit isChild]
    exact List.cons_prefix_cons.2 ⟨rfl, ih (inOrder.of_child isChild)⟩

/-- **The search is correct** for an edit: at every level, and in where it leads. -/
structure SearchCorrect (root : Node) (edit : Range) : Prop where
  /-- At every level the search finds a child that contains the edit, if there is one. -/
  level : ∀ path node, root.at? path = some node →
    (∀ index, node.affectedChild? edit = some index → ∃ child, node.child? index = some child ∧
      child.range.containsRange edit = true) ∧
      ((node.affectedChild? edit).isSome ↔
        ∃ child ∈ node.children, child.range.containsRange edit = true)
  reached : Reaches edit root (root.locate edit) (root.nodeAt edit)
  narrowest : ∀ child ∈ (root.nodeAt edit).children, ¬ child.range.containsRange edit = true
  /-- The root is located, with index 0, if no child of it contains the edit. -/
  rootAlone : (∀ child ∈ root.children, ¬ child.range.containsRange edit = true) →
    root.locate edit = [] ∧ (root.locate edit).index = 0
  /-- The index of any other node is its number among its siblings. -/
  position : root.locate edit ≠ [] → ∃ above parent, (root.locate edit).parent? = some above ∧
    root.at? above = some parent ∧
      parent.child? (root.locate edit).index = some (root.nodeAt edit)
  /-- If the edit is not empty, every node that is reached this way is on the way to the located
  one. -/
  deepest : edit.start < edit.stop → ∀ path node, Reaches edit root path node →
    path <+: root.locate edit

/-- **The search is correct for every tree whose siblings are in order.** -/
theorem search (inOrder : root.SiblingsInOrder) (edit : Range) : root.SearchCorrect edit where
  level path node found :=
    ⟨fun _ => affectedChild?_contains, affectedChild?_isSome_iff (inOrder path node found)⟩
  reached := reaches_nodeAt root edit
  narrowest := nodeAt_narrowest inOrder edit
  rootAlone none := by
    have nothing : root.affectedChild? edit = .none := by
      rw [← Option.not_isSome_iff_eq_none, affectedChild?_isSome_iff (inOrder [] root rfl)]
      exact fun ⟨child, member, contains⟩ => none child member contains
    rw [locate_of_none nothing]
    exact ⟨rfl, rfl⟩
  position below := root.inDocumentOrder.parent _ _ below (at?_locate root edit)
  deepest nonempty _ _ reaches := reaches.isPrefix_locate inOrder nonempty

end Node

end CellSyntax
