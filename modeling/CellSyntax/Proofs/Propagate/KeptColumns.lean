/-
**Which columns a correction leaves alone.**

After an edit columns move only on the line that the edit ends on, and a correction decides for each
following subtree whether it starts there. What it decides for the subtree goes for all of it: a
subtree over several lines is moved as one, so a node on its second line has its columns moved with
those of the first. Nodes in following subtrees that start further down keep their columns, and so
do the nodes inside the located one.

Lines do not go past the largest coordinate. If both ends of a range are moved to it, then the
columns alone order them, and they may change places.

* `Range.Collapses`: the ranges for which this happens;
* `Range.shifted_columns_iff`: a range moved by lines keeps its columns otherwise;
* `Node.preorder_ordered`: document order lists what is around or before a node ahead of it;
* `Node.propagate_columns`: the nodes after the located one that keep their columns;
* `Node.propagate_moves_columns`: two nodes below the edit's last line that do not.
-/

import CellSyntax.Proofs.Propagate.Frame
import CellSyntax.Proofs.Zip.Locating

namespace CellSyntax

/-! ### Moving by lines alone -/

/-- **Moving by lines collapses the range**: it puts both ends on one line, and there the last is
left of the first. -/
structure Range.Collapses (lines : Int) (range : Range) : Prop where
  ontoOne : shiftCoordinate range.start.line lines = shiftCoordinate range.stop.line lines
  columns : range.stop.column < range.start.column

/-- The columns of both ends are the same. -/
def Range.SameColumns (first second : Range) : Prop :=
  first.start.column = second.start.column ∧ first.stop.column = second.stop.column

instance (first second : Range) : Decidable (first.SameColumns second) :=
  inferInstanceAs (Decidable (_ ∧ _))

/-- **A range moved by lines keeps its columns unless it collapses.** -/
theorem Range.shifted_columns_iff {lines : Int} {range : Range}
    (within : range.Within maxCoordinate) (ordered : range.Ordered) :
    (range.shifted lines 0).SameColumns range ↔ ¬ range.Collapses lines := by
  have ⟨⟨_, column⟩, ⟨_, column'⟩⟩ := within
  have upTo : shiftCoordinate range.start.line lines ≤ shiftCoordinate range.stop.line lines := by
    rw [Ordered, Position.le_def] at ordered
    unfold shiftCoordinate
    omega
  unfold shifted Position.shifted
  rw [shiftCoordinate_zero column, shiftCoordinate_zero column', ite_self]
  by_cases collapses : range.Collapses lines
  · have back : ¬ (⟨shiftCoordinate range.start.line lines, range.start.column⟩ : Position) ≤
        ⟨shiftCoordinate range.stop.line lines, range.stop.column⟩ := by
      have := collapses.ontoOne
      have := collapses.columns
      rw [Position.le_def]
      simp only
      omega
    rw [ofEnds, if_neg back]
    refine iff_of_false (fun same => ?_) (not_not_intro collapses)
    exact Nat.ne_of_lt collapses.columns same.1
  · have kept : (⟨shiftCoordinate range.start.line lines, range.start.column⟩ : Position) ≤
        ⟨shiftCoordinate range.stop.line lines, range.stop.column⟩ := by
      rcases Nat.lt_or_eq_of_le upTo with less | same
      · exact Or.inl less
      · exact Or.inr ⟨same, Nat.not_lt.1 fun back => collapses ⟨same, back⟩⟩
    rw [ofEnds_of_le kept]
    exact iff_of_true ⟨rfl, rfl⟩ collapses

namespace Node

variable {root node : Node} {path other : Path} {delta : Delta}

/-! ### Document order -/

/-- **Document order lists what a node lies in, and what comes before it, ahead of the node.** -/
theorem preorder_ordered (root : Node) : root.preorder.Pairwise fun (first second : Path) =>
    first <+: second ∧ first ≠ second ∨ first.Precedes second := by
  induction root using children_induction with
  | step node ih =>
    have numbers : (node.children.zipIdx 0).Pairwise fun first second => first.2 < second.2 := by
      refine List.pairwise_map.1 (?_ : ((node.children.zipIdx 0).map Prod.snd).Pairwise (· < ·))
      rw [List.zipIdx_map_snd]
      exact List.pairwise_lt_range'
    rw [preorder_eq, List.pairwise_cons, siblingPaths, List.pairwise_flatMap]
    refine ⟨fun below member => ?_, fun sibling member => ?_, numbers.imp ?_⟩
    · obtain ⟨number, child, rest, -, rfl, -⟩ := mem_siblingPaths.1 member
      exact Or.inl ⟨List.nil_prefix, List.cons_ne_nil _ _ |>.symm⟩
    · refine List.pairwise_map.2 ((ih _ (List.fst_mem_of_mem_zipIdx member)).imp ?_)
      rintro first second (⟨inside, different⟩ | before)
      · exact Or.inl ⟨List.cons_prefix_cons.2 ⟨rfl, inside⟩,
          fun same => different (List.cons.inj same).2⟩
      · exact Or.inr (before.cons _)
    · intro left right less first isFirst second isSecond
      obtain ⟨inner, -, rfl⟩ := List.mem_map.1 isFirst
      obtain ⟨inner', -, rfl⟩ := List.mem_map.1 isSecond
      exact Or.inr (Path.precedes_of_lt less)

/-- What is listed after a node lies in it or comes after it. -/
theorem inside_or_after (after : [path, other].Sublist root.preorder) :
    path <+: other ∧ path ≠ other ∨ path.Precedes other :=
  List.pairwise_iff_forall_sublist.1 (preorder_ordered root) after

/-! ### Columns -/

/-- A following subtree that does not start on the edit's last line moves by lines alone. -/
theorem column_eq_zero {top : Path} {subtree : Node} {place : Nat}
    (listed : (root.following path)[place]? = some (top, subtree))
    (offLine : ¬ Carry.OnEndLine delta subtree.range) :
    ((Carry.start delta).along delta
      ((root.followingRanges path).take (place + 1))).column = 0 := by
  have itself : subtree.range ∈ (root.followingRanges path).take (place + 1) := by
    refine List.mem_iff_getElem?.2 ⟨place, ?_⟩
    rw [List.getElem?_take_of_lt (Nat.lt_succ_self place), followingRanges, List.getElem?_map,
      listed]
    rfl
  rw [Carry.column_along]
  exact if_neg fun all => offLine (all _ itself)

/-- **The nodes after the located one that keep their columns.** Siblings are in order, and the
following subtree that the node lies in, if any, does not start on the line that the edit ends on.
Then both columns stay as they are unless the shift by lines collapses the range. -/
theorem propagate_columns (siblings : root.SiblingsInOrder)
    (after : [path, other].Sublist root.preorder) (found : root.at? other = some node)
    (within : node.range.Within maxCoordinate)
    (offLine : ∀ top subtree, top.Follows path → root.at? top = some subtree → top <+: other →
      ¬ Carry.OnEndLine delta subtree.range)
    (spread : ¬ node.range.Collapses delta.line) :
    ∃ node', (root.propagate delta path).at? other = some node' ∧
      node'.range.SameColumns node.range := by
  have valid : (root.at? path).isSome := mem_preorder.1 (after.subset List.mem_cons_self)
  obtain ⟨located, isLocated⟩ := Option.isSome_iff_exists.1 valid
  by_cases still : delta.isZero = true
  · rw [propagate_zero still]
    exact ⟨node, found, rfl, rfl⟩
  rw [propagate_of_ne_zero still]
  rcases inside_or_after after with ⟨⟨rest, rfl⟩, below⟩ | later
  · have inside : rest ≠ [] := by
      rintro rfl
      exact below (List.append_nil path).symm
    exact ⟨node, (at?_propagateFrom_inside isLocated inside).trans found, rfl, rfl⟩
  · obtain ⟨place, top, subtree, rest, rfl, follows, listed, isNode⟩ :=
      exists_listed valid found later
    have isTop := ((mem_following_iff valid).1 (List.mem_of_getElem? listed)).2
    have ordered : node.range.Ordered :=
      siblings.ordered_at (List.append_ne_nil_of_left_ne_nil follows.ne_nil rest) found
    have none := column_eq_zero listed (offLine top subtree follows isTop ⟨rest, rfl⟩)
    refine ⟨_, at?_propagateFrom_within valid listed isNode, ?_⟩
    rw [none, follow_range, Range.follow_eq_shifted delta 0 within ordered]
    exact (Range.shifted_columns_iff within ordered).2 spread

/-- The answer for a name and a tuple, the second item of the tuple on a line of its own. -/
def splitTupleOutput : ParseOutput where
  source := some "a;(b,\nc)"
  tokens :=
    [⟨"NAME", ⟨⟨0, 0⟩, ⟨0, 1⟩⟩, "a"⟩, ⟨"OP", ⟨⟨0, 1⟩, ⟨0, 2⟩⟩, ";"⟩,
      ⟨"OP", ⟨⟨0, 2⟩, ⟨0, 3⟩⟩, "("⟩, ⟨"NAME", ⟨⟨0, 3⟩, ⟨0, 4⟩⟩, "b"⟩,
      ⟨"OP", ⟨⟨0, 4⟩, ⟨0, 5⟩⟩, ","⟩, ⟨"NL", ⟨⟨0, 5⟩, ⟨0, 6⟩⟩, "\n"⟩,
      ⟨"NAME", ⟨⟨1, 0⟩, ⟨1, 1⟩⟩, "c"⟩, ⟨"OP", ⟨⟨1, 1⟩, ⟨1, 2⟩⟩, ")"⟩]
  ast := some ⟨"Module", none, [⟨"Name", some ⟨0, 0⟩, []⟩,
    ⟨"Tuple", some ⟨0, 2⟩, [⟨"Name", some ⟨0, 3⟩, []⟩, ⟨"Name", some ⟨1, 0⟩, []⟩]⟩]⟩

/-- The first item of the tuple gets longer. The second item keeps its columns. -/
theorem propagate_columns_splitTuple : ∃ root edit node,
    zipOutput {} splitTupleOutput = .ok (.tree root) ∧
      edit = EditDescriptor.replace "a;(b,\nc)" ⟨⟨0, 3⟩, ⟨0, 4⟩⟩ "long" ∧
      root.locate edit.beforeRange = [1, 0] ∧ root.SiblingsInOrder ∧
      [[1, 0], [1, 1]].Sublist root.preorder ∧ root.at? [1, 1] = some node ∧
      ∃ node', (root.propagate edit.delta [1, 0]).at? [1, 1] = some node' ∧
        node'.range.SameColumns node.range := by
  have inOrder : Token.InOrder (cellTokens {} splitTupleOutput.source splitTupleOutput.tokens) :=
    ⟨by decide, by decide⟩
  obtain ⟨edit, made⟩ : ∃ edit, edit =
      EditDescriptor.replace "a;(b,\nc)" ⟨⟨0, 3⟩, ⟨0, 4⟩⟩ "long" := ⟨_, rfl⟩
  obtain ⟨root, node, zipped, located, after, found, within, offLine, forward⟩ : ∃ root node,
      zipOutput {} splitTupleOutput = .ok (.tree root) ∧ root.locate edit.beforeRange = [1, 0] ∧
      [[1, 0], [1, 1]].Sublist root.preorder ∧ root.at? [1, 1] = some node ∧
      node.range.Within maxCoordinate ∧ ¬ Carry.OnEndLine edit.delta node.range ∧
      node.range.start.column ≤ node.range.stop.column := by
    rw [made]
    refine ⟨_, _, rfl, by decide +kernel, ?_, rfl, ?_, ?_, ?_⟩ <;> decide +kernel
  have siblings := (TreeOver.ofOutput zipped).siblingsInOrder inOrder
  have follows : Path.Follows [1, 1] [1, 0] :=
    ⟨[1], 0, 1, Nat.zero_lt_one, List.prefix_rfl, rfl⟩
  have kept : ∀ top subtree, top.Follows [1, 0] → root.at? top = some subtree → top <+: [1, 1] →
      ¬ Carry.OnEndLine edit.delta subtree.range := by
    intro top subtree follows' isTop inside
    obtain rfl := follows'.unique follows inside List.prefix_rfl
    rw [found] at isTop
    cases isTop
    exact offLine
  have spread : ¬ node.range.Collapses edit.delta.line :=
    fun collapses => Nat.not_lt.2 forward collapses.columns
  exact ⟨root, edit, node, zipped, made, located, siblings, after, found,
    propagate_columns siblings after found within kept spread⟩

/-- The answer for a name and a string that goes over the last line that a position can have. -/
def lastLineOutput : ParseOutput where
  source := none
  tokens :=
    [⟨"NAME", ⟨⟨0, 0⟩, ⟨0, 1⟩⟩, "a"⟩,
      ⟨"STRING", ⟨⟨maxCoordinate - 1, 5⟩, ⟨maxCoordinate, 3⟩⟩, "b"⟩]
  ast := some ⟨"Module", none,
    [⟨"Name", some ⟨0, 0⟩, []⟩, ⟨"Constant", some ⟨maxCoordinate - 1, 5⟩, []⟩]⟩

/-- The tree of a cell, with an edit located in a node that contains it, and a node that comes after
this one and starts on another line than the edit ends on: both its columns change. -/
def MovesColumns (output : ParseOutput) (edit : EditDescriptor) (path other : Path) : Prop :=
  ∃ root node node', zipOutput {} output = .ok (.tree root) ∧ root.SiblingsInOrder ∧ root.Nested ∧
    root.locate edit.beforeRange = path ∧
    (root.nodeAt edit.beforeRange).range.containsRange edit.beforeRange = true ∧
    [path, other].Sublist root.preorder ∧ root.at? other = some node ∧
    (root.propagate edit.delta path).at? other = some node' ∧
    node'.range.start.line ≠ edit.delta.endLine ∧
    node'.range.start.column ≠ node.range.start.column ∧
    node'.range.stop.column ≠ node.range.stop.column

/-- **Columns move below the line that the edit ends on**: those of an item on the second line of a
tuple, since the tuple starts on the line of the edit, and those of a string that is moved to the
last line. -/
theorem propagate_moves_columns :
    MovesColumns splitTupleOutput (.replace "a;(b,\nc)" ⟨⟨0, 0⟩, ⟨0, 1⟩⟩ "xyz") [0] [1, 1] ∧
      MovesColumns lastLineOutput (.replace "a" ⟨⟨0, 0⟩, ⟨0, 1⟩⟩ "\n") [0] [1] := by
  have ofTokens {output : ParseOutput} {edit : EditDescriptor} {path other : Path} {root : Node}
      (inOrder : Token.InOrder (cellTokens {} output.source output.tokens))
      (zipped : zipOutput {} output = .ok (.tree root))
      (rest : root.locate edit.beforeRange = path ∧
        (root.nodeAt edit.beforeRange).range.containsRange edit.beforeRange = true ∧
        [path, other].Sublist root.preorder ∧
        ∃ node ∈ root.at? other, ∃ node' ∈ (root.propagate edit.delta path).at? other,
          node'.range.start.line ≠ edit.delta.endLine ∧
          node'.range.start.column ≠ node.range.start.column ∧
          node'.range.stop.column ≠ node.range.stop.column) :
      MovesColumns output edit path other := by
    obtain ⟨located, contains, after, node, found, node', found', columns⟩ := rest
    have covers := TreeOver.ofOutput zipped
    exact ⟨root, node, node', zipped, covers.siblingsInOrder inOrder, covers.nested inOrder,
      located, contains, after, found, found', columns⟩
  constructor
  · exact ofTokens ⟨by decide, by decide⟩ rfl (by decide +kernel)
  · exact ofTokens ⟨by decide, by decide⟩ rfl (by decide +kernel)

end Node

end CellSyntax
