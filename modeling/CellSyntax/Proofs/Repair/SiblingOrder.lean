/-
**Siblings stay in order when a tree is repaired after an edit in a leaf.**

The rules of a correction look at one range at a time, and they keep siblings in order as long as
two things do not happen: that the end of a node around the edit is moved back past its start, and
that columns move back on the line that the removed text ends on while something that touches them
there moves otherwise. An edit of the first kind takes out line breaks. One of the second kind
changes the number of lines and ends on a shorter line than before, or it takes characters out in
front of a node that goes on over a line break with a sibling after it.

Next to the order of siblings the order of lines is kept, which is what tells the column shift of a
following subtree by its own start. Nodes need not cover their children any more.

* `Node.KeepsOrder`: the two things do not happen;
* `Node.Orderly.repair`: siblings and lines stay in order.
-/

import CellSyntax.Proofs.Locate.Search
import CellSyntax.Proofs.Propagate.Corrected
import CellSyntax.Repair

namespace CellSyntax.Node

variable {root located : Node} {path : Path} {edit : EditDescriptor} {bound : Nat}
  {text replacement : String} {range : Range}

/-- **The edit lies in a leaf**: the narrowest node around it is one and contains it. -/
structure LeafEdit (root : Node) (edit : EditDescriptor) : Prop where
  isLeaf : (root.nodeAt edit.beforeRange).isLeaf = true
  contains : (root.nodeAt edit.beforeRange).range.containsRange edit.beforeRange = true

instance (root : Node) (edit : EditDescriptor) : Decidable (root.LeafEdit edit) :=
  decidable_of_iff ((root.nodeAt edit.beforeRange).isLeaf = true ∧
      (root.nodeAt edit.beforeRange).range.containsRange edit.beforeRange = true)
    ⟨fun both => ⟨both.1, both.2⟩, fun leaf => ⟨leaf.isLeaf, leaf.contains⟩⟩

/-- **What goes on over a line break has no later sibling that starts on its last line.** -/
def EndsLinesAlone (root : Node) : Prop :=
  ∀ path node, root.at? path = some node → node.children.Pairwise fun first second =>
    first.range.stop.line = second.range.start.line → first.range.isSingleLine = true

instance (root : Node) : Decidable root.EndsLinesAlone :=
  decidable_of_iff _ (forall_at?_iff (fun node => node.children.Pairwise fun first second =>
    first.range.stop.line = second.range.start.line → first.range.isSingleLine = true)).symm

theorem EndsLinesAlone.at_siblings {above : Path} {i j : Nat} {first second : Node}
    (alone : root.EndsLinesAlone) (less : i < j) (isFirst : root.at? (above ++ [i]) = some first)
    (isSecond : root.at? (above ++ [j]) = some second)
    (meet : first.range.stop.line = second.range.start.line) :
    first.range.isSingleLine = true := by
  obtain ⟨parent, isParent, isChild⟩ := exists_parent isFirst
  rw [at?_concat isParent] at isSecond
  obtain ⟨inside, rfl⟩ := List.getElem?_eq_some_iff.1 isChild
  obtain ⟨inside', rfl⟩ := List.getElem?_eq_some_iff.1 isSecond
  exact List.pairwise_iff_getElem.1 (alone above parent isParent) i j inside inside' less meet

/-- **The edit moves no end back past a start.** -/
structure KeepsOrder (root : Node) (edit : EditDescriptor) : Prop where
  /-- No node around the edit has its end moved back past its start. -/
  around : ∀ path node, path ≠ [] → path <+: root.locate edit.beforeRange →
    root.at? path = some node → node.range.start ≤ edit.endAfter node.range.stop
  /-- If columns move back in a following subtree, no line moves, and in the subtree nothing starts
  on the last line of an earlier sibling that goes on over a line break. -/
  following : edit.deltaColumn < 0 → ∀ top subtree, top.Follows (root.locate edit.beforeRange) →
    root.at? top = some subtree → subtree.range.start.line = edit.stop.line →
      edit.deltaLine = 0 ∧ subtree.EndsLinesAlone

theorem keepsOrder_iff : root.KeepsOrder edit ↔
    (∀ path ∈ (root.locate edit.beforeRange).inits, ∀ node ∈ root.at? path, path ≠ [] →
      node.range.start ≤ edit.endAfter node.range.stop) ∧
    (edit.deltaColumn < 0 → ∀ found ∈ root.following (root.locate edit.beforeRange),
      found.2.range.start.line = edit.stop.line →
        edit.deltaLine = 0 ∧ found.2.EndsLinesAlone) := by
  have valid : (root.at? (root.locate edit.beforeRange)).isSome := by
    rw [at?_locate]
    rfl
  constructor
  · intro keeps
    refine ⟨fun path onWay node found below => ?_, fun back found listed onLine => ?_⟩
    · exact keeps.around path node below ((List.mem_inits _ _).1 onWay) found
    · obtain ⟨follows, isTop⟩ := (mem_following_iff valid).1 listed
      exact keeps.following back found.1 found.2 follows isTop onLine
  · rintro ⟨around, following⟩
    refine ⟨fun path node below onWay found => ?_, fun back top subtree follows isTop onLine => ?_⟩
    · exact around path ((List.mem_inits _ _).2 onWay) node found below
    · exact following back (top, subtree) ((mem_following_iff valid).2 ⟨follows, isTop⟩) onLine

instance (root : Node) (edit : EditDescriptor) : Decidable (root.KeepsOrder edit) :=
  decidable_of_iff _ keepsOrder_iff.symm

/-- **Siblings and lines are in order**, and no coordinate is larger than `bound`. -/
structure Orderly (root : Node) (bound : Nat) : Prop where
  siblings : root.SiblingsInOrder
  lines : root.LinesInOrder
  within : ∀ path node, root.at? path = some node → node.range.Within bound

/-! ### What a correction does to two nodes -/

section Correction

variable {before removed inserted : List Char} {first second : Path} {old old' node node' : Node}
  (splices : edit.Splices before removed inserted) (room : edit.HasRoom bound)
  (orderly : root.Orderly bound) (found : root.at? path = some located)
  (contains : ∀ above around, above ≠ [] → above <+: path → root.at? above = some around →
    around.range.start ≤ edit.start ∧ edit.stop ≤ around.range.stop)
  (around : ∀ above node, above ≠ [] → above <+: path → root.at? above = some node →
    node.range.start ≤ edit.endAfter node.range.stop)

section Lines

include around in
/-- The range of a node around the edit has its end moved and keeps its start. -/
theorem adjustEnd_around (below : second ≠ []) (inside : second <+: path)
    (isOld : root.at? second = some old) :
    old.range.adjustEnd edit.delta = ⟨old.range.start, edit.endAfter old.range.stop⟩ :=
  Range.ofEnds_of_le (around second old below inside isOld)

include around in
/-- A node that is not after the leaf keeps its start. -/
theorem Corrected.start_eq (below : second ≠ []) (notAfter : ¬ path.Precedes second)
    (isOld : root.at? second = some old)
    (rule : Corrected root edit path second old.range node.range) :
    node.range.start = old.range.start := by
  rcases rule.not_precedes notAfter with ⟨-, kept⟩ | ⟨inside, ended⟩
  · rw [kept]
  · rw [ended, adjustEnd_around around below inside isOld]

include orderly found contains

/-- What comes after the leaf starts on the line that the removed text ends on or further down. -/
theorem stop_line_le (after : path.Precedes second) (isOld : root.at? second = some old) :
    edit.stop.line ≤ old.range.start.line := by
  have ends := (contains path located after.ne_nil.1 List.prefix_rfl found).2
  have later := orderly.lines path second located old after found isOld
  rw [Position.le_def] at ends
  omega

end Lines

include splices room orderly

/-- The ends of a range in a following subtree move with their lines. -/
theorem lines_shifted {columns : Int} (fits : bound + columns ≤ maxCoordinate)
    (below : first ≠ []) (isOld : root.at? first = some old)
    (after : edit.stop.line ≤ old.range.start.line) :
    (old.range.shifted edit.deltaLine columns).start.line =
        (old.range.start.line + edit.deltaLine).toNat ∧
      (old.range.shifted edit.deltaLine columns).stop.line =
        (old.range.stop.line + edit.deltaLine).toNat := by
  have small := orderly.within first old isOld
  have ⟨⟨line, _⟩, ⟨line', _⟩⟩ := small
  have lines := room.lines
  rw [Range.shifted_eq_ends splices room fits small (orderly.siblings.ordered_at below isOld) after]
  exact ⟨shiftCoordinate_eq (by omega), shiftCoordinate_eq (by omega)⟩

include found contains around

/-- **The lines of two nodes stay in order.** -/
theorem lines_corrected (order : first.Precedes second) (isOld : root.at? first = some old)
    (isOld' : root.at? second = some old')
    (rule : Corrected root edit path first old.range node.range)
    (rule' : Corrected root edit path second old'.range node'.range) :
    node.range.stop.line ≤ node'.range.start.line := by
  have lines := orderly.lines first second old old' order isOld isOld'
  by_cases after : path.Precedes second
  · obtain ⟨top, subtree, -, -, -, moved⟩ := rule'.of_precedes after
    have below := stop_line_le orderly found contains after isOld'
    rw [moved, (lines_shifted splices room orderly (room.columnsAt _) order.ne_nil.2 isOld'
      below).1]
    by_cases after' : path.Precedes first
    · obtain ⟨top', subtree', -, -, -, moved'⟩ := rule.of_precedes after'
      have below' := stop_line_le orderly found contains after' isOld
      rw [moved', (lines_shifted splices room orderly (room.columnsAt _) order.ne_nil.1 isOld
        below').2]
      omega
    · rcases rule.not_precedes after' with ⟨before, kept⟩ | ⟨inside, ended⟩
      · -- What is before the leaf ends on the line where the edit starts or further up.
        have upTo := orderly.lines first path old located before isOld found
        have starts := (contains path located before.ne_nil.2 List.prefix_rfl found).1
        have ends := splices.endLine_eq_add
        have first_le := splices.start_line_le
        rw [Position.le_def] at starts
        rw [kept]
        omega
      · have stops := (contains first old order.ne_nil.1 inside isOld).2
        rw [ended, adjustEnd_around around order.ne_nil.1 inside isOld]
        exact EditDescriptor.line_endAfter_le splices room (orderly.within first old isOld).stop
          (orderly.within second old' isOld').start stops lines
  · -- Then the first one is before the leaf, and the start of the second stays.
    have notAfter : ¬ path.Precedes first := fun later => after (later.trans order)
    rcases rule.not_precedes notAfter with ⟨-, kept⟩ | ⟨inside, -⟩
    · rw [rule'.start_eq around order.ne_nil.2 after isOld', kept]
      exact lines
    · exact absurd (order.extend inside List.prefix_rfl) after

section Siblings

variable {above : Path} {i j : Nat}
  (keeps : edit.deltaColumn < 0 → ∀ top subtree, top.Follows path → root.at? top = some subtree →
    subtree.range.start.line = edit.stop.line → edit.deltaLine = 0 ∧ subtree.EndsLinesAlone)
include keeps

omit around in
/-- The end of a node around the edit stays in front of its later siblings. -/
theorem endAfter_le_sibling (less : i < j) (inside : above ++ [i] <+: path)
    (isOld : root.at? (above ++ [i]) = some old) (isOld' : root.at? (above ++ [j]) = some old')
    (rule' : Corrected root edit path (above ++ [j]) old'.range node'.range) :
    edit.endAfter old.range.stop ≤ node'.range.start := by
  have order := Path.precedes_siblings above less
  have follows := Path.follows_sibling less inside
  have small' := orderly.within _ _ isOld'
  have below := stop_line_le orderly found contains follows.precedes isOld'
  rw [rule'.of_follows follows isOld', Range.shifted_eq_ends splices room (room.columnsAt _) small'
    (orderly.siblings.ordered_at order.ne_nil.2 isOld') below]
  exact EditDescriptor.endAfter_le splices room (orderly.within _ _ isOld).stop small'.start
    (contains _ _ order.ne_nil.1 inside isOld).2 (orderly.siblings.apart_at less isOld isOld')
    fun onLine back => (keeps back _ _ follows isOld' onLine).1

omit around keeps in
/-- Siblings that move with following subtrees keep apart, if on a common line the second does not
move back further than the end of the first. -/
theorem shifted_siblings {columns columns' : Int} (less : i < j)
    (after : path.Precedes (above ++ [i])) (isOld : root.at? (above ++ [i]) = some old)
    (isOld' : root.at? (above ++ [j]) = some old') (fits : bound + columns ≤ maxCoordinate)
    (fits' : bound + columns' ≤ maxCoordinate)
    (together : old.range.stop.line = old'.range.start.line →
      (if old.range.isSingleLine then columns else 0) ≤ columns') :
    (old.range.shifted edit.deltaLine columns).stop ≤
      (old'.range.shifted edit.deltaLine columns').start := by
  have order := Path.precedes_siblings above less
  have ordered := orderly.siblings.ordered_at order.ne_nil.1 isOld
  have ordered' := orderly.siblings.ordered_at order.ne_nil.2 isOld'
  exact Range.shifted_apart splices room fits fits' (orderly.within _ _ isOld)
    (orderly.within _ _ isOld') ordered ordered' (stop_line_le orderly found contains after isOld)
    (orderly.siblings.apart_at less isOld isOld') together

omit splices room orderly found contains around in
/-- In one following subtree the second of two siblings does not move back from the first. -/
theorem columnsAt_inside {top : Path} {subtree : Node} (follows : top.Follows path)
    (isTop : root.at? top = some subtree) (inside : top <+: above) (less : i < j)
    (isOld : root.at? (above ++ [i]) = some old) (isOld' : root.at? (above ++ [j]) = some old')
    (meet : old.range.stop.line = old'.range.start.line) :
    (if old.range.isSingleLine then edit.columnsAt subtree.range.start.line else 0) ≤
      edit.columnsAt subtree.range.start.line := by
  split
  · exact Int.le_refl _
  · rename_i several
    obtain ⟨rest, rfl⟩ := inside
    rw [List.append_assoc, at?_append_of_at? isTop] at isOld isOld'
    unfold EditDescriptor.columnsAt
    split
    · rename_i onLine
      by_contra back
      have alone := (keeps (by omega) top subtree follows isTop onLine).2
      exact several (alone.at_siblings less isOld isOld' meet)
    · exact Int.le_refl _

omit around in
/-- **Two siblings after the leaf stay in order.** -/
theorem siblings_after (less : i < j) (after : path.Precedes (above ++ [i]))
    (isOld : root.at? (above ++ [i]) = some old) (isOld' : root.at? (above ++ [j]) = some old')
    (rule : Corrected root edit path (above ++ [i]) old.range node.range)
    (rule' : Corrected root edit path (above ++ [j]) old'.range node'.range) :
    node.range.stop ≤ node'.range.start := by
  have order := Path.precedes_siblings above less
  have below := stop_line_le orderly found contains after isOld
  have ordered := orderly.siblings.ordered_at order.ne_nil.1 isOld
  obtain ⟨top, subtree, follows, isTop, inside, moved⟩ := rule.of_precedes after
  rcases List.prefix_concat_iff.1 inside with rfl | around
  · -- Both are following subtrees, each of which moves by its own start.
    rw [rule.of_follows follows isOld, rule'.of_follows (follows.sibling less) isOld']
    exact shifted_siblings splices room orderly found contains less after isOld isOld'
      (room.columnsAt _) (room.columnsAt _) (EditDescriptor.columnsAt_meet ordered below)
  · -- Both are in one following subtree, so both move by the start of that.
    obtain ⟨top', subtree', follows', isTop', inside', moved'⟩ :=
      rule'.of_precedes (after.trans order)
    obtain rfl := follows.unique follows' (around.trans (List.prefix_append above [j])) inside'
    rw [isTop] at isTop'
    cases isTop'
    rw [moved, moved']
    exact shifted_siblings splices room orderly found contains less after isOld isOld'
      (room.columnsAt _) (room.columnsAt _)
      (columnsAt_inside keeps follows isTop around less isOld isOld')

/-- **Two siblings stay in order.** -/
theorem siblings_corrected (less : i < j)
    (isOld : root.at? (above ++ [i]) = some old) (isOld' : root.at? (above ++ [j]) = some old')
    (rule : Corrected root edit path (above ++ [i]) old.range node.range)
    (rule' : Corrected root edit path (above ++ [j]) old'.range node'.range) :
    node.range.stop ≤ node'.range.start := by
  have order := Path.precedes_siblings above less
  by_cases after : path.Precedes (above ++ [i])
  · exact siblings_after splices room orderly found contains keeps less after isOld isOld' rule
      rule'
  · rcases rule.not_precedes after with ⟨before, kept⟩ | ⟨inside, ended⟩
    · by_cases after' : path.Precedes (above ++ [j])
      · -- The end of a sibling around the edit lies between the two.
        obtain ⟨k, more, less', inside⟩ := Path.exists_between before after'
        obtain ⟨rest, whole⟩ := inside
        obtain ⟨middle, isMiddle, -⟩ := at?_append_eq_some_iff.1 (whole ▸ found)
        have inside : above ++ [k] <+: path := ⟨rest, whole⟩
        have nonempty := (Path.precedes_siblings above more).ne_nil.2
        rw [kept]
        refine Position.le_trans (orderly.siblings.apart_at more isOld isMiddle) ?_
        refine Position.le_trans (around _ _ nonempty inside isMiddle) ?_
        exact endAfter_le_sibling splices room orderly found contains keeps less' inside isMiddle
          isOld' rule'
      · rw [kept, rule'.start_eq around order.ne_nil.2 after' isOld']
        exact orderly.siblings.apart_at less isOld isOld'
    · rw [ended, adjustEnd_around around order.ne_nil.1 inside isOld]
      exact endAfter_le_sibling splices room orderly found contains keeps less inside isOld isOld'
        rule'

/-- **The corrected tree is in order.** -/
theorem orderly_corrected {more : Nat} (isLeaf : located.isLeaf = true)
    (ends : edit.stop.line ≤ located.range.stop.line) (few : edit.deltaLine ≤ more)
    (few' : edit.deltaColumn ≤ more) :
    (root.propagateFrom edit.delta path).1.Orderly (bound + more) := by
  have corrected {other : Path} {node : Node}
      (isNode : (root.propagateFrom edit.delta path).1.at? other = some node) :=
    exists_corrected splices room orderly.siblings orderly.lines orderly.within found ends isLeaf
      isNode
  refine ⟨siblingsInOrder_of_apart (fun other node below isNode => ?_) ?_, ?_, ?_⟩
  · obtain ⟨old, isOld, rule⟩ := corrected isNode
    exact rule.ordered (orderly.siblings.ordered_at below isOld)
  · intro above i j first second less isFirst isSecond
    obtain ⟨old, isOld, rule⟩ := corrected isFirst
    obtain ⟨old', isOld', rule'⟩ := corrected isSecond
    exact siblings_corrected splices room orderly found contains around keeps less isOld isOld' rule
      rule'
  · intro first second node node' order isFirst isSecond
    obtain ⟨old, isOld, rule⟩ := corrected isFirst
    obtain ⟨old', isOld', rule'⟩ := corrected isSecond
    exact lines_corrected splices room orderly found contains around order isOld isOld' rule rule'
  · intro other node isNode
    obtain ⟨old, isOld, rule⟩ := corrected isNode
    exact rule.within (orderly.within other old isOld) few few'

end Siblings

end Correction

/-! ### The whole tree -/

namespace Orderly

theorem mono (orderly : root.Orderly bound) (more : Nat) : root.Orderly (bound + more) where
  siblings := orderly.siblings
  lines := orderly.lines
  within path node found := (orderly.within path node found).mono more

/-- **Siblings and lines stay in order** when a tree is repaired after an edit in a leaf, and no
coordinate grows by more than the number of inserted characters. -/
theorem repair (orderly : root.Orderly bound) (made : edit = .replace text range replacement)
    (isIn : range.IsIn text.toList) (leaf : root.LeafEdit edit) (keeps : root.KeepsOrder edit)
    (room : bound + replacement.length ≤ maxCoordinate) (newText : String) :
    (root.repair edit newText).1.Orderly (bound + replacement.length) := by
  obtain ⟨before, removed, after, splices, -, -⟩ := EditDescriptor.Splices.exists_parts made isIn
  show (root.propagate edit.delta (root.locate edit.beforeRange)).Orderly _
  by_cases still : edit.delta.isZero = true
  · rw [propagate_zero still]
    exact orderly.mono _
  · have moved : root.propagate edit.delta (root.locate edit.beforeRange) =
        (root.propagateFrom edit.delta (root.locate edit.beforeRange)).1 := if_neg still
    have size : replacement.toList.length = replacement.length := String.length_toList
    have hasRoom : edit.HasRoom bound := splices.hasRoom (by rw [size]; exact room)
    have ⟨few, few'⟩ := splices.delta_le
    rw [size] at few few'
    have ends : edit.beforeRange = ⟨edit.start, edit.stop⟩ :=
      Range.ofEnds_of_le splices.start_le_stop
    have contains : ∀ above node, above ≠ [] → above <+: root.locate edit.beforeRange →
        root.at? above = some node →
          node.range.start ≤ edit.start ∧ edit.stop ≤ node.range.stop := by
      intro above node below onWay isNode
      have inside := (root.reaches_nodeAt edit.beforeRange).contains onWay below isNode
      rw [ends] at inside
      exact Range.containsRange_iff.1 inside
    have stops : edit.stop.line ≤ (root.nodeAt edit.beforeRange).range.stop.line := by
      have upTo := (Range.containsRange_iff.1 leaf.contains).2
      rw [show edit.beforeRange.stop = edit.stop from congrArg Range.stop ends,
        Position.le_def] at upTo
      omega
    rw [moved]
    exact orderly_corrected splices hasRoom orderly (root.at?_locate edit.beforeRange) contains
      keeps.around keeps.following leaf.isLeaf stops few few'

end Orderly

end CellSyntax.Node
