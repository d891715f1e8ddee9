/-
**Spans of a cell's text and how two of them lie.**

A range is a pair of positions. `Range.ofEnds` puts its ends in order; a range that was read from
outside may still be inverted, so order is a property of a range and not of the type.

* `Range.ofEnds_ordered`: a range built from two ends is ordered;
* `Range.ofEnds_of_le`: ends that are in order are kept;
* `Range.relation_eq_contains_iff`: a node contains an edit exactly when it covers both of its
  ends.
-/

import CellSyntax.Position

namespace CellSyntax

/-- A span of text from `start` to `stop`. -/
structure Range where
  start : Position
  stop : Position
deriving DecidableEq, Repr, Inhabited

/-- Where an edit lies, seen from a node. -/
inductive RangeRelation where
  /-- The node covers the whole edit, touching ends included. -/
  | contains
  /-- The edit starts before the node. -/
  | before
  /-- The edit ends after the node. -/
  | after
  /-- The edit starts before the node and ends after it. -/
  | spans
deriving DecidableEq, Repr

namespace Range

/-- A range is ordered when it does not end before it starts. -/
def Ordered (range : Range) : Prop := range.start ≤ range.stop

instance (range : Range) : Decidable range.Ordered := inferInstanceAs (Decidable (_ ≤ _))

/-- The range between two positions, given in either order. -/
def ofEnds (first second : Position) : Range :=
  if first ≤ second then ⟨first, second⟩ else ⟨second, first⟩

theorem ofEnds_of_le {first second : Position} (ordered : first ≤ second) :
    ofEnds first second = ⟨first, second⟩ :=
  if_pos ordered

theorem ofEnds_ordered (first second : Position) : (ofEnds first second).Ordered := by
  unfold ofEnds Ordered
  split
  · assumption
  · exact (Position.le_total first second).resolve_left ‹_›

/-- The empty range at a position. -/
def point (position : Position) : Range := ⟨position, position⟩

/-- Whether both ends are on one line. -/
def isSingleLine (range : Range) : Bool := range.start.line == range.stop.line

/-- Where `edit` lies, seen from `node`. -/
def relation (node edit : Range) : RangeRelation :=
  match decide (edit.start < node.start), decide (node.stop < edit.stop) with
  | true, true => .spans
  | true, false => .before
  | false, true => .after
  | false, false => .contains

/-- Whether `node` covers the whole of `edit`. -/
def containsRange (node edit : Range) : Bool := relation node edit == .contains

theorem relation_eq_contains_iff (node edit : Range) :
    relation node edit = .contains ↔ node.start ≤ edit.start ∧ edit.stop ≤ node.stop := by
  have left := @Position.lt_iff_not_le edit.start node.start
  have right := @Position.lt_iff_not_le node.stop edit.stop
  unfold relation
  by_cases starts : edit.start < node.start <;> by_cases stops : node.stop < edit.stop <;>
    simp_all

theorem containsRange_iff {node edit : Range} :
    node.containsRange edit = true ↔ node.start ≤ edit.start ∧ edit.stop ≤ node.stop := by
  rw [containsRange, beq_iff_eq, relation_eq_contains_iff]

/-- The written form, `line:column-line:column`. -/
def render (range : Range) : String := range.start.render ++ "-" ++ range.stop.render

end Range

end CellSyntax
