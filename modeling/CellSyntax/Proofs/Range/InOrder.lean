/-
**Ranges that follow one another.**

In a list of ranges that are in order, each ends at its start or later, and at the start of the next
one or earlier. Order between neighbours is order throughout.

* `Range.InOrder.apart`: no range ends after any later one starts;
* `Range.inOrder_of_apart`: ranges that are apart throughout are in order.
-/

import CellSyntax.Range
import Mathlib.Data.List.Chain

namespace CellSyntax.Range

/-- **Ranges in order**: each ends at its start or later, and at the start of the next one or
earlier. -/
structure InOrder (ranges : List Range) : Prop where
  ordered : ∀ range ∈ ranges, range.Ordered
  following : ranges.IsChain fun first second => first.stop ≤ second.start

theorem InOrder.apart {ranges : List Range} (inOrder : InOrder ranges) :
    ranges.Pairwise fun first second => first.stop ≤ second.start := by
  obtain ⟨ordered, following⟩ := inOrder
  induction ranges with
  | nil => exact .nil
  | cons first rest ih =>
    rcases rest with _ | ⟨second, others⟩
    · exact List.pairwise_singleton _ _
    · obtain ⟨next, following⟩ := List.isChain_cons_cons.1 following
      have later := ih (fun range member => ordered range (List.mem_cons_of_mem _ member)) following
      refine List.pairwise_cons.2 ⟨fun range member => ?_, later⟩
      rcases List.mem_cons.1 member with rfl | inside
      · exact next
      · exact Position.le_trans next (Position.le_trans
          (ordered second (List.mem_cons_of_mem _ List.mem_cons_self))
          ((List.pairwise_cons.1 later).1 range inside))

theorem inOrder_of_apart {ranges : List Range} (ordered : ∀ range ∈ ranges, range.Ordered)
    (apart : ranges.Pairwise fun first second => first.stop ≤ second.start) : InOrder ranges :=
  ⟨ordered, apart.isChain⟩

/-- A part of ranges in order is in order. -/
theorem InOrder.sublist {ranges part : List Range} (inOrder : InOrder ranges)
    (within : part.Sublist ranges) : InOrder part :=
  inOrder_of_apart (fun range member => inOrder.ordered range (within.subset member))
    (inOrder.apart.sublist within)

end CellSyntax.Range
