/-
**Keeping ranges in step with an edit, in an arena.**

Over the table of nodes a correction is a loop. The ends of the located node and of its ancestors
are corrected first. Then the loop goes from one following subtree to the next by climbing, moves
every node that the walk over the subtree visits, and carries on the line and the column shift. It
stops early once nothing is left to move.

* `Arena.propagate_zero`: an edit that moves nothing changes nothing.
-/

import CellSyntax.Propagate
import CellSyntax.Tree.Arena

namespace CellSyntax.Arena

/-- The range of a node. -/
def range (arena : Arena) (id : Nat) : Range :=
  (arena.nodes[id]?.map ArenaNode.range).getD (.point .origin)

/-- The arena with the range of one node changed. -/
def changeRange (change : Range → Range) (arena : Arena) (id : Nat) : Arena :=
  { arena with nodes := arena.nodes.modify id fun row => { row with range := change row.range } }

/-- The arena with the ranges of some nodes changed, one node after the other. -/
def changeRanges (change : Range → Range) (arena : Arena) (ids : List Nat) : Arena :=
  ids.foldl (changeRange change) arena

/-- The arena with all nodes of a subtree moved by the same amount. -/
def shiftSubtree (lines columns : Int) (arena : Arena) (id : Nat) : Arena :=
  arena.changeRanges (Range.shifted lines columns) (arena.descendants id)

/-- The loop over following subtrees: `next` is where the climb to the next one led, and `carry` is
what was carried on past the last one. -/
def shiftFollowing (delta : Delta) (arena : Arena) (carry : Carry) (next : Climb) :
    (steps : Nat) → Arena
  | 0 => arena
  | steps + 1 =>
    match next with
    | .found sibling =>
      let carry := carry.next delta (arena.range sibling)
      if delta.line = 0 ∧ carry.column = 0 then arena
      else
        let arena := arena.shiftSubtree delta.line carry.column sibling
        shiftFollowing delta arena carry (arena.rightSibling sibling) steps
    | .ended | .unfinished => arena

/-- The arena corrected after an edit inside a node, and the corrected range of this node. -/
def propagate (delta : Delta) (arena : Arena) (id : Nat) : Arena × Range :=
  if delta.isZero then (arena, arena.range id)
  else
    let adjusted := arena.changeRanges (Range.adjustEnd delta) (id :: arena.ancestors id)
    (adjusted.shiftFollowing delta ⟨delta.endLine, delta.column⟩ (adjusted.rightSibling id)
      adjusted.nodes.length, adjusted.range id)

theorem propagate_zero {delta : Delta} (zero : delta.isZero = true) (arena : Arena) (id : Nat) :
    arena.propagate delta id = (arena, arena.range id) :=
  if_pos zero

end CellSyntax.Arena
