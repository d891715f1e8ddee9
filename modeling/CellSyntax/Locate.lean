/-
**The narrowest node around an edit.**

Sibling nodes do not overlap and are in source order, so a search by halving finds the one that
contains an edit. Going on from there into its children leads to the narrowest node.

* `bisect_nil`: among no siblings nothing is found;
* `bisect_lt`: what is found is one of the siblings.
-/

import CellSyntax.Tree.Path

namespace CellSyntax

/-- The number of a range that contains `edit`, looked for by halving the list at most `steps`
times; a range that the edit spans ends the search. -/
def bisect (edit : Range) : (steps : Nat) → List Range → Option Nat
  | 0, _ => none
  | steps + 1, ranges =>
    let middle := ranges.length / 2
    match ranges.drop middle with
    | [] => none
    | range :: later =>
      match range.relation edit with
      | .contains => some middle
      | .spans => none
      | .before => bisect edit steps (ranges.take middle)
      | .after => (bisect edit steps later).map fun found => middle + 1 + found

theorem bisect_nil (edit : Range) (steps : Nat) : bisect edit steps [] = none := by
  cases steps <;> rfl

theorem bisect_lt {edit : Range} {steps : Nat} {ranges : List Range} {found : Nat}
    (hit : bisect edit steps ranges = some found) : found < ranges.length := by
  induction steps generalizing ranges found with
  | zero => cases hit
  | succ steps ih =>
    simp only [bisect] at hit
    split at hit
    · cases hit
    · rename_i range later dropped
      have size : later.length + 1 = ranges.length - ranges.length / 2 := by
        rw [← List.length_drop, dropped, List.length_cons]
      split at hit
      · cases hit
        omega
      · cases hit
      · have := ih hit
        rw [List.length_take] at this
        omega
      · obtain ⟨inner, inside, rfl⟩ := Option.map_eq_some_iff.1 hit
        have := ih inside
        omega

namespace Element

/-- The ranges of the child nodes of a content, in order. -/
def childRanges (content : List Element) : List Range :=
  (content.filterMap node?).map Node.range

mutual

/-- The path from a node that contains `edit` to the narrowest one that does. -/
def narrow (edit : Range) : Element → Path
  | .token _ => []
  | .node _ _ content =>
    match bisect edit (childRanges content).length (childRanges content) with
    | none => []
    | some index => index :: narrowChild edit index content

/-- The path from the child node with number `index` of a content to the narrowest node. -/
def narrowChild (edit : Range) (index : Nat) : List Element → Path
  | [] => []
  | element :: rest =>
    if index < element.width then element.narrow edit
    else narrowChild edit (index - element.width) rest

end

end Element

namespace Node

/-- The path of the narrowest node that contains `edit`; the root if no child of it does. -/
def locate (root : Node) (edit : Range) : Path := root.element.narrow edit

/-- The narrowest node that contains a range. -/
def nodeAt (root : Node) (range : Range) : Node := (root.at? (root.locate range)).getD root

end Node

end CellSyntax
