/-
**Which node of the cell's tree belongs to which node of the syntax tree.**

A zip with a syntax tree makes the root for the module node, and every other node of the cell's tree
in the visit of some node of the syntax tree. `Zip.Made` says which node of the cell's tree was made
for which node of the syntax tree, each given by its path.

* `zipModule_of_zipOutput`: zipping with a syntax tree, with the source or without it;
* `Zip.Made.at?`: the node lies at its path;
* `Zip.exists_made`: every node below the root was made for some node below the module;
* `Zip.Made.above`: around a node that was made, all nodes were.
-/

import CellSyntax.Proofs.Zip.TreeOver
import CellSyntax.Proofs.Zip.Windows

namespace CellSyntax

/-- **Zipping with a syntax tree**, as the zip of the tokens that the tree of the cell stands over. -/
theorem zipModule_of_zipOutput {config : TokenConfig} {source : Option String} {tokens : List Token}
    {ast : AstNode} {root : Node}
    (zipped : zipOutput config ⟨source, tokens, some ast⟩ = .ok (.tree root)) :
    Zip.zipModule (.ofConfig config) ast (cellTokens config source tokens) = .ok root := by
  rw [zipOutput_of_ast] at zipped
  cases source with
  | none => exact (zipStripped_tree zipped).1
  | some text => exact (zipStripped_tree (zipSource_tree zipped)).1

theorem Position.le_of_eq {first second : Position} (same : first = second) : first ≤ second :=
  same ▸ Position.le_refl _

/-- No token occurs twice in a sequence. -/
theorem Lexeme.nodup_sequence (tokens : List Token) : (Lexeme.sequence tokens).Nodup := by
  have numbers : ((Lexeme.sequence tokens).map Lexeme.number).Nodup := by
    rw [(Lexeme.number_sequence tokens).1]
    exact List.nodup_range
  exact numbers.of_map

namespace Zip

/-- **The zip made `node`, at `path` in the cell's tree, for the node at `origin` in the syntax
tree.** -/
def Made (table : BracketTable) (ast : AstNode) (tokens : List Token) (origin path : Path)
    (node : Node) : Prop :=
  ∃ visit, Visits table (Seat.ofNodes ast.children) (Lexeme.sequence tokens) [] origin path visit ∧
    visit.Makes table node

variable {table : BracketTable} {ast : AstNode} {tokens : List Token} {root node : Node}
  {origin path : Path}

/-- The children of the root are what the children of the module make. -/
theorem zipModule_children (done : zipModule table ast tokens = .ok root) :
    ∃ children, zipChildren table ((Seat.ofNodes ast.children).map Seat.shape)
        (Lexeme.sequence tokens) [] = .ok children ∧
      root.children = nodesOf children := by
  obtain ⟨children, after, zipped, -, rfl⟩ := zipModule_ok done
  rw [Seat.map_shape_ofNodes]
  exact ⟨children, zipped, nodesOf_append_tokens _ _⟩

theorem Made.at? (done : zipModule table ast tokens = .ok root)
    (made : Made table ast tokens origin path node) : root.at? path = some node := by
  obtain ⟨visit, visits, makes⟩ := made
  obtain ⟨children, zipped, isRoot⟩ := zipModule_children done
  exact visits.at? zipped makes isRoot

theorem exists_made (done : zipModule table ast tokens = .ok root) (below : path ≠ [])
    (found : root.at? path = some node) : ∃ origin, Made table ast tokens origin path node := by
  obtain ⟨children, zipped, isRoot⟩ := zipModule_children done
  obtain ⟨origin, visit, visits, makes⟩ := exists_makes zipped isRoot below found
  exact ⟨origin, visit, visits, makes⟩

theorem Made.above {outer : Path} (done : zipModule table ast tokens = .ok root)
    (made : Made table ast tokens origin path node) (below : outer ≠ []) (around : outer <+: origin) :
    ∃ above found, Made table ast tokens outer above found := by
  obtain ⟨rest, rfl⟩ := around
  obtain ⟨visit, visits, makes⟩ := made
  obtain ⟨children, zipped, -⟩ := zipModule_children done
  obtain ⟨above, outer, found, reached, makesOuter, -⟩ := visits.makes_around below zipped makes
  exact ⟨above, found, outer, reached, makesOuter⟩

end Zip

end CellSyntax
