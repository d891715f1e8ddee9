/-
**Repairing a tree after an edit.**

The narrowest node around the edit is found, the tree is corrected, and the node's new text is
handed back for a parser to look at again.

* `Node.repair_path`: the node that is handed back is the one that was located;
* `Node.repair_text`: its text is the slice of the new text under its corrected range.
-/

import CellSyntax.Locate
import CellSyntax.Propagate

namespace CellSyntax

/-- What came of repairing a tree after one edit. -/
structure Repair where
  /-- The path of the node that the edit lies in. -/
  path : Path
  kind : String
  /-- The node's corrected range. -/
  range : Range
  /-- The text after the edit under that range. -/
  text : String
deriving DecidableEq, Repr

namespace Node

/-- The tree corrected after an edit, `newText` being the cell's text after it, with what is to
be parsed again. -/
def repair (root : Node) (edit : EditDescriptor) (newText : String) : Node × Repair :=
  let path := root.locate edit.beforeRange
  let corrected := root.propagate edit.delta path
  let node := (corrected.at? path).getD corrected
  (corrected,
    ⟨path, node.kind, node.range, String.ofList (Text.slice newText.toList node.range)⟩)

theorem repair_path (root : Node) (edit : EditDescriptor) (newText : String) :
    (root.repair edit newText).2.path = root.locate edit.beforeRange := rfl

theorem repair_text (root : Node) (edit : EditDescriptor) (newText : String) :
    (root.repair edit newText).2.text =
      String.ofList (Text.slice newText.toList (root.repair edit newText).2.range) := rfl

end Node

end CellSyntax
