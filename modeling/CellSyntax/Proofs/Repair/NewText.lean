/-
**The text that a repair hands back.**

A repair hands back the located node's text, for a parser to look at again: the slice of the new
text under the node's corrected range. For an edit that keeps the number of lines, that is the
node's old text with the replacement in it.

* `Node.repair_newText`: the statement, for a located node that contains the edit.
-/

import CellSyntax.Proofs.Locate.Search
import CellSyntax.Proofs.Repair.SameLines
import CellSyntax.Proofs.Zip.TreeOver
import CellSyntax.Repair

namespace CellSyntax

open Text

variable {edit : EditDescriptor} {text replacement : String} {range : Range}

/-- **The text handed back is the node's old text with the replacement in it.** -/
theorem Node.repair_newText (root : Node) (made : edit = .replace text range replacement)
    (isIn : range.IsIn text.toList) (keepsLines : edit.deltaLine = 0)
    (contains : (root.nodeAt edit.beforeRange).range.containsRange range = true)
    (unsaturated : edit.Unsaturated (root.nodeAt edit.beforeRange).range.stop) :
    (root.repair edit (edit.apply text)).2.text =
      String.ofList
          (slice text.toList ⟨(root.nodeAt edit.beforeRange).range.start, range.start⟩) ++
        replacement ++
        String.ofList
          (slice text.toList ⟨range.stop, (root.nodeAt edit.beforeRange).range.stop⟩) := by
  obtain ⟨before, removed, after, splices, oldText, newText⟩ :=
    EditDescriptor.Splices.exists_parts made isIn
  obtain ⟨starts, stops⟩ := Range.containsRange_iff.1 contains
  rw [← (EditDescriptor.ends_replace made).1] at starts ⊢
  rw [← (EditDescriptor.ends_replace made).2] at stops ⊢
  have located := root.at?_locate edit.beforeRange
  obtain ⟨corrected, reached, -, newRange⟩ := range_around splices keepsLines located
    List.prefix_rfl located starts stops unsaturated
  rw [repair_text, repair]
  simp only
  rw [reached, Option.getD_some, newRange, newText,
    splices.slice_moved keepsLines after starts stops, ← oldText, String.ofList_append,
    String.ofList_append, String.ofList_toList]

/-- In the tree of `callOutput`: both arguments are replaced, over two lines, and the call is handed
back. -/
theorem Node.repair_newText_callOutput : ∃ root edit,
    zipOutput {} callOutput = .ok (.tree root) ∧
      edit = EditDescriptor.replace "f(a,\n b)\n" ⟨⟨0, 2⟩, ⟨1, 2⟩⟩ "xyz,\n  c" ∧
      edit.deltaLine = 0 ∧ (root.nodeAt edit.beforeRange).range = ⟨⟨0, 0⟩, ⟨1, 4⟩⟩ ∧
      (root.repair edit (edit.apply "f(a,\n b)\n")).2.text =
        String.ofList ['f', '('] ++ "xyz,\n  c" ++ String.ofList [')', '\n'] := by
  have isIn : Range.IsIn ⟨⟨0, 2⟩, ⟨1, 2⟩⟩ "f(a,\n b)\n".toList :=
    ⟨by decide, by decide, by decide⟩
  obtain ⟨edit, made⟩ : ∃ edit, edit =
      EditDescriptor.replace "f(a,\n b)\n" ⟨⟨0, 2⟩, ⟨1, 2⟩⟩ "xyz,\n  c" := ⟨_, rfl⟩
  have keepsLines : edit.deltaLine = 0 := by
    rw [made]
    decide +kernel
  obtain ⟨root, zipped, call⟩ : ∃ root, zipOutput {} callOutput = .ok (.tree root) ∧
      (root.nodeAt edit.beforeRange).range = ⟨⟨0, 0⟩, ⟨1, 4⟩⟩ := by
    rw [made]
    exact ⟨_, rfl, by decide +kernel⟩
  refine ⟨root, edit, zipped, made, keepsLines, call, ?_⟩
  have newText := repair_newText root made isIn keepsLines
  rw [call] at newText
  rw [newText (by decide) (by rw [made]; decide +kernel)]
  rfl

end CellSyntax
