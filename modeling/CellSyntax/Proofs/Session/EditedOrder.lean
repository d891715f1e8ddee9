/-
**Siblings stay in order while a cell is edited.**

The tree of a freshly zipped cell has its siblings in order and covers each child by its parent, so
lines are in order too. One edit in a leaf after the other keeps both orders, as long as each of them
moves no end back past a start.

* `Session.Edited.orderly`: every session that comes of such edits;
* `Session.siblingsInOrder_of_edited`: siblings stay in order from the zip on, and the search stays
  right;
* `Session.order_lost`: the three ways in which an edit in a leaf loses the order otherwise.
-/

import CellSyntax.Proofs.Repair.SiblingOrder
import CellSyntax.Proofs.Zip.FaithfulText
import CellSyntax.Proofs.Zip.Locating
import CellSyntax.Session

namespace CellSyntax.Session

variable {allowed : Node → EditDescriptor → Prop} {first session : Session} {typed bound : Nat}
  {root : Node}

/-- **A session that comes of edits in leaves**, each of them a replacement between two positions of
the current text that the current tree allows, with the number of characters put in since. -/
inductive Edited (allowed : Node → EditDescriptor → Prop) (first : Session) :
    (typed : Nat) → (session : Session) → Prop
  | start : Edited allowed first 0 first
  | edit {typed : Nat} {session : Session} {root : Node} (edited : Edited allowed first typed session)
      (isTree : session.tree = .tree root) (range : Range) (replacement : String)
      (isIn : range.IsIn session.text.toList)
      (leaf : root.LeafEdit (.replace session.text range replacement))
      (allows : allowed root (.replace session.text range replacement)) :
      Edited allowed first (typed + replacement.length)
        (session.applyEdit (.replace session.text range replacement)).1

theorem text_applyEdit (session : Session) (edit : EditDescriptor) :
    (session.applyEdit edit).1.text = edit.apply session.text := by
  unfold applyEdit
  split <;> rfl

theorem tree_applyEdit (isTree : session.tree = .tree root) (edit : EditDescriptor) :
    (session.applyEdit edit).1.tree = .tree (root.repair edit (edit.apply session.text)).1 := by
  unfold applyEdit
  rw [isTree]

/-- **Siblings and lines stay in order** over any number of edits. -/
theorem Edited.orderly (edited : Edited Node.KeepsOrder first typed session)
    (isTree : first.tree = .tree root) (orderly : root.Orderly bound)
    (room : bound + typed ≤ maxCoordinate) :
    ∃ current, session.tree = .tree current ∧ current.Orderly (bound + typed) := by
  induction edited with
  | start => exact ⟨root, isTree, orderly⟩
  | edit edited isTree range replacement isIn leaf keeps ih =>
    obtain ⟨current, same, before⟩ := ih (by omega)
    rw [isTree] at same
    cases same
    refine ⟨_, tree_applyEdit isTree _, ?_⟩
    rw [← Nat.add_assoc]
    exact before.repair rfl isIn leaf keeps (by omega) _

/-- **Siblings stay in order while a cell is edited**, and so the search stays right: from the tree of
a source with faithful tokens on, over any number of edits in leaves that move no end back past a
start, unless coordinates get out of the 64-bit range. -/
theorem siblingsInOrder_of_edited {config : TokenConfig} {source : String} {ast : AstNode}
    {tokens : List Token} (faithful : Token.Faithful source (stripMarkers config tokens))
    (zipped : zipSource config source ast tokens = .ok (.tree root))
    (within : ∀ path node, root.at? path = some node → node.range.Within bound)
    (edited : Edited Node.KeepsOrder (new source (.tree root)) typed session)
    (room : bound + typed ≤ maxCoordinate) :
    ∃ current, session.tree = .tree current ∧ current.SiblingsInOrder ∧
      ∀ edit, current.SearchCorrect edit := by
  have covers := TreeOver.ofSource zipped
  have inOrder := faithful.fillGaps_inOrder config.triviaKind
  have siblings := covers.siblingsInOrder inOrder
  have lines := Node.linesInOrder siblings (covers.nested inOrder)
  obtain ⟨current, isTree, orderly⟩ := edited.orderly rfl ⟨siblings, lines, within⟩ room
  exact ⟨current, isTree, orderly.siblings, Node.search orderly.siblings⟩

/-- In the tree of `callOutput`: the name of the called function gets longer, and then shorter than
it was, which moves the argument behind it there and back. -/
theorem siblingsInOrder_of_edited_callOutput :
    Token.Faithful "f(a,\n b)\n" (stripMarkers {} callOutput.tokens) ∧ ∃ root session current,
      zipSource {} "f(a,\n b)\n" (callOutput.ast.get rfl) callOutput.tokens = .ok (.tree root) ∧
      (∀ path node, root.at? path = some node → node.range.Within 5) ∧
      Edited Node.KeepsOrder (new "f(a,\n b)\n" (.tree root)) 4 session ∧
      session.text = "(a,\n b)\n" ∧ session.tree = .tree current ∧ current.SiblingsInOrder ∧
      ∀ edit, current.SearchCorrect edit := by
  have faithful : Token.Faithful "f(a,\n b)\n" (stripMarkers {} callOutput.tokens) :=
    ⟨⟨by decide, by decide⟩, by decide, by decide⟩
  obtain ⟨root, session, zipped, within, edited, text⟩ : ∃ root session,
      zipSource {} "f(a,\n b)\n" (callOutput.ast.get rfl) callOutput.tokens = .ok (.tree root) ∧
      (∀ path ∈ root.preorder, ∀ node ∈ root.at? path, node.range.Within 5) ∧
      Edited Node.KeepsOrder (new "f(a,\n b)\n" (.tree root)) 4 session ∧
      session.text = "(a,\n b)\n" := by
    refine ⟨_, _, rfl, by decide +kernel, .edit (.edit .start rfl ⟨⟨0, 0⟩, ⟨0, 1⟩⟩ "long" ?_ ?_ ?_)
      rfl ⟨⟨0, 0⟩, ⟨0, 4⟩⟩ "" ?_ ?_ ?_, ?_⟩
    · exact ⟨by decide, by decide, by decide⟩
    · decide +kernel
    · decide +kernel
    · rw [text_applyEdit]
      exact ⟨by decide, by decide +kernel, by decide +kernel⟩
    · decide +kernel
    · decide +kernel
    · rw [text_applyEdit, text_applyEdit]
      decide +kernel
  have small := (Node.forall_at?_iff fun node => node.range.Within 5).2 within
  obtain ⟨current, isTree, siblings, search⟩ :=
    siblingsInOrder_of_edited faithful zipped small edited (by decide)
  exact ⟨faithful, root, session, current, zipped, small, edited, text, isTree, siblings, search⟩

/-- **One edit in a leaf of the tree of a source puts siblings out of order**: somewhere one of them
ends after a later one starts. -/
def LosesOrder (source : String) (ast : AstNode) (tokens : List Token) (range : Range)
    (replacement : String) : Prop :=
  ∃ root current, Token.Faithful source (stripMarkers {} tokens) ∧
    zipSource {} source ast tokens = .ok (.tree root) ∧
    Edited (fun _ _ => True) (new source (.tree root)) replacement.length
      ((new source (.tree root)).applyEdit (.replace source range replacement)).1 ∧
    ((new source (.tree root)).applyEdit (.replace source range replacement)).1.tree =
      .tree current ∧
    ∃ path, ∃ node ∈ current.at? path,
      ¬ node.children.Pairwise fun first second => first.range.stop ≤ second.range.start

theorem losesOrder {source replacement : String} {ast : AstNode} {tokens : List Token} {range : Range}
    (path : Path) (faithful : Token.Faithful source (stripMarkers {} tokens))
    (zipped : zipSource {} source ast tokens = .ok (.tree root)) (isIn : range.IsIn source.toList)
    (leaf : root.LeafEdit (.replace source range replacement))
    (lost : ∃ node ∈ (root.repair (.replace source range replacement)
        ((EditDescriptor.replace source range replacement).apply source)).1.at? path,
      ¬ node.children.Pairwise fun first second => first.range.stop ≤ second.range.start) :
    LosesOrder source ast tokens range replacement := by
  have edited : Edited (fun _ _ => True) (new source (.tree root)) (0 + replacement.length) _ :=
    .edit .start rfl range replacement isIn leaf trivial
  rw [Nat.zero_add] at edited
  have isTree := tree_applyEdit (rfl : (new source (.tree root)).tree = .tree root)
    (.replace source range replacement)
  exact ⟨root, _, faithful, zipped, edited, isTree, path, lost⟩

/-- **The order is lost in three ways**: a line break is put in for a character in front of another
leaf on the line; a line break is taken out of a leaf that starts further to the right than the next
line goes; characters are taken out in front of a node whose first leaf goes on over a line break and
whose second starts where that ends. -/
theorem order_lost :
    LosesOrder "a;b" ⟨"Module", none, [⟨"Name", some ⟨0, 0⟩, []⟩, ⟨"Name", some ⟨0, 2⟩, []⟩]⟩
        [⟨"NAME", ⟨⟨0, 0⟩, ⟨0, 1⟩⟩, "a"⟩, ⟨"OP", ⟨⟨0, 1⟩, ⟨0, 2⟩⟩, ";"⟩,
          ⟨"NAME", ⟨⟨0, 2⟩, ⟨0, 3⟩⟩, "b"⟩] ⟨⟨0, 0⟩, ⟨0, 1⟩⟩ "\n" ∧
      LosesOrder "a\nc" ⟨"Module", none, [⟨"Name", some ⟨0, 0⟩, []⟩, ⟨"Break", some ⟨0, 1⟩, []⟩,
          ⟨"Name", some ⟨1, 0⟩, []⟩]⟩
        [⟨"NAME", ⟨⟨0, 0⟩, ⟨0, 1⟩⟩, "a"⟩, ⟨"NL", ⟨⟨0, 1⟩, ⟨1, 0⟩⟩, "\n"⟩,
          ⟨"NAME", ⟨⟨1, 0⟩, ⟨1, 1⟩⟩, "c"⟩] ⟨⟨0, 1⟩, ⟨1, 0⟩⟩ "" ∧
      LosesOrder "xyu\nwv" ⟨"Module", none, [⟨"Name", some ⟨0, 0⟩, []⟩, ⟨"Pair", some ⟨0, 2⟩,
          [⟨"Str", some ⟨0, 2⟩, []⟩, ⟨"Name", some ⟨1, 1⟩, []⟩]⟩]⟩
        [⟨"NAME", ⟨⟨0, 0⟩, ⟨0, 2⟩⟩, "xy"⟩, ⟨"STR", ⟨⟨0, 2⟩, ⟨1, 1⟩⟩, "u\nw"⟩,
          ⟨"NAME", ⟨⟨1, 1⟩, ⟨1, 2⟩⟩, "v"⟩] ⟨⟨0, 0⟩, ⟨0, 2⟩⟩ "" := by
  refine ⟨losesOrder [] ?_ rfl ?_ ?_ ?_, losesOrder [] ?_ rfl ?_ ?_ ?_,
    losesOrder [1] ?_ rfl ?_ ?_ ?_⟩
  · exact ⟨⟨by decide, by decide⟩, by decide, by decide⟩
  · exact ⟨by decide, by decide, by decide⟩
  · decide +kernel
  · decide +kernel
  · exact ⟨⟨by decide, by decide⟩, by decide, by decide⟩
  · exact ⟨by decide, by decide, by decide⟩
  · decide +kernel
  · decide +kernel
  · exact ⟨⟨by decide, by decide⟩, by decide, by decide⟩
  · exact ⟨by decide, by decide, by decide⟩
  · decide +kernel
  · decide +kernel

end CellSyntax.Session
