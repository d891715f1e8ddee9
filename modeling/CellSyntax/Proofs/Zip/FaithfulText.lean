/-
**The text of the nodes of a cell's tree.**

Tokens are faithful to a source if they do not overlap, if none starts past the end of its line
except on the last, and if their literals are the text of their ranges. Zipped with the source, such
tokens tile it, so the text of every node is the text that its range covers and that of the root is
the whole source. Only a blank source has the empty tree.

* `TreeOver.chars_eq_slice`: over tokens that tile a text, a node has the text of its range;
* `zipSource_empty_iff`: the empty tree is that of a blank source;
* `zipSource_text`: both, and the text of the root, for every syntax tree.
-/

import CellSyntax.Proofs.Trivia.Tiling
import CellSyntax.Proofs.Zip.Ranges
import CellSyntax.Tree.Text

namespace CellSyntax

/-- **Tokens that are faithful to a source.** -/
structure Token.Faithful (source : String) (tokens : List Token) : Prop where
  inOrder : Token.InOrder tokens
  /-- Each token starts in the text, or its start is clamped at the end of the text. -/
  reached : ∀ token ∈ tokens,
    Text.position source.toList (Text.offset source.toList token.range.start) ≤ token.range.start
  literal : ∀ token ∈ tokens, token.literal.toList = Text.slice source.toList token.range

section Filled

variable {source : String} {tokens : List Token}

theorem Token.Faithful.tiles (faithful : Token.Faithful source tokens) (kind : String) :
    Tiles source.toList 0 (fillGaps source kind tokens) source.toList.length :=
  fillGaps_tiles kind faithful.inOrder faithful.literal

theorem Token.Faithful.fillGaps_inOrder (faithful : Token.Faithful source tokens) (kind : String) :
    Token.InOrder (fillGaps source kind tokens) := by
  refine CellSyntax.fillGaps_inOrder kind faithful.inOrder fun token member => ?_
  have reached := faithful.reached token member
  rwa [Text.position_offset] at reached

theorem Token.Faithful.textOf_fillGaps (faithful : Token.Faithful source tokens) (kind : String) :
    Token.textOf (fillGaps source kind tokens) = source.toList := by
  rw [(faithful.tiles kind).text_eq_part, Text.part_whole]

end Filled

/-! ### Blank cells -/

section Blank

variable {config : TokenConfig} {source : String} {ast : AstNode} {tokens : List Token}

theorem zipStripped_empty (none : zipStripped config ast tokens = .ok .empty) :
    ∀ token ∈ tokens, Text.isBlank token.literal = true := by
  unfold zipStripped at none
  split at none
  · rename_i blank
    exact List.all_eq_true.1 blank
  · split at none
    · cases none
    · cases none

/-- Blank tokens have a blank text. -/
theorem textOf_blank (blank : ∀ token ∈ tokens, Text.isBlank token.literal = true) :
    (Token.textOf tokens).all Text.isBlankChar = true := by
  rw [Token.textOf, List.all_flatMap, List.all_eq_true]
  exact blank

/-- **Only a blank source has the empty tree**, over faithful tokens. -/
theorem zipSource_empty_iff (faithful : Token.Faithful source (stripMarkers config tokens)) :
    zipSource config source ast tokens = .ok .empty ↔ Text.isBlank source = true := by
  constructor
  · intro none
    unfold zipSource at none
    split at none
    · assumption
    · have blank := textOf_blank (zipStripped_empty none)
      rwa [faithful.textOf_fillGaps] at blank
  · exact zipSource_blank ast tokens

end Blank

/-! ### The text of a node -/

section Text

variable {config : TokenConfig} {table : List Token} {root node : Node} {path : Path}

/-- The text of a node is the literals of the tokens below it. -/
theorem Node.chars_eq (node : Node) :
    node.chars = Token.textOf (node.lexemes.map Lexeme.token) := by
  rw [Token.textOf, List.flatMap_map]
  rfl

theorem TreeOver.tokens_infix (covers : TreeOver config table root)
    (found : root.at? path = some node) : node.lexemes.map Lexeme.token <:+: table := by
  have inside := (Node.lexemes_infix found).map Lexeme.token
  rwa [covers.tokens_eq] at inside

/-- **Over tokens that tile a text, a node has the text of its range.** -/
theorem TreeOver.chars_eq_slice {source : List Char} {first last : Nat}
    (covers : TreeOver config table root) (tiles : Tiles source first table last)
    (inOrder : Token.InOrder table) (found : root.at? path = some node) :
    node.chars = Text.slice source node.range := by
  obtain ⟨start, stop, start_eq, stop_eq, range⟩ :=
    (covers.formed.at? found).range_spans (covers.spaced inOrder found)
  rw [node.chars_eq, range]
  refine tiles.text_eq_slice (covers.tokens_infix found) ?_ ?_
  · rw [List.head?_map, start_eq]
    rfl
  · rw [List.getLast?_map, stop_eq]
    rfl

end Text

/-- **Zipping with the source is faithful to it**: over tokens that are faithful to a source, the
tree is empty exactly if the source is blank; every other tree has the source as its text, and each
of its nodes has the text of its range. -/
theorem zipSource_text {config : TokenConfig} {source : String} {tokens : List Token}
    (faithful : Token.Faithful source (stripMarkers config tokens)) (ast : AstNode) :
    (zipSource config source ast tokens = .ok .empty ↔ Text.trim source.toList = []) ∧
      ∀ root, zipSource config source ast tokens = .ok (.tree root) →
        root.text = source ∧
          ∀ path node, root.at? path = some node →
            node.text = String.ofList (Text.slice source.toList node.range) := by
  refine ⟨(zipSource_empty_iff faithful).trans (Text.trim_eq_nil_iff source).symm, ?_⟩
  intro root zipped
  have covers := TreeOver.ofSource zipped
  refine ⟨?_, fun path node found => ?_⟩
  · have whole : root.chars = source.toList := by
      rw [root.chars_eq, covers.tokens_eq]
      exact faithful.textOf_fillGaps _
    rw [Node.text, whole, String.ofList_toList]
  · exact congrArg String.ofList
      (covers.chars_eq_slice (faithful.tiles _) (faithful.fillGaps_inOrder _) found)

/-- The tokens of `callOutput` are faithful to its source. -/
theorem zipSource_text_callOutput :
    Token.Faithful "f(a,\n b)\n" (stripMarkers {} callOutput.tokens) ∧
      ∃ root, zipSource {} "f(a,\n b)\n" (callOutput.ast.get rfl) callOutput.tokens =
          .ok (.tree root) ∧
        root.text = "f(a,\n b)\n" ∧
          ∀ path node, root.at? path = some node →
            node.text = String.ofList (Text.slice "f(a,\n b)\n".toList node.range) := by
  have faithful : Token.Faithful "f(a,\n b)\n" (stripMarkers {} callOutput.tokens) :=
    ⟨⟨by decide, by decide⟩, by decide, by decide⟩
  exact ⟨faithful, _, rfl, (zipSource_text faithful (callOutput.ast.get rfl)).2 _ rfl⟩

end CellSyntax
