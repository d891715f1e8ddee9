/-
**Zipping commutes with rigid moves.**

The zipper looks at positions in few ways: it compares starts of tokens with leads, asks whether a
token starts at an anchor or on the line that something ends on, and puts the ends of ranges in
order. A rigid move of all tokens and of the syntax tree keeps each answer. So the zip goes the same
way and ends in the same tree with all positions moved, or in the same mismatch at its moved
position.

* `partitionPoint_map`: halving a list of changed items;
* `Zip.takeTrailing_relocate`, `Zip.closeNode_relocate`: the tokens behind a node, and the node;
* `Zip.zipNode_relocate`, `Zip.zipChildren_relocate`: nodes and siblings;
* `zipTokens_relocate`: whole token streams.
-/

import CellSyntax.Proofs.Tree.Relocation
import CellSyntax.Proofs.Zip.Conservation
import CellSyntax.Zip.Cell

namespace CellSyntax

/-! ### Halving -/

theorem bisectBy_map {Item Other : Type} (change : Other → Item) (holds : Item → Bool) (steps : Nat)
    (items : List Other) : bisectBy holds steps (items.map change) =
      bisectBy (fun item => holds (change item)) steps items := by
  induction steps generalizing items with
  | zero => rfl
  | succ steps ih =>
    simp only [bisectBy, List.length_map, List.countP_map, List.getElem?_map, Option.any_map,
      ← List.map_drop, ← List.map_take, ih]
    rfl

/-- **Halving a list of changed items** is halving the list by what the changed items pass. -/
theorem partitionPoint_map {Item Other : Type} (change : Other → Item) (holds : Item → Bool)
    (items : List Other) : partitionPoint holds (items.map change) =
      partitionPoint (fun item => holds (change item)) items := by
  rw [partitionPoint, List.length_map, bisectBy_map]
  rfl

/-! ### Outcomes -/

/-- An outcome at other positions: the mismatch is moved, and what there is else is changed. -/
def relocateOutcome {Result Changed : Type} (move : Position → Position)
    (change : Result → Changed) : Except BracketMismatch Result → Except BracketMismatch Changed
  | .error mismatch => .error (mismatch.relocate move)
  | .ok result => .ok (change result)

def Portion.relocate (move : Position → Position) (portion : Portion) : Portion :=
  ⟨portion.content.map (Element.relocate move), portion.rest.map (Lexeme.relocate move),
    portion.opened⟩

variable {move : Position → Position}

/-! ### Brackets -/

section Brackets

variable {table : BracketTable}

theorem BracketTable.step_relocate (opened : List OpenBracket) (lexeme : Lexeme) :
    table.step opened (lexeme.relocate move) =
      relocateOutcome move id (table.step opened lexeme) := by
  unfold step
  have literal : (lexeme.relocate move).token.literal = lexeme.token.literal := rfl
  rw [literal]
  rcases table.role lexeme.token.literal with _ | closer | found
  · rfl
  · rfl
  · rcases opened with _ | ⟨innermost, outer⟩
    · rfl
    · simp only
      split <;> rfl

theorem BracketTable.scan_relocate (opened : List OpenBracket) (lexemes : List Lexeme) :
    table.scan opened (lexemes.map (Lexeme.relocate move)) =
      relocateOutcome move id (table.scan opened lexemes) := by
  induction lexemes generalizing opened with
  | nil => rfl
  | cons lexeme rest ih =>
    rw [List.map_cons, scan, scan, step_relocate]
    cases table.step opened lexeme with
    | error mismatch => rfl
    | ok after => exact ih after

end Brackets

namespace Zip

variable {table : BracketTable} (rigid : Position.Rigid move)
include rigid

/-! ### Windows -/

theorem startsBefore_relocate (position : Position) (lexeme : Lexeme) :
    Lexeme.startsBefore (move position) (lexeme.relocate move) =
      Lexeme.startsBefore position lexeme := by
  unfold Lexeme.startsBefore
  exact decide_eq_decide.2 rigid.lt_iff

theorem cut_relocate (position : Position) (window : List Lexeme) :
    partitionPoint (Lexeme.startsBefore (move position)) (window.map (Lexeme.relocate move)) =
      partitionPoint (Lexeme.startsBefore position) window := by
  rw [partitionPoint_map]
  congr 1
  funext lexeme
  exact startsBefore_relocate rigid position lexeme

theorem beforeLead_relocate (position : Position) (window : List Lexeme) :
    beforeLead (move position) (window.map (Lexeme.relocate move)) =
      (beforeLead position window).map (Lexeme.relocate move) := by
  rw [beforeLead, cut_relocate rigid, beforeLead, List.map_take]

theorem fromLead_relocate (position : Position) (window : List Lexeme) :
    fromLead (move position) (window.map (Lexeme.relocate move)) =
      (fromLead position window).map (Lexeme.relocate move) := by
  rw [fromLead, cut_relocate rigid, fromLead, List.map_drop]

theorem beforeSibling_relocate (siblings : List Shape) (window : List Lexeme) :
    beforeSibling (siblings.map (Shape.relocate move)) (window.map (Lexeme.relocate move)) =
      (beforeSibling siblings window).map (Lexeme.relocate move) := by
  cases siblings with
  | nil => rfl
  | cons next _ =>
    rw [List.map_cons, beforeSibling, Shape.lead_relocate]
    exact beforeLead_relocate rigid next.lead window

theorem fromSibling_relocate (siblings : List Shape) (window : List Lexeme) :
    fromSibling (siblings.map (Shape.relocate move)) (window.map (Lexeme.relocate move)) =
      (fromSibling siblings window).map (Lexeme.relocate move) := by
  cases siblings with
  | nil => rfl
  | cons next _ =>
    rw [List.map_cons, fromSibling, Shape.lead_relocate]
    exact fromLead_relocate rigid next.lead window

/-! ### Nodes -/

/-- **The tokens that trail what ends at a position.** -/
theorem takeTrailing_relocate (first : Nat) (position : Position) (opened : List OpenBracket)
    (window : List Lexeme) :
    takeTrailing table first (move position).line opened (window.map (Lexeme.relocate move)) =
      relocateOutcome move
        (fun (taken, left, after) =>
          (taken.map (Lexeme.relocate move), left.map (Lexeme.relocate move), after))
        (takeTrailing table first position.line opened window) := by
  induction window generalizing position opened with
  | nil => rfl
  | cons lexeme rest ih =>
    have trails : (owesCloser first opened = true ∨
        (lexeme.relocate move).start.line = (move position).line ∧
          table.role (lexeme.relocate move).token.literal = none) ↔
        (owesCloser first opened = true ∨
          lexeme.start.line = position.line ∧ table.role lexeme.token.literal = none) :=
      or_congr_right (and_congr_left fun _ => rigid.line_iff)
    rw [List.map_cons, takeTrailing, takeTrailing]
    by_cases taken : owesCloser first opened = true ∨
        lexeme.start.line = position.line ∧ table.role lexeme.token.literal = none
    · rw [if_pos taken, if_pos (trails.2 taken), BracketTable.step_relocate]
      cases table.step opened lexeme with
      | error mismatch => rfl
      | ok after =>
        have later := ih lexeme.token.range.stop after
        simp only [relocateOutcome, id_eq]
        rw [show (lexeme.relocate move).token.range.stop = move lexeme.token.range.stop from rfl,
          later]
        cases takeTrailing table first lexeme.token.range.stop.line after rest <;> rfl
    · rw [if_neg taken, if_neg (mt trails.1 taken)]
      rfl

theorem claimAnchor_relocate (anchor : Option Position) (window : List Lexeme)
    (opened : List OpenBracket) :
    claimAnchor table (anchor.map move) (window.map (Lexeme.relocate move)) opened =
      relocateOutcome move (Portion.relocate move) (claimAnchor table anchor window opened) := by
  cases window with
  | nil => rfl
  | cons lexeme rest =>
    have anchored : anchor.map move = some (lexeme.relocate move).start ↔
        anchor = some lexeme.start := by
      cases anchor with
      | none => simp
      | some position =>
        rw [Option.map_some, Option.some.injEq, Option.some.injEq]
        exact rigid.eq_iff
    rw [List.map_cons, claimAnchor, claimAnchor]
    by_cases here : anchor = some lexeme.start
    · rw [if_pos here, if_pos (anchored.2 here), BracketTable.step_relocate]
      cases table.step opened lexeme <;> rfl
    · rw [if_neg here, if_neg (mt anchored.1 here)]
      rfl

/-- **A node over moved content is the node, moved.** -/
theorem closeNode_relocate (kind : String) (window : List Lexeme) (claimed : Portion) :
    closeNode table kind (window.map (Lexeme.relocate move)) (claimed.relocate move) =
      relocateOutcome move (Portion.relocate move) (closeNode table kind window claimed) := by
  rcases window with _ | ⟨first, rest⟩
  · rfl
  · have ends : (claimed.relocate move).content.getLast? =
        claimed.content.getLast?.map (Element.relocate move) := List.getLast?_map
    simp only [List.map_cons, closeNode, ends]
    cases isLast : claimed.content.getLast? with
    | none => rfl
    | some last =>
      have trailing := @takeTrailing_relocate move table rigid first.number last.range.stop
        claimed.opened claimed.rest
      simp only [Option.map_some, Element.range_relocate]
      rw [show (last.range.relocate move).stop = move last.range.stop from rfl,
        show (first.relocate move).number = first.number from rfl,
        show (claimed.relocate move).opened = claimed.opened from rfl,
        show (claimed.relocate move).rest = claimed.rest.map (Lexeme.relocate move) from rfl,
        trailing]
      cases takeTrailing table first.number last.range.stop.line claimed.opened claimed.rest with
      | error mismatch => rfl
      | ok taken =>
        obtain ⟨trailing, left, after⟩ := taken
        have some : claimed.content ++ trailing.map Element.token ≠ [] := by
          intro none
          rw [(List.append_eq_nil_iff.1 none).1] at isLast
          cases isLast
        have content : (claimed.relocate move).content ++
            (trailing.map (Lexeme.relocate move)).map Element.token =
              (claimed.content ++ trailing.map Element.token).map (Element.relocate move) := by
          rw [List.map_append, List.map_map, List.map_map]
          rfl
        simp only [relocateOutcome]
        rw [content, Node.ofContent_relocate rigid kind some]
        rfl

mutual

/-- **A zip of one node commutes with rigid moves.** -/
theorem zipNode_relocate : ∀ (shape : Shape) (window : List Lexeme) (opened : List OpenBracket),
    zipNode table (shape.relocate move) (window.map (Lexeme.relocate move)) opened =
      relocateOutcome move (Portion.relocate move) (zipNode table shape window opened)
  | ⟨kind, anchor, lead, children⟩, window, opened => by
    have leaf : (children.map (Shape.relocate move)).isEmpty = children.isEmpty := List.isEmpty_map
    rw [Shape.relocate, Shape.relocateAll_eq_map, zipNode, zipNode, leaf,
      claimAnchor_relocate rigid, zipChildren_relocate children]
    cases children.isEmpty with
    | true =>
      simp only [if_true]
      cases claimAnchor table anchor window opened with
      | error mismatch => rfl
      | ok claimed => exact closeNode_relocate rigid kind window claimed
    | false =>
      simp only [Bool.false_eq_true, if_false]
      cases zipChildren table children window opened with
      | error mismatch => rfl
      | ok claimed => exact closeNode_relocate rigid kind window claimed

/-- **A zip of siblings commutes with rigid moves.** -/
theorem zipChildren_relocate : ∀ (shapes : List Shape) (window : List Lexeme)
    (opened : List OpenBracket),
    zipChildren table (shapes.map (Shape.relocate move)) (window.map (Lexeme.relocate move))
        opened =
      relocateOutcome move (Portion.relocate move) (zipChildren table shapes window opened)
  | [], window, opened => by
    rw [List.map_nil, zipChildren, zipChildren]
    rfl
  | child :: siblings, window, opened => by
    rw [List.map_cons, zipChildren, zipChildren, Shape.lead_relocate,
      beforeLead_relocate rigid, fromLead_relocate rigid, BracketTable.scan_relocate,
      beforeSibling_relocate rigid, fromSibling_relocate rigid]
    cases table.scan opened (beforeLead child.lead window) with
    | error mismatch => rfl
    | ok between =>
      simp only [relocateOutcome, id_eq]
      rw [zipNode_relocate child]
      cases zipNode table child (beforeSibling siblings (fromLead child.lead window)) between with
      | error mismatch => rfl
      | ok node =>
        have rest : (node.relocate move).rest ++
            (fromSibling siblings (fromLead child.lead window)).map (Lexeme.relocate move) =
              (node.rest ++ fromSibling siblings (fromLead child.lead window)).map
                (Lexeme.relocate move) := List.map_append.symm
        simp only [relocateOutcome]
        rw [rest, show (node.relocate move).opened = node.opened from rfl,
          zipChildren_relocate siblings]
        cases zipChildren table siblings
            (node.rest ++ fromSibling siblings (fromLead child.lead window)) node.opened with
        | error mismatch => rfl
        | ok later =>
          simp only [relocateOutcome, Portion.relocate, List.map_append, List.map_map]
          rfl

end

/-! ### Whole zips -/

theorem zipModule_relocate (ast : AstNode) {tokens : List Token} (some : tokens ≠ []) :
    zipModule table (ast.relocate move) (tokens.map (Token.relocate move)) =
      relocateOutcome move (Node.relocate move) (zipModule table ast tokens) := by
  rw [zipModule, zipModule, AstNode.children_relocate, AstNode.kind_relocate,
    Shape.ofNodes_relocate rigid, Lexeme.sequence_relocate, zipChildren_relocate rigid]
  cases zipped : zipChildren table (Shape.ofNodes ast.children) (Lexeme.sequence tokens) [] with
  | error mismatch => rfl
  | ok children =>
    simp only [relocateOutcome]
    rw [show (children.relocate move).opened = children.opened from rfl,
      show (children.relocate move).rest = children.rest.map (Lexeme.relocate move) from rfl,
      BracketTable.scan_relocate]
    cases table.scan children.opened children.rest with
    | error mismatch => rfl
    | ok after =>
      have content : (children.relocate move).content ++
          (children.rest.map (Lexeme.relocate move)).map Element.token =
            (children.content ++ children.rest.map Element.token).map (Element.relocate move) := by
        rw [List.map_append, List.map_map, List.map_map]
        rfl
      have taken : children.content ++ children.rest.map Element.token ≠ [] := by
        intro none
        obtain ⟨inside, behind⟩ := List.append_eq_nil_iff.1 none
        have empty := (zipChildren_takes zipped).keeps
        rw [inside, List.map_eq_nil_iff.1 behind] at empty
        apply some
        rw [← (Lexeme.number_sequence tokens).2, ← empty]
        rfl
      simp only [relocateOutcome, id_eq]
      rw [content, Node.ofContent_relocate rigid _ taken]

end Zip

theorem stripMarkers_relocate (config : TokenConfig) (tokens : List Token) :
    stripMarkers config (tokens.map (Token.relocate move)) =
      (stripMarkers config tokens).map (Token.relocate move) := by
  unfold stripMarkers
  rw [← List.map_reverse, List.dropWhile_map, ← List.map_reverse]
  have unmoved : (fun token : Token => token.kind == config.endMarker) ∘ Token.relocate move =
      fun token => token.kind == config.endMarker := rfl
  rw [unmoved]
  cases (tokens.reverse.dropWhile fun token => token.kind == config.endMarker).reverse with
  | nil => rfl
  | cons first rest =>
    simp only [List.map_cons]
    rw [show (first.relocate move).kind = first.kind from rfl]
    split <;> rfl

variable (rigid : Position.Rigid move)
include rigid

theorem zipStripped_relocate (config : TokenConfig) (ast : AstNode) (tokens : List Token) :
    zipStripped config (ast.relocate move) (tokens.map (Token.relocate move)) =
      relocateOutcome move (CellTree.relocate move) (zipStripped config ast tokens) := by
  unfold zipStripped
  have blanks : (tokens.map (Token.relocate move)).all (fun token => Text.isBlank token.literal) =
      tokens.all fun token => Text.isBlank token.literal := List.all_map
  rw [blanks]
  by_cases blank : tokens.all fun token => Text.isBlank token.literal
  · rw [if_pos blank, if_pos blank]
    rfl
  · have some : tokens ≠ [] := by
      intro none
      apply blank
      rw [none]
      rfl
    rw [if_neg blank, if_neg blank, Zip.zipModule_relocate rigid ast some]
    cases Zip.zipModule (.ofConfig config) ast tokens <;> rfl

/-- **A zip of a token stream commutes with rigid moves.** -/
theorem zipTokens_relocate (config : TokenConfig) (ast : AstNode) (tokens : List Token) :
    zipTokens config (ast.relocate move) (tokens.map (Token.relocate move)) =
      relocateOutcome move (CellTree.relocate move) (zipTokens config ast tokens) := by
  rw [zipTokens, stripMarkers_relocate, zipStripped_relocate rigid, zipTokens]

end CellSyntax
