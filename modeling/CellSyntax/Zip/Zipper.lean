/-
**Zipping tokens with a syntax tree.**

Tokens are handed out from left to right. Every node gets a window of the tokens that are left:
those up to the lead of its next sibling. Tokens before a child's lead belong to the parent. A node
without children claims the one token that starts at its anchor. A node that has claimed something
then takes the tokens that trail it; one that has claimed nothing is dropped. The open brackets are
carried along, so every bracket is seen once and in source order whichever node owns it.

* `takeTrailing_append`: the trailing tokens and the rest make up what there was;
* `closeNode_nothing`: a node that has claimed nothing is dropped and leaves its window as it was.
-/

import CellSyntax.Bracket
import CellSyntax.Tree.Basic
import CellSyntax.Zip.Boundary
import CellSyntax.Zip.Shape

namespace CellSyntax

/-- A stretch of the tokens that a node or a list of siblings took, as content, with the tokens
that are left of its window and the brackets that are open after it. -/
structure Portion where
  content : List Element
  rest : List Lexeme
  opened : List OpenBracket
deriving Repr

namespace Zip

/-- The tokens that trail a node whose content ends on `line`: while a bracket opened at or after
the token numbered `first` is open, every token; else the tokens on that line, up to a bracket. -/
def takeTrailing (table : BracketTable) (first : Nat) :
    (line : Nat) → List OpenBracket → List Lexeme →
      Except BracketMismatch (List Lexeme × List Lexeme × List OpenBracket)
  | _, opened, [] => .ok ([], [], opened)
  | line, opened, lexeme :: rest =>
    if owesCloser first opened = true ∨
        lexeme.start.line = line ∧ table.role lexeme.token.literal = none then
      match table.step opened lexeme with
      | .error mismatch => .error mismatch
      | .ok opened =>
        match takeTrailing table first lexeme.token.range.stop.line opened rest with
        | .error mismatch => .error mismatch
        | .ok (taken, left, opened) => .ok (lexeme :: taken, left, opened)
    else .ok ([], lexeme :: rest, opened)

theorem takeTrailing_append {table : BracketTable} {first line : Nat} {opened after :
    List OpenBracket} {window taken left : List Lexeme}
    (done : takeTrailing table first line opened window = .ok (taken, left, after)) :
    taken ++ left = window := by
  induction window generalizing line opened taken with
  | nil =>
    simp only [takeTrailing, Except.ok.injEq, Prod.mk.injEq] at done
    obtain ⟨rfl, rfl, -⟩ := done
    rfl
  | cons lexeme rest ih =>
    unfold takeTrailing at done
    split at done
    · split at done
      · cases done
      · split at done
        · cases done
        · rename_i later
          cases done
          exact congrArg (lexeme :: ·) (ih later)
    · cases done
      rfl

/-- What a node without children claims: the first token of its window, if it starts at the
node's anchor. -/
def claimAnchor (table : BracketTable) (anchor : Option Position) (window : List Lexeme)
    (opened : List OpenBracket) : Except BracketMismatch Portion :=
  match window with
  | [] => .ok ⟨[], [], opened⟩
  | lexeme :: rest =>
    if anchor = some lexeme.start then
      match table.step opened lexeme with
      | .error mismatch => .error mismatch
      | .ok opened => .ok ⟨[.token lexeme], rest, opened⟩
    else .ok ⟨[], lexeme :: rest, opened⟩

/-- A node over what its children and it have claimed of `window`, together with the tokens that
trail it; nothing if nothing was claimed. -/
def closeNode (table : BracketTable) (kind : String) (window : List Lexeme)
    (claimed : Portion) : Except BracketMismatch Portion :=
  match window, claimed.content.getLast? with
  | first :: _, some last =>
    match takeTrailing table first.number last.range.stop.line claimed.opened claimed.rest with
    | .error mismatch => .error mismatch
    | .ok (trailing, rest, opened) =>
      .ok ⟨[(Node.ofContent kind (claimed.content ++ trailing.map .token)).element], rest, opened⟩
  | _, _ => .ok ⟨[], window, claimed.opened⟩

theorem closeNode_nothing (table : BracketTable) (kind : String) (window rest : List Lexeme)
    (opened : List OpenBracket) :
    closeNode table kind window ⟨[], rest, opened⟩ = .ok ⟨[], window, opened⟩ := by
  cases window <;> rfl

/-- The tokens of `window` that lie before the lead of the next sibling, if there is one. -/
def beforeSibling (siblings : List Shape) (window : List Lexeme) : List Lexeme :=
  match siblings with
  | [] => window
  | next :: _ => beforeLead next.lead window

/-- The tokens of `window` from the lead of the next sibling on. -/
def fromSibling (siblings : List Shape) (window : List Lexeme) : List Lexeme :=
  match siblings with
  | [] => []
  | next :: _ => fromLead next.lead window

mutual

/-- Zip one node with the tokens of its window. -/
def zipNode (table : BracketTable) :
    Shape → List Lexeme → List OpenBracket → Except BracketMismatch Portion
  | ⟨kind, anchor, _, children⟩, window, opened =>
    match
      if children.isEmpty then claimAnchor table anchor window opened
      else zipChildren table children window opened with
    | .error mismatch => .error mismatch
    | .ok claimed => closeNode table kind window claimed

/-- Zip siblings, from left to right, with the tokens of their parent's window. -/
def zipChildren (table : BracketTable) :
    List Shape → List Lexeme → List OpenBracket → Except BracketMismatch Portion
  | [], window, opened => .ok ⟨[], window, opened⟩
  | child :: siblings, window, opened =>
    let before := beforeLead child.lead window
    let ahead := fromLead child.lead window
    match table.scan opened before with
    | .error mismatch => .error mismatch
    | .ok opened =>
      match zipNode table child (beforeSibling siblings ahead) opened with
      | .error mismatch => .error mismatch
      | .ok node =>
        match zipChildren table siblings (node.rest ++ fromSibling siblings ahead) node.opened with
        | .error mismatch => .error mismatch
        | .ok later =>
          .ok ⟨before.map .token ++ node.content ++ later.content, later.rest, later.opened⟩

end

/-- Zip a whole token sequence with a module node. The root owns what its children leave. -/
def zipModule (table : BracketTable) (ast : AstNode) (tokens : List Token) :
    Except BracketMismatch Node :=
  match zipChildren table (Shape.ofNodes ast.children) (Lexeme.sequence tokens) [] with
  | .error mismatch => .error mismatch
  | .ok children =>
    match table.scan children.opened children.rest with
    | .error mismatch => .error mismatch
    | .ok _ => .ok (.ofContent ast.kind (children.content ++ children.rest.map .token))

end Zip

end CellSyntax
