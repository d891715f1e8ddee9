/-
**Zipping with frames.**

The zipper as it keeps its books. Every visit of a node gets a frame, the next number that is free,
and an open bracket is a claim of the frame that took its opener. There is one stack of claims for
the whole run. A node folds the tokens that trail it by asking who owns the innermost claim: since
visits inside its subtree come after its own, an owner that is not below the node's frame lies
inside. The fold reads nothing of a claim but the owner. The number of the token that opened the
bracket is there to say which bracket it is.

* `Zip.Framed.takeTrailing`, `Zip.Framed.closeNode`: the fold of a node;
* `Zip.Framed.zipNode`, `Zip.Framed.zipChildren`, `Zip.Framed.zipModule`: the zip.
-/

import CellSyntax.Zip.Zipper

namespace CellSyntax

/-- An open bracket and the frame that took its opener. -/
structure Claim where
  bracket : OpenBracket
  owner : Nat
deriving DecidableEq, Repr

namespace Zip.Framed

/-- A stretch of the tokens that a node or a list of siblings took, as content, with what is left of
its window, the claims after it and how many frames have been given out. -/
structure Zipped where
  content : List Element
  rest : List Lexeme
  claims : List Claim
  frames : Nat
deriving Repr

/-- The claims after one more lexeme, which `frame` takes, innermost first. -/
def take (table : BracketTable) (frame : Nat) (claims : List Claim) (lexeme : Lexeme) :
    Except BracketMismatch (List Claim) :=
  match table.role lexeme.token.literal, claims with
  | none, _ => .ok claims
  | some (.opens closer), _ => .ok (⟨⟨closer, lexeme.number⟩, frame⟩ :: claims)
  | some (.closes found), [] => .error ⟨lexeme.start, found, none⟩
  | some (.closes found), innermost :: outer =>
    if innermost.bracket.closer = found then .ok outer
    else .error ⟨lexeme.start, found, some innermost.bracket.closer⟩

/-- The claims after a run of lexemes, all of which `frame` takes. -/
def takeAll (table : BracketTable) (frame : Nat) (claims : List Claim) :
    List Lexeme → Except BracketMismatch (List Claim)
  | [] => .ok claims
  | lexeme :: rest =>
    match take table frame claims lexeme with
    | .error mismatch => .error mismatch
    | .ok claims => takeAll table frame claims rest

/-- Whether the innermost claim is that of `frame` or of a later one. -/
def owesCloser (frame : Nat) (claims : List Claim) : Bool :=
  match claims with
  | [] => false
  | innermost :: _ => frame ≤ innermost.owner

/-- The tokens that trail a node whose content ends on `line`: while a bracket that `frame` or a
later one opened is open, every token; else the tokens on that line, up to a bracket. -/
def takeTrailing (table : BracketTable) (frame : Nat) :
    (line : Nat) → List Claim → List Lexeme →
      Except BracketMismatch (List Lexeme × List Lexeme × List Claim)
  | _, claims, [] => .ok ([], [], claims)
  | line, claims, lexeme :: rest =>
    if owesCloser frame claims = true ∨
        lexeme.start.line = line ∧ table.role lexeme.token.literal = none then
      match take table frame claims lexeme with
      | .error mismatch => .error mismatch
      | .ok claims =>
        match takeTrailing table frame lexeme.token.range.stop.line claims rest with
        | .error mismatch => .error mismatch
        | .ok (taken, left, claims) => .ok (lexeme :: taken, left, claims)
    else .ok ([], lexeme :: rest, claims)

/-- What a node without children claims in the next frame: the first token of its window, if it
starts at the node's anchor. -/
def claimAnchor (table : BracketTable) (anchor : Option Position) (window : List Lexeme)
    (claims : List Claim) (frames : Nat) : Except BracketMismatch Zipped :=
  match window with
  | [] => .ok ⟨[], [], claims, frames + 1⟩
  | lexeme :: rest =>
    if anchor = some lexeme.start then
      match take table frames claims lexeme with
      | .error mismatch => .error mismatch
      | .ok claims => .ok ⟨[.token lexeme], rest, claims, frames + 1⟩
    else .ok ⟨[], lexeme :: rest, claims, frames + 1⟩

/-- The node of `frame` over what its children and it have claimed of `window`, together with the
tokens that trail it; nothing if nothing was claimed. -/
def closeNode (table : BracketTable) (frame : Nat) (kind : String) (window : List Lexeme)
    (claimed : Zipped) : Except BracketMismatch Zipped :=
  match claimed.content.getLast? with
  | none => .ok ⟨[], window, claimed.claims, claimed.frames⟩
  | some last =>
    match takeTrailing table frame last.range.stop.line claimed.claims claimed.rest with
    | .error mismatch => .error mismatch
    | .ok (trailing, rest, claims) =>
      .ok ⟨[(Node.ofContent kind (claimed.content ++ trailing.map .token)).element], rest, claims,
        claimed.frames⟩

mutual

/-- Zip one node, in the next frame, with the tokens of its window. -/
def zipNode (table : BracketTable) :
    Shape → List Lexeme → List Claim → (frames : Nat) → Except BracketMismatch Zipped
  | ⟨kind, anchor, _, children⟩, window, claims, frames =>
    match
      if children.isEmpty then claimAnchor table anchor window claims frames
      else zipChildren table frames children window claims (frames + 1) with
    | .error mismatch => .error mismatch
    | .ok claimed => closeNode table frames kind window claimed

/-- Zip siblings, from left to right, with the tokens of their parent's window. Tokens before a
child's lead are taken in the parent's frame. -/
def zipChildren (table : BracketTable) (parent : Nat) :
    List Shape → List Lexeme → List Claim → (frames : Nat) → Except BracketMismatch Zipped
  | [], window, claims, frames => .ok ⟨[], window, claims, frames⟩
  | child :: siblings, window, claims, frames =>
    let before := beforeLead child.lead window
    let ahead := fromLead child.lead window
    match takeAll table parent claims before with
    | .error mismatch => .error mismatch
    | .ok claims =>
      match zipNode table child (beforeSibling siblings ahead) claims frames with
      | .error mismatch => .error mismatch
      | .ok node =>
        match zipChildren table parent siblings (node.rest ++ fromSibling siblings ahead)
            node.claims node.frames with
        | .error mismatch => .error mismatch
        | .ok later =>
          .ok ⟨before.map .token ++ node.content ++ later.content, later.rest, later.claims,
            later.frames⟩

end

/-- Zip a whole token sequence with a module node, which has the first frame. -/
def zipModule (table : BracketTable) (ast : AstNode) (tokens : List Token) :
    Except BracketMismatch Node :=
  match zipChildren table 0 (Shape.ofNodes ast.children) (Lexeme.sequence tokens) [] 1 with
  | .error mismatch => .error mismatch
  | .ok children =>
    match takeAll table 0 children.claims children.rest with
    | .error mismatch => .error mismatch
    | .ok _ => .ok (.ofContent ast.kind (children.content ++ children.rest.map .token))

end Zip.Framed

end CellSyntax
