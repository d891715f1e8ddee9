/-
**Zipping with a cursor.**

The zipper as it walks the token table. It hands out no lists of tokens: a window is given by the
numbers of its first token and of the one behind its last, and a cursor between them says how far
its tokens are taken. Nodes are allocated in an arena while the walk goes on. A walk keeps its books
in a `Walk`, which also logs what the walk reads, where it cuts, what it allocates, and every call
of its parts with the cursors that go in and come out.

A token that the table does not have cannot be read, nothing can be cut out of it that is not there,
and a node cannot be allocated over nothing. Each of these ends the walk with a stop of its own.
What was logged up to a stop remains.

* `Zip.Cursor.Event.Inside`: what it means that the walk stays inside its windows;
* `Zip.Cursor.zipNode`, `Zip.Cursor.zipChildren`, `Zip.Cursor.foldTrailing`: the parts of the zip;
* `Zip.Cursor.zipModule`: the zip.
-/

import CellSyntax.Tree.Arena
import CellSyntax.Zip.Frames

namespace CellSyntax

namespace Zip.Cursor

/-- Why a walk ends before it is done. -/
inductive Stop where
  | mismatch (mismatch : BracketMismatch)
  /-- A token or a node is asked for that there is not. -/
  | outside
  /-- A node is to be allocated over nothing. -/
  | hollow
deriving DecidableEq, Repr

/-- The parts of the zip that move a cursor over a window. -/
inductive Part where
  | node
  | children
  | fold
deriving DecidableEq, Repr

/-- What a walk logs. -/
inductive Event where
  /-- A token is read. -/
  | read (index : Nat)
  /-- The tokens from `lo` to `hi` are cut out of the table. -/
  | sliced (lo hi : Nat)
  /-- A node is allocated. -/
  | allocated (content : List Slot)
  /-- A part is called with a cursor in the window from `lo` to `hi`. -/
  | called (part : Part) (lo cursor hi : Nat)
  /-- A part returns the cursor behind what it took. -/
  | returned (part : Part) (lo cursor hi : Nat)
  /-- The zip of a node returns none; with the claims before and after it. -/
  | dropped (lo cursor : Nat) (before after : List Claim)
deriving DecidableEq, Repr

/-- **The walk stays inside its windows**, over a table of `count` tokens: it reads and cuts where
there are tokens, allocates nothing empty, keeps every cursor in its window and leaves all as it was
where it drops a node. -/
def Event.Inside (count : Nat) : Event → Prop
  | .read index => index < count
  | .sliced lo hi => lo ≤ hi ∧ hi ≤ count
  | .allocated content => content ≠ []
  | .called _ lo cursor hi => lo ≤ cursor ∧ cursor ≤ hi ∧ hi ≤ count
  | .returned _ lo cursor hi => lo ≤ cursor ∧ cursor ≤ hi ∧ hi ≤ count
  | .dropped lo cursor before after => cursor = lo ∧ after = before

instance decidableInside (count : Nat) : (event : Event) → Decidable (event.Inside count)
  | .read index => inferInstanceAs (Decidable (index < count))
  | .sliced lo hi => inferInstanceAs (Decidable (lo ≤ hi ∧ hi ≤ count))
  | .allocated content => inferInstanceAs (Decidable (content ≠ []))
  | .called _ lo cursor hi => inferInstanceAs (Decidable (lo ≤ cursor ∧ cursor ≤ hi ∧ hi ≤ count))
  | .returned _ lo cursor hi => inferInstanceAs (Decidable (lo ≤ cursor ∧ cursor ≤ hi ∧ hi ≤ count))
  | .dropped lo cursor before after => inferInstanceAs (Decidable (cursor = lo ∧ after = before))

/-- The books of a walk. -/
structure Walk where
  builder : Builder
  claims : List Claim
  frames : Nat
  log : List Event
deriving Repr

/-- The books when a walk begins. -/
def Walk.start (tokens : List Token) : Walk := ⟨⟨tokens, []⟩, [], 0, []⟩

/-- What a walk computes. The books are kept when it stops. -/
abbrev Run := EStateM Stop Walk

/-! ### Reading and allocating -/

def log (event : Event) : Run Unit := modify fun walk => { walk with log := walk.log ++ [event] }

/-- The next frame. -/
def enter : Run Nat := modifyGet fun walk => (walk.frames, { walk with frames := walk.frames + 1 })

/-- The token with a number. -/
def tokenAt (index : Nat) : Run Token := do
  log (.read index)
  match (← get).builder.tokens[index]? with
  | some token => return token
  | none => throw .outside

/-- The range of an item of a content. -/
def rangeOf : Slot → Run Range
  | .token index => do return (← tokenAt index).range
  | .node id => do
    match (← get).builder.nodes[id]? with
    | some node => return node.range
    | none => throw .outside

/-- The number of the first token from `lo` to `hi` that starts at or after a position, as halving
finds it. -/
def boundary (lo hi : Nat) (position : Position) : Run Nat := do
  log (.sliced lo hi)
  let tokens := (← get).builder.tokens
  if lo ≤ hi ∧ hi ≤ tokens.length then
    return lo + partitionPoint (fun token => token.range.start < position)
      ((tokens.take hi).drop lo)
  else throw .outside

/-- A new node over a content, which must have a first item and a last. -/
def alloc (kind : String) (content : List Slot) : Run Nat := do
  log (.allocated content)
  match content.head?, content.getLast? with
  | some first, some last =>
    -- The range of the node is made of these two.
    let _ ← rangeOf first
    let _ ← rangeOf last
    modifyGet fun walk =>
      let (builder, id) := walk.builder.alloc kind content
      (id, { walk with builder })
  | _, _ => throw .hollow

/-! ### Taking tokens -/

variable (table : BracketTable)

/-- The token at the cursor goes to a content, and `frame` takes it. -/
def take (frame cursor : Nat) (content : List Slot) : Run (List Slot) := do
  let token ← tokenAt cursor
  match Framed.take table frame (← get).claims ⟨cursor, token⟩ with
  | .error mismatch => throw (.mismatch mismatch)
  | .ok claims =>
    modify fun walk => { walk with claims }
    return content ++ [.token cursor]

/-- The next `count` tokens go to a content. -/
def takeNext (frame : Nat) : (count cursor : Nat) → List Slot → Run (List Slot × Nat)
  | 0, cursor, content => return (content, cursor)
  | count + 1, cursor, content => do
    let content ← take table frame cursor content
    takeNext frame count (cursor + 1) content

/-- The tokens up to `stop`, if the cursor is before it, go to a content. -/
def takeUpTo (frame cursor stop : Nat) (content : List Slot) : Run (List Slot × Nat) :=
  takeNext table frame (stop - cursor) cursor content

/-- At most `count` tokens that trail a content that ends on `line`. -/
def foldNext (frame : Nat) : (count cursor line : Nat) → List Slot → Run (List Slot × Nat)
  | 0, cursor, _, content => return (content, cursor)
  | count + 1, cursor, line, content => do
    let token ← tokenAt cursor
    if Framed.owesCloser frame (← get).claims = true ∨
        token.range.start.line = line ∧ table.role token.literal = none then
      let content ← take table frame cursor content
      foldNext frame count (cursor + 1) token.range.stop.line content
    else return (content, cursor)

/-- The tokens up to `hi` that trail a content, if there is one. -/
def foldTrailing (frame cursor hi : Nat) (content : List Slot) : Run (List Slot × Nat) :=
  match content.getLast? with
  | none => return (content, cursor)
  | some last => do
    let range ← rangeOf last
    foldNext table frame (hi - cursor) cursor range.stop.line content

/-! ### Zipping -/

/-- A call of a part of the zip. -/
def call {Value : Type} (part : Part) (lo cursor hi : Nat) (body : Run (Value × Nat)) :
    Run (Value × Nat) := do
  log (.called part lo cursor hi)
  let (value, next) ← body
  log (.returned part lo next hi)
  return (value, next)

/-- A call of the zip of a node. -/
def callNode (lo hi : Nat) (zip : Run (Option Nat × Nat)) : Run (Option Nat × Nat) := do
  let before := (← get).claims
  let (node, cursor) ← call .node lo lo hi zip
  if node.isNone then log (.dropped lo cursor before (← get).claims)
  return (node, cursor)

/-- What a node without children claims: the first token of its window, if it starts at the node's
anchor. -/
def claimAnchor (frame : Nat) (anchor : Option Position) (lo hi : Nat) :
    Run (List Slot × Nat) := do
  if lo < hi then
    let token ← tokenAt lo
    if some token.range.start = anchor then return (← take table frame lo [], lo + 1)
  return ([], lo)

/-- The end of a child's window: the lead of the next sibling, if there is one. -/
def windowEnd (siblings : List Shape) (cursor hi : Nat) : Run Nat :=
  match siblings with
  | [] => return hi
  | next :: _ => boundary cursor hi next.lead

/-- The node of `frame` over what it has claimed, with the tokens that trail it; none if it has
claimed nothing. -/
def closeNode (frame : Nat) (kind : String) (lo hi : Nat) :
    List Slot × Nat → Run (Option Nat × Nat)
  | (content, cursor) => do
    if content.isEmpty then return (none, lo)
    let (content, cursor) ← call .fold lo cursor hi (foldTrailing table frame cursor hi content)
    return (some (← alloc kind content), cursor)

mutual

/-- Zip one node over the tokens from `lo` to `hi`. -/
def zipNode : Shape → (lo hi : Nat) → Run (Option Nat × Nat)
  | ⟨kind, anchor, _, children⟩, lo, hi => do
    let frame ← enter
    let claimed ← (if children.isEmpty then claimAnchor table frame anchor lo hi
      else call .children lo lo hi (zipChildren frame children lo hi []))
    closeNode table frame kind lo hi claimed

/-- Zip siblings, from left to right, over the tokens from the cursor to `hi`. Tokens before a
child's lead go to the content of the parent. -/
def zipChildren (parent : Nat) :
    List Shape → (cursor hi : Nat) → List Slot → Run (List Slot × Nat)
  | [], cursor, _, content => return (content, cursor)
  | child :: siblings, cursor, hi, content => do
    let start ← boundary cursor hi child.lead
    let (content, cursor) ← takeUpTo table parent cursor start content
    let stop ← windowEnd siblings cursor hi
    let (node, cursor) ← callNode cursor stop (zipNode child cursor stop)
    zipChildren parent siblings cursor hi (content ++ (node.map Slot.node).toList)

end

/-- Zip the whole table with a module node. The root owns what its children leave. -/
def zipModule (ast : AstNode) : Run Arena := do
  let frame ← enter
  let count := (← get).builder.tokens.length
  let (content, cursor) ← call .children 0 0 count
    (zipChildren table frame (Shape.ofNodes ast.children) 0 count [])
  let (content, _) ← takeUpTo table frame cursor count content
  let root ← alloc ast.kind content
  let builder := (← get).builder
  return ⟨builder.tokens, builder.nodes, root⟩

end Zip.Cursor

end CellSyntax
