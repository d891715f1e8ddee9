/-
**Editing sessions.**

A session holds the text of a cell, its tree and a counter that every edit and every request for a
new parse advances. A parse that comes back is installed only if its ticket is the latest.

* `Session.finishResolve_stale`: a parse for an old ticket leaves the session as it is;
* `Session.finishResolve_latest`: a parse for the latest ticket is installed;
* `Session.resolve_failed`: a parser that fails leaves text and tree as they are.
-/

import CellSyntax.Repair

namespace CellSyntax

/-- A request for a new parse. -/
structure ResolveTicket where
  id : Nat
  /-- The text to parse. -/
  source : String
deriving DecidableEq, Repr

/-- The state of one cell while it is edited. -/
structure Session where
  text : String
  tree : CellTree
  /-- How many edits and requests there have been. -/
  generation : Nat
deriving Repr

namespace Session

/-- A session that has seen no edit yet. -/
def new (text : String) (tree : CellTree) : Session := ⟨text, tree, 0⟩

/-- Apply an edit to the text and repair the tree, if there is one. -/
def applyEdit (session : Session) (edit : EditDescriptor) : Session × Option Repair :=
  let text := edit.apply session.text
  match session.tree with
  | .empty => (⟨text, .empty, session.generation + 1⟩, none)
  | .tree root =>
    let (corrected, repair) := root.repair edit text
    (⟨text, .tree corrected, session.generation + 1⟩, some repair)

/-- Ask for a new parse of the current text. -/
def beginResolve (session : Session) : Session × ResolveTicket :=
  ({ session with generation := session.generation + 1 },
    ⟨session.generation + 1, session.text⟩)

/-- Install the tree parsed for a ticket, unless something happened since; says whether it was
installed. -/
def finishResolve (session : Session) (ticket : ResolveTicket) (tree : CellTree) :
    Session × Bool :=
  if ticket.id = session.generation then ({ session with tree := tree }, true)
  else (session, false)

/-- Parse the current text anew and install the tree, if the parser gives one. -/
def resolve {Failure : Type} (session : Session) (parse : String → Except Failure CellTree) :
    Session × Except Failure Bool :=
  let (waiting, ticket) := session.beginResolve
  match parse ticket.source with
  | .error failure => (waiting, .error failure)
  | .ok tree =>
    let (finished, installed) := waiting.finishResolve ticket tree
    (finished, .ok installed)

theorem finishResolve_stale {session : Session} {ticket : ResolveTicket} (tree : CellTree)
    (stale : ticket.id ≠ session.generation) :
    session.finishResolve ticket tree = (session, false) :=
  if_neg stale

theorem finishResolve_latest {session : Session} {ticket : ResolveTicket} (tree : CellTree)
    (latest : ticket.id = session.generation) :
    session.finishResolve ticket tree = ({ session with tree := tree }, true) :=
  if_pos latest

theorem resolve_failed {Failure : Type} {session : Session}
    {parse : String → Except Failure CellTree} {failure : Failure}
    (failed : parse session.text = .error failure) :
    session.resolve parse =
      ({ session with generation := session.generation + 1 }, .error failure) := by
  simp [resolve, beginResolve, failed]

end Session

end CellSyntax
