/-
**Redirections.**

A redirection gives a descriptor another stream: a file that is opened, the stream of another
descriptor, or a text from the script. Names are expanded before the first file is opened.

* `Machine.restore_nil`: without redirections there is nothing to undo.
-/

import CellSyntax.Shell.Expansion

namespace CellSyntax.Shell

/-- What a descriptor is to stand for. -/
inductive Target where
  | file (mode : OpenMode) (name : List Char)
  /-- The same as another descriptor. -/
  | same (descriptor : Nat)
  /-- Nothing. -/
  | closed
  | document (number : Nat)
deriving DecidableEq, Repr

section Redirecting

variable {m : Type → Type} [Monad m]

/-! ### Targets -/

/-- Gives up because what a redirection should name is no descriptor. This is told like a fault of
the script, by the line up to which it has been read. -/
def failDescriptor {Value : Type} : Run m Value := do
  modify fun machine => { machine with line := machine.lineRead }
  Run.fail "Syntax error: Bad fd number".toList

/-- The descriptor of a redirection and what it is to stand for. -/
def Redirection.target (substitute : Substitute m) : Redirection → Run m (Nat × Target)
  | .file descriptor mode name => return (descriptor, .file mode (← expandText substitute name))
  | .duplicate descriptor _ word => do
    match ← expandText substitute word with
    | ['-'] => return (descriptor, .closed)
    | [digit] =>
      if Text.isDigit digit then return (descriptor, .same (Text.digitValue digit))
      else failDescriptor
    | _ => failDescriptor
  | .document descriptor number => return (descriptor, .document number)

/-! ### Opening files -/

/-- Why a file cannot be opened, `missing` being what is said if it does not exist. -/
def refusal (missing : String) : SystemError → String
  | .notFound => missing
  | .notDirectory => missing
  | error => error.description

/-- The place of a new stream. -/
def addStream (stream : Stream) : Run m Nat := do
  let (place, machine) := (← get).addStream stream
  set machine
  return place

/-- The place of a file that is opened to be read. -/
def openToRead (files : FileAccess m) (name : List Char) : Run m Nat := do
  let refuse (reason : String) : Run m Nat :=
    Run.fail ("cannot open ".toList ++ name ++ ": ".toList ++ reason.toList)
  match ← Run.find files (asString name) with
  | (_, .error error) => refuse (refusal "No such file" error)
  | (path, .ok (.file contents)) =>
    let machine ← get
    if (machine.world.files.lookup path).isNone then
      set (machine.setFile path (ofString contents))
    addStream (.file path 0 .read)
  | (_, .ok .directory) => addStream .directory
  | (_, .ok (.program _)) => addStream .nothing
  | (_, .ok .nothing) => addStream .nothing
  | (_, .ok .full) => addStream .full
  | (_, .ok (.descriptor number)) =>
    match (← get).descriptors.lookup number with
    | some place => return place
    | none => refuse "No such file"

/-- The name of the directory that a file is in. -/
def parent (name : String) : String :=
  match "/".intercalate (name.splitOn "/").dropLast with
  | "" => if name.startsWith "/" then "/" else "."
  | parent => parent

/-- The place of a file that is opened to be written. -/
def openToWrite (files : FileAccess m) (mode : OpenMode) (name : List Char) : Run m Nat := do
  let refuse (reason : String) : Run m Nat :=
    Run.fail ("cannot create ".toList ++ name ++ ": ".toList ++ reason.toList)
  let text := asString name
  let create (path : String) (contents : List Char) : Run m Nat := do
    let empties := mode == .write || mode == .overwrite
    modify fun machine => machine.setFile path (if empties then [] else contents)
    addStream (.file path 0 (if mode = .overwrite then .write else mode))
  let (path, found) ← Run.find files text
  match found with
  | .ok (.file _) =>
    if mode = .write ∧ (← get).has 'C' = true then refuse "File exists"
    else
      match ← Run.readFile files text with
      | .ok contents => create path contents
      | .error reason => refuse reason
  | .ok .directory =>
    if mode = .write ∧ (← get).has 'C' = true then
      Run.fail ("cannot open ".toList ++ name ++ ": Is a directory".toList)
    else refuse SystemError.isDirectory.description
  | .ok (.program _) => addStream .nothing
  | .ok .nothing => addStream .nothing
  | .ok .full => addStream .full
  | .ok (.descriptor number) =>
    match (← get).descriptors.lookup number with
    | some place => return place
    | none => refuse "Directory nonexistent"
  | .error .notFound =>
    let known : Except SystemError FileEntry ← files.entry ((← get).fileName text)
    let isDescriptor := known matches .ok _
    match ← Run.entry files (parent text) with
    | .ok .directory =>
      if text = "" ∨ isDescriptor = true then refuse "Directory nonexistent"
      else if text.endsWith "/" then refuse SystemError.isDirectory.description
      else create path []
    | _ => refuse "Directory nonexistent"
  | .error error => refuse (refusal "Directory nonexistent" error)

/-! ### Redirecting -/

/-- Makes a descriptor stand for something else. -/
def redirect (files : FileAccess m) (substitute : Substitute m) : Nat × Target → Run m Unit
  | (descriptor, .closed) => modify fun machine => machine.disconnect descriptor
  | (descriptor, .same other) => do
    match (← get).descriptors.lookup other with
    | some place => modify fun machine => machine.connect descriptor place
    | none =>
      if descriptor ≠ other then Run.fail (decimal other ++ ": Bad file descriptor".toList)
  | (descriptor, .document number) => do
    let word := ((← get).documents.lookup number).getD []
    let atoms ← expandPieces substitute {} word
    let place ← addStream (.source (Atom.text atoms))
    modify fun machine => machine.connect descriptor place
  | (descriptor, .file mode name) => do
    let place ← if mode = .read then openToRead files name else openToWrite files mode name
    modify fun machine => machine.connect descriptor place

/-- The machine in which descriptors stand for what they stood for before. -/
def Machine.restore (machine before : Machine) (descriptors : List Nat) : Machine :=
  descriptors.foldl
    (fun machine descriptor =>
      match before.descriptors.lookup descriptor with
      | some place => machine.connect descriptor place
      | none => machine.disconnect descriptor)
    machine

theorem Machine.restore_nil (machine before : Machine) : machine.restore before [] = machine := rfl

/-- Runs something with redirections, which are undone afterwards unless they are kept. If one
fails, `refused` is run instead. -/
def redirecting (files : FileAccess m) (substitute : Substitute m) (keeps : Bool)
    (targets : List (Nat × Target)) (refused run : Run m Nat) : Run m Nat := do
  let before ← get
  let undo (machine : Machine) : Machine := machine.restore before (targets.map Prod.fst)
  match ← Run.settle (targets.forM (redirect files substitute)) with
  | .error .failure =>
    modify undo
    refused
  | .error interrupt => throw interrupt
  | .ok _ => if keeps then run else Run.andThen undo run

/-- The status of a command that cannot be redirected. -/
def refusedStatus : Nat := 2

end Redirecting

end CellSyntax.Shell
