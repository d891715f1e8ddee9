/-
**Running scripts.**

A script is read and run one line after the other. Parts of it run in copies of the shell that share
its world. At the end of a script, and when signals have arrived, further scripts are run.

How a single command is run is left open here: whatever runs commands is a parameter.

* `Interrupt.status?_eq_none`: a script that stops short has a status unless it is stopped from
  outside;
* `showLines_text`: the lines of a text that is no file are not shown;
* `runRest_end`: at the end of a script the status stays that of the lines before.
-/

import CellSyntax.Shell.Trap

namespace CellSyntax.Shell

/-- What runs a command and gives its status; with `isTested`, another command tests whether it
fails. -/
abbrev Evaluate (m : Type → Type) := (isTested : Bool) → Command → Run m Nat

/-- The status of a script that stops short; nothing if something else stops it. -/
def Interrupt.status? : Interrupt → Option Nat
  | exit status => some status
  | failure => some 2
  | leave _ => some 0
  | goOn _ => some 0
  | .return status => some status
  | killed _ => none
  | exhausted => none

theorem Interrupt.status?_eq_none (interrupt : Interrupt) :
    interrupt.status? = none ↔ interrupt = exhausted ∨ ∃ signal, interrupt = killed signal := by
  cases interrupt <;> simp [status?]

section Running

variable {m : Type → Type} [Monad m] (evaluate : Evaluate m)

/-! ### Scripts -/

/-- Shows the lines of a file to the user that have been begun if the shell has been asked to. -/
def showLines (isFile : Bool) (source : Source) (left : Nat) : Run m Unit := do
  if isFile then
    if (← get).has 'v' then
      let _ ← Run.write 2 (source.begun left)

theorem showLines_text (source : Source) (left : Nat) :
    (showLines false source left : Run m Unit) = pure () := rfl

/-- Runs what is left of a script, of which there are less than `steps` lines; `status` is that of
the lines before. -/
def runRest (isFile isTested : Bool) : (steps : Nat) → Source → (status : Nat) → Run m Nat
  | 0, _, _ => throw .exhausted
  | steps + 1, source, status => do
    let machine ← get
    let nextDocument := max source.nextDocument machine.nextDocument
    match Script.next { source with nextDocument, aliases := machine.aliases } with
    | .error fault =>
      showLines isFile source fault.left
      modify fun machine => { machine with line := fault.line }
      Run.fail ("Syntax error: ".toList ++ fault.message.toList)
    | .ok .done =>
      showLines isFile source 0
      modify fun machine => { machine with meetsEnd := true }
      return status
    | .ok (.line command rest) =>
      showLines isFile source rest.left
      modify fun machine => { machine with
        documents := rest.documents ++ machine.documents
        nextDocument := rest.nextDocument
        lineRead := rest.line
        meetsEnd := Script.endsAt rest }
      match command with
      | none => runRest isFile isTested steps rest status
      | some command => runRest isFile isTested steps rest (← evaluate isTested command)

theorem runRest_end [LawfulMonad m] (isTested : Bool) (steps status : Nat) (machine : Machine) :
    (ExceptT.run (runRest evaluate false isTested (steps + 1) (Script.start [] 0) status)).run
        machine = pure (.ok status, { machine with meetsEnd := true }) := by
  have isEnd (nextDocument : Nat) (aliases : Aliases) :
      Script.next { Script.start [] 0 with nextDocument, aliases } = .ok .done := rfl
  simp [runRest, isEnd, showLines_text, ExceptT.run_bind, Run.run_get, Run.run_modify]
  rfl

/-- The greatest number of lines that aliases add to a script. -/
def maxLines : Nat := 1000000

/-- Runs a script, which may be the contents of a file. -/
def runScript (isFile isTested : Bool) (text : List Char) : Run m Nat := do
  let lineRead := (← get).lineRead
  Run.andThen (fun machine => { machine with lineRead })
    (runRest evaluate isFile isTested (text.length + maxLines) (Script.start text 0) 0)

/-- Runs a text as a script. -/
def runText (isTested : Bool) (text : List Char) : Run m Nat :=
  runScript evaluate false isTested text

/-- Does what is to be done about the signals that have arrived. -/
def runTraps : Run m Unit := do
  let machine ← get
  if machine.arrived.isEmpty || machine.outerTraps.isSome then return
  let status := machine.status
  set { machine with arrived := [], savedStatus := some (machine.savedStatus.getD status) }
  let arrived := machine.arrived.eraseDups.mergeSort
  arrived.forM fun signal => do
    if let some action := (← get).traps.lookup signal then
      let _ ← runText evaluate false action
      modify fun machine => { machine with status }
  modify fun later => { later with savedStatus := machine.savedStatus }

/-- Runs a whole script and what is to be done at its end, and gives its status. -/
def conclude (run : Run m Nat) : Run m Nat := do
  let statusOf (standard : Option Nat) : Except Interrupt Nat → Run m Nat
    | .ok status => return standard.getD status
    | .error interrupt =>
      match interrupt.status? with
      | some status => return status
      | none => throw interrupt
  let status ← statusOf none (← Run.settle run)
  match (← get).traps.lookup Trap.atEnd with
  | none => return status
  | some action =>
    modify fun machine => { machine with
      status
      savedStatus := some status
      traps := Trap.set Trap.atEnd none machine.traps }
    match ← Run.settle (runText evaluate false action) with
    | .error (.return _) => return status
    | result => statusOf (some status) result

/-! ### Copies of the shell -/

/-- Notes the signal that a process of the shell has ended, if something is to be done about it. -/
def tellChildEnd : Run m Unit :=
  modify fun machine =>
    match machine.traps.lookup Signal.childEnded, machine.outerTraps with
    | some (_ :: _), none => { machine with arrived := machine.arrived ++ [Signal.childEnded] }
    | _, _ => machine

/-- A process that the shell has waited for has ended. -/
def childEnds : Run m Unit := do
  modify fun machine => { machine with jobs := Jobs.pass machine.jobs }
  tellChildEnd

/-- A copy of a shell that is to run a part of its script. -/
def Machine.copy (machine : Machine) : Machine :=
  { machine with
    traps := Trap.inherited machine.traps
    outerTraps := some (machine.outerTraps.getD machine.traps)
    jobs := []
    lineRead := 1 }

/-- The number that is left of a status when a process ends. -/
def exitCode (status : Nat) : Nat := status % 256

/-- Runs something in a copy of the shell, and gives its status. -/
def runAside (prepare : Machine → Machine) (run : Run m Nat) : Run m Nat := do
  let outer ← get
  set (prepare outer.copy)
  let status ← Run.andThen
    (fun inner => { outer with
      world := inner.world
      arrived := inner.arrived
      doom := inner.doom })
    (conclude evaluate run)
  return exitCode status

/-- What runs the commands of a substitution and gives their output. -/
def substitute : Substitute m
  | none => return []
  | some command => do
    let (place, machine) := (← get).addStream (.sink [])
    set machine
    let status ← runAside evaluate (fun copy => copy.connect 1 place) (evaluate false command)
    childEnds
    meetDoom
    let machine ← get
    set { machine.setStream place .nothing with innerStatus := status }
    return (machine.world.streams[place]?.map Stream.written).getD []

/-- Runs the commands of a pipeline, the first of which reads from a place; something is done before
each of them. One that goes on for ever ends when the next one has read enough. -/
def runPipeline (before : Command → Run m Unit) (isTested : Bool) :
    (input : Option Nat) → List Command → Run m Nat
  | _, [] => return 0
  | input, [command] => do
    before command
    runAside evaluate (from? input) (evaluate isTested command)
  | input, command :: rest => do
    before command
    let (place, machine) := (← get).addStream (.sink [])
    set machine
    let result ← Run.settle
      (runAside evaluate (fun copy => (from? input copy).connect 1 place)
        (evaluate isTested command))
    match result with
    | .ok _ => pure ()
    | .error interrupt => if interrupt ≠ .exhausted then throw interrupt
    let machine ← get
    let text := (machine.world.streams[place]?.map Stream.written).getD []
    set (machine.setStream place (.source text))
    runPipeline before isTested (some place) rest
where
  /-- The machine with its input at a place. -/
  from? (input : Option Nat) (machine : Machine) : Machine :=
    match input with
    | some place => machine.connect 0 place
    | none => machine

/-- Runs a command on the side; it has nothing to read. -/
def runBackground (command : Command) : Run m Nat := do
  let (place, machine) := (← get).addStream .nothing
  set machine
  let status ← runAside evaluate (fun copy => copy.connect 0 place) (evaluate false command)
  modify fun machine =>
    let sideRuns := machine.sideRuns + 1
    { machine with sideRuns, jobs := Jobs.add (sideNumber sideRuns) status machine.jobs }
  tellChildEnd
  return 0

end Running

end CellSyntax.Shell
