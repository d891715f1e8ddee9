/-
**Running programs from a shell.**

A program takes over the exported variables and the descriptors of the shell that runs it. The
program `sh` is a shell of its own: it runs a script that is an argument, a file or its input.

* `Machine.fresh_world`: a new shell shares the world of the one that runs it.
-/

import CellSyntax.Shell.Cat
import CellSyntax.Shell.Input
import CellSyntax.Shell.Lookup
import CellSyntax.Shell.Redirection

namespace CellSyntax.Shell

/-- The variables of a new shell. -/
def startVariables : List (List Char × Variable) :=
  [("HOME", "/root", true), ("PATH", String.ofList standardPath, true), ("IFS", " \t\n", false),
    ("OPTIND", "1", false), ("PPID", "1", false), ("PS1", "# ", false), ("PS2", "> ", false),
    ("PS4", "+ ", false)].map fun (name, value, isExported) =>
    (name.toList, { value := some value.toList, isExported })

/-- The variables that a new shell does not take over. -/
def ownVariables : List (List Char) := ["IFS".toList, "OPTIND".toList, "PPID".toList]

/-- A new shell that is run by another one. -/
def Machine.fresh (outer : Machine) (name : List Char) : Machine :=
  let taken := outer.bindings.filter fun (name, known) =>
    known.isExported && known.value.isSome && !ownVariables.contains name
  { name
    args := []
    bindings := taken.map (fun (name, known) => (name, { known with isReadOnly := false })) ++
      startVariables.filter fun (name, known) =>
        !known.isExported && (taken.lookup name).isNone
    descriptors := outer.descriptors
    directory := outer.directory
    ignored := outer.ignored ++ (Trap.inherited outer.traps).map Prod.fst
    mask := outer.mask
    limits := outer.limits
    world := outer.world }

theorem Machine.fresh_world (outer : Machine) (name : List Char) :
    (outer.fresh name).world = outer.world := rfl

section Running

variable {m : Type → Type} [Monad m] (files : FileAccess m) (evaluate : Evaluate m)

/-- Starts a new shell under a name with its options; a shell that talks to a user controls jobs
unless it is told otherwise. -/
def startShell (name : List Char) (args : List (List Char)) (reading : ShellOption.Reading) :
    Run m Unit := do
  modify fun machine => { machine with name, args }
  let controls := reading.options.contains 'i' && !reading.given.contains 'm'
  Run.useOptions (if controls then 'm' :: reading.options else reading.options)
  modify fun machine => { machine with line := 1 }

/-- Runs what a new shell is asked for by its arguments. -/
def runShell (args : List (List Char)) : Run m Nat := do
  modify fun machine => { machine with line := 0 }
  match ShellOption.read true [] args with
  | .error text => Run.fail text
  | .ok reading =>
    Run.put reading.output
    let readsInput := reading.options.contains 's'
    match reading.takesScript, reading.args with
    | true, [] => Run.fail "-c requires an argument".toList
    | true, script :: rest =>
      startShell (rest.head?.getD (← get).name) rest.tail reading
      match ← Run.settle (runText evaluate false script) with
      | .ok status => if (← get).has 's' then runInput evaluate status else return status
      | .error interrupt =>
        match ← recover? interrupt with
        | some status => runInput evaluate status
        | none => throw interrupt
    | false, args =>
      match args, readsInput with
      | name :: args, false =>
        match ← Run.entry files (asString name) with
        | .error error =>
          Run.fail ("cannot open ".toList ++ name ++ ": ".toList ++
            (refusal "No such file" error).toList)
        | .ok _ =>
          let text := (← Run.readFile files (asString name)).toOption.getD []
          startShell name args reading
          runListed evaluate text
      | args, _ =>
        startShell (← get).name args (reading.turn true 's')
        runInput evaluate 0

/-- What the user is told when a signal has ended a program. -/
def tellSignal (signal : Nat) : Run m Unit := do
  if !Signal.isQuiet signal then
    let _ ← Run.write 2 ((Signal.describe signal).toList ++ ['\n'])

/-- Runs a program, `name` being the name that it is run by. -/
def runProgram (program : Program) (name : List Char) (args : List (List Char)) : Run m Nat := do
  match program with
  | .cat => Cat.run files name args
  | .shell =>
    let outer ← get
    set (outer.fresh name)
    let status ← Run.andThen (fun inner => { outer with world := inner.world })
      (conclude evaluate (runShell files evaluate args))
    return exitCode status

/-- Why there is no program at a path, and the status for that. -/
def refuseProgram : Except SystemError FileEntry → String × Nat
  | .ok _ => (SystemError.permissionDenied.description, 126)
  | .error .notFound => ("not found", 127)
  | .error .notDirectory => ("not found", 127)
  | .error .nameTooLong => (SystemError.nameTooLong.description, 127)
  | .error error => (error.description, 126)

/-- Runs the program at a path, or says why there is none. -/
def runAt (path name : List Char) (args : List (List Char)) : Run m Nat := do
  match ← Run.entry files (asString path) with
  | .ok (.program program) => runProgram files evaluate program name args
  | found =>
    let (reason, status) := refuseProgram found
    Run.complain (name ++ ": ".toList ++ reason.toList)
    return status

/-- Runs the program at a path from a shell that goes on afterwards. -/
def runForeign (path name : List Char) (args : List (List Char)) : Run m Nat := do
  match ← Run.settle (runAt files evaluate path name args) with
  | .ok status =>
    childEnds
    return status
  | .error (.killed signal) =>
    tellSignal signal
    childEnds
    return 128 + signal
  | .error interrupt => throw interrupt

/-- Runs a program in the place of the shell, looked for in the directories of `path`. -/
def replaceShell (path name : List Char) (args : List (List Char)) : Run m Nat := do
  let refuse (reason : String) (status : Nat) : Run m Nat := do
    Run.complain (name ++ ": ".toList ++ reason.toList)
    throw (.exit status)
  match ← findProgram files path name with
  | .program path =>
    match ← Run.entry files (asString path) with
    | .ok (.program program) =>
      let status ← runProgram files evaluate program name args
      modify fun machine => { machine with traps := [] }
      throw (.exit status)
    | found => refuse (refuseProgram found).1 (refuseProgram found).2
  | .missing reason => refuse reason (if reason = "not found" then 127 else 126)
  | _ => refuse "not found" 127

end Running

end CellSyntax.Shell
