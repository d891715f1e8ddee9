/-
**The built-in host.**

No process can be started from within the library. A parser takes whatever host it is given; so that
the program can be run as a whole all the same, the two programs that parsers are made of here, `cat`
and scripts of the shell `sh`, are interpreted. Any other file can be named but not be executed.
Only the program itself and what is shown of `cat` as a parser depend on how that is done.
-/

import CellSyntax.Process.Starting
import CellSyntax.Shell.Evaluation

namespace CellSyntax

namespace Host

/-- The greatest number of commands that run one another. -/
def maxDepth : Nat := 100000

/-- How a shell ends that needs more than that. -/
def overflowSignal : Nat := 11

/-- A machine from which a program is run, with the input of the program. -/
def start (input : List UInt8) : Shell.Machine :=
  { name := []
    args := []
    bindings := Shell.startVariables
    descriptors := [(0, 0), (1, 1), (2, 2)]
    world := { streams := #[.source (Shell.ofBytes input), .sink [], .sink []] } }

/-- How a program ends. -/
def statusOf : Except Shell.Interrupt Nat → ExitStatus
  | .ok status => .code (Shell.exitCode status)
  | .error (.killed signal) => .signal signal
  | .error interrupt =>
    match interrupt.status? with
    | some status => .code (Shell.exitCode status)
    | none => .signal overflowSignal

/-- What has been written to the stream at a place. -/
def written (machine : Shell.Machine) (place : Nat) : List UInt8 :=
  match machine.world.streams[place]? with
  | some stream => Shell.toBytes stream.written
  | none => []

/-- Runs a program by its name. -/
def run {m : Type → Type} [Monad m] (files : FileAccess m) (program : Program) (name : String)
    (args : List String) (input : List UInt8) : m Completed := do
  let shell := Shell.runProgram files (Shell.evaluate files maxDepth) program
    (Shell.ofString name) (args.map Shell.ofString)
  let (result, machine) ← (ExceptT.run shell).run (start input)
  return ⟨statusOf result, written machine 1, written machine 2⟩

/-- The host that runs the two programs. -/
def builtIn {m : Type → Type} [Monad m] (files : FileAccess m) : Host m :=
  ofPrograms files (run files)

end Host

end CellSyntax
