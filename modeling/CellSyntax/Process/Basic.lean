/-
**Processes.**

A program is started with arguments and an input; when it is done it leaves a status and what it
wrote to its two outputs.

* `ExitStatus.succeeded_iff`: only the exit code zero is success.
-/

import CellSyntax.Process.Signal
import CellSyntax.SystemError

namespace CellSyntax

/-- How a process ended. -/
inductive ExitStatus where
  | code (value : Nat)
  /-- It was ended by a signal. -/
  | signal (number : Nat)
deriving DecidableEq, Repr

namespace ExitStatus

/-- Whether the process succeeded. -/
def succeeded (status : ExitStatus) : Bool := status == .code 0

theorem succeeded_iff (status : ExitStatus) : status.succeeded = true ↔ status = .code 0 :=
  beq_iff_eq

/-- The wording of a status. -/
def render : ExitStatus → String
  | code value => s!"exit status: {value}"
  | signal number =>
    match Signal.names.lookup number with
    | some name => s!"signal: {number} (SIG{name})"
    | none => s!"signal: {number}"

end ExitStatus

/-- A process that has ended. -/
structure Completed where
  status : ExitStatus
  /-- What it wrote to its standard output. -/
  output : List UInt8
  /-- What it wrote to its standard error. -/
  errors : List UInt8
deriving DecidableEq, Repr

/-- What starts programs: given a program's name, its arguments and its input, it runs the program
to its end, or says why it cannot be started. -/
abbrev Host (m : Type → Type) :=
  (program : String) → (args : List String) → (input : List UInt8) →
    m (Except SystemError Completed)

end CellSyntax
