/-
**Jobs.**

What a shell runs in copies of itself are its jobs. Those that are run on the side are kept with
their status until they have been waited for and their slot is needed again.

* `Jobs.await_slots`: waiting for jobs leaves each in its slot;
* `Jobs.named_empty`: without jobs no text names one.
-/

import CellSyntax.Shell.Bytes
import CellSyntax.Text.Decimal

namespace CellSyntax.Shell

/-- Something that has been run on the side. -/
structure Job where
  /-- The number that the user knows it by. -/
  slot : Nat
  /-- The number of its process. -/
  process : Nat
  status : Nat
  /-- It has been waited for. -/
  isAwaited : Bool := false
deriving DecidableEq, Repr

/-- Jobs, the last one first. -/
abbrev Jobs := List Job

namespace Jobs

/-- Whether a new job can have a slot. -/
def isFree (jobs : Jobs) (slot : Nat) : Bool :=
  jobs.all fun job => job.slot != slot || job.isAwaited

/-- The slot of a new job. -/
def freeSlot (jobs : Jobs) : Nat :=
  (((List.range jobs.length).map (· + 1)).find? (isFree jobs)).getD (jobs.length + 1)

/-- The jobs without the one in a slot. -/
def clear (slot : Nat) (jobs : Jobs) : Jobs := jobs.filter fun job => job.slot != slot

/-- The jobs after something else has been run in the slot of a new job. -/
def pass (jobs : Jobs) : Jobs := clear (freeSlot jobs) jobs

/-- The jobs with a new one. -/
def add (process status : Nat) (jobs : Jobs) : Jobs :=
  { slot := freeSlot jobs, process, status } :: pass jobs

/-- The jobs of which some have been waited for. -/
def await (isMeant : Job → Bool) (jobs : Jobs) : Jobs :=
  jobs.map fun job => { job with isAwaited := job.isAwaited || isMeant job }

theorem await_slots (isMeant : Job → Bool) (jobs : Jobs) :
    (await isMeant jobs).map Job.slot = jobs.map Job.slot := by
  simp [await, Function.comp_def]

/-- The job that a text names, or else what is wrong. -/
def named (jobs : Jobs) (text : List Char) : Except (List Char) Job :=
  let orElse (message : String) (job : Option Job) : Except (List Char) Job :=
    match job with
    | some job => .ok job
    | none => .error message.toList
  match text with
  | ['%'] | ['%', '%'] | ['%', '+'] => orElse "No current job" jobs.head?
  | ['%', '-'] => orElse "No previous job" jobs[1]?
  | '%' :: rest =>
    let isNumber := !rest.isEmpty && rest.all Text.isDigit
    let found := jobs.find? fun job => isNumber && job.slot == Text.numeral 10 rest
    orElse ("No such job: " ++ String.ofList text) found
  | text => .error ("No such job: ".toList ++ text)

theorem named_empty (text : List Char) : ∃ message, named [] text = .error message := by
  unfold named
  split <;> simp

/-- The width of a line about a job up to the command. -/
def lineWidth : Nat := 33

/-- A line about a job, which may be the first or the second one. -/
def line (withProcess isFirst isSecond : Bool) (job : Job) : List Char :=
  let mark := if isFirst then '+' else if isSecond then '-' else ' '
  let state :=
    if job.status = 0 then "Done".toList else "Done(".toList ++ decimal job.status ++ [')']
  let process := if withProcess then decimal job.process ++ [' '] else []
  let text := '[' :: decimal job.slot ++ "] ".toList ++ mark :: ' ' :: process ++ state
  text ++ List.replicate (lineWidth - text.length) ' ' ++ ['\n']

end Jobs

end CellSyntax.Shell
