/-
**Signals and the shell.**

A script says what is done when a signal arrives, or at its end. It may send signals to the shell
itself; every other process has ended when a command runs, so that there is none to send them to.

* `Trap.ofText?_end`: what is done at the end has a name and a number.
-/

import CellSyntax.Shell.Expansion
import CellSyntax.Shell.Variables

namespace CellSyntax.Shell

namespace Trap

/-- The number that stands for the end of the script. -/
def atEnd : Nat := 0

/-- The name of what a trap is for. -/
def label (number : Nat) : String := if number = atEnd then "EXIT" else Signal.label number

/-- What a text names: the end of the script or a signal. -/
def ofText? (text : List Char) : Option Nat :=
  if Signal.sameName "EXIT" (asString text) then some atEnd
  else Signal.named? (asString text)

theorem ofText?_end : ofText? "0".toList = some atEnd := by decide +kernel

/-- The signal that a text names. -/
def signal? (text : List Char) : Option Nat := Signal.named? (asString text)

/-- What the shell is told to do about a signal. -/
def set (number : Nat) (action : Option (List Char)) (traps : List (Nat × List Char)) :
    List (Nat × List Char) :=
  let rest := traps.filter fun (other, _) => other != number
  match action with
  | some action => (number, action) :: rest
  | none => rest

/-- The traps that a copy of the shell keeps: signals are ignored there as well. -/
def inherited (traps : List (Nat × List Char)) : List (Nat × List Char) :=
  traps.filter fun (_, action) => action.isEmpty

end Trap

section Running

variable {m : Type → Type} [Monad m]

/-! ### Traps -/

/-- Sets the traps that some texts name, up to one that names nothing. -/
def setTraps (action : Option (List Char)) : List (List Char) → Run m Nat
  | [] => return 0
  | text :: rest => do
    match Trap.ofText? text with
    | none =>
      let _ ← Run.write 2 ("trap: ".toList ++ text ++ ": bad trap\n".toList)
      return 1
    | some number =>
      modify fun machine => { machine with traps := Trap.set number action machine.traps }
      setTraps action rest

/-- The command `trap`. -/
def trap (args : List (List Char)) : Run m Nat := do
  match (← Run.options "" args).2 with
  | [] =>
    let sorted := (← get).traps.mergeSort fun (first, _) (second, _) => first ≤ second
    Run.put (sorted.flatMap fun (number, action) =>
      "trap -- ".toList ++ quoteSingle action ++ ' ' :: (Trap.label number).toList ++ ['\n'])
    return 0
  | [text] => setTraps none [text]
  | action :: rest =>
    let isNumber := !action.isEmpty && action.all Text.isDigit
    if isNumber && (Trap.ofText? action).isSome then setTraps none (action :: rest)
    else setTraps (if action = ['-'] then none else some action) rest

/-! ### Sending signals -/

/-- Ends the shell if a signal has been sent to it by one of its copies, which go on. -/
def meetDoom : Run m Unit := do
  let machine ← get
  match machine.doom, machine.outerTraps with
  | some signal, none => throw (.killed signal)
  | _, _ => return

/-- The signals that a shell which talks to a user does not end at. -/
def userSignals : List Nat := [3, Signal.terminate]

/-- Sends a signal to the shell that runs the whole script. -/
def signalShell (signal : Nat) : Run m Unit := do
  let machine ← get
  if signal = 0 ∨ machine.ignored.contains signal = true then return
  let isUser := machine.has 'i' && userSignals.contains signal
  let traps := machine.outerTraps.getD machine.traps
  match Signal.isForced signal, traps.lookup signal with
  | false, some action =>
    if !action.isEmpty then
      modify fun machine => { machine with arrived := machine.arrived ++ [signal] }
  | _, _ =>
    if !Signal.isHarmless signal && !isUser then
      modify fun machine => { machine with doom := some (machine.doom.getD signal) }
      meetDoom

/-- The job that a text names. -/
def namedJob (text : List Char) : Run m Job := do
  match Jobs.named (← get).jobs text with
  | .ok job => return job
  | .error message => Run.fail message

/-- The status of sending a signal to what a text names. -/
def signalTo (signal : Nat) (text : List Char) : Run m Nat := do
  let number (digits : List Char) : Run m Nat :=
    match Number.count? digits with
    | some number => return number
    | none => Run.fail ("Illegal number: ".toList ++ digits)
  let miss : Run m Nat := do
    Run.complain "No such process\n".toList
    return 1
  match text with
  | '%' :: _ => do
    let _ ← namedJob text
    miss
  | '-' :: digits => do
    let _ ← number digits
    miss
  | digits =>
    let process ← number digits
    if process = 0 ∨ decimal process = processNumber then
      signalShell signal
      return 0
    if (← get).jobs.any fun job => job.process == process && !job.isAwaited then return 0
    miss

/-- How the command `kill` is used. -/
def killUsage : String :=
  "Usage: kill [-s sigspec | -signum | -sigspec] [pid | job]... or\nkill -l [exitstatus]"

/-- What the command `kill` is asked for by its options. -/
structure Killing where
  /-- Signals are listed. -/
  lists : Bool := false
  signal : Option Nat := none
  args : List (List Char)

/-- The letters of an argument that are options of the command `kill`. -/
def killLetters (killing : Killing) : List Char → Run m Killing
  | [] => return killing
  | 'l' :: rest => killLetters { killing with lists := true } rest
  | 's' :: rest => do
    match rest, killing.args with
    | [], [] => Run.fail "No arg for -s option".toList
    | [], name :: args => choose { killing with args } name
    | name, _ => choose killing name
  | letter :: _ => Run.fail ("Illegal option -".toList ++ [letter])
where
  /-- The signal that a text names is chosen. -/
  choose (killing : Killing) (name : List Char) : Run m Killing :=
    match Trap.signal? name with
    | some signal => return { killing with signal := some signal }
    | none => Run.fail ("invalid signal number or name: ".toList ++ name)

/-- What is asked for by the options in front of some arguments, of which there are at most
`steps`. -/
def killOptions : (steps : Nat) → Killing → Run m Killing
  | 0, killing => return killing
  | steps + 1, killing => do
    match killing.args with
    | ['-', '-'] :: args => return { killing with args }
    | ('-' :: letter :: letters) :: args =>
      killOptions steps (← killLetters { killing with args } (letter :: letters))
    | _ => return killing

/-- The command `kill`. -/
def kill (args : List (List Char)) : Run m Nat := do
  if args.isEmpty then Run.fail killUsage.toList
  let direct :=
    match args with
    | ('-' :: name) :: rest => (Trap.signal? name).map fun signal => (signal, rest)
    | _ => none
  let killing ←
    match direct with
    | some (signal, args) => pure { signal := some signal, args }
    | none => killOptions (args.length + 1) { args }
  if killing.lists then
    match killing.args with
    | [] =>
      let labels := ((List.range Signal.limit).drop 1).map Signal.label
      Run.put (String.join (("0" :: labels).map (· ++ "\n"))).toList
      return 0
    | text :: _ =>
      match Number.count? text with
      | none => Run.fail ("Illegal number: ".toList ++ text)
      | some number =>
        let signal := if 128 < number then number - 128 else number
        if signal = 0 ∨ Signal.limit ≤ signal then
          Run.fail ("invalid signal number or exit status: ".toList ++ text)
        else
          Run.put ((Signal.label signal).toList ++ ['\n'])
          return 0
  else
    if killing.args.isEmpty then Run.fail killUsage.toList
    let signal := killing.signal.getD Signal.terminate
    killing.args.foldlM
      (fun status text => do return max status (← signalTo signal text))
      0

/-! ### Waiting -/

/-- The status after waiting for what some texts name, `status` being that of what has been waited
for before. -/
def waitFor (status : Nat) : List (List Char) → Run m Nat
  | [] => return status
  | text :: rest => do
    let job ←
      match text, Number.count? text with
      | '%' :: _, _ => some <$> namedJob text
      | _, none => Run.fail ("Illegal number: ".toList ++ text)
      | _, some process => do
        let jobs : List Job := (← get).jobs
        pure (jobs.find? fun job => job.process == process)
    match job with
    | none => waitFor status rest
    | some job =>
      modify fun machine => { machine with jobs := Jobs.await (· == job) machine.jobs }
      waitFor job.status rest

/-- The command `wait`. -/
def wait (args : List (List Char)) : Run m Nat := do
  match (← Run.options "" args).2 with
  | [] =>
    modify fun machine => { machine with jobs := Jobs.await (fun _ => true) machine.jobs }
    return 0
  | args => waitFor 127 args

/-! ### Jobs -/

/-- Writes a line about a job, or the number of its process, and forgets it. -/
def showJob (onlyProcess withProcess : Bool) (job : Job) : Run m Unit := do
  let isAt (place : Nat) (jobs : Jobs) : Bool := (jobs[place]?.map Job.slot) = some job.slot
  let jobs := (← get).jobs
  Run.put (if onlyProcess then decimal job.process ++ ['\n']
    else Jobs.line withProcess (isAt 0 jobs) (isAt 1 jobs) job)
  modify fun machine => { machine with jobs := Jobs.clear job.slot machine.jobs }

/-- The command `jobs`. -/
def listJobs (args : List (List Char)) : Run m Nat := do
  let (letters, texts) ← Run.options "lp" args
  let isShown (letter : Char) : Bool := letters.getLast? = some letter
  let tell (job : Job) : Run m Unit := showJob (isShown 'p') (isShown 'l') job
  let jobs : List Job := (← get).jobs
  if texts.isEmpty then jobs.forM tell
  else texts.forM fun text => do tell (← namedJob text)
  return 0

/-- The commands `fg` and `bg`: goes on with jobs, which cannot be done. -/
def resumeJobs (args : List (List Char)) : Run m Nat := do
  let (_, texts) ← Run.options "" args
  let text := texts.head?.getD []
  let _ ← namedJob (if texts.isEmpty then ['%'] else text)
  let name := if texts.isEmpty then "(null)".toList else text
  Run.fail ("job ".toList ++ name ++ " not created under job control".toList)

end Running

end CellSyntax.Shell
