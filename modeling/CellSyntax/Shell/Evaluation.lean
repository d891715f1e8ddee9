/-
**Running commands.**

Commands are run by their structure. How deep commands run one another, and how often a loop goes
on, is bounded, so that every run comes to an end; a run for which the bound is too small is told
apart from all others.

* `evaluate_zero`: nothing is run without depth;
* `plain_simple`: a command without another one in it is run at once.
-/

import CellSyntax.Shell.Builtin
import CellSyntax.Shell.Invocation

namespace CellSyntax.Shell

/-! ### Words of a command -/

/-- The commands whose arguments may be assignments. -/
def declaringNames : List String := ["alias", "export", "local", "readonly"]

/-- A command behind `command`. -/
structure Unwrapped where
  words : List (List Char)
  /-- Whether there was such a word. -/
  isWrapped : Bool := false
  /-- Whether programs are looked for in the standard directories. -/
  usesStandardPath : Bool := false

/-- The command that is left without the words `command` in front, at most `steps` of them. -/
def unwrap : (steps : Nat) → Unwrapped → Unwrapped
  | 0, found => found
  | steps + 1, found =>
    match found.words with
    | word :: rest =>
      if word = "command".toList then
        match splitOptions ['p'] rest with
        | .ok (letters, next :: words) =>
          unwrap steps
            ⟨next :: words, true, found.usesStandardPath || !letters.isEmpty⟩
        | _ => found
      else found
    | [] => found

/-- Whether the arguments behind some words may be assignments. -/
def declares (words : List (List Char)) : Bool :=
  match (unwrap words.length { words }).words with
  | name :: _ => declaringNames.contains (String.ofList name)
  | [] => false

/-- The commands that a command is made of, run one after the other. -/
def Command.parts : Command → List Command
  | .sequence first second => parts first ++ parts second
  | command => [command]

theorem Command.plain_simple (line : Nat) (words : List Word) :
    (Command.simple line [] words []).parts = [.simple line [] words []] := rfl

/-- Whether the shell may be told to end when a command fails. -/
def Command.isChecked : Command → Bool
  | .simple .. => true
  | .pipeline _ => true
  | .subshell .. => true
  | .background _ => true
  | _ => false

/-- What running the body of a loop once comes to. -/
inductive Round where
  | done (status : Nat)
  /-- The loop goes on at once. -/
  | again
  /-- The loop is left. -/
  | left

/-- The greatest number of times that a loop goes on. -/
def maxRounds : Nat := 300000

section Running

variable {m : Type → Type} [Monad m] (files : FileAccess m) (evaluate : Evaluate m)

/-- The fields of words, `done` being those of the words before. -/
def expandWords (done : List (List Char)) : List Word → Run m (List (List Char))
  | [] => return done
  | word :: rest => do
    match declares done, word.assignment? with
    | true, some (name, value) =>
      let value ← expandValue (substitute evaluate) value
      expandWords (done ++ [name ++ '=' :: value]) rest
    | _, _ =>
      let fields ← expandFields files (substitute evaluate) [word]
      expandWords (done ++ fields) rest

/-! ### Commands that run others -/

/-- The command `.`: runs the script in a file. -/
def runFile (args : List (List Char)) : Run m Nat := do
  let (_, args) ← Run.options "" args
  match args with
  | [] => return 0
  | name :: _ =>
    let path ←
      if name.contains '/' then pure name
      else
        let found ← (candidates (← get).searchPath name).filterM fun path => do
          match ← Run.entry files (asString path) with
          | .ok (.file _) => return true
          | _ => return false
        match found with
        | path :: _ => pure path
        | [] => Run.fail (name ++ ": not found".toList)
    match ← Run.entry files (asString path) with
    | .error error =>
      Run.fail ("cannot open ".toList ++ path ++ ": ".toList ++
        (refusal "No such file" error).toList)
    | .ok _ =>
      let text := scriptText ((← Run.readFile files (asString path)).toOption.getD [])
      let outer ← get
      set { outer with running := some path }
      let result ← Run.settle (runScript evaluate true false text)
      modify fun machine => { machine with running := outer.running }
      match result with
      | .error (.return status) => return status
      | result => MonadExcept.ofExcept result

/-- The greatest number of functions that run one another. -/
def maxFunctions : Nat := 1000

/-- Runs a function. -/
def callFunction (isTested : Bool) (body : Command) (args : List (List Char)) : Run m Nat := do
  let outer ← get
  if maxFunctions ≤ outer.functionDepth then
    Run.fail ("Maximum function recursion depth (".toList ++ decimal maxFunctions ++
      ") reached".toList)
  set { outer with
    args
    functionDepth := outer.functionDepth + 1
    loops := 0
    optionIndex := 1
    optionOffset := 0 }
  let result ← Run.settle (withHidden (evaluate isTested body))
  modify fun machine => { machine with
    args := outer.args
    functionDepth := outer.functionDepth
    loops := outer.loops
    optionIndex := outer.optionIndex
    optionOffset := outer.optionOffset }
  match result with
  | .error (.return status) => return status
  | result => MonadExcept.ofExcept result

/-- Runs a command of the shell. -/
def runCommandOf (isTested isFatal : Bool) (path name : List Char) (args : List (List Char)) :
    Run m Nat := do
  let outer := (← get).running
  modify fun machine => { machine with running := some name, isCutOff := false }
  let result ← Run.settle do
    let status ←
      match String.ofList name, args with
      | ".", args => runFile files evaluate args
      | "eval", args => runText evaluate isTested ([' '].intercalate args)
      | "exec", name :: args => replaceShell files evaluate path name args
      | name, args => runBuiltin files name args
    if (← get).isCutOff then
      Run.complain (name ++ ": I/O error".toList)
      modify fun machine => { machine with isCutOff := false }
      return max status 1
    return status
  modify fun machine => { machine with running := outer }
  match result with
  | .error .failure => if isFatal then throw .failure else return 2
  | result => MonadExcept.ofExcept result

/-! ### Simple commands -/

/-- Makes the assignments of a command; with `hides`, they are for the command only. Gives them as
they are shown to the user. -/
def assignAll (hides exports : Bool) :
    List (List Char × Word) → Run m (List (List Char))
  | [] => return []
  | (name, word) :: rest => do
    let value ← expandValue (substitute evaluate) word
    if hides then hideVariable name
    Run.setVariable name value
    if exports then
      Run.modifyVariable name fun known => { known with isExported := true }
    return (name ++ '=' :: value) :: (← assignAll hides exports rest)

/-- Shows a command to the user if the shell has been asked to, at the place of a stream. -/
def trace (place : Option Nat) (words : List (List Char)) : Run m Unit := do
  let machine ← get
  if machine.has 'x' && !machine.isHushed then
    set { machine with isHushed := true }
    let lead ← expandLead evaluate ((machine.lookup "PS4".toList).getD [])
    let text := lead ++ [' '].intercalate words ++ ['\n']
    modify fun later =>
      { (place.bind fun place => later.writeAt? place text).getD later with isHushed := false }

/-- Runs a command by its words after redirections and assignments. -/
def runFound (isTested isFatal : Bool) (found : Found) (path : List Char) :
    List (List Char) → Run m Nat
  | [] => return 0
  | name :: args =>
    match found with
    | .function body => callFunction evaluate isTested body args
    | .builtin _ => runCommandOf files evaluate isTested isFatal path name args
    | .program path => runForeign files evaluate path name args
    | .missing reason => do
      Run.complain (name ++ ": ".toList ++ reason.toList)
      return 127

/-- Runs a simple command. -/
def runSimple (isTested : Bool) (line : Nat) (assignments : List (List Char × Word))
    (words : List Word) (redirections : List Redirection) : Run m Nat := do
  modify fun machine => { machine with line, innerStatus := 0 }
  let fields ← expandWords files evaluate [] words
  let machine ← get
  let isReplaced := machine.functions.any fun (name, _) => name = "command".toList
  let unwrapped := unwrap (if isReplaced then 0 else fields.length) { words := fields }
  let targets ← redirections.mapM (Redirection.target (substitute evaluate))
  let place := machine.descriptors.lookup 2
  match unwrapped.words with
  | [] =>
    redirecting files (substitute evaluate) false targets (return refusedStatus) do
      trace evaluate place (← assignAll evaluate false false assignments)
      return (← get).innerStatus
  | name :: args =>
    let isSpecial := specialNames.contains (String.ofList name)
    let isFatal := isSpecial && !unwrapped.isWrapped
    let isExec := isSpecial && name == "exec".toList
    let refused : Run m Nat := if isFatal then throw .failure else return refusedStatus
    redirecting files (substitute evaluate) isExec targets refused do
      let run : Run m Nat := do
        let exports := !isFatal || (isExec && !args.isEmpty)
        let shown ← assignAll evaluate (!isFatal) exports assignments
        trace evaluate place (shown ++ fields)
        let machine ← get
        let path := if unwrapped.usesStandardPath then standardPath else machine.searchPath
        let found ← find files unwrapped.isWrapped path name
        runFound files evaluate isTested isFatal found path unwrapped.words
      if isFatal || assignments.isEmpty then run else withHidden run

/-! ### Commands that consist of others -/

/-- Runs the body of a loop once. -/
def runOnce (run : Run m Nat) : Run m Round := do
  match ← Run.settle run with
  | .ok status => return .done status
  | .error (.leave count) => if count ≤ 1 then return .left else throw (.leave (count - 1))
  | .error (.goOn count) => if count ≤ 1 then return .again else throw (.goOn (count - 1))
  | .error interrupt => throw interrupt

/-- Runs a loop that goes on as long as its test has an outcome, at most `rounds` times; `status` is
that of the round before. -/
def runLoop (untilSuccess : Bool) (test body : Run m Nat) : (rounds : Nat) → (status : Nat) →
    Run m Nat
  | 0, _ => throw .exhausted
  | rounds + 1, status => do
    match ← runOnce test with
    | .left => return status
    | .again => runLoop untilSuccess test body rounds status
    | .done tested =>
      if (tested == 0) = untilSuccess then return status
      match ← runOnce body with
      | .left => return 0
      | .again => runLoop untilSuccess test body rounds 0
      | .done status => runLoop untilSuccess test body rounds status

/-- Runs a loop over the values of a variable. -/
def runEach (name : List Char) (body : Run m Nat) : (status : Nat) → List (List Char) → Run m Nat
  | status, [] => return status
  | _, value :: rest => do
    Run.setVariable name value
    match ← runOnce body with
    | .left => return 0
    | .again => runEach name body 0 rest
    | .done status => runEach name body status rest

/-- Runs something in one more loop. -/
def inLoop (run : Run m Nat) : Run m Nat := do
  let loops := (← get).loops
  modify fun machine => { machine with loops := loops + 1 }
  Run.andThen (fun machine => { machine with loops }) run

/-- Whether one of some patterns matches a text. -/
def matchesAny (text : List Char) : List Word → Run m Bool
  | [] => return false
  | word :: rest => do
    if Pattern.accepts (← expandPattern (substitute evaluate) word) text then return true
    matchesAny text rest

/-- Runs the first arm with a pattern that matches a text. -/
def runArms (isTested : Bool) (text : List Char) : List Arm → Run m Nat
  | [] => return 0
  | .mk patterns body :: rest => do
    if ← matchesAny evaluate text patterns then
      match body with
      | some body => evaluate isTested body
      | none => return 0
    else runArms isTested text rest

/-- Runs commands one after the other, of which `status` is that of the one before. -/
def runAll (isTested : Bool) : (status : Nat) → List Command → Run m Nat
  | status, [] => return status
  | _, command :: rest => do runAll isTested (← evaluate isTested command) rest

/-- Looks for the program that a command is if it has a plain name. -/
def trackCommand : Command → Run m Unit
  | .simple _ _ (word :: _) _ => do
    if let some name := Word.plain? word then
      if isName name then
        let _ ← find files false (← get).searchPath name
  | _ => return

/-- Runs a command, those in it being run by `evaluate`. -/
def step (isTested : Bool) : Command → Run m Nat
  | .simple line assignments words redirections =>
    runSimple files evaluate isTested line assignments words redirections
  | .pipeline commands => do
    let status ← runPipeline evaluate (trackCommand files) isTested none commands
    childEnds
    return status
  | .negation command => do return if (← evaluate true command) = 0 then 1 else 0
  | .both first second => do
    match ← evaluate true first with
    | 0 => evaluate isTested second
    | status => return status
  | .either first second => do
    match ← evaluate true first with
    | 0 => return 0
    | _ => evaluate isTested second
  | .sequence first second => runAll evaluate isTested 0 (first.parts ++ second.parts)
  | .background command => runBackground evaluate command
  | .redirected line command redirections => do
    modify fun machine => { machine with line }
    let targets ← redirections.mapM (Redirection.target (substitute evaluate))
    let isFatal := !isTested && (← get).has 'e'
    let refused : Run m Nat :=
      if isFatal then throw (.exit refusedStatus) else return refusedStatus
    redirecting files (substitute evaluate) false targets refused (evaluate isTested command)
  | .subshell line command redirections => do
    modify fun machine => { machine with line }
    let targets ← redirections.mapM (Redirection.target (substitute evaluate))
    let status ← runAside evaluate id do
      targets.forM (redirect files (substitute evaluate))
      evaluate isTested command
    childEnds
    return status
  | .conditional test body otherwise => do
    match ← evaluate true test, otherwise with
    | 0, _ => evaluate isTested body
    | _, some otherwise => evaluate isTested otherwise
    | _, none => return 0
  | .loop untilSuccess test body =>
    inLoop (runLoop untilSuccess (evaluate true test) (evaluate isTested body) maxRounds 0)
  | .each line name words body => do
    modify fun machine => { machine with line }
    let values ← expandFields files (substitute evaluate) words
    inLoop (runEach name (evaluate isTested body) 0 values)
  | .choice line word arms => do
    modify fun machine => { machine with line }
    let text ← expandText (substitute evaluate) word
    runArms evaluate isTested text arms
  | .define name body => do
    modify fun machine => { machine with
      functions := (name, body) :: machine.functions.filter fun (other, _) => other != name }
    return 0

end Running

section Evaluating

variable {m : Type → Type} [Monad m] (files : FileAccess m)

/-- Runs commands that run one another at most `depth` deep. -/
def evaluate : (depth : Nat) → Evaluate m
  | 0 => fun _ _ => throw .exhausted
  | depth + 1 => fun isTested command => do
    if (← get).has 'n' then return 0
    let inner := evaluate depth
    runTraps inner
    let status ← step files inner isTested command
    modify fun machine => { machine with status }
    meetDoom
    runTraps inner
    if !isTested && status != 0 && command.isChecked && (← get).has 'e' then throw (.exit status)
    return status

theorem evaluate_zero (isTested : Bool) (command : Command) :
    evaluate files 0 isTested command = throw Interrupt.exhausted := rfl

end Evaluating

end CellSyntax.Shell
