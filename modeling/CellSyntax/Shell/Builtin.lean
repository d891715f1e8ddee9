/-
**Commands of the shell itself.**

These commands work on the shell that runs them. Those that run other commands in turn are not
among them.

* `leave_outside`: outside of loops there is nothing to leave.
-/

import CellSyntax.Shell.Condition
import CellSyntax.Shell.Lookup
import CellSyntax.Shell.Printing
import CellSyntax.Shell.Trap

namespace CellSyntax.Shell

section Running

variable {m : Type → Type} [Monad m]

/-- The number that the first argument is, or another one if there is none. -/
def countArgument (standard : Nat) : List (List Char) → Run m Nat
  | [] => return standard
  | text :: _ =>
    match Number.count? text with
    | some count => return count
    | none => Run.fail ("Illegal number: ".toList ++ text)

/-! ### The course of a script -/

/-- The commands `break` and `continue`: leaves loops in one of the two ways. -/
def leave (way : Nat → Interrupt) (args : List (List Char)) : Run m Nat := do
  match ← countArgument 1 args with
  | 0 => Run.fail ("Illegal number: ".toList ++ args.head?.getD [])
  | count =>
    match min (← get).loops count with
    | 0 => return 0
    | count => throw (way count)

theorem leave_outside [LawfulMonad m] {machine : Machine} (way : Nat → Interrupt)
    (outside : machine.loops = 0) :
    (ExceptT.run (leave way [] : Run m Nat)).run machine = pure (.ok 0, machine) := by
  simp [leave, countArgument, ExceptT.run_bind, Run.run_get, outside]

/-- The command `exit`. -/
def exit (args : List (List Char)) : Run m Nat := do
  let machine ← get
  throw (.exit (← countArgument (machine.savedStatus.getD machine.status) args))

/-- The command `return`. -/
def returnStatus (args : List (List Char)) : Run m Nat := do
  throw (.return (← countArgument (← get).status args))

/-! ### Arguments and options -/

/-- The command `shift`. -/
def shift (args : List (List Char)) : Run m Nat := do
  let count ← countArgument 1 args
  let machine ← get
  if machine.args.length < count then Run.fail "can't shift that many".toList
  set { machine with args := machine.args.drop count, optionIndex := 1, optionOffset := 0 }
  return 0

/-- The command `set`. -/
def setOptions (args : List (List Char)) : Run m Nat := do
  if args.isEmpty then
    listVariables "" fun known => known.value.isSome
    return 0
  let machine ← get
  match ShellOption.read false machine.options args with
  | .error text => Run.fail text
  | .ok reading =>
    Run.put reading.output
    Run.useOptions reading.options
    if !reading.args.isEmpty || reading.dropsArgs then
      modify fun machine =>
        { machine with args := reading.args, optionIndex := 1, optionOffset := 0 }
    return 0

/-! ### Directories -/

/-- The name of the directory that relative names start from. -/
def Machine.directoryName (machine : Machine) : List Char :=
  let name := ofString ("/".intercalate (FileTree.parts machine.directory))
  '/' :: name

/-- Whether a name does not depend on the directories that `cd` looks in. -/
def isFixedName (name : List Char) : Bool :=
  let first := name.takeWhile (· ≠ '/')
  first.isEmpty || first == ['.'] || first == "..".toList

/-- The name of the directory that `cd` goes to: one in a directory of `CDPATH` if there is any. -/
def destination (files : FileAccess m) (name : List Char) : Run m (List Char) := do
  match (← get).lookup "CDPATH".toList with
  | none => return name
  | some path =>
    if isFixedName name then return name
    let found ← (candidates path name).findM? fun candidate => do
      return (← Run.entry files (asString candidate)) matches .ok .directory
    return found.getD name

/-- The command `cd`. -/
def changeDirectory (files : FileAccess m) (args : List (List Char)) : Run m Nat := do
  let (letters, args) ← Run.options "LP" args
  let machine ← get
  let (given, shows) :=
    match args with
    | [] => (machine.lookup "HOME".toList, false)
    | ['-'] :: _ => (machine.lookup "OLDPWD".toList, true)
    | name :: _ => (some name, false)
  let given := given.getD []
  let name := if given.isEmpty then ['.'] else given
  let goal ← destination files name
  let path := machine.path (asString goal)
  let followed :=
    if letters.getLast? = some 'P' then machine.fileName (asString goal)
    else if path.isEmpty then "." else path
  match ← (files.entry followed : m _) with
  | .ok .directory =>
    let old := machine.directoryName
    modify fun machine => { machine with directory := if path = "" then "" else path ++ "/" }
    Run.setVariable "OLDPWD".toList old
    Run.setVariable "PWD".toList (← get).directoryName
    if shows || goal ≠ name then Run.put ((← get).directoryName ++ ['\n'])
    return 0
  | _ => Run.fail ("can't cd to ".toList ++ given)

/-! ### Output -/

/-- The command `printf`. -/
def printFormatted (args : List (List Char)) : Run m Nat := do
  let (_, args) ← Run.options "" args
  match printf? args with
  | none => Run.fail "usage: printf format [arg ...]".toList
  | some printed =>
    printed.complaints.forM Run.complain
    Run.put printed.output.reverse.flatten
    match printed.failure with
    | some text => Run.fail text
    | none => return if printed.complaints.isEmpty then 0 else 1

/-! ### What commands stand for -/

/-- The command `command` when it does not run anything. -/
def describeCommand (files : FileAccess m) (args : List (List Char)) : Run m Nat := do
  let (letters, args) ← Run.options "pvV" args
  let machine ← get
  let path := if letters.contains 'p' then standardPath else machine.searchPath
  match args, letters.filter (· ≠ 'p') with
  | name :: _, letter :: rest => describe files ((letter :: rest).getLast? = some 'V') path name
  | _, _ => return 0

/-- The command `type`. -/
def describeAll (files : FileAccess m) (args : List (List Char)) : Run m Nat :=
  args.foldlM
    (fun status name => do
      return max status (← describe files true (← get).searchPath name))
    0

/-- The number of groups that the programs which have been found are kept in. -/
def trackedGroups : Nat := 31

/-- The command `hash`: looks for programs, or lists those that have been found. -/
def trackAll (files : FileAccess m) (args : List (List Char)) : Run m Nat := do
  let (letters, names) ← Run.options "r" args
  if !letters.isEmpty then modify fun machine => { machine with tracked := [] }
  else if names.isEmpty then
    let listed := inGroups trackedGroups (← get).tracked.reverse
    Run.put (listed.flatMap fun (_, path) => path ++ ['\n'])
  names.foldlM
    (fun status name => do
      match ← find files false (← get).searchPath name with
      | .missing reason =>
        Run.complain (name ++ ": ".toList ++ reason.toList)
        return 1
      | _ => return status)
    0

/-! ### Aliases -/

/-- The number of groups that aliases are kept in. -/
def aliasGroups : Nat := 39

/-- Says that there is no alias of some name. -/
def unknownAlias (word : String) (name : List Char) : Run m Nat := do
  let _ ← Run.write 2 (word.toList ++ ": ".toList ++ name ++ " not found\n".toList)
  return 1

/-- The command `alias`: defines aliases or lists them. -/
def setAliases (args : List (List Char)) : Run m Nat := do
  if args.isEmpty then
    Run.put ((inGroups aliasGroups (← get).aliases).flatMap (Function.uncurry aliasLine))
  args.foldlM
    (fun status arg => do
      let aliases := (← get).aliases
      match Aliases.definition? arg, aliases.lookup arg with
      | some (name, text), _ =>
        modify fun machine => { machine with aliases := Aliases.define name text aliases }
        return status
      | none, some text =>
        Run.put (aliasLine arg text)
        return status
      | none, none => unknownAlias "alias" arg)
    0

/-- The command `unalias`: forgets aliases. -/
def unalias (args : List (List Char)) : Run m Nat := do
  let (letters, names) ← Run.options "a" args
  if !letters.isEmpty then
    modify fun machine => { machine with aliases := [] }
    return 0
  names.foldlM
    (fun status name => do
      let aliases := (← get).aliases
      if (aliases.lookup name).isNone then unknownAlias "unalias" name
      else
        modify fun machine => { machine with aliases := aliases.filter (·.1 ≠ name) }
        return status)
    0

/-! ### Small commands -/

/-- Octal digits of a number, at least four. -/
def octal (number : Nat) : List Char :=
  let digits := Nat.toDigits 8 number
  List.replicate (4 - digits.length) '0' ++ digits

/-- The command `umask`. -/
def changeMask (args : List (List Char)) : Run m Nat := do
  let (letters, args) ← Run.options "S" args
  let mask := (← get).mask
  match args with
  | [] =>
    Run.put (if letters.isEmpty then octal mask.toNumber else mask.complement.render)
    Run.put ['\n']
    return 0
  | text :: _ =>
    if (text.head?.map Text.isDigit).getD false then
      if !text.all isOctalDigit then Run.fail ("Illegal number: ".toList ++ text)
      modify fun machine => { machine with mask := .ofNumber (Text.numeral 8 text) }
    else
      match mask.complement.changed? text with
      | some permissions => modify fun machine => { machine with mask := permissions.complement }
      | none => Run.fail ("Illegal mode: ".toList ++ text)
    return 0

/-- The command `ulimit`: shows a limit, or all of them, or changes one. -/
def changeLimit (args : List (List Char)) : Run m Nat := do
  let (letters, texts) ← Run.options ("HSa" ++ String.ofList Limit.letters) args
  let sides := letters.filter fun letter => letter = 'H' ∨ letter = 'S'
  let isSoft := sides.getLast? ≠ some 'H'
  let isHard := sides.getLast? ≠ some 'S'
  let letter := (letters.filter Limit.letters.contains).getLast?.getD 'f'
  let limits := (← get).limits
  match texts with
  | [] =>
    if letters.contains 'a' then Run.put (limits.flatMap (Limit.line isSoft))
    else
      for limit in limits.filter (·.letter = letter) do
        Run.put (limit.render isSoft ++ ['\n'])
  | text :: rest =>
    if !rest.isEmpty || letters.contains 'a' then Run.fail "too many arguments".toList
    let changed ← limits.mapM fun limit => do
      if limit.letter ≠ letter then return limit
      match limit.read? text with
      | none => Run.fail "bad number".toList
      | some value =>
        match limit.become? (limit.replace isSoft isHard value) with
        | .ok limit => return limit
        | .error error =>
          Run.fail ("error setting limit (".toList ++ error.description.toList ++ [')'])
    modify fun machine => { machine with limits := changed }
  return 0

/-- The command `test` as it is written with brackets. -/
def testInBrackets (files : FileAccess m) (args : List (List Char)) : Run m Nat :=
  if (args.getLast?.bind List.head?) = some ']' then test files args.dropLast
  else Run.fail "missing ]".toList

/-! ### All commands -/

/-- Runs a command of the shell itself that does not run other commands. -/
def runBuiltin (files : FileAccess m) (name : String) (args : List (List Char)) : Run m Nat :=
  match name with
  | "[" => testInBrackets files args
  | "alias" => setAliases args
  | "bg" => resumeJobs args
  | "break" => leave .leave args
  | "cd" => changeDirectory files args
  | "chdir" => changeDirectory files args
  | "command" => describeCommand files args
  | "continue" => leave .goOn args
  | "echo" => do
    Run.put (echo args)
    return 0
  | "exit" => exit args
  | "export" =>
    markVariables name (fun known => { known with isExported := true }) Variable.isExported args
  | "false" => return 1
  | "fg" => resumeJobs args
  | "getopts" => getOptions args
  | "hash" => trackAll files args
  | "jobs" => listJobs args
  | "kill" => kill args
  | "local" => declareLocal args
  | "printf" => printFormatted args
  | "pwd" => do
    let _ ← Run.options "LP" args
    Run.put ((← get).directoryName ++ ['\n'])
    return 0
  | "read" => readVariables args
  | "readonly" =>
    markVariables name (fun known => { known with isReadOnly := true }) Variable.isReadOnly args
  | "return" => returnStatus args
  | "set" => setOptions args
  | "shift" => shift args
  | "test" => test files args
  | "times" => do
    let line := "0m0.000000s 0m0.000000s\n"
    Run.put (line ++ line).toList
    return 0
  | "trap" => trap args
  | "type" => describeAll files args
  | "ulimit" => changeLimit args
  | "umask" => changeMask args
  | "unalias" => unalias args
  | "unset" => unsetAll args
  | "wait" => wait args
  | _ => return 0

end Running

end CellSyntax.Shell
