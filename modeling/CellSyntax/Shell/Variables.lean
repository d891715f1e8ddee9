/-
**Commands about variables.**

Variables are exported, made unchangeable and unset; a function has variables of its own; and
variables are given values by what is read or by the options that a script looks for.

* `takeLine_newline`: a line ends at the first line end.
-/

import CellSyntax.Shell.Listing
import CellSyntax.Shell.Options

namespace CellSyntax.Shell

/-! ### Lists of variables -/

section Running

variable {m : Type → Type} [Monad m]

/-- Writes some of the variables in the order of their names, each behind a word. -/
def listVariables (word : String) (shows : Variable → Bool) : Run m Unit := do
  let shown := (← get).bindings.filter fun (_, known) => shows known
  let sorted := shown.mergeSort fun (first, _) (second, _) => !decide (second < first)
  Run.put (sorted.flatMap fun (name, known) =>
    let value :=
      match known.value with
      | some value => '=' :: quoteSingle value
      | none => []
    (if word = "" then [] else word.toList ++ [' ']) ++ name ++ value ++ ['\n'])

/-! ### Marks -/

/-- The name in an argument, and the value that it is to have. -/
def splitArgument (arg : List Char) : List Char × Option (List Char) :=
  match arg.dropWhile (· ≠ '=') with
  | [] => (arg, none)
  | _ :: value => (arg.takeWhile (· ≠ '='), some value)

/-- The commands `export` and `readonly`: marks variables, or lists those that have a mark. -/
def markVariables (word : String) (mark : Variable → Variable) (shows : Variable → Bool)
    (args : List (List Char)) : Run m Nat := do
  let (letters, args) ← Run.options "p" args
  if letters.isEmpty && !args.isEmpty then
    args.forM fun arg => do
      match splitArgument arg, (← get).known? (splitArgument arg).1 with
      | (name, none), some known => modify fun machine => machine.assign name (mark known)
      | (name, none), none => Run.changeVariable name mark
      | (name, some value), _ =>
        Run.setVariable name value
        Run.modifyVariable name mark
  else listVariables word shows
  return 0

/-- The command `unset`. -/
def unsetAll (args : List (List Char)) : Run m Nat := do
  let (letters, names) ← Run.options "vf" args
  names.forM fun arg => do
    let name := (splitArgument arg).1
    if letters.getLast? = some 'f' then
      modify fun machine =>
        { machine with functions := machine.functions.filter fun (other, _) => other != name }
    else
      if name = "OPTIND".toList then Run.restartOptions []
      Run.changeVariable name id
      modify fun machine => machine.forget name
  return 0

/-! ### Variables of a function -/

/-- Keeps what is known of a variable, to be put back when the function ends. -/
def hideVariable (name : List Char) : Run m Unit :=
  modify fun machine =>
    match machine.hidden with
    | [] => machine
    | frame :: rest =>
      let bindings := (name, machine.known? name) :: frame.bindings
      { machine with hidden := { frame with bindings } :: rest }

/-- Keeps the options of the shell, to be put back when the function ends. -/
def hideOptions : Run m Unit :=
  modify fun machine =>
    match machine.hidden with
    | [] => machine
    | frame :: rest =>
      let options := frame.options.getD machine.options
      { machine with hidden := { frame with options } :: rest }

/-- The command `local`. -/
def declareLocal (args : List (List Char)) : Run m Nat := do
  if (← get).functionDepth = 0 then Run.fail "not in a function".toList
  args.forM fun arg => do
    let (name, value) := splitArgument arg
    if arg = ['-'] then hideOptions
    else
      let isKnown := ((← get).known? name).isSome
      hideVariable name
      match value with
      | some value => Run.setVariable name value
      | none => if !isKnown then Run.changeVariable name id
  return 0

/-- Runs something that may hide variables, which are put back afterwards. -/
def withHidden (run : Run m Nat) : Run m Nat := do
  modify fun machine => { machine with hidden := {} :: machine.hidden }
  Run.andThen
    (fun machine =>
      let frame := machine.hidden.head?.getD {}
      let options := frame.options.getD machine.options
      let machine := frame.bindings.foldl
        (fun machine (name, known) =>
          match known with
          | some known => machine.assign name known
          | none => machine.forget name)
        machine
      { machine with options, hidden := machine.hidden.tail })
    run

/-! ### Reading -/

/-- The first line of a text: its characters and whether each may separate words, what follows the
line, and whether it has an end. With `isRaw`, a backslash has no meaning; `isEscaped` is whether
there is one in front of the text. -/
def takeLine (isRaw isEscaped : Bool) : List Char → List (Char × Bool) × List Char × Bool
  | [] => ([], [], false)
  | char :: rest =>
    if isEscaped then
      let (line, left, ended) := takeLine isRaw false rest
      (if char = '\n' then line else (char, false) :: line, left, ended)
    else if char = '\n' then ([], rest, true)
    else if char = '\\' ∧ isRaw = false then takeLine isRaw true rest
    else
      let (line, left, ended) := takeLine isRaw false rest
      (if char = Char.ofNat 0 then line else (char, true) :: line, left, ended)

theorem takeLine_newline (isRaw : Bool) (rest : List Char) :
    takeLine isRaw false ('\n' :: rest) = ([], rest, true) := by
  simp [takeLine]

/-- Whether a character separates words. -/
def separates (separators : List Char) : Char × Bool → Bool
  | (char, mayIt) => mayIt && separators.contains char

/-- Whether a character separates words, and any number of it does so only once. -/
def isLoose (separators : List Char) (char : Char × Bool) : Bool :=
  separates separators char && " \t\n".toList.contains char.1

/-- A line without the separator at its front. -/
def dropSeparator (separators : List Char) (line : List (Char × Bool)) : List (Char × Bool) :=
  match line.dropWhile (isLoose separators) with
  | [] => []
  | char :: rest =>
    (if separates separators char then rest else char :: rest).dropWhile (isLoose separators)

/-- The words of a line, of which the last one of `count` is all that is left; but a separator
behind a last single word is left out. -/
def splitLine (separators : List Char) : (count : Nat) → List (Char × Bool) → List (List Char)
  | 0, _ => []
  | count + 1, line =>
    let word := line.takeWhile fun char => !separates separators char
    let rest := dropSeparator separators (line.drop word.length)
    match count, rest with
    | 0, [] => [word.map Prod.fst]
    | 0, _ =>
      [(line.reverse.dropWhile (isLoose separators)).reverse.map Prod.fst]
    | count, rest => word.map Prod.fst :: splitLine separators count rest

/-- The command `read`. -/
def readVariables (args : List (List Char)) : Run m Nat := do
  let (isRaw, names) ← readOptions args
  if names.isEmpty then Run.fail "arg count".toList
  let (line, left, ended) := takeLine isRaw false (← Run.unread 0)
  Run.take 0 left
  let separators := (← get).separators
  let words := splitLine separators names.length (line.dropWhile (isLoose separators))
  (names.zip words).forM fun (name, word) => Run.setVariable name word
  return if ended then 0 else 1
where
  /-- Whether a backslash has no meaning, and the names of the variables; the option `p` has a text
  behind it. -/
  readOptions : List (List Char) → Run m (Bool × List (List Char))
    | ['-', '-'] :: names => return (false, names)
    | ('-' :: letter :: letters) :: rest => do
      let front := (letter :: letters).takeWhile (· ≠ 'p')
      let isRaw := !front.isEmpty
      if let some other := front.find? (· ≠ 'r') then
        Run.fail ("Illegal option -".toList ++ [other])
      match (letter :: letters).drop front.length, rest with
      | ['p'], [] => Run.fail "No arg for -p option".toList
      | ['p'], _ :: rest => do
        let (isRawToo, names) ← readOptions rest
        return (isRaw || isRawToo, names)
      | _, rest => do
        let (isRawToo, names) ← readOptions rest
        return (isRaw || isRawToo, names)
    | names => return (false, names)

/-! ### Options of a script -/

/-- The text of an argument that has not been looked at. -/
def unseen (args : List (List Char)) (index offset : Nat) : List Char :=
  if index ≤ 1 ∨ offset = 0 then [] else ((args[index - 2]?).getD []).drop offset

/-- What the search for an option comes to. -/
structure OptionFound where
  /-- The letter of the option, or a mark that there is none. -/
  letter : Char
  /-- The value of `OPTARG`. -/
  value : Option (List Char)
  complaint : Option (List Char) := none
  index : Nat
  offset : Nat := 0
  isOver : Bool := false

/-- The next option in arguments, of which `index` says the first that has not been looked at, and
`offset` how much of the one before has been. -/
def nextOption (known : List Char) (args : List (List Char)) (index offset : Nat) :
    OptionFound :=
  let isQuiet := known.head? = some ':'
  let (text, index, offset) :=
    match unseen args index offset, args[index - 1]? with
    | [], some ('-' :: letters) => (letters, index + 1, 1)
    | [], _ => ([], index, 0)
    | text, _ => (text, index, offset)
  match text with
  | [] => { letter := '?', value := none, index := if offset = 0 then index else index - 1,
            isOver := true }
  | letter :: rest =>
    if letter = '-' ∧ offset = 1 ∧ rest = [] then
      { letter := '?', value := none, index, isOver := true }
    else
      let next := if rest.isEmpty then 0 else offset + 1
      match known.dropWhile (· ≠ letter), letter with
      | _, ':' => unknown isQuiet letter index next
      | [], _ => unknown isQuiet letter index next
      | _ :: ':' :: _, _ =>
        match rest, args[index - 1]? with
        | [], some value => { letter, value := some value, index := index + 1 }
        | [], none =>
          if isQuiet then { letter := ':', value := some [letter], index }
          else
            { letter := '?', value := none, index,
              complaint := some ("No arg for -".toList ++ letter :: " option\n".toList) }
        | value, _ => { letter, value := some value, index }
      | _, _ => { letter, value := some [], index, offset := next }
where
  /-- What the search comes to if a letter is no option. -/
  unknown (isQuiet : Bool) (letter : Char) (index offset : Nat) : OptionFound :=
    if isQuiet then { letter := '?', value := some [letter], index, offset }
    else
      { letter := '?', value := none, index, offset,
        complaint := some ("Illegal option -".toList ++ [letter, '\n']) }

/-- The command `getopts`. -/
def getOptions (args : List (List Char)) : Run m Nat := do
  match args with
  | known :: name :: rest =>
    let machine ← get
    let args := if rest.isEmpty then machine.args else rest
    let found := nextOption known args machine.optionIndex machine.optionOffset
    if let some complaint := found.complaint then
      let _ ← Run.write 2 complaint
    match found.value with
    | some value => Run.setVariable "OPTARG".toList value
    | none =>
      if !found.isOver then modify fun machine => machine.forget "OPTARG".toList
    Run.setVariable "OPTIND".toList (decimal found.index)
    modify fun machine => { machine with optionOffset := found.offset }
    Run.setVariable name [found.letter]
    return if found.isOver then 1 else 0
  | _ => Run.fail "Usage: getopts optstring var [arg...]".toList

end Running

end CellSyntax.Shell
