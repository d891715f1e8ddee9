/-
**Options of commands and of the shell.**

Options are letters behind a minus sign in front of the other arguments. The options of the shell
have names as well, and a plus sign turns them off.

* `splitOptions_end`: two minus signs end the options.
-/

import CellSyntax.Shell.Machine

namespace CellSyntax.Shell

/-! ### Options of a command -/

/-- The letters of the options in front of some arguments, and the other arguments; or else a
letter that is no option. -/
def splitOptions (known : List Char) :
    List (List Char) → Except Char (List Char × List (List Char))
  | ['-', '-'] :: rest => .ok ([], rest)
  | ('-' :: letter :: letters) :: rest =>
    match (letter :: letters).find? fun letter => !known.contains letter with
    | some letter => .error letter
    | none => (splitOptions known rest).map fun (later, args) => (letter :: letters ++ later, args)
  | args => .ok ([], args)

theorem splitOptions_end (known : List Char) (args : List (List Char)) :
    splitOptions known (['-', '-'] :: args) = .ok ([], args) := by
  simp [splitOptions]

/-- The letters of the options in front of some arguments, and the other arguments. -/
def Run.options {m : Type → Type} [Monad m] (known : String) (args : List (List Char)) :
    Run m (List Char × List (List Char)) :=
  match splitOptions known.toList args with
  | .ok split => return split
  | .error letter => Run.fail ("Illegal option -".toList ++ [letter])

/-! ### Options of the shell -/

namespace ShellOption

/-- The options of the shell with their letters; the last two do nothing. -/
def names : List (String × Option Char) :=
  [("errexit", some 'e'), ("noglob", some 'f'), ("ignoreeof", some 'I'),
    ("interactive", some 'i'), ("monitor", some 'm'), ("noexec", some 'n'), ("stdin", some 's'),
    ("xtrace", some 'x'), ("verbose", some 'v'), ("vi", some 'V'), ("emacs", some 'E'),
    ("noclobber", some 'C'), ("allexport", some 'a'), ("notify", some 'b'),
    ("nounset", some 'u'), ("privileged", some 'p'), ("nolog", none), ("debug", none)]

/-- The options with one of them turned on or off. -/
def turn (on : Bool) (letter : Char) (options : List Char) : List Char :=
  let rest := options.filter (· ≠ letter)
  if on then letter :: rest else rest

/-- All options and whether they are on, to be read by people or by the shell. -/
def table (forPeople : Bool) (isOn : Option Char → Bool) : List Char :=
  let lines := names.map fun (name, letter) =>
    if forPeople then
      name.toList ++ List.replicate (16 - name.length) ' ' ++
        (if isOn letter then "on".toList else "off".toList)
    else (if isOn letter then "set -o ".toList else "set +o ".toList) ++ name.toList
  let lines := if forPeople then "Current option settings".toList :: lines else lines
  (lines.map (· ++ ['\n'])).flatten

/-- What reading options has come to. -/
structure Reading where
  /-- The letters of the options that are on. -/
  options : List Char
  /-- The letters of the options that have been turned on or off. -/
  given : List Char := []
  /-- The arguments behind. -/
  args : List (List Char)
  /-- Whether the first of them is a script. -/
  takesScript : Bool := false
  /-- Whether there are no arguments any more. -/
  dropsArgs : Bool := false
  /-- What is written. -/
  output : List Char := []

/-- Whether an option is shown as being on. Those that the program has not been given yet are. -/
def Reading.shows (ofProgram : Bool) (reading : Reading) : Option Char → Bool
  | some letter => reading.options.contains letter || (ofProgram && !reading.given.contains letter)
  | none => ofProgram

/-- What reading an option comes to. -/
def Reading.turn (on : Bool) (letter : Char) (reading : Reading) : Reading :=
  { reading with
    options := ShellOption.turn on letter reading.options
    given := letter :: reading.given }

/-- Options with the letters of one argument; only those of the program may ask for a script. -/
def readLetters (ofProgram on : Bool) : List Char → Reading → Except (List Char) Reading
  | [], reading => .ok reading
  | letter :: letters, reading => do
    if letter = 'o' then
      match reading.args with
      | [] =>
        readLetters ofProgram on letters
          { reading with output := reading.output ++ table on (reading.shows ofProgram) }
      | name :: args =>
        match names.lookup (String.ofList name) with
        | none => .error ("Illegal option -o ".toList ++ name)
        | some option =>
          let reading := { reading with args }
          readLetters ofProgram on letters
            ((option.map fun letter => reading.turn on letter).getD reading)
    else if ofProgram && letter == 'c' then
      readLetters ofProgram on letters { reading with takesScript := true }
    else if ofProgram && letter == 'l' then readLetters ofProgram on letters reading
    else if names.any fun (_, option) => option = some letter then
      readLetters ofProgram on letters (reading.turn on letter)
    else .error ("Illegal option -".toList ++ [letter])

/-- Options in front of the arguments, of which there are at most `steps`. -/
def readAll (ofProgram : Bool) : (steps : Nat) → Reading → Except (List Char) Reading
  | 0, reading => .ok reading
  | steps + 1, reading =>
    match reading.args with
    | ['-'] :: args =>
      let options :=
        if ofProgram then reading.options
        else turn false 'x' (turn false 'v' reading.options)
      .ok { reading with options, args }
    | ['-', '-'] :: args => .ok { reading with args, dropsArgs := args.isEmpty }
    | ('-' :: letters) :: args => do
      readAll ofProgram steps (← readLetters ofProgram true letters { reading with args })
    | ('+' :: letters) :: args => do
      readAll ofProgram steps (← readLetters ofProgram false letters { reading with args })
    | _ => .ok reading

/-- The options in front of some arguments, or else what is wrong with them. -/
def read (ofProgram : Bool) (options : List Char) (args : List (List Char)) :
    Except (List Char) Reading :=
  readAll ofProgram (args.length + 1) { options, args }

end ShellOption

section Running

variable {m : Type → Type} [Monad m]

/-- Takes note of the options that are on. There is no terminal, so that jobs cannot be
controlled. -/
def Run.useOptions (options : List Char) : Run m Unit := do
  modify fun machine => { machine with options := ShellOption.turn false 'm' options }
  if options.contains 'm' then
    Run.complain "can't access tty; job control turned off".toList

end Running

end CellSyntax.Shell
