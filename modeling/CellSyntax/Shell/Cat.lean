/-
**The program `cat`.**

It writes files one after the other, or what it can read, and marks lines and characters as its
options say. A name in a complaint is quoted as a shell would need it.

* `Cat.quoteName_plain`: a name of letters is not quoted;
* `Cat.mark_nil`: nothing is made of nothing.
-/

import CellSyntax.Shell.Machine
import CellSyntax.Shell.Printing

namespace CellSyntax.Shell

namespace Cat

/-! ### Quoted names -/

/-- What a character of a name asks for. -/
inductive Need where
  | nothing
  /-- Nothing by itself; but it may not stand in double quotes. -/
  | single
  | quotes
  /-- Quotes, and double ones would change it. -/
  | singleQuotes
  /-- It has to be written as an escape. -/
  | escape
deriving DecidableEq, Repr

/-- What a character of a name asks for; `isFirst` and `isOnly` say where it stands. -/
def need (isFirst isOnly : Bool) (char : Char) : Need :=
  if char.toNat < 0x20 ∨ 0x7F ≤ char.toNat then .escape
  else if char.isAlphanum || "%+,-./@]_".toList.contains char then .nothing
  else if char = ' ' ∨ char = '\'' ∨ char = ':' then .quotes
  else if char = '#' ∨ char = '~' then (if isFirst then .quotes else .single)
  else if char = '\x7b' ∨ char = '\x7d' then (if isOnly then .quotes else .single)
  else .singleQuotes

/-- A byte as an escape. -/
def escape (char : Char) : List Char :=
  match char with
  | '\x07' => "\\a".toList
  | '\x08' => "\\b".toList
  | '\x0c' => "\\f".toList
  | '\n' => "\\n".toList
  | '\r' => "\\r".toList
  | '\t' => "\\t".toList
  | '\x0b' => "\\v".toList
  | char =>
    let digits := Nat.toDigits 8 char.toNat
    '\\' :: (List.replicate (3 - digits.length) '0' ++ digits)

/-- The characters of a name between single quotes, `escaping` being whether the last one was an
escape. -/
def quoteFrom (escaping : Bool) : List Char → List Char
  | [] => ['\'']
  | char :: rest =>
    if char = '\'' then "'\\''".toList ++ quoteFrom false rest
    else if need false false char = .escape then
      (if escaping then [] else "'$'".toList) ++ escape char ++ quoteFrom true rest
    else (if escaping then "''".toList else []) ++ char :: quoteFrom false rest

/-- A name with the quotes that it needs. -/
def quoteName (name : List Char) : List Char :=
  let first := (name.take 1).map (need true (name.length = 1))
  let needs := first ++ (name.drop 1).map (need false false)
  if !name.isEmpty && needs.all fun one => one = .nothing || one = .single then name
  else if name.contains '\'' && needs.all fun one => one = .nothing || one = .quotes then
    '"' :: name ++ ['"']
  else '\'' :: quoteFrom false name

theorem quoteName_plain : quoteName "abc".toList = "abc".toList := by decide

/-! ### Options -/

/-- What is done to the text. -/
structure Options where
  number : Bool := false
  numberFilled : Bool := false
  squeeze : Bool := false
  showEnds : Bool := false
  showTabs : Bool := false
  showOthers : Bool := false
deriving DecidableEq, Repr

/-- The long options with the letters that they stand for; the last two have none. -/
def longOptions : List (String × Char) :=
  [("number-nonblank", 'b'), ("number", 'n'), ("squeeze-blank", 's'), ("show-nonprinting", 'v'),
    ("show-ends", 'E'), ("show-tabs", 'T'), ("show-all", 'A'), ("help", '?'), ("version", '?')]

/-- The options with one more letter; nothing if it is none. -/
def Options.add? (options : Options) (letter : Char) : Option Options :=
  match letter with
  | 'n' => some { options with number := true }
  | 'b' => some { options with number := true, numberFilled := true }
  | 's' => some { options with squeeze := true }
  | 'E' => some { options with showEnds := true }
  | 'T' => some { options with showTabs := true }
  | 'v' => some { options with showOthers := true }
  | 'e' => some { options with showEnds := true, showOthers := true }
  | 't' => some { options with showTabs := true, showOthers := true }
  | 'A' => some { options with showEnds := true, showTabs := true, showOthers := true }
  | 'u' => some options
  | _ => none

/-- What the arguments come to. -/
inductive Request where
  | write (options : Options) (names : List (List Char))
  /-- Something is wrong with the arguments. -/
  | complain (text : List Char)
  | help

/-- The letter that a long option stands for, or what is wrong with it. -/
def longLetter (option : List Char) : Except (List Char) Char :=
  let name := option.takeWhile (· ≠ '=')
  let exact := longOptions.filter fun (long, _) => long.toList = name
  let found :=
    if exact.isEmpty then longOptions.filter fun (long, _) => name.isPrefixOf long.toList
    else exact
  match found with
  | [] => .error ("unrecognized option '--".toList ++ option ++ "'".toList)
  | [(long, letter)] =>
    if name.length < option.length then
      .error ("option '--".toList ++ long.toList ++ "' doesn't allow an argument".toList)
    else .ok letter
  | found =>
    .error ("option '--".toList ++ option ++ "' is ambiguous; possibilities:".toList ++
      found.flatMap fun (long, _) => " '--".toList ++ long.toList ++ "'".toList)

/-- The options with some more letters, or the letter that is none. -/
def Options.addAll (options : Options) : List Char → Except Char Options
  | [] => .ok options
  | letter :: rest =>
    match options.add? letter with
    | some options => options.addAll rest
    | none => .error letter

/-- What arguments come to after some options and names. -/
def request (options : Options) (names : List (List Char)) : List (List Char) → Request
  | [] => .write options names.reverse
  | arg :: rest =>
    match arg with
    | ['-', '-'] => .write options (names.reverse ++ rest)
    | '-' :: '-' :: option =>
      match longLetter option with
      | .error text => .complain text
      | .ok letter =>
        match options.add? letter with
        | some options => request options names rest
        | none => .help
    | '-' :: letter :: letters =>
      match options.addAll (letter :: letters) with
      | .ok options => request options names rest
      | .error letter => .complain ("invalid option -- '".toList ++ [letter, '\''])
    | name => request options (name :: names) rest

/-! ### Marks -/

/-- Where in the text the next character stands. -/
structure Marking where
  /-- The number of the last line that has one. -/
  line : Nat := 0
  /-- The number of line ends in a row, one less if they end a line that is not empty; nothing in
  the middle of a line. -/
  ends : Option Nat := some 0

/-- A number in front of a line. -/
def showNumber (line : Nat) : List Char :=
  let digits := Nat.toDigits 10 line
  List.replicate (6 - digits.length) ' ' ++ digits ++ ['\t']

/-- A character below 128 that does not print. -/
def showControl (char : Nat) : List Char :=
  if char = 0x7F then ['^', '?']
  else if char < 0x20 then ['^', Char.ofNat (char + 64)]
  else [Char.ofNat char]

/-- A character with a mark if it needs one; `next` is the one behind it. -/
def showChar (options : Options) (char : Char) (next : Option Char) : List Char :=
  if char = '\t' then (if options.showTabs then ['^', 'I'] else [char])
  else if options.showOthers then
    if char.toNat < 128 then showControl char.toNat
    else 'M' :: '-' :: showControl (char.toNat - 128)
  else if char = '\r' ∧ options.showEnds = true ∧ next = some '\n' then ['^', 'M']
  else [char]

/-- A text with the marks that the options ask for, and where it ends, `done` being what has been
made already, the last character first. -/
def markFrom (options : Options) (state : Marking) (done : List Char) :
    List Char → List Char × Marking
  | [] => (done.reverse, state)
  | '\n' :: rest =>
    let ends := state.ends.map (· + 1)
    if options.squeeze ∧ 2 ≤ ends.getD 0 then
      markFrom options { state with ends := some 2 } done rest
    else
      let isEmpty := ends.isSome
      let numbers := isEmpty && options.number && !options.numberFilled
      let line := if numbers then state.line + 1 else state.line
      let shown := (if numbers then showNumber line else []) ++
        if options.showEnds then ['$', '\n'] else ['\n']
      markFrom options ⟨line, some (min 2 (ends.getD 0))⟩ (shown.reverse ++ done) rest
  | char :: rest =>
    let numbers := state.ends.isSome && options.number
    let line := if numbers then state.line + 1 else state.line
    let shown := (if numbers then showNumber line else []) ++ showChar options char rest.head?
    markFrom options ⟨line, none⟩ (shown.reverse ++ done) rest

/-- A text with the marks that the options ask for, and where it ends. -/
def mark (options : Options) (state : Marking) (text : List Char) : List Char × Marking :=
  if options = {} then (text, state) else markFrom options state [] text

theorem mark_nil (options : Options) (state : Marking) : mark options state [] = ([], state) := by
  unfold mark
  split <;> rfl

/-! ### Running -/

section Running

variable {m : Type → Type} [Monad m]

/-- The text of one name, unless it cannot be read. -/
def readOne (files : FileAccess m) (name : List Char) : Run m (Except String (List Char)) :=
  if name = ['-'] then Run.readAll 0 else Run.readFile files (asString name)

/-- The file that a name is read from, and the position from which on. -/
def source? (files : FileAccess m) (name : List Char) : Run m (Option (String × Nat)) := do
  if name = ['-'] then
    match ((← get).stream? 0).map Prod.snd with
    | some (.file path position _) => return some (path, position)
    | _ => return none
  else
    match ← Run.find files (asString name) with
    | (path, .ok (.file _)) => return some (path, 0)
    | _ => return none

/-- Whether a file would be written to its own end. -/
def isOutput (files : FileAccess m) (name : List Char) : Run m Bool := do
  let machine ← get
  match (machine.stream? 1).map Prod.snd, ← source? files name with
  | some (.file output position mode), some (input, start) =>
    let ending := if mode = .append then (machine.contents output).length else position
    return output == input && decide (start < ending)
  | _, _ => return false

/-- Writes the texts of names one after the other, and says whether all goes well. -/
def writeAll (files : FileAccess m) (complain : List Char → Run m Unit) (options : Options) :
    Marking → List (List Char) → Run m Bool
  | _, [] => return true
  | state, name :: rest => do
    if ← isOutput files name then
      complain (quoteName name ++ ": input file is output file".toList)
      let _ ← writeAll files complain options state rest
      return false
    match ← readOne files name with
    | .ok text =>
      let (shown, state) := mark options state text
      if ← Run.write 1 shown then writeAll files complain options state rest
      else
        let reason : SystemError :=
          match ((← get).stream? 1).map Prod.snd with
          | some .full => .noSpace
          | _ => .badDescriptor
        complain ("write error: ".toList ++ reason.description.toList)
        return false
    | .error error =>
      complain (quoteName name ++ ": ".toList ++ error.toList)
      let _ ← writeAll files complain options state rest
      return false

/-- The status of the program with some arguments, `program` being the name it is run by. -/
def run (files : FileAccess m) (program : List Char) (args : List (List Char)) :
    Run m Nat := do
  let complain (text : List Char) : Run m Unit := do
    let _ ← Run.write 2 (program ++ ": ".toList ++ text ++ ['\n'])
  match request {} [] args with
  | .complain text =>
    complain text
    let _ ← Run.write 2 ("Try '".toList ++ program ++ " --help' for more information.\n".toList)
    return 1
  | .help =>
    let _ ← Run.write 1 ("Usage: ".toList ++ program ++ " [OPTION]... [FILE]...\n".toList)
    return 0
  | .write options names =>
    if ((← get).stream? 1).isNone then
      complain "standard output: Bad file descriptor".toList
      return 1
    let names := if names.isEmpty then [['-']] else names
    let goesWell ← writeAll files complain options {} names
    if names.contains ['-'] && ((← get).stream? 0).isNone then
      complain "closing standard input: Bad file descriptor".toList
      return 1
    return if goesWell then 0 else 1

end Running

end Cat

end CellSyntax.Shell
