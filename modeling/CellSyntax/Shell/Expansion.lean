/-
**Expanding words.**

What stands for something else in a word is replaced by its value. Values that are not quoted are
split into fields at separators, and a field with a pattern in it stands for the names of files.

* `fields_text`: a word without values is one field.
-/

import CellSyntax.Shell.Arithmetic
import CellSyntax.Shell.Machine
import CellSyntax.Shell.Pattern

namespace CellSyntax.Shell

/-- A part of an expanded word. -/
inductive Atom where
  /-- With `splits`, a separator ends a field. -/
  | char (glyph : Glyph) (splits : Bool)
  /-- There is a field even if it is empty. -/
  | mark
  /-- A field ends here. -/
  | gap
deriving DecidableEq, Repr

/-- How a word is expanded. -/
structure Manner where
  /-- The arguments of the script are fields of their own. -/
  toFields : Bool := false
  /-- Bare characters are split as values are. -/
  isLoose : Bool := false
  /-- The word is a list of paths, in each of which a tilde stands for the home directory. -/
  isPath : Bool := false

namespace Atom

/-- The atoms of a value. -/
def ofValue (quoted : Bool) (value : List Char) : List Atom :=
  value.map fun char => .char ⟨char, quoted⟩ (!quoted)

/-- The pattern that atoms make up. -/
def pattern (atoms : List Atom) : Pattern :=
  atoms.filterMap fun atom =>
    match atom with
    | .char glyph _ => some glyph
    | _ => none

/-- The text that atoms make up. -/
def text (atoms : List Atom) : List Char := (pattern atoms).text

end Atom

/-! ### Fields -/

/-- What is known while fields are made of atoms; the last field and the last glyph stand first. -/
structure Splitting where
  done : List Pattern := []
  current : Option Pattern := none
  /-- The last field was ended by spaces, which may go with another separator. -/
  afterSpace : Bool := false

namespace Splitting

/-- The current field ended. -/
def close (state : Splitting) : Splitting :=
  match state.current with
  | some field => ⟨field.reverse :: state.done, none, true⟩
  | none => state

/-- One more atom. -/
def step (separators : List Char) (state : Splitting) : Atom → Splitting
  | .mark => ⟨state.done, some (state.current.getD []), false⟩
  | .gap => { state.close with afterSpace := false }
  | .char glyph splits =>
    if splits && separators.contains glyph.char then
      if " \t\n".toList.contains glyph.char then state.close
      else
        match state.current with
        | some field => ⟨field.reverse :: state.done, none, false⟩
        | none =>
          if state.afterSpace then { state with afterSpace := false }
          else ⟨[] :: state.done, none, false⟩
    else ⟨state.done, some (glyph :: state.current.getD []), false⟩

end Splitting

/-- The fields that atoms make up. -/
def fields (separators : List Char) (atoms : List Atom) : List Pattern :=
  (atoms.foldl (Splitting.step separators) {}).close.done.reverse

theorem fields_text (separators : List Char) (glyph : Glyph) :
    fields separators [.char glyph false] = [[glyph]] := by
  simp [fields, Splitting.step, Splitting.close]

/-! ### Parameters -/

/-- The number of the running process. -/
def processNumber : List Char := "2".toList

/-- The number of the last process of so many that have been run on the side. -/
def sideNumber (runs : Nat) : Nat := runs + 2

namespace Machine

/-- What stands between the arguments when they are put together. -/
def joint (machine : Machine) : List Char := machine.separators.take 1

/-- The value of a parameter. -/
def parameter? (machine : Machine) (name : List Char) : Option (List Char) :=
  match name with
  | ['#'] => some (decimal machine.args.length)
  | ['?'] => some (decimal machine.status)
  | ['$'] => some processNumber
  | ['!'] => if machine.sideRuns = 0 then none else some (decimal (sideNumber machine.sideRuns))
  | ['-'] => some ("pubaCEVvxsnmiIfe".toList.filter machine.has)
  | ['0'] => some machine.name
  | ['@'] => some (machine.joint.intercalate machine.args)
  | ['*'] => some (machine.joint.intercalate machine.args)
  | name =>
    if name.all Text.isDigit then machine.args[Text.numeral 10 name - 1]? else machine.lookup name

/-- Whether the arguments are fields of their own where a word asks for all of them. -/
def separatesArguments (manner : Manner) (name : List Char) (quoted : Bool) : Bool :=
  manner.toFields && (name == ['@'] || (name == ['*'] && !quoted))

/-- The atoms of arguments that are fields of their own. -/
def argumentAtoms (quoted : Bool) (args : List (List Char)) : List Atom :=
  [Atom.gap].intercalate (args.map fun arg =>
    (if quoted then [Atom.mark] else []) ++ Atom.ofValue quoted arg)

end Machine

/-! ### Home directories -/

/-- The home directories of the users that are known by name. -/
def userHomes : List (String × String) := [("root", "/root")]

/-- The home directory that a tilde at the front of a text stands for, and what follows the tilde
and the name of a user. -/
def splitTilde (home : Option (List Char)) : List Char → Option (List Char × List Char)
  | '~' :: rest =>
    let user := rest.takeWhile (· ≠ '/')
    let found :=
      if user.isEmpty then home
      else (userHomes.lookup (String.ofList user)).map String.toList
    found.map fun found => (found, rest.dropWhile (· ≠ '/'))
  | _ => none

/-- Whether a tilde at the front of a text does not stand for anything because the name behind it
does not end there. -/
def isOpenTilde (chars : List Char) (later : Word) : Bool := !chars.contains '/' && !later.isEmpty

/-- Bare text at the front of a word, with the home directory for a tilde at its front or, in a list
of paths, also behind a colon. Its parts are quoted or bare. -/
def homeParts (home : Option (List Char)) (isPath : Bool) (chars : List Char) (later : Word) :
    List (List Char × Bool) :=
  if isPath then
    let expand (part : List Char) : List Char :=
      match splitTilde home part with
      | some (found, rest) => found ++ rest
      | none => part
    let parts := chars.splitOn ':'
    let last := parts.getLast?.getD []
    let ending := if isOpenTilde last later then last else expand last
    [([':'].intercalate (parts.dropLast.map expand ++ [ending]), false)]
  else
    match splitTilde home chars with
    | some (found, rest) =>
      if isOpenTilde chars later then [(chars, false)] else [(found, true), (rest, false)]
    | none => [(chars, false)]

/-! ### Values -/

section Values

variable {m : Type → Type} [Monad m]

/-- What runs the commands of a substitution and gives their output. -/
abbrev Substitute (m : Type → Type) := Option Command → Run m (List Char)

/-- The variables of a shell in arithmetic. -/
def arithmeticVariables : Arithmetic.Variables Machine where
  get machine name := machine.lookup name
  set machine name value :=
    let old := (machine.known? name).getD {}
    if old.isReadOnly then none else some (machine.assign name { old with value := some value })

/-- The value of an arithmetic expression. -/
def calculate (text : List Char) : Run m (List Char) := do
  let complain (message : String) : Run m (List Char) :=
    Run.fail ("arithmetic expression: ".toList ++ message.toList ++ ": \"".toList ++ text ++
      "\"".toList)
  match (Arithmetic.parse text).evaluate arithmeticVariables true (← get) with
  | .ok (value, machine) =>
    set machine
    return decimal value
  | .error .divisionByZero => complain "division by zero"
  | .error (.notNumber value) => Run.fail ("Illegal number: ".toList ++ value)
  | .error (.readOnly name) => Run.fail (name ++ ": is read only".toList)
  | .error (.broken message) => complain message

/-- Gives up because a parameter has no value. -/
def missing {Value : Type} (name message : List Char) : Run m Value :=
  Run.fail (name ++ ": ".toList ++ message)

/-- The value of a parameter that may not be missing if the shell is strict. -/
def required (name : List Char) : Run m (Option (List Char)) := do
  let machine ← get
  let value := machine.parameter? name
  if value.isNone && machine.has 'u' then
    missing name "parameter not set".toList
  return value

/-- The atoms of a parameter. -/
def parameterAtoms (manner : Manner) (quoted : Bool) (name : List Char) : Run m (List Atom) := do
  let value := (← required name).getD []
  if Machine.separatesArguments manner name quoted then
    return Machine.argumentAtoms quoted (← get).args
  return Atom.ofValue quoted value

/-- The atoms of a text. -/
def textAtoms (manner : Manner) (chars : List Char) (quoted : Bool) : List Atom :=
  chars.map fun char => .char ⟨char, quoted⟩ (manner.isLoose && !quoted)

mutual

/-- The atoms of a piece. -/
def expandPiece (substitute : Substitute m) (manner : Manner) : Piece → Run m (List Atom)
  | .text chars quoted => return textAtoms manner chars quoted
  | .quotes => return [.mark]
  | .arithmetic expression quoted => do
    let text ← expandPieces substitute {} expression
    return Atom.ofValue quoted (← calculate (Atom.text text))
  | .substitution script quoted => do
    let text ← substitute script
    let kept := (text.filter (· ≠ Char.ofNat 0)).reverse.dropWhile (· = '\n')
    return Atom.ofValue quoted kept.reverse
  | .parameter name .plain quoted => parameterAtoms manner quoted name
  | .parameter name .length quoted => do
    let value ← required name
    return Atom.ofValue quoted (decimal (value.getD []).length)
  | .parameter _ .bad _ => Run.fail "Bad substitution".toList
  | .parameter name (.trim atFront longest pattern) quoted => do
    let value := (← required name).getD []
    let pattern := Atom.pattern (← expandWord substitute {} pattern)
    let drop := if atFront then Pattern.dropFront else Pattern.dropEnd
    if Machine.separatesArguments manner name quoted then
      let kept := drop pattern longest ([Pattern.gap].intercalate (← get).args)
      return Machine.argumentAtoms quoted (if kept.isEmpty then [] else kept.splitOn Pattern.gap)
    return Atom.ofValue quoted (drop pattern longest value)
  | .parameter name (.fallback kind orEmpty word) quoted => do
    let value := (← get).parameter? name
    let isMissing := value.isNone || (orEmpty && value == some [])
    match kind with
    | .replace =>
      if isMissing then expandWord substitute { manner with isLoose := !quoted } word
      else parameterAtoms manner quoted name
    | .swap =>
      if isMissing then return []
      else expandWord substitute { manner with isLoose := !quoted } word
    | .complain =>
      if isMissing then
        let text ← expandWord substitute {} word
        let standard := if orEmpty then "parameter not set or null" else "parameter not set"
        missing name (if word.isEmpty then standard.toList else Atom.text text)
      else parameterAtoms manner quoted name
    | .assign =>
      if isMissing then
        let text ← expandWord substitute {} word
        if isName name then Run.setVariable name (Atom.text text)
        else Run.fail (name ++ ": bad variable name".toList)
        return Atom.ofValue quoted (Atom.text text)
      else parameterAtoms manner quoted name

/-- The atoms of the pieces of a word. -/
def expandPieces (substitute : Substitute m) (manner : Manner) :
    List Piece → Run m (List Atom)
  | [] => return []
  | piece :: rest => do
    let first ← expandPiece substitute manner piece
    return first ++ (← expandPieces substitute manner rest)

/-- The atoms of a word, which may start with a tilde. -/
def expandWord (substitute : Substitute m) (manner : Manner) : Word → Run m (List Atom)
  | [] => return []
  | .text chars false :: later => do
    let parts := homeParts ((← get).lookup "HOME".toList) manner.isPath chars later
    let first := parts.flatMap (Function.uncurry (textAtoms manner))
    return first ++ (← expandPieces substitute manner later)
  | piece :: later => do
    let first ← expandPiece substitute manner piece
    return first ++ (← expandPieces substitute manner later)

end

/-! ### Words -/

/-- The text of a word, which is not split. -/
def expandText (substitute : Substitute m) (word : Word) : Run m (List Char) := do
  return Atom.text (← expandWord substitute {} word)

/-- The text of the value of an assignment. -/
def expandValue (substitute : Substitute m) (word : Word) : Run m (List Char) := do
  return Atom.text (← expandWord substitute { isPath := true } word)

/-- The pattern that a word makes up. -/
def expandPattern (substitute : Substitute m) (word : Word) : Run m Pattern := do
  return Atom.pattern (← expandWord substitute {} word)

/-! ### Names of files -/

/-- The parts of a pattern between slashes. -/
def splitPattern (pattern : Pattern) : List Pattern :=
  pattern.foldr
    (fun glyph parts =>
      if glyph.char = '/' then [] :: parts
      else
        match parts with
        | [] => [[glyph]]
        | part :: parts => (glyph :: part) :: parts)
    [[]]

/-- The names in a directory that a pattern matches, in order. -/
def namesLike (files : FileAccess m) (directory : String) (pattern : Pattern) :
    Run m (List String) := do
  let machine ← get
  let place := if directory = "" then "." else directory
  let names ← (files.names (machine.fileName place) : m _)
  let isDirectory := (← Run.entry files place) matches .ok .directory
  let own := if isDirectory then [".", ".."] else []
  let found := (own ++ names ++ machine.writtenNames place).eraseDups.filter fun name =>
    let text := ofString name
    (text.head? ≠ some '.' || (pattern.head?.map Glyph.char) = some '.') &&
      Pattern.accepts pattern text
  return found.mergeSort fun first second => !decide (second < first)

/-- The names that parts of a pattern lead to from the front of a name. -/
def matchNames (files : FileAccess m) (front : String) : List Pattern → Run m (List String)
  | [] => return [front]
  | part :: rest => do
    let ending := if rest.isEmpty then "" else "/"
    if part.isMagic then
      let names ← namesLike files front part
      let below ← names.mapM fun name => matchNames files (front ++ name ++ ending) rest
      return below.flatten
    else
      let name := front ++ asString part.text ++ ending
      if rest.isEmpty then
        match ← Run.entry files name with
        | .ok _ => return [name]
        | .error _ => return []
      else matchNames files name rest

/-- The texts that a field stands for: the names of files that it matches, or else itself. -/
def filesLike (files : FileAccess m) (field : Pattern) : Run m (List (List Char)) := do
  let pattern := field.resolve
  if !pattern.isMagic || (← get).has 'f' then return [field.text]
  match ← matchNames files "" (splitPattern pattern) with
  | [] => return [field.text]
  | names => return names.map ofString

/-- The texts of the fields of words. -/
def expandFields (files : FileAccess m) (substitute : Substitute m) (words : List Word) :
    Run m (List (List Char)) := do
  let texts ← words.mapM fun word => do
    let atoms ← expandWord substitute { toFields := true } word
    let found := fields (← get).separators atoms
    return (← found.mapM (filesLike files)).flatten
  return texts.flatten

end Values

end CellSyntax.Shell
