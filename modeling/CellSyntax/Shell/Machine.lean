/-
**The state of a running shell.**

A shell has variables, functions, options and descriptors of its own. What the descriptors stand
for, and the files that have been written, outlives a part of a script that is run on the side, so
it is kept apart as the world of the shell.

* `Stream.take_nothing`: there is nothing to read where everything written is lost;
* `Machine.lookup_assign`: a variable has the value that it was given last;
* `Run.run_get`, `Run.run_modify`: what is run reads the state of the shell and changes it.
-/

import CellSyntax.Files
import CellSyntax.Process.Basic
import CellSyntax.Shell.Job
import CellSyntax.Shell.Limit
import CellSyntax.Shell.Number
import CellSyntax.Shell.Permissions
import CellSyntax.Shell.Script

namespace CellSyntax.Shell

/-! ### Streams -/

/-- What a descriptor stands for. -/
inductive Stream where
  /-- A text to be read. -/
  | source (unread : List Char)
  /-- What has been written, the last part first. -/
  | sink (written : List (List Char))
  | nothing
  /-- Nothing can be written. -/
  | full
  | directory
  /-- A file that is open from a position on. -/
  | file (name : String) (position : Nat) (mode : OpenMode)
deriving Repr

namespace Stream

/-- What is read up to the end of a stream, unless it cannot be read. -/
def take : Stream → Except SystemError (List Char)
  | source unread => .ok unread
  | directory => .error .isDirectory
  | sink _ => .error .badDescriptor
  | _ => .ok []

theorem take_nothing : nothing.take = .ok [] := rfl

/-- The text written to a stream. -/
def written : Stream → List Char
  | sink written => written.reverse.flatten
  | _ => []

end Stream

/-- What running shells share. -/
structure World where
  streams : Array Stream := #[]
  /-- The files that have been written or opened, with their contents. -/
  files : List (String × List Char) := []

/-! ### Machines -/

/-- What a shell knows about a variable. -/
structure Variable where
  value : Option (List Char) := none
  isExported : Bool := false
  isReadOnly : Bool := false

/-- What is put back when a command ends. -/
structure Frame where
  bindings : List (List Char × Option Variable) := []
  options : Option (List Char) := none

/-- A running shell. -/
structure Machine where
  /-- The name that complaints start with. -/
  name : List Char
  args : List (List Char)
  bindings : List (List Char × Variable) := []
  functions : List (List Char × Command) := []
  aliases : Aliases := []
  /-- The programs that have been found, with their paths. -/
  tracked : List (List Char × List Char) := []
  /-- The letters of the options that are on. -/
  options : List Char := []
  /-- What the descriptors stand for, by the places in the world. -/
  descriptors : List (Nat × Nat) := []
  /-- The directory that relative names start from, relative to the first one. -/
  directory : String := ""
  documents : List (Nat × Word) := []
  /-- The number of the next here-document. -/
  nextDocument : Nat := 0
  status : Nat := 0
  /-- The status of the last substitution of the command. -/
  innerStatus : Nat := 0
  line : Nat := 1
  /-- The line up to which the script has been read. -/
  lineRead : Nat := 1
  /-- The end of a script has been read, and it is met once more by what is read next. -/
  meetsEnd : Bool := false
  /-- No command is shown. -/
  isHushed : Bool := false
  /-- The command of the shell that is running. -/
  running : Option (List Char) := none
  /-- The number of functions that are running. -/
  functionDepth : Nat := 0
  /-- The number of loops that the command stands in. -/
  loops : Nat := 0
  /-- For each command that has variables of its own, what it hides. -/
  hidden : List Frame := []
  /-- What is done about signals, zero being the end of the script. -/
  traps : List (Nat × List Char) := []
  /-- The signals that the shell has been told to ignore from outside. -/
  ignored : List Nat := []
  /-- In a copy of a shell, what that shell does about signals. -/
  outerTraps : Option (List (Nat × List Char)) := none
  /-- The signals that something is to be done about. -/
  arrived : List Nat := []
  /-- A signal that has ended the shell that this is a copy of. -/
  doom : Option Nat := none
  /-- While something is done about a signal, the status from before. -/
  savedStatus : Option Nat := none
  jobs : Jobs := []
  /-- The number of commands that have been run on the side. -/
  sideRuns : Nat := 0
  /-- The number of the argument that the next option is looked for in. -/
  optionIndex : Nat := 1
  /-- How much of the argument before it has been looked at. -/
  optionOffset : Nat := 0
  /-- The permissions that new files do not have. -/
  mask : Permissions := .ofNumber 0o022
  limits : List Limit := Limit.standard
  /-- Whether something could not be written. -/
  isCutOff : Bool := false
  world : World := {}

/-- How a part of a script may stop short. -/
inductive Interrupt where
  | exit (status : Nat)
  /-- Something that the shell cannot do. -/
  | failure
  | killed (signal : Nat)
  | leave (loops : Nat)
  | goOn (loops : Nat)
  | return (status : Nat)
  /-- The steps were not enough. -/
  | exhausted
deriving DecidableEq, Repr

/-- What is run in a shell. -/
abbrev Run (m : Type → Type) := ExceptT Interrupt (StateT Machine m)

namespace Machine

/-! ### Variables -/

/-- What is known of a variable. -/
def known? (machine : Machine) (name : List Char) : Option Variable :=
  machine.bindings.lookup name

/-- The value of a variable. -/
def lookup (machine : Machine) (name : List Char) : Option (List Char) :=
  (machine.known? name).bind Variable.value

/-- The machine with a variable. -/
def assign (machine : Machine) (name : List Char) (known : Variable) : Machine :=
  { machine with
    bindings := (name, known) :: machine.bindings.filter fun (other, _) => other != name }

/-- The machine without a variable. -/
def forget (machine : Machine) (name : List Char) : Machine :=
  { machine with bindings := machine.bindings.filter fun (other, _) => other != name }

theorem lookup_assign (machine : Machine) (name : List Char) (known : Variable) :
    (machine.assign name known).lookup name = known.value := by
  simp [lookup, known?, assign]

/-- Whether an option is on. -/
def has (machine : Machine) (option : Char) : Bool := machine.options.contains option

/-- The characters that separate fields. -/
def separators (machine : Machine) : List Char := (machine.lookup "IFS".toList).getD " \t\n".toList

/-- What a descriptor stands for. -/
def stream? (machine : Machine) (descriptor : Nat) : Option (Nat × Stream) := do
  let place ← machine.descriptors.lookup descriptor
  return (place, ← machine.world.streams[place]?)

/-- The machine with another stream at a place. -/
def setStream (machine : Machine) (place : Nat) (stream : Stream) : Machine :=
  { machine with world :=
    { machine.world with streams := machine.world.streams.setIfInBounds place stream } }

/-- The machine with one more stream, and its place. -/
def addStream (machine : Machine) (stream : Stream) : Nat × Machine :=
  (machine.world.streams.size,
    { machine with world :=
      { machine.world with streams := machine.world.streams.push stream } })

/-- The machine with a descriptor for a place. -/
def connect (machine : Machine) (descriptor place : Nat) : Machine :=
  { machine with
    descriptors :=
      (descriptor, place) :: machine.descriptors.filter fun (other, _) => other != descriptor }

/-- The machine without a descriptor. -/
def disconnect (machine : Machine) (descriptor : Nat) : Machine :=
  { machine with
    descriptors := machine.descriptors.filter fun (other, _) => other != descriptor }

/-- The name of a file seen from the first directory, without parts that lead nowhere. -/
def fileName (machine : Machine) (name : String) : String :=
  if name = "" ∨ name.startsWith "/" then name else machine.directory ++ name

/-- Names that differ only in parts that lead nowhere, made the same. -/
def plainName (name : String) : String :=
  let parts := (FileTree.parts name).foldl
    (fun parts part => if part = ".." then parts.dropLast else parts ++ [part]) []
  (if name.startsWith "/" then "/" else "") ++ "/".intercalate parts

/-- The name that a file is known by. -/
def path (machine : Machine) (name : String) : String := plainName (machine.fileName name)

/-- The contents of the file at a path, which has been written or opened. -/
def contents (machine : Machine) (path : String) : List Char :=
  (machine.world.files.lookup path).getD []

/-- The contents of a file that has been written or opened. -/
def written? (machine : Machine) (name : String) : Option (List Char) :=
  machine.world.files.lookup (machine.path name)

/-- The names of the files in a directory that have been written. -/
def writtenNames (machine : Machine) (directory : String) : List String :=
  machine.world.files.filterMap fun (name, _) =>
    let parts := FileTree.parts name
    let isThere := parts.dropLast = FileTree.parts (machine.path directory) &&
      name.startsWith "/" == (machine.path directory).startsWith "/"
    if isThere then parts.getLast? else none

/-- The machine with other contents of a file. -/
def setFile (machine : Machine) (name : String) (contents : List Char) : Machine :=
  let rest := machine.world.files.filter fun (other, _) => other != name
  { machine with world := { machine.world with files := (name, contents) :: rest } }

/-- The machine after a text is written to the stream at a place, if it can be. -/
def writeAt? (machine : Machine) (place : Nat) (text : List Char) : Option Machine := do
  match ← machine.world.streams[place]? with
  | .sink written => return machine.setStream place (.sink (text :: written))
  | .nothing => return machine
  | .file name position mode =>
    if mode = .read then none
    let contents := machine.contents name
    let position := if mode = .append then contents.length else position
    let padding := List.replicate (position - contents.length) (Char.ofNat 0)
    let contents := contents.take position ++ padding ++ text ++
      contents.drop (position + text.length)
    return (machine.setFile name contents).setStream place
      (.file name (position + text.length) mode)
  | _ => none

/-- The machine after a text is written to a descriptor, if it can be. -/
def write? (machine : Machine) (descriptor : Nat) (text : List Char) : Option Machine := do
  machine.writeAt? (← machine.descriptors.lookup descriptor) text

end Machine

/-! ### What is run -/

namespace Run

variable {m : Type → Type} [Monad m]

theorem run_get [LawfulMonad m] (machine : Machine) :
    (ExceptT.run (get : Run m Machine)).run machine = pure (.ok machine, machine) := by
  simp [get, getThe, MonadStateOf.get, liftM, monadLift, MonadLift.monadLift, ExceptT.lift,
    ExceptT.mk, ExceptT.run, StateT.run, StateT.map, StateT.get, Functor.map]

theorem run_modify [LawfulMonad m] (change : Machine → Machine) (machine : Machine) :
    (ExceptT.run (modify change : Run m Unit)).run machine =
      pure (.ok (), change machine) :=
  pure_bind ((), change machine) _

/-- What something comes to, however it ends. -/
def settle {Value : Type} (run : Run m Value) : Run m (Except Interrupt Value) :=
  ExceptT.lift (ExceptT.run run)

/-- Runs something, and changes the shell afterwards, however it ends. -/
def andThen {Value : Type} (change : Machine → Machine) (run : Run m Value) : Run m Value := do
  let result ← settle run
  modify change
  MonadExcept.ofExcept result

/-- Writes a text to a descriptor, and says whether that can be done. -/
def write (descriptor : Nat) (text : List Char) : Run m Bool := do
  match (← get).write? descriptor text with
  | some machine =>
    set machine
    return true
  | none => return false

/-- Writes a text to the output of a command of the shell. -/
def put (text : List Char) : Run m Unit := do
  if text.isEmpty then return
  if !(← write 1 text) then modify fun machine => { machine with isCutOff := true }

/-- Tells the user of something that goes wrong. -/
def complain (text : List Char) : Run m Unit := do
  let machine ← get
  let running :=
    match machine.running with
    | some name => name ++ ": ".toList
    | none => []
  let _ ← write 2 (machine.name ++ ": ".toList ++ decimal machine.line ++ ": ".toList ++ running ++
    text ++ "\n".toList)

/-- Gives up the command because of something that goes wrong. -/
def fail {Value : Type} (text : List Char) : Run m Value := do
  complain text
  modify fun machine => { machine with status := 2 }
  throw .failure

/-- Changes what is known of a variable, if it may be changed. -/
def changeVariable (name : List Char) (change : Variable → Variable) : Run m Unit := do
  if !isName name then fail (name ++ ": bad variable name".toList)
  let machine ← get
  let old := (machine.known? name).getD {}
  if old.isReadOnly then fail (name ++ ": is read only".toList)
  set (machine.assign name (change old))

/-- Changes what is known of a variable even if its value may not be changed. -/
def modifyVariable (name : List Char) (change : Variable → Variable) : Run m Unit :=
  modify fun machine => machine.assign name (change ((machine.known? name).getD {}))

/-- Goes on with the options of the script at the argument with a number. -/
def restartOptions (value : List Char) : Run m Unit := do
  match Number.count? value with
  | none => fail ("Illegal number: ".toList ++ value)
  | some index =>
    modify fun machine => { machine with optionIndex := max 1 index, optionOffset := 0 }

/-- Gives a variable a value. -/
def setVariable (name value : List Char) : Run m Unit := do
  if name = "OPTIND".toList then restartOptions value
  let exports := (← get).has 'a'
  changeVariable name fun old => { old with
    value := some value
    isExported := old.isExported || exports }
  if name = "PATH".toList then modify fun machine => { machine with tracked := [] }

/-- What is read up to the end from a descriptor. -/
def readAll (descriptor : Nat) : Run m (Except String (List Char)) := do
  let machine ← get
  match machine.stream? descriptor with
  | none => return .error SystemError.badDescriptor.description
  | some (place, .file name position mode) =>
    if mode = .write ∨ mode = .append then
      return .error SystemError.badDescriptor.description
    let contents := machine.contents name
    set (machine.setStream place (.file name (max position contents.length) mode))
    return .ok (contents.drop position)
  | some (place, stream) =>
    match stream.take with
    | .error error => return .error error.description
    | .ok text =>
      if let .source _ := stream then set (machine.setStream place (.source []))
      return .ok text

/-- What there is to be read from a descriptor. -/
def unread (descriptor : Nat) : Run m (List Char) := do
  let machine ← get
  match machine.stream? descriptor with
  | some (_, .source text) => return text
  | some (_, .file name position mode) =>
    if mode = .write ∨ mode = .append then return []
    return (machine.contents name).drop position
  | _ => return []

/-- Takes some of the text that there is to be read from a descriptor; `left` is what is left. -/
def take (descriptor : Nat) (left : List Char) : Run m Unit := do
  let machine ← get
  match machine.stream? descriptor with
  | some (place, .source _) => set (machine.setStream place (.source left))
  | some (place, .file name _ mode) =>
    let size := (machine.contents name).length
    set (machine.setStream place (.file name (size - left.length) mode))
  | _ => return

/-- The path of what a name leads to, and what that is. -/
def find (files : FileAccess m) (name : String) :
    Run m (String × Except SystemError FileEntry) := do
  let machine ← get
  let path := machine.path name
  match machine.written? name with
  | some contents =>
    if name.endsWith "/" then return (path, .error .notDirectory)
    return (path, .ok (.file (asString contents)))
  | none =>
    match ← (files.entry (machine.fileName name) : m _) with
    | .ok (.descriptor number) =>
      match (machine.stream? number).map Prod.snd with
      | none => return (path, .error .notFound)
      | some (.file own _ _) => return (own, .ok (.file (asString (machine.contents own))))
      | some .nothing => return (path, .ok .nothing)
      | some .full => return (path, .ok .full)
      | some .directory => return (path, .ok .directory)
      | some _ => return (path, .ok (.descriptor number))
    | found => return (path, found)

/-- What a name leads to. -/
def entry (files : FileAccess m) (name : String) : Run m (Except SystemError FileEntry) :=
  Prod.snd <$> find files name

/-- The bytes of the file that a name leads to. -/
def readFile (files : FileAccess m) (name : String) : Run m (Except String (List Char)) := do
  match ← find files name with
  | (path, .ok (.file contents)) =>
    return .ok (((← get).world.files.lookup path).getD (ofString contents))
  | (_, .ok .directory) => return .error SystemError.isDirectory.description
  | (_, .ok (.program _)) => return .ok []
  | (_, .ok .nothing) => return .ok []
  | (_, .ok .full) => return .ok []
  | (_, .ok (.descriptor number)) => readAll number
  | (_, .error error) => return .error error.description

end Run

end CellSyntax.Shell
