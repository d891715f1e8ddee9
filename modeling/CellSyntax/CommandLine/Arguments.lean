/-
**Arguments of the command line.**

The arguments name a command, its options and one file or directory. They are read from left to
right, and the first thing that decides the outcome, be it a mistake or a request for help, ends
the reading. An option's value follows it, in the same argument or as the next one.

* `Arguments.readCommand_nil`: with no arguments left, the request is what was given so far;
* `Arguments.read_version`: asking for the version comes before all that follows.
-/

import CellSyntax.Range.Reading

namespace CellSyntax

/-- What the command line is asked to do. -/
inductive Request where
  /-- Show the tree of a parser dump, or check every dump in a directory. -/
  | zip (path : String) (json : Bool)
  /-- Run the parser on a source file and show the tree. -/
  | parse (path : String) (json : Bool)
  /-- Show the narrowest node of a dump that contains a range. -/
  | locate (path : String) (range : Range) (json : Bool)
  /-- Replace a range of a dump's source and show what becomes of the tree. -/
  | repair (path : String) (range : Range) (text : String) (json : Bool)
deriving DecidableEq, Repr

/-- A request with the name of the configuration file, if one is given. -/
structure Invocation where
  config : Option String
  request : Request
deriving DecidableEq, Repr

/-- Why nothing is to be done. -/
inductive Halt where
  | help
  | version
  /-- The arguments are not well formed. -/
  | misuse
deriving DecidableEq, Repr

namespace Arguments

/-- The name of a command. -/
inductive CommandName where
  | zip
  | parse
  | locate
  | repair
deriving DecidableEq, Repr

/-- The command of a name. -/
def CommandName.ofString? : String → Option CommandName
  | "zip" => some .zip
  | "parse" => some .parse
  | "locate" => some .locate
  | "repair" => some .repair
  | _ => none

/-- An option that has a value. -/
inductive Setting where
  | config
  | range
  | text
deriving DecidableEq, Repr

/-- An option. -/
inductive Flag where
  | setting (setting : Setting)
  | json
  | help
  | version
deriving DecidableEq, Repr

/-- The options that a command has; without a command, those in front of it. -/
def flags : Option CommandName → List Flag
  | none => [.setting .config, .help, .version]
  | some .zip => [.setting .config, .json, .help]
  | some .parse => [.setting .config, .json, .help]
  | some .locate => [.setting .config, .setting .range, .json, .help]
  | some .repair => [.setting .config, .setting .range, .setting .text, .json, .help]

/-- The option of a long name. -/
def ofLongName? : String → Option Flag
  | "config" => some (.setting .config)
  | "range" => some (.setting .range)
  | "text" => some (.setting .text)
  | "json" => some .json
  | "help" => some .help
  | "version" => some .version
  | _ => none

/-- The option of a letter. -/
def ofLetter? : Char → Option Flag
  | 'c' => some (.setting .config)
  | 'r' => some (.setting .range)
  | 't' => some (.setting .text)
  | 'h' => some .help
  | 'V' => some .version
  | _ => none

/-- An argument taken apart. -/
inductive Argument where
  | plain (text : String)
  /-- `--`, after which every argument is plain. -/
  | separator
  /-- An option, if its name is known, with the value in the same argument. -/
  | flag (flag : Option Flag) (value : Option String)
deriving DecidableEq, Repr

/-- The value behind the letter of an option; an equals sign in front of it is no part of it. -/
def attached : List Char → Option String
  | [] => none
  | '=' :: value => some (String.ofList value)
  | value => some (String.ofList value)

/-- An argument taken apart. What follows the letter of an option without a value is not looked at,
for such an option ends the reading. -/
def Argument.ofString (argument : String) : Argument :=
  match argument.toList with
  | ['-', '-'] => .separator
  | '-' :: '-' :: option =>
    match Text.cut? '=' option with
    | none => .flag (ofLongName? (String.ofList option)) none
    | some (name, value) => .flag (ofLongName? (String.ofList name)) (some (String.ofList value))
  | '-' :: letter :: value =>
    match ofLetter? letter with
    | some (.setting setting) => .flag (some (.setting setting)) (attached value)
    | found => .flag found none
  | _ => .plain argument

/-! ### Reading -/

/-- What has been given so far. -/
structure Given where
  config : Option String := none
  range : Option Range := none
  text : Option String := none
  path : Option String := none
  json : Bool := false
deriving DecidableEq, Repr

namespace Given

/-- A value that must not have been given before. -/
def once {Value : Type} (before : Option Value) (value : Value) : Except Halt (Option Value) :=
  if before.isSome then .error .misuse else .ok (some value)

/-- A name of a file, which must not be empty. -/
def name (text : String) : Except Halt String := if text = "" then .error .misuse else .ok text

/-- The value of an option taken note of. -/
def take (given : Given) (setting : Setting) (value : String) : Except Halt Given :=
  match setting with
  | .config => do return { given with config := ← once given.config (← name value) }
  | .range =>
    match Range.read value with
    | .error _ => .error .misuse
    | .ok range => do return { given with range := ← once given.range range }
  | .text => do return { given with text := ← once given.text value }

/-- An argument that is no option taken note of. -/
def takePath (given : Given) (path : String) : Except Halt Given := do
  return { given with path := ← once given.path (← name path) }

/-- The request of a command. -/
def request (given : Given) : CommandName → Except Halt Request
  | .zip =>
    match given.path with
    | some path => .ok (.zip path given.json)
    | none => .error .misuse
  | .parse =>
    match given.path with
    | some path => .ok (.parse path given.json)
    | none => .error .misuse
  | .locate =>
    match given.path, given.range with
    | some path, some range => .ok (.locate path range given.json)
    | _, _ => .error .misuse
  | .repair =>
    match given.path, given.range with
    | some path, some range => .ok (.repair path range (given.text.getD "") given.json)
    | _, _ => .error .misuse

end Given

/-- What comes of an option without its value: what is given then, and the option that the next
argument is the value of. -/
def takeFlag (command : Option CommandName) (given : Given) (flag : Option Flag)
    (value : Option String) : Except Halt (Given × Option Setting) :=
  match flag with
  | none => .error .misuse
  | some flag =>
    if flag ∉ flags command then .error .misuse
    else
      match flag, value with
      | .setting setting, some value => do return (← given.take setting value, none)
      | .setting setting, none => .ok (given, some setting)
      | _, some _ => .error .misuse
      | .help, none => .error .help
      | .version, none => .error .version
      | .json, none =>
        if given.json then .error .misuse else .ok ({ given with json := true }, none)

/-- The arguments after the separator, none of which is an option. -/
def readPlain (given : Given) : List String → Except Halt Given
  | [] => .ok given
  | argument :: rest => do readPlain (← given.takePath argument) rest

/-- The arguments of a command; `pending` is the option whose value comes next. -/
def readCommand (command : CommandName) (given : Given) (pending : Option Setting) :
    List String → Except Halt Given
  | [] => if pending.isSome then .error .misuse else .ok given
  | argument :: rest =>
    match Argument.ofString argument, pending with
    | .plain value, some setting => do
      readCommand command (← given.take setting value) none rest
    | .plain path, none => do readCommand command (← given.takePath path) none rest
    | _, some _ => .error .misuse
    | .separator, none => readPlain given rest
    | .flag flag value, none => do
      let (given, pending) ← takeFlag (some command) given flag value
      readCommand command given pending rest

/-- Help on a command, which has to exist. -/
def readHelp : List String → Halt
  | [] => .help
  | [name] => if name = "help" ∨ (CommandName.ofString? name).isSome then .help else .misuse
  | _ => .misuse

/-- The arguments from the beginning. A configuration that is given after the command counts more
than one that is given before it. -/
def readFrom (given : Given) (pending : Option Setting) :
    List String → Except Halt Invocation
  | [] => .error .misuse
  | argument :: rest =>
    match Argument.ofString argument, pending with
    | .plain value, some setting => do readFrom (← given.take setting value) none rest
    | .plain "help", none => .error (readHelp rest)
    | .plain name, none =>
      match CommandName.ofString? name with
      | none => .error .misuse
      | some command => do
        let inner ← readCommand command {} none rest
        return ⟨inner.config.or given.config, ← inner.request command⟩
    | .flag flag value, none => do
      let (given, pending) ← takeFlag none given flag value
      readFrom given pending rest
    | _, _ => .error .misuse

/-- What the arguments ask for. -/
def read (arguments : List String) : Except Halt Invocation := readFrom {} none arguments

theorem readCommand_nil (command : CommandName) (given : Given) :
    readCommand command given none [] = .ok given := rfl

theorem read_version (rest : List String) : read ("-V" :: rest) = .error .version := by
  have option : Argument.ofString "-V" = .flag (some .version) none := by cbv
  simp only [read, readFrom, option]
  rfl

end Arguments

end CellSyntax
