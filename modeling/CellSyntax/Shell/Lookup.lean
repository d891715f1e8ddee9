/-
**Finding commands.**

A command is a function of the script, a command of the shell itself or a program. A program whose
name has no slash is looked for in the directories of the search path.

* `candidates_empty`: an empty search path is the current directory.
-/

import CellSyntax.Shell.Expansion
import CellSyntax.Shell.Listing

namespace CellSyntax.Shell

/-- The commands of the shell that functions can replace. -/
def regularNames : List String :=
  ["[", "alias", "bg", "cd", "chdir", "command", "echo", "false", "fg", "getopts", "hash", "jobs",
    "kill", "printf", "pwd", "read", "test", "true", "type", "ulimit", "umask", "unalias", "wait"]

/-- What the name of a command stands for. -/
inductive Found where
  | function (body : Command)
  | builtin (isSpecial : Bool)
  /-- A program with the path that it may be at. -/
  | program (path : List Char)
  | missing (reason : String)

/-- The directories that programs are looked for in if the script does not say. -/
def standardPath : List Char :=
  "/usr/local/sbin:/usr/local/bin:/usr/sbin:/usr/bin:/sbin:/bin".toList

/-- The paths that a program may be at. -/
def candidates (path name : List Char) : List (List Char) :=
  (path.splitOn ':').map fun directory =>
    if directory.isEmpty then name else directory ++ '/' :: name

theorem candidates_empty (name : List Char) : candidates [] name = [name] := rfl

section Finding

variable {m : Type → Type} [Monad m]

/-- The first path that there is a program at, or else why there is none. -/
def search (files : FileAccess m) : List (List Char) → (reason : String) → Run m Found
  | [], reason => return .missing reason
  | path :: rest, reason => do
    match ← Run.entry files (asString path) with
    | .ok (.program _) => return .program path
    | .ok _ => search files rest SystemError.permissionDenied.description
    | .error .notFound => search files rest reason
    | .error .notDirectory => search files rest reason
    | .error error => search files rest error.description

/-- The program that a name stands for, looked for in the directories of `path`. -/
def findProgram (files : FileAccess m) (path name : List Char) : Run m Found :=
  if name.contains '/' then return .program name
  else search files (candidates path name) "not found"

/-- The directories that programs are looked for in. -/
def Machine.searchPath (machine : Machine) : List Char :=
  (machine.lookup "PATH".toList).getD []

/-- The program that a name stands for, which is looked for once only in the same directories. -/
def trackProgram (files : FileAccess m) (path name : List Char) : Run m Found := do
  let machine ← get
  let isTracked := !name.contains '/' && path == machine.searchPath
  match if isTracked then machine.tracked.lookup name else none with
  | some path => return .program path
  | none =>
    match ← findProgram files path name with
    | .program path =>
      if isTracked then
        modify fun machine => { machine with tracked := (name, path) :: machine.tracked }
      return .program path
    | found => return found

/-- What a name stands for, programs being looked for in the directories of `path`. -/
def find (files : FileAccess m) (skipsFunctions : Bool) (path name : List Char) :
    Run m Found := do
  match skipsFunctions, (← get).functions.lookup name with
  | false, some body => return .function body
  | _, _ =>
    let text := asString name
    if specialNames.contains text then return .builtin true
    if regularNames.contains text then return .builtin false
    trackProgram files path name

/-- An alias as it is listed. -/
def aliasLine (name text : List Char) : List Char := name ++ '=' :: quoteSingle text ++ ['\n']

/-- Writes what a name stands for; the status is 127 if it is nothing. -/
def describe (files : FileAccess m) (isVerbose : Bool) (path name : List Char) : Run m Nat := do
  let isTracked := ((← get).tracked.lookup name).isSome
  let say (brief verbose : List Char) : Run m Nat := do
    Run.put (if isVerbose then name ++ " is ".toList ++ verbose ++ ['\n'] else brief ++ ['\n'])
    return 0
  let nothing : Run m Nat := do
    if isVerbose then Run.put (name ++ ": not found\n".toList)
    return 127
  if (Keyword.ofText? name).isSome then say name "a shell keyword".toList
  else if let some text := (← get).aliases.lookup name then
    Run.put (if isVerbose then name ++ " is an alias for ".toList ++ text ++ ['\n']
      else "alias ".toList ++ aliasLine name text)
    return 0
  else
    match ← find files false path name with
    | .function _ => say name "a shell function".toList
    | .builtin true => say name "a special shell builtin".toList
    | .builtin false => say name "a shell builtin".toList
    | .missing _ => nothing
    | .program path =>
      match ← Run.entry files (asString path) with
      | .ok _ => say path ((if isTracked then "a tracked alias for ".toList else []) ++ path)
      | .error _ => nothing

end Finding

end CellSyntax.Shell
