/-
**Parser dumps.**

A dump is a file with the answer that a parser gave for a cell. A directory of dumps has them at
any depth, in files whose names end in `.json`.

* `Dump.ofText_blank`: a blank cell has the empty tree and no source.
-/

import CellSyntax.CommandLine.Report
import CellSyntax.Config
import CellSyntax.Files
import CellSyntax.Json.ParseOutput
import CellSyntax.Zip.Cell

namespace CellSyntax

/-- What a dump holds: the source, if the parser reported it, and the tree of the cell. -/
structure Dump where
  source : Option String
  tree : CellTree
deriving Repr

namespace Dump

/-- The dump that the contents of a file hold. -/
def ofText (config : Config) (path contents : String) : Except FailureReport Dump :=
  match ParseOutput.read contents with
  | .error fault => .error ⟨s!"failed to decode {path}", [fault.message]⟩
  | .ok none => .ok ⟨none, .empty⟩
  | .ok (some output) =>
    match zipOutput config.tokens (output.rebase config.parser.lineBase) with
    | .error mismatch => .error ⟨s!"failed to zip {path}", [mismatch.message]⟩
    | .ok tree => .ok ⟨output.source, tree⟩

theorem ofText_blank {config : Config} {path contents : String}
    (blank : ParseOutput.read contents = .ok none) :
    ofText config path contents = .ok ⟨none, .empty⟩ := by
  rw [ofText, blank]

/-- The failure to read a file. -/
def unreadable (path : String) (error : SystemError) : FailureReport :=
  ⟨s!"failed to read {path}", [error.message]⟩

/-- The dump in a file. -/
def load {m : Type → Type} [Monad m] (files : FileAccess m) (config : Config) (path : String) :
    m (Except FailureReport Dump) := do
  match ← files.read path with
  | .error error => return .error (unreadable path error)
  | .ok contents => return ofText config path contents

/-! ### Directories -/

/-- Whether a name ends in `.json` after a part that is not empty. -/
def isDumpName (name : String) : Bool :=
  name ≠ ".json" && name.endsWith ".json"

/-- Whether a path comes no later than another; paths are compared part by part. -/
def pathLe (first second : List String) : Bool := !decide (second < first)

/-- The names of the dumps below a directory, in order. -/
def namesBelow {m : Type → Type} [Monad m] (files : FileAccess m) (directory : String) :
    m (List String) := do
  let below ← files.filesBelow directory
  let dumps := below.filter fun path => isDumpName (path.getLast?.getD "")
  let start := if directory.endsWith "/" then directory else directory ++ "/"
  return (dumps.mergeSort pathLe).map fun path => start ++ "/".intercalate path

end Dump

end CellSyntax
