/-
**Running a command.**

A command loads the configuration, does what it is asked to do and leaves an exit code and what
it writes to the two outputs.

* `Outcome.ofReport_exit`: a command that fails with a report ends with exit code one;
* `CommandLine.showTree_empty`: a blank cell is shown as such.
-/

import CellSyntax.CommandLine.Arguments
import CellSyntax.CommandLine.Dump
import CellSyntax.Config.Loading
import CellSyntax.Json.Printer
import CellSyntax.Json.Sorted
import CellSyntax.Json.Tree
import CellSyntax.ParserProcess
import CellSyntax.Tree.Fingerprint
import CellSyntax.Tree.Outline

namespace CellSyntax

/-- What running the program comes to. -/
structure Outcome where
  exit : Nat
  output : String
  errors : String
deriving DecidableEq, Repr

namespace Outcome

/-- Lines, each with its line feed. -/
def lines (lines : List String) : String := String.join (lines.map fun line => line ++ "\n")

/-- A success that writes lines. -/
def success (written : List String) : Outcome := ⟨0, lines written, ""⟩

/-- A failure with its report. -/
def ofReport (report : FailureReport) : Outcome := ⟨1, "", report.render⟩

theorem ofReport_exit (report : FailureReport) : (ofReport report).exit = 1 := rfl

/-- Lines to write, or the report of a failure. -/
def ofLines : Except FailureReport (List String) → Outcome
  | .error report => ofReport report
  | .ok written => success written

end Outcome

namespace CommandLine

/-- What the program asks of its surroundings. -/
structure Surroundings (m : Type → Type) where
  files : FileAccess m
  host : Host m

/-- The name of the program and its version. -/
def versionLine : String := "cell-cst 0.1.0"

/-- How the program is used. -/
def usage : List String :=
  ["Range-accurate syntax trees for notebook cells", "",
    "Usage: cell-cst [--config <CONFIG>] <COMMAND>", "",
    "Commands:",
    "  zip <PATH> [--json]",
    "  parse <FILE> [--json]",
    "  locate <DUMP> --range <RANGE> [--json]",
    "  repair <DUMP> --range <RANGE> [--text <TEXT>] [--json]"]

/-- What is done about arguments that ask for nothing to be done. -/
def halt : Halt → Outcome
  | .help => .success usage
  | .version => .success [versionLine]
  | .misuse => ⟨2, "", Outcome.lines usage⟩

/-! ### Showing results -/

/-- The lines that show a tree. -/
def showTree (json : Bool) : CellTree → List String
  | .empty => [if json then "null" else "(empty cell)"]
  | .tree root => if json then [root.toJson.pretty 0] else root.outline

theorem showTree_empty : showTree false .empty = ["(empty cell)"] := rfl

/-- The lines that show a node that was located. -/
def showNode (json : Bool) (path : Path) (node : Node) : List String :=
  if json then
    [(Json.object [("type", .string node.kind), ("index", .natural path.index),
      ("start", node.range.start.toJson), ("end", node.range.stop.toJson),
      ("text", .string node.text)]).sorted.pretty 0]
  else [headline node.kind node.range ++ s!" (sibling {path.index})", node.text]

/-- The lines that show what was repaired and the tree after it. -/
def showRepair (json : Bool) (repair : Repair) (root : Node) : List String :=
  if json then
    [(Json.object [("repair", repair.toJson), ("tree", root.toJson)]).sorted.pretty 0]
  else ["Repaired " ++ headline repair.kind repair.range, repair.text, ""] ++ root.outline

/-! ### Directories of dumps -/

/-- The lines for the dumps of a directory. -/
structure Tally where
  output : List String
  errors : List String
  zipped : Nat
  failed : Nat
deriving Repr

/-- One more dump in front of others. -/
def Tally.add (tally : Tally) (path : String) (dump : Except FailureReport Dump) : Tally :=
  match dump with
  | .error report =>
    { tally with
      errors := s!"✗ {path}: {report.oneLine}" :: tally.errors
      failed := tally.failed + 1 }
  | .ok ⟨_, .empty⟩ =>
    { tally with output := s!"⊙ {path}: empty cell" :: tally.output, zipped := tally.zipped + 1 }
  | .ok ⟨_, .tree root⟩ =>
    let line := s!"✓ {path}: {root.nodeCount} nodes, {root.lexemes.length} tokens, " ++
      renderHash root.fingerprint
    { tally with output := line :: tally.output, zipped := tally.zipped + 1 }

/-- The lines for dumps. -/
def tally {m : Type → Type} [Monad m] (files : FileAccess m) (config : Config) :
    List String → m Tally
  | [] => return ⟨[], [], 0, 0⟩
  | path :: later => do
    let dump ← Dump.load files config path
    return (← tally files config later).add path dump

/-- What comes of the dumps of a directory. -/
def Tally.outcome (tally : Tally) : Outcome :=
  ⟨if tally.failed = 0 then 0 else 1,
    Outcome.lines (tally.output ++
      ["", "Summary:", s!"  {tally.zipped} zipped", s!"  {tally.failed} failed"]),
    Outcome.lines tally.errors⟩

/-! ### Commands -/

section

variable {m : Type → Type} [Monad m]

/-- Show the tree of a dump, or check the dumps of a directory. -/
def zip (files : FileAccess m) (config : Config) (path : String) (json : Bool) : m Outcome := do
  if ← files.isDirectory path then
    let names ← Dump.namesBelow files path
    if names.isEmpty then return .ofReport ⟨s!"No .json dumps found in {path}", []⟩
    return (← tally files config names).outcome
  else
    let dump ← Dump.load files config path
    return .ofLines (dump.map fun dump => showTree json dump.tree)

/-- Run the parser on a source file and show the tree. -/
def parse (surroundings : Surroundings m) (config : Config) (path : String) (json : Bool) :
    m Outcome := do
  match ← surroundings.files.read path with
  | .error error => return .ofReport (Dump.unreadable path error)
  | .ok source =>
    match ← ParserProcess.zip surroundings.host config source with
    | .error failure =>
      return .ofReport ⟨s!"failed to parse {path}", failure.message :: failure.cause?.toList⟩
    | .ok tree => return .success (showTree json tree)

/-- The report on a dump of a blank cell. -/
def emptyCell (path : String) : FailureReport := ⟨s!"{path} is an empty cell", []⟩

/-- Show the narrowest node of a dump that contains a range. -/
def locate (files : FileAccess m) (config : Config) (path : String) (range : Range)
    (json : Bool) : m Outcome := do
  let dump ← Dump.load files config path
  return .ofLines do
    match (← dump).tree with
    | .empty => .error (emptyCell path)
    | .tree root => .ok (showNode json (root.locate range) (root.nodeAt range))

/-- Replace a range of a dump's source and show what becomes of the tree. -/
def repair (files : FileAccess m) (config : Config) (path : String) (range : Range)
    (text : String) (json : Bool) : m Outcome := do
  let dump ← Dump.load files config path
  return .ofLines do
    match ← dump with
    | ⟨_, .empty⟩ => .error (emptyCell path)
    | ⟨none, .tree _⟩ => .error ⟨s!"{path} has no source text to edit", []⟩
    | ⟨some source, .tree root⟩ =>
      let edit := EditDescriptor.replace source range text
      let (root, repair) := root.repair edit (edit.apply source)
      .ok (showRepair json repair root)

/-- What a request comes to. -/
def serve (surroundings : Surroundings m) (config : Config) : Request → m Outcome
  | .zip path json => zip surroundings.files config path json
  | .parse path json => parse surroundings config path json
  | .locate path range json => locate surroundings.files config path range json
  | .repair path range text json => repair surroundings.files config path range text json

/-- What running the program with arguments comes to. -/
def run (surroundings : Surroundings m) (arguments : List String) : m Outcome := do
  match Arguments.read arguments with
  | .error reason => return halt reason
  | .ok ⟨none, request⟩ => serve surroundings {} request
  | .ok ⟨some name, request⟩ =>
    match ← Config.load surroundings.files name with
    | .error error => return .ofReport ⟨error.message, [error.cause]⟩
    | .ok config => serve surroundings config request

end

end CommandLine

end CellSyntax
