/-
**Parser processes.**

A parser is a program that reads the source of a cell and writes what it found as JSON. Its lines
are counted from the configured base, and a source that it leaves out is the one that it was
given.

* `ParserProcess.decode_blank`: `null` stands for a blank cell;
* `ParserProcess.complete_source`: a completed answer always has a source.
-/

import CellSyntax.Config
import CellSyntax.Json.ParseOutput
import CellSyntax.Process.Basic
import CellSyntax.Text.Utf8
import CellSyntax.Zip.Cell

namespace CellSyntax

/-- Why a parser gave no tree. -/
inductive ParserFailure where
  /-- The program cannot be started. -/
  | spawn (program : String) (cause : SystemError)
  /-- The program failed; the text is what it wrote to its standard error. -/
  | exit (status : ExitStatus) (errors : String)
  /-- The answer is not what a parser answers. -/
  | decode (fault : Json.Fault)
  /-- The brackets of the cell do not match. -/
  | mismatch (found : BracketMismatch)
deriving DecidableEq, Repr

namespace ParserFailure

/-- The wording of a failure. -/
def message : ParserFailure → String
  | spawn program cause => s!"failed to spawn parser '{program}': {cause.message}"
  | exit status errors => s!"parser exited with {status.render}: {errors}"
  | decode fault => s!"failed to decode parser output: {fault.message}"
  | mismatch found => found.message

/-- The wording of what caused a failure, if that is something else. -/
def cause? : ParserFailure → Option String
  | spawn _ cause => some cause.message
  | exit _ _ => none
  | decode fault => some fault.message
  | mismatch _ => none

end ParserFailure

namespace ParserProcess

/-- A text without the blanks around it. -/
def trimmed (text : String) : String := String.ofList (Text.trim text.toList)

/-- A parser's answer with the lines counted from zero and with a source. -/
def complete (lineBase : Nat) (source : String) (output : ParseOutput) : ParseOutput :=
  let output := output.rebase lineBase
  { output with source := some (output.source.getD source) }

/-- What a parser that succeeded found in `source`; nothing if the cell is blank. -/
def decode (lineBase : Nat) (source answer : String) :
    Except ParserFailure (Option ParseOutput) :=
  match ParseOutput.read answer with
  | .error fault => .error (.decode fault)
  | .ok output => .ok (output.map (complete lineBase source))

/-- What a parser that ran to its end found in `source`. -/
def finish (lineBase : Nat) (source : String) (process : Completed) :
    Except ParserFailure (Option ParseOutput) :=
  if process.status.succeeded then decode lineBase source (Text.ofBytes process.output)
  else .error (.exit process.status (trimmed (Text.ofBytes process.errors)))

theorem complete_source (lineBase : Nat) (source : String) (output : ParseOutput) :
    (complete lineBase source output).source = some (output.source.getD source) := rfl

theorem decode_blank (lineBase : Nat) (source : String) :
    decode lineBase source "null" = .ok none := by
  have blank : ParseOutput.read "null" = .ok none := by rfl
  rw [decode, blank]
  rfl

/-- What the configured parser finds in `source`. -/
def parse {m : Type → Type} [Monad m] (host : Host m) (config : ParserConfig) (source : String) :
    m (Except ParserFailure (Option ParseOutput)) := do
  match ← host config.program config.args (Text.toBytes source) with
  | .error error => return .error (.spawn config.program error)
  | .ok process => return finish config.lineBase source process

/-- The tree of what a parser found. -/
def tree (config : TokenConfig) : Option ParseOutput → Except ParserFailure CellTree
  | none => .ok .empty
  | some output =>
    match zipOutput config output with
    | .error mismatch => .error (.mismatch mismatch)
    | .ok tree => .ok tree

/-- The tree of `source` by the configured parser. -/
def zip {m : Type → Type} [Monad m] (host : Host m) (config : Config) (source : String) :
    m (Except ParserFailure CellTree) := do
  match ← parse host config.parser source with
  | .error failure => return .error failure
  | .ok output => return tree config.tokens output

end ParserProcess

end CellSyntax
