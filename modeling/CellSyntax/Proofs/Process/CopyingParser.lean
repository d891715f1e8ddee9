/-
**A parser that copies its input.**

Text that a parser writes arrives as it was written, whatever host the parser runs on. The program
`cat` writes what it is given, so that with it as the parser the source of a cell is the answer. A
source that was written as an answer is then read back as that answer, with its lines counted from
the base and itself as the source if it has none.

* `ParserProcess.parse_answer`: what a parser writes is decoded;
* `Host.run_cat`: the built-in `cat` copies its input;
* `ParserProcess.parse_cat`, `ParserProcess.zip_cat`: with `cat` as the parser, a source is its own
  answer, and a written answer comes back as it was.
-/

import CellSyntax.ParserProcess
import CellSyntax.Process.Host
import CellSyntax.Proofs.Json.RoundTrip
import CellSyntax.Proofs.Text.Decoding

namespace CellSyntax

/-- **What a parser writes is decoded**, on any host, if the parser succeeds. -/
theorem ParserProcess.parse_answer {host : Host Id} {config : ParserConfig}
    {source answer : String} {errors : List UInt8}
    (runs : host config.program config.args (Text.toBytes source) =
      (.ok ⟨.code 0, Text.toBytes answer, errors⟩ : Except SystemError Completed)) :
    parse host config source = decode config.lineBase source answer := by
  have done : parse host config source =
      finish config.lineBase source ⟨.code 0, Text.toBytes answer, errors⟩ := by
    simp only [parse, runs, bind, pure]
  have succeeded : (ExitStatus.code 0).succeeded = true := rfl
  rw [done, finish, if_pos succeeded, Text.ofBytes_toBytes]

/-- **The program `cat` copies its input** if it is run without arguments. -/
theorem Host.run_cat (files : FileAccess Id) (name : String) (input : List UInt8) :
    run files .cat name [] input = (⟨.code 0, input, []⟩ : Completed) := by
  have copied : run files .cat name [] input =
      (⟨.code 0, Shell.toBytes (Shell.ofBytes input ++ []), []⟩ : Completed) := rfl
  rw [copied, List.append_nil, Shell.toBytes_ofBytes]

/-! ### Where `cat` is installed -/

section Installed

variable {files : FileAccess Id}
  (installed : files.entry "/bin/cat" = (.ok (.program .cat) : Except SystemError FileEntry))

include installed

theorem Host.builtIn_cat (input : List UInt8) : builtIn files "cat" [] input =
    (.ok ⟨.code 0, input, []⟩ : Except SystemError Completed) := by
  have found : resolve files "cat" = (.ok .cat : Except SystemError Program) :=
    resolve_installed (by simp) (by decide) (by decide) installed
  rw [builtIn, ofPrograms_found (by simp) found, run_cat]

/-- **With `cat` as the parser, a source is the answer to itself.** -/
theorem ParserProcess.parse_cat (lineBase : Nat) (source : String) :
    parse (Host.builtIn files) ⟨"cat", [], lineBase⟩ source = decode lineBase source source :=
  parse_answer (Host.builtIn_cat installed _)

/-- **A written answer comes through `cat` as it is**: it is zipped with its lines counted from the
base, and has its own text for a source if it has none. -/
theorem ParserProcess.zip_cat (tokens : TokenConfig) (lineBase : Nat) {output : ParseOutput}
    (within : output.Within maxCoordinate) (shallow : output.toJson.levels < 128) :
    zip (Host.builtIn files) ⟨tokens, ⟨"cat", [], lineBase⟩⟩ output.toJson.compact =
      tree tokens (some (complete lineBase output.toJson.compact output)) := by
  have read := ParseOutput.read_of_toJson
    (Json.read_compact (ParseOutput.integral_toJson within) shallow)
  have parsed := parse_cat installed lineBase output.toJson.compact
  rw [decode, read] at parsed
  simp only [zip, parsed, Option.map_some, bind, pure]

end Installed

end CellSyntax
