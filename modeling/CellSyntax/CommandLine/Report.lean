/-
**Reports of failures.**

A failure that ends the program is a message with its causes. It is reported over several lines,
or on one line with colons in between.

* `FailureReport.render_no_cause`: without causes, the report is the message alone.
-/

import CellSyntax.Text.Lines

namespace CellSyntax

/-- A message and what caused it, the nearest cause first. -/
structure FailureReport where
  message : String
  causes : List String
deriving DecidableEq, Repr

namespace FailureReport

/-- A text whose lines after the first are indented. -/
def hang (margin : String) (text : String) : String :=
  ("\n" ++ margin).intercalate ((Text.lines text.toList).map String.ofList)

/-- A number at the end of five columns. -/
def column (value : Nat) : String :=
  let digits := Nat.toDigits 10 value
  String.ofList (List.replicate (5 - digits.length) ' ' ++ digits)

/-- Causes, each with its number. -/
def numbered (first : Nat) : List String → List String
  | [] => []
  | cause :: later => (column first ++ ": " ++ hang "       " cause) :: numbered (first + 1) later

/-- The lines below a message that tell its causes. -/
def causeLines : List String → List String
  | [] => []
  | [cause] => ["", "Caused by:", "    " ++ hang "    " cause]
  | causes => ["", "Caused by:"] ++ numbered 0 causes

/-- The report over several lines. -/
def render (report : FailureReport) : String :=
  "\n".intercalate (("Error: " ++ report.message) :: causeLines report.causes) ++ "\n"

/-- The report on one line. -/
def oneLine (report : FailureReport) : String :=
  ": ".intercalate (report.message :: report.causes)

theorem render_no_cause (message : String) :
    render ⟨message, []⟩ = "Error: " ++ message ++ "\n" := by
  simp [render, causeLines, String.intercalate_singleton]

end FailureReport

end CellSyntax
