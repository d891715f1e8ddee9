/-
**Signals.**

A signal has a number and may have a name; most signals end the process that they are sent to.

* `Signal.isHarmless_terminate`: a process does not go on after `TERM`.
-/

import CellSyntax.Text.Decimal

namespace CellSyntax

namespace Signal

/-- The names of the signals that have one. -/
def names : List (Nat × String) :=
  [(1, "HUP"), (2, "INT"), (3, "QUIT"), (4, "ILL"), (5, "TRAP"), (6, "ABRT"), (7, "BUS"),
    (8, "FPE"), (9, "KILL"), (10, "USR1"), (11, "SEGV"), (12, "USR2"), (13, "PIPE"), (14, "ALRM"),
    (15, "TERM"), (16, "STKFLT"), (17, "CHLD"), (18, "CONT"), (19, "STOP"), (20, "TSTP"),
    (21, "TTIN"), (22, "TTOU"), (23, "URG"), (24, "XCPU"), (25, "XFSZ"), (26, "VTALRM"),
    (27, "PROF"), (28, "WINCH"), (29, "IO"), (30, "PWR"), (31, "SYS")]

/-- The number after that of the last signal. -/
def limit : Nat := 65

/-- The first of the signals that are numbered through. -/
def realTime : Nat := 34

/-- What is sent when a process of a shell ends. -/
def childEnded : Nat := 17

/-- What is sent by a key that interrupts. -/
def interrupt : Nat := 2

/-- What `TERM` is sent as. -/
def terminate : Nat := 15

/-- Whether a process goes on after a signal that it does nothing about. -/
def isHarmless (signal : Nat) : Bool := [0, 17, 18, 19, 20, 21, 22, 23, 28].contains signal

theorem isHarmless_terminate : isHarmless terminate = false := by decide

/-- Whether nothing can be done about a signal. -/
def isForced (signal : Nat) : Bool := [9, 19].contains signal

/-- The name that a signal has in a list of signals: signals without a name go by their number, and
those that are numbered through by their distance from the nearer end. -/
def label (signal : Nat) : String :=
  if signal = realTime then "RTMIN"
  else if signal = limit - 1 then "RTMAX"
  else if realTime < signal ∧ signal < 50 then s!"RTMIN+{signal - realTime}"
  else if 50 ≤ signal ∧ signal < limit then s!"RTMAX-{limit - 1 - signal}"
  else if signal = 16 then "16"
  else (names.lookup signal).getD (toString signal)

/-- What the user is told when a signal has ended a process. -/
def descriptions : List (Nat × String) :=
  [(1, "Hangup"), (2, "Interrupt"), (3, "Quit"), (4, "Illegal instruction"),
    (5, "Trace/breakpoint trap"), (6, "Aborted"), (7, "Bus error"),
    (8, "Floating point exception"), (9, "Killed"), (10, "User defined signal 1"),
    (11, "Segmentation fault"), (12, "User defined signal 2"), (13, "Broken pipe"),
    (14, "Alarm clock"), (15, "Terminated"), (16, "Stack fault"), (17, "Child exited"),
    (18, "Continued"), (19, "Stopped (signal)"), (20, "Stopped"), (21, "Stopped (tty input)"),
    (22, "Stopped (tty output)"), (23, "Urgent I/O condition"), (24, "CPU time limit exceeded"),
    (25, "File size limit exceeded"), (26, "Virtual timer expired"),
    (27, "Profiling timer expired"), (28, "Window changed"), (29, "I/O possible"),
    (30, "Power failure"), (31, "Bad system call")]

/-- What the user is told when a signal has ended a process, also if it has no name. -/
def describe (signal : Nat) : String :=
  match descriptions.lookup signal with
  | some text => text
  | none =>
    if realTime ≤ signal then s!"Real-time signal {signal - realTime}"
    else s!"Unknown signal {signal}"

/-- Whether the user is not told of a signal. -/
def isQuiet (signal : Nat) : Bool := [2, 13].contains signal

/-- Whether two names are equal apart from their case. -/
def sameName (first second : String) : Bool := first.toUpper == second.toUpper

/-- The signal that a text names, by its number or its label. -/
def named? (text : String) : Option Nat :=
  let digits := text.toList
  if digits ≠ [] ∧ digits.all Text.isDigit then
    let number := Text.numeral 10 digits
    if number < limit then some number else none
  else ((List.range limit).drop 1).find? fun signal => sameName (label signal) text

end Signal

end CellSyntax
