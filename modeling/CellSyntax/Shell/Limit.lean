/-
**Limits of a process.**

For some things there is a most that a process may use. Such a limit has two values: the soft one
counts, and the hard one bounds it and is never raised again. Either may be missing, and then
nothing is limited.

* `Limit.become?_eq_ok_iff`: a change is made exactly if the hard value bounds the soft one
  afterwards and is not raised.
-/

import CellSyntax.Shell.Bytes
import CellSyntax.SystemError
import CellSyntax.Text.Decimal

namespace CellSyntax.Shell

/-- The most that a process may use of something. -/
structure Limit where
  letter : Char
  name : String
  /-- The amount that is shown as one. -/
  unit : Nat := 1
  soft : Option Nat := none
  hard : Option Nat := none
deriving DecidableEq, Repr

namespace Limit

/-- The limits of a process that starts. -/
def standard : List Limit :=
  [{ letter := 't', name := "time(seconds)" },
    { letter := 'f', name := "file(blocks)", unit := 512 },
    { letter := 'd', name := "data(kbytes)", unit := 1024 },
    { letter := 's', name := "stack(kbytes)", unit := 1024, soft := some 8388608 },
    { letter := 'c', name := "coredump(blocks)", unit := 512, soft := some 0 },
    { letter := 'm', name := "memory(kbytes)", unit := 1024 },
    { letter := 'l', name := "locked memory(kbytes)", unit := 1024, soft := some 8388608,
      hard := some 8388608 },
    { letter := 'p', name := "process" },
    { letter := 'n', name := "nofiles", soft := some 1048576, hard := some 1048576 },
    { letter := 'v', name := "vmemory(kbytes)", unit := 1024 },
    { letter := 'w', name := "locks" },
    { letter := 'r', name := "rtprio", soft := some 0, hard := some 0 }]

/-- The letters of all limits. -/
def letters : List Char := standard.map letter

/-- Whether an amount stays below a bound, each of which may be missing. -/
def isWithin : Option Nat → Option Nat → Bool
  | _, none => true
  | none, some _ => false
  | some amount, some bound => amount ≤ bound

/-- The limit with another soft value, another hard one or both. -/
def replace (isSoft isHard : Bool) (value : Option Nat) (limit : Limit) : Limit :=
  { limit with
    soft := if isSoft then value else limit.soft
    hard := if isHard then value else limit.hard }

/-- The limit after it has been replaced by another one, unless that is refused. -/
def become? (limit changed : Limit) : Except SystemError Limit :=
  if isWithin changed.soft changed.hard then
    if isWithin changed.hard limit.hard then .ok changed else .error .notPermitted
  else .error .invalidArgument

theorem become?_eq_ok_iff {limit changed final : Limit} :
    limit.become? changed = .ok final ↔
      isWithin changed.soft changed.hard ∧ isWithin changed.hard limit.hard ∧
        changed = final := by
  unfold become?
  split
  · split <;> simp_all
  · simp_all

/-- The number that stands for no limit, one less than the number of all words. -/
def endless : Nat := 0xFFFFFFFFFFFFFFFF

/-- The value that a text stands for, if it is one. -/
def read? (limit : Limit) (text : List Char) : Option (Option Nat) :=
  if text = "unlimited".toList then some none
  else if text.all Text.isDigit then
    let amount := Text.numeral 10 text * limit.unit % (endless + 1)
    some (if amount = endless then none else some amount)
  else none

/-- One of the two values as it is shown. -/
def render (isSoft : Bool) (limit : Limit) : List Char :=
  match if isSoft then limit.soft else limit.hard with
  | none => "unlimited".toList
  | some amount => decimal (amount / limit.unit)

/-- The width of a name in a list of limits. -/
def nameWidth : Nat := 20

/-- The limit as it is shown in a list. -/
def line (isSoft : Bool) (limit : Limit) : List Char :=
  let name := limit.name.toList
  name ++ List.replicate (nameWidth - name.length) ' ' ++ ' ' :: limit.render isSoft ++ ['\n']

end Limit

end CellSyntax.Shell
