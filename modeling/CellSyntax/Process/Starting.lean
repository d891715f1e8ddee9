/-
**Starting programs by name.**

A name with a slash is followed as it stands. Any other name is looked for among the programs of the
system. Where the name leads to a program, that is run; what it then does is a parameter.

* `Host.ofPrograms_empty`: a program without a name does not exist;
* `Host.resolve_installed`: a name without a slash stands for the program installed under it;
* `Host.ofPrograms_found`: a program that is found is run.
-/

import CellSyntax.Files
import CellSyntax.Process.Basic

namespace CellSyntax

namespace Host

/-- The program that a name stands for, or why it cannot be run. -/
def resolve {m : Type → Type} [Monad m] (files : FileAccess m) (name : String) :
    m (Except SystemError Program) := do
  if name = "" then return .error .notFound
  else if name.contains '/' then
    match ← files.entry name with
    | .ok (.program program) => return .ok program
    | .ok _ => return .error .permissionDenied
    | .error error => return .error error
  else if name = "." ∨ name = ".." then return .error .permissionDenied
  else if FileTree.maxNameLength < name.utf8ByteSize then return .error .nameTooLong
  else
    match ← files.entry ("/bin/" ++ name) with
    | .ok (.program program) => return .ok program
    | _ => return .error .notFound

/-- The host that finds programs by their names and runs them by `run`. -/
def ofPrograms {m : Type → Type} [Monad m] (files : FileAccess m)
    (run : Program → (name : String) → (args : List String) → (input : List UInt8) →
      m Completed) : Host m :=
  fun program args input => do
    if (program :: args).any fun text => text.contains '\x00' then return .error .zeroByte
    match ← resolve files program with
    | .error error => return .error error
    | .ok found => return .ok (← run found program args input)

theorem ofPrograms_empty (files : FileAccess Id)
    (run : Program → String → List String → List UInt8 → Completed) (input : List UInt8) :
    ofPrograms files run "" [] input = (.error .notFound : Except SystemError Completed) := by
  simp [ofPrograms, resolve]
  rfl

/-- A name without a slash stands for the program that is installed under it. -/
theorem resolve_installed {files : FileAccess Id} {name : String} {program : Program}
    (plain : name.contains '/' = false) (proper : name ∉ ["", ".", ".."])
    (short : name.utf8ByteSize ≤ FileTree.maxNameLength)
    (installed : files.entry ("/bin/" ++ name) =
      (.ok (.program program) : Except SystemError FileEntry)) :
    resolve files name = (.ok program : Except SystemError Program) := by
  simp only [List.mem_cons, List.not_mem_nil, or_false, not_or] at proper
  obtain ⟨some, notHere, notAbove⟩ := proper
  unfold resolve
  rw [if_neg some, plain, if_neg Bool.false_ne_true, if_neg (not_or.2 ⟨notHere, notAbove⟩),
    if_neg (Nat.not_lt_of_le short)]
  simp only [installed, bind, pure]

/-- A program that is found is run. -/
theorem ofPrograms_found {files : FileAccess Id}
    {run : Program → String → List String → List UInt8 → Completed} {program : String}
    {args : List String} {found : Program}
    (plain : (program :: args).any (fun text => text.contains '\x00') = false)
    (leads : resolve files program = (.ok found : Except SystemError Program))
    (input : List UInt8) : ofPrograms files run program args input =
      (.ok (run found program args input) : Except SystemError Completed) := by
  unfold ofPrograms
  rw [plain]
  simp only [leads, Bool.false_eq_true, if_false, bind, pure]

end Host

end CellSyntax
