/-
**The program.**

The files are those of the file system; the parser is run by the built-in host.
-/

import CellSyntax.CommandLine.Run
import CellSyntax.Process.Host

namespace CellSyntax

namespace Disk

/-- What a failure to read a file says about it. -/
def reason : IO.Error → SystemError
  | .noFileOrDirectory .. => .notFound
  | .permissionDenied .. => .permissionDenied
  | .inappropriateType .. => .notDirectory
  | .userError _ => .notText
  | _ => .notFound

/-- A name as the root of a walk through the file system. -/
def root (name : String) : IO.FS.DirEntry := ⟨name, name⟩

/-- What a name leads to. -/
def entry (name : String) : IO (Except SystemError FileEntry) := do
  match FileTree.outside.entry name with
  | .ok (.program program) => return .ok (.program program)
  | .ok (.descriptor number) => return .ok (.descriptor number)
  | _ =>
    if ← (root name).root.isDir then return .ok .directory
    try return .ok (.file (← IO.FS.readFile name))
    catch error => return .error (reason error)

/-- The names of what is in a directory. -/
def names (name : String) : IO (List String) := do
  try return (← (root name).root.readDir).toList.map IO.FS.DirEntry.fileName
  catch _ => return []

/-- The files below a directory, each with its path from there. -/
partial def filesBelow (name : String) : IO (List (List String)) := do
  let entries ← (root name).root.readDir
  let below ← entries.toList.mapM fun entry => do
    if ← entry.path.isDir then
      return (← filesBelow entry.path.toString).map (entry.fileName :: ·)
    else return [[entry.fileName]]
  return below.flatten

/-- Access to the file system. -/
def access : FileAccess IO := ⟨entry, names, filesBelow⟩

end Disk

end CellSyntax

/-- Runs the command line. -/
def main (arguments : List String) : IO UInt32 := do
  let files := CellSyntax.Disk.access
  let outcome ← CellSyntax.CommandLine.run ⟨files, CellSyntax.Host.builtIn files⟩ arguments
  IO.print outcome.output
  IO.eprint outcome.errors
  return outcome.exit.toUInt32
