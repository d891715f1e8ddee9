/-
**Files.**

What a program asks about files, and a tree of files that is held in memory: a list of paths from
the working directory with what each of them leads to. A name is followed part by part, so that
every part but the last has to be a directory.

* `FileTree.read_file`, `FileTree.read_directory`: reading a name that leads to a file gives its
  contents, and one that leads to a directory is refused.
-/

import CellSyntax.SystemError

namespace CellSyntax

/-- The programs that can be run. -/
inductive Program where
  | cat
  | shell
deriving DecidableEq, Repr

/-- What a path leads to. -/
inductive FileEntry where
  | file (contents : String)
  | directory
  | program (program : Program)
  /-- What is written to it is lost, and there is nothing to read. -/
  | nothing
  /-- Nothing can be written to it. -/
  | full
  /-- Whatever the process has open under the number of a descriptor. -/
  | descriptor (number : Nat)
deriving DecidableEq, Repr

namespace FileEntry

/-- The contents that can be read as text. -/
def read : FileEntry → Except SystemError String
  | file contents => .ok contents
  | directory => .error .isDirectory
  | program _ => .error .notText
  | nothing => .ok ""
  | full => .ok ""
  | descriptor _ => .ok ""

end FileEntry

/-- What a program asks about files. -/
structure FileAccess (m : Type → Type) where
  /-- What a name leads to. -/
  entry : String → m (Except SystemError FileEntry)
  /-- The names of what is in a directory. -/
  names : String → m (List String)
  /-- The files at any depth below a directory, each with its path from there. -/
  filesBelow : String → m (List (List String))

namespace FileAccess

variable {m : Type → Type} [Monad m]

/-- The contents of a file. -/
def read (files : FileAccess m) (name : String) : m (Except SystemError String) := do
  return (← files.entry name).bind FileEntry.read

/-- Whether a name leads to a directory. -/
def isDirectory (files : FileAccess m) (name : String) : m Bool := do
  match ← files.entry name with
  | .ok .directory => return true
  | _ => return false

end FileAccess

/-- Paths from the working directory with what they lead to. The directories that they are in need
not be listed. -/
structure FileTree where
  entries : List (List String × FileEntry)
deriving Repr

namespace FileTree

/-- The parts of a name. -/
def parts (name : String) : List String :=
  (name.splitOn "/").filter fun part => part ≠ "" ∧ part ≠ "."

/-- The tree of files and directories that are named by relative names. -/
def ofNames (files : List (String × String)) (directories : List String) : FileTree :=
  ⟨(files.map fun (name, contents) => (parts name, FileEntry.file contents)) ++
    directories.map fun name => (parts name, FileEntry.directory)⟩

/-- What a path leads to. -/
def entry? (tree : FileTree) (path : List String) : Option FileEntry :=
  match tree.entries.find? fun (name, _) => name = path with
  | some (_, entry) => some entry
  | none =>
    if path.isEmpty || tree.entries.any fun (name, _) => path.isPrefixOf name then
      some .directory
    else none

/-- The longest name that a file can have, in bytes. -/
def maxNameLength : Nat := 255

/-- The longest path that can be followed, in bytes. -/
def maxPathLength : Nat := 4095

/-- The path and the entry that parts of a name lead to from the directory or file `path`. -/
def follow (tree : FileTree) (path : List String) :
    List String → Except SystemError (List String × FileEntry)
  | [] =>
    match tree.entry? path with
    | some entry => .ok (path, entry)
    | none => .error .notFound
  | part :: rest =>
    match tree.entry? path with
    | none => .error .notFound
    | some .directory =>
      if part = "" ∨ part = "." then tree.follow path rest
      else if part = ".." then tree.follow path.dropLast rest
      else if maxNameLength < part.utf8ByteSize then .error .nameTooLong
      else tree.follow (path ++ [part]) rest
    | some _ => .error .notDirectory

/-- The directories outside the working directory that every system has. -/
def outerDirectories : List (List String) :=
  [["boot"], ["home"], ["media"], ["mnt"], ["opt"], ["proc"], ["root"], ["run"], ["sbin"], ["srv"],
    ["sys"], ["tmp"], ["usr", "lib"], ["usr", "local", "bin"], ["usr", "sbin"], ["usr", "share"],
    ["lib"], ["var", "tmp"]]

/-- The descriptors that have names of their own. -/
def descriptors : List (List String × FileEntry) :=
  (List.range 10).flatMap fun number =>
    [(["dev", "fd", toString number], .descriptor number),
      (["proc", "self", "fd", toString number], .descriptor number)]

/-- What is known of the files outside the working directory, with their paths from the root
directory. -/
def outside : FileTree :=
  ⟨descriptors ++ [(["dev", "null"], .nothing), (["dev", "full"], .full),
    (["dev", "stdin"], .descriptor 0),
    (["dev", "stdout"], .descriptor 1), (["dev", "stderr"], .descriptor 2),
    (["bin", "cat"], .program .cat),
    (["bin", "sh"], .program .shell), (["bin", "dash"], .program .shell),
    (["usr", "bin", "cat"], .program .cat), (["usr", "bin", "sh"], .program .shell),
    (["usr", "bin", "dash"], .program .shell),
    (["etc", "passwd"], .file "root:x:0:0:root:/root:/bin/bash\n")] ++
    outerDirectories.map fun path => (path, .directory)⟩

/-- What a name leads to. -/
def resolve (tree : FileTree) (name : String) : Except SystemError (List String × FileEntry) :=
  if name = "" then .error .notFound
  else if maxPathLength < name.utf8ByteSize then .error .nameTooLong
  else if name.startsWith "/" then outside.follow [] ((name.splitOn "/").drop 1)
  else tree.follow [] (name.splitOn "/")

/-- The entry that a name leads to. -/
def entry (tree : FileTree) (name : String) : Except SystemError FileEntry :=
  (tree.resolve name).map Prod.snd

/-- The contents of the file that a name leads to. -/
def read (tree : FileTree) (name : String) : Except SystemError String :=
  (tree.entry name).bind FileEntry.read

/-- The tree that a name is followed in. -/
def home (tree : FileTree) (name : String) : FileTree :=
  if name.startsWith "/" then outside else tree

/-- The entries below the directory that a name leads to, each with its path from there. -/
def entriesBelow (tree : FileTree) (name : String) : List (List String × FileEntry) :=
  match tree.resolve name with
  | .ok (path, .directory) =>
    (tree.home name).entries.filterMap fun (file, entry) =>
      if path.isPrefixOf file ∧ path ≠ file then some (file.drop path.length, entry) else none
  | _ => []

/-- The files at any depth below the directory that a name leads to. -/
def filesBelow (tree : FileTree) (name : String) : List (List String) :=
  (tree.entriesBelow name).filterMap fun (path, entry) =>
    match entry with
    | .file _ => some path
    | _ => none

/-- The names of what is in the directory that a name leads to. -/
def names (tree : FileTree) (name : String) : List String :=
  ((tree.entriesBelow name).filterMap fun (path, _) => path.head?).eraseDups

theorem read_file {tree : FileTree} {name contents : String} {path : List String}
    (found : tree.resolve name = .ok (path, .file contents)) : tree.read name = .ok contents := by
  rw [read, entry, found]
  rfl

theorem read_directory {tree : FileTree} {name : String} {path : List String}
    (found : tree.resolve name = .ok (path, .directory)) :
    tree.read name = .error .isDirectory := by
  rw [read, entry, found]
  rfl

/-- Access to the files of a tree. -/
def access (tree : FileTree) : FileAccess Id where
  entry name := tree.entry name
  names name := tree.names name
  filesBelow name := tree.filesBelow name

end FileTree

end CellSyntax
