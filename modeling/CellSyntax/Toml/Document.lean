/-
**TOML documents.**

A document is a list of statements, one on a line: a header opens a table or adds one to an array
of tables, and an entry gives a key its value in the table that is open.

* `Toml.read_empty`: an empty text is the empty document.
-/

import CellSyntax.Toml.Scalar
import CellSyntax.Toml.Table

namespace CellSyntax

namespace Toml

/-! ### Blanks and keys -/

/-- The text after a comment, from the line break on. -/
def skipComment : List Char → Option (List Char)
  | [] => some []
  | '\n' :: rest => some ('\n' :: rest)
  | '\r' :: '\n' :: rest => some ('\n' :: rest)
  | char :: rest => if isControl char then none else skipComment rest

/-- The text after the end of a line, a comment being skipped. -/
def endLine (text : List Char) : Option (List Char) :=
  let rest := skipSpaces text
  let ended := match rest with
    | '#' :: comment => skipComment comment
    | _ => some rest
  match ended with
  | some [] => some []
  | some ('\n' :: rest) => some rest
  | some ('\r' :: '\n' :: rest) => some rest
  | _ => none

/-- The text after spaces, line breaks and comments, at most `steps` lines of them. -/
def skipLines : (steps : Nat) → List Char → Option (List Char)
  | 0, _ => none
  | steps + 1, text =>
    match skipSpaces text with
    | '#' :: comment =>
      match skipComment comment with
      | none => none
      | some rest => skipLines steps rest
    | '\n' :: rest => skipLines steps rest
    | '\r' :: '\n' :: rest => skipLines steps rest
    | rest => some rest

/-- The text after all blank lines and comments at its front. -/
def skipBlanks (text : List Char) : Option (List Char) := skipLines (2 * text.length + 1) text

/-- Whether a character may stand in a key without quotes. -/
def isBareKeyChar (char : Char) : Bool := char.isAlphanum || char == '_' || char == '-'

/-- A key, quoted on one line or bare, with what follows. -/
def readKey (text : List Char) : Option (String × List Char) :=
  match text with
  | '"' :: rest => (readBasic rest).map fun (chars, rest) => (String.ofList chars, rest)
  | '\'' :: rest => (readLiteral rest).map fun (chars, rest) => (String.ofList chars, rest)
  | _ =>
    let chars := text.takeWhile isBareKeyChar
    if chars.isEmpty then none else some (String.ofList chars, text.dropWhile isBareKeyChar)

/-- Keys with dots between them, at most `steps` of them, with what follows. -/
def readPath : (steps : Nat) → List Char → Option (List String × List Char)
  | 0, _ => none
  | steps + 1, text =>
    match readKey (skipSpaces text) with
    | none => none
    | some (key, rest) =>
      match skipSpaces rest with
      | '.' :: rest => (readPath steps rest).map fun (keys, rest) => (key :: keys, rest)
      | rest => some ([key], rest)

/-- How many keys may have dots between them. -/
def maxPathLength : Nat := 80

/-- Keys with dots between them, with what follows. -/
def readKeys (text : List Char) : Option (List String × List Char) :=
  readPath maxPathLength text

/-- The keys of an entry of an inline table, with the text of its value: lines may end on both
sides of the equals sign. -/
def readInlineKeys (text : List Char) : Option (List String × List Char) :=
  match readKeys text with
  | none => none
  | some (keys, rest) =>
    match skipBlanks rest with
    | some ('=' :: rest) => (skipBlanks rest).map fun rest => (keys, rest)
    | _ => none

/-! ### Values -/

/-- How deep arrays and inline tables may nest. -/
def maxLevels : Nat := 80

mutual

/-- A value, with what follows; arrays and inline tables nest at most `levels` deep. -/
def readValue : (steps levels : Nat) → List Char → Option (Json × List Char)
  | 0, _, _ => none
  | steps + 1, levels, text =>
    match readString? text with
    | some found => found.map fun (value, rest) => (.string value, rest)
    | none =>
      match text, levels with
      | '[' :: rest, levels + 1 =>
        (readItems steps levels rest).map fun (items, rest) => (.array items, rest)
      | '\x7b' :: rest, levels + 1 =>
        (readInline steps levels [] rest).map fun (entries, rest) =>
          (.object (entriesToJson entries), rest)
      | _, _ => readScalar text

/-- The items of an array up to its end. -/
def readItems : (steps levels : Nat) → List Char → Option (List Json × List Char)
  | 0, _, _ => none
  | steps + 1, levels, text =>
    match skipBlanks text with
    | none => none
    | some (']' :: rest) => some ([], rest)
    | some text =>
      match readValue steps levels text with
      | none => none
      | some (item, rest) =>
        match skipBlanks rest with
        | some (']' :: rest) => some ([item], rest)
        | some (',' :: rest) =>
          (readItems steps levels rest).map fun (items, rest) => (item :: items, rest)
        | _ => none

/-- The entries of an inline table up to its end, added to those before. -/
def readInline : (steps levels : Nat) → Entries → List Char → Option (Entries × List Char)
  | 0, _, _, _ => none
  | steps + 1, levels, entries, text =>
    match skipBlanks text with
    | none => none
    | some ('\x7d' :: rest) => some (entries, rest)
    | some text =>
      match readInlineKeys text with
      | none => none
      | some (keys, rest) =>
        match readValue steps levels rest with
        | none => none
        | some (value, rest) =>
          match addEntry keys.dropLast (keys.getLast?.getD "") value .header entries with
          | none => none
          | some (_, entries) =>
            match skipBlanks rest with
            | some ('\x7d' :: rest) => some (entries, rest)
            | some (',' :: rest) => readInline steps levels entries rest
            | _ => none

end

/-! ### Statements -/

/-- One statement of a document. -/
inductive Statement where
  /-- A header that opens a table. -/
  | table (path : List String)
  /-- A header that adds a table to an array. -/
  | element (path : List String)
  /-- An entry of the table that is open. -/
  | entry (path : List String) (value : Json)
deriving Repr

/-- A statement at the front of a text, with what follows it on its line. -/
def readStatement : List Char → Option (Statement × List Char)
  | '[' :: '[' :: rest =>
    match readKeys rest with
    | some (path, ']' :: ']' :: rest) => some (.element path, rest)
    | _ => none
  | '[' :: rest =>
    match readKeys rest with
    | some (path, ']' :: rest) => some (.table path, rest)
    | _ => none
  | text =>
    match readKeys text with
    | some (path, '=' :: rest) =>
      (readValue (2 * rest.length + 2) maxLevels (skipSpaces rest)).map fun (value, rest) =>
        (.entry path value, rest)
    | _ => none

/-- The statements of a text, at most `steps` of them. -/
def readStatements : (steps : Nat) → List Char → Option (List Statement)
  | 0, _ => none
  | steps + 1, text =>
    match skipBlanks text with
    | none => none
    | some [] => some []
    | some text =>
      match readStatement text with
      | none => none
      | some (statement, rest) =>
        match endLine rest with
        | none => none
        | some rest => (readStatements steps rest).map (statement :: ·)

/-- The entries of the root after some statements, `opened` being the path of the table that is
open. -/
def build (opened : List String) (root : Entries) : List Statement → Option Entries
  | [] => some root
  | .table path :: rest => do
    let (_, root) ← changeAt .passed (openTable (path.getLast?.getD "")) path.dropLast .header root
    build path root rest
  | .element path :: rest => do
    let (_, root) ← changeAt .passed (addElement (path.getLast?.getD "")) path.dropLast .header root
    build path root rest
  | .entry path value :: rest => do
    let (_, root) ←
      changeAt .passed (addEntry path.dropLast (path.getLast?.getD "") value) opened .header root
    build opened root rest

/-- The document that a text holds, as a JSON object. -/
def read (text : String) : Option Json :=
  let chars := match text.toList with
    | '\uFEFF' :: rest => rest
    | chars => chars
  do
    let statements ← readStatements (chars.length + 1) chars
    return .object (entriesToJson (← build [] [] statements))

theorem read_empty : (read "").isSome = true := by decide

end Toml

end CellSyntax
