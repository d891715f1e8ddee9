/-
**Commands of a shell script.**

A word is a list of pieces: characters that stand for themselves, and what is put in when the word
is expanded. A command is simple, a list of words, or put together from other commands. The text of
a here-document stands behind the line that asks for it, so a redirection only has its number.

* `Word.plain?_text`: a word without quotes and substitutions is its characters.
-/

import CellSyntax.Shell.Bytes

namespace CellSyntax.Shell

/-- What is done about a parameter that is not set. -/
inductive Fallback where
  /-- A word stands in for it. -/
  | replace
  /-- A word is its value from now on. -/
  | assign
  /-- The script ends. -/
  | complain
  /-- A word stands in for it if it is set. -/
  | swap
deriving DecidableEq, Repr

/-- How a file is opened. -/
inductive OpenMode where
  | read
  | write
  /-- Even if the shell does not overwrite files. -/
  | overwrite
  | append
  | readWrite
deriving DecidableEq, Repr

mutual

/-- A part of a word. -/
inductive Piece where
  /-- Characters that stand for themselves. -/
  | text (chars : List Char) (quoted : Bool)
  /-- A pair of quotes, which makes a field even if there is nothing in between. -/
  | quotes
  | parameter (name : List Char) (use : Use) (quoted : Bool)
  | arithmetic (expression : List Piece) (quoted : Bool)
  /-- The output of commands. -/
  | substitution (script : Option Command) (quoted : Bool)

/-- What is made of the value of a parameter. -/
inductive Use where
  | plain
  /-- The number of its bytes. -/
  | length
  /-- With `orEmpty`, an empty value counts as none. -/
  | fallback (kind : Fallback) (orEmpty : Bool) (word : List Piece)
  /-- The value without the shortest or the longest part, at its front or at its end, that matches
  a pattern. -/
  | trim (atFront longest : Bool) (pattern : List Piece)
  /-- It cannot be understood. -/
  | bad

/-- A change of where a command reads or writes. -/
inductive Redirection where
  | file (descriptor : Nat) (mode : OpenMode) (name : List Piece)
  /-- The descriptor stands for the same as the one that a word names. -/
  | duplicate (descriptor : Nat) (isInput : Bool) (target : List Piece)
  | document (descriptor : Nat) (number : Nat)

/-- A case of a choice. -/
inductive Arm where
  | mk (patterns : List (List Piece)) (body : Option Command)

/-- A command. -/
inductive Command where
  | simple (line : Nat) (assignments : List (List Char × List Piece)) (words : List (List Piece))
    (redirections : List Redirection)
  /-- The output of a command is the input of the next one. -/
  | pipeline (commands : List Command)
  | negation (command : Command)
  | both (first second : Command)
  | either (first second : Command)
  | sequence (first second : Command)
  | background (command : Command)
  | redirected (line : Nat) (command : Command) (redirections : List Redirection)
  | subshell (line : Nat) (command : Command) (redirections : List Redirection)
  | conditional (test body : Command) (otherwise : Option Command)
  /-- The body is run as long as the test succeeds, or as long as it fails. -/
  | loop (untilSuccess : Bool) (test body : Command)
  | each (line : Nat) (name : List Char) (words : List (List Piece)) (body : Command)
  | choice (line : Nat) (word : List Piece) (arms : List Arm)
  | define (name : List Char) (body : Command)

end

/-- A word before it is expanded. -/
abbrev Word := List Piece

namespace Word

/-- The characters of a word that has neither quotes nor anything to put in. -/
def plain? : Word → Option (List Char)
  | [] => some []
  | .text chars false :: rest => (plain? rest).map (chars ++ ·)
  | _ :: _ => none

/-- The characters of a word taken as they are, without its quotes. -/
def literal : Word → List Char
  | [] => []
  | .text chars _ :: rest => chars ++ literal rest
  | _ :: rest => literal rest

/-- A word with a character put in front. -/
def push (char : Char) (quoted : Bool) : Word → Word
  | .text chars same :: rest =>
    if same = quoted then .text (char :: chars) quoted :: rest
    else .text [char] quoted :: .text chars same :: rest
  | word => .text [char] quoted :: word

theorem plain?_text (chars : List Char) : plain? [.text chars false] = some chars := by
  simp [plain?]

end Word

/-- Whether a character can start the name of a variable. -/
def isNameStart (char : Char) : Bool := char.isAlpha || char == '_'

/-- Whether a character can go on a name of a variable. -/
def isNameChar (char : Char) : Bool := char.isAlphanum || char == '_'

/-- Whether a text is the name of a variable. -/
def isName : List Char → Bool
  | [] => false
  | char :: rest => isNameStart char && rest.all isNameChar

/-- A text that assigns a value to a variable: the name, and what follows the equals sign. -/
def splitAssignment? (text : List Char) : Option (List Char × List Char) :=
  let name := text.takeWhile isNameChar
  match text.dropWhile isNameChar with
  | '=' :: value => if isName name then some (name, value) else none
  | _ => none

/-- A word that assigns a value to a variable: the name and the word of the value. -/
def Word.assignment? : Word → Option (List Char × Word)
  | .text chars false :: rest =>
    (splitAssignment? chars).map fun (name, value) =>
      (name, if value.isEmpty then rest else .text value false :: rest)
  | _ => none

end CellSyntax.Shell
