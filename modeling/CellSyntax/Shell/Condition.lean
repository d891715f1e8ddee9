/-
**Conditions of shell scripts.**

The command `test` decides about texts, numbers and files. A word is an operator or not depending
on what stands behind it, and with three words the one in the middle counts first.

* `Condition.settle_nil`: nothing to decide about does not hold.
-/

import CellSyntax.Shell.Machine

namespace CellSyntax.Shell

namespace Condition

/-- What a word of a condition means. -/
inductive Meaning where
  | operand
  | unary
  | binary
  | not
  | and
  | or
  | openParenthesis
  | closeParenthesis
  /-- There is no word. -/
  | missing
deriving DecidableEq, Repr

/-- The words with two operands. -/
def binaries : List String :=
  ["=", "!=", "<", ">", "-eq", "-ne", "-gt", "-ge", "-lt", "-le", "-nt", "-ot", "-ef"]

/-- The letters of the words with one operand. -/
def unaries : List Char := "rwxefdcbpugkshLSGOztn".toList

/-- What a word means by itself. -/
def meaning (word : List Char) : Meaning :=
  match word with
  | ['!'] => .not
  | ['('] => .openParenthesis
  | [')'] => .closeParenthesis
  | ['-', 'a'] => .and
  | ['-', 'o'] => .or
  | ['-', letter] => if unaries.contains letter then .unary else .operand
  | word => if binaries.contains (String.ofList word) then .binary else .operand

/-- What the word at a place means among the others. -/
def lookAt (words : List (List Char)) (place : Nat) : Meaning :=
  match words[place]? with
  | none => .missing
  | some word =>
    let next := words[place + 1]?
    let isOperand : Bool :=
      match next with
      | none => true
      | some next => (words[place + 2]?).isSome && meaning next == .binary
    match meaning word with
    | .unary => if isOperand then .operand else .unary
    | .openParenthesis => if next.isNone then .operand else .openParenthesis
    | other => other

/-- What is wrong with a condition. -/
abbrev Decided (Value : Type) := Except (List Char) Value

/-- A word as a number. -/
def number (word : List Char) : Decided Int :=
  match Number.ofText? (some 10) word with
  | some number => .ok number
  | none => .error ("Illegal number: ".toList ++ word)

/-- What an operator says of two words, `entries` being the files that words lead to. -/
def compare (entries : List (List Char × FileEntry)) (first operator second : List Char) :
    Decided Bool := do
  match String.ofList operator with
  | "=" => return first == second
  | "!=" => return first != second
  | "<" => return decide (first < second)
  | ">" => return decide (second < first)
  | "-eq" => return (← number first) == (← number second)
  | "-ne" => return (← number first) != (← number second)
  | "-gt" => return decide ((← number second) < (← number first))
  | "-ge" => return decide ((← number second) ≤ (← number first))
  | "-lt" => return decide ((← number first) < (← number second))
  | "-le" => return decide ((← number first) ≤ (← number second))
  | "-ef" =>
    return (entries.lookup first).isSome &&
      Machine.plainName (asString first) == Machine.plainName (asString second)
  | _ => return false

/-- What a letter says of a file. -/
def ofEntry (letter : Char) : FileEntry → Bool
  | .file contents => "efrwGO".toList.contains letter || (letter = 's' && contents ≠ "")
  | .directory => "edrwxsGO".toList.contains letter
  | .program _ => "efrwxsGO".toList.contains letter
  | .nothing => "ecrwGO".toList.contains letter
  | .full => "ecrwGO".toList.contains letter
  | .descriptor _ => "eprwGO".toList.contains letter

/-- What an operator says of a word, `entries` being the files that words lead to. -/
def holds (entries : List (List Char × FileEntry)) (letter : Char) (word : List Char) :
    Decided Bool :=
  match letter with
  | 'z' => .ok word.isEmpty
  | 'n' => .ok !word.isEmpty
  | 't' => (number word).map fun _ => false
  | letter =>
    match entries.lookup word with
    | some entry => .ok (ofEntry letter entry)
    | none => .ok false

section Parsing

variable (entries : List (List Char × FileEntry)) (words : List (List Char))

mutual

/-- Alternatives from a place on: whether one holds, and the place of their last word. -/
def alternatives : (steps : Nat) → Meaning → (place : Nat) → Decided (Bool × Nat)
  | 0, _, _ => .error "too many words".toList
  | steps + 1, start, place => do
    let (first, place) ← conjunction steps start place
    if lookAt words (place + 1) = .or then
      let (second, place) ← alternatives steps (lookAt words (place + 2)) (place + 2)
      return (first || second, place)
    return (first, place)

/-- Conditions from a place on that have to hold together. -/
def conjunction : (steps : Nat) → Meaning → (place : Nat) → Decided (Bool × Nat)
  | 0, _, _ => .error "too many words".toList
  | steps + 1, start, place => do
    let (first, place) ← negation steps start place
    if lookAt words (place + 1) = .and then
      let (second, place) ← conjunction steps (lookAt words (place + 2)) (place + 2)
      return (first && second, place)
    return (first, place)

/-- A condition that may be turned round. -/
def negation : (steps : Nat) → Meaning → (place : Nat) → Decided (Bool × Nat)
  | 0, _, _ => .error "too many words".toList
  | steps + 1, start, place => do
    if start = .not then
      let next := lookAt words (place + 1)
      let (inner, place) ← negation steps next (if next = .missing then place else place + 1)
      return (!inner, place)
    primary steps start place

/-- A condition of few words. -/
def primary : (steps : Nat) → Meaning → (place : Nat) → Decided (Bool × Nat)
  | 0, _, _ => .error "too many words".toList
  | steps + 1, start, place => do
    let word := (words[place]?).getD []
    match start with
    | .missing => return (false, place)
    | .openParenthesis =>
      let next := lookAt words (place + 1)
      if next = .closeParenthesis then return (false, place + 1)
      let (inner, place) ← alternatives steps next (place + 1)
      if lookAt words (place + 1) ≠ .closeParenthesis then
        throw "closing paren expected".toList
      return (inner, place + 1)
    | .unary =>
      match words[place + 1]? with
      | none => throw (word ++ ": argument expected".toList)
      | some operand => return (← holds entries (word.getLast?.getD ' ') operand, place + 1)
    | _ =>
      if lookAt words (place + 1) = .binary then
        let operator := (words[place + 1]?).getD []
        match words[place + 2]? with
        | none => throw (operator ++ ": argument expected".toList)
        | some second => return (← compare entries word operator second, place + 2)
      return (!word.isEmpty, place)

end

end Parsing

/-- Whether what some words say holds. -/
def settle (entries : List (List Char × FileEntry)) :
    (steps : Nat) → (words : List (List Char)) → Decided Bool
  | 0, _ => .error "too many words".toList
  | steps + 1, words => do
    if words.isEmpty then return false
    let middle := (words[1]?).map meaning
    let isMiddle := words.length == 3 && middle == some .binary
    let isShort := !isMiddle && (words.length == 3 || words.length == 4)
    if isShort && words.head? == some ['!'] then return !(← settle entries steps words.tail)
    let words :=
      if isShort && words.head? == some ['('] && words.getLast? == some [')'] then
        words.tail.dropLast
      else words
    let start := if isMiddle then .operand else lookAt words 0
    let (found, place) ← alternatives entries words (8 * words.length + 8) start 0
    match words[place]?, words[place + 1]? with
    | some word, some _ =>
      throw (if word.isEmpty then "unexpected operator".toList
        else word ++ ": unexpected operator".toList)
    | _, _ => return found

theorem settle_nil (entries : List (List Char × FileEntry)) (steps : Nat) :
    settle entries (steps + 1) [] = .ok false := rfl

end Condition

section Running

variable {m : Type → Type} [Monad m]

/-- The status of the command `test` with some words. -/
def test (files : FileAccess m) (words : List (List Char)) : Run m Nat := do
  let entries ← words.filterMapM fun word => do
    match ← Run.entry files (asString word) with
    | .ok entry => return some (word, entry)
    | .error _ => return none
  match Condition.settle entries (words.length + 1) words with
  | .ok holds => return if holds then 0 else 1
  | .error message => Run.fail message

end Running

end CellSyntax.Shell
