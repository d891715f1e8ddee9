/-
**Scripts that are read from the input.**

A shell takes its input block by block, as far as it has to for the next line of its script, and
what its commands read is behind that. A shell that talks to a user asks for every line, and goes
on after a command that fails, but without what it has taken from the input by then.

* `dropBlocks_length_le`: nothing is put back by taking blocks;
* `Feed.renew_behind`: all that there is to be read is behind what has been taken.
-/

import CellSyntax.Shell.Running

namespace CellSyntax.Shell

/-! ### Blocks -/

/-- The number of bytes that are taken from the input at once. -/
def blockSize : Nat := 8192

/-- A text as it is read as a script, which has no zero bytes. -/
def scriptText (text : List Char) : List Char := text.filter (· ≠ Char.ofNat 0)

/-- What is left of a text after blocks with so many characters of a script. -/
def dropBlocks (count : Nat) (text : List Char) : List Char :=
  if count = 0 ∨ text = [] then text
  else dropBlocks (count - (scriptText (text.take blockSize)).length) (text.drop blockSize)
termination_by text.length
decreasing_by
  rename_i more
  have filled : 0 < text.length := List.length_pos_iff.mpr fun empty => more (.inr empty)
  simp only [List.length_drop, blockSize]
  omega

theorem dropBlocks_length_le (count : Nat) (text : List Char) :
    (dropBlocks count text).length ≤ text.length := by
  fun_induction dropBlocks count text with
  | case1 count text => exact Nat.le_refl _
  | case2 count text more ih =>
    rw [List.length_drop] at ih
    omega

/-- A script that is being read. -/
structure Feed where
  source : Source
  /-- The number of characters at its end that have not been taken from the input. -/
  behind : Nat := 0

namespace Feed

/-- The number of characters that have been taken. -/
def taken (feed : Feed) : Nat := feed.source.rest.length - feed.behind

/-- The script with what there is to be read from the input by now. -/
def renew (feed : Feed) (input : List Char) : Feed where
  source := { feed.source with
    rest := feed.source.rest.take feed.taken ++ input
    replacements := feed.source.replacements.map fun one =>
      { one with behind := one.behind - feed.behind + input.length } }
  behind := input.length

theorem renew_behind (feed : Feed) (input : List Char) :
    (feed.renew input).source.rest.drop (feed.source.rest.take feed.taken).length = input := by
  simp [renew]

/-- The script without what has been taken. -/
def reset (feed : Feed) : Feed where
  source := { feed.source with rest := [], replacements := [], pushed := none }

end Feed

section Running

variable {m : Type → Type} [Monad m] (evaluate : Evaluate m)

/-! ### Asking the user -/

/-- The value of a text that is expanded like a quoted word; the text itself if that fails. -/
def expandLead (text : List Char) : Run m (List Char) := do
  match Script.quoted text (← get).meetsEnd with
  | .error fault =>
    let machine ← get
    set { machine with
      line := fault.line
      meetsEnd := machine.meetsEnd && !fault.message.startsWith "end of file" }
    Run.complain ("Syntax error: ".toList ++ fault.message.toList)
    modify fun later => { later with line := machine.line, status := 2 }
    return text
  | .ok (word, meetsEnd) =>
    modify fun machine => { machine with meetsEnd }
    match ← Run.settle (expandPieces (substitute evaluate) {} word) with
    | .ok atoms => return Atom.text atoms
    | .error .failure => return text
    | .error interrupt => throw interrupt

/-- Asks the user for a line by what a variable says. -/
def ask (name : String) : Run m Unit := do
  let machine ← get
  if machine.has 'i' then
    let text ← expandLead evaluate ((machine.lookup name.toList).getD [])
    let _ ← Run.write 2 text

/-- Shows the lines that are read for one command, and asks for those after the first one. -/
def showRead : (asked : Nat) → (lines : List (List Char)) → Run m Unit
  | 0, lines => do
    let _ ← Run.write 2 lines.flatten
  | asked + 1, lines => do
    let _ ← Run.write 2 (lines.head?.getD [])
    ask evaluate "PS2"
    showRead asked lines.tail

/-- The lines of a text with their ends. -/
def linesOf (text : List Char) : List (List Char) :=
  match text.splitOn '\n' with
  | [] => []
  | parts => parts.dropLast.map (· ++ ['\n']) ++ [parts.getLast?.getD []]

/-- The status that a shell goes on with after something stops short, if it does. -/
def recover? (interrupt : Interrupt) : Run m (Option Nat) := do
  if !(← get).has 'i' then return none
  match interrupt with
  | .failure => return some 2
  | .killed signal =>
    if signal ≠ Signal.interrupt then return none
    let _ ← Run.write 2 ['\n']
    let status := 128 + signal
    modify fun machine => { machine with doom := none, status }
    return some status
  | _ => return none

/-! ### Reading -/

/-- What there is to be read from the input as a script. -/
def inputText : Run m (List Char) := scriptText <$> Run.unread 0

/-- Takes as much from the input as has been read for one command, `left` being the number of
characters that have not been read. -/
def takeInput (feed : Feed) (left : Nat) (isSpent : Bool) : Run m Unit := do
  let input ← Run.unread 0
  Run.take 0 (if isSpent then [] else dropBlocks (feed.behind - left) input)

/-- The greatest number of times that the end of the input is passed over. -/
def maxEnds : Nat := 50

/-- Runs a script that is read line by line, of which there are less than `steps` lines, from the
input or from a file; `status` is that of the lines before, and its end has been passed over
`ends` times. -/
def runLines (isInput : Bool) : (steps ends : Nat) → Feed → (status : Nat) → Run m Nat
  | 0, _, _, _ => throw .exhausted
  | steps + 1, ends, feed, status => do
    let feed ← if isInput then feed.renew <$> inputText else pure feed
    ask evaluate "PS1"
    let machine ← get
    let status := if machine.has 'i' then machine.status else status
    let nextDocument := max feed.source.nextDocument machine.nextDocument
    let source := { feed.source with nextDocument, aliases := machine.aliases }
    match Script.next source with
    | .error fault =>
      if isInput then takeInput feed fault.left fault.isSpent
      let endsLine := fault.message.startsWith "newline"
      tell source fault.left (fault.line - source.line) (endsLine && !fault.isSpent)
      modify fun machine => { machine with line := fault.line }
      Run.complain ("Syntax error: ".toList ++ fault.message.toList)
      modify fun machine => { machine with status := 2 }
      match ← recover? .failure with
      | some status =>
        let feed := feed.reset
        runLines isInput steps ends
          { feed with source := { feed.source with line := fault.line } } status
      | none => throw .failure
    | .ok .done =>
      if isInput then Run.take 0 []
      tell source 0 0 true
      if (← get).has 'I' && ends < maxEnds then
        let _ ← Run.write 2 "\nUse \"exit\" to leave shell.\n".toList
        runLines isInput steps (ends + 1) feed.reset status
      else
        if (← get).has 'i' && ends = 0 then
          let _ ← Run.write 2 ['\n']
        modify fun machine => { machine with meetsEnd := true }
        return status
    | .ok (.line command rest) =>
      if isInput then takeInput feed rest.left rest.isSpent
      tell source rest.left (rest.line - source.line) !rest.isSpent
      modify fun machine => { machine with
        documents := rest.documents ++ machine.documents
        nextDocument := rest.nextDocument
        lineRead := rest.line
        meetsEnd := Script.endsAt rest }
      let behind ← if isInput then List.length <$> inputText else pure 0
      let later : Feed := { source := rest, behind }
      let result ←
        match command with
        | none => pure (.ok status)
        | some command => Run.settle (evaluate false command)
      match result with
      | .ok status => runLines isInput steps 0 later status
      | .error interrupt =>
        match ← recover? interrupt with
        | some status => runLines isInput steps 0 later.reset status
        | none => throw interrupt
where
  /-- Shows what has been read from a source for one command, which has so many lines, and asks for
  the lines after the first one; the end of the last one may not have been passed. -/
  tell (source : Source) (left lines : Nat) (atEnd : Bool) : Run m Unit := do
    let shown := if (← get).has 'v' then linesOf (source.begun left) else []
    showRead evaluate (if atEnd then lines - 1 else lines) shown

/-- Runs the script that is the input. -/
def runInput (status : Nat) : Run m Nat := do
  let steps := (← Run.unread 0).length + maxLines
  runLines evaluate true steps 0 { source := Script.start [] 0 } status

/-- Runs a script in a file, whose lines are shown if the shell has been asked to. -/
def runListed (text : List Char) : Run m Nat := do
  let text := scriptText text
  runLines evaluate false (text.length + maxLines) 0 { source := Script.start text 0 } 0

end Running

end CellSyntax.Shell
