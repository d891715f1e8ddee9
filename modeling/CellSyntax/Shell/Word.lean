/-
**Reading the words of a script.**

Which characters have a meaning in a word depends on the quotes and braces that they stand in. The
commands of a substitution are read by the reader of commands, which is a parameter here.

* `isTwin_atSign`: quotes around all arguments do not make a field of their own.
-/

import CellSyntax.Shell.Source

namespace CellSyntax.Shell

/-- How the commands inside a word are read. -/
structure Nested where
  /-- Up to a closing parenthesis, which is taken. -/
  enclosed : Reader (Option Command)
  /-- Up to the end of the text. -/
  whole : Reader (Option Command)

/-- Where the characters of a word stand. -/
inductive Place where
  | bare
  /-- In braces that are not quoted. -/
  | braces
  | quotes
  /-- In braces that are quoted. -/
  | quotedBraces
  /-- In an arithmetic expression, with the number of open parentheses. -/
  | arithmetic (depth : Nat)
  /-- In a here-document. -/
  | document
  /-- In a text that is a word from one end to the other. -/
  | whole

namespace Place

/-- Whether characters stand for themselves here. -/
def isQuoted : Place → Bool
  | bare => false
  | braces => false
  | _ => true

/-- Whether a character ends a bare word. -/
def endsWord (char : Char) : Bool := " \t\n;&|<>()".toList.contains char

/-- Whether a backslash before a character is left out here. -/
def escapes (place : Place) (char : Char) : Bool :=
  "\\\x60$".toList.contains char ||
    match place with
    | quotes => char == '"'
    | quotedBraces => char == '"' || char == '\x7d'
    | arithmetic _ => char == '"'
    | _ => false

/-- Whether a character has no meaning of its own here. -/
def isPlain (place : Place) (char : Char) : Bool :=
  !"\\\x60$".toList.contains char &&
    match place with
    | bare => !endsWord char && char != '\'' && char != '"'
    | braces => char != '\x7d' && char != '\'' && char != '"'
    | quotes => char != '"'
    | quotedBraces => char != '\x7d' && char != '"'
    | arithmetic _ => char != '(' && char != ')'
    | document => char != '\n'
    | whole => true

/-- What is wrong if the text ends here; with `inText`, quotes need not be closed. -/
def complaint? (inText : Bool) : Place → Option String
  | bare => none
  | braces => some "Missing '\x7d'"
  | quotes => some (if inText then "Missing '\x7d'" else "Unterminated quoted string")
  | quotedBraces => some (if inText then "Missing '\x7d'" else "Unterminated quoted string")
  | arithmetic _ => some "Missing '))'"
  | document => none
  | whole => none

end Place

/-- Whether the pieces between quotes are all arguments and nothing else. -/
def isTwin : Word → Bool
  | [.parameter ['@'] .plain _] => true
  | _ => false

theorem isTwin_atSign (quoted : Bool) : isTwin [.parameter ['@'] .plain quoted] = true := rfl

/-- The pieces between quotes with the mark of the quotes. -/
def quote (inner : Word) : Word := if isTwin inner then inner else .quotes :: inner

/-- Whether a character names a parameter of the shell. -/
def isSpecial (char : Char) : Bool := "*@#?-$!0123456789".toList.contains char

namespace Reader

/-- The text between single quotes, the first of which has been taken. -/
def singleQuoted : Reader (List Char) := do
  let chars ← takeWhile (· ≠ '\'')
  match ← takeRaw with
  | none => fail "Unterminated quoted string"
  | some _ => return chars

/-- The text up to the end of backquotes as the commands in it are written. -/
def backquoted (place : Place) : (steps : Nat) → Reader (List Char)
  | 0 => fail "EOF in backquote substitution"
  | steps + 1 => do
    match ← take with
    | none => fail "EOF in backquote substitution"
    | some '\x60' => return []
    | some '\\' =>
      match ← takeRaw with
      | none => fail "EOF in backquote substitution"
      | some char =>
        let drops := "\\\x60$".toList.contains char || (place.isQuoted && char == '"')
        let rest ← backquoted place steps
        return if drops then char :: rest else '\\' :: char :: rest
    | some char => return char :: (← backquoted place steps)

/-- Reads another text with the same here-documents; a token that has been put back is met there. -/
def within {Value : Type} (text : List Char) (read : Reader Value) : Reader Value := do
  let outer ← get
  let replacements := outer.replacements.filter fun one => !outer.passed one
  set { outer with
    rest := text
    line := 1
    awaited := []
    endsElsewhere := false
    document := none
    replacements := replacements.map Replacement.lasting }
  let value ← tryCatch read fun fault => throw { fault with left := outer.left }
  let inner ← get
  set { outer with
    pushed := none
    documents := inner.documents
    nextDocument := inner.nextDocument }
  return value

/-- Reads commands inside a word. -/
def inside {Value : Type} (read : Reader Value) : Reader Value := do
  let outer ← get
  set { outer with awaited := [], endsElsewhere := false, document := none }
  let value ← read
  modify fun source =>
    { source with
      awaited := outer.awaited
      endsElsewhere := outer.endsElsewhere
      document := outer.document }
  return value

/-- Reads a text that ends somewhere else than its quotes. -/
def insideText {Value : Type} (read : Reader Value) : Reader Value := do
  let endsElsewhere := (← get).endsElsewhere
  modify fun source => { source with endsElsewhere := true }
  let value ← read
  modify fun source => { source with endsElsewhere }
  return value

/-- The number of characters at the front that two texts share. -/
def sharedLength : List Char → List Char → Nat
  | first :: rest, other :: others => if first = other then sharedLength rest others + 1 else 0
  | _, _ => 0

/-- Whether the text goes on with the line that ends a here-document, which is taken then. A byte
that is no ASCII is lost behind the characters that a line shares with that one. -/
def acceptDelimiter (awaited : Awaited) : Reader Bool := do
  let source ← get
  let text := if awaited.dropTabs then source.rest.dropWhile (· = '\t') else source.rest
  let shared := sharedLength awaited.delimiter text
  let rest := text.drop shared
  let next := rest.head?.getD '\n'
  if shared = awaited.delimiter.length ∧ next = '\n' then
    set { source with rest := rest.drop 1, line := source.line + 1 }
    return true
  let isLost := shared ≠ 0 ∧ 128 ≤ next.toNat
  set { source with rest := if isLost then text.take shared ++ rest.drop 1 else text }
  return false

/-- The name of a parameter in braces, its first character being known; whether it is the length
that is asked for, and whether the name is one. -/
def bracedName (length : Bool) : Reader (List Char × Bool × Bool) := do
  let steps := (← get).rest.length
  match ← peek with
  | none => return ([], length, false)
  | some char =>
    if isNameStart char then return (← takeJoined isNameChar steps, length, true)
    else if Text.isDigit char then return (← takeJoined Text.isDigit steps, length, true)
    else return ([], length, false)

/-- The next character after joined lines, which is taken; a line end is not counted. -/
def takeUncounted : Reader (Option Char) := do
  let _ ← peek
  let line := (← get).line
  let char ← takeRaw
  modify fun source => { source with line }
  return char

/-- The name of a parameter between braces, whether its length is asked for, and whether it is a
name. -/
def parameterName : Reader (List Char × Bool × Bool) := do
  match ← peek with
  | none => return ([], false, false)
  | some '\x7d' => return ([], false, false)
  | some '#' =>
    let _ ← takeRaw
    match ← peek with
    | none => return (['#'], false, true)
    | some char =>
      if isNameChar char then bracedName true
      else
        let before ← get
        let _ ← takeUncounted
        if char = '\x7d' ∨ (← peek) ≠ some '\x7d' then
          set before
          return (['#'], false, true)
        return ([char], true, isSpecial char)
  | some char =>
    if isNameChar char then bracedName false
    else
      let _ ← takeUncounted
      return ([char], false, isSpecial char)

/-- What an operator says about a parameter that is not set. -/
def fallback? : Char → Option Fallback
  | '-' => some .replace
  | '+' => some .swap
  | '?' => some .complain
  | '=' => some .assign
  | _ => none

/-- What is asked of a parameter between braces, as a function of the word that follows. Nothing
follows if there is no function. -/
def parameterUse : Reader (Use ⊕ (Word → Use)) := do
  match ← takeUncounted with
  | none => return .inr fun _ => .bad
  | some '\x7d' => return .inl .plain
  | some ':' =>
    match ← takeUncounted with
    | none => return .inr fun _ => .bad
    | some char =>
      match fallback? char with
      | some kind => return .inr (.fallback kind true)
      | none => return .inr fun _ => .bad
  | some '#' => return .inr (.trim true (← accept '#'))
  | some '%' => return .inr (.trim false (← accept '%'))
  | some char =>
    match fallback? char with
    | some kind => return .inr (.fallback kind false)
    | none => return .inr fun _ => .bad

/-- Whether a word that belongs to a parameter is a pattern. -/
def isTrim (use : Word → Use) : Bool :=
  match use [] with
  | .trim .. => true
  | _ => false

mutual

/-- The pieces of a word up to its end. -/
def pieces (nested : Nested) : (steps : Nat) → Place → Reader Word
  | 0, _ => fail "word too long"
  | steps + 1, place => do
    let _ ← peek
    let document := (← get).document
    let plain ← takeWhile fun char => place.isPlain char && (char != '\n' || document.isNone)
    if !plain.isEmpty then
      return .text plain place.isQuoted :: (← pieces nested steps place)
    match ← peek with
    | none =>
      match place.complaint? (← get).endsElsewhere with
      | some message => fail message
      | none => return []
    | some '$' =>
      let _ ← takeRaw
      let piece ← dollar nested steps place.isQuoted
      return piece :: (← pieces nested steps place)
    | some '\x60' =>
      let _ ← takeRaw
      let text ← backquoted place (← get).rest.length.succ
      let script ← within text nested.whole
      return .substitution script place.isQuoted :: (← pieces nested steps place)
    | some '\\' =>
      let _ ← takeRaw
      match ← takeRaw with
      | none => return .text ['\\'] true :: (← pieces nested steps place)
      | some char =>
        let chars := if place.isQuoted && !place.escapes char then ['\\', char] else [char]
        return .text chars true :: (← pieces nested steps place)
    | some char =>
      match document, char with
      | some awaited, '\n' =>
        let _ ← takeRaw
        let _ ← peek
        if ← acceptDelimiter awaited then
          if let some message := place.complaint? (← get).endsElsewhere then fail message
          return [.text ['\n'] true]
        return .text ['\n'] place.isQuoted :: (← pieces nested steps place)
      | _, _ => special nested steps place char

/-- The pieces from a character on that has a meaning in this place only. -/
def special (nested : Nested) : (steps : Nat) → Place → Char → Reader Word
  | 0, _, _ => fail "word too long"
  | steps + 1, place, char => do
    match place with
    | .bare =>
      if Place.endsWord char then return []
      quotation nested steps place char
    | .braces =>
      if char = '\x7d' then
        let _ ← takeRaw
        return []
      quotation nested steps place char
    | .quotes =>
      let _ ← takeRaw
      return []
    | .quotedBraces =>
      let _ ← takeRaw
      if char = '"' then
        let inner ← pieces nested steps .quotes
        return inner ++ (← pieces nested steps place)
      return []
    | .arithmetic depth =>
      let _ ← takeRaw
      if char = '(' then
        return .text ['('] true :: (← pieces nested steps (.arithmetic (depth + 1)))
      else if 0 < depth then
        return .text [')'] true :: (← pieces nested steps (.arithmetic (depth - 1)))
      else if ← accept ')' then return []
      else return .text [')'] true :: (← pieces nested steps place)
    | _ => return []

/-- The pieces from a quotation mark on. -/
def quotation (nested : Nested) : (steps : Nat) → Place → Char → Reader Word
  | 0, _, _ => fail "word too long"
  | steps + 1, place, mark => do
    let _ ← takeRaw
    if mark = '\'' then
      let chars ← singleQuoted
      return .quotes :: .text chars true :: (← pieces nested steps place)
    let inner ← pieces nested steps .quotes
    return quote inner ++ (← pieces nested steps place)

/-- What a dollar sign stands for, which has been taken. -/
def dollar (nested : Nested) : (steps : Nat) → (quoted : Bool) → Reader Piece
  | 0, _ => fail "word too long"
  | steps + 1, quoted => do
    match ← peek with
    | none => return .text ['$'] quoted
    | some '(' =>
      let _ ← takeRaw
      if ← accept '(' then return .arithmetic (← pieces nested steps (.arithmetic 0)) quoted
      return .substitution (← inside nested.enclosed) quoted
    | some '\x7b' =>
      let _ ← takeRaw
      braced nested steps quoted
    | some char =>
      if isNameStart char then
        return .parameter (← takeJoined isNameChar (← get).rest.length) .plain quoted
      if isSpecial char then
        let _ ← takeRaw
        return .parameter [char] .plain quoted
      return .text ['$'] quoted

/-- A parameter between braces, the first of which has been taken. -/
def braced (nested : Nested) : (steps : Nat) → (quoted : Bool) → Reader Piece
  | 0, _ => fail "word too long"
  | steps + 1, quoted => do
    let place := if quoted then Place.quotedBraces else .braces
    let (name, length, isNamed) ← parameterName
    if !isNamed then
      let _ ← pieces nested steps place
      return .parameter name .bad quoted
    if length then
      let use := if (← peek) = some '\x7d' then Use.length else .bad
      let _ ← pieces nested steps place
      return .parameter name use quoted
    match ← parameterUse with
    | .inl use => return .parameter name use quoted
    | .inr use =>
      let word ← pieces nested steps (if isTrim use then .braces else place)
      return .parameter name (use word) quoted

end

/-- A word of a command. -/
def word (nested : Nested) : Reader Word := do
  pieces nested (4 * (← get).rest.length + 4) .bare

/-- A text that is a quoted word from one end to the other. -/
def wholeText (nested : Nested) : Reader Word := do
  insideText (pieces nested (4 * (← get).rest.length + 4) .whole)

/-! ### Here-documents -/

/-- The lines of a here-document as they are written. -/
def literalLines (awaited : Awaited) : (steps : Nat) → Reader (List Char)
  | 0 => return []
  | steps + 1 => do
    if ← acceptDelimiter awaited then return []
    let line ← takeWhile (· ≠ '\n')
    match ← takeRaw with
    | none => return line
    | some _ => return line ++ '\n' :: (← literalLines awaited steps)

/-- The text of a here-document. -/
def document (nested : Nested) (awaited : Awaited) : Reader Word := do
  let steps := 4 * (← get).rest.length + 4
  if awaited.isLiteral then return [.text (← literalLines awaited steps) true]
  let _ ← peek
  if ← acceptDelimiter awaited then return []
  modify fun source => { source with document := some awaited }
  let text ← insideText (pieces nested steps .document)
  modify fun source => { source with document := none }
  return text

/-- The texts of all here-documents that are awaited. -/
def documents (nested : Nested) : Reader Unit := do
  let awaited := (← get).awaited
  modify fun source => { source with awaited := [] }
  for one in awaited do
    let text ← document nested one
    modify fun source => { source with documents := source.documents ++ [(one.number, text)] }

/-- The word that ends a here-document, whether it has quotes, and what follows it; `inner` is the
mark of the quotes that the text stands in. -/
def delimiterFrom (inner : Option Char) : List Char → Option (List Char × Bool × List Char)
  | [] => if inner.isNone then some ([], false, []) else none
  | '\\' :: char :: rest =>
    if inner = some '\'' then
      (delimiterFrom inner (char :: rest)).map fun (chars, quoted, rest) =>
        ('\\' :: chars, quoted, rest)
    else if char = '\n' then delimiterFrom inner rest
    else
      let kept := inner.isSome && !Place.quotes.escapes char
      (delimiterFrom inner rest).map fun (chars, _, rest) =>
        ((if kept then ['\\', char] else [char]) ++ chars, true, rest)
  | char :: rest =>
    if inner = some char then
      (delimiterFrom none rest).map fun (chars, _, rest) => (chars, true, rest)
    else if inner.isNone ∧ (char = '\'' ∨ char = '"') then
      (delimiterFrom (some char) rest).map fun (chars, _, rest) => (chars, true, rest)
    else if inner.isNone ∧ Place.endsWord char = true then some ([], false, char :: rest)
    else (delimiterFrom inner rest).map fun (chars, quoted, rest) => (char :: chars, quoted, rest)

/-- The word that ends a here-document, and whether it has quotes. -/
def delimiter : Reader (List Char × Bool) := do
  let source ← get
  match delimiterFrom none source.rest with
  | none =>
    set { source with line := source.line + source.rest.count '\n' }
    fail "Unterminated quoted string"
  | some (chars, quoted, rest) =>
    set { source with rest, line := source.line + source.rest.count '\n' - rest.count '\n' }
    return (chars, quoted)

end Reader

end CellSyntax.Shell
