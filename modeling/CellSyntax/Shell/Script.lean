/-
**Reading the commands of a script.**

A script is read one list of commands at a time, each up to the end of a line that finishes it, so
that what stands before a fault has run by then.

* `Script.next_end`: at the end of a script there is no further command.
-/

import CellSyntax.Shell.Word

namespace CellSyntax.Shell

/-- The commands of the shell that no function can replace. -/
def specialNames : List String :=
  [".", ":", "break", "continue", "eval", "exec", "exit", "export", "local", "readonly", "return",
    "set", "shift", "times", "trap", "unset"]

namespace Reader

/-! ### Tokens -/

/-- The mark of a redirection. -/
def redirectionMark (isInput : Bool) : Reader RedirectionMark := do
  if isInput then
    if ← accept '<' then return .document (← accept '-')
    if ← accept '&' then return .duplicate true
    if ← accept '>' then return .file .readWrite
    return .file .read
  if ← accept '>' then return .file .append
  if ← accept '|' then return .file .overwrite
  if ← accept '&' then return .duplicate false
  return .file .write

/-- The descriptor that a word in front of a redirection names, if it can be one. -/
def descriptor? : Word → Option (Option Nat)
  | [] => some none
  | [.text [digit] false] =>
    if Text.isDigit digit then some (some (Text.digitValue digit)) else none
  | _ => none

/-- A word or a redirection. -/
def wordToken (nested : Nested) : Reader Token := do
  let word ← word nested
  match ← peek with
  | some char =>
    if char = '<' ∨ char = '>' then
      match descriptor? word with
      | none => return .word word
      | some given =>
        let _ ← takeRaw
        let mark ← redirectionMark (char = '<')
        return .redirection (given.getD (if char = '<' then 0 else 1)) mark
    return .word word
  | none => return .word word

/-- The next token, keywords not being told from other words. -/
def rawToken (nested : Nested) : Reader Token := do
  if let some token := (← get).pushed then
    modify fun source => { source with pushed := none }
    return token
  dropBy skipSpace
  match ← peek with
  | none => return .endOfText
  | some char =>
    if "\n&|;()".toList.contains char then
      let _ ← takeRaw
      match char with
      | '\n' => return .newline
      | '&' => return if ← accept '&' then .andAlso else .background
      | '|' => return if ← accept '|' then .orElse else .pipe
      | ';' => return if ← accept ';' then .endArm else .semicolon
      | '(' => return .openParenthesis
      | _ => return .closeParenthesis
    wordToken nested

/-- What a reader takes into account. -/
structure Skipping where
  /-- Line ends are skipped. -/
  lines : Bool := false
  /-- Keywords are told from other words. -/
  keywords : Bool := false
  /-- Aliases are replaced by their texts. -/
  aliases : Bool := false

/-- What is taken into account where a command starts. -/
def atCommand : Skipping := { keywords := true, aliases := true }

/-- What is taken into account where a command starts that may stand on a later line. -/
def freely : Skipping := { atCommand with lines := true }

/-- The token after line ends, at most `steps` of them. -/
def afterLines (nested : Nested) : (steps : Nat) → Reader Token
  | 0 => rawToken nested
  | steps + 1 => do
    match ← rawToken nested with
    | .newline =>
      documents nested
      afterLines nested steps
    | token => return token

/-- A word that is a keyword as that. -/
def Keyword.recognize : Token → Token
  | .word word =>
    match word.plain?.bind Keyword.ofText? with
    | some keyword => .keyword keyword
    | none => .word word
  | token => token

/-- The word that a token is if it is as plain as the name of an alias. -/
def plainWord? : Token → Option (List Char)
  | .word word => word.plain?
  | _ => none

/-- The next token after at most `steps` aliases are replaced. -/
def tokenWithin (nested : Nested) : (steps : Nat) → Skipping → Reader Token
  | 0, _ => rawToken nested
  | steps + 1, skipping => do
    let earlier ← get
    let token ← if skipping.lines then afterLines nested earlier.growth else rawToken nested
    let token := if skipping.keywords then Keyword.recognize token else token
    let source ← get
    let name? := if skipping.aliases || earlier.passesBlank source then plainWord? token else none
    match name?.bind fun name => (source.alias? name).map (name, ·) with
    | none => return token
    | some (name, text) =>
      set (source.replaceBy name text)
      tokenWithin nested steps { skipping with aliases := true }

/-- The next token. -/
def token (nested : Nested) (skipping : Skipping) : Reader Token := do
  tokenWithin nested ((← get).growth + 1) skipping

/-! ### Redirections -/

/-- A redirection after its mark. -/
def redirection (nested : Nested) (descriptor : Nat) (mark : RedirectionMark) :
    Reader Redirection := do
  match mark with
  | .document dropTabs =>
    dropBy skipSpace
    let isWord := ((← get).rest.head?.map fun char => !Place.endsWord char).getD false
    if !isWord then unexpected (← token nested {})
    let (chars, quoted) ← delimiter
    let number := (← get).nextDocument
    modify fun source => { source with
      nextDocument := number + 1
      awaited := source.awaited ++ [⟨number, chars, quoted, dropTabs⟩] }
    return .document descriptor number
  | .file mode =>
    match ← token nested {} with
    | .word word => return .file descriptor mode word
    | token => unexpected token
  | .duplicate isInput =>
    match ← token nested {} with
    | .word word => return .duplicate descriptor isInput word
    | token => unexpected token

/-- The redirections behind a command. -/
def redirections (nested : Nested) : (steps : Nat) → Reader (List Redirection)
  | 0 => return []
  | steps + 1 => do
    match ← token nested atCommand with
    | .redirection descriptor mark =>
      let first ← redirection nested descriptor mark
      return first :: (← redirections nested steps)
    | token =>
      push token
      return []

/-! ### Commands -/

/-- The word list of a `for` command, and the token that ends it. -/
def words (nested : Nested) : (steps : Nat) → Reader (List Word × Token)
  | 0 => return ([], .endOfText)
  | steps + 1 => do
    match ← token nested {} with
    | .word word =>
      let (rest, token) ← words nested steps
      return (word :: rest, token)
    | token => return ([], token)

/-- What a `for` command goes through; all arguments if it does not say. -/
def eachWords (nested : Nested) : Reader (List Word) := do
  match ← token nested freely with
  | .keyword .inWord =>
    let (list, ended) ← words nested (← get).growth
    match ended with
    | .newline =>
      documents nested
      return list
    | .semicolon => return list
    | token => unexpected token
  | .semicolon => return [[.parameter ['@'] .plain true]]
  | token =>
    push token
    return [[.parameter ['@'] .plain true]]

/-- The patterns of an arm after the first token, up to the closing parenthesis. -/
def patterns (nested : Nested) : (steps : Nat) → Token → Reader (List Word)
  | 0, first => unexpected first
  | steps + 1, first => do
    let pattern : Word :=
      match first with
      | .word word => word
      | .keyword keyword => [.text keyword.spelling.toList false]
      | _ => []
    match ← token nested {} with
    | .pipe => return pattern :: (← patterns nested steps (← token nested {}))
    | .closeParenthesis => return [pattern]
    | token => expecting token .closeParenthesis

/-- The words, assignments and redirections of a simple command. -/
structure Simple where
  assignments : List (List Char × Word) := []
  words : List Word := []
  redirections : List Redirection := []

/-- The simple command that goes on what has been read of it; nothing if it is the name of a
function. -/
def simple (nested : Nested) : (steps : Nat) → Simple → Reader (Simple × Bool)
  | 0, found => return (found, false)
  | steps + 1, found => do
    match ← token nested { aliases := found.words.isEmpty } with
    | .word word =>
      match found.words, word.assignment? with
      | [], some assignment =>
        simple nested steps { found with assignments := found.assignments ++ [assignment] }
      | _, _ => simple nested steps { found with words := found.words ++ [word] }
    | .redirection descriptor mark =>
      let one ← redirection nested descriptor mark
      simple nested steps { found with redirections := found.redirections ++ [one] }
    | .openParenthesis =>
      match found with
      | ⟨[], [_], []⟩ => return (found, true)
      | _ =>
        push .openParenthesis
        return (found, false)
    | token =>
      push token
      return (found, false)

/-- The name of the function that is defined by the words of a simple command. -/
def functionName (found : Simple) : Reader (List Char) := do
  let name := (found.words.head?.getD []).literal
  let isPlain := (found.words.head?.bind Word.plain?).isSome
  if isPlain && isName name && !specialNames.contains (String.ofList name) then return name
  fail "Bad function name"

/-- Where a list of commands may end. -/
inductive ListKind where
  /-- At the end of a line. -/
  | line
  /-- At a token that cannot go on it. -/
  | inner
  /-- The same, and it may be empty. -/
  | innerOrEmpty
deriving DecidableEq, Repr

/-- The commands of a list, one after the other. -/
def sequence (first : Option Command) (second : Command) : Command :=
  match first with
  | none => second
  | some first => .sequence first second

mutual

/-- A list of commands after those in `before`. -/
def list : (steps : Nat) → ListKind → (before : Option Command) → Reader (Option Command)
  | 0, _, _ => fail "script too long"
  | steps + 1, kind, before => do
    let nested := nestedWith steps
    let start ← token nested { atCommand with lines := kind ≠ .line }
    match start with
    | .newline =>
      documents nested
      return before
    | .endOfText =>
      documents nested
      push .endOfText
      return before
    | start =>
      push start
      if kind = .innerOrEmpty ∧ start.endsList = true then return before
      let command ← andOr steps {}
      let ending ← token nested {}
      let kind := if kind = .inner then .innerOrEmpty else kind
      match ending with
      | .background => list steps kind (some (sequence before (.background command)))
      | .semicolon => list steps kind (some (sequence before command))
      | .newline =>
        push .newline
        list steps kind (some (sequence before command))
      | .endOfText =>
        push .endOfText
        list steps kind (some (sequence before command))
      | token =>
        if kind = .line then unexpected token
        push token
        return some (sequence before command)

/-- How the commands inside a word are read. -/
def nestedWith : (steps : Nat) → Nested
  | 0 => ⟨fail "script too long", fail "script too long"⟩
  | steps + 1 =>
    { enclosed := do
        let found ← list steps .innerOrEmpty none
        expect .closeParenthesis (← token (nestedWith steps) {})
        return found
      whole := list steps .innerOrEmpty none }

/-- Pipelines that depend on how those before them end. -/
def andOr : (steps : Nat) → Skipping → Reader Command
  | 0, _ => fail "script too long"
  | steps + 1, skipping => do
    let first ← pipeline steps skipping
    andOrAfter steps first

/-- The pipelines after a first one that depend on how it ends. -/
def andOrAfter : (steps : Nat) → Command → Reader Command
  | 0, _ => fail "script too long"
  | steps + 1, first => do
    match ← token (nestedWith steps) {} with
    | .andAlso => andOrAfter steps (.both first (← pipeline steps freely))
    | .orElse => andOrAfter steps (.either first (← pipeline steps freely))
    | token =>
      push token
      return first

/-- A pipeline. -/
def pipeline : (steps : Nat) → Skipping → Reader Command
  | 0, _ => fail "script too long"
  | steps + 1, skipping => do
    match ← token (nestedWith steps) skipping with
    | .keyword .bang => return .negation (← piped steps (← command steps atCommand))
    | token =>
      push token
      piped steps (← command steps {})

/-- A pipeline after its first command. -/
def piped : (steps : Nat) → Command → Reader Command
  | 0, _ => fail "script too long"
  | steps + 1, first => do
    match ← pipedAfter steps with
    | [] => return first
    | later => return .pipeline (first :: later)

/-- The commands of a pipeline after the first. -/
def pipedAfter : (steps : Nat) → Reader (List Command)
  | 0 => fail "script too long"
  | steps + 1 => do
    match ← token (nestedWith steps) {} with
    | .pipe =>
      let next ← command steps freely
      return next :: (← pipedAfter steps)
    | token =>
      push token
      return []

/-- A command that is no pipeline. -/
def command : (steps : Nat) → Skipping → Reader Command
  | 0, _ => fail "script too long"
  | steps + 1, skipping => do
    let line := (← get).line
    let nested := nestedWith steps
    match ← token nested skipping with
    | .keyword .ifWord =>
      let found ← conditional steps
      behind steps line found
    | .keyword .whileWord => behind steps line (← loop steps false)
    | .keyword .untilWord => behind steps line (← loop steps true)
    | .keyword .forWord =>
      match ← token nested {} with
      | .word word =>
        match word.plain? with
        | some name =>
          if isName name then
            let words ← eachWords nested
            expect (.keyword .doWord) (← token nested freely)
            let body ← inner steps
            expect (.keyword .done) (← token nested {})
            behind steps line (.each line name words body)
          else fail "Bad for loop variable"
        | none => fail "Bad for loop variable"
      | _ => fail "Bad for loop variable"
    | .keyword .caseWord =>
      match ← token nested {} with
      | .word word =>
        expect (.keyword .inWord) (← token nested freely)
        behind steps line (.choice line word (← arms steps))
      | token => expecting token (.word [])
    | .openParenthesis =>
      let body ← inner steps
      expect .closeParenthesis (← token nested {})
      return .subshell line body (← redirections nested steps)
    | .keyword .leftBrace =>
      let body ← inner steps
      expect (.keyword .rightBrace) (← token nested {})
      behind steps line body
    | .word word =>
      push (.word word)
      simpleCommand steps
    | .redirection descriptor mark =>
      push (.redirection descriptor mark)
      simpleCommand steps
    | token => unexpected token

/-- A command with the redirections behind it. -/
def behind : (steps : Nat) → (line : Nat) → Command → Reader Command
  | 0, _, _ => fail "script too long"
  | steps + 1, line, command => do
    match ← redirections (nestedWith steps) steps with
    | [] => return command
    | found => return .redirected line command found

/-- A list of commands inside a command. There is none at the end of the text only, where the token
that should follow is missing as well. -/
def inner : (steps : Nat) → Reader Command
  | 0 => fail "script too long"
  | steps + 1 => do
    match ← list steps .inner none with
    | some command => return command
    | none => return .simple (← get).line [] [] []

/-- A conditional command after its first keyword. -/
def conditional : (steps : Nat) → Reader Command
  | 0 => fail "script too long"
  | steps + 1 => do
    let nested := nestedWith steps
    let test ← inner steps
    expect (.keyword .thenWord) (← token nested {})
    let body ← inner steps
    match ← token nested {} with
    | .keyword .elifWord => return .conditional test body (some (← conditional steps))
    | .keyword .elseWord =>
      let otherwise ← inner steps
      expect (.keyword .fi) (← token nested {})
      return .conditional test body (some otherwise)
    | token =>
      expect (.keyword .fi) token
      return .conditional test body none

/-- A loop after its first keyword. -/
def loop : (steps : Nat) → (untilSuccess : Bool) → Reader Command
  | 0, _ => fail "script too long"
  | steps + 1, untilSuccess => do
    let nested := nestedWith steps
    let test ← inner steps
    expect (.keyword .doWord) (← token nested {})
    let body ← inner steps
    expect (.keyword .done) (← token nested {})
    return .loop untilSuccess test body

/-- The arms of a choice up to its end. -/
def arms : (steps : Nat) → Reader (List Arm)
  | 0 => fail "script too long"
  | steps + 1 => do
    let nested := nestedWith steps
    match ← token nested { lines := true, keywords := true } with
    | .keyword .esac => return []
    | start =>
      let start ←
        match start with
        | .openParenthesis => token nested {}
        | start => pure start
      let patterns ← patterns nested steps start
      let body ← list steps .innerOrEmpty none
      match ← token nested { lines := true, keywords := true } with
      | .keyword .esac => return [.mk patterns body]
      | .endArm => return .mk patterns body :: (← arms steps)
      | token => expecting token .endArm

/-- A simple command, or the definition of a function. -/
def simpleCommand : (steps : Nat) → Reader Command
  | 0 => fail "script too long"
  | steps + 1 => do
    let line := (← get).line
    let nested := nestedWith steps
    let (found, isFunction) ← simple nested steps {}
    if isFunction then
      expect .closeParenthesis (← token nested {})
      let name ← functionName found
      return .define name (← command steps freely)
    return .simple line found.assignments found.words found.redirections

end

end Reader

/-! ### Scripts -/

namespace Script

/-- A text that is read as a script, its here-documents being numbered from a number on. -/
def start (text : List Char) (nextDocument : Nat) : Source :=
  { rest := text, line := 1, nextDocument }

/-- Enough steps to read a script: few of them are made between two characters. -/
def stepsFor (source : Source) : Nat := 16 * source.growth + 64

/-- A step of reading a script. -/
inductive Step where
  | done
  /-- A list of commands, or an empty line, and what follows. -/
  | line (command : Option Command) (rest : Source)

/-- The next list of commands of a script. -/
def next (source : Source) : Except Fault Step := do
  let source := { source with pushed := none, awaited := [], documents := [], isSpent := false }
  let (found, source) ← (Reader.list (stepsFor source) .line none).run source
  match found, source.pushed with
  | none, some .endOfText => return .done
  | found, _ => return .line found source

/-- Whether the end of a script has been met and is still to be taken. -/
def endsAt (source : Source) : Bool :=
  match source.pushed with
  | some .endOfText => true
  | _ => false

/-- A text as a quoted word, and whether the end of a script is still to be met; `meetsEnd` is
whether it is to be met before. -/
def quoted (text : List Char) (meetsEnd : Bool) : Except Fault (Word × Bool) := do
  let source := { start text 0 with pushed := if meetsEnd then some .endOfText else none }
  let (word, source) ← (Reader.wholeText (Reader.nestedWith (stepsFor source))).run source
  return (word, endsAt source)

theorem next_end (nextDocument : Nat) : next (start [] nextDocument) = .ok .done := rfl

end Script

end CellSyntax.Shell
