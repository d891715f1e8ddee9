/-
**The text of a script that has not been read.**

A reader takes characters from the front of a text and counts its lines. A backslash takes back the
end of a line after it. Here-documents are asked for in one line and read at its end, so those that
are still awaited are kept.

* `linesBegun_all`: no line is begun before a character is read;
* `Source.alias?_replaceBy`: while the text of an alias is read, its name is no alias;
* `dropJoins_length_le`, `skipSpace_length_le`: nothing is put back by skipping.
-/

import CellSyntax.Shell.Alias
import CellSyntax.Shell.Command

namespace CellSyntax.Shell

/-! ### Tokens -/

/-- A word with a meaning of its own where a command starts. -/
inductive Keyword where
  | bang
  | caseWord
  | doWord
  | done
  | elifWord
  | elseWord
  | esac
  | fi
  | forWord
  | ifWord
  | inWord
  | thenWord
  | untilWord
  | whileWord
  | leftBrace
  | rightBrace
deriving DecidableEq, Repr

namespace Keyword

/-- The keywords as they are written. -/
def spellings : List (Keyword × String) :=
  [(bang, "!"), (caseWord, "case"), (doWord, "do"), (done, "done"), (elifWord, "elif"),
    (elseWord, "else"), (esac, "esac"), (fi, "fi"), (forWord, "for"), (ifWord, "if"),
    (inWord, "in"), (thenWord, "then"), (untilWord, "until"), (whileWord, "while"),
    (leftBrace, "\x7b"), (rightBrace, "\x7d")]

/-- How a keyword is written. -/
def spelling (keyword : Keyword) : String := (spellings.lookup keyword).getD ""

/-- The keyword that a text is. -/
def ofText? (text : List Char) : Option Keyword :=
  (spellings.find? fun (_, spelling) => spelling.toList = text).map Prod.fst

/-- Whether a list of commands ends at a keyword. -/
def endsList (keyword : Keyword) : Bool :=
  [doWord, done, elifWord, elseWord, esac, fi, thenWord, rightBrace].contains keyword

end Keyword

/-- How a redirection starts. -/
inductive RedirectionMark where
  | file (mode : OpenMode)
  | duplicate (isInput : Bool)
  /-- With `dropTabs`, tabs at the front of its lines are left out. -/
  | document (dropTabs : Bool)
deriving DecidableEq, Repr

/-- The smallest part of a script that has a meaning. -/
inductive Token where
  | endOfText
  | newline
  | semicolon
  | background
  | andAlso
  | orElse
  | pipe
  | openParenthesis
  | closeParenthesis
  | endArm
  | redirection (descriptor : Nat) (mark : RedirectionMark)
  | word (word : Word)
  | keyword (keyword : Keyword)

namespace Token

/-- What a token is called in complaints. -/
def describe : Token → String
  | endOfText => "end of file"
  | newline => "newline"
  | semicolon => "\";\""
  | background => "\"&\""
  | andAlso => "\"&&\""
  | orElse => "\"||\""
  | pipe => "\"|\""
  | openParenthesis => "\"(\""
  | closeParenthesis => "\")\""
  | endArm => "\";;\""
  | redirection .. => "redirection"
  | word _ => "word"
  | keyword key => "\"" ++ key.spelling ++ "\""

/-- Whether a list of commands ends at a token. -/
def endsList : Token → Bool
  | endOfText => true
  | closeParenthesis => true
  | endArm => true
  | keyword key => key.endsList
  | _ => false

end Token

/-! ### Readers -/

/-- The lines of a script that have been begun when some characters are left. -/
def linesBegun (script : List Char) (left : Nat) : List Char :=
  let front := script.take (script.length - left)
  let rest := script.drop front.length
  match front.getLast? with
  | none => []
  | some '\n' => front
  | some _ => front ++ rest.takeWhile (· ≠ '\n') ++ (rest.dropWhile (· ≠ '\n')).take 1

theorem linesBegun_all (script : List Char) : linesBegun script script.length = [] := by
  simp [linesBegun]

/-- A here-document that has been asked for. -/
structure Awaited where
  number : Nat
  /-- The line that ends it. -/
  delimiter : List Char
  /-- Nothing is put into its text. -/
  isLiteral : Bool
  dropTabs : Bool

/-- What is left of a script, and what reading it has come to. -/
structure Source where
  rest : List Char
  line : Nat
  /-- The number of the next here-document. -/
  nextDocument : Nat
  aliases : Aliases := []
  /-- The texts that are read in the place of aliases, those that end first being the first. -/
  replacements : List Replacement := []
  pushed : Option Token := none
  awaited : List Awaited := []
  documents : List (Nat × Word) := []
  /-- Quotes need not be closed, because what is read ends somewhere else. -/
  endsElsewhere : Bool := false
  /-- The here-document that is being read, if it has parts with a meaning of their own. -/
  document : Option Awaited := none
  /-- More has been asked for than there is. -/
  isSpent : Bool := false

namespace Source

/-- The greatest length that what is left of a script has when the aliases in it are replaced. -/
def growth (source : Source) : Nat := Aliases.growth source.rest.length source.aliases

/-- Whether the end of a text has been passed. -/
def passed (source : Source) (replacement : Replacement) : Bool :=
  source.rest.length < replacement.behind

/-- The number of characters of the script itself that are left. -/
def left (source : Source) : Nat :=
  let unread := source.replacements.filter fun one => !source.passed one
  unread.foldl (fun left one => min left one.behind) source.rest.length

/-- The part of the script itself that is left. -/
def script (source : Source) : List Char := source.rest.drop (source.rest.length - source.left)

/-- The lines of the script itself that have been begun when some characters are left, but not the
line of an alias whose text is being read. -/
def begun (source : Source) (left : Nat) : List Char :=
  let isInAlias := source.replacements.any fun one => !source.passed one
  let script := source.script
  let lines := if isInAlias then (script.dropWhile (· ≠ '\n')).drop 1 else script
  linesBegun lines left

/-- The text that a word stands for as an alias; nothing while that text is read. -/
def alias? (source : Source) (name : List Char) : Option (List Char) :=
  let isRead := source.replacements.any fun one => one.name == name && !source.passed one
  if isRead then none else source.aliases.lookup name

/-- The script with the text of an alias in front. -/
def replaceBy (source : Source) (name text : List Char) : Source :=
  let left := source.replacements.filter fun one => !source.passed one
  { source with
    rest := text ++ source.rest
    isSpent := false
    replacements := Replacement.ofText name text source.rest.length :: left }

/-- Whether a text that ends in a blank has ended since an earlier state of the script. -/
def passesBlank (earlier source : Source) : Bool :=
  source.replacements.any fun one =>
    one.endsInBlank && source.passed one && !earlier.passed one

theorem alias?_replaceBy (source : Source) (name text : List Char) :
    (source.replaceBy name text).alias? name = none := by
  simp [alias?, replaceBy, Replacement.ofText, passed]

end Source

/-- What is wrong with a script. -/
structure Fault where
  line : Nat
  /-- The number of characters behind the place where that is seen. -/
  left : Nat
  /-- More has been asked for than there is. -/
  isSpent : Bool
  message : String
deriving DecidableEq, Repr

/-- What takes something from the front of a script. -/
abbrev Reader := StateT Source (Except Fault)

namespace Reader

/-- Gives up. -/
def fail {Value : Type} (message : String) : Reader Value := do
  let source ← get
  throw ⟨source.line, source.left, source.isSpent, message⟩

/-- The text from the first character on that is no line end taken back, and the number of those
dropped. -/
def dropJoins : List Char → List Char × Nat
  | '\\' :: '\n' :: rest => ((dropJoins rest).1, (dropJoins rest).2 + 1)
  | text => (text, 0)

theorem dropJoins_length_le (text : List Char) : (dropJoins text).1.length ≤ text.length := by
  fun_induction dropJoins text with
  | case1 rest ih => simp only [List.length_cons]; omega
  | case2 text => exact Nat.le_refl _

/-- The text after the spaces and the comment at its front, and the number of line ends dropped. -/
def skipSpace : List Char → List Char × Nat
  | ' ' :: rest => skipSpace rest
  | '\t' :: rest => skipSpace rest
  | '\\' :: '\n' :: rest => ((skipSpace rest).1, (skipSpace rest).2 + 1)
  | '#' :: rest => (rest.dropWhile (· ≠ '\n'), 0)
  | text => (text, 0)

theorem dropWhile_length_le (drops : Char → Bool) (text : List Char) :
    (text.dropWhile drops).length ≤ text.length :=
  List.Sublist.length_le (List.dropWhile_sublist drops)

theorem skipSpace_length_le (text : List Char) : (skipSpace text).1.length ≤ text.length := by
  fun_induction skipSpace text with
  | case1 rest ih => simp only [List.length_cons]; omega
  | case2 rest ih => simp only [List.length_cons]; omega
  | case3 rest ih => simp only [List.length_cons]; omega
  | case4 rest =>
    have := dropWhile_length_le (· ≠ '\n') rest
    simp only [List.length_cons]
    omega
  | case5 text => exact Nat.le_refl _

/-- Goes on behind what a function drops from the front of the text. -/
def dropBy (drop : List Char → List Char × Nat) : Reader Unit :=
  modify fun source =>
    let (rest, lines) := drop source.rest
    { source with rest, line := source.line + lines }

/-- The next character just as it is, which is taken. -/
def takeRaw : Reader (Option Char) := do
  let source ← get
  match source.rest with
  | [] =>
    set { source with isSpent := true }
    return none
  | char :: rest =>
    set { source with rest, line := if char = '\n' then source.line + 1 else source.line }
    return some char

/-- The next character after joined lines, which is not taken. -/
def peek : Reader (Option Char) := do
  dropBy dropJoins
  let source ← get
  set { source with isSpent := source.isSpent || source.rest.isEmpty }
  return source.rest.head?

/-- The next character after joined lines, which is taken. -/
def take : Reader (Option Char) := do
  dropBy dropJoins
  takeRaw

/-- Whether the next character is a certain one, which is taken then. -/
def accept (char : Char) : Reader Bool := do
  if (← peek) = some char then
    let _ ← takeRaw
    return true
  return false

/-- The characters at the front of the text that have a property, which are taken. -/
def takeWhile (has : Char → Bool) : Reader (List Char) := do
  let source ← get
  let chars := source.rest.takeWhile has
  set { source with
    rest := source.rest.drop chars.length
    line := source.line + chars.count '\n' }
  return chars

/-- The characters of a name that goes on, joined lines being left out, at most `steps` of them. -/
def takeJoined (has : Char → Bool) : (steps : Nat) → Reader (List Char)
  | 0 => return []
  | steps + 1 => do
    match ← peek with
    | none => return []
    | some char =>
      if has char then
        let _ ← takeRaw
        return char :: (← takeJoined has steps)
      return []

/-- Puts a token back. -/
def push (token : Token) : Reader Unit :=
  modify fun source => { source with pushed := some token }

/-- Gives up because of a token. -/
def unexpected {Value : Type} (token : Token) : Reader Value :=
  fail (token.describe ++ " unexpected")

/-- Gives up because of a token in the place of another one. -/
def expecting {Value : Type} (token wanted : Token) : Reader Value :=
  fail (token.describe ++ " unexpected (expecting " ++ wanted.describe ++ ")")

/-- Gives up unless a token is the one that is wanted; words are all alike. -/
def expect (wanted token : Token) : Reader Unit :=
  if token.describe = wanted.describe then return else expecting token wanted

end Reader

end CellSyntax.Shell
