/-
**Configuration.**

How a tokenizer labels its tokens, which pairs of characters are brackets, and how the parser
process is started; with the checks that a configuration has to pass and the wording of what they
find.

* `TokenConfig.bracketPair?_eq_some_iff`: an entry names a bracket pair exactly when it has two
  characters that differ;
* `Config.validate_default`: the defaults pass.
-/

import CellSyntax.Text.Blank

namespace CellSyntax

/-- How a tokenizer labels its tokens and which characters are brackets. -/
structure TokenConfig where
  /-- The kind of the token that leads the stream and stands for no text. -/
  encodingMarker : String := "ENCODING"
  /-- The kind of the tokens that end the stream. -/
  endMarker : String := "ENDMARKER"
  /-- The kind given to text that no token covers. -/
  triviaKind : String := "WHITESPACE"
  /-- The kind of the root when there is no syntax tree to follow. -/
  rootKind : String := "Module"
  /-- Bracket pairs, each an opener and its closer. -/
  brackets : List String := ["()", "[]", "\x7b\x7d"]
deriving DecidableEq, Repr, Inhabited

/-- How the parser process is started. -/
structure ParserConfig where
  program : String := "python3"
  args : List String := ["scripts/py_cell_parse.py"]
  /-- The number that the parser gives to the first line. -/
  lineBase : Nat := 1
deriving DecidableEq, Repr, Inhabited

/-- The whole configuration. -/
structure Config where
  tokens : TokenConfig := {}
  parser : ParserConfig := {}
deriving DecidableEq, Repr, Inhabited

/-! ### Bracket pairs -/

/-- The opener and closer that an entry names: its characters, if there are two and they differ.
Validation tests this by the shape of the entry, and the table of brackets by asking for one
character after the other. The two tests agree, so both are this one. -/
def TokenConfig.bracketPair? (entry : String) : Option (Char × Char) :=
  match entry.toList with
  | [opener, closer] => if opener = closer then none else some (opener, closer)
  | _ => none

/-- The bracket pairs, entries that name none left out. -/
def TokenConfig.bracketPairs (config : TokenConfig) : List (Char × Char) :=
  config.brackets.filterMap TokenConfig.bracketPair?

theorem TokenConfig.bracketPair?_eq_some_iff {entry : String} {opener closer : Char} :
    TokenConfig.bracketPair? entry = some (opener, closer) ↔
      entry.toList = [opener, closer] ∧ opener ≠ closer := by
  unfold TokenConfig.bracketPair?
  split
  · rename_i first second chars
    rw [chars]
    split
    · rename_i same
      subst same
      simp only [reduceCtorEq, List.cons.injEq, and_true, false_iff, not_and]
      rintro ⟨rfl, rfl⟩
      simp
    · rename_i different
      simp only [Option.some.injEq, Prod.mk.injEq, List.cons.injEq, and_true]
      constructor
      · rintro ⟨rfl, rfl⟩
        exact ⟨⟨rfl, rfl⟩, different⟩
      · exact fun both => both.1
  · rename_i other
    simp only [reduceCtorEq, false_iff, not_and]
    intro chars
    exact (other _ _ chars).elim

/-! ### Validation -/

/-- Something that a configuration must not have. -/
inductive ConfigIssue where
  /-- A field that has to say something is blank. -/
  | missing (field : String)
  /-- An entry of the bracket list is not a pair of two different characters. -/
  | malformedPair (entry : String)
  /-- A character occurs in the bracket list for a second time. -/
  | repeatedBracket (char : Char)
  /-- Lines are counted from neither zero nor one. -/
  | lineBase (value : Nat)
deriving DecidableEq, Repr

/-- The field that an issue is about. -/
def ConfigIssue.field : ConfigIssue → String
  | .missing field => field
  | .malformedPair _ => "tokens.brackets"
  | .repeatedBracket _ => "tokens.brackets"
  | .lineBase _ => "parser.line_base"

/-- The wording of an issue. -/
def ConfigIssue.message : ConfigIssue → String
  | .missing field => s!"missing required field '{field}'"
  | .malformedPair entry =>
    s!"invalid value for 'tokens.brackets': bracket pair '{entry}' must be two distinct " ++
      "characters, opener first"
  | .repeatedBracket char =>
    s!"invalid value for 'tokens.brackets': '{char}' appears in more than one bracket pair"
  | .lineBase value =>
    s!"invalid value for 'parser.line_base': expected 0 or 1, got {value}"

/-- The issue of a field that is blank. -/
def ConfigIssue.ofField (field value : String) : List ConfigIssue :=
  if Text.isBlank value then [.missing field] else []

/-- The issues of the bracket entries, the characters `seen` having occurred before. -/
def ConfigIssue.ofBrackets (seen : List Char) : List String → List ConfigIssue
  | [] => []
  | entry :: rest =>
    match TokenConfig.bracketPair? entry with
    | none => .malformedPair entry :: ConfigIssue.ofBrackets seen rest
    | some (opener, closer) =>
      (if opener ∈ seen then [.repeatedBracket opener] else []) ++
        (if closer ∈ seen then [.repeatedBracket closer] else []) ++
        ConfigIssue.ofBrackets (closer :: opener :: seen) rest

/-- Everything wrong with a configuration, in the order of its fields. -/
def Config.validate (config : Config) : List ConfigIssue :=
  ConfigIssue.ofField "tokens.encoding_marker" config.tokens.encodingMarker ++
    ConfigIssue.ofField "tokens.end_marker" config.tokens.endMarker ++
    ConfigIssue.ofField "tokens.trivia_kind" config.tokens.triviaKind ++
    ConfigIssue.ofField "tokens.root_kind" config.tokens.rootKind ++
    ConfigIssue.ofBrackets [] config.tokens.brackets ++
    ConfigIssue.ofField "parser.program" config.parser.program ++
    (if 1 < config.parser.lineBase then [.lineBase config.parser.lineBase] else [])

theorem Config.validate_default : Config.validate {} = [] := by decide

/-- The wording of several issues, one on a line. -/
def ConfigIssue.messages (issues : List ConfigIssue) : String :=
  "\n".intercalate (issues.map ConfigIssue.message)

end CellSyntax
