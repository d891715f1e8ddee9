/-
**Loading a configuration.**

A configuration is a TOML document; it has to pass validation before it is used.

* `Config.ofDocument_issues`: a document whose values break a rule is refused with all of its
  issues.
-/

import CellSyntax.Files
import CellSyntax.Json.Config
import CellSyntax.Toml.Document

namespace CellSyntax

/-- Why there is no configuration; documents that come from a file have its name. -/
inductive ConfigError where
  /-- The file cannot be read. -/
  | unreadable (name : String) (cause : SystemError)
  /-- The document is not TOML, or its values are not those of a configuration. -/
  | malformed (name : Option String)
  /-- The configuration breaks rules. -/
  | invalid (name : Option String) (issues : List ConfigIssue)
deriving DecidableEq, Repr

namespace ConfigError

/-- The name of a file in brackets, if there is one. -/
def origin : Option String → String
  | some name => s!" ({name})"
  | none => ""

/-- The wording for a document that is malformed. -/
def malformedDocument : String := "TOML parse error"

/-- The wording of what caused an error. -/
def cause : ConfigError → String
  | unreadable _ cause => cause.message
  | malformed _ => malformedDocument
  | invalid _ issues => ConfigIssue.messages issues

/-- The wording of an error, its cause included. -/
def message (error : ConfigError) : String :=
  match error with
  | unreadable name _ => s!"failed to read config from {name}: " ++ error.cause
  | malformed name => s!"failed to parse config TOML{origin name}: " ++ error.cause
  | invalid name _ => s!"invalid config{origin name}: " ++ error.cause

end ConfigError

namespace Config

/-- The configuration that a document holds. -/
def ofDocument (name : Option String) (document : String) : Except ConfigError Config :=
  match (Toml.read document).bind (Config.ofJson? true) with
  | none => .error (.malformed name)
  | some config =>
    match config.validate with
    | [] => .ok config
    | issues => .error (.invalid name issues)

theorem ofDocument_issues {name : Option String} {document : String} {config : Config}
    {issue : ConfigIssue} {rest : List ConfigIssue}
    (read : (Toml.read document).bind (Config.ofJson? true) = some config)
    (broken : config.validate = issue :: rest) :
    ofDocument name document = .error (.invalid name (issue :: rest)) := by
  simp only [ofDocument, read, broken]

/-- The configuration of a file. -/
def load {m : Type → Type} [Monad m] (files : FileAccess m) (name : String) :
    m (Except ConfigError Config) := do
  match ← files.read name with
  | .error error => return .error (.unreadable name error)
  | .ok document => return ofDocument (some name) document

end Config

end CellSyntax
