/-
**Aliases.**

An alias is a word that stands for a text where a command starts. The text is read in the place of
the word; while it is read, the word stands for itself.

* `lookup_define`: an alias stands for the text that it was given last;
* `definition?_name`: the name in a definition is never empty.
-/

namespace CellSyntax.Shell

/-- Aliases with their texts, the oldest first. -/
abbrev Aliases := List (List Char × List Char)

namespace Aliases

/-- The aliases with one of them standing for a text. -/
def define (name text : List Char) : Aliases → Aliases
  | [] => [(name, text)]
  | (other, old) :: rest =>
    if name = other then (name, text) :: rest else (other, old) :: define name text rest

theorem lookup_define (name text : List Char) (aliases : Aliases) :
    (define name text aliases).lookup name = some text := by
  induction aliases with
  | nil => simp [define]
  | cons entry rest ih =>
    obtain ⟨other, old⟩ := entry
    by_cases same : name = other
    · simp [define, same]
    · have differs : (name == other) = false := by simpa using same
      simp only [define, same, if_false, List.lookup_cons, differs]
      exact ih

/-- The name and the text in an argument that defines an alias. -/
def definition? : List Char → Option (List Char × List Char)
  | [] => none
  | first :: rest =>
    let name := rest.takeWhile (· ≠ '=')
    if name.length < rest.length then some (first :: name, rest.drop (name.length + 1)) else none

theorem definition?_name {arg name text : List Char}
    (defines : definition? arg = some (name, text)) : name ≠ [] := by
  cases arg with
  | nil => simp [definition?] at defines
  | cons first rest =>
    simp only [definition?, Option.ite_none_right_eq_some, Option.some.injEq, Prod.mk.injEq]
      at defines
    simp [← defines.2.1]

/-- The greatest length that a text of some length has when the aliases in it are replaced. -/
def growth (length : Nat) (aliases : Aliases) : Nat :=
  aliases.foldl (fun size (_, text) => size * (text.length + 1)) (length + 1)

end Aliases

/-- A text that is read in the place of an alias. -/
structure Replacement where
  name : List Char
  /-- Whether the word behind the text may be an alias as well. -/
  endsInBlank : Bool
  /-- The length of the script behind the text. -/
  behind : Nat

/-- The text that is read in the place of an alias in front of a script of some length. -/
def Replacement.ofText (name text : List Char) (behind : Nat) : Replacement :=
  { name
    endsInBlank := text.getLast? = some ' ' || text.getLast? = some '\t'
    behind }

/-- The same while a script of its own is read inside the text. -/
def Replacement.lasting (replacement : Replacement) : Replacement :=
  { replacement with behind := 0 }

end CellSyntax.Shell
