/-
**Reading typed values straight from JSON text.**

A value whose type is known is read without building a `Json` first, so the first fault in the
order of the text is the one that counts: text that is not JSON, or a value of the wrong shape. A
member with a known key must not occur twice; the values of other members are skipped.

* `Direct.closeArray_surplus`: an array with items left over is malformed.
-/

import CellSyntax.Json.Reader

namespace CellSyntax

namespace Json

/-- What is wrong with a JSON text that should hold a value of some type. -/
inductive Fault where
  /-- It is not JSON. -/
  | malformed
  /-- It is JSON of another shape. -/
  | mismatch
deriving DecidableEq, Repr

/-- The wording of a fault. -/
def Fault.message : Fault → String
  | .malformed => "malformed JSON"
  | .mismatch => "JSON of another shape"

namespace Direct

/-- The fault of a value that has not the type asked for: it may be no value at all. Arrays and
objects are not read any further. -/
def wrongType (text : List Char) : Fault :=
  match skipBlanks text with
  | '[' :: _ => .mismatch
  | '\x7b' :: _ => .mismatch
  | text => if (readValue true 1 0 text).isSome then .mismatch else .malformed

/-- A natural number of 64 bits. -/
def readNatural (text : List Char) : Except Fault (Nat × List Char) :=
  match skipBlanks text with
  | char :: rest =>
    if Text.isDigit char ∨ char = '-' then
      match readNumber true (char :: rest) with
      | none => .error .malformed
      | some (number, rest) =>
        match number.asNatural? with
        | none => .error .mismatch
        | some value => .ok (value, rest)
    else .error (wrongType (char :: rest))
  | [] => .error .malformed

/-- A string. -/
def readText (text : List Char) : Except Fault (String × List Char) :=
  match skipBlanks text with
  | '"' :: rest =>
    match readString true rest with
    | none => .error .malformed
    | some (value, rest) => .ok (value, rest)
  | rest => .error (wrongType rest)

/-! ### Arrays -/

/-- The text of the next item of an array, or nothing if the array ends here. -/
def nextItem (isFirst : Bool) (text : List Char) : Except Fault (Option (List Char)) :=
  match skipBlanks text with
  | [] => .error .malformed
  | ']' :: _ => .ok none
  | ',' :: rest =>
    if isFirst then .ok (some (',' :: rest))
    else
      match skipBlanks rest with
      | [] => .error .malformed
      | ']' :: _ => .error .malformed
      | rest => .ok (some rest)
  | rest => if isFirst then .ok (some rest) else .error .malformed

/-- The text after the end of an array. -/
def closeArray (text : List Char) : Except Fault (List Char) :=
  match skipBlanks text with
  | ']' :: rest => .ok rest
  | _ => .error .malformed

theorem closeArray_surplus (rest : List Char) : closeArray (',' :: rest) = .error .malformed := rfl

/-- The strings of an array up to its end. -/
def readTextsFrom :
    (steps : Nat) → (isFirst : Bool) → List Char → Except Fault (List String × List Char)
  | 0, _, _ => .error .malformed
  | steps + 1, isFirst, text => do
    match ← nextItem isFirst text with
    | none => return ([], ← closeArray text)
    | some text =>
      let (value, text) ← readText text
      let (values, text) ← readTextsFrom steps false text
      return (value :: values, text)

/-- An array of strings. -/
def readTexts (text : List Char) : Except Fault (List String × List Char) :=
  match skipBlanks text with
  | '[' :: rest => readTextsFrom (rest.length + 1) true rest
  | rest => .error (wrongType rest)

/-! ### Objects -/

/-- The text after the colon that follows a key. -/
def readColon (text : List Char) : Except Fault (List Char) :=
  match skipBlanks text with
  | ':' :: rest => .ok rest
  | _ => .error .malformed

/-- The text after a value that is not looked at. -/
def skipValue (text : List Char) : Except Fault (List Char) :=
  match readValue false (stepsFor text) 0 text with
  | none => .error .malformed
  | some (_, rest) => .ok rest

/-- The key of the next member of an object and the text after it, or nothing if the object ends
here. -/
def nextKey (isFirst : Bool) (text : List Char) :
    Except Fault (Option (String × List Char)) :=
  let key (text : List Char) :=
    match text with
    | '"' :: rest =>
      match readString true rest with
      | none => .error .malformed
      | some found => .ok (some found)
    | _ => .error .malformed
  match skipBlanks text with
  | '\x7d' :: _ => .ok none
  | ',' :: rest => if isFirst then .error .malformed else key (skipBlanks rest)
  | rest => if isFirst then key rest else .error .malformed

/-- The members of an object, each handed to `field` with its key and the text after the key.
Gives the text from the closing brace on. -/
def readFieldsFrom {State : Type}
    (field : State → String → List Char → Except Fault (State × List Char)) :
    (steps : Nat) → (isFirst : Bool) → State → List Char → Except Fault (State × List Char)
  | 0, _, _, _ => .error .malformed
  | steps + 1, isFirst, state, text => do
    match ← nextKey isFirst text with
    | none => return (state, text)
    | some (key, text) =>
      let (state, text) ← field state key text
      readFieldsFrom field steps false state text

/-- An object after its opening brace: its members gathered by `field`, and the value made of
them. -/
def readFields {State Value : Type}
    (field : State → String → List Char → Except Fault (State × List Char)) (start : State)
    (value? : State → Option Value) (text : List Char) : Except Fault (Value × List Char) := do
  let (state, text) ← readFieldsFrom field (text.length + 1) true start text
  match value? state with
  | none => .error .mismatch
  | some value =>
    match skipBlanks text with
    | '\x7d' :: rest => return (value, rest)
    | _ => .error .malformed

/-- The value of a member that may occur once, `known` being what it was before. -/
def readOnce {Value : Type} (read : List Char → Except Fault (Value × List Char))
    (known : Option Value) (text : List Char) : Except Fault (Option Value × List Char) :=
  match known with
  | some _ => .error .mismatch
  | none => do
    let (value, text) ← read (← readColon text)
    return (some value, text)

/-- The value that a whole text holds. -/
def readWhole {Value : Type} (read : List Char → Except Fault (Value × List Char))
    (text : String) : Except Fault Value := do
  let (value, rest) ← read text.toList
  if (skipBlanks rest).isEmpty then return value else .error .malformed

end Direct

end Json

end CellSyntax
