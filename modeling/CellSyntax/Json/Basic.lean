/-
**JSON values.**

Whole numbers that fit into 64 bits, signed or unsigned, are integers; any other number keeps its
literal. The members of an object are in the order of the text; of two members with one key the
last counts.

* `member?_append`: a later member with the key hides an earlier one;
* `asNatural?_eq_some_iff`: a natural number is an integer that is not negative.
-/

namespace CellSyntax

/-- A JSON value. -/
inductive Json where
  | null
  | bool (value : Bool)
  /-- A whole number from `-2^63` to `2^64 - 1`. -/
  | integer (value : Int)
  /-- Any other number, as it is written. -/
  | real (literal : String)
  | string (value : String)
  | array (items : List Json)
  | object (members : List (String × Json))
deriving Repr, Inhabited

namespace Json

/-- The least natural number that does not fit into 64 bits without a sign. -/
def unsignedLimit : Nat := 0x10000000000000000

/-- The least natural number that does not fit into 64 bits with a sign. -/
def signedLimit : Nat := 0x8000000000000000

/-- The value of the last member with a key. -/
def member? (key : String) : List (String × Json) → Option Json
  | [] => none
  | (name, value) :: rest =>
    match member? key rest with
    | some found => some found
    | none => if name = key then some value else none

theorem member?_append (key : String) (first second : List (String × Json)) :
    member? key (first ++ second) = (member? key second).or (member? key first) := by
  induction first with
  | nil => simp [member?]
  | cons entry rest ih =>
    rcases entry with ⟨name, value⟩
    simp only [List.cons_append, member?, ih]
    cases member? key second <;> simp

/-- A natural number. -/
def asNatural? : Json → Option Nat
  | .integer (.ofNat value) => some value
  | _ => none

theorem asNatural?_eq_some_iff {json : Json} {value : Nat} :
    json.asNatural? = some value ↔ json = .integer value := by
  constructor
  · intro read
    unfold asNatural? at read
    split at read
    · cases read
      rfl
    · cases read
  · rintro rfl
    rfl

/-- A text. -/
def asString? : Json → Option String
  | .string value => some value
  | _ => none

/-- A list of texts. -/
def asStrings? : Json → Option (List String)
  | .array items => items.mapM asString?
  | _ => none

/-- The number written as JSON. -/
def natural (value : Nat) : Json := .integer value

/-- The texts written as JSON. -/
def strings (values : List String) : Json := .array (values.map .string)

/-- A value that may be absent, absence being `null`. -/
def nullable {Value : Type} (encode : Value → Json) (value : Option Value) : Json :=
  (value.map encode).getD .null

end Json

end CellSyntax
