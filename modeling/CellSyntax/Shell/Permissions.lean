/-
**Permissions of new files.**

The permissions of a file are three octal digits: for its owner, for its group and for others. They
are changed by clauses, each of which says whose permissions it is about, what is done to them, and
which ones: letters, or those that someone has had before.

* `Permissions.changed?_nil`: without clauses nothing is changed;
* `Permissions.keep_add`: permissions that are given are there afterwards.
-/

namespace CellSyntax.Shell

/-- The permissions of the owner, of the group and of others, each an octal digit. -/
structure Permissions where
  owner : Nat
  group : Nat
  others : Nat
deriving DecidableEq, Repr

namespace Permissions

/-- The permissions that the digits of a number make up. -/
def ofNumber (number : Nat) : Permissions := ⟨number / 64 % 8, number / 8 % 8, number % 8⟩

/-- The permissions as one number. -/
def toNumber (permissions : Permissions) : Nat :=
  permissions.owner * 64 + permissions.group * 8 + permissions.others

/-- The permissions that are left by a mask, or the mask that leaves some permissions. -/
def complement (permissions : Permissions) : Permissions :=
  ⟨7 - permissions.owner, 7 - permissions.group, 7 - permissions.others⟩

/-- Whose permissions a clause is about. -/
structure Whose where
  owner : Bool := false
  group : Bool := false
  others : Bool := false
deriving DecidableEq, Repr

/-- Those that a clause is about with the ones whom one more letter names. -/
def Whose.add (whose : Whose) : Char → Whose
  | 'u' => { whose with owner := true }
  | 'g' => { whose with group := true }
  | 'o' => { whose with others := true }
  | _ => ⟨true, true, true⟩

/-- Those that a clause is about by the letters at its front; everyone if there are none. -/
def Whose.ofLetters (whose : Whose) (letters : List Char) : Whose :=
  let whose := letters.foldl Whose.add whose
  if whose = {} then ⟨true, true, true⟩ else whose

/-- What is done to permissions. -/
inductive Change where
  | add
  | remove
  | replace
deriving DecidableEq, Repr

/-- The change that a character asks for. -/
def Change.ofChar? : Char → Option Change
  | '+' => some add
  | '-' => some remove
  | '=' => some replace
  | _ => none

/-- A digit of permissions after a change. -/
def Change.digit : Change → (value old : Nat) → Nat
  | add, value, old => old ||| value
  | remove, value, old => old &&& (7 - value)
  | replace, value, _ => value

/-- The digit of permissions that a letter stands for, `earlier` being the permissions from before
all changes. -/
def letterDigit (earlier : Permissions) : Char → Nat
  | 'r' => 4
  | 'w' => 2
  | 'x' => 1
  | 'u' => earlier.owner
  | 'g' => earlier.group
  | 'o' => earlier.others
  | 'X' => (earlier.owner ||| earlier.group ||| earlier.others) &&& 1
  | _ => 0

/-- Permissions after a change of some of them. -/
def apply (permissions : Permissions) (whose : Whose) (change : Change) (value : Nat) :
    Permissions where
  owner := if whose.owner then change.digit value permissions.owner else permissions.owner
  group := if whose.group then change.digit value permissions.group else permissions.group
  others := if whose.others then change.digit value permissions.others else permissions.others

theorem keep_add (permissions : Permissions) (whose : Whose) (value : Nat)
    (isOwner : whose.owner = true) :
    (permissions.apply whose .add value).owner ||| value =
      (permissions.apply whose .add value).owner := by
  simp only [apply, isOwner, ↓reduceIte, Change.digit]
  rw [Nat.or_assoc, Nat.or_self]

/-- The permissions after the clauses in a text, unless it cannot be understood; the first clause
goes on one about `whose`, and at most `steps` changes are made. -/
def changeFrom? (earlier : Permissions) : (steps : Nat) → Whose → Permissions → List Char →
    Option Permissions
  | _, _, permissions, [] => some permissions
  | 0, _, _, _ => none
  | steps + 1, whose, permissions, text => do
    let isWho (char : Char) : Bool := "augo".toList.contains char
    let isWhat (char : Char) : Bool := "rwxugoXs".toList.contains char
    let whose := Whose.ofLetters whose (text.takeWhile isWho)
    match text.dropWhile isWho with
    | [] => none
    | operator :: rest =>
      let change ← Change.ofChar? operator
      let digits := (rest.takeWhile isWhat).map (letterDigit earlier)
      let value := digits.foldl (· ||| ·) 0
      let permissions := permissions.apply whose change value
      match rest.dropWhile isWhat with
      | ',' :: rest => changeFrom? earlier steps {} permissions rest
      | rest => changeFrom? earlier steps whose permissions rest

/-- The permissions after the clauses in a text, unless it cannot be understood. -/
def changed? (permissions : Permissions) (text : List Char) : Option Permissions :=
  changeFrom? permissions text.length {} permissions text

theorem changed?_nil (permissions : Permissions) : permissions.changed? [] = some permissions := by
  simp [changed?, changeFrom?]

/-- The letters of a digit of permissions. -/
def letters (digit : Nat) : List Char :=
  [(4, 'r'), (2, 'w'), (1, 'x')].filterMap fun (bit, letter) =>
    if digit / bit % 2 = 1 then some letter else none

/-- Permissions as clauses. -/
def render (permissions : Permissions) : List Char :=
  "u=".toList ++ letters permissions.owner ++ ",g=".toList ++ letters permissions.group ++
    ",o=".toList ++ letters permissions.others

end Permissions

end CellSyntax.Shell
