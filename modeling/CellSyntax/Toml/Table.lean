/-
**Tables of a TOML document.**

A table comes into being by a header of its own, by a header or a dotted key that leads through it,
or by a header that adds an element to an array of tables. Each way allows other additions later,
so a table remembers how it came into being.

* `Entries.find?_set`: an entry that is set is found again.
-/

import CellSyntax.Json.Basic

namespace CellSyntax

namespace Toml

/-- How a table came into being. -/
inductive Origin where
  /-- By its own header. -/
  | header
  /-- By a header of a table inside it. -/
  | passed
  /-- By a dotted key. -/
  | dotted
deriving DecidableEq, Repr

/-- What a key stands for. -/
inductive Item where
  | value (value : Json)
  | table (origin : Origin) (entries : List (String × Item))
  /-- An array of tables, each with its entries. -/
  | tables (elements : List (List (String × Item)))
deriving Repr

/-- The entries of a table, no key twice. -/
abbrev Entries := List (String × Item)

namespace Entries

/-- What a key stands for. -/
def find? (key : String) : Entries → Option Item
  | [] => none
  | (name, item) :: rest => if name = key then some item else find? key rest

/-- The entries with a key made to stand for an item. -/
def set (key : String) (item : Item) : Entries → Entries
  | [] => [(key, item)]
  | (name, old) :: rest =>
    if name = key then (name, item) :: rest else (name, old) :: set key item rest

theorem find?_set (key : String) (item : Item) (entries : Entries) :
    find? key (set key item entries) = some item := by
  induction entries with
  | nil => simp [set, find?]
  | cons entry rest ih =>
    rcases entry with ⟨name, old⟩
    unfold set
    split
    · rename_i same
      simp [find?, same]
    · rename_i different
      simp [find?, different, ih]

end Entries

mutual

/-- An item as a JSON value. -/
def Item.toJson : Item → Json
  | .value value => value
  | .table _ entries => .object (entriesToJson entries)
  | .tables elements => .array (elementsToJson elements)

/-- Entries as the members of a JSON object. -/
def entriesToJson : List (String × Item) → List (String × Json)
  | [] => []
  | (key, item) :: rest => (key, item.toJson) :: entriesToJson rest

/-- The tables of an array as JSON objects. -/
def elementsToJson : List (List (String × Item)) → List Json
  | [] => []
  | entries :: rest => .object (entriesToJson entries) :: elementsToJson rest

end

/-! ### Additions -/

/-- The table at the end of a path changed, tables that are missing on the way being made with the
given origin. A table with a header of its own is not open to dotted keys; of an array of tables
the last one is meant. -/
def changeAt (origin : Origin) (change : Origin → Entries → Option (Origin × Entries)) :
    (path : List String) → Origin → Entries → Option (Origin × Entries)
  | [], own, entries => change own entries
  | key :: path, own, entries =>
    match Entries.find? key entries with
    | none => do
      let (inner, changed) ← changeAt origin change path origin []
      return (own, Entries.set key (.table inner changed) entries)
    | some (.table inner old) =>
      if origin = .dotted ∧ inner = .header then none
      else do
        let (inner, changed) ← changeAt origin change path inner old
        return (own, Entries.set key (.table inner changed) entries)
    | some (.tables elements) => do
      let (_, changed) ← changeAt origin change path .header (← elements.getLast?)
      return (own, Entries.set key (.tables (elements.dropLast ++ [changed])) entries)
    | some (.value _) => none

/-- A key with its value added to a table, the key itself leading through the tables of `path`. -/
def addEntry (path : List String) (key : String) (value : Json) (own : Origin)
    (entries : Entries) : Option (Origin × Entries) :=
  changeAt .dotted
    (fun origin entries =>
      if (origin = .dotted) = (path = []) then none
      else
        match Entries.find? key entries with
        | some _ => none
        | none => some (origin, Entries.set key (.value value) entries))
    path own entries

/-- A table opened by its header. -/
def openTable (key : String) (own : Origin) (entries : Entries) : Option (Origin × Entries) :=
  match Entries.find? key entries with
  | none => some (own, Entries.set key (.table .header []) entries)
  | some (.table .passed inner) => some (own, Entries.set key (.table .header inner) entries)
  | some _ => none

/-- A table added to an array of tables. -/
def addElement (key : String) (own : Origin) (entries : Entries) : Option (Origin × Entries) :=
  match Entries.find? key entries with
  | none => some (own, Entries.set key (.tables [[]]) entries)
  | some (.tables elements) => some (own, Entries.set key (.tables (elements ++ [[]])) entries)
  | some _ => none

end Toml

end CellSyntax
