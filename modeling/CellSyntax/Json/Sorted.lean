/-
**JSON with sorted keys.**

* `Json.insertMember_perm`: sorting loses no member.
-/

import CellSyntax.Json.Basic

namespace CellSyntax

namespace Json

/-- A member put before the first one with a greater key. -/
def insertMember (member : String × Json) : List (String × Json) → List (String × Json)
  | [] => [member]
  | other :: rest =>
    if other.1 ≤ member.1 then other :: insertMember member rest else member :: other :: rest

theorem insertMember_perm (member : String × Json) (others : List (String × Json)) :
    (insertMember member others).Perm (member :: others) := by
  induction others with
  | nil => exact .refl _
  | cons other rest ih =>
    unfold insertMember
    split
    · exact (ih.cons other).trans (.swap member other rest)
    · exact .refl _

mutual

/-- A value with the members of every object in the order of their keys. -/
def sorted : Json → Json
  | .array items => .array (sortedItems items)
  | .object members => .object (sortedMembers members)
  | json => json

/-- Items with the members of every object in the order of their keys. -/
def sortedItems : List Json → List Json
  | [] => []
  | item :: rest => sorted item :: sortedItems rest

/-- Members in the order of their keys. -/
def sortedMembers : List (String × Json) → List (String × Json)
  | [] => []
  | (key, value) :: rest => insertMember (key, sorted value) (sortedMembers rest)

end

end Json

end CellSyntax
