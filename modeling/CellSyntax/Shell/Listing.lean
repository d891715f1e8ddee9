/-
**Lists that the shell writes.**

A text in a list stands in quotes that the shell reads back. What is kept by its name is listed in
groups, and in each group in the order in which it was put there.

* `quoteSingle_nil`: the empty text is a pair of quotes;
* `inGroups_perm`: nothing is lost in groups.
-/

namespace CellSyntax.Shell

/-- The rest of a text in quotes, `isInner` being whether the last character was a quote, which
stands in quotes of the other kind. -/
def quoteFrom (isInner : Bool) : List Char → List Char
  | [] => if isInner then ['"'] else ['\'']
  | char :: rest =>
    match char == '\'', isInner with
    | true, true => '\'' :: quoteFrom true rest
    | true, false => "'\"'".toList ++ quoteFrom true rest
    | false, true => "\"'".toList ++ char :: quoteFrom false rest
    | false, false => char :: quoteFrom false rest

/-- A text in quotes that the shell reads back. -/
def quoteSingle (text : List Char) : List Char := '\'' :: quoteFrom false text

theorem quoteSingle_nil : quoteSingle [] = "''".toList := rfl

/-- The group that a name belongs to, out of some of them. -/
def group (groups : Nat) (name : List Char) : Nat :=
  name.foldl (fun sum char => sum + char.toNat) (16 * (name.head?.getD '0').toNat) % groups

/-- What is kept by its name in the order of groups. -/
def inGroups {Value : Type} (groups : Nat) (entries : List (List Char × Value)) :
    List (List Char × Value) :=
  entries.mergeSort fun (first, _) (second, _) => group groups first ≤ group groups second

theorem inGroups_perm {Value : Type} (groups : Nat) (entries : List (List Char × Value)) :
    (inGroups groups entries).Perm entries := List.mergeSort_perm entries _

end CellSyntax.Shell
