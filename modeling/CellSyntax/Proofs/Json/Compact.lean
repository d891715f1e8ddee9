/-
**The text of a JSON value is read back.**

A value that is written on one line is read as that value, whatever comes behind it that does not go
on with a number. Nothing is lost if all its numbers are integers of 64 bits, and arrays and objects
may nest as deep as the reader allows. Every level of the reader takes at most two steps for each
character, so twice the length of the text is enough for all of it.

* `Json.Integral`, `Json.levels`: the values that are written and how deep they nest;
* `Json.readValue_compact`: a value is read back, with what follows;
* `Json.read_compact`: a whole text is read back if it nests fewer than 128 levels.
-/

import CellSyntax.Proofs.Json.Scalars

namespace CellSyntax

namespace Json

mutual

/-- How deep arrays and objects nest. -/
def levels : Json → Nat
  | .array items => levelsOf items + 1
  | .object members => levelsIn members + 1
  | _ => 0

/-- How deep the items of an array nest. -/
def levelsOf : List Json → Nat
  | [] => 0
  | item :: rest => max item.levels (levelsOf rest)

/-- How deep the members of an object nest. -/
def levelsIn : List (String × Json) → Nat
  | [] => 0
  | (_, value) :: rest => max value.levels (levelsIn rest)

end

/-- **All numbers in a value are integers of 64 bits**, signed or unsigned. -/
inductive Integral : Json → Prop
  | null : Integral .null
  | bool (value : Bool) : Integral (.bool value)
  | integer {value : Int} (low : -(signedLimit : Int) ≤ value) (high : value < unsignedLimit) :
      Integral (.integer value)
  | string (value : String) : Integral (.string value)
  | array {items : List Json} (all : ∀ item ∈ items, item.Integral) : Integral (.array items)
  | object {members : List (String × Json)} (all : ∀ member ∈ members, member.2.Integral) :
      Integral (.object members)

/-! ### Written values -/

/-- The characters of the items of an array, with commas between them. -/
def itemChars (items : List Json) : List Char := (",".intercalate (compactItems items)).toList

/-- The characters of the members of an object, with commas between them. -/
def memberChars (members : List (String × Json)) : List Char :=
  (",".intercalate (compactMembers members)).toList

theorem itemChars_single (item : Json) : itemChars [item] = item.compact.toList := by
  rw [itemChars, compactItems, compactItems, String.intercalate_singleton]

theorem itemChars_cons (item next : Json) (rest : List Json) :
    itemChars (item :: next :: rest) = item.compact.toList ++ ',' :: itemChars (next :: rest) := by
  rw [itemChars, itemChars, compactItems, compactItems, String.intercalate_cons_cons]
  simp

/-- The characters of one member. -/
theorem toList_member (key : String) (value : Json) : (quote key ++ ":" ++ value.compact).toList =
    '"' :: (key.toList.flatMap escapeChar ++ '"' :: ':' :: value.compact.toList) := by
  simp [toList_quote]

theorem memberChars_single (key : String) (value : Json) : memberChars [(key, value)] =
    '"' :: (key.toList.flatMap escapeChar ++ '"' :: ':' :: value.compact.toList) := by
  rw [memberChars, compactMembers, compactMembers, String.intercalate_singleton, toList_member]

theorem memberChars_cons (key : String) (value : Json) (next : String × Json)
    (rest : List (String × Json)) : memberChars ((key, value) :: next :: rest) =
      '"' :: (key.toList.flatMap escapeChar ++ '"' :: ':' :: value.compact.toList) ++
        ',' :: memberChars (next :: rest) := by
  rw [memberChars, memberChars, compactMembers, ← toList_member]
  obtain ⟨name, other⟩ := next
  rw [compactMembers, String.intercalate_cons_cons]
  simp

theorem toList_array (items : List Json) :
    (Json.array items).compact.toList = '[' :: (itemChars items ++ [']']) := by
  rw [compact, itemChars]
  simp

theorem toList_object (members : List (String × Json)) :
    (Json.object members).compact.toList = '\x7b' :: (memberChars members ++ ['\x7d']) := by
  rw [compact, memberChars]
  simp

/-! ### Steps of the reader -/

theorem isSpace_eq_false {char : Char} (isNumber : Text.isDigit char = true ∨ char = '-') :
    isSpace char = false := by
  rw [Bool.eq_false_iff]
  intro space
  simp only [isSpace, Bool.or_eq_true, beq_iff_eq] at space
  rcases space with ((rfl | rfl) | rfl) | rfl <;> exact absurd isNumber (by decide)

/-- **A written value starts with a character** that is no space and does not end an array. -/
theorem exists_first {json : Json} (integral : json.Integral) : ∃ first rest,
    json.compact.toList = first :: rest ∧ isSpace first = false ∧ first ≠ ']' := by
  cases integral with
  | null => exact ⟨_, _, rfl, by decide, by decide⟩
  | bool value => cases value <;> exact ⟨_, _, rfl, by decide, by decide⟩
  | @integer value low high =>
    obtain ⟨first, rest, written, isNumber⟩ := exists_first_toString value
    refine ⟨first, rest, written, isSpace_eq_false isNumber, ?_⟩
    rintro rfl
    exact absurd isNumber (by decide)
  | string value =>
    rw [compact, toList_quote]
    exact ⟨_, _, rfl, by decide, by decide⟩
  | array all =>
    rw [toList_array]
    exact ⟨_, _, rfl, by decide, by decide⟩
  | object all =>
    rw [toList_object]
    exact ⟨_, _, rfl, by decide, by decide⟩

variable {steps nesting : Nat} {rest : List Char}

theorem skipBlanks_cons {char : Char} (solid : isSpace char = false) (rest : List Char) :
    skipBlanks (char :: rest) = char :: rest :=
  List.dropWhile_cons_of_neg (by rw [solid]; exact Bool.false_ne_true)

/-- A number is read where a digit or a sign stands. -/
theorem readValue_number {char : Char} (isNumber : Text.isDigit char = true ∨ char = '-')
    (rest : List Char) :
    readValue true (steps + 1) nesting (char :: rest) = readNumber true (char :: rest) := by
  rw [readValue, skipBlanks_cons (isSpace_eq_false isNumber)]
  split
  case h_7 => rfl
  -- Any other value starts with a character that is neither a digit nor a sign.
  all_goals
    rename_i same
    cases same
    exact absurd isNumber (by decide)

theorem readValue_string (text : String) :
    readValue true (steps + 1) nesting ((quote text).toList ++ rest) =
      some (.string text, rest) := by
  rw [toList_quote, List.cons_append, List.append_assoc, List.singleton_append]
  show (readString true _).map _ = _
  rw [readString_escape]
  rfl

theorem readValue_array {char : Char} (solid : isSpace char = false) (notEnd : char ≠ ']') :
    readValue true (steps + 1) (nesting + 1) ('[' :: char :: rest) =
      (readItems true steps nesting (char :: rest)).map
        fun (items, rest) => (.array items, rest) := by
  have goesOn : ∀ others, char :: rest = ']' :: others → False :=
    fun _ same => notEnd (List.cons.inj same).1
  rw [readValue, skipBlanks_cons (by decide)]
  simp only [Bool.true_and, Nat.add_one_ne_zero, beq_iff_eq, if_false, skipBlanks_cons solid]
  rfl

theorem readValue_object :
    readValue true (steps + 1) (nesting + 1) ('\x7b' :: '"' :: rest) =
      (readMembers true steps nesting ('"' :: rest)).map
        fun (members, rest) => (.object members, rest) := rfl

/-- What items start with is what the first of them starts with. -/
theorem exists_firstOf (item : Json) (items : List Json) (integral : item.Integral) :
    ∃ first rest, itemChars (item :: items) = first :: rest ∧ isSpace first = false ∧
      first ≠ ']' := by
  obtain ⟨first, rest, written, solid, notEnd⟩ := exists_first integral
  cases items with
  | nil => exact ⟨first, rest, by rw [itemChars_single, written], solid, notEnd⟩
  | cons next items =>
    refine ⟨first, rest ++ ',' :: itemChars (next :: items), ?_, solid, notEnd⟩
    rw [itemChars_cons, written, List.cons_append]

/-- Members start with the quote of a key. -/
theorem exists_firstIn (key : String) (value : Json) (members : List (String × Json)) :
    ∃ rest, memberChars ((key, value) :: members) = '"' :: rest := by
  cases members with
  | nil => exact ⟨_, memberChars_single key value⟩
  | cons next members => exact ⟨_, memberChars_cons key value next members⟩

/-- The last item is read with the end of the array. -/
theorem readItems_last {item : Json} {text : List Char}
    (read : readValue true steps nesting text = some (item, ']' :: rest)) :
    readItems true (steps + 1) nesting text = some ([item], rest) := by
  rw [readItems, read]
  rfl

/-- An item is read before the items behind the comma. -/
theorem readItems_next {item : Json} {items : List Json} {text later : List Char}
    (read : readValue true steps nesting text = some (item, ',' :: later))
    (others : readItems true steps nesting later = some (items, rest)) :
    readItems true (steps + 1) nesting text = some (item :: items, rest) := by
  rw [readItems, read]
  show (readItems true steps nesting later).map _ = _
  rw [others]
  rfl

/-- The last member is read with the end of the object. -/
theorem readMembers_last {key : String} {value : Json} {text : List Char}
    (read : readValue true steps nesting text = some (value, '\x7d' :: rest)) :
    readMembers true (steps + 1) nesting
      ('"' :: (key.toList.flatMap escapeChar ++ '"' :: ':' :: text)) =
        some ([(key, value)], rest) := by
  rw [readMembers]
  simp only [skipBlanks_cons (show isSpace '"' = false by decide), readString_escape,
    skipBlanks_cons (show isSpace ':' = false by decide), read,
    skipBlanks_cons (show isSpace '\x7d' = false by decide)]

/-- A member is read before the members behind the comma. -/
theorem readMembers_next {key : String} {value : Json} {members : List (String × Json)}
    {text later : List Char}
    (read : readValue true steps nesting text = some (value, ',' :: later))
    (others : readMembers true steps nesting later = some (members, rest)) :
    readMembers true (steps + 1) nesting
      ('"' :: (key.toList.flatMap escapeChar ++ '"' :: ':' :: text)) =
        some ((key, value) :: members, rest) := by
  rw [readMembers]
  simp only [skipBlanks_cons (show isSpace '"' = false by decide), readString_escape,
    skipBlanks_cons (show isSpace ':' = false by decide), read,
    skipBlanks_cons (show isSpace ',' = false by decide), others]
  rfl

/-! ### Reading back -/

/-- **A value is read back, with what follows**, where the reader allows its levels and has steps
for its characters. -/
def ReadBack (json : Json) : Prop :=
  ∀ {steps nesting : Nat} {rest : List Char}, json.levels ≤ nesting →
    2 * json.compact.toList.length ≤ steps → EndsNumber rest →
      readValue true steps nesting (json.compact.toList ++ rest) = some (json, rest)

/-- Items that are read back one by one are read back up to the end of the array. -/
theorem readItems_compact {item : Json} {items : List Json}
    (each : ∀ other ∈ item :: items, other.ReadBack) (upTo : levelsOf (item :: items) ≤ nesting)
    (enough : 2 * (itemChars (item :: items)).length + 1 ≤ steps) :
    readItems true steps nesting (itemChars (item :: items) ++ ']' :: rest) =
      some (item :: items, rest) := by
  induction items generalizing item steps with
  | nil =>
    obtain ⟨steps, rfl⟩ : ∃ fewer, steps = fewer + 1 := ⟨steps - 1, by omega⟩
    rw [levelsOf] at upTo
    rw [itemChars_single] at enough ⊢
    exact readItems_last (each item List.mem_cons_self (Nat.max_le.1 upTo).1 (by omega)
      (endsNumber_cons (Or.inr (Or.inl rfl)) _))
  | cons next items ih =>
    obtain ⟨steps, rfl⟩ : ∃ fewer, steps = fewer + 1 := ⟨steps - 1, by omega⟩
    rw [levelsOf] at upTo
    obtain ⟨inside, further⟩ := Nat.max_le.1 upTo
    rw [itemChars_cons] at enough ⊢
    simp only [List.length_append, List.length_cons] at enough
    rw [List.append_assoc, List.cons_append]
    exact readItems_next
      (each item List.mem_cons_self inside (by omega) (endsNumber_cons (Or.inl rfl) _))
      (ih (fun other member => each other (List.mem_cons_of_mem _ member)) further (by omega))

/-- Members whose values are read back one by one are read back up to the end of the object. -/
theorem readMembers_compact {key : String} {value : Json} {members : List (String × Json)}
    (each : ∀ member ∈ (key, value) :: members, member.2.ReadBack)
    (upTo : levelsIn ((key, value) :: members) ≤ nesting)
    (enough : 2 * (memberChars ((key, value) :: members)).length + 1 ≤ steps) :
    readMembers true steps nesting (memberChars ((key, value) :: members) ++ '\x7d' :: rest) =
      some ((key, value) :: members, rest) := by
  induction members generalizing key value steps with
  | nil =>
    obtain ⟨steps, rfl⟩ : ∃ fewer, steps = fewer + 1 := ⟨steps - 1, by omega⟩
    rw [levelsIn] at upTo
    rw [memberChars_single] at enough ⊢
    simp only [List.length_append, List.length_cons] at enough
    simp only [List.cons_append, List.append_assoc]
    exact readMembers_last (each (key, value) List.mem_cons_self (Nat.max_le.1 upTo).1 (by
      simp only; omega) (endsNumber_cons (Or.inr (Or.inr rfl)) _))
  | cons next members ih =>
    obtain ⟨name, other⟩ := next
    obtain ⟨steps, rfl⟩ : ∃ fewer, steps = fewer + 1 := ⟨steps - 1, by omega⟩
    rw [levelsIn] at upTo
    obtain ⟨inside, further⟩ := Nat.max_le.1 upTo
    rw [memberChars_cons] at enough ⊢
    simp only [List.length_append, List.length_cons] at enough
    simp only [List.cons_append, List.append_assoc]
    exact readMembers_next
      (each (key, value) List.mem_cons_self inside (by simp only; omega)
        (endsNumber_cons (Or.inl rfl) _))
      (ih (fun member inRest => each member (List.mem_cons_of_mem _ inRest)) further (by omega))

/-- An array of values that are read back is read back. -/
theorem readBack_array {items : List Json} (all : ∀ item ∈ items, item.Integral)
    (each : ∀ item ∈ items, item.ReadBack) : (Json.array items).ReadBack := by
  intro steps nesting rest upTo enough _
  rw [levels] at upTo
  rw [toList_array] at enough ⊢
  simp only [List.length_append, List.length_cons, List.length_nil] at enough
  obtain ⟨inner, rfl⟩ : ∃ inner, nesting = inner + 1 := ⟨nesting - 1, by omega⟩
  obtain ⟨steps, rfl⟩ : ∃ fewer, steps = fewer + 1 := ⟨steps - 1, by omega⟩
  rw [List.cons_append, List.append_assoc, List.singleton_append]
  cases items with
  | nil => rfl
  | cons item others =>
    have read := @readItems_compact steps inner rest item others each
      (Nat.le_of_succ_le_succ upTo) (by omega)
    obtain ⟨first, chars, written, solid, notEnd⟩ :=
      exists_firstOf item others (all item List.mem_cons_self)
    rw [written, List.cons_append] at read ⊢
    rw [readValue_array solid notEnd, read]
    rfl

/-- An object of values that are read back is read back. -/
theorem readBack_object {members : List (String × Json)}
    (each : ∀ member ∈ members, member.2.ReadBack) : (Json.object members).ReadBack := by
  intro steps nesting rest upTo enough _
  rw [levels] at upTo
  rw [toList_object] at enough ⊢
  simp only [List.length_append, List.length_cons, List.length_nil] at enough
  obtain ⟨inner, rfl⟩ : ∃ inner, nesting = inner + 1 := ⟨nesting - 1, by omega⟩
  obtain ⟨steps, rfl⟩ : ∃ fewer, steps = fewer + 1 := ⟨steps - 1, by omega⟩
  rw [List.cons_append, List.append_assoc, List.singleton_append]
  cases members with
  | nil => rfl
  | cons member others =>
    obtain ⟨key, value⟩ := member
    have read := @readMembers_compact steps inner rest key value others each
      (Nat.le_of_succ_le_succ upTo) (by omega)
    obtain ⟨chars, written⟩ := exists_firstIn key value others
    rw [written, List.cons_append] at read ⊢
    rw [readValue_object, read]
    rfl

/-- A value that is written with a single step of the reader needs that step. -/
theorem exists_step {json : Json} (integral : json.Integral) {steps : Nat}
    (enough : 2 * json.compact.toList.length ≤ steps) : ∃ fewer, steps = fewer + 1 := by
  obtain ⟨first, others, written, -⟩ := exists_first integral
  rw [written, List.length_cons] at enough
  exact ⟨steps - 1, by omega⟩

/-- **A value whose numbers are integers of 64 bits is read back.** -/
theorem Integral.readBack {json : Json} (integral : json.Integral) : json.ReadBack := by
  induction integral with
  | null =>
    intro steps nesting rest _ enough _
    obtain ⟨steps, rfl⟩ := exists_step .null enough
    rfl
  | bool value =>
    intro steps nesting rest _ enough _
    obtain ⟨steps, rfl⟩ := exists_step (.bool value) enough
    cases value <;> rfl
  | @integer value low high =>
    intro steps nesting rest _ enough ends
    obtain ⟨steps, rfl⟩ := exists_step (.integer low high) enough
    obtain ⟨first, others, written, isNumber⟩ := exists_first_toString value
    have read := readNumber_toString low high ends
    show readValue true (steps + 1) nesting ((toString value).toList ++ rest) = _
    rw [written, List.cons_append] at read ⊢
    rw [readValue_number isNumber, read]
  | string text =>
    intro steps nesting rest _ enough _
    obtain ⟨steps, rfl⟩ := exists_step (.string text) enough
    exact readValue_string text
  | array all ih => exact readBack_array all ih
  | object all ih => exact readBack_object ih

/-- **A whole text is read back** if it nests no deeper than the reader allows. -/
theorem read_compact {json : Json} (integral : json.Integral) (shallow : json.levels < 128) :
    read json.compact = some json := by
  have value := @Integral.readBack json integral (stepsFor json.compact.toList) maxLevels []
    (Nat.le_of_lt_succ shallow) (Nat.le_add_right _ _) endsNumber_nil
  rw [List.append_nil] at value
  rw [read, readWithin, value]
  rfl

end Json

end CellSyntax
