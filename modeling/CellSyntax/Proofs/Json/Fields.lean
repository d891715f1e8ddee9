/-
**Values of known types are read back straight from text.**

Numbers, lists of strings and objects are read here without building a value of JSON first. Such a
reader takes an object member by member, handing each to the reader of its fields. It is enough that
every field is read back where it stands: then the whole object is, and what follows is left.

* `Json.Direct.readTexts_strings`: a list of strings is read back;
* `Json.Direct.Gathers`: members that are gathered one by one;
* `Json.Direct.readFields_compact`: an object whose members are gathered is read back.
-/

import CellSyntax.Json.Direct
import CellSyntax.Proofs.Json.Compact

namespace CellSyntax

namespace Json.Direct

variable {rest : List Char}

theorem readNatural_natural {value : Nat} (fits : value ≤ maxCoordinate) (ends : EndsNumber rest) :
    readNatural ((natural value).compact.toList ++ rest) = .ok (value, rest) := by
  have low : -(signedLimit : Int) ≤ Int.ofNat value := by
    have : (0 : Int) ≤ Int.ofNat value := Int.natCast_nonneg value
    omega
  have high : Int.ofNat value < unsignedLimit := Int.ofNat_lt.2 (Nat.lt_succ_of_le fits)
  have read := readNumber_toString low high ends
  obtain ⟨first, others, written, isNumber⟩ := exists_first_toString (Int.ofNat value)
  rw [written, List.cons_append] at read
  show readNatural ((toString (Int.ofNat value)).toList ++ rest) = _
  rw [written, List.cons_append, readNatural, skipBlanks_cons (isSpace_eq_false isNumber)]
  simp only [if_pos isNumber, read]
  rfl

theorem readText_quote (text : String) :
    readText ((quote text).toList ++ rest) = .ok (text, rest) := by
  rw [toList_quote, List.cons_append, List.append_assoc, List.singleton_append, readText,
    skipBlanks_cons (by decide)]
  simp only [readString_escape]

/-! ### Lists of strings -/

/-- Written strings start with a quote. -/
theorem exists_itemChars_string (text : String) (texts : List String) :
    ∃ chars, itemChars ((text :: texts).map .string) = '"' :: chars := by
  cases texts with
  | nil =>
    rw [List.map_singleton, itemChars_single, compact, toList_quote]
    exact ⟨_, rfl⟩
  | cons next texts =>
    rw [List.map_cons, List.map_cons, itemChars_cons, compact, toList_quote]
    exact ⟨_, rfl⟩

/-- The end of the array is read where no item follows. -/
theorem readTextsFrom_end {steps : Nat} :
    readTextsFrom (steps + 1) false (']' :: rest) = .ok ([], rest) := rfl

/-- A string is read before the strings behind it. -/
theorem readTextsFrom_next {steps : Nat} {isFirst : Bool} {text : String} {texts : List String}
    {before after : List Char}
    (next : nextItem isFirst before = .ok (some ((quote text).toList ++ after)))
    (others : readTextsFrom steps false after = .ok (texts, rest)) :
    readTextsFrom (steps + 1) isFirst before = .ok (text :: texts, rest) := by
  simp only [readTextsFrom, next, readText_quote, others, bind, Except.bind, pure, Except.pure]

/-- Where the next item is the first of some strings, they are read up to the end of the array. -/
theorem readTextsFrom_strings {steps : Nat} {isFirst : Bool} {text : String} {texts : List String}
    {before : List Char} (enough : texts.length + 1 < steps)
    (next : nextItem isFirst before =
      .ok (some (itemChars ((text :: texts).map .string) ++ ']' :: rest))) :
    readTextsFrom steps isFirst before = .ok (text :: texts, rest) := by
  induction texts generalizing steps isFirst text before with
  | nil =>
    obtain ⟨steps, rfl⟩ : ∃ fewer, steps = fewer + 2 := ⟨steps - 2, by simp at enough; omega⟩
    rw [List.map_singleton, itemChars_single, compact] at next
    exact readTextsFrom_next next readTextsFrom_end
  | cons other texts ih =>
    obtain ⟨steps, rfl⟩ : ∃ fewer, steps = fewer + 1 := ⟨steps - 1, by omega⟩
    rw [List.map_cons, List.map_cons, itemChars_cons, compact, List.append_assoc,
      List.cons_append] at next
    refine readTextsFrom_next next (ih (Nat.lt_of_succ_lt_succ enough) ?_)
    obtain ⟨chars, written⟩ := exists_itemChars_string other texts
    rw [List.map_cons] at written
    rw [List.map_cons, written]
    rfl

/-- Every string of a list has a character of its own in the written list. -/
theorem length_le_itemChars (items : List Json) (integral : ∀ item ∈ items, item.Integral) :
    items.length ≤ (itemChars items).length := by
  induction items with
  | nil => exact Nat.zero_le _
  | cons item items ih =>
    obtain ⟨first, chars, written, -⟩ := exists_first (integral item List.mem_cons_self)
    cases items with
    | nil =>
      rw [itemChars_single, written]
      exact Nat.succ_le_succ (Nat.zero_le _)
    | cons next items =>
      have later := ih fun other member => integral other (List.mem_cons_of_mem _ member)
      rw [itemChars_cons]
      simp only [List.length_append, List.length_cons] at later ⊢
      omega

/-- **A list of strings is read back.** -/
theorem readTexts_strings (texts : List String) :
    readTexts ((strings texts).compact.toList ++ rest) = .ok (texts, rest) := by
  rw [strings, toList_array, List.cons_append, List.append_assoc, List.singleton_append, readTexts,
    skipBlanks_cons (by decide)]
  cases texts with
  | nil => rfl
  | cons text texts =>
    have characters := length_le_itemChars ((text :: texts).map .string) (by
      simpa using ⟨.string text, fun other _ => .string other⟩)
    obtain ⟨chars, written⟩ := exists_itemChars_string text texts
    refine readTextsFrom_strings ?_ ?_
    · simp only [List.length_map, List.length_cons, List.length_append] at characters ⊢
      omega
    · rw [written]
      rfl

/-! ### Objects -/

/-- **Members that are gathered one by one**: each is read back by the reader of its field, from the
colon on, whatever ends a number behind it. -/
inductive Gathers {State : Type}
    (field : State → String → List Char → Except Fault (State × List Char)) :
    State → List (String × Json) → State → Prop
  | nil (state : State) : Gathers field state [] state
  | cons {state final : State} {key : String} {value : Json} {members : List (String × Json)}
      (next : State)
      (read : ∀ rest, EndsNumber rest →
        field state key (':' :: (value.compact.toList ++ rest)) = .ok (next, rest))
      (others : Gathers field next members final) :
      Gathers field state ((key, value) :: members) final

section

variable {State Value : Type} {state start final : State} {steps : Nat} {isFirst : Bool}
  {field : State → String → List Char → Except Fault (State × List Char)}

/-- The end of the object is reached where no member follows. -/
theorem readFieldsFrom_end :
    readFieldsFrom field (steps + 1) false state ('\x7d' :: rest) =
      .ok (state, '\x7d' :: rest) := rfl

/-- A member is read before the members behind it. -/
theorem readFieldsFrom_next {key : String} {next : State} {before text after later : List Char}
    (isKey : nextKey isFirst before = .ok (some (key, text)))
    (read : field state key text = .ok (next, after))
    (others : readFieldsFrom field steps false next after = .ok (final, later)) :
    readFieldsFrom field (steps + 1) isFirst state before = .ok (final, later) := by
  simp only [readFieldsFrom, isKey, read, others, bind, Except.bind]

/-- The key of a written member is read. -/
theorem nextKey_escape (key : String) (text : List Char) :
    nextKey true ('"' :: (key.toList.flatMap escapeChar ++ '"' :: text)) =
      .ok (some (key, text)) := by
  rw [nextKey, skipBlanks_cons (by decide)]
  simp [readString_escape]

theorem length_le_memberChars (members : List (String × Json)) :
    members.length ≤ (memberChars members).length := by
  induction members with
  | nil => exact Nat.zero_le _
  | cons member members ih =>
    obtain ⟨key, value⟩ := member
    cases members with
    | nil =>
      rw [memberChars_single]
      exact Nat.succ_le_succ (Nat.zero_le _)
    | cons next members =>
      rw [memberChars_cons]
      simp only [List.cons_append, List.length_append, List.length_cons] at ih ⊢
      omega

/-- Where the next member is the first of those that are gathered, they are read up to the end of
the object. -/
theorem readFieldsFrom_gathers {key : String} {value : Json} {members : List (String × Json)}
    {before : List Char} (gathers : Gathers field state ((key, value) :: members) final)
    (enough : members.length + 1 < steps)
    (first : nextKey isFirst before =
      nextKey true (memberChars ((key, value) :: members) ++ '\x7d' :: rest)) :
    readFieldsFrom field steps isFirst state before = .ok (final, '\x7d' :: rest) := by
  induction members generalizing steps isFirst state key value before with
  | nil =>
    obtain ⟨steps, rfl⟩ : ∃ fewer, steps = fewer + 2 := ⟨steps - 2, by simp at enough; omega⟩
    cases gathers with
    | cons next read others =>
      cases others
      rw [memberChars_single, List.cons_append, List.append_assoc, List.cons_append,
        List.cons_append, nextKey_escape] at first
      exact readFieldsFrom_next first (read _ (endsNumber_cons (Or.inr (Or.inr rfl)) _))
        readFieldsFrom_end
  | cons member members ih =>
    obtain ⟨name, other⟩ := member
    obtain ⟨steps, rfl⟩ : ∃ fewer, steps = fewer + 1 := ⟨steps - 1, by omega⟩
    cases gathers with
    | cons next read others =>
      rw [memberChars_cons] at first
      simp only [List.cons_append, List.append_assoc] at first
      rw [nextKey_escape] at first
      refine readFieldsFrom_next first (read _ (endsNumber_cons (Or.inl rfl) _))
        (ih others (Nat.lt_of_succ_lt_succ enough) ?_)
      obtain ⟨chars, written⟩ := exists_firstIn name other members
      rw [written]
      rfl

/-- **An object whose members are gathered is read back**, as the value made of them. -/
theorem readFields_compact {value? : State → Option Value} {found : Value}
    {members : List (String × Json)} (nonempty : members ≠ [])
    (gathers : Gathers field start members final) (made : value? final = some found) :
    readFields field start value? (memberChars members ++ '\x7d' :: rest) = .ok (found, rest) := by
  obtain ⟨⟨key, value⟩, others, rfl⟩ := List.exists_cons_of_ne_nil nonempty
  have characters := length_le_memberChars ((key, value) :: others)
  have enough : others.length + 1 <
      (memberChars ((key, value) :: others) ++ '\x7d' :: rest).length + 1 := by
    rw [List.length_cons] at characters
    rw [List.length_append, List.length_cons]
    omega
  have read : readFieldsFrom field _ true start _ = .ok (final, '\x7d' :: rest) :=
    readFieldsFrom_gathers gathers enough rfl
  simp only [readFields, read, made, bind, Except.bind]
  rfl

/-- A member that has not occurred is read behind its colon. -/
theorem readOnce_colon {read : List Char → Except Fault (Value × List Char)} {found : Value}
    {text : List Char} (isValue : read text = .ok (found, rest)) :
    readOnce read none (':' :: text) = .ok (some found, rest) := by
  have colon : readColon (':' :: text) = .ok text := rfl
  simp only [readOnce, colon, isValue, bind, Except.bind]
  rfl

end

end Json.Direct

end CellSyntax
