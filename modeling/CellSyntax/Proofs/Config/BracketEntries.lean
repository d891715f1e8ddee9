/-
**Bracket entries that pass validation are told apart.**

Validation goes through the bracket entries with the characters that it has seen so far. It has no
complaint about them exactly if each entry has two characters and no character occurs twice in all of
them. Then no entry is skipped on the way to the table of pairs, and since the pairs share no
character, it does not matter that the first pair with a character decides on its role.

* `ConfigIssue.ofBrackets_eq_nil_iff`: when there is no complaint about the entries;
* `Config.forall_field_ne_iff`: complaints about the entries, among all that validation has;
* `TokenConfig.DistinctBrackets.keeps`: no entry is skipped;
* `BracketTable.findSome?_pairRole_of_mem`: the role of a character of one of the pairs;
* `Config.validate_tellsBracketsApart`: validation and the table agree.
-/

import CellSyntax.Bracket
import Mathlib.Data.List.Nodup

namespace CellSyntax

/-- **Bracket entries without a fault**: each has two characters, and no character occurs twice in all
of them. -/
structure TokenConfig.DistinctBrackets (config : TokenConfig) : Prop where
  pairs : ∀ entry ∈ config.brackets, entry.toList.length = 2
  once : (config.brackets.flatMap String.toList).Nodup

/-- **Bracket pairs that are told apart**: no entry is skipped, and the role of a literal says which
character of which pair it is. -/
structure TokenConfig.TellsBracketsApart (config : TokenConfig) : Prop where
  kept : config.bracketPairs.map (fun pair => String.ofList [pair.1, pair.2]) = config.brackets
  opens : ∀ pair ∈ config.bracketPairs, ∀ literal,
    (BracketTable.ofConfig config).role literal = some (.opens pair.2) ↔ literal.toList = [pair.1]
  closes : ∀ pair ∈ config.bracketPairs, ∀ literal,
    (BracketTable.ofConfig config).role literal = some (.closes pair.2) ↔ literal.toList = [pair.2]
  others : ∀ literal, (BracketTable.ofConfig config).role literal = none ↔
    ∀ pair ∈ config.bracketPairs, literal.toList ≠ [pair.1] ∧ literal.toList ≠ [pair.2]
  /-- Each closer has one opener. -/
  unique : ∀ pair ∈ config.bracketPairs, ∀ other ∈ config.bracketPairs,
    pair.2 = other.2 → pair = other

/-! ### Complaints about entries -/

/-- An entry of two different characters is a pair, and no other is. -/
theorem TokenConfig.bracketPair?_eq_none_iff {entry : String} :
    bracketPair? entry = none ↔ ¬ (entry.toList.length = 2 ∧ entry.toList.Nodup) := by
  cases isPair : bracketPair? entry with
  | some pair =>
    obtain ⟨chars, different⟩ := bracketPair?_eq_some_iff.1 isPair
    simp [chars, different]
  | none =>
    simp only [true_iff]
    rintro ⟨two, distinct⟩
    obtain ⟨opener, closer, chars⟩ := List.length_eq_two.1 two
    rw [chars] at distinct
    have different : opener ≠ closer := by simpa using distinct
    rw [bracketPair?_eq_some_iff.2 ⟨chars, different⟩] at isPair
    cases isPair

namespace ConfigIssue

theorem field_of_mem_ofField {field value : String} {issue : ConfigIssue}
    (member : issue ∈ ofField field value) : issue.field = field := by
  unfold ofField at member
  split at member
  · rw [List.mem_singleton.1 member]
    rfl
  · cases member

theorem field_of_mem_ofBrackets {seen : List Char} {entries : List String} {issue : ConfigIssue}
    (member : issue ∈ ofBrackets seen entries) : issue.field = "tokens.brackets" := by
  induction entries generalizing seen with
  | nil => cases member
  | cons entry rest ih =>
    have repeats {char : Char}
        (found : issue ∈ if char ∈ seen then [ConfigIssue.repeatedBracket char] else []) :
        issue.field = "tokens.brackets" := by
      split at found
      · rw [List.mem_singleton.1 found]
        rfl
      · cases found
    unfold ofBrackets at member
    split at member
    · rcases List.mem_cons.1 member with rfl | later
      · rfl
      · exact ih later
    · simp only [List.mem_append] at member
      rcases member with (opener | closer) | later
      · exact repeats opener
      · exact repeats closer
      · exact ih later

/-- **There is no complaint about the entries exactly if each has two characters and no character has
been seen before it is read.** -/
theorem ofBrackets_eq_nil_iff {seen : List Char} {entries : List String} :
    ofBrackets seen entries = [] ↔
      (∀ entry ∈ entries, entry.toList.length = 2) ∧ (entries.flatMap String.toList).Nodup ∧
        ∀ char ∈ entries.flatMap String.toList, char ∉ seen := by
  induction entries generalizing seen with
  | nil => simp [ofBrackets]
  | cons entry rest ih =>
    unfold ofBrackets
    cases isPair : TokenConfig.bracketPair? entry with
    | none =>
      simp only [reduceCtorEq, false_iff]
      rintro ⟨two, distinct, -⟩
      rw [List.flatMap_cons] at distinct
      exact TokenConfig.bracketPair?_eq_none_iff.1 isPair
        ⟨two entry List.mem_cons_self, (List.nodup_append.1 distinct).1⟩
    | some pair =>
      obtain ⟨chars, different⟩ := TokenConfig.bracketPair?_eq_some_iff.1 isPair
      simp only [List.append_eq_nil_iff, ite_eq_right_iff, reduceCtorEq, imp_false, ih,
        List.flatMap_cons, chars, List.cons_append, List.nil_append, List.nodup_cons,
        List.mem_cons, not_or]
      -- Both sides say that the two characters differ and are new, and that no later one is either.
      grind

end ConfigIssue

/-- **Complaints about the bracket entries are those that going through the entries gives.** -/
theorem Config.forall_field_ne_iff (config : Config) :
    (∀ issue ∈ config.validate, issue.field ≠ "tokens.brackets") ↔
      ConfigIssue.ofBrackets [] config.tokens.brackets = [] := by
  constructor
  · intro none
    refine List.eq_nil_iff_forall_not_mem.2 fun issue member => ?_
    refine none issue ?_ (ConfigIssue.field_of_mem_ofBrackets member)
    simp [validate, member]
  · intro none issue member
    have noField {field value : String} (other : field ≠ "tokens.brackets")
        (found : issue ∈ ConfigIssue.ofField field value) : issue.field ≠ "tokens.brackets" := by
      rw [ConfigIssue.field_of_mem_ofField found]
      exact other
    simp only [validate, none, List.append_nil, List.mem_append, or_assoc] at member
    rcases member with found | found | found | found | found | found
    · exact noField (by decide) found
    · exact noField (by decide) found
    · exact noField (by decide) found
    · exact noField (by decide) found
    · exact noField (by decide) found
    · split at found
      · rw [List.mem_singleton.1 found]
        show "parser.line_base" ≠ "tokens.brackets"
        decide
      · cases found

/-! ### Pairs that share no character -/

/-- The characters of some pairs, in order. -/
def BracketTable.chars (pairs : List (Char × Char)) : List Char :=
  pairs.flatMap fun pair => [pair.1, pair.2]

namespace BracketTable

variable {pairs : List (Char × Char)} {pair : Char × Char} {char closer : Char} {literal : String}

theorem pairRole_eq_opens_iff :
    pairRole char pair = some (.opens closer) ↔ pair = (char, closer) := by
  unfold pairRole
  grind

theorem pairRole_eq_closes_iff : pairRole char pair = some (.closes closer) ↔
    char = closer ∧ pair.2 = closer ∧ pair.1 ≠ closer := by
  unfold pairRole
  grind

theorem pairRole_eq_none_iff : pairRole char pair = none ↔ char ≠ pair.1 ∧ char ≠ pair.2 := by
  unfold pairRole
  grind

theorem mem_chars : char ∈ chars pairs ↔ ∃ pair ∈ pairs, char = pair.1 ∨ char = pair.2 := by
  simp [chars]

/-- **The role of a character of a pair**, if no character occurs twice in all pairs: no pair in front
has it. -/
theorem findSome?_pairRole_of_mem (distinct : (chars pairs).Nodup) (member : pair ∈ pairs) :
    pairs.findSome? (pairRole pair.1) = some (.opens pair.2) ∧
      pairs.findSome? (pairRole pair.2) = some (.closes pair.2) := by
  induction pairs with
  | nil => cases member
  | cons first rest ih =>
    have parts : first.1 ≠ first.2 ∧ first.1 ∉ chars rest ∧ first.2 ∉ chars rest ∧
        (chars rest).Nodup := by
      simp only [chars, List.flatMap_cons, List.cons_append, List.nil_append, List.nodup_cons,
        List.mem_cons, not_or] at distinct
      exact ⟨distinct.1.1, distinct.1.2, distinct.2.1, distinct.2.2⟩
    obtain ⟨different, noOpener, noCloser, later⟩ := parts
    rw [List.findSome?_cons, List.findSome?_cons]
    rcases List.mem_cons.1 member with rfl | inside
    · rw [pairRole_eq_opens_iff.2 rfl, pairRole_eq_closes_iff.2 ⟨rfl, rfl, different⟩]
      exact ⟨rfl, rfl⟩
    · have elsewhere {other : Char} (isIn : other ∈ chars rest) : pairRole other first = none := by
        rw [pairRole_eq_none_iff]
        constructor
        · rintro rfl
          exact noOpener isIn
        · rintro rfl
          exact noCloser isIn
      rw [elsewhere (mem_chars.2 ⟨pair, inside, Or.inl rfl⟩),
        elsewhere (mem_chars.2 ⟨pair, inside, Or.inr rfl⟩)]
      exact ih later inside

/-- Pairs that share no character have one opener for each closer. -/
theorem opener_unique {other : Char × Char} (distinct : (chars pairs).Nodup) (member : pair ∈ pairs)
    (member' : other ∈ pairs) (same : pair.2 = other.2) : pair = other := by
  have closers : (pairs.map Prod.snd).Sublist (chars pairs) := by
    clear distinct member member'
    induction pairs with
    | nil => exact .slnil
    | cons first rest ih => exact .cons _ (.cons_cons _ ih)
  exact List.inj_on_of_nodup_map (distinct.sublist closers) member member' same

/-- Only a literal of one character has a role, that of the character. -/
theorem exists_char_of_role {table : BracketTable} {role : BracketRole}
    (found : table.role literal = some role) :
    ∃ char, literal.toList = [char] ∧ ∃ pair ∈ table.pairs, pairRole char pair = some role := by
  unfold BracketTable.role at found
  split at found
  · rename_i char chars
    exact ⟨char, chars, List.exists_of_findSome?_eq_some found⟩
  · cases found

theorem role_of_toList {table : BracketTable} (chars : literal.toList = [char]) :
    table.role literal = table.pairs.findSome? (pairRole char) := by
  rw [role, chars]

end BracketTable

/-! ### Entries and pairs -/

namespace TokenConfig

variable {config : TokenConfig}

/-- **No entry is skipped** that has two characters which differ. -/
theorem map_filterMap_bracketPair? {entries : List String}
    (pairs : ∀ entry ∈ entries, entry.toList.length = 2)
    (once : (entries.flatMap String.toList).Nodup) :
    (entries.filterMap bracketPair?).map (fun pair => String.ofList [pair.1, pair.2]) =
      entries := by
  induction entries with
  | nil => rfl
  | cons entry rest ih =>
    obtain ⟨two, others⟩ := List.forall_mem_cons.1 pairs
    rw [List.flatMap_cons, List.nodup_append] at once
    cases isPair : bracketPair? entry with
    | none => exact absurd ⟨two, once.1⟩ (bracketPair?_eq_none_iff.1 isPair)
    | some pair =>
      obtain ⟨chars, -⟩ := bracketPair?_eq_some_iff.1 isPair
      rw [List.filterMap_cons_some isPair, List.map_cons, ← chars, String.ofList_toList,
        ih others once.2.1]

theorem DistinctBrackets.keeps (distinct : config.DistinctBrackets) :
    config.bracketPairs.map (fun pair => String.ofList [pair.1, pair.2]) = config.brackets :=
  map_filterMap_bracketPair? distinct.pairs distinct.once

/-- The pairs of the entries share no character. -/
theorem DistinctBrackets.nodup_chars (distinct : config.DistinctBrackets) :
    (BracketTable.chars config.bracketPairs).Nodup := by
  have once := distinct.once
  rw [← distinct.keeps, List.flatMap_map] at once
  simpa only [BracketTable.chars, String.toList_ofList] using once

/-- **Entries without a fault are told apart.** -/
theorem DistinctBrackets.tellsBracketsApart (distinct : config.DistinctBrackets) :
    config.TellsBracketsApart where
  kept := distinct.keeps
  opens pair member literal := by
    constructor
    · intro found
      obtain ⟨char, chars, other, isIn, role⟩ := BracketTable.exists_char_of_role found
      obtain rfl := BracketTable.pairRole_eq_opens_iff.1 role
      rw [chars, BracketTable.opener_unique distinct.nodup_chars member isIn rfl]
    · intro chars
      rw [BracketTable.role_of_toList chars]
      exact (BracketTable.findSome?_pairRole_of_mem distinct.nodup_chars member).1
  closes pair member literal := by
    constructor
    · intro found
      obtain ⟨char, chars, other, -, role⟩ := BracketTable.exists_char_of_role found
      rw [chars, (BracketTable.pairRole_eq_closes_iff.1 role).1]
    · intro chars
      rw [BracketTable.role_of_toList chars]
      exact (BracketTable.findSome?_pairRole_of_mem distinct.nodup_chars member).2
  others literal := by
    constructor
    · intro none pair member
      have roles := BracketTable.findSome?_pairRole_of_mem distinct.nodup_chars member
      constructor
      · intro chars
        rw [BracketTable.role_of_toList chars, BracketTable.ofConfig, roles.1] at none
        cases none
      · intro chars
        rw [BracketTable.role_of_toList chars, BracketTable.ofConfig, roles.2] at none
        cases none
    · intro apart
      by_contra some
      obtain ⟨role, found⟩ := Option.ne_none_iff_exists'.1 some
      obtain ⟨char, chars, pair, member, isRole⟩ := BracketTable.exists_char_of_role found
      have none : BracketTable.pairRole char pair = none := by
        rw [BracketTable.pairRole_eq_none_iff]
        have notHere := apart pair member
        rw [chars] at notHere
        simpa using notHere
      rw [none] at isRole
      cases isRole
  unique _ member _ member' same :=
    BracketTable.opener_unique distinct.nodup_chars member member' same

end TokenConfig

/-- **Validation and the table of brackets agree**: validation has no complaint about the bracket
entries exactly if each has two characters and no character occurs twice in all of them, and then the
table keeps every entry and tells all of them apart. -/
theorem Config.validate_tellsBracketsApart (config : Config) :
    ((∀ issue ∈ config.validate, issue.field ≠ "tokens.brackets") ↔
        config.tokens.DistinctBrackets) ∧
      (config.tokens.DistinctBrackets → config.tokens.TellsBracketsApart) := by
  refine ⟨?_, fun distinct => distinct.tellsBracketsApart⟩
  rw [config.forall_field_ne_iff, ConfigIssue.ofBrackets_eq_nil_iff]
  constructor
  · rintro ⟨pairs, once, -⟩
    exact ⟨pairs, once⟩
  · rintro ⟨pairs, once⟩
    exact ⟨pairs, once, fun _ _ => List.not_mem_nil⟩

/-- Two pairs, one of them of characters that take two bytes. -/
theorem Config.validate_tellsBracketsApart_guillemets : ∃ config : Config,
    config.tokens.brackets = ["«»", "()"] ∧ config.tokens.DistinctBrackets ∧
      (∀ issue ∈ config.validate, issue.field ≠ "tokens.brackets") ∧
      config.tokens.TellsBracketsApart := by
  let config : Config := { tokens := { brackets := ["«»", "()"] } }
  have distinct : config.tokens.DistinctBrackets := ⟨by decide, by decide⟩
  have agree := config.validate_tellsBracketsApart
  exact ⟨config, rfl, distinct, agree.1.2 distinct, agree.2 distinct⟩

end CellSyntax
