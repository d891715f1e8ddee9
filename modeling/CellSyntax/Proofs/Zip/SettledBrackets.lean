/-
**A node settles its brackets before it lets go.**

The fold of a node takes a bracket only while the node owes a closer, that is, while the innermost
open bracket was opened in its window. So a closer that is folded closes an opener of the node, and
an opener that is folded lies within brackets that the node has opened. The fold stops before the
end of the window only when nothing is owed. On the stack the latest opener is innermost, so then no
bracket is open that the node opened: each has met its closer, and it met it among the tokens that
the node took. All this holds of every visit in every run, also in a run that fails later.

* `BracketTable.mem_scan`, `BracketTable.scan_descending`: the stack after a scan;
* `BracketTable.scan_closes`: a bracket on the stack stays there or meets its closer;
* `Zip.Fold`: a node, its fold and where they lie in a scan of the whole sequence;
* `Zip.Framed.Calls`: the visits of a run with frames;
* `Zip.Framed.zipNode_settlesBrackets`: the brackets of a node, for every visit.
-/

import CellSyntax.Proofs.Zip.Frames

namespace CellSyntax

/-! ### The stack after a scan -/

namespace BracketTable

variable {table : BracketTable} {opened after above base : List OpenBracket} {bracket : OpenBracket}
  {lexeme : Lexeme} {lexemes : List Lexeme}

/-- **The bracket that `opener` opens is open when `lexeme` is reached**, in a plain scan of the
lexemes. -/
def OpenAt (table : BracketTable) (lexemes : List Lexeme) (opener lexeme : Lexeme) : Prop :=
  ∃ before after opened, lexemes = before ++ lexeme :: after ∧ table.scan [] before = .ok opened ∧
    opener ∈ before ∧ ∃ bracket ∈ opened, bracket.opener = opener.number

/-- What one lexeme does to the stack: nothing, or it puts a bracket on top, or it takes off the top
that waits for it. -/
theorem step_ok (done : table.step opened lexeme = .ok after) :
    table.role lexeme.token.literal = none ∧ after = opened ∨
    (∃ closer, table.role lexeme.token.literal = some (.opens closer) ∧
      after = ⟨closer, lexeme.number⟩ :: opened) ∨
    ∃ innermost, table.role lexeme.token.literal = some (.closes innermost.closer) ∧
      opened = innermost :: after := by
  unfold step at done
  split at done
  · rename_i role
    cases done
    exact Or.inl ⟨role, rfl⟩
  · rename_i closer role
    cases done
    exact Or.inr (Or.inl ⟨closer, role, rfl⟩)
  · cases done
  · rename_i role
    split at done
    · rename_i waits
      cases done
      exact Or.inr (Or.inr ⟨_, waits ▸ role, rfl⟩)
    · cases done

theorem step_of_opens {closer : Char}
    (role : table.role lexeme.token.literal = some (.opens closer)) :
    table.step opened lexeme = .ok (⟨closer, lexeme.number⟩ :: opened) := by
  unfold step
  rw [role]

theorem scan_cons_ok (done : table.scan opened (lexeme :: lexemes) = .ok after) :
    ∃ between, table.step opened lexeme = .ok between ∧ table.scan between lexemes = .ok after := by
  rw [scan] at done
  split at done
  · cases done
  · rename_i between stepped
    exact ⟨between, stepped, done⟩

theorem scan_append_ok {first second : List Lexeme}
    (done : table.scan opened (first ++ second) = .ok after) :
    ∃ between, table.scan opened first = .ok between ∧ table.scan between second = .ok after := by
  rw [scan_append] at done
  cases scanned : table.scan opened first with
  | error mismatch =>
    rw [scanned] at done
    cases done
  | ok between =>
    rw [scanned] at done
    exact ⟨between, rfl, done⟩

/-- **What is open after a scan** was open before or is opened by one of the lexemes. -/
theorem mem_scan (done : table.scan opened lexemes = .ok after) :
    ∀ bracket ∈ after, bracket ∈ opened ∨ ∃ lexeme ∈ lexemes, lexeme.number = bracket.opener := by
  induction lexemes generalizing opened with
  | nil =>
    cases done
    exact fun _ member => Or.inl member
  | cons lexeme rest ih =>
    obtain ⟨between, stepped, scanned⟩ := scan_cons_ok done
    intro bracket member
    rcases ih scanned bracket member with old | ⟨opener, inside, number⟩
    · rcases step_ok stepped with ⟨-, rfl⟩ | ⟨closer, -, rfl⟩ | ⟨innermost, -, rfl⟩
      · exact Or.inl old
      · rcases List.mem_cons.1 old with rfl | older
        · exact Or.inr ⟨lexeme, List.mem_cons_self, rfl⟩
        · exact Or.inl older
      · exact Or.inl (List.mem_cons_of_mem _ old)
    · exact Or.inr ⟨opener, List.mem_cons_of_mem _ inside, number⟩

/-- **The latest opener is innermost**, all over the stack. -/
theorem scan_descending
    (ascending : lexemes.Pairwise fun first second => first.number < second.number)
    (done : table.scan [] lexemes = .ok after) :
    after.Pairwise fun inner outer => outer.opener < inner.opener := by
  induction lexemes using List.reverseRecOn generalizing after with
  | nil =>
    cases done
    exact .nil
  | append_singleton before lexeme ih =>
    obtain ⟨between, scanned, last⟩ := scan_append_ok done
    obtain ⟨_, stepped, none⟩ := scan_cons_ok last
    cases none
    obtain ⟨earlier, -, later⟩ := List.pairwise_append.1 ascending
    have descending := ih earlier scanned
    rcases step_ok stepped with ⟨-, rfl⟩ | ⟨closer, -, rfl⟩ | ⟨innermost, -, rfl⟩
    · exact descending
    · refine .cons (fun bracket member => ?_) descending
      rcases mem_scan scanned bracket member with old | ⟨opener, inside, number⟩
      · cases old
      · rw [← number]
        exact later opener inside lexeme List.mem_cons_self
    · exact (List.pairwise_cons.1 descending).2

/-- **A bracket on the stack stays there or meets its closer**, before which all that was above it
is gone. -/
theorem scan_closes (done : table.scan (above ++ bracket :: base) lexemes = .ok after) :
    bracket ∈ after ∨ ∃ early closer late, lexemes = early ++ closer :: late ∧
      table.scan (above ++ bracket :: base) early = .ok (bracket :: base) ∧
      table.role closer.token.literal = some (.closes bracket.closer) := by
  induction lexemes generalizing above with
  | nil =>
    cases done
    exact Or.inl (List.mem_append_right _ List.mem_cons_self)
  | cons lexeme rest ih =>
    obtain ⟨between, stepped, scanned⟩ := scan_cons_ok done
    -- What comes of the rest, when the bracket is still on the stack after this lexeme.
    have goOn (further : List OpenBracket) (still : between = further ++ bracket :: base) :
        bracket ∈ after ∨ ∃ early closer late, lexeme :: rest = early ++ closer :: late ∧
          table.scan (above ++ bracket :: base) early = .ok (bracket :: base) ∧
          table.role closer.token.literal = some (.closes bracket.closer) := by
      rw [still] at scanned
      refine (ih scanned).imp_right ?_
      rintro ⟨early, closer, late, rfl, upTo, role⟩
      refine ⟨lexeme :: early, closer, late, rfl, ?_, role⟩
      rw [scan_cons_of_ok stepped, still]
      exact upTo
    rcases step_ok stepped with ⟨-, same⟩ | ⟨closer, -, same⟩ | ⟨innermost, role, same⟩
    · exact goOn above same
    · exact goOn (⟨closer, lexeme.number⟩ :: above) same
    · rcases above with _ | ⟨top, others⟩
      · cases same
        exact Or.inr ⟨[], lexeme, rest, rfl, rfl, role⟩
      · exact goOn others (List.cons.inj same).2.symm

end BracketTable

/-- A bracket anywhere on the stack is owed if it was opened late enough, since the innermost one
was opened later still. -/
theorem owesCloser_of_mem {first : Nat} {stack : List OpenBracket} {bracket : OpenBracket}
    (descending : stack.Pairwise fun inner outer => outer.opener < inner.opener)
    (isOpen : bracket ∈ stack) (late : first ≤ bracket.opener) : owesCloser first stack = true := by
  rcases stack with _ | ⟨innermost, outer⟩
  · cases isOpen
  · refine decide_eq_true ?_
    rcases List.mem_cons.1 isOpen with rfl | below
    · exact late
    · exact Nat.le_trans late (Nat.le_of_lt ((List.pairwise_cons.1 descending).1 bracket below))

/-! ### Folds -/

namespace Zip

variable {table : BracketTable} {lexemes : List Lexeme}

/-- **A fold that leaves something owes nothing.** -/
theorem takeTrailing_released {first line : Nat} {opened after : List OpenBracket}
    {window taken left : List Lexeme}
    (done : takeTrailing table first line opened window = .ok (taken, left, after))
    (some : left ≠ []) : ¬ owesCloser first after = true := by
  induction window generalizing line opened taken with
  | nil =>
    cases done
    exact absurd rfl some
  | cons lexeme rest ih =>
    unfold takeTrailing at done
    split at done
    · split at done
      · cases done
      · split at done
        · cases done
        · rename_i later
          cases done
          exact ih later
    · rename_i stops
      cases done
      exact fun owes => stops (Or.inl owes)

/-- **A node and its fold in a run.** Its window is what the node claimed, what it folded and what
it left; it lies in the sequence between what comes before and what comes behind. -/
structure Fold (table : BracketTable) (lexemes : List Lexeme) where
  outside : List Lexeme
  claimed : List Lexeme
  trailing : List Lexeme
  left : List Lexeme
  beyond : List Lexeme
  first : Lexeme
  line : Nat
  opened : List OpenBracket
  between : List OpenBracket
  after : List OpenBracket
  ascending : lexemes.Pairwise fun first second => first.number < second.number
  whole : lexemes = outside ++ (claimed ++ (trailing ++ left)) ++ beyond
  isFirst : (claimed ++ (trailing ++ left)).head? = some first
  scansOutside : table.scan [] outside = .ok opened
  scansClaimed : table.scan opened claimed = .ok between
  folds : takeTrailing table first.number line between (trailing ++ left) =
    .ok (trailing, left, after)

namespace Fold

variable (fold : Fold table lexemes)

/-- The tokens that the node took. -/
def taken : List Lexeme := fold.claimed ++ fold.trailing

theorem scansTaken : table.scan [] (fold.outside ++ fold.taken) = .ok fold.after := by
  rw [BracketTable.scan_append_of_ok fold.scansOutside, taken,
    BracketTable.scan_append_of_ok fold.scansClaimed]
  exact takeTrailing_scan fold.folds

/-- What comes before the window and the window itself, in the order of the numbers. -/
theorem exists_window : ∃ rest, fold.claimed ++ (fold.trailing ++ fold.left) = fold.first :: rest ∧
    (fold.outside ++ fold.first :: rest).Pairwise
      fun first second => first.number < second.number := by
  obtain ⟨rest, window⟩ := List.head?_eq_some_iff.1 fold.isFirst
  have ascending := fold.ascending
  rw [fold.whole, window] at ascending
  exact ⟨rest, window, (List.pairwise_append.1 ascending).1⟩

theorem first_le {lexeme : Lexeme} (inside : lexeme ∈ fold.taken) :
    fold.first.number ≤ lexeme.number := by
  obtain ⟨rest, window, ascending⟩ := fold.exists_window
  refine Framed.head_le (List.pairwise_append.1 ascending).2.1 ?_
  rw [← window, ← List.append_assoc]
  exact List.mem_append_left _ inside

theorem outside_lt {lexeme : Lexeme} (inside : lexeme ∈ fold.outside) :
    lexeme.number < fold.first.number := by
  obtain ⟨rest, -, ascending⟩ := fold.exists_window
  exact (List.pairwise_append.1 ascending).2.2 lexeme inside fold.first List.mem_cons_self

/-- **A bracket that a node owes was opened by a token of the node.** -/
theorem exists_opener {part : List Lexeme} {stack : List OpenBracket} {bracket : OpenBracket}
    (scanned : table.scan [] (fold.outside ++ part) = .ok stack) (isOpen : bracket ∈ stack)
    (owed : fold.first.number ≤ bracket.opener) :
    ∃ opener ∈ part, opener.number = bracket.opener := by
  rcases BracketTable.mem_scan scanned bracket isOpen with old | ⟨opener, inside, number⟩
  · cases old
  · rcases List.mem_append.1 inside with before | within
    · have less := fold.outside_lt before
      omega
    · exact ⟨opener, within, number⟩

/-- **A bracket that is folded is taken within one that the node owes.** -/
theorem owes_of_trailing {bracket : Lexeme} {what : BracketRole} {early late : List Lexeme}
    (parts : fold.trailing = early ++ bracket :: late)
    (role : table.role bracket.token.literal = some what) : ∃ innermost outer,
      table.scan [] (fold.outside ++ (fold.claimed ++ early)) = .ok (innermost :: outer) ∧
      fold.first.number ≤ innermost.opener := by
  have folds := fold.folds
  rw [parts] at folds
  have isBracket : table.role bracket.token.literal ≠ none := by
    rw [role]
    exact nofun
  obtain ⟨stack, scanned, owes⟩ := takeTrailing_owes folds isBracket
  rcases stack with _ | ⟨innermost, outer⟩
  · cases owes
  · refine ⟨innermost, outer, ?_, of_decide_eq_true owes⟩
    rw [BracketTable.scan_append_of_ok fold.scansOutside,
      BracketTable.scan_append_of_ok fold.scansClaimed]
    exact scanned

/-- The sequence around a token that is folded. -/
theorem whole_of_trailing {lexeme : Lexeme} {early late : List Lexeme}
    (parts : fold.trailing = early ++ lexeme :: late) :
    lexemes = (fold.outside ++ (fold.claimed ++ early)) ++
      lexeme :: (late ++ fold.left ++ fold.beyond) := by
  refine fold.whole.trans ?_
  rw [parts]
  simp only [List.append_assoc, List.cons_append]

/-- **A closer that is folded closes an opener of the node.** -/
theorem exists_opener_of_closer {closer : Lexeme} {char : Char} (inside : closer ∈ fold.trailing)
    (role : table.role closer.token.literal = some (.closes char)) :
    ∃ opener ∈ fold.taken, table.Matches lexemes opener closer := by
  obtain ⟨early, late, parts⟩ := List.append_of_mem inside
  obtain ⟨innermost, outer, scanned, owed⟩ := fold.owes_of_trailing parts role
  obtain ⟨opener, within, number⟩ := fold.exists_opener scanned List.mem_cons_self owed
  -- The scan goes on behind the closer, so it is what the innermost bracket waits for.
  have whole := fold.scansTaken
  rw [taken, parts, ← List.append_assoc fold.claimed, ← List.append_assoc,
    BracketTable.scan_append_of_ok scanned] at whole
  obtain ⟨next, stepped, -⟩ := BracketTable.scan_cons_ok whole
  have waits : table.role closer.token.literal = some (.closes innermost.closer) := by
    rcases BracketTable.step_ok stepped with ⟨none, -⟩ | ⟨_, opens, -⟩ | ⟨_, closes, same⟩
    · rw [role] at none
      cases none
    · rw [role] at opens
      cases opens
    · cases same
      exact closes
  refine ⟨opener, ?_, _, _, innermost, outer, fold.whole_of_trailing parts, scanned, waits,
    List.mem_append_right _ within, number⟩
  rw [taken, parts, ← List.append_assoc]
  exact List.mem_append_left _ within

/-- **An opener that is folded lies within a bracket that the node opened.** -/
theorem openAt_of_opener {lexeme : Lexeme} {char : Char} (inside : lexeme ∈ fold.trailing)
    (role : table.role lexeme.token.literal = some (.opens char)) :
    ∃ opener ∈ fold.taken, table.OpenAt lexemes opener lexeme := by
  obtain ⟨early, late, parts⟩ := List.append_of_mem inside
  obtain ⟨innermost, outer, scanned, owed⟩ := fold.owes_of_trailing parts role
  obtain ⟨opener, within, number⟩ := fold.exists_opener scanned List.mem_cons_self owed
  refine ⟨opener, ?_, _, _, _, fold.whole_of_trailing parts, scanned,
    List.mem_append_right _ within, innermost, List.mem_cons_self, number.symm⟩
  rw [taken, parts, ← List.append_assoc]
  exact List.mem_append_left _ within

/-- The latest opener is innermost after what the node took. -/
theorem after_descending :
    fold.after.Pairwise fun inner outer => outer.opener < inner.opener := by
  have ascending := fold.ascending
  rw [fold.whole, ← List.append_assoc fold.claimed, ← List.append_assoc] at ascending
  have part := (List.pairwise_append.1 (List.pairwise_append.1 ascending).1).1
  exact BracketTable.scan_descending part fold.scansTaken

/-- **A node that leaves some of its window has closed what it opened.** -/
theorem exists_closer_of_opener {opener : Lexeme} {char : Char} (leaves : fold.left ≠ [])
    (inside : opener ∈ fold.taken) (role : table.role opener.token.literal = some (.opens char)) :
    ∃ closer ∈ fold.taken, table.Matches lexemes opener closer := by
  obtain ⟨early, rest, parts⟩ := List.append_of_mem inside
  have scanned := fold.scansTaken
  rw [parts, ← List.append_assoc] at scanned
  obtain ⟨stack, upTo, further⟩ := BracketTable.scan_append_ok scanned
  have opens : table.step stack opener = .ok ([] ++ ⟨char, opener.number⟩ :: stack) :=
    BracketTable.step_of_opens role
  rw [BracketTable.scan_cons_of_ok opens] at further
  rcases BracketTable.scan_closes further with isOpen | ⟨between, closer, late, rfl, reached, waits⟩
  · exact absurd (owesCloser_of_mem fold.after_descending isOpen (fold.first_le inside))
      (takeTrailing_released fold.folds leaves)
  · have around : lexemes = (fold.outside ++ early ++ opener :: between) ++
        closer :: (late ++ fold.left ++ fold.beyond) := by
      refine fold.whole.trans ?_
      rw [← List.append_assoc fold.claimed, ← taken, parts]
      simp only [List.append_assoc, List.cons_append]
    refine ⟨closer, ?_, _, _, _, stack, around, ?_, waits,
      List.mem_append_right _ List.mem_cons_self, rfl⟩
    · rw [parts]
      exact List.mem_append_right _
        (List.mem_cons_of_mem _ (List.mem_append_right _ List.mem_cons_self))
    · rw [BracketTable.scan_append_of_ok upTo, BracketTable.scan_cons_of_ok opens]
      exact reached

end Fold

/-! ### Calls -/

namespace Framed

/-- A call of the zipper on a node, which gets the next frame. -/
structure Call where
  shape : Shape
  window : List Lexeme
  claims : List Claim
  frames : Nat

/-- **The calls of a run**, on siblings and on all nodes below them. A call is reached when nothing
before it fails. What comes behind it may fail. -/
inductive Calls (table : BracketTable) :
    (parent : Nat) → List Shape → List Lexeme → List Claim → (frames : Nat) → Call → Prop
  | here {parent : Nat} {child : Shape} {siblings : List Shape} {window : List Lexeme}
      {claims between : List Claim} {frames : Nat}
      (taken : takeAll table parent claims (beforeLead child.lead window) = .ok between) :
      Calls table parent (child :: siblings) window claims frames
        ⟨child, beforeSibling siblings (fromLead child.lead window), between, frames⟩
  | inside {parent : Nat} {child : Shape} {siblings : List Shape} {window : List Lexeme}
      {claims between : List Claim} {frames : Nat} {call : Call}
      (taken : takeAll table parent claims (beforeLead child.lead window) = .ok between)
      (inner : Calls table frames child.children
        (beforeSibling siblings (fromLead child.lead window)) between (frames + 1) call) :
      Calls table parent (child :: siblings) window claims frames call
  | later {parent : Nat} {child : Shape} {siblings : List Shape} {window : List Lexeme}
      {claims between : List Claim} {frames : Nat} {node : Zipped} {call : Call}
      (taken : takeAll table parent claims (beforeLead child.lead window) = .ok between)
      (zipped : zipNode table child (beforeSibling siblings (fromLead child.lead window)) between
        frames = .ok node)
      (others : Calls table parent siblings
        (node.rest ++ fromSibling siblings (fromLead child.lead window)) node.claims node.frames
        call) :
      Calls table parent (child :: siblings) window claims frames call

variable {parent frames : Nat} {shapes : List Shape} {window : List Lexeme} {claims : List Claim}
  {call : Call} {zipped : Zipped}

/-- What comes of the call. -/
def Call.outcome (table : BracketTable) (call : Call) : Except BracketMismatch Zipped :=
  zipNode table call.shape call.window call.claims call.frames

/-- A node that the call makes: what it claimed, and behind it the tokens that its fold took. -/
structure Call.Makes (table : BracketTable) (call : Call) (claimed : Zipped)
    (trailing : List Lexeme) (zipped : Zipped) : Prop where
  claims : claim table call.shape.anchor call.shape.children call.window call.claims call.frames =
    .ok claimed
  folds : ∃ last, claimed.content.getLast? = some last ∧
    takeTrailing table call.frames last.range.stop.line claimed.claims claimed.rest =
      .ok (trailing, zipped.rest, zipped.claims)
  node : zipped.content =
    [(Node.ofContent call.shape.kind (claimed.content ++ trailing.map .token)).element]

theorem Call.exists_makes (done : call.outcome table = .ok zipped) (isNode : zipped.content ≠ []) :
    ∃ claimed trailing, call.Makes table claimed trailing zipped := by
  rw [outcome, zipNode_eq] at done
  split at done
  · cases done
  · rename_i claimed claims
    unfold closeNode at done
    split at done
    · cases done
      exact absurd rfl isNode
    · rename_i last ends
      split at done
      · cases done
      · rename_i trailing rest after folds
        cases done
        exact ⟨claimed, trailing, claims, ⟨last, ends, folds⟩, rfl⟩

/-- **Where a call is reached**: its window lies in that of the run, the stack is that of a scan of
what comes before, and the invariant holds. -/
theorem Calls.reached (calls : Calls table parent shapes window claims frames call)
    (given : parent < frames) (entered : Entered claims frames window) :
    Entered call.claims call.frames call.window ∧ ∃ outside beyond,
      window = outside ++ call.window ++ beyond ∧
        table.scan (brackets claims) outside = .ok (brackets call.claims) := by
  induction calls with
  | @here _ child siblings window _ _ _ taken =>
    refine ⟨(entered.child siblings given taken).front, beforeLead child.lead window,
      fromSibling siblings (fromLead child.lead window), ?_, scan_of_takeAll taken⟩
    rw [List.append_assoc, window_parts]
  | @inside _ child siblings window _ _ _ call taken _ ih =>
    have atChild := (entered.child siblings given taken).front
    obtain ⟨atCall, outside, beyond, parts, scanned⟩ := ih (Nat.lt_succ_self _) atChild.succ
    refine ⟨atCall, beforeLead child.lead window ++ outside,
      beyond ++ fromSibling siblings (fromLead child.lead window), ?_, ?_⟩
    · calc window = beforeLead child.lead window ++
            (beforeSibling siblings (fromLead child.lead window) ++
              fromSibling siblings (fromLead child.lead window)) := (window_parts _ _ _).symm
        _ = _ := by
            rw [parts]
            simp only [List.append_assoc]
    · rw [BracketTable.scan_append_of_ok (scan_of_takeAll taken), scanned]
  | @later _ child siblings window _ _ _ node call taken zipped _ ih =>
    have atChild := entered.child siblings given taken
    have agrees := @zipNode_agrees table child _ _ _ atChild.front
    obtain ⟨keeps, scans, atLater⟩ := agrees.behind zipped atChild
    have more := (agrees.settled node zipped).frames
    obtain ⟨atCall, outside, beyond, parts, scanned⟩ := ih (Nat.lt_of_lt_of_le given more) atLater
    refine ⟨atCall, beforeLead child.lead window ++ (Element.lexemesOf node.content ++ outside),
      beyond, ?_, ?_⟩
    · calc window = beforeLead child.lead window ++
            (beforeSibling siblings (fromLead child.lead window) ++
              fromSibling siblings (fromLead child.lead window)) := (window_parts _ _ _).symm
        _ = beforeLead child.lead window ++ (Element.lexemesOf node.content ++
              (node.rest ++ fromSibling siblings (fromLead child.lead window))) := by
            rw [← keeps, List.append_assoc]
        _ = _ := by
            rw [parts]
            simp only [List.append_assoc]
    · rw [BracketTable.scan_append_of_ok (scan_of_takeAll taken),
        BracketTable.scan_append_of_ok scans]
      exact scanned

/-- **The brackets of a node are settled.** A closer that its fold takes closes an opener of the
node; an opener that its fold takes is taken while a bracket is open that the node opened; and if
the node leaves some of its window, then every opener of the node has its closer in the node. -/
structure SettlesBrackets (table : BracketTable) (lexemes taken trailing left : List Lexeme) :
    Prop where
  closers : ∀ closer ∈ trailing, ∀ char, table.role closer.token.literal = some (.closes char) →
    ∃ opener ∈ taken, table.Matches lexemes opener closer
  openers : ∀ lexeme ∈ trailing, ∀ char, table.role lexeme.token.literal = some (.opens char) →
    ∃ opener ∈ taken, table.OpenAt lexemes opener lexeme
  settled : left ≠ [] → ∀ opener ∈ taken, ∀ char,
    table.role opener.token.literal = some (.opens char) →
      ∃ closer ∈ taken, table.Matches lexemes opener closer

theorem settlesBrackets_of_fold {lexemes : List Lexeme} (fold : Fold table lexemes) :
    SettlesBrackets table lexemes fold.taken fold.trailing fold.left where
  closers _ inside _ role := fold.exists_opener_of_closer inside role
  openers _ inside _ role := fold.openAt_of_opener inside role
  settled leaves _ inside _ role := fold.exists_closer_of_opener leaves inside role

/-- A call that makes a node has a fold, wherever it lies in the sequence. -/
theorem Call.Makes.exists_fold {claimed : Zipped} {lexemes trailing outside beyond : List Lexeme}
    (makes : call.Makes table claimed trailing zipped)
    (entered : Entered call.claims call.frames call.window)
    (ascending : lexemes.Pairwise fun first second => first.number < second.number)
    (whole : lexemes = outside ++ call.window ++ beyond)
    (scanned : table.scan [] outside = .ok (brackets call.claims)) :
    ∃ fold : Fold table lexemes, fold.taken = Element.lexemesOf zipped.content ∧
      fold.trailing = trailing ∧ fold.left = zipped.rest := by
  have agrees : Agrees call.frames call.claims (call.frames + 1)
      (Zip.claim table call.shape.anchor call.shape.children call.window
        (brackets call.claims)) _ :=
    claim_agrees_of_children call.shape.anchor
      (zipChildren_agrees call.shape.children (Nat.lt_succ_self call.frames) entered.succ)
  have settled := agrees.settled claimed makes.claims
  have takes : claimed.forget.Takes table call.window (brackets call.claims) :=
    claim_takes (agrees.same.trans (congrArg (Except.map Zipped.forget) makes.claims))
  obtain ⟨last, ends, framedFold⟩ := makes.folds
  obtain ⟨head, rest, window⟩ := exists_window_head takes ends
  have keeps : Element.lexemesOf claimed.content ++ claimed.rest = call.window := takes.keeps
  have folds : Zip.takeTrailing table head.number last.range.stop.line (brackets claimed.claims)
      claimed.rest = .ok (trailing, zipped.rest, brackets zipped.claims) := by
    rw [settled.fold_agrees (window ▸ entered) (keeps.trans window), framedFold]
    rfl
  have parts := takeTrailing_append folds
  refine ⟨{
    outside
    claimed := Element.lexemesOf claimed.content
    trailing
    left := zipped.rest
    beyond
    first := head
    line := last.range.stop.line
    opened := brackets call.claims
    between := brackets claimed.claims
    after := brackets zipped.claims
    ascending
    whole := by rw [parts, keeps, whole]
    isFirst := by rw [parts, keeps, window, List.head?_cons]
    scansOutside := scanned
    scansClaimed := takes.scans
    folds := by rw [parts, folds] }, ?_, rfl, rfl⟩
  rw [makes.node, Element.lexemesOf_closed]
  rfl

/-- **A node settles its brackets before it lets go.** The zip with frames is the zip, and in each
of its runs every call that makes a node settles the brackets of that node. -/
theorem zipNode_settlesBrackets {ast : AstNode} {tokens : List Token} {call : Call}
    {zipped : Zipped}
    (reached : Calls table 0 (Shape.ofNodes ast.children) (Lexeme.sequence tokens) [] 1 call)
    (done : call.outcome table = .ok zipped) (isNode : zipped.content ≠ []) :
    zipModule table ast tokens = Zip.zipModule table ast tokens ∧
      Element.lexemesOf zipped.content ++ zipped.rest = call.window ∧
      ∃ claimed trailing, call.Makes table claimed trailing zipped ∧
        SettlesBrackets table (Lexeme.sequence tokens) (Element.lexemesOf zipped.content) trailing
          zipped.rest := by
  obtain ⟨entered, outside, beyond, whole, scanned⟩ :=
    reached.reached Nat.zero_lt_one (.start tokens)
  have agrees := @zipNode_agrees table call.shape _ _ _ entered
  obtain ⟨keeps, -, -⟩ := agrees.behind done (by rwa [List.append_nil])
  obtain ⟨claimed, trailing, makes⟩ := Call.exists_makes done isNode
  obtain ⟨fold, taken, rfl, left⟩ :=
    makes.exists_fold entered (Lexeme.sequence_ascending tokens) whole scanned
  refine ⟨zipModule_eq table ast tokens, keeps, claimed, fold.trailing, makes, ?_⟩
  rw [← taken, ← left]
  exact settlesBrackets_of_fold fold

/-- The tokens of `f(⏎a)⏎g⏎`. -/
def callTokens : List Token :=
  [⟨"NAME", ⟨⟨0, 0⟩, ⟨0, 1⟩⟩, "f"⟩, ⟨"OP", ⟨⟨0, 1⟩, ⟨0, 2⟩⟩, "("⟩, ⟨"NL", ⟨⟨0, 2⟩, ⟨0, 3⟩⟩, "\n"⟩,
    ⟨"NAME", ⟨⟨1, 0⟩, ⟨1, 1⟩⟩, "a"⟩, ⟨"OP", ⟨⟨1, 1⟩, ⟨1, 2⟩⟩, ")"⟩,
    ⟨"NEWLINE", ⟨⟨1, 2⟩, ⟨1, 3⟩⟩, "\n"⟩, ⟨"NAME", ⟨⟨2, 0⟩, ⟨2, 1⟩⟩, "g"⟩,
    ⟨"NEWLINE", ⟨⟨2, 1⟩, ⟨2, 2⟩⟩, "\n"⟩]

/-- The call of `f` alone; `g` has no node. -/
def onlyCallAst : AstNode :=
  ⟨"Module", none, [⟨"Call", some ⟨0, 0⟩,
    [⟨"Name", some ⟨0, 0⟩, []⟩, ⟨"Name", some ⟨1, 0⟩, []⟩]⟩]⟩

/-- The node of the call. It leaves the last line of its window, so it has the closer of its opener.
-/
def onlyCall : Call where
  shape := ⟨"Call", some ⟨0, 0⟩, ⟨0, 0⟩,
    [⟨"Name", some ⟨0, 0⟩, ⟨0, 0⟩, []⟩, ⟨"Name", some ⟨1, 0⟩, ⟨1, 0⟩, []⟩]⟩
  window := Lexeme.sequence callTokens
  claims := []
  frames := 1

theorem zipNode_settlesBrackets_onlyCall :
    Calls (.ofConfig {}) 0 (Shape.ofNodes onlyCallAst.children) (Lexeme.sequence callTokens) [] 1
        onlyCall ∧
      ∃ zipped, onlyCall.outcome (.ofConfig {}) = .ok zipped ∧ zipped.content ≠ [] ∧
        zipped.rest = (Lexeme.sequence callTokens).drop 6 ∧
        ∃ opener ∈ Element.lexemesOf zipped.content, ∃ closer ∈ Element.lexemesOf zipped.content,
          opener.number = 1 ∧
            (BracketTable.ofConfig {}).Matches (Lexeme.sequence callTokens) opener closer := by
  have reached : Calls (.ofConfig {}) 0 (Shape.ofNodes onlyCallAst.children)
      (Lexeme.sequence callTokens) [] 1 onlyCall := .here rfl
  obtain ⟨zipped, done, left, taken, isNode⟩ : ∃ zipped,
      onlyCall.outcome (.ofConfig {}) = .ok zipped ∧
      zipped.rest = (Lexeme.sequence callTokens).drop 6 ∧
      Element.lexemesOf zipped.content = (Lexeme.sequence callTokens).take 6 ∧
      zipped.content ≠ [] := ⟨_, rfl, rfl, rfl, nofun⟩
  obtain ⟨-, -, claimed, trailing, -, settles⟩ := zipNode_settlesBrackets reached done isNode
  have opener : ∃ opener ∈ Element.lexemesOf zipped.content, opener.number = 1 ∧
      (BracketTable.ofConfig {}).role opener.token.literal = some (.opens ')') := by
    rw [taken]
    decide
  obtain ⟨opener, inside, number, role⟩ := opener
  have leaves : zipped.rest ≠ [] := by
    rw [left]
    exact nofun
  obtain ⟨closer, within, matched⟩ := settles.settled leaves opener inside ')' role
  exact ⟨reached, zipped, done, isNode, left, opener, inside, closer, within, number, matched⟩

end Framed

end Zip

end CellSyntax
