/-
**Frames tell what token numbers tell.**

The zipper with frames asks for the owner of the innermost claim, the zipper without them for the
number of the token that opened the innermost bracket. When a node is visited, each claim on the
stack has an owner below its frame and an opener before its window (`Entered`). What is claimed
during the visit has an owner from the frame on and an opener in the window (`Zipped.Settled`). So
for a claim on the stack the two questions have one answer, although ancestors, earlier siblings and
dropped children leave claims there, and the two zips agree once the owners are forgotten.

* `Zip.Framed.Entered.behind`: the invariant, behind what was taken;
* `Zip.Framed.takeTrailing_agrees`: the folds agree;
* `Zip.Framed.zipNode_agrees`, `Zip.Framed.zipChildren_agrees`: the zips of nodes and siblings
  agree;
* `Zip.Framed.zipModule_eq`: the zip with frames is the zip.
-/

import CellSyntax.Proofs.Zip.BracketOwners
import CellSyntax.Zip.Frames

namespace CellSyntax.Zip.Framed

/-- The brackets that are claimed. -/
def brackets (claims : List Claim) : List OpenBracket := claims.map Claim.bracket

/-- The portion that was zipped, owners and frames being forgotten. -/
def Zipped.forget (zipped : Zipped) : Portion :=
  ⟨zipped.content, zipped.rest, brackets zipped.claims⟩

variable {table : BracketTable} {frame frames first line : Nat} {claims after : List Claim}
  {window taken ahead : List Lexeme} {lexeme : Lexeme}

/-! ### Taking tokens -/

theorem step_brackets (table : BracketTable) (frame : Nat) (claims : List Claim) (lexeme : Lexeme) :
    table.step (brackets claims) lexeme = (take table frame claims lexeme).map brackets := by
  unfold BracketTable.step take
  rcases table.role lexeme.token.literal with _ | closer | found
  · rfl
  · rfl
  · rcases claims with _ | ⟨innermost, outer⟩
    · rfl
    · simp only [brackets, List.map_cons]
      split <;> rfl

theorem scan_brackets (table : BracketTable) (frame : Nat) (claims : List Claim)
    (lexemes : List Lexeme) :
    table.scan (brackets claims) lexemes = (takeAll table frame claims lexemes).map brackets := by
  induction lexemes generalizing claims with
  | nil => rfl
  | cons lexeme rest ih =>
    rw [BracketTable.scan, takeAll, step_brackets table frame]
    cases take table frame claims lexeme with
    | error mismatch => rfl
    | ok after => exact ih after

theorem scan_of_takeAll (done : takeAll table frame claims taken = .ok after) :
    table.scan (brackets claims) taken = .ok (brackets after) := by
  rw [scan_brackets table frame, done]
  rfl

/-- A claim that `frames` from `low` on make on tokens that were taken. -/
structure Claim.MadeOn (low frames : Nat) (taken : List Lexeme) (claim : Claim) : Prop where
  from_low : low ≤ claim.owner
  below : claim.owner < frames
  opener : ∃ lexeme ∈ taken, lexeme.number = claim.bracket.opener

theorem take_claims (done : take table frame claims lexeme = .ok after) :
    ∀ claim ∈ after, claim ∈ claims ∨
      claim.owner = frame ∧ claim.bracket.opener = lexeme.number := by
  unfold take at done
  intro claim member
  split at done
  · cases done
    exact Or.inl member
  · cases done
    rcases List.mem_cons.1 member with rfl | old
    · exact Or.inr ⟨rfl, rfl⟩
    · exact Or.inl old
  · cases done
  · split at done
    · cases done
      exact Or.inl (List.mem_cons_of_mem _ member)
    · cases done

theorem takeAll_claims (done : takeAll table frame claims taken = .ok after) :
    ∀ claim ∈ after, claim ∈ claims ∨ Claim.MadeOn frame (frame + 1) taken claim := by
  induction taken generalizing claims with
  | nil =>
    cases done
    exact fun _ member => Or.inl member
  | cons lexeme rest ih =>
    rw [takeAll] at done
    split at done
    · cases done
    · rename_i between stepped
      intro claim member
      rcases ih done claim member with old | ⟨from_low, below, opener, inside, number⟩
      · rcases take_claims stepped claim old with older | ⟨owner, number⟩
        · exact Or.inl older
        · exact Or.inr ⟨Nat.le_of_eq owner.symm, owner ▸ Nat.lt_succ_self _,
            lexeme, List.mem_cons_self, number.symm⟩
      · exact Or.inr ⟨from_low, below, opener, List.mem_cons_of_mem _ inside, number⟩

theorem takeTrailing_takeAll {left : List Lexeme}
    (done : takeTrailing table frame line claims window = .ok (taken, left, after)) :
    takeAll table frame claims taken = .ok after := by
  induction window generalizing line claims taken with
  | nil =>
    cases done
    rfl
  | cons lexeme rest ih =>
    unfold takeTrailing at done
    split at done
    · split at done
      · cases done
      · rename_i stepped
        split at done
        · cases done
        · rename_i later
          cases done
          rw [takeAll, stepped]
          exact ih later
    · cases done
      rfl

/-! ### The invariant -/

/-- The first of some tokens in the order of their numbers has the least number. -/
theorem head_le {head : Lexeme} {rest : List Lexeme}
    (ascending : (head :: rest).Pairwise fun first second => first.number < second.number)
    (inside : lexeme ∈ head :: rest) : head.number ≤ lexeme.number := by
  rcases List.mem_cons.1 inside with rfl | later
  · exact Nat.le_refl _
  · exact Nat.le_of_lt ((List.pairwise_cons.1 ascending).1 lexeme later)

/-- **What holds when a window is entered**: its tokens come in the order of their numbers, and all
claims were made before, by frames that are given out and on tokens before the window. -/
structure Entered (claims : List Claim) (frames : Nat) (window : List Lexeme) : Prop where
  ascending : window.Pairwise fun first second => first.number < second.number
  owners : ∀ claim ∈ claims, claim.owner < frames
  openers : ∀ claim ∈ claims, ∀ lexeme ∈ window, claim.bracket.opener < lexeme.number

/-- **What holds after a visit**: the claims are earlier ones and ones that were made during the
visit, from its own frame on and on tokens that it took. -/
structure Zipped.Settled (low : Nat) (claims : List Claim) (frames : Nat) (zipped : Zipped) :
    Prop where
  frames : frames ≤ zipped.frames
  claims : ∀ claim ∈ zipped.claims, claim ∈ claims ∨
    Claim.MadeOn low zipped.frames (Element.lexemesOf zipped.content) claim

/-- **The invariant goes on behind what was taken.** -/
theorem Entered.behind {low further : Nat} (entered : Entered claims frames (taken ++ ahead))
    (more : frames ≤ further)
    (made : ∀ claim ∈ after, claim ∈ claims ∨ Claim.MadeOn low further taken claim) :
    Entered after further ahead where
  ascending := (List.pairwise_append.1 entered.ascending).2.1
  owners claim member := by
    rcases made claim member with old | new
    · exact Nat.lt_of_lt_of_le (entered.owners claim old) more
    · exact new.below
  openers claim member lexeme inside := by
    rcases made claim member with old | ⟨-, -, opener, isTaken, number⟩
    · exact entered.openers claim old lexeme (List.mem_append_right _ inside)
    · rw [← number]
      exact (List.pairwise_append.1 entered.ascending).2.2 opener isTaken lexeme inside

theorem Entered.front {behind : List Lexeme} (entered : Entered claims frames (window ++ behind)) :
    Entered claims frames window where
  ascending := (List.pairwise_append.1 entered.ascending).1
  owners := entered.owners
  openers claim member lexeme inside :=
    entered.openers claim member lexeme (List.mem_append_left _ inside)

/-- Giving out frames spoils nothing. -/
theorem Entered.succ (entered : Entered claims frames window) :
    Entered claims (frames + 1) window :=
  { entered with owners := fun claim member => Nat.lt_succ_of_lt (entered.owners claim member) }

/-- The invariant goes on behind tokens that a frame takes that is given out already. -/
theorem Entered.takeAll (entered : Entered claims frames (taken ++ ahead)) (given : frame < frames)
    (done : Framed.takeAll table frame claims taken = .ok after) : Entered after frames ahead := by
  have within : ∀ claim ∈ after, claim ∈ claims ∨ Claim.MadeOn frame frames taken claim := by
    refine fun claim member => (takeAll_claims done claim member).imp_right fun made => ?_
    exact { made with below := Nat.lt_of_lt_of_le made.below given }
  exact entered.behind (Nat.le_refl _) within

/-- The invariant holds at a child, behind what the parent takes before its lead. -/
theorem Entered.child {lead : Position} (siblings : List Shape)
    (entered : Entered claims frames window) (given : frame < frames)
    (done : Framed.takeAll table frame claims (beforeLead lead window) = .ok after) :
    Entered after frames (beforeSibling siblings (fromLead lead window) ++
      fromSibling siblings (fromLead lead window)) := by
  rw [← window_parts lead siblings window] at entered
  exact entered.takeAll given done

/-! ### Folds -/

/-- For each claim, its owner is not below the frame exactly if its opener is not before the token
numbered `first`. -/
def SameDebts (frame first : Nat) (claims : List Claim) : Prop :=
  ∀ claim ∈ claims, frame ≤ claim.owner ↔ first ≤ claim.bracket.opener

theorem SameDebts.owesCloser_eq (same : SameDebts frame first claims) :
    CellSyntax.owesCloser first (brackets claims) = owesCloser frame claims := by
  rcases claims with _ | ⟨innermost, outer⟩
  · rfl
  · exact decide_eq_decide.2 (same innermost List.mem_cons_self).symm

theorem SameDebts.take (same : SameDebts frame first claims) (notBefore : first ≤ lexeme.number)
    (done : Framed.take table frame claims lexeme = .ok after) : SameDebts frame first after := by
  intro claim member
  rcases take_claims done claim member with old | ⟨owner, opener⟩
  · exact same claim old
  · rw [owner, opener]
    exact ⟨fun _ => notBefore, fun _ => Nat.le_refl _⟩

/-- **The folds agree** where frames and numbers say the same of every claim. -/
theorem takeTrailing_agrees (same : SameDebts frame first claims)
    (notBefore : ∀ lexeme ∈ window, first ≤ lexeme.number) :
    Zip.takeTrailing table first line (brackets claims) window =
      (takeTrailing table frame line claims window).map
        fun (taken, left, after) => (taken, left, brackets after) := by
  induction window generalizing line claims with
  | nil => rfl
  | cons lexeme rest ih =>
    rw [Zip.takeTrailing, takeTrailing, same.owesCloser_eq, step_brackets table frame]
    by_cases taken : owesCloser frame claims = true ∨
        lexeme.start.line = line ∧ table.role lexeme.token.literal = none
    · rw [if_pos taken, if_pos taken]
      cases stepped : take table frame claims lexeme with
      | error mismatch => rfl
      | ok after =>
        have later := @ih lexeme.token.range.stop.line after
          (same.take (notBefore lexeme List.mem_cons_self) stepped)
          fun other inside => notBefore other (List.mem_cons_of_mem _ inside)
        simp only [Except.map]
        rw [later]
        cases takeTrailing table frame lexeme.token.range.stop.line after rest <;> rfl
    · rw [if_neg taken, if_neg taken]
      rfl

/-- **After what a node claims, frames and numbers say the same.** -/
theorem Zipped.Settled.sameDebts {started : Nat} {zipped : Zipped} {head : Lexeme}
    {rest : List Lexeme} (settled : zipped.Settled frame claims started)
    (entered : Entered claims frame (head :: rest))
    (keeps : Element.lexemesOf zipped.content ++ zipped.rest = head :: rest) :
    SameDebts frame head.number zipped.claims := by
  intro claim member
  rcases settled.claims claim member with old | ⟨from_low, -, opener, inside, number⟩
  · have owner := entered.owners claim old
    have opener := entered.openers claim old head List.mem_cons_self
    omega
  · have notBefore := head_le entered.ascending (keeps ▸ List.mem_append_left _ inside)
    omega

/-- **The folds agree behind what a node claims.** -/
theorem Zipped.Settled.fold_agrees {started : Nat} {zipped : Zipped} {head : Lexeme}
    {rest : List Lexeme} (settled : zipped.Settled frame claims started)
    (entered : Entered claims frame (head :: rest))
    (keeps : Element.lexemesOf zipped.content ++ zipped.rest = head :: rest) :
    Zip.takeTrailing table head.number line (brackets zipped.claims) zipped.rest =
      (takeTrailing table frame line zipped.claims zipped.rest).map
        fun (taken, left, after) => (taken, left, brackets after) :=
  takeTrailing_agrees (settled.sameDebts entered keeps) fun _ inside =>
    head_le entered.ascending (keeps ▸ List.mem_append_right _ inside)

/-! ### Zips -/

theorem Claim.MadeOn.mono {low frames further : Nat} {more : List Lexeme} {claim : Claim}
    (made : Claim.MadeOn low frames taken claim) {lower : Nat} (from_low : lower ≤ low)
    (below : frames ≤ further) (within : taken ⊆ more) : Claim.MadeOn lower further more claim where
  from_low := Nat.le_trans from_low made.from_low
  below := Nat.lt_of_lt_of_le made.below below
  opener := made.opener.imp fun _ both => ⟨within both.1, both.2⟩

/-- **A zip with frames agrees with one without**: it fails alike or yields the same portion, and if
it succeeds, then its claims are settled. -/
structure Agrees (low : Nat) (claims : List Claim) (frames : Nat)
    (plain : Except BracketMismatch Portion) (framed : Except BracketMismatch Zipped) : Prop where
  same : plain = framed.map Zipped.forget
  settled : ∀ zipped, framed = .ok zipped → zipped.Settled low claims frames

theorem Agrees.error {low : Nat} (mismatch : BracketMismatch) :
    Agrees low claims frames (.error mismatch) (.error mismatch) where
  same := rfl
  settled _ done := by cases done

theorem Agrees.ok {low further : Nat} {content : List Element} {rest : List Lexeme}
    (settled : Zipped.Settled low claims frames ⟨content, rest, after, further⟩) :
    Agrees low claims frames (.ok ⟨content, rest, brackets after⟩)
      (.ok ⟨content, rest, after, further⟩) where
  same := rfl
  settled _ done := by
    cases done
    exact settled

theorem claimAnchor_agrees (anchor : Option Position) (window : List Lexeme) (claims : List Claim)
    (frames : Nat) : Agrees frames claims (frames + 1)
      (Zip.claimAnchor table anchor window (brackets claims))
      (claimAnchor table anchor window claims frames) := by
  have untouched (rest : List Lexeme) :
      Zipped.Settled frames claims (frames + 1) ⟨[], rest, claims, frames + 1⟩ :=
    ⟨Nat.le_refl _, fun _ member => Or.inl member⟩
  cases window with
  | nil => exact .ok (untouched [])
  | cons lexeme rest =>
    unfold Zip.claimAnchor claimAnchor
    by_cases anchored : anchor = some lexeme.start
    · simp only [if_pos anchored, step_brackets table frames]
      cases stepped : take table frames claims lexeme with
      | error mismatch => exact .error mismatch
      | ok after =>
        refine .ok ⟨Nat.le_refl _, fun claim member => ?_⟩
        rcases take_claims stepped claim member with old | ⟨owner, opener⟩
        · exact Or.inl old
        · exact Or.inr ⟨Nat.le_of_eq owner.symm, owner ▸ Nat.lt_succ_self _, lexeme,
            List.mem_cons_self, opener.symm⟩
    · simp only [if_neg anchored]
      exact .ok (untouched _)

/-- A window of which something was claimed has a first token. -/
theorem exists_window_head {claimed : Portion} {opened : List OpenBracket} {last : Element}
    (takes : claimed.Takes table window opened) (ends : claimed.content.getLast? = some last) :
    ∃ head rest, window = head :: rest := by
  refine List.exists_cons_of_ne_nil fun empty => ?_
  have member := List.mem_of_getLast? ends
  have keeps := takes.keeps
  rw [empty, List.append_eq_nil_iff] at keeps
  have inside := Element.lexemes_infix_of_mem member
  rw [keeps.1] at inside
  exact (takes.formed last member).lexemes_ne_nil (List.infix_nil.1 inside)

/-- **Nodes close alike**: what was claimed makes frames and numbers say the same, so the folds take
the same tokens, and what they claim is the frame's own. -/
theorem closeNode_agrees {claimed : Zipped} (kind : String)
    (entered : Entered claims frame window) (settled : claimed.Settled frame claims (frame + 1))
    (takes : claimed.forget.Takes table window (brackets claims)) :
    Agrees frame claims frame (Zip.closeNode table kind window claimed.forget)
      (closeNode table frame kind window claimed) := by
  cases ends : claimed.content.getLast? with
  | none =>
    have none := List.getLast?_eq_none_iff.1 ends
    simp only [closeNode, ends]
    refine ⟨?_, fun zipped done => ?_⟩
    · rw [Zipped.forget, none]
      exact closeNode_nothing table kind window claimed.rest (brackets claimed.claims)
    · cases done
      exact ⟨Nat.le_of_lt settled.frames, none ▸ settled.claims⟩
  | some last =>
    obtain ⟨head, rest, rfl⟩ := exists_window_head takes ends
    simp only [Zip.closeNode, closeNode, Zipped.forget, ends]
    rw [settled.fold_agrees entered takes.keeps]
    cases folded : takeTrailing table frame last.range.stop.line claimed.claims claimed.rest with
    | error mismatch => exact .error mismatch
    | ok taken =>
      obtain ⟨trailing, left, after⟩ := taken
      refine .ok ⟨Nat.le_of_lt settled.frames, fun claim member => ?_⟩
      rw [Element.lexemesOf_closed]
      rcases takeAll_claims (takeTrailing_takeAll folded) claim member with old | made
      · refine (settled.claims claim old).imp_right fun made => ?_
        exact made.mono (Nat.le_refl _) (Nat.le_refl _) (List.subset_append_left _ _)
      · exact Or.inr (made.mono (Nat.le_refl _) settled.frames (List.subset_append_right _ _))

/-- **Behind a node that agrees**: it takes the first part of its window, the stack is that of a
scan of what it took, and the invariant holds for what it leaves and what lies behind its window. -/
theorem Agrees.behind {shape : Shape} {framed : Except BracketMismatch Zipped} {node : Zipped}
    (agrees : Agrees frames claims frames (Zip.zipNode table shape window (brackets claims)) framed)
    (zipped : framed = .ok node) (entered : Entered claims frames (window ++ ahead)) :
    Element.lexemesOf node.content ++ node.rest = window ∧
      table.scan (brackets claims) (Element.lexemesOf node.content) = .ok (brackets node.claims) ∧
      Entered node.claims node.frames (node.rest ++ ahead) := by
  have settled := agrees.settled node zipped
  have takes : node.forget.Takes table window (brackets claims) :=
    zipNode_takes (agrees.same.trans (congrArg (Except.map Zipped.forget) zipped))
  rw [← takes.keeps, List.append_assoc] at entered
  exact ⟨takes.keeps, takes.scans, entered.behind settled.frames settled.claims⟩

/-- What a node claims in the next frame before the tokens that trail it. -/
def claim (table : BracketTable) (anchor : Option Position) (children : List Shape)
    (window : List Lexeme) (claims : List Claim) (frames : Nat) : Except BracketMismatch Zipped :=
  if children.isEmpty then claimAnchor table anchor window claims frames
  else zipChildren table frames children window claims (frames + 1)

theorem zipNode_eq (shape : Shape) (window : List Lexeme) (claims : List Claim) (frames : Nat) :
    zipNode table shape window claims frames =
      match claim table shape.anchor shape.children window claims frames with
      | .error mismatch => .error mismatch
      | .ok claimed => closeNode table frames shape.kind window claimed := by
  cases shape
  rw [zipNode]
  rfl

/-- Claims agree, for a leaf anyhow and for other nodes as their children do. -/
theorem claim_agrees_of_children {children : List Shape} (anchor : Option Position)
    (below : Agrees frames claims (frames + 1)
      (Zip.zipChildren table children window (brackets claims))
      (zipChildren table frames children window claims (frames + 1))) :
    Agrees frames claims (frames + 1) (Zip.claim table anchor children window (brackets claims))
      (claim table anchor children window claims frames) := by
  unfold Zip.claim claim
  split
  · exact claimAnchor_agrees anchor window claims frames
  · exact below

mutual

/-- **A zip of one node agrees**, from where the node is entered. -/
theorem zipNode_agrees : ∀ (shape : Shape) {window : List Lexeme} {claims : List Claim}
    {frames : Nat}, Entered claims frames window →
      Agrees frames claims frames (Zip.zipNode table shape window (brackets claims))
        (zipNode table shape window claims frames)
  | ⟨kind, anchor, lead, children⟩, window, claims, frames, entered => by
    have claimed := claim_agrees_of_children anchor
      (zipChildren_agrees children (Nat.lt_succ_self frames) entered.succ)
    rw [Zip.zipNode_eq, zipNode_eq]
    cases claims_ok : claim table anchor children window claims frames with
    | error mismatch =>
      rw [claimed.same, claims_ok]
      exact .error mismatch
    | ok zipped =>
      have plain := claimed.same.trans (congrArg (Except.map Zipped.forget) claims_ok)
      rw [plain]
      exact closeNode_agrees kind entered (claimed.settled zipped claims_ok) (claim_takes plain)

/-- **A zip of siblings agrees**, in the frame of their parent. -/
theorem zipChildren_agrees : ∀ (shapes : List Shape) {parent : Nat} {window : List Lexeme}
    {claims : List Claim} {frames : Nat}, parent < frames → Entered claims frames window →
      Agrees parent claims frames (Zip.zipChildren table shapes window (brackets claims))
        (zipChildren table parent shapes window claims frames)
  | [], parent, window, claims, frames, given, entered => by
    rw [Zip.zipChildren, zipChildren]
    exact .ok ⟨Nat.le_refl _, fun _ member => Or.inl member⟩
  | child :: siblings, parent, window, claims, frames, given, entered => by
    rw [Zip.zipChildren, zipChildren, scan_brackets table parent]
    cases scanned : takeAll table parent claims (beforeLead child.lead window) with
    | error mismatch => exact .error mismatch
    | ok between =>
      have atChild := entered.child siblings given scanned
      have first := @zipNode_agrees child _ _ _ atChild.front
      simp only [Except.map]
      rw [first.same]
      cases zipped : zipNode table child (beforeSibling siblings (fromLead child.lead window))
          between frames with
      | error mismatch => exact .error mismatch
      | ok node =>
        have settled := first.settled node zipped
        obtain ⟨-, -, atLater⟩ := first.behind zipped atChild
        have others := zipChildren_agrees siblings (Nat.lt_of_lt_of_le given settled.frames) atLater
        simp only [Except.map, Zipped.forget]
        rw [others.same]
        cases rest : zipChildren table parent siblings
            (node.rest ++ fromSibling siblings (fromLead child.lead window)) node.claims
            node.frames with
        | error mismatch => exact .error mismatch
        | ok later =>
          have settledLater := others.settled later rest
          refine .ok ⟨Nat.le_trans settled.frames settledLater.frames, fun claim member => ?_⟩
          rw [Element.lexemesOf_append, Element.lexemesOf_append, Element.lexemesOf_tokens]
          have upTo := settledLater.frames
          have parentFrame := Nat.le_trans given (Nat.le_trans settled.frames upTo)
          -- A claim was there, or the parent, the child or a later sibling made it.
          rcases settledLater.claims claim member with old | made
          · rcases settled.claims claim old with older | made
            · refine (takeAll_claims scanned claim older).imp_right fun made => ?_
              exact made.mono (Nat.le_refl _) parentFrame
                fun _ inside => List.mem_append_left _ (List.mem_append_left _ inside)
            · exact Or.inr (made.mono (Nat.le_of_lt given) upTo
                fun _ inside => List.mem_append_left _ (List.mem_append_right _ inside))
          · exact Or.inr (made.mono (Nat.le_refl _) (Nat.le_refl _)
              fun _ inside => List.mem_append_right _ inside)

end

/-- Nothing is claimed when a run begins. -/
theorem Entered.start (tokens : List Token) : Entered [] 1 (Lexeme.sequence tokens) where
  ascending := Lexeme.sequence_ascending tokens
  owners _ member := absurd member List.not_mem_nil
  openers _ member := absurd member List.not_mem_nil

/-- **The zip with frames is the zip.** -/
theorem zipModule_eq (table : BracketTable) (ast : AstNode) (tokens : List Token) :
    zipModule table ast tokens = Zip.zipModule table ast tokens := by
  have agrees := @zipChildren_agrees table (Shape.ofNodes ast.children) 0 _ _ _ Nat.zero_lt_one
    (Entered.start tokens)
  have plain : Zip.zipChildren table (Shape.ofNodes ast.children) (Lexeme.sequence tokens) [] = _ :=
    agrees.same
  rw [zipModule, Zip.zipModule, plain]
  cases zipChildren table 0 (Shape.ofNodes ast.children) (Lexeme.sequence tokens) [] 1 with
  | error mismatch => rfl
  | ok children =>
    simp only [Except.map, Zipped.forget]
    rw [scan_brackets table 0]
    cases takeAll table 0 children.claims children.rest <;> rfl

end CellSyntax.Zip.Framed
