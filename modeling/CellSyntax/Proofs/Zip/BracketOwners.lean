/-
**Closers stay with their openers.**

A node owns a closer in one of three ways: it takes it behind its content, it claims it at its
anchor, or it takes it before the lead of a child. In the first case the node owes the closer, so the
bracket was opened at or after the first token of its window. In the other two the closer starts
between the earliest and the latest anchor of the node. If the syntax tree respects the brackets,
then the opener does not start before the earliest anchor, so it lies in the node's window as well.
Either way the opener lies in the subtree of the node that owns the closer. The root owns the closers
that no other node takes, and everything lies in its subtree.

* `Zip.takeTrailing_owes`: a closer that trails a node is owed by it;
* `Zip.owned_by_children`: a token that a node takes between its children starts before one of them;
* `Zip.Visit.Makes.opener_mem`: the opener lies in the subtree of the node that owns the closer;
* `zip_closerOwner`: the owner of a closer is the owner of its opener or a node around it.
-/

import CellSyntax.Proofs.Tree.Ownership
import CellSyntax.Proofs.Zip.Made

namespace CellSyntax

/-! ### Pairs of brackets -/

/-- **`closer` closes the bracket that `opener` opens**, in a plain scan of the lexemes: of what is
open before `closer`, the innermost was opened by `opener`, and `closer` is what it waits for. -/
def BracketTable.Matches (table : BracketTable) (lexemes : List Lexeme) (opener closer : Lexeme) :
    Prop :=
  ∃ before after innermost outer, lexemes = before ++ closer :: after ∧
    table.scan [] before = .ok (innermost :: outer) ∧
    table.role closer.token.literal = some (.closes innermost.closer) ∧
    opener ∈ before ∧ opener.number = innermost.opener

namespace AstNode

/-- No closer between the earliest and the latest anchor of the subtree closes a bracket that was
opened before the earliest one. The anchors are those of the node and of all nodes below it. -/
def KeepsBrackets (node : AstNode) (table : BracketTable) (lexemes : List Lexeme) : Prop :=
  ∀ earliest ∈ node.anchors, ∀ latest ∈ node.anchors,
    (∀ anchor ∈ node.anchors, earliest ≤ anchor ∧ anchor ≤ latest) →
    ∀ opener closer, table.Matches lexemes opener closer →
      earliest ≤ closer.start → closer.start ≤ latest → ¬ opener.start < earliest

/-- **A syntax tree that respects the brackets**, in each subtree below the module that has an
anchor. A node counts as anchored when an anchor lies anywhere in its subtree, also where it has none
of its own: such a node still takes the tokens before the leads of its children. -/
def RespectsBrackets (ast : AstNode) (table : BracketTable) (lexemes : List Lexeme) : Prop :=
  ∀ path node, path ≠ [] → ast.at? path = some node → node.KeepsBrackets table lexemes

end AstNode

/-- Among some positions there is a latest. -/
theorem exists_latest {positions : List Position} (some : positions ≠ []) :
    ∃ latest ∈ positions, ∀ position ∈ positions, position ≤ latest := by
  induction positions with
  | nil => exact absurd rfl some
  | cons first rest ih =>
    rcases rest with _ | ⟨second, others⟩
    · exact ⟨first, List.mem_cons_self,
        fun position member => Position.le_of_eq (List.mem_singleton.1 member)⟩
    · obtain ⟨latest, member, upTo⟩ := ih (List.cons_ne_nil _ _)
      rcases Position.le_total first latest with before | after
      · exact ⟨latest, List.mem_cons_of_mem _ member, List.forall_mem_cons.2 ⟨before, upTo⟩⟩
      · exact ⟨first, List.mem_cons_self, List.forall_mem_cons.2 ⟨Position.le_refl _,
          fun position inside => Position.le_trans (upTo position inside) after⟩⟩

/-! ### Numbers -/

theorem Lexeme.sequence_ascending (tokens : List Token) :
    (Lexeme.sequence tokens).Pairwise fun first second => first.number < second.number := by
  have numbers := (Lexeme.number_sequence tokens).1
  rw [← List.pairwise_map (f := Lexeme.number), numbers]
  exact List.pairwise_lt_range

/-- A token that occurs once cuts the sequence in one way. -/
theorem before_unique {lexemes before before' after after' : List Lexeme} {lexeme : Lexeme}
    (once : lexemes.Nodup) (parts : lexemes = before ++ lexeme :: after)
    (parts' : lexemes = before' ++ lexeme :: after') : before = before' := by
  have place {before after : List Lexeme} (parts : lexemes = before ++ lexeme :: after) :
      before.length = lexemes.idxOf lexeme := by
    rw [parts] at once
    have notBefore : lexeme ∉ before := fun member =>
      (List.nodup_append.1 once).2.2 lexeme member lexeme List.mem_cons_self rfl
    rw [parts, List.idxOf_append_of_notMem notBefore, List.idxOf_cons_self, Nat.add_zero]
  exact List.append_inj_left (parts.symm.trans parts') ((place parts).trans (place parts').symm)

namespace Zip

variable {table : BracketTable}

/-! ### Closers behind a node's content -/

/-- **A closer that trails a node is owed by it**: the innermost open bracket was opened at or after
the first token of the node's window. -/
theorem takeTrailing_owes {first line : Nat} {opened after : List OpenBracket}
    {window early late left : List Lexeme} {closer : Lexeme}
    (done : takeTrailing table first line opened window = .ok (early ++ closer :: late, left, after))
    (bracket : table.role closer.token.literal ≠ none) :
    ∃ between, table.scan opened early = .ok between ∧ owesCloser first between = true := by
  induction early generalizing line opened window with
  | nil =>
    cases window with
    | nil => cases done
    | cons lexeme rest =>
      unfold takeTrailing at done
      split at done
      · rename_i taken
        split at done
        · cases done
        · split at done
          · cases done
          · cases done
            exact ⟨opened, rfl, taken.resolve_right fun both => bracket both.2⟩
      · cases done
  | cons next early ih =>
    cases window with
    | nil => cases done
    | cons lexeme rest =>
      unfold takeTrailing at done
      split at done
      · split at done
        · cases done
        · rename_i stepped
          split at done
          · cases done
          · rename_i later
            cases done
            obtain ⟨between, scanned, owes⟩ := ih later
            exact ⟨between, (BracketTable.scan_cons_of_ok stepped).trans scanned, owes⟩
      · cases done

/-! ### Closers between the anchors -/

/-- What a visit makes is a node, so the parent owns none of its tokens. -/
theorem zipNode_owns_nothing {shape : Shape} {window : List Lexeme} {opened : List OpenBracket}
    {portion : Portion} (done : zipNode table shape window opened = .ok portion) (lexeme : Lexeme) :
    .token lexeme ∉ portion.content := by
  obtain ⟨claimed, -, closed⟩ := zipNode_shape_ok done
  rcases closeNode_ok closed with ⟨-, rfl⟩ | ⟨_, _, _, _, _, _, -, -, -, rfl⟩
  · exact List.not_mem_nil
  · intro owned
    cases List.mem_singleton.1 owned

/-- **A token that a node takes between its children starts before one of their leads.** -/
theorem owned_by_children {seats : List Seat} {window : List Lexeme} {opened : List OpenBracket}
    {portion : Portion} {lexeme : Lexeme} (ordered : StartOrdered window)
    (zipped : zipChildren table (seats.map Seat.shape) window opened = .ok portion)
    (owned : .token lexeme ∈ portion.content) : ∃ seat ∈ seats, lexeme.start < seat.lead := by
  induction seats generalizing window opened portion with
  | nil =>
    rw [zipChildren_nil_ok zipped] at owned
    cases owned
  | cons first siblings ih =>
    obtain ⟨between, node, later, -, zippedNode, rest, rfl⟩ := zipChildren_cons_ok zipped
    rcases List.mem_append.1 owned with early | late
    · rcases List.mem_append.1 early with before | inside
      · obtain ⟨other, member, same⟩ := List.mem_map.1 before
        cases same
        exact ⟨first, List.mem_cons_self, (ordered.mem_beforeLead_iff.1 member).2⟩
      · exact absurd inside (zipNode_owns_nothing zippedNode lexeme)
    · obtain ⟨seat, member, starts⟩ :=
        ih (ordered.of_inside (rest_isSuffix zippedNode).isInfix) rest late
      exact ⟨seat, List.mem_cons_of_mem _ member, starts⟩

/-- **A token that a node claims itself**, at its anchor or between its children, does not start after
the latest anchor of its subtree. -/
theorem Visit.claimed_upTo {visit : Visit} {claimed : Portion} {lexeme : Lexeme}
    (ordered : StartOrdered visit.window) (claims : visit.claim table = .ok claimed)
    (owned : .token lexeme ∈ claimed.content) :
    ∃ anchor ∈ visit.seat.node.anchors, lexeme.start ≤ anchor := by
  by_cases leaf : visit.seat.children = []
  · rw [claim_of_leaf leaf] at claims
    rcases claimAnchor_ok claims with ⟨first, rest, after, -, anchored, -, rfl⟩ | ⟨-, rfl⟩
    · cases List.mem_singleton.1 owned
      exact ⟨lexeme.start, AstNode.mem_anchors_iff.2 (Or.inl anchored), Position.le_refl _⟩
    · cases owned
  · rw [claim_of_children leaf] at claims
    obtain ⟨seat, member, starts⟩ := owned_by_children ordered claims owned
    exact ⟨seat.lead, Seat.anchors_of_mem_children member _ seat.lead_mem, Position.le_of_lt starts⟩

/-! ### The owner of a closer -/

section Owner

variable {ast : AstNode} {tokens : List Token} {origin path : Path} {visit : Visit} {node : Node}
  {opener closer : Lexeme}

/-- The opener of a closer behind a node's content: it is not before the node's window. -/
theorem Visit.opener_of_trailing {claimed : Portion} {first : Lexeme}
    {rest trailing left : List Lexeme}
    {line : Nat} {after : List OpenBracket}
    (visits : Visits table (Seat.ofNodes ast.children) (Lexeme.sequence tokens) [] origin path visit)
    (claims : visit.claim table = .ok claimed) (window : visit.window = first :: rest)
    (taken : takeTrailing table first.number line claimed.opened claimed.rest =
      .ok (trailing, left, after))
    (trails : closer ∈ trailing) (matched : table.Matches (Lexeme.sequence tokens) opener closer) :
    opener ∈ Element.lexemesOf claimed.content ++ trailing := by
  obtain ⟨before, later, innermost, outer, parts, scanned, role, inBefore, number⟩ := matched
  obtain ⟨early, late, rfl⟩ := List.append_of_mem trails
  obtain ⟨outside, beyond, whole, scannedOutside⟩ := visits.window_parts
  have takes := Visit.claim_takes claims
  have cut : visit.window =
      Element.lexemesOf claimed.content ++ (early ++ closer :: late ++ left) := by
    rw [takeTrailing_append taken, takes.keeps]
  have around : Lexeme.sequence tokens = (outside ++ (Element.lexemesOf claimed.content ++ early)) ++
      closer :: (late ++ left ++ beyond) := by
    rw [whole, cut]
    simp only [List.append_assoc, List.cons_append]
  have before_eq := before_unique (Lexeme.nodup_sequence tokens) parts around
  -- The bracket that is innermost open before the closer is the one that the node owes.
  obtain ⟨between, scannedEarly, owes⟩ := takeTrailing_owes taken (by rw [role]; exact nofun)
  rw [before_eq, BracketTable.scan_append_of_ok scannedOutside,
    BracketTable.scan_append_of_ok takes.scans, scannedEarly] at scanned
  cases scanned
  have notBefore : first.number ≤ opener.number := number ▸ of_decide_eq_true owes
  rw [before_eq] at inBefore
  rcases List.mem_append.1 inBefore with isOutside | inside
  · have ascending := Lexeme.sequence_ascending tokens
    rw [whole, List.append_assoc] at ascending
    have less := (List.pairwise_append.1 ascending).2.2 opener isOutside first
      (List.mem_append_left _ (window ▸ List.mem_cons_self))
    omega
  · rcases List.mem_append.1 inside with claimedIt | trailsIt
    · exact List.mem_append_left _ claimedIt
    · exact List.mem_append_right _ (List.mem_append_left _ trailsIt)

/-- The opener of a closer that a node claims: it starts between the node's lead and the closer. -/
theorem Visit.opener_of_claimed {claimed : Portion} (ordered : StartOrdered (Lexeme.sequence tokens))
    (respects : ast.RespectsBrackets table (Lexeme.sequence tokens))
    (visits : Visits table (Seat.ofNodes ast.children) (Lexeme.sequence tokens) [] origin path visit)
    (claims : visit.claim table = .ok claimed) (owned : .token closer ∈ claimed.content)
    (matched : table.Matches (Lexeme.sequence tokens) opener closer) :
    opener ∈ Element.lexemesOf claimed.content := by
  have keeps := (Visit.claim_takes claims).keeps
  have inClaimed : closer ∈ Element.lexemesOf claimed.content :=
    (Element.lexemes_infix_of_mem owned).subset List.mem_cons_self
  have sorted := Seat.sorted_ofNodes ast.children
  have closerWithin := ((visits.mem_window_iff ordered sorted).1
    (keeps ▸ List.mem_append_left _ inClaimed)).2
  obtain ⟨before, later, innermost, outer, parts, -, -, inBefore, -⟩ := id matched
  have startsBefore : opener.start ≤ closer.start := by
    have pairs : StartOrdered (before ++ closer :: later) := parts ▸ ordered
    exact (List.pairwise_append.1 pairs).2.2 opener inBefore closer List.mem_cons_self
  have numberBefore : opener.number < closer.number := by
    have pairs := Lexeme.sequence_ascending tokens
    rw [parts] at pairs
    exact (List.pairwise_append.1 pairs).2.2 opener inBefore closer List.mem_cons_self
  have fromLead : visit.seat.lead ≤ opener.start := by
    obtain ⟨anchor, anchored, upTo⟩ :=
      Visit.claimed_upTo (ordered.of_inside visits.window_inside) claims owned
    obtain ⟨latest, isAnchor, last⟩ := exists_latest (List.ne_nil_of_mem anchored)
    have notBefore := respects origin visit.seat.node visits.origin_ne_nil visits.ast_at? _
      visit.seat.lead_mem latest isAnchor
      (fun position member => ⟨visit.seat.lead_le position member, last position member⟩)
      opener closer matched closerWithin.fromLead (Position.le_trans upTo (last anchor anchored))
    rw [Position.lt_iff_not_le] at notBefore
    exact Classical.not_not.1 notBefore
  have inWindow : opener ∈ visit.window := by
    refine (visits.mem_window_iff ordered sorted).2 ⟨?_, fromLead, fun sibling isLater => ?_⟩
    · rw [parts]
      exact List.mem_append_left _ inBefore
    · exact Position.lt_of_le_of_lt startsBefore (closerWithin.beforeLater sibling isLater)
  rw [← keeps] at inWindow
  refine (List.mem_append.1 inWindow).resolve_right fun isRest => ?_
  have ascending := (Lexeme.sequence_ascending tokens).sublist visits.window_inside.sublist
  rw [← keeps] at ascending
  have more := (List.pairwise_append.1 ascending).2.2 closer inClaimed opener isRest
  omega

/-- **The opener lies in the subtree of the node that owns the closer**, for a node below the root. -/
theorem Visit.Makes.opener_mem (ordered : StartOrdered (Lexeme.sequence tokens))
    (respects : ast.RespectsBrackets table (Lexeme.sequence tokens))
    (visits : Visits table (Seat.ofNodes ast.children) (Lexeme.sequence tokens) [] origin path visit)
    (makes : visit.Makes table node) (owned : .token closer ∈ node.content)
    (matched : table.Matches (Lexeme.sequence tokens) opener closer) : opener ∈ node.lexemes := by
  obtain ⟨claimed, first, rest, last, trailing, left, after, claims, window, -, taken, rfl⟩ :=
    makes.over
  rw [Node.lexemes, Node.ofContent, Element.lexemesOf_append_tokens]
  rcases List.mem_append.1 owned with isClaimed | trails
  · exact List.mem_append_left _
      (Visit.opener_of_claimed ordered respects visits claims isClaimed matched)
  · obtain ⟨other, member, same⟩ := List.mem_map.1 trails
    cases same
    exact Visit.opener_of_trailing visits claims window taken member matched

end Owner

end Zip

/-- **Closers stay with their openers.** Zip tokens that are ordered by their starts with a syntax
tree that respects the brackets, with the source or without it. Then the node that owns a closer is
the node that owns the opener which it closes, or a node around that one. -/
theorem zip_closerOwner {config : TokenConfig} {source : Option String} {tokens : List Token}
    {ast : AstNode} {root : Node}
    (zipped : zipOutput config ⟨source, tokens, some ast⟩ = .ok (.tree root))
    (ordered : StartOrdered (Lexeme.sequence (cellTokens config source tokens)))
    (respects : ast.RespectsBrackets (.ofConfig config)
      (Lexeme.sequence (cellTokens config source tokens)))
    {opener closer : Lexeme}
    (matched : (BracketTable.ofConfig config).Matches
      (Lexeme.sequence (cellTokens config source tokens)) opener closer)
    {openerPath closerPath : Path} (ownsOpener : root.Owns openerPath opener)
    (ownsCloser : root.Owns closerPath closer) : closerPath <+: openerPath := by
  have done := zipModule_of_zipOutput zipped
  by_cases isRoot : closerPath = []
  · rw [isRoot]
    exact List.nil_prefix
  · obtain ⟨node, found, owned⟩ := ownsCloser
    obtain ⟨origin, visit, visits, makes⟩ := Zip.exists_made done isRoot found
    obtain ⟨below, inner, reached, ownedInside⟩ :=
      Node.exists_owner (makes.opener_mem ordered respects visits owned matched)
    have ownsInside : root.Owns (closerPath ++ below) opener :=
      ⟨inner, (Node.at?_append_of_at? found below).trans reached, ownedInside⟩
    have distinct : (root.lexemes.map Lexeme.number).Nodup := by
      rw [Zip.zipModule_lexemes done, (Lexeme.number_sequence _).1]
      exact List.nodup_range
    rw [Node.owns_unique distinct ownsOpener ownsInside rfl]
    exact List.prefix_append _ _

/-- The syntax tree of `callOutput` respects the brackets: the one closer lies inside the call, which
begins the text, and at no other anchor. -/
theorem callOutput_respects : (callOutput.ast.get rfl).RespectsBrackets (.ofConfig {})
    (Lexeme.sequence (cellTokens {} callOutput.source callOutput.tokens)) := by
  have closers : ∀ opener closer, (BracketTable.ofConfig {}).Matches
      (Lexeme.sequence (cellTokens {} callOutput.source callOutput.tokens)) opener closer →
        closer.start = ⟨1, 2⟩ := by
    rintro opener closer ⟨before, after, innermost, outer, parts, -, role, -⟩
    have only : ∀ lexeme ∈ Lexeme.sequence (cellTokens {} callOutput.source callOutput.tokens),
        lexeme.start = ⟨1, 2⟩ ∨
          (BracketTable.ofConfig {}).role lexeme.token.literal = none ∨
          (BracketTable.ofConfig {}).role lexeme.token.literal = some (.opens ')') := by
      decide
    have member : closer ∈ before ++ closer :: after :=
      List.mem_append_right _ List.mem_cons_self
    rw [← parts] at member
    rcases only closer member with here | none | opens
    · exact here
    · rw [none] at role
      cases role
    · rw [opens] at role
      cases role
  let keeps (node : AstNode) : Prop := node.KeepsBrackets (.ofConfig {})
    (Lexeme.sequence (cellTokens {} callOutput.source callOutput.tokens))
  intro path node below found
  obtain ⟨number, rest, rfl⟩ := List.exists_cons_of_ne_nil below
  obtain ⟨call, isCall, inside⟩ := AstNode.at?_cons.1 found
  obtain rfl := List.mem_singleton.1 (List.mem_of_getElem? isCall)
  refine @AstNode.forall_at?_of_children keeps _ ?_ (fun leaf isLeaf => ?_) rest node inside
  · intro earliest _ latest _ bounds opener closer _ _ _ before
    exact Position.lt_iff_not_le.1 before
      (Position.le_trans (bounds ⟨0, 0⟩ (by decide)).1 (Position.origin_le _))
  · have elsewhere : ∀ leaf ∈ ((callOutput.ast.get rfl).children.head (by decide)).children,
        leaf.children.length = 0 ∧ ∀ earliest ∈ leaf.anchors, ∀ latest ∈ leaf.anchors,
          ¬ (earliest ≤ ⟨1, 2⟩ ∧ (⟨1, 2⟩ : Position) ≤ latest) := by
      decide
    obtain ⟨alone, apart⟩ := elsewhere leaf isLeaf
    refine @AstNode.forall_at?_of_children keeps _ ?_ fun child isChild => ?_
    · intro earliest isEarliest latest isLatest _ opener closer matched after upTo _
      rw [closers opener closer matched] at after upTo
      exact apart earliest isEarliest latest isLatest ⟨after, upTo⟩
    · rw [List.length_eq_zero_iff.1 alone] at isChild
      cases isChild

/-- In the tree of `callOutput` the call owns both brackets. -/
theorem zip_closerOwner_callOutput : ∃ root,
    zipOutput {} callOutput = .ok (.tree root) ∧
      StartOrdered (Lexeme.sequence (cellTokens {} callOutput.source callOutput.tokens)) ∧
      (BracketTable.ofConfig {}).Matches
        (Lexeme.sequence (cellTokens {} callOutput.source callOutput.tokens))
        ⟨1, ⟨"OP", ⟨⟨0, 1⟩, ⟨0, 2⟩⟩, "("⟩⟩ ⟨7, ⟨"OP", ⟨⟨1, 2⟩, ⟨1, 3⟩⟩, ")"⟩⟩ ∧
      root.Owns [0] ⟨1, ⟨"OP", ⟨⟨0, 1⟩, ⟨0, 2⟩⟩, "("⟩⟩ ∧
      root.Owns [0] ⟨7, ⟨"OP", ⟨⟨1, 2⟩, ⟨1, 3⟩⟩, ")"⟩⟩ ∧ [0] <+: [0] := by
  have ordered : StartOrdered (Lexeme.sequence
      (cellTokens {} callOutput.source callOutput.tokens)) := by
    unfold StartOrdered
    decide
  have matched : (BracketTable.ofConfig {}).Matches
      (Lexeme.sequence (cellTokens {} callOutput.source callOutput.tokens))
      ⟨1, ⟨"OP", ⟨⟨0, 1⟩, ⟨0, 2⟩⟩, "("⟩⟩ ⟨7, ⟨"OP", ⟨⟨1, 2⟩, ⟨1, 3⟩⟩, ")"⟩⟩ :=
    ⟨(Lexeme.sequence (cellTokens {} callOutput.source callOutput.tokens)).take 7,
      (Lexeme.sequence (cellTokens {} callOutput.source callOutput.tokens)).drop 8,
      ⟨')', 1⟩, [], by decide, rfl, rfl, by decide, rfl⟩
  obtain ⟨root, zipped, listsOpener, listsCloser⟩ : ∃ root,
      zipOutput {} callOutput = .ok (.tree root) ∧
        ([0], ⟨1, ⟨"OP", ⟨⟨0, 1⟩, ⟨0, 2⟩⟩, "("⟩⟩) ∈ root.owners ∧
        ([0], ⟨7, ⟨"OP", ⟨⟨1, 2⟩, ⟨1, 3⟩⟩, ")"⟩⟩) ∈ root.owners :=
    ⟨_, rfl, by decide +kernel, by decide +kernel⟩
  have ownsOpener := Node.mem_owners_iff.1 listsOpener
  have ownsCloser := Node.mem_owners_iff.1 listsCloser
  exact ⟨root, zipped, ordered, matched, ownsOpener, ownsCloser,
    zip_closerOwner zipped ordered callOutput_respects matched ownsOpener ownsCloser⟩

end CellSyntax
