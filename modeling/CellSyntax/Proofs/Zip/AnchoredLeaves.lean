/-
**Anchored leaves are never lost.**

A leaf of the anchored part of a syntax tree claims the token at its anchor, provided that this token
is the first of its window. Where the tokens are ordered by their starts, its window is the stretch
from its anchor up to the first lead of what follows it. If the syntax tree is separated, that is, if
the subtrees of siblings lie apart, then the anchor itself is in the stretch, so the window begins
with the first token at the anchor. Hence the leaf has its node, and so does every node around it.

* `Zip.Visits.apart`: in a separated tree, nothing that follows a node leads before its anchors;
* `Zip.Visits.window_head`: the first token of the window of a leaf;
* `zip_anchoredLeaves`: the leaves and the nodes around them.
-/

import CellSyntax.Proofs.Zip.Made

namespace CellSyntax

/-! ### Separated syntax trees -/

/-- Every anchor in the subtree of the first lies before the lead of the second. -/
def Seat.Apart (first second : Seat) : Prop :=
  ∀ anchor ∈ first.node.anchors, anchor < second.lead

instance (first second : Seat) : Decidable (first.Apart second) :=
  inferInstanceAs (Decidable (∀ anchor ∈ first.node.anchors, anchor < second.lead))

instance : IsTrans Seat Seat.Apart where
  trans _ second _ left right anchor member :=
    Position.lt_of_lt_of_le (left anchor member)
      (Position.le_of_lt (right second.lead second.lead_mem))

namespace AstNode

/-- **A separated syntax tree**: among the children of each node, in the order of their leads, every
anchor in the subtree of one lies before the lead of the next. -/
def Separated (ast : AstNode) : Prop :=
  ∀ path node, ast.at? path = some node → (Seat.ofNodes node.children).IsChain Seat.Apart

/-- **A leaf of the anchored part of a syntax tree**: a node with an anchor and none further down. -/
structure AnchoredLeaf (node : AstNode) (anchor : Position) : Prop where
  own : node.anchor = some anchor
  below : ∀ child ∈ node.children, child.anchors = []

variable {ast node child : AstNode} {anchor : Position}

theorem Separated.of_child (separated : ast.Separated) {number : Nat}
    (isChild : ast.children[number]? = some child) : child.Separated :=
  fun path node found => separated (number :: path) node (at?_cons.2 ⟨child, isChild, found⟩)

/-- A tree is separated if the children of its root are apart and each of them is separated. -/
theorem separated_of_children (apart : (Seat.ofNodes ast.children).IsChain Seat.Apart)
    (children : ∀ child ∈ ast.children, child.Separated) : ast.Separated :=
  forall_at?_of_children apart children

theorem separated_of_leaf (leaf : ast.children = []) : ast.Separated :=
  separated_of_children (leaf ▸ .nil) fun child member => by
    rw [leaf] at member
    cases member

theorem AnchoredLeaf.anchors (leaf : node.AnchoredLeaf anchor) :
    ∀ position, position ∈ node.anchors ↔ position = anchor := by
  intro position
  rw [mem_anchors_iff, leaf.own, Option.some.injEq]
  constructor
  · rintro (same | ⟨child, isChild, inside⟩)
    · exact same.symm
    · rw [leaf.below child isChild] at inside
      cases inside
  · exact fun same => Or.inl same.symm

end AstNode

namespace Zip

variable {table : BracketTable} {ast : AstNode} {window : List Lexeme} {tokens : List Token}
  {opened : List OpenBracket} {origin path : Path} {visit : Visit} {anchor : Position} {root : Node}

/-- **In a separated tree, nothing that follows a node leads before one of its anchors.** -/
theorem Visits.apart (separated : ast.Separated)
    (visits : Visits table (Seat.ofNodes ast.children) window opened origin path visit) :
    ∀ anchor ∈ visit.seat.node.anchors, ∀ sibling ∈ visit.later, anchor < sibling.lead := by
  generalize isSeats : Seat.ofNodes ast.children = seats at visits
  induction visits generalizing ast with
  | child visits =>
    obtain ⟨earlier, whole⟩ := visits.seats_eq
    have pairs := (separated [] ast rfl).pairwise
    rw [isSeats, whole] at pairs
    have ahead := (List.pairwise_cons.1 (List.pairwise_append.1 pairs).2.1).1
    exact fun anchor member sibling later => ahead sibling later anchor member
  | @inside seats window opened index origin path outer visit visits inner ih =>
    obtain ⟨earlier, whole⟩ := visits.seats_eq
    have pairs := (separated [] ast rfl).pairwise
    rw [isSeats, whole] at pairs
    have ahead := (List.pairwise_cons.1 (List.pairwise_append.1 pairs).2.1).1
    have member := visits.seat_mem
    rw [← isSeats] at member
    have within := ih (separated.of_child (Seat.mem_ofNodes_iff.1 member)) rfl
    intro anchor inside sibling later
    rcases List.mem_append.1 later with near | far
    · exact within anchor inside sibling near
    · exact ahead sibling far anchor (AstNode.anchors_of_at? inner.ast_at? anchor inside)

/-- **The window of a leaf begins with the first token at its anchor**, if there is one. -/
theorem Visits.window_head (separated : ast.Separated)
    (ordered : StartOrdered (Lexeme.sequence tokens))
    (visits : Visits table (Seat.ofNodes ast.children) (Lexeme.sequence tokens) [] origin path visit)
    (leaf : visit.seat.node.AnchoredLeaf anchor) {first : Lexeme}
    (isFirst : (Lexeme.sequence tokens).find? (fun lexeme => lexeme.start = anchor) = some first) :
    ∃ rest, visit.window = first :: rest := by
  have anchored : anchor ∈ visit.seat.node.anchors := (leaf.anchors anchor).2 rfl
  have lead : visit.seat.lead = anchor := (leaf.anchors _).1 visit.seat.lead_mem
  have inWindow {lexeme : Lexeme} (member : lexeme ∈ Lexeme.sequence tokens)
      (starts : lexeme.start = anchor) : lexeme ∈ visit.window := by
    refine (visits.mem_window_iff ordered (Seat.sorted_ofNodes _)).2 ⟨member, ?_, ?_⟩
    · rw [starts, lead]
      exact Position.le_refl _
    · rw [starts]
      exact visits.apart separated anchor anchored
  have firstStarts : first.start = anchor := by simpa using List.find?_some isFirst
  have firstInside := inWindow (List.mem_of_find?_eq_some isFirst) firstStarts
  obtain ⟨before, after, parts, -⟩ := visits.window_parts
  obtain ⟨head, rest, window⟩ := List.exists_cons_of_ne_nil (List.ne_nil_of_mem firstInside)
  have headStarts : head.start = anchor := by
    have inside : head ∈ visit.window := window ▸ List.mem_cons_self
    refine Position.le_antisymm ?_ ?_
    · rw [window] at firstInside
      rcases List.mem_cons.1 firstInside with rfl | later
      · exact Position.le_of_eq firstStarts
      · have orderedWindow := ordered.of_inside visits.window_inside
        rw [window] at orderedWindow
        exact firstStarts ▸ (List.pairwise_cons.1 orderedWindow).1 first later
    · exact lead ▸ ((visits.mem_window_iff ordered (Seat.sorted_ofNodes _)).1 inside).2.fromLead
  -- A token at the anchor is in the window, so the search passes all that comes before it.
  have noneBefore : before.find? (fun lexeme => lexeme.start = anchor) = none := by
    rw [List.find?_eq_none]
    intro lexeme member starts
    have once := Lexeme.nodup_sequence tokens
    rw [parts, List.append_assoc] at once
    refine (List.nodup_append.1 once).2.2 lexeme member lexeme (List.mem_append_left _ ?_) rfl
    refine inWindow ?_ (of_decide_eq_true starts)
    rw [parts, List.append_assoc]
    exact List.mem_append_left _ member
  rw [parts, window, List.append_assoc, List.find?_append, noneBefore, Option.none_or,
    List.cons_append, List.find?_cons_of_pos (by simpa using headStarts)] at isFirst
  cases isFirst
  exact ⟨rest, window⟩

/-- **A leaf whose window begins with a token at its anchor makes a node that begins with it.** -/
theorem Visit.makes_of_head {portion : Portion} {first : Lexeme} {rest : List Lexeme}
    (done : visit.outcome table = .ok portion)
    (leaf : visit.seat.node.AnchoredLeaf first.start) (window : visit.window = first :: rest) :
    ∃ node, visit.Makes table node ∧ node.lexemes.head? = some first := by
  have noChildren : visit.seat.children = [] := by
    rw [List.eq_nil_iff_forall_not_mem]
    intro seat member
    have none := leaf.below seat.node (Seat.node_mem_of_mem_ofNodes member)
    exact List.ne_nil_of_mem seat.lead_mem none
  obtain ⟨claimed, claims, -⟩ := Visit.outcome_ok done
  have claims' := claims
  rw [Visit.claim_of_leaf noChildren, leaf.own, window] at claims'
  rcases claimAnchor_ok claims' with ⟨head, _, after, whole, -, -, rfl⟩ | ⟨elsewhere, -⟩
  · cases whole
    obtain ⟨node, makes⟩ := Visit.makes_of_claimed done claims (List.cons_ne_nil _ _)
    refine ⟨node, makes, ?_⟩
    obtain ⟨other, _, _, _, trailing, _, _, claims'', -, -, -, rfl⟩ := makes.over
    cases claims.symm.trans claims''
    rfl
  · exact absurd rfl (elsewhere first rfl)

end Zip

/-- **Anchored leaves are never lost.** Zip tokens that are ordered by their starts with a separated
syntax tree, with the source or without it. If some token starts at the anchor of a leaf below the
module, then the leaf has its node in the tree of the cell, the first token of that node's subtree is
the first token at the anchor, and every node around the leaf has its node in the tree too. -/
theorem zip_anchoredLeaves {config : TokenConfig} {source : Option String} {tokens : List Token}
    {ast : AstNode} {root : Node}
    (zipped : zipOutput config ⟨source, tokens, some ast⟩ = .ok (.tree root))
    (ordered : StartOrdered (Lexeme.sequence (cellTokens config source tokens)))
    (separated : ast.Separated) {origin : Path} {leaf : AstNode} {anchor : Position}
    (below : origin ≠ []) (isLeaf : ast.at? origin = some leaf) (anchored : leaf.AnchoredLeaf anchor)
    (covered : ∃ token ∈ cellTokens config source tokens, token.range.start = anchor) :
    let made := Zip.Made (.ofConfig config) ast (cellTokens config source tokens)
    (∃ path node first, made origin path node ∧ root.at? path = some node ∧
      node.lexemes.head? = some first ∧
      (Lexeme.sequence (cellTokens config source tokens)).find?
        (fun lexeme => lexeme.start = anchor) = some first) ∧
    ∀ outer, outer ≠ [] → outer <+: origin →
      ∃ path node, made outer path node ∧ root.at? path = some node := by
  intro made
  have done := zipModule_of_zipOutput zipped
  obtain ⟨children, zippedChildren, -⟩ := Zip.zipModule_children done
  obtain ⟨path, visit, visits, rfl⟩ := Zip.exists_visits
    (Seat.map_shape_ofNodes ast.children ▸ zippedChildren) below isLeaf
    ((anchored.anchors anchor).2 rfl)
  obtain ⟨first, isFirst⟩ : ∃ first, (Lexeme.sequence (cellTokens config source tokens)).find?
      (fun lexeme => lexeme.start = anchor) = some first := by
    rw [← Option.isSome_iff_exists, List.find?_isSome]
    obtain ⟨token, member, starts⟩ := covered
    rw [← (Lexeme.number_sequence (cellTokens config source tokens)).2] at member
    obtain ⟨lexeme, inside, rfl⟩ := List.mem_map.1 member
    exact ⟨lexeme, inside, decide_eq_true starts⟩
  have starts : first.start = anchor := by simpa using List.find?_some isFirst
  obtain ⟨rest, window⟩ := visits.window_head separated ordered anchored isFirst
  obtain ⟨portion, outcome⟩ := visits.outcome_ok zippedChildren
  obtain ⟨node, makes, head⟩ := Zip.Visit.makes_of_head outcome (starts.symm ▸ anchored) window
  have isMade : made origin path node := ⟨visit, visits, makes⟩
  refine ⟨⟨path, node, first, isMade, isMade.at? done, head, isFirst⟩, fun outer notRoot around => ?_⟩
  obtain ⟨above, found, madeAbove⟩ := isMade.above done notRoot around
  exact ⟨above, found, madeAbove, madeAbove.at? done⟩

/-- A separated syntax tree for the tokens of `callOutput`. The children of the call do not stand in
the order of their anchors, and the call has none of its own. -/
def separatedAst : AstNode :=
  ⟨"Module", none, [⟨"Call", none, [⟨"Name", some ⟨1, 1⟩, []⟩, ⟨"Name", some ⟨0, 0⟩, []⟩,
    ⟨"Load", none, []⟩, ⟨"Name", some ⟨0, 2⟩, []⟩]⟩]⟩

theorem separatedAst_separated : separatedAst.Separated := by
  refine AstNode.separated_of_children (by decide) fun child member => ?_
  obtain rfl := List.mem_singleton.1 member
  refine AstNode.separated_of_children (by decide) fun leaf isLeaf => ?_
  refine AstNode.separated_of_leaf ?_
  revert leaf
  decide

/-- In the tree of `f(a,⏎ b)⏎`, the leaf on the second line and the call around it. -/
theorem zip_anchoredLeaves_secondLine : ∃ root,
    zipOutput {} ⟨callOutput.source, callOutput.tokens, some separatedAst⟩ = .ok (.tree root) ∧
      StartOrdered (Lexeme.sequence (cellTokens {} callOutput.source callOutput.tokens)) ∧
      separatedAst.Separated ∧
      ((∃ path node first, Zip.Made (.ofConfig {}) separatedAst
            (cellTokens {} callOutput.source callOutput.tokens) [0, 0] path node ∧
          root.at? path = some node ∧ node.lexemes.head? = some first ∧
          (Lexeme.sequence (cellTokens {} callOutput.source callOutput.tokens)).find?
            (fun lexeme => lexeme.start = ⟨1, 1⟩) = some first) ∧
        ∀ outer, outer ≠ [] → outer <+: [0, 0] → ∃ path node,
          Zip.Made (.ofConfig {}) separatedAst (cellTokens {} callOutput.source callOutput.tokens)
            outer path node ∧ root.at? path = some node) := by
  have ordered : StartOrdered (Lexeme.sequence
      (cellTokens {} callOutput.source callOutput.tokens)) := by
    unfold StartOrdered
    decide
  exact ⟨_, rfl, ordered, separatedAst_separated,
    zip_anchoredLeaves rfl ordered separatedAst_separated (by decide) rfl ⟨rfl, by decide⟩
      (by decide)⟩

end CellSyntax
