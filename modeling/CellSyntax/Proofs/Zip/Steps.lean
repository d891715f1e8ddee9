/-
**What a zip can do in one step.**

Each function of the zipper is taken apart once: what it must have done if it succeeded, and where
the mismatch came from if it failed. A fact about whole zips is then proved with `zip_induction`,
which goes through nodes and siblings as the zipper does, and never opens a definition again.

* `zipModule_ok`, `zipChildren_cons_ok`, `zipNode_ok`, `claimAnchor_ok`, `closeNode_ok`: what a
  success is made of;
* `zipModule_error`, `zipChildren_cons_error`, `zipNode_error`, `claimAnchor_error`,
  `closeNode_error`: where a mismatch comes from;
* `zip_induction`: a fact on nodes and a fact on lists of siblings, proved together.
-/

import CellSyntax.Zip.Zipper

namespace CellSyntax.Zip

variable {table : BracketTable}

/-- What a node claims before the tokens that trail it: by its anchor if it is a leaf, else by its
children. -/
def claim (table : BracketTable) (anchor : Option Position) (children : List Shape)
    (window : List Lexeme) (opened : List OpenBracket) : Except BracketMismatch Portion :=
  if children.isEmpty then claimAnchor table anchor window opened
  else zipChildren table children window opened

theorem zipNode_eq (kind : String) (anchor : Option Position) (lead : Position)
    (children : List Shape) (window : List Lexeme) (opened : List OpenBracket) :
    zipNode table ⟨kind, anchor, lead, children⟩ window opened =
      match claim table anchor children window opened with
      | .error mismatch => .error mismatch
      | .ok claimed => closeNode table kind window claimed := by
  rw [zipNode]
  rfl

/-! ### Successes -/

section Success

variable {kind : String} {anchor : Option Position} {lead : Position} {child : Shape}
  {children siblings : List Shape} {window : List Lexeme} {opened : List OpenBracket}
  {claimed portion : Portion}

/-- A leaf claims the token at its anchor, or nothing. -/
theorem claimAnchor_ok (done : claimAnchor table anchor window opened = .ok portion) :
    (∃ first rest after, window = first :: rest ∧ anchor = some first.start ∧
      table.step opened first = .ok after ∧ portion = ⟨[.token first], rest, after⟩) ∨
    ((∀ first, window.head? = some first → anchor ≠ some first.start) ∧
      portion = ⟨[], window, opened⟩) := by
  unfold claimAnchor at done
  split at done
  · cases done
    exact Or.inr ⟨fun first found => (Option.some_ne_none first found.symm).elim, rfl⟩
  · rename_i first rest
    split at done
    · rename_i anchored
      split at done
      · cases done
      · rename_i after stepped
        cases done
        exact Or.inl ⟨first, rest, after, rfl, anchored, stepped, rfl⟩
    · rename_i elsewhere
      cases done
      refine Or.inr ⟨fun other found => ?_, rfl⟩
      cases found
      exact elsewhere

/-- A node is dropped and leaves its window as it was, or it takes what trails its content. -/
theorem closeNode_ok (done : closeNode table kind window claimed = .ok portion) :
    ((window = [] ∨ claimed.content = []) ∧ portion = ⟨[], window, claimed.opened⟩) ∨
    ∃ first rest last trailing left after, window = first :: rest ∧
      claimed.content.getLast? = some last ∧
      takeTrailing table first.number last.range.stop.line claimed.opened claimed.rest =
        .ok (trailing, left, after) ∧
      portion = ⟨[(Node.ofContent kind (claimed.content ++ trailing.map .token)).element],
        left, after⟩ := by
  rcases window with _ | ⟨first, rest⟩
  · cases done
    exact Or.inl ⟨Or.inl rfl, rfl⟩
  · unfold closeNode at done
    cases ends : claimed.content.getLast? with
    | none =>
      rw [ends] at done
      cases done
      exact Or.inl ⟨Or.inr (List.getLast?_eq_none_iff.1 ends), rfl⟩
    | some last =>
      rw [ends] at done
      simp only at done
      split at done
      · cases done
      · rename_i trailing left after taken
        cases done
        exact Or.inr ⟨first, rest, last, trailing, left, after, rfl, rfl, taken, rfl⟩

theorem zipNode_ok
    (done : zipNode table ⟨kind, anchor, lead, children⟩ window opened = .ok portion) :
    ∃ claimed, claim table anchor children window opened = .ok claimed ∧
      closeNode table kind window claimed = .ok portion := by
  rw [zipNode_eq] at done
  split at done
  · cases done
  · rename_i claimed claims
    exact ⟨claimed, claims, done⟩

theorem zipChildren_nil_ok (done : zipChildren table [] window opened = .ok portion) :
    portion = ⟨[], window, opened⟩ := by
  rw [zipChildren] at done
  cases done
  rfl

/-- The tokens before a child go to the parent, then come the child and its later siblings. -/
theorem zipChildren_cons_ok
    (done : zipChildren table (child :: siblings) window opened = .ok portion) :
    ∃ between node later,
      table.scan opened (beforeLead child.lead window) = .ok between ∧
      zipNode table child (beforeSibling siblings (fromLead child.lead window)) between = .ok node ∧
      zipChildren table siblings (node.rest ++ fromSibling siblings (fromLead child.lead window))
        node.opened = .ok later ∧
      portion = ⟨(beforeLead child.lead window).map .token ++ node.content ++ later.content,
        later.rest, later.opened⟩ := by
  rw [zipChildren] at done
  split at done
  · cases done
  · rename_i between scanned
    split at done
    · cases done
    · rename_i node zipped
      split at done
      · cases done
      · rename_i later rest
        cases done
        exact ⟨between, node, later, scanned, zipped, rest, rfl⟩

/-- The root takes what its children leave. -/
theorem zipModule_ok {ast : AstNode} {tokens : List Token} {root : Node}
    (done : zipModule table ast tokens = .ok root) :
    ∃ children after,
      zipChildren table (Shape.ofNodes ast.children) (Lexeme.sequence tokens) [] = .ok children ∧
      table.scan children.opened children.rest = .ok after ∧
      root = .ofContent ast.kind (children.content ++ children.rest.map .token) := by
  unfold zipModule at done
  split at done
  · cases done
  · rename_i children zipped
    split at done
    · cases done
    · rename_i after scanned
      cases done
      exact ⟨children, after, zipped, scanned, rfl⟩

end Success

/-! ### Mismatches -/

section Failure

variable {kind : String} {anchor : Option Position} {lead : Position} {child : Shape}
  {children siblings : List Shape} {window : List Lexeme} {opened : List OpenBracket}
  {claimed : Portion} {mismatch : BracketMismatch}

theorem claimAnchor_error (failed : claimAnchor table anchor window opened = .error mismatch) :
    ∃ first rest, window = first :: rest ∧ table.step opened first = .error mismatch := by
  unfold claimAnchor at failed
  split at failed
  · cases failed
  · rename_i first rest
    split at failed
    · split at failed
      · rename_i stepped
        cases failed
        exact ⟨first, rest, rfl, stepped⟩
      · cases failed
    · cases failed

theorem closeNode_error (failed : closeNode table kind window claimed = .error mismatch) :
    ∃ first line, takeTrailing table first line claimed.opened claimed.rest = .error mismatch := by
  unfold closeNode at failed
  split at failed
  · split at failed
    · rename_i trailing
      cases failed
      exact ⟨_, _, trailing⟩
    · cases failed
  · cases failed

theorem zipNode_error
    (failed : zipNode table ⟨kind, anchor, lead, children⟩ window opened = .error mismatch) :
    claim table anchor children window opened = .error mismatch ∨
    ∃ claimed, claim table anchor children window opened = .ok claimed ∧
      closeNode table kind window claimed = .error mismatch := by
  rw [zipNode_eq] at failed
  split at failed
  · rename_i claims
    cases failed
    exact Or.inl claims
  · rename_i claimed claims
    exact Or.inr ⟨claimed, claims, failed⟩

theorem zipChildren_cons_error
    (failed : zipChildren table (child :: siblings) window opened = .error mismatch) :
    table.scan opened (beforeLead child.lead window) = .error mismatch ∨
    ∃ between, table.scan opened (beforeLead child.lead window) = .ok between ∧
      (zipNode table child (beforeSibling siblings (fromLead child.lead window)) between =
          .error mismatch ∨
        ∃ node,
          zipNode table child (beforeSibling siblings (fromLead child.lead window)) between =
            .ok node ∧
          zipChildren table siblings
            (node.rest ++ fromSibling siblings (fromLead child.lead window)) node.opened =
              .error mismatch) := by
  rw [zipChildren] at failed
  split at failed
  · rename_i scanned
    cases failed
    exact Or.inl scanned
  · rename_i between scanned
    split at failed
    · rename_i zipped
      cases failed
      exact Or.inr ⟨between, scanned, Or.inl zipped⟩
    · rename_i node zipped
      split at failed
      · rename_i rest
        cases failed
        exact Or.inr ⟨between, scanned, Or.inr ⟨node, zipped, rest⟩⟩
      · cases failed

theorem zipModule_error {ast : AstNode} {tokens : List Token}
    (failed : zipModule table ast tokens = .error mismatch) :
    zipChildren table (Shape.ofNodes ast.children) (Lexeme.sequence tokens) [] = .error mismatch ∨
    ∃ children,
      zipChildren table (Shape.ofNodes ast.children) (Lexeme.sequence tokens) [] = .ok children ∧
      table.scan children.opened children.rest = .error mismatch := by
  unfold zipModule at failed
  split at failed
  · rename_i zipped
    cases failed
    exact Or.inl zipped
  · rename_i children zipped
    split at failed
    · rename_i scanned
      cases failed
      exact Or.inr ⟨children, zipped, scanned⟩
    · cases failed

end Failure

/-! ### Windows -/

theorem beforeSibling_append_fromSibling (siblings : List Shape) (window : List Lexeme) :
    beforeSibling siblings window ++ fromSibling siblings window = window := by
  cases siblings with
  | nil => exact List.append_nil window
  | cons next _ => exact beforeLead_append_fromLead next.lead window

/-- The parts of a window: before a child's lead, up to its next sibling's lead, and from there. -/
theorem window_parts (lead : Position) (siblings : List Shape) (window : List Lexeme) :
    beforeLead lead window ++ (beforeSibling siblings (fromLead lead window) ++
      fromSibling siblings (fromLead lead window)) = window := by
  rw [beforeSibling_append_fromSibling, beforeLead_append_fromLead]

/-! ### Induction over a zip -/

/-- **Induction over a zip that succeeds.** A fact on nodes and a fact on lists of siblings hold of
every zip if they hold of leaves, go over from the children to their parent, hold of no siblings
and go over from a child and its later siblings to all of them. -/
theorem zip_induction
    (OfNode : Shape → List Lexeme → List OpenBracket → Portion → Prop)
    (OfChildren : List Shape → List Lexeme → List OpenBracket → Portion → Prop)
    (leaf : ∀ kind anchor lead window opened claimed portion,
      claimAnchor table anchor window opened = .ok claimed →
      closeNode table kind window claimed = .ok portion →
      OfNode ⟨kind, anchor, lead, []⟩ window opened portion)
    (parent : ∀ kind anchor lead child siblings window opened claimed portion,
      zipChildren table (child :: siblings) window opened = .ok claimed →
      OfChildren (child :: siblings) window opened claimed →
      closeNode table kind window claimed = .ok portion →
      OfNode ⟨kind, anchor, lead, child :: siblings⟩ window opened portion)
    (nil : ∀ window opened, OfChildren [] window opened ⟨[], window, opened⟩)
    (cons : ∀ child siblings window opened between node later,
      table.scan opened (beforeLead child.lead window) = .ok between →
      zipNode table child (beforeSibling siblings (fromLead child.lead window)) between = .ok node →
      OfNode child (beforeSibling siblings (fromLead child.lead window)) between node →
      zipChildren table siblings (node.rest ++ fromSibling siblings (fromLead child.lead window))
        node.opened = .ok later →
      OfChildren siblings (node.rest ++ fromSibling siblings (fromLead child.lead window))
        node.opened later →
      OfChildren (child :: siblings) window opened
        ⟨(beforeLead child.lead window).map .token ++ node.content ++ later.content,
          later.rest, later.opened⟩) :
    (∀ shape window opened portion, zipNode table shape window opened = .ok portion →
      OfNode shape window opened portion) ∧
    (∀ shapes window opened portion, zipChildren table shapes window opened = .ok portion →
      OfChildren shapes window opened portion) := by
  let NodeFact (shape : Shape) : Prop := ∀ window opened portion,
    zipNode table shape window opened = .ok portion → OfNode shape window opened portion
  let ChildrenFact (shapes : List Shape) : Prop := ∀ window opened portion,
    zipChildren table shapes window opened = .ok portion → OfChildren shapes window opened portion
  have ofParent : ∀ kind anchor lead children, ChildrenFact children →
      NodeFact ⟨kind, anchor, lead, children⟩ := by
    intro kind anchor lead children below window opened portion done
    obtain ⟨claimed, claims, closed⟩ := zipNode_ok done
    cases children with
    | nil => exact leaf kind anchor lead window opened claimed portion claims closed
    | cons child siblings =>
      exact parent kind anchor lead child siblings window opened claimed portion claims
        (below window opened claimed claims) closed
  have ofNil : ChildrenFact [] := by
    intro window opened portion done
    rw [zipChildren_nil_ok done]
    exact nil window opened
  have ofCons : ∀ child siblings, NodeFact child → ChildrenFact siblings →
      ChildrenFact (child :: siblings) := by
    intro child siblings first others window opened portion done
    obtain ⟨between, node, later, scanned, zipped, rest, rfl⟩ := zipChildren_cons_ok done
    exact cons child siblings window opened between node later scanned zipped
      (first _ _ _ zipped) rest (others _ _ _ rest)
  -- A shape holds its children in a list, so each fact needs the recursor of its own.
  exact ⟨@Shape.rec NodeFact ChildrenFact ofParent ofNil ofCons,
    @Shape.rec_1 NodeFact ChildrenFact ofParent ofNil ofCons⟩

end CellSyntax.Zip
