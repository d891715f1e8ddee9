/-
**The order of siblings does not matter, nor do subtrees without anchors.**

Zipping looks at the shape of a syntax tree only, and a shape lists children in the order of their
leads. So if siblings never share a lead then the order in which the syntax tree lists them is lost
at every level, and a subtree without anchors has no shape to begin with. Two syntax trees that
differ in these respects alone give one tree, one error, or both the empty tree.

* `AstNode.Rearranged`: siblings in another order, subtrees without anchors put in or taken out;
* `AstNode.LeadsApart`: no two siblings have one lead, at any level;
* `Shape.ofNodes_perm`, `Shape.ofNodes_rearranged`: the shapes of rearranged siblings are the same;
* `zip_rearranged`: so are the results of zipping, for every config, source and token list.
-/

import CellSyntax.Proofs.Ast.Leads
import CellSyntax.Proofs.Zip.TreeOver
import Mathlib.Data.List.Pairwise

namespace CellSyntax

/-! ### Rearranged syntax trees -/

namespace AstNode

/-- **Siblings rearranged**: put in another order, with a subtree without anchors put in or taken
out, or with the children of one of them rearranged, and all of this one after the other. Since any
sibling can be put in front, the changes are stated there. -/
inductive Rearranged : List AstNode → List AstNode → Prop
  | permuted {first second : List AstNode} (perm : first.Perm second) : Rearranged first second
  | inserted {node : AstNode} {siblings : List AstNode} (bare : node.anchors = []) :
      Rearranged siblings (node :: siblings)
  | removed {node : AstNode} {siblings : List AstNode} (bare : node.anchors = []) :
      Rearranged (node :: siblings) siblings
  | inside {kind : String} {anchor : Option Position} {children children' siblings : List AstNode}
      (below : Rearranged children children') :
      Rearranged (⟨kind, anchor, children⟩ :: siblings) (⟨kind, anchor, children'⟩ :: siblings)
  | trans {first second third : List AstNode} (left : Rearranged first second)
      (right : Rearranged second third) : Rearranged first third

/-- Two nodes have no lead in common. -/
def LeadApart (first second : AstNode) : Prop := ∀ lead, first.IsLead lead → ¬ second.IsLead lead

/-- **No two siblings have one lead**, here and among the children of each, and so on down. -/
inductive LeadsApart : List AstNode → Prop
  | intro {siblings : List AstNode} (here : siblings.Pairwise LeadApart)
      (below : ∀ node ∈ siblings, LeadsApart node.children) : LeadsApart siblings

theorem LeadApart.symm {first second : AstNode} (apart : LeadApart first second) :
    LeadApart second first :=
  fun lead isSecond isFirst => apart lead isFirst isSecond

instance : Std.Symm LeadApart := ⟨fun _ _ => LeadApart.symm⟩

/-- Leaves at different anchors have no lead in common. -/
theorem LeadApart.of_leaves {kind kind' : String} {first second : Position}
    (different : first ≠ second) :
    LeadApart ⟨kind, some first, []⟩ ⟨kind', some second, []⟩ := by
  intro lead isFirst isSecond
  have here : lead = first := List.mem_singleton.1 isFirst.mem
  have there : lead = second := List.mem_singleton.1 isSecond.mem
  exact different (here.symm.trans there)

namespace LeadsApart

variable {node : AstNode} {siblings other : List AstNode}

theorem here (apart : LeadsApart siblings) : siblings.Pairwise LeadApart := by
  cases apart
  assumption

theorem inside (apart : LeadsApart siblings) (member : node ∈ siblings) :
    LeadsApart node.children := by
  cases apart with
  | intro _ below => exact below node member

theorem cons_iff : LeadsApart (node :: siblings) ↔
    (∀ sibling ∈ siblings, LeadApart node sibling) ∧ LeadsApart node.children ∧
      LeadsApart siblings := by
  constructor
  · intro apart
    obtain ⟨first, rest⟩ := List.pairwise_cons.1 apart.here
    exact ⟨first, apart.inside List.mem_cons_self,
      .intro rest fun sibling member => apart.inside (List.mem_cons_of_mem _ member)⟩
  · rintro ⟨first, children, rest⟩
    exact .intro (List.pairwise_cons.2 ⟨first, rest.here⟩)
      (List.forall_mem_cons.2 ⟨children, fun _ member => rest.inside member⟩)

theorem perm (apart : LeadsApart siblings) (perm : siblings.Perm other) : LeadsApart other :=
  .intro ((perm.pairwise_iff fun apart => apart.symm).1 apart.here)
    fun _ member => apart.inside (perm.mem_iff.2 member)

/-- Two siblings with one lead are one node. -/
theorem eq_of_isLead {sibling : AstNode} {lead : Position} (apart : LeadsApart siblings)
    (isNode : node ∈ siblings) (isSibling : sibling ∈ siblings) (ofNode : node.IsLead lead)
    (ofSibling : sibling.IsLead lead) : node = sibling := by
  by_contra different
  exact apart.here.forall isNode isSibling different lead ofNode ofSibling

/-- Without an anchor in a subtree there is no lead in it. -/
theorem of_bare (bare : node.anchors = []) : LeadsApart node.children := by
  induction node using children_induction with
  | step node ih =>
    have bareChild : ∀ child ∈ node.children, child.anchors = [] := by
      intro child isChild
      rw [List.eq_nil_iff_forall_not_mem]
      intro position inside
      have above := anchors_of_mem_children isChild position inside
      rw [bare] at above
      cases above
    refine .intro (List.pairwise_of_forall_mem_list fun child isChild _ _ lead isLead _ => ?_)
      fun child isChild => ih child isChild (bareChild child isChild)
    have anchor := isLead.mem
    rw [bareChild child isChild] at anchor
    cases anchor

end LeadsApart

end AstNode

/-! ### Shapes of rearranged siblings -/

namespace Shape

variable {node other : AstNode} {first second : List AstNode} {lead : Position}

/-- The lead of a node is that of its shape. -/
theorem isLead_iff : node.IsLead lead ↔ ∃ shape, ofNode? node = some shape ∧ shape.lead = lead := by
  constructor
  · intro isLead
    obtain ⟨shape, shows⟩ := exists_ofNode? isLead.mem
    obtain ⟨inside, earliest⟩ := ofNode?_lead shows
    exact ⟨shape, shows, AstNode.IsLead.unique ⟨inside, earliest⟩ isLead⟩
  · rintro ⟨shape, shows, rfl⟩
    obtain ⟨inside, earliest⟩ := ofNode?_lead shows
    exact ⟨inside, earliest⟩

theorem ofNodes_cons (node : AstNode) (siblings : List AstNode) :
    ofNodes (node :: siblings) =
      (ofNode? node).elim (ofNodes siblings) fun shape => shape.insert (ofNodes siblings) := by
  rw [ofNodes]
  cases ofNode? node <;> rfl

theorem ofNodes_cons_of_bare (bare : node.anchors = []) (siblings : List AstNode) :
    ofNodes (node :: siblings) = ofNodes siblings := by
  rw [ofNodes_cons, ofNode?_eq_none_iff.2 bare]
  rfl

/-- Sorting loses no shape. -/
theorem ofNodes_perm_filterMap (siblings : List AstNode) :
    (ofNodes siblings).Perm (siblings.filterMap ofNode?) := by
  induction siblings with
  | nil => exact .refl _
  | cons node siblings ih =>
    rw [ofNodes_cons]
    cases shows : ofNode? node with
    | none => rwa [List.filterMap_cons_none shows]
    | some shape =>
      rw [List.filterMap_cons_some shows]
      exact (insert_perm shape _).trans (ih.cons shape)

/-- **The order of siblings is lost if no two of them have one lead.** -/
theorem ofNodes_perm (perm : first.Perm second) (apart : AstNode.LeadsApart first) :
    ofNodes first = ofNodes second := by
  have sameShapes : (ofNodes first).Perm (ofNodes second) :=
    (ofNodes_perm_filterMap first).trans
      ((perm.filterMap ofNode?).trans (ofNodes_perm_filterMap second).symm)
  refine List.Perm.eq_of_pairwise ?_ (ofNodes_sorted first) (ofNodes_sorted second) sameShapes
  -- Both lists are sorted, so they can only differ among shapes with one lead, and there are none.
  intro shape shape' inFirst inSecond upTo back
  obtain ⟨node, isNode, shows⟩ := mem_ofNodes_iff.1 inFirst
  obtain ⟨node', isNode', shows'⟩ := mem_ofNodes_iff.1 inSecond
  have sameLead : shape.lead = shape'.lead := Position.le_antisymm upTo back
  have sameNode : node = node' :=
    apart.eq_of_isLead isNode (perm.mem_iff.2 isNode') (isLead_iff.2 ⟨shape, shows, sameLead⟩)
      (isLead_iff.2 ⟨shape', shows', rfl⟩)
  rw [sameNode, shows'] at shows
  exact (Option.some.inj shows).symm

/-- A node with the same kind and anchor and the same shapes below has the same shape. -/
theorem ofNode?_congr {kind : String} {anchor : Option Position}
    (below : ofNodes first = ofNodes second) :
    ofNode? ⟨kind, anchor, first⟩ = ofNode? ⟨kind, anchor, second⟩ := by
  rw [ofNode?_eq, ofNode?_eq]
  simp only [below]

theorem leadApart_congr {sibling : AstNode} (same : ofNode? node = ofNode? other)
    (apart : node.LeadApart sibling) : other.LeadApart sibling := by
  intro lead isLead
  rw [isLead_iff, ← same, ← isLead_iff] at isLead
  exact apart lead isLead

/-- **Rearranged siblings have the same shapes**, and leads that are apart stay so. -/
theorem ofNodes_rearranged (rearranged : AstNode.Rearranged first second)
    (apart : AstNode.LeadsApart first) :
    AstNode.LeadsApart second ∧ ofNodes first = ofNodes second := by
  induction rearranged with
  | permuted perm => exact ⟨apart.perm perm, ofNodes_perm perm apart⟩
  | inserted bare =>
    refine ⟨AstNode.LeadsApart.cons_iff.2 ⟨fun _ _ lead isLead => ?_, .of_bare bare, apart⟩,
      (ofNodes_cons_of_bare bare _).symm⟩
    have anchor := isLead.mem
    rw [bare] at anchor
    cases anchor
  | removed bare => exact ⟨(AstNode.LeadsApart.cons_iff.1 apart).2.2, ofNodes_cons_of_bare bare _⟩
  | inside _ ih =>
    obtain ⟨front, children, siblings⟩ := AstNode.LeadsApart.cons_iff.1 apart
    obtain ⟨children', below⟩ := ih children
    refine ⟨AstNode.LeadsApart.cons_iff.2 ⟨fun sibling member =>
      leadApart_congr (ofNode?_congr below) (front sibling member), children', siblings⟩, ?_⟩
    rw [ofNodes_cons, ofNodes_cons, ofNode?_congr below]
  | trans _ _ ihLeft ihRight =>
    obtain ⟨between, left⟩ := ihLeft apart
    obtain ⟨after, right⟩ := ihRight between
    exact ⟨after, left.trans right⟩

end Shape

/-! ### Zipping -/

variable {module other : AstNode}

theorem Zip.zipModule_congr (kind : module.kind = other.kind)
    (shapes : Shape.ofNodes module.children = Shape.ofNodes other.children)
    (table : BracketTable) (tokens : List Token) :
    zipModule table module tokens = zipModule table other tokens := by
  rw [zipModule, zipModule, shapes, kind]

theorem zipStripped_congr
    (same : ∀ table tokens, Zip.zipModule table module tokens = Zip.zipModule table other tokens)
    (config : TokenConfig) (tokens : List Token) :
    zipStripped config module tokens = zipStripped config other tokens := by
  rw [zipStripped, zipStripped, same]

/-- **The order of siblings does not matter, nor do subtrees without anchors.** If two module nodes
of one kind differ in these only, and no two siblings have one lead, then zipping gives the same
tree, the same error or the empty tree for both, with or without a source. -/
theorem zip_rearranged (kind : module.kind = other.kind)
    (rearranged : AstNode.Rearranged module.children other.children)
    (apart : AstNode.LeadsApart module.children) :
    (∀ config tokens, zipTokens config module tokens = zipTokens config other tokens) ∧
      (∀ config source tokens,
        zipSource config source module tokens = zipSource config source other tokens) ∧
      ∀ config source tokens, zipOutput config ⟨source, tokens, some module⟩ =
        zipOutput config ⟨source, tokens, some other⟩ := by
  have stripped := zipStripped_congr
    (Zip.zipModule_congr kind (Shape.ofNodes_rearranged rearranged apart).2)
  have ofTokens : ∀ config tokens,
      zipTokens config module tokens = zipTokens config other tokens :=
    fun config tokens => stripped config (stripMarkers config tokens)
  have ofSource : ∀ config source tokens,
      zipSource config source module tokens = zipSource config source other tokens := by
    intro config source tokens
    rw [zipSource, zipSource, stripped]
  refine ⟨ofTokens, ofSource, fun config source tokens => ?_⟩
  rw [zipOutput_of_ast, zipOutput_of_ast]
  cases source with
  | none => exact ofTokens config tokens
  | some text => exact ofSource config text tokens

/-- A call of a function with two arguments. -/
def callAst : AstNode :=
  ⟨"Module", none, [⟨"Call", some ⟨0, 0⟩,
    [⟨"Name", some ⟨0, 0⟩, []⟩, ⟨"Name", some ⟨0, 2⟩, []⟩, ⟨"Name", some ⟨1, 1⟩, []⟩]⟩]⟩

/-- The same call, the second argument being listed first and nodes without an anchor being put
in. -/
def shuffledCallAst : AstNode :=
  ⟨"Module", none, [⟨"Call", some ⟨0, 0⟩,
    [⟨"Name", some ⟨1, 1⟩, [⟨"Load", none, []⟩]⟩, ⟨"Name", some ⟨0, 0⟩, []⟩,
      ⟨"Keywords", none, [⟨"Load", none, []⟩]⟩, ⟨"Name", some ⟨0, 2⟩, []⟩]⟩]⟩

theorem callAst_rearranged : AstNode.Rearranged callAst.children shuffledCallAst.children := by
  have load : AstNode.anchors ⟨"Load", none, []⟩ = [] := rfl
  have keywords : AstNode.anchors ⟨"Keywords", none, [⟨"Load", none, []⟩]⟩ = [] := rfl
  refine .inside ?_
  refine .trans (.permuted (List.perm_append_comm_assoc [_, _] [_] [])) ?_
  refine .trans (.inside (.inserted load)) (.trans (.inserted keywords) (.permuted ?_))
  exact List.perm_append_comm_assoc [_] [_, _] [_]

theorem callAst_leadsApart : AstNode.LeadsApart callAst.children := by
  have leaf {kind : String} {anchor : Option Position} :
      AstNode.LeadsApart (AstNode.children ⟨kind, anchor, []⟩) := .intro .nil nofun
  refine .intro (List.pairwise_singleton _ _) (List.forall_mem_singleton.2 (.intro ?_ ?_))
  · refine .cons (List.forall_mem_cons.2 ⟨?_, List.forall_mem_singleton.2 ?_⟩)
      (.cons (List.forall_mem_singleton.2 ?_) (List.pairwise_singleton _ _))
    · exact .of_leaves (by decide)
    · exact .of_leaves (by decide)
    · exact .of_leaves (by decide)
  · exact List.forall_mem_cons.2 ⟨leaf, List.forall_mem_cons.2
      ⟨leaf, List.forall_mem_singleton.2 leaf⟩⟩

/-- With the tokens of `callOutput`: both calls give one tree. -/
theorem zip_rearranged_callOutput :
    AstNode.Rearranged callAst.children shuffledCallAst.children ∧
      AstNode.LeadsApart callAst.children ∧
      ∃ root, zipOutput {} ⟨callOutput.source, callOutput.tokens, some callAst⟩ = .ok (.tree root) ∧
        zipOutput {} ⟨callOutput.source, callOutput.tokens, some shuffledCallAst⟩ =
          .ok (.tree root) := by
  obtain ⟨root, zipped⟩ : ∃ root,
      zipOutput {} ⟨callOutput.source, callOutput.tokens, some callAst⟩ = .ok (.tree root) :=
    ⟨_, rfl⟩
  have kind : callAst.kind = shuffledCallAst.kind := rfl
  obtain ⟨-, -, same⟩ := zip_rearranged kind callAst_rearranged callAst_leadsApart
  refine ⟨callAst_rearranged, callAst_leadsApart, root, zipped, ?_⟩
  exact (same {} callOutput.source callOutput.tokens).symm.trans zipped

end CellSyntax
