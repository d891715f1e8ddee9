/-
**The tree of a cell is a pruning of its syntax tree.**

Every node of the tree was made in one visit, the visit of one node of the syntax tree, and no node
of the syntax tree is visited twice. So each node of the tree has an image in the syntax tree, and no
two have the same. What makes no node makes none further down either, and siblings are visited in the
order of their leads, so the tree is what is left of the syntax tree when some subtrees are cut off
and siblings are put in that order.

* `Zip.Made.origin_unique`, `Zip.Made.path_unique`: each node of either tree has at most one partner;
* `Zip.Made.parent`: the partner of the parent is the parent of the partner;
* `Zip.Made.leadsBefore`: partners of siblings are in the order of their leads;
* `zip_prunes`: the tree is a pruning.
-/

import CellSyntax.Proofs.Ast.Leads
import CellSyntax.Proofs.Zip.Made
import CellSyntax.Tree.Order

namespace CellSyntax

namespace Zip

variable {table : BracketTable} {seats : List Seat} {window : List Lexeme}
  {opened : List OpenBracket} {index index' : Nat} {origin origin' path path' : Path}
  {visit visit' : Visit} {portion : Portion} {node node' : Node}

/-! ### One visit for each sibling -/

/-- A sibling that makes a node takes one number, so the next sibling has a higher one. -/
theorem Visit.Makes.length_nodesOf (makes : visit.Makes table node)
    (zipped : visit.outcome table = .ok portion) : (nodesOf portion).length = 1 := by
  rw [nodesOf_of_makes zipped makes]
  rfl

/-- **Siblings that make nodes have numbers of their own.** -/
theorem VisitsChild.eq_of_index (first : VisitsChild table seats window opened index visit)
    (second : VisitsChild table seats window opened index' visit') (makes : visit.Makes table node)
    (makes' : visit'.Makes table node') (same : index = index') : visit = visit' := by
  induction first generalizing index' with
  | here scanned =>
    cases second with
    | here scanned' =>
      cases scanned.symm.trans scanned'
      rfl
    | later scanned' zipped _ =>
      cases scanned.symm.trans scanned'
      have one := makes.length_nodesOf zipped
      omega
  | later scanned zipped _ ih =>
    cases second with
    | here scanned' =>
      cases scanned.symm.trans scanned'
      have one := makes'.length_nodesOf zipped
      omega
    | later scanned' zipped' others =>
      cases scanned.symm.trans scanned'
      cases zipped.symm.trans zipped'
      exact ih others makes (by omega)

/-- **Each sibling is visited once.** -/
theorem VisitsChild.eq_of_number (distinct : (seats.map Seat.number).Nodup)
    (first : VisitsChild table seats window opened index visit)
    (second : VisitsChild table seats window opened index' visit')
    (same : visit.seat.number = visit'.seat.number) : index = index' ∧ visit = visit' := by
  induction first generalizing index' with
  | here scanned =>
    cases second with
    | here scanned' =>
      cases scanned.symm.trans scanned'
      exact ⟨rfl, rfl⟩
    | later _ _ others =>
      exact absurd (same ▸ List.mem_map_of_mem others.seat_mem) (List.nodup_cons.1 distinct).1
  | later scanned zipped others ih =>
    cases second with
    | here _ =>
      exact absurd (same ▸ List.mem_map_of_mem others.seat_mem) (List.nodup_cons.1 distinct).1
    | later scanned' zipped' others' =>
      cases scanned.symm.trans scanned'
      cases zipped.symm.trans zipped'
      obtain ⟨number, visit⟩ := ih (List.nodup_cons.1 distinct).2 others' same
      exact ⟨congrArg _ number, visit⟩

/-- **Siblings are visited in their order.** -/
theorem VisitsChild.precedes (ordered : seats.Pairwise Seat.Precedes)
    (first : VisitsChild table seats window opened index visit)
    (second : VisitsChild table seats window opened index' visit') (less : index < index') :
    visit.seat.Precedes visit'.seat := by
  induction first generalizing index' with
  | here _ =>
    cases second with
    | here _ => exact absurd less (Nat.lt_irrefl 0)
    | later _ _ others => exact (List.pairwise_cons.1 ordered).1 _ others.seat_mem
  | later scanned zipped _ ih =>
    cases second with
    | here _ => exact absurd less (Nat.not_lt_zero _)
    | later scanned' zipped' others =>
      cases scanned.symm.trans scanned'
      cases zipped.symm.trans zipped'
      exact ih (List.pairwise_cons.1 ordered).2 others (by omega)

/-! ### One visit for each node -/

/-- The two paths of a visit have the same length. -/
theorem Visits.length_eq (visits : Visits table seats window opened origin path visit) :
    origin.length = path.length := by
  induction visits with
  | child _ => rfl
  | inside _ _ ih => exact congrArg (· + 1) ih

/-- The last step to the node of a visit takes the number of its seat. -/
theorem Visits.getLast?_origin (visits : Visits table seats window opened origin path visit) :
    origin.getLast? = some visit.seat.number := by
  induction visits with
  | child _ => rfl
  | inside _ _ ih => rw [List.getLast?_cons, ih, Option.getD_some]

/-- A visit further down that makes a node, by the visit of the node around it: that one makes a
node as well. -/
theorem VisitsChild.makes_outer {outer : Visit}
    (visits : VisitsChild table seats window opened index outer)
    (inner : Visits table outer.seat.children outer.window outer.opened origin path visit)
    (zipped : zipChildren table (seats.map Seat.shape) window opened = .ok portion)
    (makes : visit.Makes table node) : ∃ claimed around,
      zipChildren table (outer.seat.children.map Seat.shape) outer.window outer.opened =
        .ok claimed ∧ outer.Makes table around := by
  obtain ⟨made, -, -, done, -⟩ := visits.outcome_ok zipped
  obtain ⟨claimed, claims, children⟩ := Visit.exists_claimed done inner.seats_ne_nil
  obtain ⟨around, makesAround, -⟩ := Visit.makes_around done claims inner.path_ne_nil
    fun _ isRoot => inner.at? children makes isRoot
  exact ⟨claimed, around, children, makesAround⟩

/-- **No two visits make the node at one path.** -/
theorem Visits.origin_unique (first : Visits table seats window opened origin path visit)
    (second : Visits table seats window opened origin' path visit')
    (zipped : zipChildren table (seats.map Seat.shape) window opened = .ok portion)
    (makes : visit.Makes table node) (makes' : visit'.Makes table node') : origin = origin' := by
  induction first generalizing origin' visit' portion with
  | child visits =>
    cases second with
    | child visits' => rw [visits.eq_of_index visits' makes makes' rfl]
    | inside _ inner' => exact absurd rfl inner'.path_ne_nil
  | inside visits inner ih =>
    cases second with
    | child _ => exact absurd rfl inner.path_ne_nil
    | inside visits' inner' =>
      obtain ⟨claimed, around, children, makesOuter⟩ := visits.makes_outer inner zipped makes
      obtain ⟨-, around', -, makesOuter'⟩ := visits'.makes_outer inner' zipped makes'
      cases visits.eq_of_index visits' makesOuter makesOuter' rfl
      exact congrArg _ (ih inner' children makes makes')

/-- **No node of the syntax tree is visited twice.** -/
theorem Visits.path_unique (first : Visits table seats window opened origin path visit)
    (second : Visits table seats window opened origin' path' visit')
    (distinct : (seats.map Seat.number).Nodup) (same : origin = origin') : path = path' := by
  induction first generalizing origin' path' visit' with
  | child visits =>
    cases second with
    | child visits' => rw [(visits.eq_of_number distinct visits' (List.cons.inj same).1).1]
    | inside _ inner' => exact absurd (List.cons.inj same).2.symm inner'.origin_ne_nil
  | inside visits inner ih =>
    cases second with
    | child _ => exact absurd (List.cons.inj same).2 inner.origin_ne_nil
    | inside visits' inner' =>
      obtain ⟨rfl, rfl⟩ := visits.eq_of_number distinct visits' (List.cons.inj same).1
      exact congrArg _ (ih inner' (Seat.nodup_numbers _) (List.cons.inj same).2)

/-- **Siblings are visited in their order**, at all levels. -/
theorem Visits.precedes {above : Path}
    (first : Visits table seats window opened origin (above ++ [index]) visit)
    (second : Visits table seats window opened origin' (above ++ [index']) visit')
    (zipped : zipChildren table (seats.map Seat.shape) window opened = .ok portion)
    (makes : visit.Makes table node) (makes' : visit'.Makes table node')
    (ordered : seats.Pairwise Seat.Precedes) (less : index < index') :
    visit.seat.Precedes visit'.seat := by
  induction above generalizing seats window opened origin origin' visit visit' portion with
  | nil =>
    cases first with
    | inside _ inner => exact absurd rfl inner.path_ne_nil
    | child visits =>
      cases second with
      | inside _ inner' => exact absurd rfl inner'.path_ne_nil
      | child visits' => exact visits.precedes ordered visits' less
  | cons step above ih =>
    have further (last : Nat) : above ++ [last] ≠ [] := List.append_ne_nil_of_right_ne_nil _ nofun
    generalize whole : step :: above ++ [index] = path at first
    generalize whole' : step :: above ++ [index'] = path' at second
    cases first with
    | child _ => exact absurd (List.cons.inj whole).2 (further index)
    | inside visits inner =>
      cases second with
      | child _ => exact absurd (List.cons.inj whole').2 (further index')
      | inside visits' inner' =>
        obtain ⟨rfl, rfl⟩ := List.cons.inj whole
        obtain ⟨rfl, rfl⟩ := List.cons.inj whole'
        obtain ⟨claimed, around, children, makesOuter⟩ := visits.makes_outer inner zipped makes
        obtain ⟨-, around', -, makesOuter'⟩ := visits'.makes_outer inner' zipped makes'
        cases visits.eq_of_index visits' makesOuter makesOuter' rfl
        have inOrder := ih inner inner' children makes makes' (Seat.ofNodes_ordered _)
        exact inOrder

/-! ### The partners of the nodes of a tree -/

namespace Made

variable {ast : AstNode} {tokens : List Token} {root : Node}

theorem origin_unique (done : zipModule table ast tokens = .ok root)
    (first : Made table ast tokens origin path node)
    (second : Made table ast tokens origin' path node') : origin = origin' := by
  obtain ⟨visit, visits, makes⟩ := first
  obtain ⟨visit', visits', makes'⟩ := second
  obtain ⟨children, zipped, -⟩ := zipModule_children done
  exact visits.origin_unique visits' zipped makes makes'

theorem path_unique (first : Made table ast tokens origin path node)
    (second : Made table ast tokens origin path' node') : path = path' := by
  obtain ⟨visit, visits, -⟩ := first
  obtain ⟨visit', visits', -⟩ := second
  exact visits.path_unique visits' (Seat.nodup_numbers _) rfl

/-- **The partner has the kind of the node**, and an anchor in its subtree. -/
theorem source (made : Made table ast tokens origin path node) :
    ∃ source, ast.at? origin = some source ∧ source.kind = node.kind ∧ source.anchors ≠ [] := by
  obtain ⟨visit, visits, makes⟩ := made
  refine ⟨visit.seat.node, visits.ast_at?, ?_, List.ne_nil_of_mem visit.seat.lead_mem⟩
  obtain ⟨_, _, _, _, _, _, _, -, -, -, -, rfl⟩ := makes.over
  rfl

/-- **The partner of the parent is the parent of the partner.** A child of the root has a child of
the module as its partner. -/
theorem parent (done : zipModule table ast tokens = .ok root)
    (made : Made table ast tokens origin (path ++ [index]) node) :
    ∃ above number, origin = above ++ [number] ∧
      (path = [] ∧ above = [] ∨ ∃ around, Made table ast tokens above path around) := by
  obtain ⟨visit, visits, makes⟩ := made
  obtain ⟨children, zipped, -⟩ := zipModule_children done
  have length := visits.length_eq
  rw [List.length_append, List.length_singleton] at length
  rcases List.eq_nil_or_concat' origin with rfl | ⟨above, number, rfl⟩
  · exact absurd rfl visits.origin_ne_nil
  · rw [List.length_append, List.length_singleton, Nat.add_right_cancel_iff] at length
    refine ⟨above, number, rfl, ?_⟩
    by_cases top : above = []
    · rw [top, List.length_nil] at length
      exact Or.inl ⟨List.length_eq_zero_iff.1 length.symm, top⟩
    · obtain ⟨around, outer, found, reached, makesOuter, inside⟩ :=
        visits.makes_around top zipped makes
      have whole : around = path := by
        have short : around.length = path.length := reached.length_eq.symm.trans length
        exact (List.prefix_of_prefix_length_le inside (List.prefix_append path [index])
          short.le).eq_of_length short
      exact Or.inr ⟨found, outer, whole ▸ reached, makesOuter⟩

/-- **The partners of siblings are in the order of their leads.** -/
theorem leadsBefore {above : Path} {number number' : Nat} {parent : AstNode}
    (done : zipModule table ast tokens = .ok root)
    (first : Made table ast tokens (above ++ [number]) (path ++ [index]) node)
    (second : Made table ast tokens (above ++ [number']) (path ++ [index']) node')
    (isParent : ast.at? above = some parent) (less : index < index') :
    parent.LeadsBefore number number' := by
  obtain ⟨visit, visits, makes⟩ := first
  obtain ⟨visit', visits', makes'⟩ := second
  obtain ⟨children, zipped, -⟩ := zipModule_children done
  have precedes := visits.precedes visits' zipped makes makes' (Seat.ofNodes_ordered _) less
  have last := visits.getLast?_origin
  have last' := visits'.getLast?_origin
  rw [List.getLast?_concat, Option.some.injEq] at last last'
  have isFirst := visits.ast_at?
  have isSecond := visits'.ast_at?
  rw [AstNode.at?_concat isParent] at isFirst isSecond
  rw [last] at isFirst ⊢
  rw [last'] at isSecond ⊢
  exact (Seat.precedes_iff_leadsBefore isFirst isSecond).1 precedes

end Made

end Zip

/-! ### Prunings -/

/-- **The tree is a pruning of the syntax tree**: `image` takes each of its nodes, given by the path,
to a node of the syntax tree. -/
structure Node.Prunes (root : Node) (ast : AstNode) (image : Path → Path) : Prop where
  module : image [] = []
  kind : ∀ path node, root.at? path = some node →
    ∃ source, ast.at? (image path) = some source ∧ source.kind = node.kind
  injective : ∀ path path', (root.at? path).isSome → (root.at? path').isSome →
    image path = image path' → path = path'
  /-- The image of the parent is the parent of the image. -/
  parent : ∀ path index, (root.at? (path ++ [index])).isSome →
    ∃ number, image (path ++ [index]) = image path ++ [number]
  /-- Children come in the order of the leads of their images, which is stable. -/
  order : ∀ path index index' number number' source, index < index' →
    (root.at? (path ++ [index])).isSome → (root.at? (path ++ [index'])).isSome →
    image (path ++ [index]) = image path ++ [number] →
    image (path ++ [index']) = image path ++ [number'] →
    ast.at? (image path) = some source → source.LeadsBefore number number'
  anchored : ∀ path, path ≠ [] → (root.at? path).isSome →
    ∃ source, ast.at? (image path) = some source ∧ source.anchors ≠ []
  /-- Every node around an image is an image, so what is no image has none below it. -/
  above : ∀ path outer, (root.at? path).isSome → outer <+: image path →
    ∃ path', (root.at? path').isSome ∧ image path' = outer

namespace Zip

variable {table : BracketTable} {ast : AstNode} {tokens : List Token} {root : Node}

/-- Every node of the tree has a partner, the root that of the module. -/
theorem exists_image (done : zipModule table ast tokens = .ok root) :
    ∃ image : Path → Path, image [] = [] ∧ ∀ path node, path ≠ [] → root.at? path = some node →
      Made table ast tokens (image path) path node := by
  have each (path : Path) : ∃ origin, (path = [] → origin = []) ∧ ∀ node, path ≠ [] →
      root.at? path = some node → Made table ast tokens origin path node := by
    by_cases reached : path ≠ [] ∧ ∃ node, root.at? path = some node
    · obtain ⟨below, node, found⟩ := reached
      obtain ⟨origin, made⟩ := exists_made done below found
      refine ⟨origin, fun top => absurd top below, fun other _ isOther => ?_⟩
      cases found.symm.trans isOther
      exact made
    · exact ⟨[], fun _ => rfl, fun node below found => absurd ⟨below, node, found⟩ reached⟩
  choose image top below using each
  exact ⟨image, top [] rfl, below⟩

/-- **A map of each node to its partner makes the tree a pruning.** -/
theorem prunes_of_made {image : Path → Path} (done : zipModule table ast tokens = .ok root)
    (top : image [] = []) (made : ∀ path node, path ≠ [] → root.at? path = some node →
      Made table ast tokens (image path) path node) : root.Prunes ast image := by
  have below (path : Path) (index : Nat) : path ++ [index] ≠ [] :=
    List.append_ne_nil_of_right_ne_nil _ nofun
  have madeAt {path : Path} (notRoot : path ≠ []) (valid : (root.at? path).isSome) :
      ∃ node, Made table ast tokens (image path) path node := by
    obtain ⟨node, found⟩ := Option.isSome_iff_exists.1 valid
    exact ⟨node, made path node notRoot found⟩
  have madeNotTop {path : Path} (notRoot : path ≠ []) (valid : (root.at? path).isSome) :
      image path ≠ [] := by
    obtain ⟨node, visit, visits, -⟩ := madeAt notRoot valid
    exact visits.origin_ne_nil
  refine ⟨top, ?kind, ?injective, ?parent, ?order, ?anchored, ?above⟩
  case kind =>
    intro path node found
    by_cases isRoot : path = []
    · rw [isRoot] at found
      cases found
      obtain ⟨children, after, -, -, rfl⟩ := zipModule_ok done
      exact ⟨ast, by rw [isRoot, top]; rfl, rfl⟩
    · obtain ⟨source, isSource, kind, -⟩ := (made path node isRoot found).source
      exact ⟨source, isSource, kind⟩
  case injective =>
    intro path path' valid valid' same
    by_cases isRoot : path = []
    · by_contra other
      refine madeNotTop (fun isRoot' => other (isRoot.trans isRoot'.symm)) valid' ?_
      rw [← same, isRoot, top]
    · have isRoot' : path' ≠ [] := by
        intro isRoot'
        refine madeNotTop isRoot valid ?_
        rw [same, isRoot', top]
      obtain ⟨node, first⟩ := madeAt isRoot valid
      obtain ⟨node', second⟩ := madeAt isRoot' valid'
      rw [← same] at second
      exact first.path_unique second
  case parent =>
    intro path index valid
    obtain ⟨node, child⟩ := madeAt (below path index) valid
    obtain ⟨above, number, isImage, ⟨isRoot, isTop⟩ | ⟨around, outer⟩⟩ := child.parent done
    · exact ⟨number, by rw [isImage, isRoot, isTop, top]⟩
    · have found := outer.at? done
      have notRoot : path ≠ [] := by
        obtain ⟨visit, visits, -⟩ := outer
        exact visits.path_ne_nil
      rw [outer.origin_unique done (made path around notRoot found)] at isImage
      exact ⟨number, isImage⟩
  case order =>
    intro path index index' number number' source less valid valid' isFirst isSecond isSource
    obtain ⟨node, first⟩ := madeAt (below path index) valid
    obtain ⟨node', second⟩ := madeAt (below path index') valid'
    rw [isFirst] at first
    rw [isSecond] at second
    exact first.leadsBefore done second isSource less
  case anchored =>
    intro path notRoot valid
    obtain ⟨node, child⟩ := madeAt notRoot valid
    obtain ⟨source, isSource, -, anchors⟩ := child.source
    exact ⟨source, isSource, anchors⟩
  case above =>
    intro path outer valid around
    by_cases isTop : outer = []
    · exact ⟨[], rfl, top.trans isTop.symm⟩
    · have notRoot : path ≠ [] := by
        intro isRoot
        rw [isRoot, top] at around
        exact isTop (List.prefix_nil.1 around)
      obtain ⟨node, child⟩ := madeAt notRoot valid
      obtain ⟨path', node', madeAbove⟩ := child.above done isTop around
      have found := madeAbove.at? done
      have notRoot' : path' ≠ [] := by
        obtain ⟨visit, visits, -⟩ := madeAbove
        exact visits.path_ne_nil
      refine ⟨path', Option.isSome_iff_exists.2 ⟨node', found⟩, ?_⟩
      exact (made path' node' notRoot' found).origin_unique done madeAbove

end Zip

/-- **The tree of a cell is a pruning of its syntax tree**, zipped with the source or without it: there
is a map of its nodes to nodes of the syntax tree that is injective, takes the root to the module and
the parent of a node to the parent of its image, and keeps kinds. Siblings come in the order of the
leads of their images, every image below the module has an anchor in its subtree, and a node that is
no image has none below it. -/
theorem zip_prunes {config : TokenConfig} {source : Option String} {tokens : List Token}
    {ast : AstNode} {root : Node}
    (zipped : zipOutput config ⟨source, tokens, some ast⟩ = .ok (.tree root)) :
    ∃ image, root.Prunes ast image := by
  have done := zipModule_of_zipOutput zipped
  obtain ⟨image, top, made⟩ := Zip.exists_image done
  exact ⟨image, Zip.prunes_of_made done top made⟩

/-- In the tree of `callOutput` three nodes of the syntax tree have no image, each for a reason of its
own. -/
theorem zip_prunes_callOutput : ∃ root, zipOutput {} callOutput = .ok (.tree root) ∧
    root.nodeCount = 5 ∧ ∃ image, root.Prunes (callOutput.ast.get rfl) image := by
  obtain ⟨root, zipped, nodes⟩ : ∃ root,
      zipOutput {} callOutput = .ok (.tree root) ∧ root.nodeCount = 5 :=
    ⟨_, rfl, by decide +kernel⟩
  exact ⟨root, zipped, nodes, zip_prunes zipped⟩

end CellSyntax
