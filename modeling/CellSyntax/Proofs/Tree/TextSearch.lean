/-
**Searching a tree for a text.**

The search looks into the children of a node, from left to right, before it looks at the node
itself. That is going through all nodes in construction order and stopping at the first one whose
text has the needle in it. The text of a node is a stretch of the text of every node around it, and
a node comes after all nodes below it in construction order. So only a tree without the needle has
no find, and nothing below a find has the needle.

* `Text.containsText_iff`: a text has a needle in it if the needle is one of its stretches;
* `Node.chars_infix`: the text of a node is a stretch of that of the tree;
* `Node.serial_append_lt`: a node comes after all nodes below it in construction order;
* `Node.findByText_eq`: the search is one through the list of nodes in construction order;
* `Node.findByText_firstInPostorder`: what the search finds, and when it finds nothing.
-/

import CellSyntax.Proofs.Tree.Links
import CellSyntax.Tree.Text

namespace CellSyntax

/-- **A needle is in a text if it is one of its stretches.** -/
theorem Text.containsText_iff {text needle : List Char} :
    containsText text needle = true ↔ needle <:+: text := by
  induction text with
  | nil => simp [containsText]
  | cons char rest ih =>
    rw [containsText, Bool.or_eq_true, List.isPrefixOf_iff_prefix, ih, List.infix_cons_iff]

/-! ### Looking into the children -/

/-- The search below a content goes through the nodes below it in construction order, if it does so
below each of its child nodes. -/
theorem Element.findIn?_eq {needle : List Char} {holds : Path → Bool} {index : Nat}
    {content : List Element}
    (below : ∀ (number : Nat) (child : Node), (content.filterMap node?)[number]? = some child →
      child.element.find? needle =
        child.postorder.find? fun path => holds ((index + number) :: path)) :
    findIn? needle index content =
      (Node.siblingPaths Node.postorder index (content.filterMap node?)).find? holds := by
  induction content generalizing index with
  | nil => rfl
  | cons element rest ih =>
    cases element with
    | token lexeme => exact ih below
    | node kind range inner =>
      have first : (Element.node kind range inner).find? needle =
          (Node.postorder ⟨kind, range, inner⟩).find? fun path => holds (index :: path) :=
        below 0 _ rfl
      have others : findIn? needle (index + 1) rest =
          (Node.siblingPaths Node.postorder (index + 1) (rest.filterMap node?)).find? holds := by
        refine ih fun number child found => ?_
        rw [below (number + 1) child found, Nat.add_assoc, Nat.add_comm 1]
      rw [List.filterMap_cons, node?, Node.siblingPaths_cons, List.find?_append, List.find?_map,
        findIn?, first, width, others]
      show _ = Option.or (Option.map _ (List.find? (fun path => holds (index :: path)) _)) _
      cases (Node.postorder ⟨kind, range, inner⟩).find? fun path => holds (index :: path) with
      | none => rfl
      | some found => rfl

namespace Node

variable {root node : Node} {path below : Path} {needle : List Char}

/-- Whether the node at a path has `needle` in its text. -/
def hasText (root : Node) (needle : List Char) (path : Path) : Bool :=
  (root.at? path).any fun node => Text.containsText node.chars needle

theorem hasText_iff : root.hasText needle path = true ↔
    ∃ node, root.at? path = some node ∧ needle <:+: node.chars := by
  unfold hasText
  cases root.at? path with
  | none => simp
  | some node => simp [Text.containsText_iff]

/-- **The search goes through the nodes in construction order.** -/
theorem find?_element (needle : List Char) (node : Node) :
    node.element.find? needle = node.postorder.find? (node.hasText needle) := by
  induction node using children_induction with
  | step node ih =>
    have children : Element.findIn? needle 0 node.content =
        (siblingPaths postorder 0 node.children).find? (node.hasText needle) := by
      refine Element.findIn?_eq fun number child found => ?_
      rw [ih child (List.mem_of_getElem? found)]
      congr 1
      funext path
      rw [hasText, hasText, Nat.zero_add, at?_child found]
    rw [postorder_eq, List.find?_append, ← children, element, Element.find?]
    cases Element.findIn? needle 0 node.content with
    | some found => rfl
    | none =>
      show (if Text.containsText node.chars needle then some [] else none) = _
      by_cases found : Text.containsText node.chars needle = true
      · simp [hasText, at?, found]
      · simp [hasText, at?, found]

theorem findByText_eq (root : Node) (needle : String) :
    root.findByText needle = root.postorder.find? (root.hasText needle.toList) :=
  find?_element needle.toList root

/-! ### Texts and numbers below a node -/

/-- **The text of a node is a stretch of that of the tree.** -/
theorem chars_infix (found : root.at? path = some node) : node.chars <:+: root.chars :=
  (Node.lexemes_infix found).flatMap _

/-- **A node comes after all nodes below it in construction order.** -/
theorem serial_append_lt (below_ne : below ≠ []) (reached : (root.at? (path ++ below)).isSome) :
    root.serial (path ++ below) < root.serial path := by
  induction below using List.reverseRecOn with
  | nil => exact absurd rfl below_ne
  | append_singleton above last ih =>
    obtain ⟨node, found⟩ := Option.isSome_iff_exists.1 reached
    rw [← List.append_assoc] at found ⊢
    obtain ⟨parent, isParent, isChild⟩ := exists_parent found
    have step := serial_concat_lt isParent isChild
    by_cases direct : above = []
    · rw [direct, List.append_nil] at step ⊢
      exact step
    · exact Nat.lt_trans step (ih direct (by rw [isParent]; rfl))

/-- What comes before a node in construction order has the nodes below it. -/
theorem mem_earlier_of_below {earlier later : List Path}
    (split : root.postorder = earlier ++ path :: later) (below_ne : below ≠ [])
    (reached : (root.at? (path ++ below)).isSome) : path ++ below ∈ earlier := by
  have before := serial_append_lt below_ne reached
  by_contra notEarlier
  rw [serial, serial, split, List.idxOf_append_of_notMem notEarlier, List.idxOf_append] at before
  split at before
  · have inside := List.idxOf_lt_length_iff.2 ‹path ∈ earlier›
    omega
  · rw [List.idxOf_cons_self] at before
    omega

/-- **The search finds the first node in construction order that has the needle in its text**, no
node below the find has it, and there is a find unless the whole text is without the needle. -/
theorem findByText_firstInPostorder (root : Node) (needle : String) :
    (root.findByText needle = none ↔ ¬ needle.toList <:+: root.text.toList) ∧
      ∀ path, root.findByText needle = some path →
        (∃ node, root.at? path = some node ∧ needle.toList <:+: node.text.toList) ∧
        (∃ earlier later, root.postorder = earlier ++ path :: later ∧
          ∀ other ∈ earlier, ∀ node, root.at? other = some node →
            ¬ needle.toList <:+: node.text.toList) ∧
        ∀ below node, below ≠ [] → root.at? (path ++ below) = some node →
          ¬ needle.toList <:+: node.text.toList := by
  have text_eq (node : Node) : node.text.toList = node.chars := String.toList_ofList
  simp only [text_eq, findByText_eq]
  refine ⟨?_, fun path found => ?_⟩
  · rw [List.find?_eq_none]
    constructor
    · intro nowhere whole
      exact nowhere [] (mem_postorder rfl) (hasText_iff.2 ⟨root, rfl, whole⟩)
    · intro without path _ holds
      obtain ⟨node, reached, inText⟩ := hasText_iff.1 holds
      exact without (inText.trans (Node.chars_infix reached))
  · obtain ⟨holds, earlier, later, split, without⟩ := List.find?_eq_some_iff_append.1 found
    have notEarlier : ∀ other ∈ earlier, ∀ node, root.at? other = some node →
        ¬ needle.toList <:+: node.chars := by
      intro other member node reached inText
      have both := without other member
      rw [hasText_iff.2 ⟨node, reached, inText⟩] at both
      exact Bool.noConfusion both
    refine ⟨hasText_iff.1 holds, ⟨earlier, later, split, notEarlier⟩, ?_⟩
    intro below node below_ne reached
    exact notEarlier _ (mem_earlier_of_below split below_ne (by rw [reached]; rfl)) node reached

end Node

end CellSyntax
