/-
**Ranges of nodes over tokens that do not overlap.**

A node's range is built from the ranges of the first and the last item of its content, and
`Range.ofEnds` would swap ends that are inverted. If each token ends where it starts or later, and
where the next one starts or earlier, no ends are ever swapped. Then the range of a node is that of
all tokens in its subtree, from the start of the first to the end of the last; sibling nodes follow
one another, and a node covers its children.

* `Node.Formed.range_spans`: the range of a node, by its first and its last token;
* `Node.Formed.children_apart`: no child ends after a later one starts;
* `Node.Formed.contains_child`: a node covers each of its children.
-/

import CellSyntax.Proofs.Token.InOrder
import CellSyntax.Proofs.Tree.Formed

namespace CellSyntax

/-! ### The range of an element -/

/-- A range runs from the start of the first of some lexemes to the end of the last. -/
def Range.Spans (range : Range) (lexemes : List Lexeme) : Prop :=
  ∃ first last, lexemes.head? = some first ∧ lexemes.getLast? = some last ∧
    range = ⟨first.start, last.stop⟩

namespace Element

/-- The first lexeme of a content is that of its first element. -/
theorem head?_lexemesOf {content : List Element} {element : Element} {lexeme : Lexeme}
    (starts : content.head? = some element) (first : element.lexemes.head? = some lexeme) :
    (lexemesOf content).head? = some lexeme := by
  obtain ⟨rest, rfl⟩ := List.head?_eq_some_iff.1 starts
  rw [lexemesOf, List.head?_append, first]
  rfl

/-- The last lexeme of a content is that of its last element. -/
theorem getLast?_lexemesOf {content : List Element} {element : Element} {lexeme : Lexeme}
    (ends : content.getLast? = some element) (last : element.lexemes.getLast? = some lexeme) :
    (lexemesOf content).getLast? = some lexeme := by
  obtain ⟨earlier, rfl⟩ := List.getLast?_eq_some_iff.1 ends
  rw [lexemesOf_append, lexemesOf, lexemesOf, List.append_nil, List.getLast?_append, last]
  rfl

/-- **The range of a formed element is that of its lexemes.** -/
theorem Formed.range_spans {element : Element} (formed : element.Formed)
    (spaced : Lexeme.Spaced element.lexemes) : element.range.Spans element.lexemes := by
  induction formed with
  | token lexeme => exact ⟨lexeme, lexeme, rfl, rfl, rfl⟩
  | @node kind range content owning spans parts ih =>
    have inner : ∀ element ∈ content, element.range.Spans element.lexemes := fun element member =>
      ih element member (spaced.sublist (lexemes_infix_of_mem member).sublist)
    obtain ⟨firstElement, starts⟩ := Option.ne_none_iff_exists'.1
      (fun none => owning (List.head?_eq_none_iff.1 none))
    obtain ⟨lastElement, ends⟩ := Option.ne_none_iff_exists'.1
      (fun none => owning (List.getLast?_eq_none_iff.1 none))
    obtain ⟨first, _, first_eq, _, firstRange⟩ := inner firstElement (List.mem_of_head? starts)
    obtain ⟨_, last, _, last_eq, lastRange⟩ := inner lastElement (List.mem_of_getLast? ends)
    have firstOf := head?_lexemesOf starts first_eq
    have lastOf := getLast?_lexemesOf ends last_eq
    refine ⟨first, last, firstOf, lastOf, ?_⟩
    show range = _
    rw [spans, hull, starts, ends]
    simp only
    rw [firstRange, lastRange]
    exact Range.ofEnds_of_le (spaced.first_start_le_last_stop firstOf lastOf)

/-- **The elements of a content follow one another.** -/
theorem ranges_apart {content : List Element} (formed : ∀ element ∈ content, element.Formed)
    (spaced : Lexeme.Spaced (lexemesOf content)) :
    content.Pairwise fun first second => first.range.stop ≤ second.range.start := by
  have apart := spaced.apart
  rw [lexemesOf_eq_flatMap, List.pairwise_flatMap] at apart
  refine apart.2.imp_of_mem fun {first second} isFirst isSecond between => ?_
  have inner : ∀ element ∈ content, element.range.Spans element.lexemes := fun element member =>
    (formed element member).range_spans (spaced.sublist (lexemes_infix_of_mem member).sublist)
  obtain ⟨_, last, _, last_eq, firstRange⟩ := inner first isFirst
  obtain ⟨start, _, start_eq, _, secondRange⟩ := inner second isSecond
  rw [firstRange, secondRange]
  exact between last (List.mem_of_getLast? last_eq) start (List.mem_of_head? start_eq)

end Element

/-! ### The ranges of nodes -/

namespace Node.Formed

variable {node child : Node}

/-- **The range of a node runs from the start of its first token to the end of its last.** -/
theorem range_spans (formed : node.Formed) (spaced : Lexeme.Spaced node.lexemes) :
    node.range.Spans node.lexemes :=
  Element.Formed.range_spans formed spaced

/-- **No child ends after a later one starts.** -/
theorem children_apart (formed : node.Formed) (spaced : Lexeme.Spaced node.lexemes) :
    node.children.Pairwise fun first second => first.range.stop ≤ second.range.start := by
  rw [children, List.pairwise_filterMap]
  refine (Element.ranges_apart formed.parts spaced).imp fun {first second} apart => ?_
  intro firstChild isFirst secondChild isSecond
  rw [Element.node?_eq_some_iff.1 isFirst, Element.node?_eq_some_iff.1 isSecond] at apart
  exact apart

/-- No child ends before it starts. -/
theorem child_ordered (formed : node.Formed) (spaced : Lexeme.Spaced node.lexemes)
    (member : child ∈ node.children) : child.range.Ordered := by
  have inside : child.lexemes <:+: node.lexemes :=
    Element.lexemes_infix_of_mem (mem_children.1 member)
  have childSpaced := spaced.sublist inside.sublist
  obtain ⟨first, last, first_eq, last_eq, childRange⟩ :=
    (formed.of_mem_children member).range_spans childSpaced
  rw [childRange]
  exact childSpaced.first_start_le_last_stop first_eq last_eq

/-- **A node covers each of its children.** -/
theorem contains_child (formed : node.Formed) (spaced : Lexeme.Spaced node.lexemes)
    (member : child ∈ node.children) : node.range.containsRange child.range = true := by
  have inside : child.lexemes <:+: node.lexemes :=
    Element.lexemes_infix_of_mem (mem_children.1 member)
  obtain ⟨first, last, first_eq, last_eq, nodeRange⟩ := formed.range_spans spaced
  obtain ⟨childFirst, childLast, childFirst_eq, childLast_eq, childRange⟩ :=
    (formed.of_mem_children member).range_spans (spaced.sublist inside.sublist)
  have covers := (Range.relation_eq_contains_iff node.range child.range).2 (by
    rw [nodeRange, childRange]
    exact ⟨spaced.first_start_le first_eq (inside.subset (List.mem_of_head? childFirst_eq)),
      spaced.stop_le_last last_eq (inside.subset (List.mem_of_getLast? childLast_eq))⟩)
  rw [Range.containsRange, covers]
  rfl

end Node.Formed

end CellSyntax
