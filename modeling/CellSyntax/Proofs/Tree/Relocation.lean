/-
**Moving everything to other positions.**

Tokens, syntax trees, trees of cells and mismatches hold positions. Moving all of them by one map of
positions keeps all else: kinds, literals, the numbers of tokens, and what lies in what. A map is
rigid if it keeps the order of positions and which of them share a line, as moving everything down
by some lines does. Rigid maps also keep which ranges are put in order, so what is built from moved
parts is what was built, moved.

* `Position.Rigid.lowered`: moving down by some lines is rigid;
* `Element.hull_relocate`, `Node.ofContent_relocate`: the range of a node over moved content;
* `CellTree.relocate_undone`: moves of trees are undone as moves of positions are;
* `Shape.ofNodes_relocate`: the shapes of a moved syntax tree.
-/

import CellSyntax.Bracket
import CellSyntax.Tree.Basic
import CellSyntax.Zip.Shape

namespace CellSyntax

/-! ### Moving what holds positions -/

section Moves

variable (move : Position → Position)

def Range.relocate (range : Range) : Range := ⟨move range.start, move range.stop⟩

def Token.relocate (token : Token) : Token := { token with range := token.range.relocate move }

def Lexeme.relocate (lexeme : Lexeme) : Lexeme := ⟨lexeme.number, lexeme.token.relocate move⟩

def BracketMismatch.relocate (mismatch : BracketMismatch) : BracketMismatch :=
  { mismatch with position := move mismatch.position }

mutual

def Element.relocate : Element → Element
  | .token lexeme => .token (lexeme.relocate move)
  | .node kind range content => .node kind (range.relocate move) (Element.relocateAll content)

def Element.relocateAll : List Element → List Element
  | [] => []
  | element :: rest => element.relocate :: Element.relocateAll rest

end

def Node.relocate (node : Node) : Node :=
  ⟨node.kind, node.range.relocate move, Element.relocateAll move node.content⟩

def CellTree.relocate : CellTree → CellTree
  | .empty => .empty
  | .tree root => .tree (root.relocate move)

mutual

def AstNode.relocate : AstNode → AstNode
  | ⟨kind, anchor, children⟩ => ⟨kind, anchor.map move, AstNode.relocateAll children⟩

def AstNode.relocateAll : List AstNode → List AstNode
  | [] => []
  | node :: rest => node.relocate :: AstNode.relocateAll rest

end

mutual

def Shape.relocate : Shape → Shape
  | ⟨kind, anchor, lead, children⟩ =>
    ⟨kind, anchor.map move, move lead, Shape.relocateAll children⟩

def Shape.relocateAll : List Shape → List Shape
  | [] => []
  | shape :: rest => shape.relocate :: Shape.relocateAll rest

end

theorem Element.relocateAll_eq_map (content : List Element) :
    Element.relocateAll move content = content.map (Element.relocate move) := by
  induction content with
  | nil => rfl
  | cons element rest ih => rw [Element.relocateAll, ih, List.map_cons]

theorem AstNode.relocateAll_eq_map (nodes : List AstNode) :
    AstNode.relocateAll move nodes = nodes.map (AstNode.relocate move) := by
  induction nodes with
  | nil => rfl
  | cons node rest ih => rw [AstNode.relocateAll, ih, List.map_cons]

theorem Shape.relocateAll_eq_map (shapes : List Shape) :
    Shape.relocateAll move shapes = shapes.map (Shape.relocate move) := by
  induction shapes with
  | nil => rfl
  | cons shape rest ih => rw [Shape.relocateAll, ih, List.map_cons]

theorem Element.range_relocate (element : Element) :
    (element.relocate move).range = element.range.relocate move := by
  cases element <;> rfl

theorem Shape.lead_relocate (shape : Shape) : (shape.relocate move).lead = move shape.lead := by
  cases shape
  rfl

theorem AstNode.kind_relocate (node : AstNode) : (node.relocate move).kind = node.kind := by
  cases node
  rfl

theorem AstNode.children_relocate (node : AstNode) :
    (node.relocate move).children = node.children.map (AstNode.relocate move) := by
  cases node
  exact AstNode.relocateAll_eq_map move _

theorem Lexeme.sequence_relocate (tokens : List Token) :
    sequence (tokens.map (Token.relocate move)) = (sequence tokens).map (Lexeme.relocate move) := by
  have from_ (first : Nat) : sequenceFrom first (tokens.map (Token.relocate move)) =
      (sequenceFrom first tokens).map (Lexeme.relocate move) := by
    induction tokens generalizing first with
    | nil => rfl
    | cons token rest ih =>
      rw [List.map_cons, sequenceFrom, ih, sequenceFrom, List.map_cons]
      rfl
  exact from_ 0

end Moves

/-! ### Undoing a move -/

section Undoing

variable {move back : Position → Position}

theorem Range.relocate_undone (undoes : ∀ position, back (move position) = position)
    (range : Range) : (range.relocate move).relocate back = range := by
  show Range.mk (back (move range.start)) (back (move range.stop)) = range
  rw [undoes, undoes]

theorem Lexeme.relocate_undone (undoes : ∀ position, back (move position) = position)
    (lexeme : Lexeme) :
    (lexeme.relocate move).relocate back = lexeme := by
  show Lexeme.mk lexeme.number ⟨lexeme.token.kind,
    (lexeme.token.range.relocate move).relocate back, lexeme.token.literal⟩ = lexeme
  rw [Range.relocate_undone undoes]

mutual

theorem Element.relocate_undone (undoes : ∀ position, back (move position) = position) :
    ∀ element : Element, (element.relocate move).relocate back = element
  | .token lexeme => congrArg Element.token (Lexeme.relocate_undone undoes lexeme)
  | .node kind range content => by
    rw [Element.relocate, Element.relocate, Range.relocate_undone undoes,
      Element.relocateAll_undone undoes content]

theorem Element.relocateAll_undone (undoes : ∀ position, back (move position) = position) :
    ∀ content : List Element,
      Element.relocateAll back (Element.relocateAll move content) = content
  | [] => rfl
  | element :: rest => by
    rw [Element.relocateAll, Element.relocateAll, Element.relocate_undone undoes element,
      Element.relocateAll_undone undoes rest]

end

/-- **A move of a tree is undone** by what undoes it for positions. -/
theorem CellTree.relocate_undone (undoes : ∀ position, back (move position) = position)
    (tree : CellTree) :
    (tree.relocate move).relocate back = tree := by
  cases tree with
  | empty => rfl
  | tree root =>
    show CellTree.tree ⟨root.kind, (root.range.relocate move).relocate back,
      Element.relocateAll back (Element.relocateAll move root.content)⟩ = .tree root
    rw [Range.relocate_undone undoes, Element.relocateAll_undone undoes]

end Undoing

/-! ### Rigid moves -/

/-- **A rigid move** keeps the order of positions and which of them share a line. -/
structure Position.Rigid (move : Position → Position) : Prop where
  le_iff : ∀ {first second}, move first ≤ move second ↔ first ≤ second
  line_iff : ∀ {first second}, (move first).line = (move second).line ↔ first.line = second.line

/-- The position that lies some lines further down. -/
def Position.lowered (lines : Nat) (position : Position) : Position :=
  ⟨position.line + lines, position.column⟩

/-- **Moving everything down by some lines is rigid.** -/
theorem Position.Rigid.lowered (lines : Nat) : Position.Rigid (Position.lowered lines) where
  le_iff := by
    intro first second
    rw [Position.le_def, Position.le_def]
    simp only [Position.lowered]
    omega
  line_iff := by
    intro first second
    simp only [Position.lowered]
    omega

variable {move : Position → Position} (rigid : Position.Rigid move)
include rigid

theorem Position.Rigid.lt_iff {first second : Position} :
    move first < move second ↔ first < second := by
  rw [Position.lt_iff_not_le, Position.lt_iff_not_le, rigid.le_iff]

theorem Position.Rigid.eq_iff {first second : Position} :
    move first = move second ↔ first = second := by
  refine ⟨fun same => ?_, fun same => same ▸ rfl⟩
  refine Position.le_antisymm (rigid.le_iff.1 ?_) (rigid.le_iff.1 ?_)
  · rw [same]
    exact Position.le_refl _
  · rw [same]
    exact Position.le_refl _

theorem Range.ofEnds_relocate (first second : Position) :
    (ofEnds first second).relocate move = ofEnds (move first) (move second) := by
  unfold ofEnds
  simp only [rigid.le_iff]
  split <;> rfl

/-- **The hull of moved content**, of which there is some. -/
theorem Element.hull_relocate {content : List Element} (some : content ≠ []) :
    hull (content.map (Element.relocate move)) = (hull content).relocate move := by
  obtain ⟨first, isFirst⟩ := Option.isSome_iff_exists.1 (List.isSome_head?.2 some)
  obtain ⟨last, isLast⟩ := Option.isSome_iff_exists.1 (List.getLast?_isSome.2 some)
  rw [hull, hull, List.head?_map, List.getLast?_map, isFirst, isLast]
  simp only [Option.map_some, Element.range_relocate]
  exact (Range.ofEnds_relocate rigid _ _).symm

theorem Node.ofContent_relocate (kind : String) {content : List Element} (some : content ≠ []) :
    Node.ofContent kind (content.map (Element.relocate move)) =
      (Node.ofContent kind content).relocate move := by
  rw [Node.ofContent, Element.hull_relocate rigid some, ← Element.relocateAll_eq_map]
  rfl

/-! ### Shapes of moved syntax trees -/

namespace Shape

theorem insert_relocate (shape : Shape) (others : List Shape) :
    (shape.relocate move).insert (others.map (Shape.relocate move)) =
      (shape.insert others).map (Shape.relocate move) := by
  induction others with
  | nil => rfl
  | cons other rest ih =>
    rw [List.map_cons, insert, insert, lead_relocate, lead_relocate]
    by_cases earlier : shape.lead ≤ other.lead
    · rw [if_pos earlier, if_pos (rigid.le_iff.2 earlier)]
      rfl
    · rw [if_neg earlier, if_neg (mt rigid.le_iff.1 earlier), ih]
      rfl

theorem leadOf?_relocate (anchor : Option Position) (shapes : List Shape) :
    leadOf? (anchor.map move) (shapes.map (Shape.relocate move)) =
      (leadOf? anchor shapes).map move := by
  rcases anchor with _ | position <;> rcases shapes with _ | ⟨child, rest⟩
  · rfl
  · simp only [leadOf?, Option.map_none, List.map_cons, lead_relocate, Option.map_some]
  · rfl
  · simp only [leadOf?, Option.map_some, List.map_cons, lead_relocate, rigid.le_iff]
    split <;> rfl

mutual

theorem ofNode?_relocate : ∀ node : AstNode,
    ofNode? (node.relocate move) = (ofNode? node).map (Shape.relocate move)
  | ⟨kind, anchor, children⟩ => by
    rw [AstNode.relocate, AstNode.relocateAll_eq_map, ofNode?, ofNode?, ofNodes_relocate children,
      leadOf?_relocate rigid, Option.map_map, Option.map_map]
    congr 1
    funext lead
    simp only [Function.comp_apply, Shape.relocate, Shape.relocateAll_eq_map]

/-- **The shapes of moved siblings are their shapes, moved.** -/
theorem ofNodes_relocate : ∀ nodes : List AstNode,
    ofNodes (nodes.map (AstNode.relocate move)) = (ofNodes nodes).map (Shape.relocate move)
  | [] => rfl
  | node :: rest => by
    rw [List.map_cons, ofNodes, ofNodes, ofNode?_relocate node]
    cases ofNode? node with
    | none => exact ofNodes_relocate rest
    | some shape =>
      simp only [Option.map_some]
      rw [ofNodes_relocate rest, insert_relocate rigid]

end

end Shape

end CellSyntax
