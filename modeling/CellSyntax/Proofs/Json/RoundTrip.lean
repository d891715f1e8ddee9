/-
**What is written as JSON is read back.**

A parser answer whose coordinates fit into 64 bits is written with integers of 64 bits only, so its
text is read back, and the value that is read stands for the answer. An edit is read straight from
its text, field by field. Ranges may be inverted, and strings may hold any characters.

* `ParseOutput.integral_toJson`: parser answers are written with integers of 64 bits;
* `Position.readDirect_compact`, `EditDescriptor.read_compact`: positions and edits are read back;
* `decode_encode`: parser answers and edits are what their written forms decode to.
-/

import CellSyntax.Json.Edit
import CellSyntax.Json.ParseOutput
import CellSyntax.Proofs.Ast.Anchors
import CellSyntax.Proofs.Edit.LineShift
import CellSyntax.Proofs.Json.Fields

namespace CellSyntax

variable {rest : List Char}

/-! ### Written with integers of 64 bits -/

theorem Json.Integral.natural {value : Nat} (fits : value ≤ maxCoordinate) :
    (Json.natural value).Integral := by
  refine .integer ?_ (Int.ofNat_lt.2 (Nat.lt_succ_of_le fits))
  have : (0 : Int) ≤ (value : Int) := Int.natCast_nonneg value
  omega

theorem Position.integral_toJson {position : Position} (within : position.Within maxCoordinate) :
    position.toJson.Integral :=
  .object (List.forall_mem_cons.2 ⟨.natural within.line,
    List.forall_mem_cons.2 ⟨.natural within.column, nofun⟩⟩)

theorem Token.integral_toJson {token : Token} (within : token.range.Within maxCoordinate) :
    token.toJson.Integral :=
  .object (List.forall_mem_cons.2 ⟨.string _,
    List.forall_mem_cons.2 ⟨Position.integral_toJson within.start,
      List.forall_mem_cons.2 ⟨Position.integral_toJson within.stop,
        List.forall_mem_cons.2 ⟨.string _, nofun⟩⟩⟩⟩)

theorem AstNode.listToJson_eq_map (nodes : List AstNode) :
    listToJson nodes = nodes.map toJson := by
  induction nodes with
  | nil => rfl
  | cons node rest ih => rw [listToJson, ih, List.map_cons]

theorem AstNode.integral_toJson {node : AstNode}
    (within : ∀ position ∈ node.anchors, position.Within maxCoordinate) :
    node.toJson.Integral := by
  induction node using AstNode.children_induction with
  | step node ih =>
    obtain ⟨kind, anchor, children⟩ := node
    have below : ∀ child ∈ children, child.toJson.Integral := fun child isChild =>
      ih child isChild fun position member =>
        within position (anchors_of_mem_children isChild _ member)
    rw [toJson.eq_def]
    refine .object fun member inObject => ?_
    rw [List.mem_append, List.mem_append, List.mem_singleton] at inObject
    rcases inObject with (rfl | inAnchor) | inChildren
    · exact .string kind
    · cases anchor with
      | none => cases inAnchor
      | some position =>
        rw [List.mem_singleton] at inAnchor
        subst inAnchor
        exact Position.integral_toJson (within position (mem_anchors_iff.2 (Or.inl rfl)))
    · cases children with
      | nil => cases inChildren
      | cons first others =>
        rw [List.mem_singleton] at inChildren
        subst inChildren
        rw [← listToJson, listToJson_eq_map]
        exact .array (List.forall_mem_map.2 below)

/-- **All coordinates of a parser answer are at most a bound**: those of its tokens, and the anchors
of its syntax tree. -/
structure ParseOutput.Within (bound : Nat) (output : ParseOutput) : Prop where
  tokens : ∀ token ∈ output.tokens, token.range.Within bound
  anchors : ∀ node, output.ast = some node → ∀ position ∈ node.anchors, position.Within bound

theorem ParseOutput.integral_toJson {output : ParseOutput} (within : output.Within maxCoordinate) :
    output.toJson.Integral := by
  refine .object fun member inObject => ?_
  rw [List.mem_append, List.mem_cons, List.mem_singleton] at inObject
  rcases inObject with inSource | rfl | rfl
  · cases source : output.source with
    | none =>
      rw [source] at inSource
      cases inSource
    | some text =>
      rw [source, List.mem_singleton] at inSource
      subst inSource
      exact .string text
  · exact .array (List.forall_mem_map.2 fun token member =>
      Token.integral_toJson (within.tokens token member))
  · show (Json.nullable AstNode.toJson output.ast).Integral
    cases ast : output.ast with
    | none => exact .null
    | some node => exact AstNode.integral_toJson (within.anchors node ast)

/-! ### Parser answers -/

/-- A text that stands for a written parser answer holds that answer. -/
theorem ParseOutput.read_of_toJson {output : ParseOutput} {text : String}
    (isText : Json.read text = some output.toJson) :
    ParseOutput.read text = .ok (some output) := by
  have answer : ofAnswer? output.toJson = some (some output) := by
    show (ofJson? output.toJson).map some = _
    rw [ofJson?_toJson, Option.map_some]
  rw [ParseOutput.read, isText]
  simp only [answer]

/-! ### Positions and edits -/

theorem Position.readDirect_compact {position : Position}
    (within : position.Within maxCoordinate) :
    Position.readDirect (position.toJson.compact.toList ++ rest) = .ok (position, rest) := by
  rw [toJson, Json.toList_object, List.cons_append, List.append_assoc, List.singleton_append,
    readDirect, Json.skipBlanks_cons (by decide)]
  show Json.Direct.readFields _ (none, none) _ _ = _
  refine Json.Direct.readFields_compact (List.cons_ne_nil _ _)
    (.cons (some position.line, none) (fun rest ends => ?line)
      (.cons (some position.line, some position.column) (fun rest ends => ?column) (.nil _))) rfl
  case line =>
    have read := Json.Direct.readOnce_colon
      (@Json.Direct.readNatural_natural rest _ within.line ends)
    simp only [if_pos, read]
    rfl
  case column =>
    have read := Json.Direct.readOnce_colon
      (@Json.Direct.readNatural_natural rest _ within.column ends)
    simp only [read]
    rfl

theorem EditDescriptor.readDirect_compact {edit : EditDescriptor}
    (start : edit.start.Within maxCoordinate) (stop : edit.stop.Within maxCoordinate) :
    EditDescriptor.readDirect (edit.toJson.compact.toList ++ rest) = .ok (edit, rest) := by
  rw [toJson, Json.toList_object, List.cons_append, List.append_assoc, List.singleton_append,
    readDirect, Json.skipBlanks_cons (by decide)]
  show Json.Direct.readFields Fields.read {} Fields.edit? _ = _
  let fields : Fields := ⟨some edit.start, some edit.stop, some edit.removed, some edit.inserted⟩
  refine Json.Direct.readFields_compact (List.cons_ne_nil _ _)
    (.cons ⟨some edit.start, none, none, none⟩ (fun rest ends => ?start)
    (.cons ⟨some edit.start, some edit.stop, none, none⟩ (fun rest ends => ?stop)
    (.cons ⟨some edit.start, some edit.stop, some edit.removed, none⟩ (fun rest ends => ?removed)
    (.cons ⟨some edit.start, some edit.stop, some edit.removed, some edit.inserted⟩
      (fun rest ends => ?inserted) (.nil _))))) rfl
  case start =>
    have read := Json.Direct.readOnce_colon (@Position.readDirect_compact rest _ start)
    simp only [Fields.read, if_pos, read]
    rfl
  case stop =>
    have read := Json.Direct.readOnce_colon (@Position.readDirect_compact rest _ stop)
    simp only [Fields.read, read]
    rfl
  case removed =>
    have read := Json.Direct.readOnce_colon (@Json.Direct.readTexts_strings rest edit.removed)
    simp only [Fields.read, read]
    rfl
  case inserted =>
    have read := Json.Direct.readOnce_colon (@Json.Direct.readTexts_strings rest edit.inserted)
    simp only [Fields.read, read]
    rfl

/-! ### Round trips -/

/-- **Decoding undoes encoding.** A parser answer is read back from its text if that nests fewer
than 128 levels, and from any other text that is read as the same value. An edit is read back from
its text, and from the value that it is written as. -/
theorem decode_encode :
    (∀ output : ParseOutput, output.Within maxCoordinate → output.toJson.levels < 128 →
      ParseOutput.read output.toJson.compact = .ok (some output)) ∧
    (∀ (output : ParseOutput) (text : String), Json.read text = some output.toJson →
      ParseOutput.read text = .ok (some output)) ∧
    (∀ edit : EditDescriptor, edit.start.Within maxCoordinate → edit.stop.Within maxCoordinate →
      EditDescriptor.read edit.toJson.compact = .ok edit) ∧
    ∀ edit : EditDescriptor, EditDescriptor.ofJson? edit.toJson = some edit := by
  refine ⟨fun output within shallow => ?answer, fun _ _ => ParseOutput.read_of_toJson,
    fun edit start stop => ?edit, EditDescriptor.ofJson?_toJson⟩
  case answer =>
    exact ParseOutput.read_of_toJson
      (Json.read_compact (ParseOutput.integral_toJson within) shallow)
  case edit =>
    have read := @EditDescriptor.readDirect_compact [] edit start stop
    rw [List.append_nil] at read
    simp only [EditDescriptor.read, Json.Direct.readWhole, read, bind, Except.bind]
    rfl

/-- An answer with an inverted range, escapes and absent anchors, and an edit at the last position
there can be. -/
theorem decode_encode_escapes :
    let output : ParseOutput :=
      ⟨some "f \"\\\t\x01\n", [⟨"NAME", ⟨⟨2, 1⟩, ⟨0, 3⟩⟩, "\r\n/é"⟩],
        some ⟨"Module", none, [⟨"Name", some ⟨2, 1⟩, []⟩, ⟨"Load", none, []⟩]⟩⟩
    let edit : EditDescriptor := ⟨⟨0, 3⟩, ⟨maxCoordinate, maxCoordinate⟩, ["\"", ""], []⟩
    output.Within maxCoordinate ∧ output.toJson.levels < 128 ∧
      ParseOutput.read output.toJson.compact = .ok (some output) ∧
      edit.start.Within maxCoordinate ∧ edit.stop.Within maxCoordinate ∧
      EditDescriptor.read edit.toJson.compact = .ok edit := by
  intro output edit
  have within : output.Within maxCoordinate := by
    refine ⟨by decide, fun node isAst => ?_⟩
    cases isAst
    decide
  have shallow : output.toJson.levels < 128 := by decide
  have start : edit.start.Within maxCoordinate := by decide
  have stop : edit.stop.Within maxCoordinate := by decide
  exact ⟨within, shallow, decode_encode.1 output within shallow, start, stop,
    decode_encode.2.2.1 edit start stop⟩

end CellSyntax
