/-
**Which ranges are ordered, from the answer of a parser to the last edit.**

A token has its ends as the answer gives them, in whatever order they are. Counting lines anew moves
each end up on its own and no further than to the first line, so ends on two lines may meet there with
the columns that they had. Filling gaps puts in tokens with ordered ranges, and from there on tokens
stay as they are: zipping and edits give a range to nodes only, and they put the ends of those in
order. So a node never ends before it starts, and a token of a tree does only if it did before gaps
were filled.

* `Range.rebase_ordered_iff`: which ranges are ordered after counting lines anew;
* `ParseOutput.forall₂_writtenIn`: the tokens of an answer have their ends as written;
* `ordered_or_mem_of_mem_cellTokens`: the tokens of a tree;
* `Session.ordered_after_edits`: the tokens and nodes of a tree over any number of edits;
* `Session.ranges_ordered`: all stages together;
* `Session.ranges_inverted`: tokens that end before they start.
-/

import CellSyntax.Json.ParseOutput
import CellSyntax.Proofs.Propagate.Frame
import CellSyntax.Proofs.Session.EditedOrder
import CellSyntax.Proofs.Session.Tickets
import CellSyntax.Proofs.Tree.OrderedRanges
import CellSyntax.Proofs.Trivia.Given
import CellSyntax.Proofs.Zip.TreeOver

namespace CellSyntax

/-! ### Counting lines anew -/

/-- **Which ranges are ordered after counting lines anew**: if both ends come to lie on the first
line then only columns count, and otherwise the order stays as it was. -/
theorem Range.rebase_ordered_iff (lineBase : Nat) (range : Range) :
    (range.rebase lineBase).Ordered ↔
      if range.start.line ≤ lineBase ∧ range.stop.line ≤ lineBase then
        range.start.column ≤ range.stop.column
      else range.Ordered := by
  simp only [rebase, Position.rebase, Ordered, Position.le_def]
  split <;> omega

/-! ### Decoding -/

/-- **A value gives the ends of a token**, each under its own name. -/
def Token.WrittenIn (json : Json) (token : Token) : Prop :=
  ∃ members, json = .object members ∧
    (Json.member? "start" members).bind Position.ofJson? = some token.range.start ∧
    (Json.member? "end" members).bind Position.ofJson? = some token.range.stop

theorem Token.writtenIn_of_ofJson? {json : Json} {token : Token}
    (read : Token.ofJson? json = some token) : token.WrittenIn json := by
  cases json with
  | object members =>
    simp only [ofJson?, bind, Option.bind_eq_some_iff, pure] at read
    obtain ⟨_, -, kind, -, first, isFirst, start, isStart, last, isLast, stop, isStop, _, -, literal,
      -, same⟩ := read
    cases same
    exact ⟨members, rfl, Option.bind_eq_some_iff.2 ⟨first, isFirst, isStart⟩,
      Option.bind_eq_some_iff.2 ⟨last, isLast, isStop⟩⟩
  | _ => cases read

/-- Tokens are read from the items of a list one by one. -/
theorem Token.forall₂_writtenIn {items : List Json} {tokens : List Token}
    (read : items.mapM Token.ofJson? = some tokens) :
    List.Forall₂ Token.WrittenIn items tokens := by
  induction items generalizing tokens with
  | nil =>
    cases read
    exact .nil
  | cons json rest ih =>
    simp only [List.mapM_cons, bind, Option.bind_eq_some_iff, pure] at read
    obtain ⟨token, here, later, others, same⟩ := read
    cases same
    exact .cons (writtenIn_of_ofJson? here) (ih others)

theorem Token.exists_items_of_listOfJson? {json : Json} {tokens : List Token}
    (read : Token.listOfJson? json = some tokens) :
    ∃ items, json = .array items ∧
      List.Forall₂ Token.WrittenIn items tokens := by
  cases json with
  | array items => exact ⟨items, rfl, forall₂_writtenIn read⟩
  | _ => cases read

namespace ParseOutput

/-- The value that the tokens of an answer are read from, if there is one. -/
def tokensIn? : Json → Option Json
  | .array items => items[1]?
  | .object members => Json.member? "tokens" members
  | _ => none

/-- The values that the tokens of an answer are read from, one by one. -/
def tokenItems (answer : Json) : List Json :=
  match tokensIn? answer with
  | some (.array items) => items
  | _ => []

/-- **The tokens of an answer** are those of this value, or there are none. -/
theorem tokens_of_ofJson? {answer : Json} {output : ParseOutput}
    (read : ofJson? answer = some output) :
    ((tokensIn? answer).map Token.listOfJson?).getD (some []) = some output.tokens := by
  unfold ofJson? at read
  split at read
  · cases read
    rfl
  · simp only [bind, Option.bind_eq_some_iff, pure] at read
    obtain ⟨_, -, same⟩ := read
    cases same
    rfl
  · simp only [bind, Option.bind_eq_some_iff, pure] at read
    obtain ⟨_, -, tokens, list, same⟩ := read
    cases same
    exact list
  · simp only [bind, Option.bind_eq_some_iff, pure] at read
    obtain ⟨_, -, tokens, list, _, -, same⟩ := read
    cases same
    exact list
  · simp only [bind, Option.bind_eq_some_iff, pure] at read
    obtain ⟨_, -, tokens, list, _, -, same⟩ := read
    cases same
    exact list
  · cases read

theorem forall₂_writtenIn_of_ofJson? {answer : Json} {output : ParseOutput}
    (read : ofJson? answer = some output) :
    List.Forall₂ Token.WrittenIn (tokenItems answer) output.tokens := by
  have list := tokens_of_ofJson? read
  unfold tokenItems
  cases found : tokensIn? answer with
  | none =>
    rw [found] at list
    rw [← Option.some.inj list]
    exact .nil
  | some json =>
    rw [found] at list
    obtain ⟨items, rfl, each⟩ := Token.exists_items_of_listOfJson? list
    exact each

/-- **The tokens of an answer have the ends that it gives them**, in whatever order they are. -/
theorem forall₂_writtenIn {text : String} {output : ParseOutput}
    (decoded : ParseOutput.read text = .ok (some output)) :
    ∃ answer, Json.read text = some answer ∧
      List.Forall₂ Token.WrittenIn (tokenItems answer) output.tokens := by
  unfold ParseOutput.read at decoded
  split at decoded
  · cases decoded
  · rename_i answer isJson
    split at decoded
    · cases decoded
    · rename_i outcome isAnswer
      cases decoded
      refine ⟨answer, isJson, ?_⟩
      unfold ofAnswer? at isAnswer
      split at isAnswer
      · cases isAnswer
      · cases isAnswer
      · obtain ⟨_, read, same⟩ := Option.map_eq_some_iff.1 isAnswer
        cases same
        exact forall₂_writtenIn_of_ofJson? read

/-- Whether a text holds an answer without a syntax tree that has the given source and tokens. -/
def holds (text : String) (source : Option String) (tokens : List Token) : Bool :=
  match ParseOutput.read text with
  | .ok (some output) => output.source == source && output.tokens == tokens && output.ast.isNone
  | _ => false

theorem read_of_holds {text : String} {source : Option String} {tokens : List Token}
    (holds : ParseOutput.holds text source tokens = true) :
    ParseOutput.read text = .ok (some ⟨source, tokens, none⟩) := by
  unfold ParseOutput.holds at holds
  split at holds
  · rename_i output read
    obtain ⟨ownSource, ownTokens, ast⟩ := output
    simp only [Bool.and_eq_true, beq_iff_eq, Option.isNone_iff_eq_none] at holds
    obtain ⟨⟨rfl, rfl⟩, rfl⟩ := holds
    exact read
  · cases holds

end ParseOutput

/-! ### The tokens of a tree -/

theorem mem_of_mem_stripMarkers {config : TokenConfig} {tokens : List Token} {token : Token}
    (member : token ∈ stripMarkers config tokens) : token ∈ tokens := by
  have ended {token : Token} (member : token ∈
      (tokens.reverse.dropWhile fun token => token.kind == config.endMarker).reverse) :
      token ∈ tokens :=
    List.mem_reverse.1 ((List.dropWhile_suffix _).subset (List.mem_reverse.1 member))
  simp only [stripMarkers] at member
  split at member
  · cases member
  · rename_i first rest unended
    rw [unended] at ended
    split at member
    · exact ended (List.mem_cons_of_mem first member)
    · exact ended member

theorem ordered_or_mem_of_mem_fillGaps {text kind : String} {tokens : List Token} {token : Token}
    (member : token ∈ fillGaps text kind tokens) : token.range.Ordered ∨ token ∈ tokens :=
  (mem_gapTokens_or_mem member).imp_left fun gap => Position.le_of_lt (gapTokens_start_lt gap)

/-- **A token that a tree stands over is ordered or was given.** -/
theorem ordered_or_mem_of_mem_cellTokens {config : TokenConfig} {source : Option String}
    {tokens : List Token} {token : Token} (member : token ∈ cellTokens config source tokens) :
    token.range.Ordered ∨ token ∈ tokens := by
  cases source with
  | none => exact Or.inr (mem_of_mem_stripMarkers member)
  | some text => exact (ordered_or_mem_of_mem_fillGaps member).imp_right mem_of_mem_stripMarkers

/-! ### Edits -/

namespace Node

variable {root : Node}

/-- The range of what is handed back after an edit is ordered, too. -/
theorem Ordered.repair_range (ordered : root.Ordered) (edit : EditDescriptor) (newText : String) :
    (root.repair edit newText).2.range.Ordered := by
  have corrected := ordered.propagate edit.delta (root.locate edit.beforeRange)
  show (((root.propagate edit.delta (root.locate edit.beforeRange)).at?
    (root.locate edit.beforeRange)).getD _).range.Ordered
  cases found : (root.propagate edit.delta (root.locate edit.beforeRange)).at?
      (root.locate edit.beforeRange) with
  | none => exact corrected.range
  | some node => exact corrected.range_at? found

end Node

namespace Session

variable {session : Session} {root : Node}

/-- **One edit keeps the tokens, and the ranges of nodes ordered.** -/
theorem ordered_applyEdit (isTree : session.tree = .tree root) (ordered : root.Ordered)
    (edit : EditDescriptor) :
    ∃ current, (session.applyEdit edit).1.tree = .tree current ∧
      current.lexemes = root.lexemes ∧ current.Ordered :=
  ⟨_, tree_applyEdit isTree edit, Node.lexemes_propagate _ _ _, ordered.propagate _ _⟩

/-- **So do any number of them.** -/
theorem ordered_after_edits (isTree : session.tree = .tree root) (ordered : root.Ordered)
    (edits : List EditDescriptor) :
    ∃ current, (session.after (edits.map .applyEdit : List (Call Empty))).tree = .tree current ∧
      current.lexemes = root.lexemes ∧ current.Ordered := by
  induction edits generalizing session root with
  | nil => exact ⟨root, isTree, rfl, ordered⟩
  | cons edit rest ih =>
    obtain ⟨next, isNext, kept, nextOrdered⟩ := ordered_applyEdit isTree ordered edit
    obtain ⟨current, isCurrent, same, done⟩ := ih isNext nextOrdered
    exact ⟨current, isCurrent, same.trans kept, done⟩

/-- **Nodes never end before they start, and tokens of a tree do only if those of the answer do once
lines are counted anew.** A token of an answer has the ends that were written, and what counting lines
anew makes of it depends on where the base line is. Of the tokens that a tree stands over, those that
were not given are ordered. From the tree on tokens stay as they are, and after any number of edits
the range of every node is ordered, as is that of what a further edit hands back. -/
theorem ranges_ordered {text : String} {output : ParseOutput}
    (decoded : ParseOutput.read text = .ok (some output)) (lineBase : Nat) (config : TokenConfig)
    (source : Option String) :
    (∃ answer, Json.read text = some answer ∧
      List.Forall₂ Token.WrittenIn (ParseOutput.tokenItems answer) output.tokens) ∧
    (∀ token ∈ output.tokens, (token.rebase lineBase).range.Ordered ↔
      if token.range.start.line ≤ lineBase ∧ token.range.stop.line ≤ lineBase then
        token.range.start.column ≤ token.range.stop.column
      else token.range.Ordered) ∧
    (∀ token ∈ cellTokens config source (output.rebase lineBase).tokens,
      token.range.Ordered ∨ token ∈ (output.rebase lineBase).tokens) ∧
    ∀ root, TreeOver config (cellTokens config source (output.rebase lineBase).tokens) root →
      ∀ (typed : String) (edits : List EditDescriptor), ∃ current,
        ((new typed (.tree root)).after (edits.map .applyEdit : List (Call Empty))).tree =
          .tree current ∧
        current.lexemes.map Lexeme.token =
          cellTokens config source (output.rebase lineBase).tokens ∧
        (∀ path node, current.at? path = some node → node.range.Ordered) ∧
        ∀ edit newText, (current.repair edit newText).2.range.Ordered := by
  refine ⟨ParseOutput.forall₂_writtenIn decoded, fun token _ => ?_, fun token member => ?_, ?_⟩
  · exact Range.rebase_ordered_iff lineBase token.range
  · exact ordered_or_mem_of_mem_cellTokens member
  · intro root covers typed edits
    have isTree : (new typed (.tree root)).tree = .tree root := rfl
    obtain ⟨current, isCurrent, same, ordered⟩ :=
      ordered_after_edits isTree covers.formed.ordered edits
    refine ⟨current, isCurrent, ?_, fun path node found => ordered.range_at? found, ?_⟩
    · rw [same, covers.tokens_eq]
    · exact fun edit newText => ordered.repair_range edit newText

/-- The text of an answer with lines counted from one, in which the only token ends at the column
where its line starts. -/
def invertedAnswer : String :=
  "[\"ab\",[\x7b\"type\":\"NAME\",\"start\":[1,2],\"end\":[1,0],\"literal\":\"ab\"\x7d]]"

theorem read_invertedAnswer : ParseOutput.read invertedAnswer =
    .ok (some ⟨some "ab", [⟨"NAME", ⟨⟨1, 2⟩, ⟨1, 0⟩⟩, "ab"⟩], none⟩) :=
  ParseOutput.read_of_holds (by decide +kernel)

/-- In the tree of `invertedAnswer`, with a syntax tree of two nodes, after something is typed: the
token is still the other way round, and the nodes around it are not. -/
theorem ranges_ordered_inverted :
    ∃ output root current, ParseOutput.read invertedAnswer = .ok (some output) ∧
      TreeOver {} (cellTokens {} (some "ab") (output.rebase 1).tokens) root ∧
      ((new "ab" (.tree root)).after
        ([EditDescriptor.insert "ab" ⟨0, 1⟩ "x"].map .applyEdit : List (Call Empty))).tree =
          .tree current ∧
      current.lexemes.map Lexeme.token =
        [⟨"WHITESPACE", ⟨⟨0, 0⟩, ⟨0, 2⟩⟩, "ab"⟩, ⟨"NAME", ⟨⟨0, 2⟩, ⟨0, 0⟩⟩, "ab"⟩,
          ⟨"WHITESPACE", ⟨⟨0, 0⟩, ⟨0, 2⟩⟩, "ab"⟩] ∧
      ∀ path node, current.at? path = some node → node.range.Ordered := by
  have decoded := read_invertedAnswer
  obtain ⟨root, zipped⟩ : ∃ root, zipSource {} "ab" ⟨"Module", none, [⟨"Name", some ⟨0, 2⟩, []⟩]⟩
      [⟨"NAME", ⟨⟨0, 2⟩, ⟨0, 0⟩⟩, "ab"⟩] = .ok (.tree root) := ⟨_, rfl⟩
  have covers := TreeOver.ofSource zipped
  obtain ⟨current, isCurrent, same, nodes, -⟩ := (ranges_ordered decoded 1 {} (some "ab")).2.2.2 root
    covers "ab" [.insert "ab" ⟨0, 1⟩ "x"]
  exact ⟨_, root, current, decoded, covers, isCurrent, same.trans (by decide +kernel), nodes⟩

/-- The text of an answer in which the only token goes on over a line break, from a column on that is
further to the right than the one it ends at. -/
def crossingAnswer : String :=
  "[null,[\x7b\"type\":\"STRING\",\"start\":[0,5],\"end\":[1,0],\"literal\":\"a\"\x7d]]"

theorem read_crossingAnswer : ParseOutput.read crossingAnswer =
    .ok (some ⟨none, [⟨"STRING", ⟨⟨0, 5⟩, ⟨1, 0⟩⟩, "a"⟩], none⟩) :=
  ParseOutput.read_of_holds (by decide +kernel)

/-- **Tokens that end before they start**: one of an answer does and still does in the tree, and one
of an answer whose tokens are all ordered does once lines are counted anew. -/
theorem ranges_inverted :
    (∃ output root, ParseOutput.read invertedAnswer = .ok (some output) ∧
      (∃ token ∈ output.tokens, ¬ token.range.Ordered) ∧
      zipOutput {} (output.rebase 1) = .ok (.tree root) ∧
      ∃ lexeme ∈ root.lexemes, ¬ lexeme.token.range.Ordered) ∧
    ∃ output, ParseOutput.read crossingAnswer = .ok (some output) ∧
      (∀ token ∈ output.tokens, token.range.Ordered) ∧
      ∃ token ∈ (output.rebase 1).tokens, ¬ token.range.Ordered := by
  constructor
  · obtain ⟨root, zipped, lexeme⟩ : ∃ root, zipOutput {}
        (ParseOutput.rebase 1 ⟨some "ab", [⟨"NAME", ⟨⟨1, 2⟩, ⟨1, 0⟩⟩, "ab"⟩], none⟩) =
          .ok (.tree root) ∧ ∃ lexeme ∈ root.lexemes, ¬ lexeme.token.range.Ordered :=
      ⟨_, rfl, by decide +kernel⟩
    exact ⟨_, root, read_invertedAnswer, by decide, zipped, lexeme⟩
  · exact ⟨_, read_crossingAnswer, by decide, by decide⟩

end Session

end CellSyntax
