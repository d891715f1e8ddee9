/-
**Which token streams a zip accepts.**

A zip fails exactly when a plain scan of the tokens with one stack fails, and with the same
mismatch. The syntax tree has no say in it: it decides who owns a token, and the tokens are seen
in the order of the stream all the same. What is still open at the end is no mismatch.

* `BracketTable.scanTokens_eq_scan`: the plain scan and the one of the zipper agree;
* `zip_decidedBy_scanTokens`: the outcome of a zip is decided by the plain scan.
-/

import CellSyntax.Proofs.Zip.TreeOver

namespace CellSyntax

/-- **The plain scan of a token stream**: an opener puts its closer on the stack, a closer takes the
top off if it is equal to it, and anything else is a mismatch. -/
def BracketTable.scanTokens (table : BracketTable) :
    (stack : List Char) → List Token → Except BracketMismatch (List Char)
  | stack, [] => .ok stack
  | stack, token :: rest =>
    match table.role token.literal with
    | none => table.scanTokens stack rest
    | some (.opens closer) => table.scanTokens (closer :: stack) rest
    | some (.closes found) =>
      if stack.head? = some found then table.scanTokens stack.tail rest
      else .error ⟨token.range.start, found, stack.head?⟩

/-- The plain scan sees of the open brackets what they wait for. -/
theorem BracketTable.scanTokens_eq_scan (table : BracketTable) (opened : List OpenBracket)
    (lexemes : List Lexeme) :
    table.scanTokens (opened.map OpenBracket.closer) (lexemes.map Lexeme.token) =
      (table.scan opened lexemes).map (List.map OpenBracket.closer) := by
  induction lexemes generalizing opened with
  | nil => rfl
  | cons lexeme rest ih =>
    rw [List.map_cons, scanTokens, scan]
    unfold step
    rcases table.role lexeme.token.literal with _ | closer | found
    · exact ih opened
    · exact ih (⟨closer, lexeme.number⟩ :: opened)
    · rcases opened with _ | ⟨innermost, outer⟩
      · rfl
      · simp only [List.map_cons, List.head?_cons, Option.some.injEq, List.tail_cons]
        split
        · exact ih outer
        · rfl

/-- The plain scan of a token stream, from an empty stack. -/
theorem BracketTable.scanTokens_sequence (table : BracketTable) (tokens : List Token) :
    table.scanTokens [] tokens =
      (table.scan [] (Lexeme.sequence tokens)).map (List.map OpenBracket.closer) := by
  have same := table.scanTokens_eq_scan [] (Lexeme.sequence tokens)
  rwa [(Lexeme.number_sequence tokens).2] at same

/-- Two outcomes with one verdict: both are trees, or both are the same mismatch. -/
def SameVerdict (first second : Except BracketMismatch CellTree) : Prop :=
  (∃ root root', first = .ok (.tree root) ∧ second = .ok (.tree root')) ∨
    ∃ mismatch, first = .error mismatch ∧ second = .error mismatch

/-- **Outcomes decided by a scan**, one for each syntax tree: an outcome is the mismatch of the scan
if there is one and a tree if there is none, whatever the scan leaves on the stack. -/
structure DecidedBy (scanned : Except BracketMismatch (List Char))
    (outcome : AstNode → Except BracketMismatch CellTree) : Prop where
  mismatch : ∀ ast mismatch, outcome ast = .error mismatch ↔ scanned = .error mismatch
  tree : ∀ ast, (∃ root, outcome ast = .ok (.tree root)) ↔ ∃ stack, scanned = .ok stack
  same : ∀ ast ast', SameVerdict (outcome ast) (outcome ast')

theorem DecidedBy.of_error {mismatch : BracketMismatch}
    {outcome : AstNode → Except BracketMismatch CellTree}
    (failed : ∀ ast, outcome ast = .error mismatch) : DecidedBy (.error mismatch) outcome where
  mismatch ast other := by rw [failed ast, Except.error.injEq, Except.error.injEq]
  tree ast := by simp [failed ast]
  same ast ast' := Or.inr ⟨mismatch, failed ast, failed ast'⟩

theorem DecidedBy.of_tree {stack : List Char} {outcome : AstNode → Except BracketMismatch CellTree}
    (done : ∀ ast, ∃ root, outcome ast = .ok (.tree root)) : DecidedBy (.ok stack) outcome where
  mismatch ast other := by
    obtain ⟨root, isTree⟩ := done ast
    simp [isTree]
  tree ast := ⟨fun _ => ⟨stack, rfl⟩, fun _ => done ast⟩
  same ast ast' := by
    obtain ⟨root, isTree⟩ := done ast
    obtain ⟨root', isTree'⟩ := done ast'
    exact Or.inl ⟨root, root', isTree, isTree'⟩

/-- Zips of stripped tokens are decided by their plain scan, unless all of them are blank. -/
theorem zipStripped_decidedBy (config : TokenConfig) {tokens : List Token}
    (written : ∃ token ∈ tokens, ¬ Text.isBlank token.literal = true) :
    DecidedBy ((BracketTable.ofConfig config).scanTokens [] tokens)
      fun ast => zipStripped config ast tokens := by
  have notBlank : ¬ (tokens.all fun token => Text.isBlank token.literal) = true := by
    rw [List.all_eq_true]
    obtain ⟨token, member, shown⟩ := written
    exact fun blank => shown (blank token member)
  simp only [zipStripped, if_neg notBlank]
  rw [BracketTable.scanTokens_sequence]
  cases scanned : (BracketTable.ofConfig config).scan [] (Lexeme.sequence tokens) with
  | error mismatch =>
    refine .of_error fun ast => ?_
    rw [Zip.zipModule_eq_error_iff.2 scanned]
  | ok after =>
    refine .of_tree fun ast => ?_
    cases zipped : Zip.zipModule (.ofConfig config) ast tokens with
    | error mismatch =>
      rw [Zip.zipModule_mismatch zipped] at scanned
      cases scanned
    | ok root => exact ⟨root, rfl⟩

/-- **A zip accepts what the plain scan accepts, whatever the syntax tree**: over tokens that are
not all blank, and with a source that is not blank where one is given, the outcome is the mismatch
of the scan or, if there is none, a tree. -/
theorem zip_decidedBy_scanTokens (config : TokenConfig) (tokens : List Token) :
    ((∃ token ∈ stripMarkers config tokens, ¬ Text.isBlank token.literal = true) →
      DecidedBy ((BracketTable.ofConfig config).scanTokens [] (stripMarkers config tokens))
        fun ast => zipTokens config ast tokens) ∧
    ∀ source : String, ¬ Text.isBlank source = true →
      (∃ token ∈ fillGaps source config.triviaKind (stripMarkers config tokens),
        ¬ Text.isBlank token.literal = true) →
      DecidedBy ((BracketTable.ofConfig config).scanTokens []
          (fillGaps source config.triviaKind (stripMarkers config tokens)))
        fun ast => zipSource config source ast tokens := by
  refine ⟨zipStripped_decidedBy config, fun source notBlank written => ?_⟩
  simp only [zipSource, if_neg notBlank]
  exact zipStripped_decidedBy config written

/-- Under no syntax tree does `([)` zip, and under every one `f (` does. -/
theorem zip_decidedBy_scanTokens_open :
    (∀ ast, zipTokens {} ast
        [⟨"OP", ⟨⟨0, 0⟩, ⟨0, 1⟩⟩, "("⟩, ⟨"OP", ⟨⟨0, 1⟩, ⟨0, 2⟩⟩, "["⟩,
          ⟨"OP", ⟨⟨0, 2⟩, ⟨0, 3⟩⟩, ")"⟩] = .error ⟨⟨0, 2⟩, ')', some ']'⟩) ∧
      ∀ ast, ∃ root, zipSource {} "f (" ast
        [⟨"NAME", ⟨⟨0, 0⟩, ⟨0, 1⟩⟩, "f"⟩, ⟨"OP", ⟨⟨0, 2⟩, ⟨0, 3⟩⟩, "("⟩] = .ok (.tree root) := by
  refine ⟨fun ast => ?_, fun ast => ?_⟩
  · exact (((zip_decidedBy_scanTokens {} _).1 (by decide)).mismatch ast _).2 rfl
  · exact (((zip_decidedBy_scanTokens {} _).2 "f (" (by decide) (by decide)).tree ast).2 ⟨_, rfl⟩

end CellSyntax
