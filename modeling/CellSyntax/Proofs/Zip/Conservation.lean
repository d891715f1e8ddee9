/-
**A zip keeps every token, in order, and sees every bracket once.**

Tokens are taken in five places: before a child's lead, at a leaf's anchor, behind a node's content,
as what the children of the root leave, and all at once when there is no syntax tree. Whatever the
shapes are, what a node or a list of siblings takes is the first part of its window, what it leaves
is the rest, and the open brackets after it are those of a plain scan of what it took
(`Portion.Takes`). When a zip fails, the plain scan of the window fails, with the same mismatch.

* `zipNode_takes`, `zipChildren_takes`: what a successful zip takes of its window;
* `zipNode_mismatch`, `zipChildren_mismatch`: a failed zip is a failed scan;
* `zipModule_eq_error_iff`: a whole zip fails exactly when the scan of its tokens fails;
* `zipModule_lexemes`, `zipModule_formed`: the tree of a zip has all tokens and is formed.
-/

import CellSyntax.Proofs.Tree.Formed
import CellSyntax.Proofs.Zip.Steps

namespace CellSyntax

/-! ### Scanning part by part -/

namespace BracketTable

variable {table : BracketTable} {opened middle : List OpenBracket} {first second : List Lexeme}
  {mismatch : BracketMismatch}

theorem scan_append_of_ok (scanned : table.scan opened first = .ok middle) :
    table.scan opened (first ++ second) = table.scan middle second := by
  rw [scan_append, scanned]
  rfl

theorem scan_append_of_error (failed : table.scan opened first = .error mismatch) :
    table.scan opened (first ++ second) = .error mismatch := by
  rw [scan_append, failed]
  rfl

theorem scan_cons_of_ok {lexeme : Lexeme} (stepped : table.step opened lexeme = .ok middle) :
    table.scan opened (lexeme :: second) = table.scan middle second := by
  rw [scan, stepped]

theorem scan_cons_of_error {lexeme : Lexeme} (failed : table.step opened lexeme = .error mismatch) :
    table.scan opened (lexeme :: second) = .error mismatch := by
  rw [scan, failed]

end BracketTable

/-- **The invariant of a zip**: a portion takes the first part of its window, the brackets that are
open after it are those of a scan of what it took, and its elements are formed. -/
structure Portion.Takes (table : BracketTable) (window : List Lexeme) (opened : List OpenBracket)
    (portion : Portion) : Prop where
  keeps : Element.lexemesOf portion.content ++ portion.rest = window
  scans : table.scan opened (Element.lexemesOf portion.content) = .ok portion.opened
  formed : ∀ element ∈ portion.content, element.Formed

namespace Zip

variable {table : BracketTable}

/-! ### The tokens that trail a node -/

section Trailing

variable {first line : Nat} {opened after : List OpenBracket} {window taken left : List Lexeme}
  {mismatch : BracketMismatch}

theorem takeTrailing_scan
    (done : takeTrailing table first line opened window = .ok (taken, left, after)) :
    table.scan opened taken = .ok after := by
  induction window generalizing line opened taken with
  | nil =>
    cases done
    rfl
  | cons lexeme rest ih =>
    unfold takeTrailing at done
    split at done
    · split at done
      · cases done
      · rename_i stepped
        split at done
        · cases done
        · rename_i later
          cases done
          rw [BracketTable.scan_cons_of_ok stepped]
          exact ih later
    · cases done
      rfl

theorem takeTrailing_mismatch
    (failed : takeTrailing table first line opened window = .error mismatch) :
    table.scan opened window = .error mismatch := by
  induction window generalizing line opened with
  | nil => cases failed
  | cons lexeme rest ih =>
    unfold takeTrailing at failed
    split at failed
    · split at failed
      · rename_i stepped
        cases failed
        exact BracketTable.scan_cons_of_error stepped
      · rename_i stepped
        split at failed
        · rename_i later
          cases failed
          rw [BracketTable.scan_cons_of_ok stepped]
          exact ih later
        · cases failed
    · cases failed

end Trailing

/-! ### Successful zips -/

section Success

variable {kind : String} {anchor : Option Position} {window : List Lexeme}
  {opened : List OpenBracket} {claimed portion : Portion}

theorem takes_nothing (window : List Lexeme) (opened : List OpenBracket) :
    Portion.Takes table window opened ⟨[], window, opened⟩ :=
  ⟨rfl, rfl, fun _ member => by cases member⟩

theorem claimAnchor_takes (done : claimAnchor table anchor window opened = .ok portion) :
    portion.Takes table window opened := by
  rcases claimAnchor_ok done with ⟨first, rest, after, rfl, -, stepped, rfl⟩ | ⟨-, rfl⟩
  · refine ⟨rfl, BracketTable.scan_cons_of_ok stepped, fun element member => ?_⟩
    rw [List.mem_singleton.1 member]
    exact .token first
  · exact takes_nothing window opened

/-- Closing a node keeps the invariant: the trailing tokens come right behind what was claimed. -/
theorem closeNode_takes (takes : claimed.Takes table window opened)
    (done : closeNode table kind window claimed = .ok portion) :
    portion.Takes table window opened := by
  rcases closeNode_ok done with ⟨nothing, rfl⟩ |
    ⟨first, rest, last, trailing, left, after, rfl, ends, taken, rfl⟩
  · have untouched : Element.lexemesOf claimed.content = [] := by
      rcases nothing with empty | none
      · have none := takes.keeps
        rw [empty, List.append_eq_nil_iff] at none
        exact none.1
      · rw [none]
        rfl
    have same := takes.scans
    rw [untouched] at same
    cases same
    exact takes_nothing window claimed.opened
  · refine ⟨?_, ?_, fun element member => ?_⟩
    · rw [Element.lexemesOf_closed, List.append_assoc, takeTrailing_append taken, takes.keeps]
    · rw [Element.lexemesOf_closed, BracketTable.scan_append_of_ok takes.scans]
      exact takeTrailing_scan taken
    · rw [List.mem_singleton.1 member]
      refine Node.ofContent_formed (fun none => ?_) fun part inside => ?_
      · rw [(List.append_eq_nil_iff.1 none).1] at ends
        cases ends
      · rcases List.mem_append.1 inside with before | behind
        · exact takes.formed part before
        · exact Element.formed_of_mem_tokens behind

theorem zip_takes :
    (∀ shape window opened portion, zipNode table shape window opened = .ok portion →
      portion.Takes table window opened) ∧
    (∀ shapes window opened portion, zipChildren table shapes window opened = .ok portion →
      portion.Takes table window opened) := by
  refine zip_induction (fun _ window opened portion => portion.Takes table window opened)
    (fun _ window opened portion => portion.Takes table window opened) ?leaf ?parent ?nil ?cons
  case leaf =>
    intro kind anchor lead window opened claimed portion claims closed
    exact closeNode_takes (claimAnchor_takes claims) closed
  case parent =>
    intro kind anchor lead child siblings window opened claimed portion _ takes closed
    exact closeNode_takes takes closed
  case nil => exact takes_nothing
  case cons =>
    intro child siblings window opened between node later scanned _ first _ others
    have lexemes : Element.lexemesOf ((beforeLead child.lead window).map .token ++ node.content ++
        later.content) = beforeLead child.lead window ++
          (Element.lexemesOf node.content ++ Element.lexemesOf later.content) := by
      rw [Element.lexemesOf_append, Element.lexemesOf_append, Element.lexemesOf_tokens,
        List.append_assoc]
    refine ⟨?_, ?_, fun element member => ?_⟩
    · calc _ = beforeLead child.lead window ++ (Element.lexemesOf node.content ++
              (Element.lexemesOf later.content ++ later.rest)) := by
            rw [lexemes, List.append_assoc, List.append_assoc]
        _ = beforeLead child.lead window ++ (Element.lexemesOf node.content ++
              (node.rest ++ fromSibling siblings (fromLead child.lead window))) := by
            rw [others.keeps]
        _ = beforeLead child.lead window ++ (beforeSibling siblings (fromLead child.lead window) ++
              fromSibling siblings (fromLead child.lead window)) := by
            rw [← List.append_assoc (Element.lexemesOf node.content), first.keeps]
        _ = window := by
            exact window_parts child.lead siblings window
    · rw [lexemes, BracketTable.scan_append_of_ok scanned,
        BracketTable.scan_append_of_ok first.scans]
      exact others.scans
    · rcases List.mem_append.1 member with early | late
      · rcases List.mem_append.1 early with before | inside
        · exact Element.formed_of_mem_tokens before
        · exact first.formed element inside
      · exact others.formed element late

/-- **What a node takes of its window.** -/
theorem zipNode_takes {shape : Shape} (done : zipNode table shape window opened = .ok portion) :
    portion.Takes table window opened :=
  zip_takes.1 shape window opened portion done

/-- **What a list of siblings takes of the window of their parent.** -/
theorem zipChildren_takes {shapes : List Shape}
    (done : zipChildren table shapes window opened = .ok portion) :
    portion.Takes table window opened :=
  zip_takes.2 shapes window opened portion done

theorem claim_takes {children : List Shape}
    (done : claim table anchor children window opened = .ok portion) :
    portion.Takes table window opened := by
  unfold claim at done
  split at done
  · exact claimAnchor_takes done
  · exact zipChildren_takes done

end Success

/-! ### Failed zips -/

mutual

/-- **A node fails as the scan of its window does.** -/
theorem zipNode_mismatch : ∀ (shape : Shape) {window : List Lexeme} {opened : List OpenBracket}
    {mismatch : BracketMismatch}, zipNode table shape window opened = .error mismatch →
      table.scan opened window = .error mismatch
  | ⟨kind, anchor, lead, children⟩, window, opened, mismatch, failed => by
    rcases zipNode_error failed with claims | ⟨claimed, claims, closed⟩
    · unfold claim at claims
      split at claims
      · obtain ⟨first, rest, rfl, stepped⟩ := claimAnchor_error claims
        exact BracketTable.scan_cons_of_error stepped
      · exact zipChildren_mismatch children claims
    · have takes := claim_takes claims
      obtain ⟨first, line, trailing⟩ := closeNode_error closed
      rw [← takes.keeps, BracketTable.scan_append_of_ok takes.scans]
      exact takeTrailing_mismatch trailing

/-- **Siblings fail as the scan of their parent's window does.** -/
theorem zipChildren_mismatch : ∀ (shapes : List Shape) {window : List Lexeme}
    {opened : List OpenBracket} {mismatch : BracketMismatch},
      zipChildren table shapes window opened = .error mismatch →
        table.scan opened window = .error mismatch
  | [], window, opened, mismatch, failed => by
    rw [zipChildren] at failed
    cases failed
  | child :: siblings, window, opened, mismatch, failed => by
    rw [← window_parts child.lead siblings window]
    rcases zipChildren_cons_error failed with
      scanned | ⟨between, scanned, zipped | ⟨node, zipped, rest⟩⟩
    · exact BracketTable.scan_append_of_error scanned
    · rw [BracketTable.scan_append_of_ok scanned]
      exact BracketTable.scan_append_of_error (zipNode_mismatch child zipped)
    · have takes := zipNode_takes zipped
      rw [BracketTable.scan_append_of_ok scanned, ← takes.keeps, List.append_assoc,
        BracketTable.scan_append_of_ok takes.scans]
      exact zipChildren_mismatch siblings rest

end

/-! ### Whole zips -/

section Module

variable {ast : AstNode} {tokens : List Token} {root : Node}

/-- **The tree of a zip has every token once, in the order of the sequence.** -/
theorem zipModule_lexemes (done : zipModule table ast tokens = .ok root) :
    root.lexemes = Lexeme.sequence tokens := by
  obtain ⟨children, after, zipped, -, rfl⟩ := zipModule_ok done
  rw [← (zipChildren_takes zipped).keeps]
  exact Element.lexemesOf_append_tokens _ _

/-- **The tree of a zip over some token is formed.** -/
theorem zipModule_formed (done : zipModule table ast tokens = .ok root) (some : tokens ≠ []) :
    root.Formed := by
  have lexemes := zipModule_lexemes done
  obtain ⟨children, after, zipped, -, rfl⟩ := zipModule_ok done
  refine Node.ofContent_formed (fun none => some ?_) fun element member => ?_
  · have empty : Lexeme.sequence tokens = [] := by
      rw [← lexemes, Node.lexemes, Node.ofContent, none]
      rfl
    rw [← (Lexeme.number_sequence tokens).2, empty]
    rfl
  · rcases List.mem_append.1 member with inside | behind
    · exact (zipChildren_takes zipped).formed element inside
    · exact Element.formed_of_mem_tokens behind

theorem zipModule_scan (done : zipModule table ast tokens = .ok root) :
    ∃ after, table.scan [] (Lexeme.sequence tokens) = .ok after := by
  obtain ⟨children, after, zipped, scanned, rfl⟩ := zipModule_ok done
  have takes := zipChildren_takes zipped
  rw [← takes.keeps, BracketTable.scan_append_of_ok takes.scans]
  exact ⟨after, scanned⟩

theorem zipModule_mismatch {mismatch : BracketMismatch}
    (failed : zipModule table ast tokens = .error mismatch) :
    table.scan [] (Lexeme.sequence tokens) = .error mismatch := by
  rcases zipModule_error failed with zipped | ⟨children, zipped, scanned⟩
  · exact zipChildren_mismatch _ zipped
  · have takes := zipChildren_takes zipped
    rw [← takes.keeps, BracketTable.scan_append_of_ok takes.scans]
    exact scanned

/-- **A zip fails exactly when the scan of its tokens fails, with the same mismatch.** -/
theorem zipModule_eq_error_iff {mismatch : BracketMismatch} :
    zipModule table ast tokens = .error mismatch ↔
      table.scan [] (Lexeme.sequence tokens) = .error mismatch := by
  refine ⟨zipModule_mismatch, fun failed => ?_⟩
  cases outcome : zipModule table ast tokens with
  | error other =>
    have same := zipModule_mismatch outcome
    rw [failed] at same
    cases same
    rfl
  | ok root =>
    obtain ⟨after, scanned⟩ := zipModule_scan outcome
    rw [failed] at scanned
    cases scanned

end Module

end Zip

end CellSyntax
