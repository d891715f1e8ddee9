/-
**No stale parse is ever installed.**

A run of a session is any sequence of calls on it: edits, requests for a parse, answers to earlier
requests, and parses that are waited for. All of them except an answer advance the generation by
one, and an answer changes neither the generation nor the text (`Session.generation_call`,
`Session.text_call`). Over a run the generation so counts the calls that advance, and the number of
a ticket is the generation right after it was handed out. It is the current one as long as nothing
has advanced since, and until then the text is the one that the ticket holds.

* `Session.Issued.generation_eq`: the generation, counted from the number of a ticket;
* `Session.Issued.text_eq`: the text, as long as the ticket is the latest;
* `Session.Issued.since_unique`: no ticket is handed out twice;
* `Session.no_stale_parse`: what an answer does at any point of any run, and what a parse that is
  waited for does.
-/

import CellSyntax.Session
import Mathlib.Data.List.Infix

namespace CellSyntax.Session

variable {Failure : Type}

/-! ### Calls and runs -/

/-- A call on a session; a parse that is waited for may fail. -/
inductive Call (Failure : Type) where
  | applyEdit (edit : EditDescriptor)
  | beginResolve
  | finishResolve (ticket : ResolveTicket) (answer : CellTree)
  | resolve (parse : String → Except Failure CellTree)

/-- The session after a call. -/
def call (session : Session) : Call Failure → Session
  | .applyEdit edit => (session.applyEdit edit).1
  | .beginResolve => session.beginResolve.1
  | .finishResolve ticket answer => (session.finishResolve ticket answer).1
  | .resolve parse => (session.resolve parse).1

/-- The session after a run of calls, the first of them first. -/
def after (session : Session) (calls : List (Call Failure)) : Session := calls.foldl call session

/-- Whether a call makes the tickets handed out before it stale. -/
def Call.advances : Call Failure → Bool
  | .finishResolve _ _ => false
  | _ => true

/-- **A ticket handed out in the course of a run**, with the calls that came after that. -/
def Issued (start : Session) (calls : List (Call Failure)) (ticket : ResolveTicket)
    (since : List (Call Failure)) : Prop :=
  ∃ earlier, calls = earlier ++ .beginResolve :: since ∧
    ticket = (start.after earlier).beginResolve.2

/-! ### One call -/

section Step

variable {session : Session}

/-- A parse that is waited for leaves the text as it is and advances the generation, whether it
fails or not. -/
theorem resolve_eq (session : Session) (parse : String → Except Failure CellTree) :
    session.resolve parse =
      match parse session.text with
      | .error failure => (⟨session.text, session.tree, session.generation + 1⟩, .error failure)
      | .ok tree => (⟨session.text, tree, session.generation + 1⟩, .ok true) := by
  cases outcome : parse session.text with
  | error failure => exact resolve_failed outcome
  | ok tree => simp [resolve, beginResolve, outcome, finishResolve]

theorem finishResolve_generation (session : Session) (ticket : ResolveTicket) (answer : CellTree) :
    (session.finishResolve ticket answer).1.generation = session.generation ∧
      (session.finishResolve ticket answer).1.text = session.text := by
  unfold finishResolve
  split
  · exact ⟨rfl, rfl⟩
  · exact ⟨rfl, rfl⟩

/-- **What a call does to the generation.** -/
theorem generation_call (session : Session) (call : Call Failure) :
    (session.call call).generation = session.generation + [call].countP Call.advances := by
  cases call with
  | applyEdit edit =>
    show (session.applyEdit edit).1.generation = session.generation + 1
    unfold applyEdit
    split <;> rfl
  | beginResolve => rfl
  | finishResolve ticket answer => exact (finishResolve_generation session ticket answer).1
  | resolve parse =>
    show (session.resolve parse).1.generation = session.generation + 1
    rw [resolve_eq]
    split <;> rfl

/-- A call that does not advance is an answer, which leaves the text as it is. -/
theorem text_call {call : Call Failure} (stays : ¬ call.advances = true) :
    (session.call call).text = session.text := by
  cases call with
  | finishResolve ticket answer => exact (finishResolve_generation session ticket answer).2
  | applyEdit edit => exact absurd rfl stays
  | beginResolve => exact absurd rfl stays
  | resolve parse => exact absurd rfl stays

end Step

/-! ### Runs -/

theorem after_append (session : Session) (first second : List (Call Failure)) :
    session.after (first ++ second) = (session.after first).after second :=
  List.foldl_append

/-- **The generation counts the calls that advance.** -/
theorem generation_after (session : Session) (calls : List (Call Failure)) :
    (session.after calls).generation = session.generation + calls.countP Call.advances := by
  induction calls generalizing session with
  | nil => rfl
  | cons call calls ih =>
    have step : (session.after (call :: calls)).generation =
        (session.call call).generation + calls.countP Call.advances := ih (session.call call)
    have first : (call :: calls).countP Call.advances =
        [call].countP Call.advances + calls.countP Call.advances := by
      rw [← List.singleton_append, List.countP_append]
    rw [step, generation_call, first, Nat.add_assoc]

theorem text_after {session : Session} {calls : List (Call Failure)}
    (stay : ∀ call ∈ calls, ¬ call.advances = true) : (session.after calls).text = session.text := by
  induction calls generalizing session with
  | nil => rfl
  | cons call calls ih =>
    have ⟨first, others⟩ := List.forall_mem_cons.1 stay
    exact (ih others).trans (text_call first)

namespace Issued

variable {start : Session} {calls since since' : List (Call Failure)} {ticket : ResolveTicket}

/-- The run up to where the ticket is handed out and from there on. -/
theorem after_eq (issued : start.Issued calls ticket since) :
    ∃ session : Session, ticket = session.beginResolve.2 ∧
      start.after calls = session.beginResolve.1.after since := by
  obtain ⟨earlier, rfl, rfl⟩ := issued
  exact ⟨start.after earlier, rfl, after_append start earlier _⟩

/-- **The generation, counted from the number of a ticket.** -/
theorem generation_eq (issued : start.Issued calls ticket since) :
    (start.after calls).generation = ticket.id + since.countP Call.advances := by
  obtain ⟨session, rfl, rest⟩ := issued.after_eq
  rw [rest, generation_after]
  rfl

/-- **A ticket is the latest as long as no call has advanced since.** -/
theorem latest_iff (issued : start.Issued calls ticket since) :
    ticket.id = (start.after calls).generation ↔ ∀ call ∈ since, ¬ call.advances = true := by
  rw [issued.generation_eq, ← List.countP_eq_zero]
  omega

/-- **As long as a ticket is the latest, the text is the one that it holds.** -/
theorem text_eq (issued : start.Issued calls ticket since)
    (stay : ∀ call ∈ since, ¬ call.advances = true) :
    (start.after calls).text = ticket.source := by
  obtain ⟨session, rfl, rest⟩ := issued.after_eq
  rw [rest]
  exact text_after stay

theorem isSuffix (issued : start.Issued calls ticket since) : .beginResolve :: since <:+ calls := by
  obtain ⟨earlier, rfl, -⟩ := issued
  exact List.suffix_append _ _

/-- **No ticket is handed out twice**: what came after it is determined by the run. -/
theorem since_unique (issued : start.Issued calls ticket since)
    (issued' : start.Issued calls ticket since') : since = since' := by
  have counts := issued.generation_eq.symm.trans issued'.generation_eq
  -- Were it handed out at two places, then a call that advances lies between them.
  have shorter {near far : List (Call Failure)} (nearEnds : .beginResolve :: near <:+ calls)
      (farEnds : .beginResolve :: far <:+ calls)
      (same : near.countP Call.advances = far.countP Call.advances) : ¬ near.length < far.length := by
    intro less
    have within : .beginResolve :: near <:+ far :=
      List.suffix_of_suffix_length_le nearEnds ((List.suffix_cons _ _).trans farEnds) less
    have more := List.Sublist.countP_le (p := Call.advances) within.sublist
    rw [List.countP_cons_of_pos rfl] at more
    omega
  have size : (Call.beginResolve :: since).length = (Call.beginResolve :: since').length := by
    have := shorter issued.isSuffix issued'.isSuffix (by omega)
    have := shorter issued'.isSuffix issued.isSuffix (by omega)
    rw [List.length_cons, List.length_cons]
    omega
  have whole := (List.suffix_of_suffix_length_le issued.isSuffix issued'.isSuffix
    (Nat.le_of_eq size)).eq_of_length size
  exact (List.cons.inj whole).2

end Issued

/-! ### Answers -/

/-- **What an answer to a ticket does**, `since` being what was called since the ticket was handed
out: it is installed exactly if nothing advanced, and then it is a parse of the current text. -/
structure Answers (session : Session) (ticket : ResolveTicket) (since : List (Call Failure))
    (answer : CellTree) : Prop where
  installed_iff : (session.finishResolve ticket answer).2 = true ↔
    ∀ call ∈ since, ¬ call.advances = true
  installed : (session.finishResolve ticket answer).2 = true →
    session.text = ticket.source ∧
      (session.finishResolve ticket answer).1 = { session with tree := answer }
  dropped : (session.finishResolve ticket answer).2 = false →
    (session.finishResolve ticket answer).1 = session

/-- **What a parse that is waited for does**: if it fails, then text and tree stay as they are, and
if not, then the tree is installed. -/
structure Resolves (session : Session) (parse : String → Except Failure CellTree) : Prop where
  failed : ∀ failure, parse session.text = .error failure →
    (session.resolve parse).2 = .error failure ∧
      (session.resolve parse).1.text = session.text ∧ (session.resolve parse).1.tree = session.tree
  parsed : ∀ tree, parse session.text = .ok tree →
    (session.resolve parse).2 = .ok true ∧
      (session.resolve parse).1.text = session.text ∧ (session.resolve parse).1.tree = tree

theorem Issued.answers {start : Session} {calls since : List (Call Failure)}
    {ticket : ResolveTicket} (issued : start.Issued calls ticket since) (answer : CellTree) :
    (start.after calls).Answers ticket since answer := by
  by_cases stay : ∀ call ∈ since, ¬ call.advances = true
  · have done := finishResolve_latest answer (issued.latest_iff.2 stay)
    rw [Prod.ext_iff] at done
    exact ⟨⟨fun _ => stay, fun _ => done.2⟩, fun _ => ⟨issued.text_eq stay, done.1⟩,
      fun other => absurd (done.2.symm.trans other) Bool.true_eq_false.mp⟩
  · have done := finishResolve_stale answer (mt issued.latest_iff.1 stay)
    rw [Prod.ext_iff] at done
    exact ⟨⟨fun other => absurd (other.symm.trans done.2) Bool.true_eq_false.mp,
        fun other => absurd other stay⟩,
      fun other => absurd (other.symm.trans done.2) Bool.true_eq_false.mp, fun _ => done.1⟩

theorem resolves (session : Session) (parse : String → Except Failure CellTree) :
    session.Resolves parse := by
  constructor
  · intro failure failed
    rw [resolve_eq, failed]
    exact ⟨rfl, rfl, rfl⟩
  · intro tree parsed
    rw [resolve_eq, parsed]
    exact ⟨rfl, rfl, rfl⟩

/-- **No stale parse is ever installed.** After any run of calls on a new session, an answer to a
ticket that was handed out in the run is installed exactly if nothing has advanced since, and it
then belongs to the current text; an answer that is dropped and a parse that fails change neither
text nor tree. The generation is at most the number of calls, so a counter of 64 bits does not
overflow in a run of fewer than `2 ^ 64` of them. -/
theorem no_stale_parse (text : String) (tree : CellTree) (calls : List (Call Failure)) :
    (∀ ticket since, (new text tree).Issued calls ticket since → ∀ answer,
      ((new text tree).after calls).Answers ticket since answer) ∧
    (∀ parse : String → Except Failure CellTree, ((new text tree).after calls).Resolves parse) ∧
    ((new text tree).after calls).generation ≤ calls.length := by
  refine ⟨fun ticket since issued answer => issued.answers answer, fun parse => resolves _ parse, ?_⟩
  rw [generation_after]
  show 0 + _ ≤ _
  rw [Nat.zero_add]
  exact List.countP_le_length

/-- A run with two tickets and an edit between them: an answer to the first is dropped, and one to
the second is installed. -/
theorem no_stale_parse_edited :
    let edit := EditDescriptor.insert "x\n" ⟨0, 0⟩ "y"
    let calls : List (Call String) := [.beginResolve, .applyEdit edit, .beginResolve]
    let session := (new "x\n" .empty).after calls
    (new "x\n" .empty).Issued calls ⟨1, "x\n"⟩ [.applyEdit edit, .beginResolve] ∧
      (new "x\n" .empty).Issued calls ⟨3, "yx\n"⟩ [] ∧
      ∀ answer, session.finishResolve ⟨1, "x\n"⟩ answer = (session, false) ∧
        (session.finishResolve ⟨3, "yx\n"⟩ answer).2 = true ∧
        (session.finishResolve ⟨3, "yx\n"⟩ answer).1.tree = answer ∧ session.text = "yx\n" := by
  intro edit calls session
  have first : (new "x\n" .empty).Issued calls ⟨1, "x\n"⟩ [.applyEdit edit, .beginResolve] :=
    ⟨[], rfl, rfl⟩
  have second : (new "x\n" .empty).Issued calls ⟨3, "yx\n"⟩ [] :=
    ⟨[.beginResolve, .applyEdit edit], rfl, by decide⟩
  refine ⟨first, second, fun answer => ?_⟩
  have stale := (no_stale_parse "x\n" .empty calls).1 _ _ first answer
  have latest := (no_stale_parse "x\n" .empty calls).1 _ _ second answer
  have dropped : (session.finishResolve ⟨1, "x\n"⟩ answer).2 = false := by
    rw [← Bool.not_eq_true, stale.installed_iff]
    exact fun stay => stay _ List.mem_cons_self rfl
  have installed : (session.finishResolve ⟨3, "yx\n"⟩ answer).2 = true :=
    latest.installed_iff.2 fun _ member => absurd member List.not_mem_nil
  obtain ⟨text, whole⟩ := latest.installed installed
  exact ⟨Prod.ext (stale.dropped dropped) dropped, installed, by rw [whole], text⟩

end CellSyntax.Session
