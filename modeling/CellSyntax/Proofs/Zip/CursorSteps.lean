/-
**What the walk with a cursor reads, cuts and allocates.**

The walk is compared with the zip with frames, step by step. A window given by two numbers is the
list of tokens between them, so halving the table between the numbers cuts the list where the zip
cuts it. Items of a content are read and nodes are allocated where the nodes below are in the arena
already; then there is something to read. Each step succeeds, and what it logs is inside.

* `Zip.Cursor.window`, `Zip.Cursor.edge`: windows as lists, and where they are cut;
* `Zip.Cursor.edge_le`: a window is cut within it, whatever the order of its tokens is;
* `Zip.Cursor.Follows`: a walk that comes to what a zip comes to;
* `Zip.Cursor.tokenAt_ok`, `Zip.Cursor.boundary_ok`, `Zip.Cursor.alloc_ok`: the steps succeed.
-/

import CellSyntax.Proofs.Tree.Layout
import CellSyntax.Proofs.Zip.Allocation
import CellSyntax.Proofs.Zip.Frames
import CellSyntax.Proofs.Zip.Relocation
import CellSyntax.Zip.Cursor

namespace CellSyntax

namespace Lexeme

theorem take_sequenceFrom (first count : Nat) (tokens : List Token) :
    sequenceFrom first (tokens.take count) = (sequenceFrom first tokens).take count := by
  induction tokens generalizing first count with
  | nil => rw [List.take_nil, sequenceFrom, List.take_nil]
  | cons token rest ih =>
    cases count with
    | zero => rfl
    | succ count => rw [List.take_succ_cons, sequenceFrom, sequenceFrom, List.take_succ_cons, ih]

theorem drop_sequenceFrom (first count : Nat) (tokens : List Token) :
    sequenceFrom (first + count) (tokens.drop count) = (sequenceFrom first tokens).drop count := by
  induction tokens generalizing first count with
  | nil => rw [List.drop_nil, sequenceFrom, sequenceFrom, List.drop_nil]
  | cons token rest ih =>
    cases count with
    | zero => rfl
    | succ count =>
      rw [List.drop_succ_cons, sequenceFrom, List.drop_succ_cons, ← ih, Nat.succ_add_eq_add_succ]

end Lexeme

namespace Zip.Cursor

/-! ### Windows -/

/-- The tokens from `lo` to `hi`, with their numbers. -/
def window (tokens : List Token) (lo hi : Nat) : List Lexeme :=
  Lexeme.sequenceFrom lo ((tokens.take hi).drop lo)

variable {tokens : List Token} {lo hi : Nat}

theorem window_self (tokens : List Token) (lo : Nat) : window tokens lo lo = [] := by
  rw [window, List.drop_of_length_le (List.length_take_le lo tokens)]
  rfl

theorem window_all (tokens : List Token) :
    window tokens 0 tokens.length = Lexeme.sequence tokens := by
  rw [window, List.take_length]
  rfl

theorem window_cons {token : Token} (found : tokens[lo]? = some token) (before : lo < hi) :
    window tokens lo hi = ⟨lo, token⟩ :: window tokens (lo + 1) hi := by
  have inside : (tokens.take hi)[lo]? = some token := by rwa [List.getElem?_take_of_lt before]
  obtain ⟨bound, rfl⟩ := List.getElem?_eq_some_iff.1 inside
  rw [window, List.drop_eq_getElem_cons bound]
  rfl

theorem take_window {count : Nat} (upTo : lo + count ≤ hi) :
    (window tokens lo hi).take count = window tokens lo (lo + count) := by
  rw [window, ← Lexeme.take_sequenceFrom, List.take_drop, List.take_take, Nat.min_eq_left upTo]
  rfl

theorem drop_window (tokens : List Token) (lo hi count : Nat) :
    (window tokens lo hi).drop count = window tokens (lo + count) hi := by
  rw [window, ← Lexeme.drop_sequenceFrom, List.drop_drop]
  rfl

/-- A window up to a cursor and from the cursor on. -/
theorem window_append {cursor : Nat} (fromLo : lo ≤ cursor) (upTo : cursor ≤ hi) :
    window tokens lo cursor ++ window tokens cursor hi = window tokens lo hi := by
  obtain ⟨count, rfl⟩ := Nat.exists_eq_add_of_le fromLo
  rw [← take_window upTo, ← drop_window, List.take_append_drop]

theorem length_window (upTo : hi ≤ tokens.length) :
    (window tokens lo hi).length = hi - lo := by
  have lengths := congrArg List.length (Lexeme.sequenceFrom_tokens lo ((tokens.take hi).drop lo))
  rw [List.length_map, List.length_drop, List.length_take, Nat.min_eq_left upTo] at lengths
  exact lengths

/-- Where the search for a position cuts a window. -/
def edge (tokens : List Token) (lo hi : Nat) (position : Position) : Nat :=
  lo + partitionPoint (Lexeme.startsBefore position) (window tokens lo hi)

theorem le_edge (tokens : List Token) (lo hi : Nat) (position : Position) :
    lo ≤ edge tokens lo hi position :=
  Nat.le_add_right _ _

theorem edge_le (fromLo : lo ≤ hi) (upTo : hi ≤ tokens.length) (position : Position) :
    edge tokens lo hi position ≤ hi := by
  have within := partitionPoint_le_length (Lexeme.startsBefore position) (window tokens lo hi)
  rw [length_window upTo] at within
  rw [edge]
  omega

theorem beforeLead_window (fromLo : lo ≤ hi) (upTo : hi ≤ tokens.length) (position : Position) :
    beforeLead position (window tokens lo hi) = window tokens lo (edge tokens lo hi position) :=
  take_window (edge_le fromLo upTo position)

theorem fromLead_window (tokens : List Token) (lo hi : Nat) (position : Position) :
    fromLead position (window tokens lo hi) = window tokens (edge tokens lo hi position) hi :=
  drop_window tokens lo hi _

/-- The place where the window of a child ends. -/
def stopOf (tokens : List Token) (siblings : List Shape) (cursor hi : Nat) : Nat :=
  match siblings with
  | [] => hi
  | next :: _ => edge tokens cursor hi next.lead

theorem stopOf_bounds (siblings : List Shape) (fromLo : lo ≤ hi) (upTo : hi ≤ tokens.length) :
    lo ≤ stopOf tokens siblings lo hi ∧ stopOf tokens siblings lo hi ≤ hi := by
  cases siblings with
  | nil => exact ⟨fromLo, Nat.le_refl hi⟩
  | cons next _ => exact ⟨le_edge _ _ _ _, edge_le fromLo upTo next.lead⟩

theorem beforeSibling_window (siblings : List Shape) (fromLo : lo ≤ hi)
    (upTo : hi ≤ tokens.length) : beforeSibling siblings (window tokens lo hi) =
      window tokens lo (stopOf tokens siblings lo hi) := by
  cases siblings with
  | nil => rfl
  | cons next _ => exact beforeLead_window fromLo upTo next.lead

theorem fromSibling_window (tokens : List Token) (siblings : List Shape) (lo hi : Nat) :
    fromSibling siblings (window tokens lo hi) =
      window tokens (stopOf tokens siblings lo hi) hi := by
  cases siblings with
  | nil => exact (window_self tokens hi).symm
  | cons next _ => exact fromLead_window tokens lo hi next.lead

/-! ### Walks that keep to the zip with frames -/

/-- A walk over a table of tokens that has logged nothing but what is inside. -/
structure Walk.Sound (tokens : List Token) (walk : Walk) : Prop where
  table : walk.builder.tokens = tokens
  events : ∀ event ∈ walk.log, event.Inside tokens.length

/-- The walk with one more event in its log. -/
def Walk.record (walk : Walk) (event : Event) : Walk := { walk with log := walk.log ++ [event] }

theorem Walk.Sound.record {walk : Walk} {event : Event} (sound : walk.Sound tokens)
    (inside : event.Inside tokens.length) : (walk.record event).Sound tokens where
  table := sound.table
  events := List.forall_mem_append.2 ⟨sound.events, List.forall_mem_singleton.2 inside⟩

/-- **A walk follows a zip**: both fail with one mismatch, with a sound walk, or both succeed, and
what they come to is related. -/
inductive Follows (tokens : List Token) {Value Plain : Type}
    (related : Plain → Value → Walk → Prop) :
    EStateM.Result Stop Walk Value → Except BracketMismatch Plain → Prop
  | ok {plain : Plain} {value : Value} {walk : Walk} (holds : related plain value walk) :
      Follows tokens related (.ok value walk) (.ok plain)
  | error {mismatch : BracketMismatch} {walk : Walk} (sound : walk.Sound tokens) :
      Follows tokens related (.error (.mismatch mismatch) walk) (.error mismatch)

section

variable {Value Plain Other More : Type} {walk next : Walk} {run : Run Value} {value : Value}
  {further : Value → Run Other} {related : Plain → Value → Walk → Prop}
  {relatedOther : More → Other → Walk → Prop} {plain : Except BracketMismatch Plain}

/-- A walk goes on where its first part ends. -/
theorem run_bind_ok (done : run.run walk = .ok value next) :
    (run >>= further).run walk = (further value).run next := by
  rw [EStateM.run_bind, done]

/-- **One walk behind another** follows a zip that goes on from what the first comes to. -/
theorem Follows.bind {whole : Except BracketMismatch More}
    (first : Follows tokens related (run.run walk) plain)
    (fails : ∀ mismatch, plain = .error mismatch → whole = .error mismatch)
    (later : ∀ found value next, plain = .ok found → related found value next →
      Follows tokens relatedOther ((further value).run next) whole) :
    Follows tokens relatedOther ((run >>= further).run walk) whole := by
  rw [EStateM.run_bind]
  generalize run.run walk = result at first ⊢
  cases first with
  | ok holds => exact later _ _ _ rfl holds
  | error sound =>
    rw [fails _ rfl]
    exact .error sound

theorem Follows.imp {relatedToo : Plain → Value → Walk → Prop}
    {result : EStateM.Result Stop Walk Value} (follows : Follows tokens related result plain)
    (holds : ∀ plain value next, related plain value next → relatedToo plain value next) :
    Follows tokens relatedToo result plain := by
  cases follows with
  | ok related => exact .ok (holds _ _ _ related)
  | error sound => exact .error sound

/-- A zip that makes something of what a walk comes to. -/
theorem Follows.map {whole : Except BracketMismatch More} {relatedMore : More → Value → Walk → Prop}
    {result : EStateM.Result Stop Walk Value} (first : Follows tokens related result plain)
    (fails : ∀ mismatch, plain = .error mismatch → whole = .error mismatch)
    (holds : ∀ found value next, plain = .ok found → related found value next →
      ∃ made, whole = .ok made ∧ relatedMore made value next) :
    Follows tokens relatedMore result whole := by
  cases first with
  | ok related =>
    obtain ⟨made, rfl, more⟩ := holds _ _ _ rfl related
    exact .ok more
  | error sound =>
    rw [fails _ rfl]
    exact .error sound

end

/-! ### Reading, cutting and allocating -/

/-- What changes nothing but the log of a walk. -/
structure Idle (tokens : List Token) (walk next : Walk) : Prop where
  sound : next.Sound tokens
  builder : next.builder = walk.builder
  claims : next.claims = walk.claims
  frames : next.frames = walk.frames

section

variable {walk : Walk} {content : List Element}

theorem Idle.refl (sound : walk.Sound tokens) : Idle tokens walk walk := ⟨sound, rfl, rfl, rfl⟩

theorem Idle.trans {between next : Walk} (first : Idle tokens walk between)
    (later : Idle tokens between next) : Idle tokens walk next where
  sound := later.sound
  builder := later.builder.trans first.builder
  claims := later.claims.trans first.claims
  frames := later.frames.trans first.frames

theorem idle_record {event : Event} (sound : walk.Sound tokens)
    (inside : event.Inside tokens.length) : Idle tokens walk (walk.record event) :=
  ⟨sound.record inside, rfl, rfl, rfl⟩

theorem run_log (event : Event) : (log event).run walk = .ok () (walk.record event) := rfl

/-- A token of the table is read. -/
theorem tokenAt_ok {token : Token} {index : Nat} (sound : walk.Sound tokens)
    (found : tokens[index]? = some token) :
    ∃ next, (tokenAt index).run walk = .ok token next ∧ Idle tokens walk next := by
  have inside : index < tokens.length := (List.getElem?_eq_some_iff.1 found).1
  have idle : Idle tokens walk (walk.record (.read index)) := idle_record sound inside
  refine ⟨_, ?_, idle⟩
  rw [tokenAt, run_bind_ok (run_log _), run_bind_ok (EStateM.run_get _), idle.sound.table, found]
  rfl

/-- A window of the table is cut, at the edge. -/
theorem boundary_ok (sound : walk.Sound tokens) (fromLo : lo ≤ hi) (upTo : hi ≤ tokens.length)
    (position : Position) :
    ∃ next, (boundary lo hi position).run walk = .ok (edge tokens lo hi position) next ∧
      Idle tokens walk next := by
  have idle : Idle tokens walk (walk.record (.sliced lo hi)) := idle_record sound ⟨fromLo, upTo⟩
  have same : (window tokens lo hi).map Lexeme.token = (tokens.take hi).drop lo :=
    Lexeme.sequenceFrom_tokens lo _
  refine ⟨_, ?_, idle⟩
  rw [boundary, run_bind_ok (run_log _), run_bind_ok (EStateM.run_get _), idle.sound.table,
    if_pos ⟨fromLo, upTo⟩, ← same, partitionPoint_map]
  rfl

theorem windowEnd_ok (siblings : List Shape) (sound : walk.Sound tokens) (fromLo : lo ≤ hi)
    (upTo : hi ≤ tokens.length) :
    ∃ next, (windowEnd siblings lo hi).run walk = .ok (stopOf tokens siblings lo hi) next ∧
      Idle tokens walk next := by
  cases siblings with
  | nil => exact ⟨walk, rfl, .refl sound⟩
  | cons next _ => exact boundary_ok sound fromLo upTo next.lead

variable {base : List ArenaNode}

/-- The range of an item is read where the nodes of its content are allocated. -/
theorem rangeOf_ok {front back : List Element} {element : Element} (sound : walk.Sound tokens)
    (holds : walk.builder = ⟨tokens, base ++ Element.looseRows base.length content⟩)
    (content_eq : content = front ++ element :: back)
    (known : ∀ lexeme ∈ Element.lexemesOf content, tokens[lexeme.number]? = some lexeme.token) :
    ∃ next, (rangeOf (element.slot (base.length + Element.nodeCountOf front))).run walk =
      .ok element.range next ∧ Idle tokens walk next := by
  have range := @Builder.rangeOf_slot base _ _ tokens _ _ _ rfl content_eq known
  cases element with
  | token lexeme =>
    have inside : lexeme ∈ Element.lexemesOf content := by
      rw [content_eq, Element.lexemesOf_append, Element.lexemesOf]
      exact List.mem_append_right _ (List.mem_append_left _ List.mem_cons_self)
    obtain ⟨next, read, idle⟩ := tokenAt_ok sound (known lexeme inside)
    refine ⟨next, ?_, idle⟩
    rw [Element.slot, rangeOf, run_bind_ok read]
    rfl
  | node kind span inner =>
    have size : base.length + Element.nodeCountOf front + Element.nodeCountOf inner <
        (base ++ Element.looseRows base.length content).length := by
      rw [List.length_append, Element.length_looseRows, content_eq, Element.nodeCountOf_append,
        Element.nodeCountOf, Element.nodeCount]
      omega
    refine ⟨walk, ?_, .refl sound⟩
    rw [Element.slot, Builder.rangeOf, List.getElem?_eq_getElem size] at range
    rw [Element.slot, rangeOf, run_bind_ok (EStateM.run_get _), holds,
      List.getElem?_eq_getElem size]
    exact congrArg (EStateM.Result.ok · walk) range

/-- Allocating a node over a content whose nodes are allocated adds the row of the node and fills in
those of its children. -/
theorem alloc_slotsOf (kind : String)
    (known : ∀ lexeme ∈ Element.lexemesOf content, tokens[lexeme.number]? = some lexeme.token) :
    Builder.alloc ⟨tokens, base ++ Element.looseRows base.length content⟩ kind
        (Element.slotsOf base.length content) =
      (⟨tokens, base ++ (Node.ofContent kind content).element.rows base.length none 0⟩,
        base.length + Element.nodeCountOf content) := by
  have size : (base ++ Element.looseRows base.length content).length =
      base.length + Element.nodeCountOf content := by
    rw [List.length_append, Element.length_looseRows]
  simp only [Builder.alloc]
  rw [Builder.link_looseRows rfl, Builder.hull_slotsOf rfl known, size, Node.element, Element.rows,
    List.append_assoc]
  rfl

/-- The last item of a content. -/
theorem getLast?_slotsOf {front : List Element} {last : Element} (first : Nat)
    (ends : content = front ++ [last]) : (Element.slotsOf first content).getLast? =
      some (last.slot (first + Element.nodeCountOf front)) := by
  rw [ends, Element.slotsOf_append, Element.slotsOf, Element.slotsOf, List.getLast?_concat]

/-- **A node is allocated over a content that is not empty**, behind the nodes below it. -/
theorem alloc_ok (kind : String) (sound : walk.Sound tokens)
    (holds : walk.builder = ⟨tokens, base ++ Element.looseRows base.length content⟩)
    (owning : content ≠ [])
    (known : ∀ lexeme ∈ Element.lexemesOf content, tokens[lexeme.number]? = some lexeme.token) :
    ∃ next, (alloc kind (Element.slotsOf base.length content)).run walk =
        .ok (base.length + Element.nodeCountOf content) next ∧ next.Sound tokens ∧
      next.builder = ⟨tokens, base ++
        (Node.ofContent kind content).element.rows base.length none 0⟩ ∧
      next.claims = walk.claims ∧ next.frames = walk.frames := by
  obtain ⟨head, rest, starts⟩ := List.exists_cons_of_ne_nil owning
  obtain ⟨front, last, ends⟩ := (List.eq_nil_or_concat' content).resolve_left owning
  have headSlot : (Element.slotsOf base.length content).head? =
      some (head.slot (base.length + Element.nodeCountOf [])) := by
    rw [starts]
    rfl
  have owningSlots : Element.slotsOf base.length content ≠ [] := by
    rw [starts]
    exact List.cons_ne_nil _ _
  have recorded : (walk.record (.allocated _)).Sound tokens := sound.record owningSlots
  obtain ⟨atHead, readHead, idle⟩ := rangeOf_ok recorded holds
    (show content = [] ++ head :: rest from starts) known
  obtain ⟨atLast, readLast, idleLast⟩ :=
    rangeOf_ok idle.sound (idle.builder.trans holds) ends known
  have both := idle.trans idleLast
  have allocated := @alloc_slotsOf _ _ base kind known
  rw [← both.builder.trans holds] at allocated
  refine ⟨{ atLast with builder := (atLast.builder.alloc kind _).1 }, ?_, ⟨?_, both.sound.events⟩,
    congrArg Prod.fst allocated, both.claims, both.frames⟩
  · rw [alloc, run_bind_ok (run_log _), headSlot,
      getLast?_slotsOf base.length ends]
    simp only
    rw [run_bind_ok readHead, run_bind_ok readLast, EStateM.run_modifyGet]
    exact congrArg (EStateM.Result.ok · _) (congrArg Prod.snd allocated)
  · rw [congrArg Prod.fst allocated]

end

end Zip.Cursor

end CellSyntax
