/-
**The walk with a cursor stays inside its windows.**

A part of the walk that is entered with its window inside the table comes back with its cursor in
the window, and what lies before the cursor is what the zip with frames has taken of the same tokens
(`Moves`). Moves are put together one behind another, so by induction on the shapes the whole walk
does what the zip does: no step of it asks for a token that there is not, and a node that took
nothing leaves the cursor and the claims as they were.

* `Zip.Cursor.Moves.trans`: one move behind another;
* `Zip.Cursor.closeNode_follows`: a node is dropped, or folded and then allocated over something;
* `Zip.Cursor.zipNode_follows`, `Zip.Cursor.zipChildren_follows`: the walk follows the zip;
* `Zip.Cursor.zipModule_inside`: all that a run does is inside, and it ends as the zip does.
-/

import CellSyntax.Proofs.Zip.Conservation
import CellSyntax.Proofs.Zip.CursorSteps

namespace CellSyntax.Zip.Cursor

variable {table : BracketTable} {tokens : List Token} {frame lo hi : Nat} {walk next : Walk}
  {content : List Slot} {zipped : Framed.Zipped} {value : List Slot × Nat}

/-- **The walk moves as the zip does**: it takes the tokens of the window from `lo` to `hi` up to
its cursor, what it adds to a content are the items of what was zipped, and their nodes are
allocated behind those that there were. -/
structure Moves (tokens : List Token) (lo hi : Nat) (walk : Walk) (content : List Slot)
    (zipped : Framed.Zipped) (value : List Slot × Nat) (next : Walk) : Prop where
  sound : next.Sound tokens
  nodes : next.builder.nodes = walk.builder.nodes ++
    Element.looseRows walk.builder.nodes.length zipped.content
  slots : value.1 = content ++ Element.slotsOf walk.builder.nodes.length zipped.content
  claims : next.claims = zipped.claims
  frames : next.frames = zipped.frames
  fromLo : lo ≤ value.2
  upTo : value.2 ≤ hi
  rest : zipped.rest = window tokens value.2 hi
  known : ∀ lexeme ∈ Element.lexemesOf zipped.content, tokens[lexeme.number]? = some lexeme.token
  untouched : zipped.content = [] → zipped.claims = walk.claims

theorem Moves.refl (sound : walk.Sound tokens) (fromLo : lo ≤ hi) (content : List Slot) :
    Moves tokens lo hi walk content ⟨[], window tokens lo hi, walk.claims, walk.frames⟩
      (content, lo) walk where
  sound := sound
  nodes := (List.append_nil _).symm
  slots := (List.append_nil _).symm
  claims := rfl
  frames := rfl
  fromLo := Nat.le_refl lo
  upTo := fromLo
  rest := rfl
  known _ member := absurd member List.not_mem_nil
  untouched _ := rfl

theorem Moves.builder (moves : Moves tokens lo hi walk content zipped value next) :
    next.builder = ⟨tokens, walk.builder.nodes ++
      Element.looseRows walk.builder.nodes.length zipped.content⟩ := by
  rw [← moves.nodes, ← moves.sound.table]

/-- **One move behind another.** -/
theorem Moves.trans {between : Walk} {slots : List Slot} {cursor : Nat} {further : Framed.Zipped}
    (first : Moves tokens lo hi walk content zipped (slots, cursor) between)
    (later : Moves tokens cursor hi between slots further value next) :
    Moves tokens lo hi walk content
      ⟨zipped.content ++ further.content, further.rest, further.claims, further.frames⟩
      value next where
  sound := later.sound
  nodes := by
    rw [later.nodes, first.nodes, List.length_append, Element.length_looseRows,
      Element.looseRows_append, List.append_assoc]
  slots := by
    have size : between.builder.nodes.length =
        walk.builder.nodes.length + Element.nodeCountOf zipped.content := by
      rw [first.nodes, List.length_append, Element.length_looseRows]
    have before : slots = _ := first.slots
    rw [later.slots, before, size, Element.slotsOf_append, List.append_assoc]
  claims := later.claims
  frames := later.frames
  fromLo := Nat.le_trans first.fromLo later.fromLo
  upTo := later.upTo
  rest := later.rest
  known lexeme member := by
    rw [Element.lexemesOf_append] at member
    rcases List.mem_append.1 member with before | behind
    · exact first.known lexeme before
    · exact later.known lexeme behind
  untouched nothing := by
    obtain ⟨before, behind⟩ := List.append_eq_nil_iff.1 nothing
    exact (later.untouched behind).trans (first.claims.trans (first.untouched before))

/-- A move in the first part of a window is one in the whole of it, and adds to any content. -/
theorem Moves.widen {slots : List Slot} {cursor stop : Nat}
    (moves : Moves tokens lo stop walk [] zipped (slots, cursor) next) (within : stop ≤ hi)
    (content : List Slot) :
    Moves tokens lo hi walk content
      ⟨zipped.content, zipped.rest ++ window tokens stop hi, zipped.claims, zipped.frames⟩
      (content ++ slots, cursor) next where
  sound := moves.sound
  nodes := moves.nodes
  slots := congrArg (content ++ ·) moves.slots
  claims := moves.claims
  frames := moves.frames
  fromLo := moves.fromLo
  upTo := Nat.le_trans moves.upTo within
  rest := by
    have rest := moves.rest
    rw [rest]
    exact window_append moves.upTo within
  known := moves.known
  untouched := moves.untouched

/-- Of where it starts, a move depends on the arena and the claims. -/
theorem Moves.of_same {between : Walk} (builder : between.builder = walk.builder)
    (claims : between.claims = walk.claims)
    (moves : Moves tokens lo hi between content zipped value next) :
    Moves tokens lo hi walk content zipped value next where
  sound := moves.sound
  nodes := builder ▸ moves.nodes
  slots := builder ▸ moves.slots
  claims := moves.claims
  frames := moves.frames
  fromLo := moves.fromLo
  upTo := moves.upTo
  rest := moves.rest
  known := moves.known
  untouched := claims ▸ moves.untouched

/-- Nothing but the log changes before a move. -/
theorem Moves.behind {between : Walk} (idle : Idle tokens walk between)
    (moves : Moves tokens lo hi between content zipped value next) :
    Moves tokens lo hi walk content zipped value next :=
  moves.of_same idle.builder idle.claims

/-- Nothing but the log changes after a move. -/
theorem Moves.idle {after : Walk} (moves : Moves tokens lo hi walk content zipped value next)
    (idle : Idle tokens next after) : Moves tokens lo hi walk content zipped value after where
  sound := idle.sound
  nodes := idle.builder ▸ moves.nodes
  slots := moves.slots
  claims := idle.claims.trans moves.claims
  frames := idle.frames.trans moves.frames
  fromLo := moves.fromLo
  upTo := moves.upTo
  rest := moves.rest
  known := moves.known
  untouched := moves.untouched

/-! ### Taking tokens -/

theorem exists_token (before : lo < hi) (upTo : hi ≤ tokens.length) :
    ∃ token, tokens[lo]? = some token :=
  ⟨_, List.getElem?_eq_getElem (Nat.lt_of_lt_of_le before upTo)⟩

theorem take_follows {token : Token} (sound : walk.Sound tokens) (found : tokens[lo]? = some token)
    (before : lo < hi) (content : List Slot) :
    Follows tokens
      (fun claims slots next => Moves tokens lo hi walk content
        ⟨[.token ⟨lo, token⟩], window tokens (lo + 1) hi, claims, walk.frames⟩ (slots, lo + 1) next)
      ((take table frame lo content).run walk)
      (Framed.take table frame walk.claims ⟨lo, token⟩) := by
  obtain ⟨read, reads, idle⟩ := tokenAt_ok sound found
  rw [take, run_bind_ok reads, run_bind_ok (EStateM.run_get _), ← idle.claims]
  cases Framed.take table frame read.claims ⟨lo, token⟩ with
  | error mismatch => exact .error idle.sound
  | ok claims =>
    refine .ok (.behind idle ?_)
    exact {
      sound := ⟨idle.sound.table, idle.sound.events⟩
      nodes := (List.append_nil _).symm
      slots := rfl
      claims := rfl
      frames := idle.frames
      fromLo := Nat.le_succ lo
      upTo := before
      rest := rfl
      known := fun lexeme member => by
        cases List.mem_singleton.1 member
        exact found
      untouched := fun nothing => absurd nothing (List.cons_ne_nil _ _) }

/-- **A stretch of tokens is taken** as the zip takes it. -/
theorem takeNext_follows {count : Nat} (sound : walk.Sound tokens) (upTo : lo + count ≤ hi)
    (within : hi ≤ tokens.length) (content : List Slot) :
    Follows tokens
      (fun claims value next => value.2 = lo + count ∧ Moves tokens lo hi walk content
        ⟨(window tokens lo (lo + count)).map .token, window tokens (lo + count) hi, claims,
          walk.frames⟩ value next)
      ((takeNext table frame count lo content).run walk)
      (Framed.takeAll table frame walk.claims (window tokens lo (lo + count))) := by
  induction count generalizing lo walk content with
  | zero =>
    rw [Nat.add_zero, window_self]
    exact .ok ⟨rfl, .refl sound upTo content⟩
  | succ count ih =>
    have before : lo < hi := by omega
    obtain ⟨token, found⟩ := exists_token before within
    rw [window_cons found (by omega), takeNext, Framed.takeAll]
    refine (take_follows sound found before content).bind (fun _ failed => by rw [failed])
      fun claims slots next taken moved => ?_
    rw [taken]
    have others := @ih (lo + 1) next moved.sound (by omega) slots
    rw [Nat.add_right_comm, moved.claims] at others
    refine others.imp fun after value last later => ⟨later.1, ?_⟩
    have both := moved.trans later.2
    rwa [moved.frames] at both

/-- **The tokens that trail a content are taken** as the zip takes them. -/
theorem foldNext_follows {count line : Nat} (sound : walk.Sound tokens) (upTo : lo + count = hi)
    (within : hi ≤ tokens.length) (content : List Slot) :
    Follows tokens
      (fun found value next => Moves tokens lo hi walk content
        ⟨found.1.map .token, found.2.1, found.2.2, walk.frames⟩ value next)
      ((foldNext table frame count lo line content).run walk)
      (Framed.takeTrailing table frame line walk.claims (window tokens lo hi)) := by
  induction count generalizing lo walk content line with
  | zero =>
    have refl := Moves.refl sound (Nat.le_of_eq upTo) content
    subst upTo
    rw [Nat.add_zero, window_self] at refl ⊢
    exact .ok refl
  | succ count ih =>
    have before : lo < hi := by omega
    obtain ⟨token, found⟩ := exists_token before within
    obtain ⟨read, reads, idle⟩ := tokenAt_ok sound found
    rw [window_cons found before, foldNext, run_bind_ok reads, run_bind_ok (EStateM.run_get _),
      Framed.takeTrailing, ← idle.claims]
    generalize number : (⟨lo, token⟩ : Lexeme) = lexeme
    obtain ⟨start, stop, literal⟩ : lexeme.start = token.range.start ∧
        lexeme.token.range.stop = token.range.stop ∧ lexeme.token.literal = token.literal := by
      subst number
      exact ⟨rfl, rfl, rfl⟩
    rw [start, stop, literal]
    by_cases trails : Framed.owesCloser frame read.claims = true ∨
        token.range.start.line = line ∧ table.role token.literal = none
    · rw [if_pos trails, if_pos trails, ← number]
      refine (take_follows idle.sound found before content).bind (fun _ failed => by rw [failed])
        fun claims slots next taken moved => ?_
      rw [taken]
      have others := @ih (lo + 1) next token.range.stop.line moved.sound (by omega) slots
      rw [moved.claims] at others
      refine others.map (fun _ failed => by simp only [failed])
        fun found value last folded later => ?_
      obtain ⟨more, left, after⟩ := found
      have both := (moved.trans later).behind idle
      rw [moved.frames, idle.frames] at both
      exact ⟨(⟨lo, token⟩ :: more, left, after), by simp only [folded], both⟩
    · rw [if_neg trails, if_neg trails, ← number]
      have refl := (Moves.refl idle.sound (Nat.le_of_lt before) content).behind idle
      rw [window_cons found before, idle.frames] at refl
      exact .ok refl

/-- **A content that is not empty is folded** as the zip folds it. -/
theorem foldTrailing_follows {between : Walk} {slots : List Slot} {cursor : Nat} {last : Element}
    (moves : Moves tokens lo hi walk [] zipped (slots, cursor) between)
    (within : hi ≤ tokens.length) (ends : zipped.content.getLast? = some last) :
    Follows tokens
      (fun found value next => Moves tokens cursor hi between slots
        ⟨found.1.map .token, found.2.1, found.2.2, between.frames⟩ value next)
      ((foldTrailing table frame cursor hi slots).run between)
      (Framed.takeTrailing table frame last.range.stop.line zipped.claims zipped.rest) := by
  obtain ⟨front, split⟩ : ∃ front, zipped.content = front ++ [last] :=
    ⟨_, (List.dropLast_append_getLast? last ends).symm⟩
  have isSlots : slots = Element.slotsOf walk.builder.nodes.length zipped.content := moves.slots
  have cursorBound : cursor ≤ hi := moves.upTo
  obtain ⟨read, reads, idle⟩ := rangeOf_ok moves.sound moves.builder split moves.known
  rw [foldTrailing, isSlots, getLast?_slotsOf _ split]
  simp only
  rw [run_bind_ok reads, ← moves.claims, moves.rest, ← idle.claims, ← isSlots]
  refine (foldNext_follows idle.sound (Nat.add_sub_cancel' cursorBound) within slots).imp
    fun found value next moved => ?_
  rw [idle.frames] at moved
  exact moved.behind idle

/-! ### Calls -/

/-- **A call keeps its cursor in the window**, if what is called does. -/
theorem call_follows {Value Plain : Type} {related : Plain → Value × Nat → Walk → Prop}
    {plain : Except BracketMismatch Plain} {part : Part} {cursor : Nat} {body : Run (Value × Nat)}
    (sound : walk.Sound tokens) (fromLo : lo ≤ cursor) (upTo : cursor ≤ hi)
    (within : hi ≤ tokens.length)
    (follows : ∀ called, Idle tokens walk called → Follows tokens related (body.run called) plain)
    (inside : ∀ found value next, related found value next →
      next.Sound tokens ∧ lo ≤ value.2 ∧ value.2 ≤ hi)
    (idles : ∀ found value next after, related found value next → Idle tokens next after →
      related found value after) :
    Follows tokens related ((call part lo cursor hi body).run walk) plain := by
  have called : Idle tokens walk (walk.record (.called part lo cursor hi)) :=
    idle_record sound ⟨fromLo, upTo, within⟩
  rw [call, run_bind_ok (run_log _)]
  refine (follows _ called).bind (fun _ failed => failed) fun found value next done holds => ?_
  obtain ⟨stays, after, before⟩ := inside found value next holds
  rw [done, run_bind_ok (run_log _)]
  exact .ok (idles found value next _ holds (idle_record stays ⟨after, before, within⟩))

/-- A call that moves as the zip does. -/
theorem call_moves {plain : Except BracketMismatch Framed.Zipped} {part : Part}
    {body : Run (List Slot × Nat)} (sound : walk.Sound tokens) (fromLo : lo ≤ hi)
    (within : hi ≤ tokens.length)
    (follows : ∀ called, Idle tokens walk called →
      Follows tokens (Moves tokens lo hi called content) (body.run called) plain) :
    Follows tokens (Moves tokens lo hi walk content) ((call part lo lo hi body).run walk) plain :=
  call_follows sound (Nat.le_refl lo) fromLo within
    (fun called idle => (follows called idle).imp fun _ _ _ moves => moves.behind idle)
    (fun _ _ _ moves => ⟨moves.sound, moves.fromLo, moves.upTo⟩)
    fun _ _ _ _ moves idle => moves.idle idle

/-- **The walk moves over one node as the zip does**: it comes back with the node, or with none and
with its cursor and its claims where they were. -/
structure NodeMoves (tokens : List Token) (lo hi : Nat) (walk : Walk) (zipped : Framed.Zipped)
    (value : Option Nat × Nat) (next : Walk) : Prop where
  moves : Moves tokens lo hi walk [] zipped ((value.1.map Slot.node).toList, value.2) next
  dropped : value.1 = none → value.2 = lo ∧ next.claims = walk.claims

/-- **A call of the zip of a node** logs that it drops the node, if it does. -/
theorem callNode_follows {plain : Except BracketMismatch Framed.Zipped}
    {zip : Run (Option Nat × Nat)} (sound : walk.Sound tokens) (fromLo : lo ≤ hi)
    (within : hi ≤ tokens.length)
    (follows : ∀ called, Idle tokens walk called →
      Follows tokens (NodeMoves tokens lo hi called) (zip.run called) plain) :
    Follows tokens (NodeMoves tokens lo hi walk) ((callNode lo hi zip).run walk) plain := by
  have calls : Follows tokens (NodeMoves tokens lo hi walk)
      ((call .node lo lo hi zip).run walk) plain :=
    call_follows sound (Nat.le_refl lo) fromLo within
      (fun called idle => (follows called idle).imp fun _ _ _ ⟨moves, dropped⟩ =>
        ⟨moves.behind idle, idle.claims ▸ dropped⟩)
      (fun _ _ _ ⟨moves, _⟩ => ⟨moves.sound, moves.fromLo, moves.upTo⟩)
      fun _ _ _ _ ⟨moves, dropped⟩ idle => ⟨moves.idle idle, idle.claims ▸ dropped⟩
  rw [callNode, run_bind_ok (EStateM.run_get _)]
  refine calls.bind (fun _ failed => failed) fun found (node, cursor) next done moved => ?_
  rw [done]
  cases node with
  | some id => exact .ok moved
  | none =>
    have idle : Idle tokens next (next.record (.dropped lo cursor walk.claims next.claims)) :=
      idle_record moved.moves.sound (moved.dropped rfl)
    exact .ok ⟨moved.moves.idle idle, moved.dropped⟩

/-! ### Zipping -/

/-- A node without children claims its anchor as the zip does. -/
theorem claimAnchor_follows {frames : Nat} (anchor : Option Position) (sound : walk.Sound tokens)
    (given : walk.frames = frames + 1) (fromLo : lo ≤ hi) (within : hi ≤ tokens.length) :
    Follows tokens (Moves tokens lo hi walk []) ((claimAnchor table frames anchor lo hi).run walk)
      (Framed.claimAnchor table anchor (window tokens lo hi) walk.claims frames) := by
  rw [claimAnchor]
  have untouched {read : Walk} (idle : Idle tokens walk read) :
      Moves tokens lo hi walk [] ⟨[], window tokens lo hi, walk.claims, frames + 1⟩ ([], lo)
        read := by
    have refl := (Moves.refl idle.sound fromLo []).behind idle
    rwa [idle.claims, idle.frames, given] at refl
  by_cases before : lo < hi
  · obtain ⟨token, found⟩ := exists_token before within
    obtain ⟨read, reads, idle⟩ := tokenAt_ok sound found
    have stays := untouched idle
    rw [window_cons found before] at stays ⊢
    rw [if_pos before, run_bind_ok reads, Framed.claimAnchor]
    have start : (⟨lo, token⟩ : Lexeme).start = token.range.start := rfl
    rw [start]
    by_cases anchored : anchor = some token.range.start
    · rw [if_pos anchored, if_pos anchored.symm, ← idle.claims]
      refine (take_follows idle.sound found before []).bind (fun _ failed => by rw [failed])
        fun claims slots next taken moved => ?_
      rw [taken]
      have moves := moved.behind idle
      rw [idle.frames, given] at moves
      exact .ok moves
    · rw [if_neg anchored, if_neg (anchored ·.symm)]
      exact .ok stays
  · rw [if_neg before]
    obtain rfl : lo = hi := by omega
    have stays := untouched (.refl sound)
    rw [window_self] at stays ⊢
    exact .ok stays

/-- Where nothing was claimed, the node is dropped and all is as it was. -/
theorem Moves.drop (moves : Moves tokens lo hi walk [] zipped value next)
    (nothing : zipped.content = []) :
    NodeMoves tokens lo hi walk ⟨[], window tokens lo hi, zipped.claims, zipped.frames⟩
      (none, lo) next where
  moves := {
    sound := moves.sound
    nodes := by rw [moves.nodes, nothing]
    slots := rfl
    claims := moves.claims
    frames := moves.frames
    fromLo := Nat.le_refl lo
    upTo := Nat.le_trans moves.fromLo moves.upTo
    rest := rfl
    known := fun _ member => absurd member List.not_mem_nil
    untouched := fun _ => moves.untouched nothing }
  dropped _ := ⟨rfl, moves.claims.trans (moves.untouched nothing)⟩

/-- **Where something was claimed, the node is allocated** over it. -/
theorem Moves.alloc (kind : String) (moves : Moves tokens lo hi walk [] zipped value next)
    (owning : zipped.content ≠ []) :
    ∃ id last, (Cursor.alloc kind value.1).run next = .ok id last ∧
      NodeMoves tokens lo hi walk
        ⟨[(Node.ofContent kind zipped.content).element], zipped.rest, zipped.claims, zipped.frames⟩
        (some id, value.2) last := by
  obtain ⟨last, allocated, sound, builder, claims, frames⟩ :=
    alloc_ok kind moves.sound moves.builder owning moves.known
  rw [moves.slots]
  refine ⟨_, last, allocated, ?_, nofun⟩
  exact {
    sound := sound
    nodes := by
      rw [builder, Element.looseRows, Element.looseRows, List.append_nil]
    slots := rfl
    claims := claims.trans moves.claims
    frames := frames.trans moves.frames
    fromLo := moves.fromLo
    upTo := moves.upTo
    rest := moves.rest
    known := fun lexeme member => by
      rw [Element.lexemesOf_element] at member
      exact moves.known lexeme member
    untouched := fun nothing => absurd nothing (List.cons_ne_nil _ _) }

/-- A call of the fold of a content that is not empty. -/
theorem callFold_follows {between : Walk} {last : Element}
    (moves : Moves tokens lo hi walk [] zipped value between) (within : hi ≤ tokens.length)
    (ends : zipped.content.getLast? = some last) :
    Follows tokens
      (fun found value next => Moves tokens lo hi walk []
        ⟨zipped.content ++ found.1.map .token, found.2.1, found.2.2, zipped.frames⟩ value next)
      ((call .fold lo value.2 hi (foldTrailing table frame value.2 hi value.1)).run between)
      (Framed.takeTrailing table frame last.range.stop.line zipped.claims zipped.rest) := by
  refine call_follows moves.sound moves.fromLo moves.upTo within (fun called idle => ?_)
    (fun _ _ _ moved => ⟨moved.sound, moved.fromLo, moved.upTo⟩)
    fun _ _ _ _ moved idle => moved.idle idle
  have entered := moves.idle idle
  refine (foldTrailing_follows entered within ends).imp fun found value next folded => ?_
  have both := entered.trans folded
  rwa [entered.frames] at both

/-- **A node is closed** as the zip closes it: one that has claimed nothing is dropped, any other is
folded and then allocated. -/
theorem closeNode_follows {between : Walk} (kind : String)
    (moves : Moves tokens lo hi walk [] zipped value between) (within : hi ≤ tokens.length) :
    Follows tokens (NodeMoves tokens lo hi walk)
      ((closeNode table frame kind lo hi value).run between)
      (Framed.closeNode table frame kind (window tokens lo hi) zipped) := by
  have isSlots : value.1 = Element.slotsOf walk.builder.nodes.length zipped.content := moves.slots
  rw [closeNode, Framed.closeNode]
  cases ends : zipped.content.getLast? with
  | none =>
    have nothing : zipped.content = [] := List.getLast?_eq_none_iff.1 ends
    rw [isSlots, nothing]
    exact .ok (moves.drop nothing)
  | some last =>
    obtain ⟨head, others, starts⟩ := List.exists_cons_of_ne_nil
      (List.ne_nil_of_mem (List.mem_of_getLast? ends))
    have owning : value.1.isEmpty = false := by
      rw [isSlots, starts]
      rfl
    rw [owning]
    refine (callFold_follows moves within ends).bind (fun _ failed => by simp only [failed])
      fun found taken next folded moved => ?_
    have whole : zipped.content ++ found.1.map .token ≠ [] := by
      rw [starts]
      exact List.cons_ne_nil _ _
    obtain ⟨id, last, allocated, closed⟩ := moved.alloc kind whole
    simp only [folded]
    rw [run_bind_ok allocated]
    exact .ok closed

/-- Tokens up to a place in the window are taken as the zip takes them. -/
theorem takeUpTo_follows {stop : Nat} (sound : walk.Sound tokens) (fromLo : lo ≤ stop)
    (upTo : stop ≤ hi) (within : hi ≤ tokens.length) (content : List Slot) :
    Follows tokens
      (fun claims value next => value.2 = stop ∧ Moves tokens lo hi walk content
        ⟨(window tokens lo stop).map .token, window tokens stop hi, claims, walk.frames⟩ value next)
      ((takeUpTo table frame lo stop content).run walk)
      (Framed.takeAll table frame walk.claims (window tokens lo stop)) := by
  obtain ⟨count, rfl⟩ := Nat.exists_eq_add_of_le fromLo
  rw [takeUpTo, Nat.add_sub_cancel_left]
  exact takeNext_follows sound upTo within content

mutual

/-- **The walk over one node** moves as the zip of it does. -/
theorem zipNode_follows : ∀ (shape : Shape) {lo hi : Nat} {walk : Walk}, walk.Sound tokens →
    lo ≤ hi → hi ≤ tokens.length →
      Follows tokens (NodeMoves tokens lo hi walk) ((zipNode table shape lo hi).run walk)
        (Framed.zipNode table shape (window tokens lo hi) walk.claims walk.frames)
  | ⟨kind, anchor, lead, children⟩, lo, hi, walk, sound, fromLo, within => by
    let entered : Walk := { walk with frames := walk.frames + 1 }
    have enters : enter.run walk = .ok walk.frames entered := rfl
    have soundly : entered.Sound tokens := ⟨sound.table, sound.events⟩
    have claimed : Follows tokens (Moves tokens lo hi entered [])
        ((if children.isEmpty then claimAnchor table walk.frames anchor lo hi
          else call .children lo lo hi
            (zipChildren table walk.frames children lo hi [])).run entered)
        (Framed.claim table anchor children (window tokens lo hi) walk.claims walk.frames) := by
      rw [Framed.claim]
      split
      · exact claimAnchor_follows anchor soundly rfl fromLo within
      · refine call_moves soundly fromLo within fun called idle => ?_
        have follows := @zipChildren_follows children walk.frames lo hi called [] idle.sound fromLo
          within
        rwa [idle.claims, idle.frames] at follows
    have sameArena : entered.builder = walk.builder := rfl
    rw [zipNode, Framed.zipNode_eq, run_bind_ok enters]
    refine claimed.bind (fun _ failed => by rw [failed]) fun found value next done moved => ?_
    rw [done]
    have closes := @closeNode_follows table tokens walk.frames lo hi entered found value next kind
      moved within
    exact closes.imp fun _ _ _ ⟨moves, dropped⟩ => ⟨moves.of_same sameArena rfl, dropped⟩

/-- **The walk over siblings** moves as the zip of them does. -/
theorem zipChildren_follows : ∀ (shapes : List Shape) {parent lo hi : Nat} {walk : Walk}
    (content : List Slot), walk.Sound tokens → lo ≤ hi → hi ≤ tokens.length →
      Follows tokens (Moves tokens lo hi walk content)
        ((zipChildren table parent shapes lo hi content).run walk)
        (Framed.zipChildren table parent shapes (window tokens lo hi) walk.claims walk.frames)
  | [], parent, lo, hi, walk, content, sound, fromLo, within => by
    rw [zipChildren, Framed.zipChildren]
    exact .ok (.refl sound fromLo content)
  | child :: siblings, parent, lo, hi, walk, content, sound, fromLo, within => by
    obtain ⟨cut, cuts, idleCut⟩ := boundary_ok sound fromLo within child.lead
    have edgeFrom := le_edge tokens lo hi child.lead
    have edgeUpTo := edge_le fromLo within child.lead
    rw [zipChildren, Framed.zipChildren, run_bind_ok cuts, beforeLead_window fromLo within,
      fromLead_window, ← idleCut.claims, ← idleCut.frames]
    refine (takeUpTo_follows idleCut.sound edgeFrom edgeUpTo within content).bind
      (fun _ failed => by simp only [failed]) fun claims (slots, cursor) taken scanned both => ?_
    obtain ⟨rfl, moved⟩ := both
    have atChild := moved.behind idleCut
    obtain ⟨stopFrom, stopUpTo⟩ := stopOf_bounds siblings edgeUpTo within
    obtain ⟨ended, ends, idleEnd⟩ := windowEnd_ok siblings moved.sound edgeUpTo within
    simp only [scanned]
    rw [run_bind_ok ends, beforeSibling_window siblings edgeUpTo within, fromSibling_window]
    have upToStop := Nat.le_trans stopUpTo within
    have claimsNow : ended.claims = claims := idleEnd.claims.trans moved.claims
    have framesNow : ended.frames = cut.frames := idleEnd.frames.trans moved.frames
    have visits := callNode_follows idleEnd.sound stopFrom upToStop fun called idle => by
      have follows := @zipNode_follows child _ _ called idle.sound stopFrom upToStop
      rwa [idle.claims, idle.frames] at follows
    rw [claimsNow, framesNow] at visits
    refine visits.bind (fun _ failed => by rw [failed]) fun node made after zipped visited => ?_
    rw [zipped]
    -- What the parent took before the child and what the child took is one move.
    have through := (atChild.idle idleEnd).trans (visited.moves.widen stopUpTo slots)
    have later := @zipChildren_follows siblings parent made.2 hi after
      (slots ++ (made.1.map Slot.node).toList) through.sound through.upTo within
    have rest : node.rest ++ window tokens _ hi = window tokens made.2 hi := through.rest
    have claimsAfter : after.claims = node.claims := through.claims
    have framesAfter : after.frames = node.frames := through.frames
    rw [claimsAfter, framesAfter, ← rest] at later
    refine later.map (fun _ failed => by simp only [failed]) fun found value last done others => ?_
    refine ⟨⟨_ ++ found.content, found.rest, found.claims, found.frames⟩, ?_, through.trans others⟩
    simp only [done]

end

/-! ### A whole run -/

theorem Walk.start_sound (tokens : List Token) : (Walk.start tokens).Sound tokens where
  table := rfl
  events _ member := absurd member List.not_mem_nil

/-- The first tree in an arena is allocated as the arena of its root. -/
theorem Moves.root (kind : String) (moves : Moves tokens lo hi walk [] zipped value next)
    (empty : walk.builder.nodes = []) (formed : (Node.ofContent kind zipped.content).Formed) :
    ∃ id last, (Cursor.alloc kind value.1).run next = .ok id last ∧ last.Sound tokens ∧
      ⟨last.builder.tokens, last.builder.nodes, id⟩ =
        (Node.ofContent kind zipped.content).arena tokens := by
  obtain ⟨last, allocated, sound, builder, -, -⟩ :=
    alloc_ok kind moves.sound moves.builder formed.owning moves.known
  rw [moves.slots]
  refine ⟨_, last, allocated, sound, ?_⟩
  rw [builder, empty, Node.arena_eq formed moves.known, List.length_nil, Nat.zero_add]
  rfl

/-- **The walk over the whole table** follows the zip of the module, and ends with its tree in the
arena. -/
theorem zipModule_follows (ast : AstNode) (some : tokens ≠ []) :
    Follows tokens (fun root arena next => next.Sound tokens ∧ arena = root.arena tokens)
      ((zipModule table ast).run (.start tokens)) (Framed.zipModule table ast tokens) := by
  let entered : Walk := { Walk.start tokens with frames := 1 }
  have enters : enter.run (.start tokens) = .ok 0 entered := rfl
  have soundly : entered.Sound tokens := ⟨rfl, (Walk.start_sound tokens).events⟩
  have children : Follows tokens (Moves tokens 0 tokens.length entered [])
      ((call .children 0 0 tokens.length
        (zipChildren table 0 (Shape.ofNodes ast.children) 0 tokens.length [])).run entered)
      (Framed.zipChildren table 0 (Shape.ofNodes ast.children) (Lexeme.sequence tokens) [] 1) :=
    call_moves soundly (Nat.zero_le _) (Nat.le_refl _) fun called idle => by
      have follows := @zipChildren_follows table tokens (Shape.ofNodes ast.children) 0 0
        tokens.length called [] idle.sound (Nat.zero_le _) (Nat.le_refl _)
      rwa [idle.claims, idle.frames, window_all] at follows
  rw [zipModule, run_bind_ok enters, run_bind_ok (EStateM.run_get _)]
  refine children.bind (fun _ failed => by rw [Framed.zipModule, failed])
    fun zipped (slots, cursor) between done moved => ?_
  have upTo : cursor ≤ tokens.length := moved.upTo
  have rest : zipped.rest = window tokens cursor tokens.length := moved.rest
  have takes := @takeUpTo_follows table tokens 0 cursor tokens.length between tokens.length
    moved.sound upTo (Nat.le_refl _) (Nat.le_refl _) slots
  rw [moved.claims, ← rest] at takes
  refine takes.bind (fun _ failed => by simp only [Framed.zipModule, done, failed])
    fun after value next taken both => ?_
  have zips : Framed.zipModule table ast tokens =
      .ok (.ofContent ast.kind (zipped.content ++ zipped.rest.map .token)) := by
    simp only [Framed.zipModule, done, taken]
  have formed := zipModule_formed ((Framed.zipModule_eq table ast tokens).symm.trans zips) some
  have whole : Moves tokens 0 tokens.length entered []
      ⟨zipped.content ++ zipped.rest.map .token, _, _, _⟩ value next := moved.trans both.2
  obtain ⟨id, last, allocated, sound, arena⟩ := whole.root ast.kind rfl formed
  rw [zips]
  show Follows tokens _ (EStateM.run (Cursor.alloc ast.kind value.1 >>= _) next) _
  rw [run_bind_ok allocated, run_bind_ok (EStateM.run_get _)]
  exact .ok ⟨sound, arena⟩

/-- **The walk never steps outside its windows**, over any tokens and any syntax tree: whatever it
logs is inside. So it stops only where the zip does, at a bracket that does not match, and otherwise
ends with the tree of the zip. -/
theorem zipModule_inside (table : BracketTable) (ast : AstNode) (some : tokens ≠ []) :
    ∃ last : Walk, (∀ event ∈ last.log, event.Inside tokens.length) ∧
      (zipModule table ast).run (.start tokens) =
        match Zip.zipModule table ast tokens with
        | .ok root => .ok (root.arena tokens) last
        | .error mismatch => .error (.mismatch mismatch) last := by
  have follows := @zipModule_follows table tokens ast some
  rw [Framed.zipModule_eq] at follows
  generalize (zipModule table ast).run (.start tokens) = result at follows ⊢
  generalize Zip.zipModule table ast tokens = zipped at follows ⊢
  cases follows with
  | ok both => exact ⟨_, both.1.events, by rw [both.2]⟩
  | error sound => exact ⟨_, sound.events, rfl⟩

/-- The tokens of `(a⏎)`. -/
def groupTokens : List Token :=
  [⟨"OP", ⟨⟨0, 0⟩, ⟨0, 1⟩⟩, "("⟩, ⟨"NAME", ⟨⟨0, 1⟩, ⟨0, 2⟩⟩, "a"⟩,
    ⟨"NL", ⟨⟨0, 2⟩, ⟨0, 3⟩⟩, "\n"⟩, ⟨"OP", ⟨⟨1, 0⟩, ⟨1, 1⟩⟩, ")"⟩]

/-- A node behind the text, and a node whose children have one anchor. -/
def tangledAst : AstNode :=
  ⟨"Module", none, [⟨"Late", some ⟨7, 0⟩, []⟩,
    ⟨"Group", some ⟨0, 0⟩, [⟨"Name", some ⟨0, 1⟩, []⟩, ⟨"Name", some ⟨0, 1⟩, []⟩]⟩]⟩

/-- One of the children with one anchor is dropped while the bracket is open. -/
theorem zipModule_inside_tangledAst :
    groupTokens ≠ [] ∧ ∃ root last, Zip.zipModule (.ofConfig {}) tangledAst groupTokens = .ok root ∧
      (zipModule (.ofConfig {}) tangledAst).run (.start groupTokens) =
        .ok (root.arena groupTokens) last ∧
      (∀ event ∈ last.log, event.Inside 4) ∧
      .dropped 1 1 [⟨⟨')', 0⟩, 1⟩] [⟨⟨')', 0⟩, 1⟩] ∈ last.log := by
  have some : groupTokens ≠ [] := List.cons_ne_nil _ _
  obtain ⟨last, inside, run⟩ := zipModule_inside (.ofConfig {}) tangledAst some
  obtain ⟨root, zips⟩ : ∃ root,
      Zip.zipModule (.ofConfig {}) tangledAst groupTokens = .ok root := ⟨_, rfl⟩
  have drops : .dropped 1 1 [⟨⟨')', 0⟩, 1⟩] [⟨⟨')', 0⟩, 1⟩] ∈
      match (zipModule (.ofConfig {}) tangledAst).run (.start groupTokens) with
      | .ok _ last => last.log
      | .error _ last => last.log := by decide +kernel
  rw [zips] at run
  rw [run] at drops
  exact ⟨some, root, last, zips, run, inside, drops⟩

end CellSyntax.Zip.Cursor
