import Cspcl.Receive.GateShut

/-!
# The receive loops of a link

The `incoming` streams of a `CspclLink`: `receive`, `State::next` and `Backoff::wait` of
`rust-bindings/picod3tn-cspcl/src/rx.rs`, any number of them, over the threads that open and the
calls of `CspclLink::shutdown` (`Gate`), which here also set the flag that the loops look at.

`shutdown_final`: what holds once a call of `shutdown` has returned.
-/

namespace Cspcl.Receive

open Inbound

/-- Where a receive loop is. `o`: the open whose stream it waits for or has. -/
inductive LoopState where
  /-- At the top of `next`, without a stream. -/
  | top
  | opening (o : Nat)
  | streaming (o : Nat)
  /-- The stream returned `None`. -/
  | finished (o : Nat)
  /-- The stream was dropped; about to look at `is_closed`. -/
  | checking
  /-- In `Backoff::wait`. -/
  | backoff
  /-- It returned `None`: the fused stream returns it again. -/
  | ended
  | dropped
  deriving DecidableEq, Repr

namespace LoopState

/-- The open that is the loop's. -/
def request : LoopState → Option Nat
  | opening o | streaming o | finished o => some o
  | _ => none

/-- It yields no bundle any more. -/
def isOver : LoopState → Bool
  | ended | dropped => true
  | _ => false

end LoopState

/-- A link with its loops. `requests`: how many opens were asked for; `yielded`: what the polls of
each loop returned. -/
structure Link where
  gate : Gate
  /-- The value of the watch channel `shutdown`. -/
  shutdown : Bool
  loop : Nat → LoopState
  requests : Nat
  yielded : Nat → List (Option Delivery)

/-- A step. `k`: a call of `shutdown`; `l`: a loop. -/
inductive LinkOp where
  /-- A step of the opening threads, of the calls of `shutdown`, or of the streams. -/
  | gate (op : GateOp)
  /-- `self.shutdown.send_replace(true)`. -/
  | flag (k : Nat)
  /-- `source.open()`; `ok`: the thread starts. -/
  | open (l : Nat) (ok : Bool)
  /-- `rx.await` in `open` returns. -/
  | answered (l : Nat)
  /-- A poll of the stream. -/
  | next (l : Nat)
  /-- `self.stream = None`. -/
  | dropEnded (l now : Nat)
  /-- `is_closed` after the end of a stream. -/
  | check (l : Nat)
  /-- `Backoff::wait` returns. -/
  | wake (l : Nat)
  /-- A poll of a loop that has returned `None`. -/
  | pollEnded (l : Nat)
  | drop (l now : Nat)

/-- What a poll of the stream of the open `o` returns. -/
def Gate.next (g : Gate) (o : Nat) : Poll (Item Delivery) :=
  match g.stream o with
  | some id => (g.w.recv.pollNext id (g.w.thread id).inSubscribe).1
  | none => .pending

namespace Link

/-- A new link. -/
def new (now : Nat) : Link where
  gate := .new now
  shutdown := false
  loop _ := .top
  requests := 0
  yielded _ := []

def setLoop (s : Link) (l : Nat) (st : LoopState) : Link :=
  { s with loop := Function.update s.loop l st }

/-- The loop `l` returns `item` from a poll. -/
def yield (s : Link) (l : Nat) (item : Option Delivery) (st : LoopState) : Link :=
  { s.setLoop l st with yielded := Function.update s.yielded l (s.yielded l ++ [item]) }

/-- A step of the gate. -/
def run (s : Link) (op : GateOp) : Option Link := (s.gate.step op).map fun gate => { s with gate }

/-- The steps that are not a loop's. A close has flagged before it begins. -/
def allows (s : Link) : GateOp → Bool
  | .start _ | .poll _ | .drop _ _ => false
  | .shutBegin _ _ => s.shutdown
  | _ => true

def step (s : Link) : LinkOp → Option Link
  | .gate op => if s.allows op then s.run op else none
  | .flag k => if s.gate.closer k = .marked then some { s with shutdown := true } else none
  | .open l ok =>
    if s.loop l = .top then
      if ok then
        { s.setLoop l (.opening s.requests) with requests := s.requests + 1 }.run
          (.start s.requests)
      else some (s.setLoop l .backoff)
    else none
  | .answered l =>
    match s.loop l with
    | .opening o =>
      match s.gate.answer o with
      | some .stream => some (s.setLoop l (.streaming o))
      | some .closed => some (s.yield l none .ended)
      | some .failed => some (s.setLoop l .backoff)
      | none => none
    | _ => none
  | .next l =>
    match s.loop l with
    | .streaming o =>
      match s.gate.next o with
      | .ready (.ok bundle) => (s.yield l (some bundle) (.streaming o)).run (.poll o)
      -- An error is logged and skipped.
      | .ready (.error _) | .pending => s.run (.poll o)
      | .ended => (s.setLoop l (.finished o)).run (.poll o)
    | _ => none
  | .dropEnded l now =>
    match s.loop l with
    | .finished o => (s.setLoop l .checking).run (.drop o now)
    | _ => none
  | .check l =>
    if s.loop l = .checking then
      some (if s.shutdown then s.yield l none .ended else s.setLoop l .backoff)
    else none
  | .wake l =>
    if s.loop l = .backoff then
      some (if s.shutdown then s.yield l none .ended else s.setLoop l .top)
    else none
  | .pollEnded l => if s.loop l = .ended then some (s.yield l none .ended) else none
  | .drop l now =>
    match s.loop l with
    | .dropped => none
    | .opening o | .streaming o | .finished o => (s.setLoop l .dropped).run (.drop o now)
    | _ => some (s.setLoop l .dropped)

end Link

/-- All interleavings on a new link. -/
def linkSys : Lts Link LinkOp where
  init s := ∃ now, s = .new now
  step := Link.step

/-! ## The invariant -/

namespace GateOp

/-- The open that is dropped. -/
def drops : GateOp → Option Nat
  | drop o _ => some o
  | _ => none

/-- The close that begins. -/
def begins : GateOp → Option Nat
  | shutBegin k _ => some k
  | _ => none

end GateOp

/-- What a step of the gate leaves as it is. -/
structure GateFrame (g g' : Gate) (op : GateOp) : Prop where
  idle : ∀ o, g.opener o = .idle → op ≠ .start o → g'.opener o = .idle
  gone : ∀ o, op.drops ≠ some o → g'.gone o = g.gone o
  answer : ∀ o a, g.answer o = some a → g'.answer o = some a
  begun : ∀ k, (g'.closer k).hasBegun = true →
    (g.closer k).hasBegun = true ∨ op.begins = some k

theorem gate_frame {g g' : Gate} {op : GateOp} (h : GateInv g) (hs : g.step op = some g') :
    GateFrame g g' op := by
  have hun := h.unopened
  have hsub := h.subscribed
  cases op with
  | stream now sop =>
    simp only [Gate.step, Gate.run] at hs
    split at hs
    · obtain ⟨w, -, rfl⟩ := Option.map_eq_some_iff.mp hs
      exact ⟨fun _ h _ => h, fun _ _ => rfl, fun _ _ h => h, fun _ h => .inl h⟩
    · cases hs
  | openSend o now =>
    simp only [Gate.step, Gate.run] at hs
    split at hs
    · split at hs
      · cases hs
      split at hs
      · obtain ⟨w, -, rfl⟩ := Option.map_eq_some_iff.mp hs
        constructor <;> simp only [Gate.setOpener, Function.update_apply] <;> grind
      · obtain rfl := Option.some.inj hs
        constructor <;> simp only [Gate.send, Gate.setOpener, Function.update_apply] <;> grind
    · cases hs
  | openPanic o =>
    simp only [Gate.step] at hs
    split at hs
    · obtain rfl := Option.some.inj hs
      constructor <;> simp only [Gate.send, Gate.setOpener, Function.update_apply] <;> grind
    · obtain rfl := Option.some.inj hs
      constructor <;> simp only [Gate.send, Gate.setOpener, Function.update_apply] <;> grind
    · cases hs
  | poll o =>
    simp only [Gate.step, Gate.run] at hs
    split at hs
    · cases hs
    split at hs
    · obtain ⟨w, -, rfl⟩ := Option.map_eq_some_iff.mp hs
      exact ⟨fun _ h _ => h, fun _ _ => rfl, fun _ _ h => h, fun _ h => .inl h⟩
    · cases hs
  | drop o now =>
    simp only [Gate.step, Gate.run] at hs
    split at hs
    · cases hs
    split at hs
    · obtain ⟨w, -, rfl⟩ := Option.map_eq_some_iff.mp hs
      constructor <;> simp only [Function.update_apply] <;> grind [GateOp.drops]
    · obtain rfl := Option.some.inj hs
      constructor <;> simp only [Function.update_apply] <;> grind [GateOp.drops]
  | openSubscribe o now | shutBegin k now | shutEnd k =>
    simp only [Gate.step, Gate.run] at hs
    split at hs
    · obtain ⟨w, -, rfl⟩ := Option.map_eq_some_iff.mp hs
      constructor <;>
        simp only [Gate.setOpener, Gate.setCloser, Function.update_apply] <;>
        grind [ShutPc.hasBegun, GateOp.begins]
    · cases hs
  | start o | openLock o | openRefuse o | openUnlock o | shutLock k | shutUnlock k | shutMark k =>
    simp only [Gate.step] at hs
    split at hs
    · obtain rfl := Option.some.inj hs
      constructor <;>
        simp only [Gate.send, Gate.setOpener, Gate.setCloser, Function.update_apply] <;>
        grind [ShutPc.hasBegun]
    · cases hs

structure LinkInv (s : Link) : Prop where
  gate : GateInv s.gate
  flagged : ∀ k, (s.gate.closer k).hasBegun = true → s.shutdown = true
  fresh : ∀ o, s.requests ≤ o → s.gate.opener o = .idle ∧ s.gate.gone o = false
  lt_requests : ∀ l o, (s.loop l).request = some o → o < s.requests
  inj : ∀ l l' o, (s.loop l).request = some o → (s.loop l').request = some o → l = l'
  kept : ∀ l o, (s.loop l).request = some o → s.gate.gone o = false
  streamed : ∀ l o, s.loop l = .streaming o ∨ s.loop l = .finished o →
    s.gate.answer o = some .stream

variable {s s' : Link} {l o now : Nat} {st : LoopState}

namespace LinkInv

/-- A step of the gate that starts no open and drops no stream. -/
theorem gateStep {op : GateOp} {gate : Gate} (h : LinkInv s) (hs : s.gate.step op = some gate)
    (hstart : ∀ o, op ≠ .start o) (hdrop : op.drops = none)
    (hbegin : ∀ k, op.begins = some k → s.shutdown = true) : LinkInv { s with gate } := by
  have hf := gate_frame h.gate hs
  have hgone : ∀ o, gate.gone o = s.gate.gone o := fun o => hf.gone o (by simp [hdrop])
  exact {
    h with
    gate := h.gate.step hs
    flagged := fun k hk => by
      rcases hf.begun k hk with hb | hb
      · exact h.flagged k hb
      · exact hbegin k hb
    fresh := fun o ho =>
      ⟨hf.idle o (h.fresh o ho).1 (hstart o), by rw [hgone]; exact (h.fresh o ho).2⟩
    kept := fun l o hl => by rw [hgone]; exact h.kept l o hl
    streamed := fun l o hl => hf.answer o _ (h.streamed l o hl) }

/-- A loop moves and takes no new open. -/
theorem setLoop (h : LinkInv s) (hreq : ∀ o, st.request = some o → (s.loop l).request = some o)
    (hst : ∀ o, st = .streaming o ∨ st = .finished o → s.gate.answer o = some .stream) :
    LinkInv (s.setLoop l st) := by
  obtain ⟨hg, hfl, hfr, hlt, hinj, hk, hs⟩ := h
  refine ⟨hg, hfl, hfr, ?_, ?_, ?_, ?_⟩ <;>
    simp only [Link.setLoop, Function.update_apply] <;> grind

theorem yield {item : Option Delivery} (h : LinkInv (s.setLoop l st)) :
    LinkInv (s.yield l item st) := { h with }

/-- A loop asks for a new stream. -/
theorem start {gate : Gate} (h : LinkInv s) (hs : s.gate.step (.start s.requests) = some gate) :
    LinkInv { s.setLoop l (.opening s.requests) with requests := s.requests + 1, gate } := by
  have hf := gate_frame h.gate hs
  have hg := h.gate.step hs
  have hgone : ∀ o, gate.gone o = s.gate.gone o := fun o => hf.gone o (by simp [GateOp.drops])
  have hans := hf.answer
  have hbegun := hf.begun
  have hidle := hf.idle
  obtain ⟨-, hfl, hfr, hlt, hinj, hk, hs⟩ := h
  refine ⟨hg, ?_, ?_, ?_, ?_, ?_, ?_⟩ <;>
    simp only [Link.setLoop, Function.update_apply] <;> grind [LoopState.request, GateOp.begins]

/-- A loop drops its stream, or no longer waits for it. -/
theorem dropStream {gate : Gate} (h : LinkInv s) (hl : (s.loop l).request = some o)
    (hs : s.gate.step (.drop o now) = some gate) (hst : st.request = none) :
    LinkInv { s.setLoop l st with gate } := by
  have hf := gate_frame h.gate hs
  have hg := h.gate.step hs
  have hgone : ∀ o', o' ≠ o → gate.gone o' = s.gate.gone o' := fun o' hne =>
    hf.gone o' (by simpa [GateOp.drops] using hne.symm)
  have hans := hf.answer
  have hbegun := hf.begun
  have hidle := hf.idle
  obtain ⟨-, hfl, hfr, hlt, hinj, hk, hs⟩ := h
  refine ⟨hg, ?_, ?_, ?_, ?_, ?_, ?_⟩ <;>
    simp only [Link.setLoop, Function.update_apply] <;> grind [LoopState.request, GateOp.begins]

/-- A loop stays where it is while it polls its stream. -/
theorem poll {gate : Gate} (h : LinkInv s) (hs : s.gate.step (.poll o) = some gate) :
    LinkInv { s with gate } :=
  h.gateStep hs (by simp) rfl (by simp [GateOp.begins])

theorem step {op : LinkOp} (h : LinkInv s) (hs : s.step op = some s') : LinkInv s' := by
  cases op with
  | gate op =>
    simp only [Link.step] at hs
    split at hs
    · rename_i hal
      obtain ⟨gate, hg, rfl⟩ := Option.map_eq_some_iff.mp hs
      refine h.gateStep hg ?_ ?_ ?_ <;> cases op <;>
        simp_all [Link.allows, GateOp.drops, GateOp.begins]
    · cases hs
  | flag k =>
    simp only [Link.step] at hs
    split at hs
    · obtain rfl := Option.some.inj hs
      exact { h with flagged := fun _ _ => rfl }
    · cases hs
  | «open» l ok =>
    simp only [Link.step] at hs
    split at hs
    · split at hs
      · obtain ⟨gate, hg, rfl⟩ := Option.map_eq_some_iff.mp hs
        exact h.start hg
      · obtain rfl := Option.some.inj hs
        exact h.setLoop (by simp [LoopState.request]) (by simp)
    · cases hs
  | answered l =>
    simp only [Link.step] at hs
    split at hs
    · rename_i o hl
      split at hs
      · rename_i ha
        obtain rfl := Option.some.inj hs
        refine h.setLoop (by simp [LoopState.request, hl]) ?_
        rintro o' (ho | ho) <;> cases ho
        exact ha
      · obtain rfl := Option.some.inj hs
        exact (h.setLoop (by simp [LoopState.request]) (by simp)).yield
      · obtain rfl := Option.some.inj hs
        exact h.setLoop (by simp [LoopState.request]) (by simp)
      · cases hs
    · cases hs
  | next l =>
    simp only [Link.step] at hs
    split at hs
    · rename_i o hl
      have ha := h.streamed l o (.inl hl)
      split at hs
      · obtain ⟨gate, hg, rfl⟩ := Option.map_eq_some_iff.mp hs
        refine poll (s := s.yield l _ (.streaming o)) (yield (h.setLoop ?_ ?_)) hg
        · simp [LoopState.request, hl]
        · rintro o' (ho | ho) <;> cases ho
          exact ha
      · obtain ⟨gate, hg, rfl⟩ := Option.map_eq_some_iff.mp hs
        exact h.poll hg
      · obtain ⟨gate, hg, rfl⟩ := Option.map_eq_some_iff.mp hs
        exact h.poll hg
      · obtain ⟨gate, hg, rfl⟩ := Option.map_eq_some_iff.mp hs
        refine poll (s := s.setLoop l (.finished o)) (h.setLoop ?_ ?_) hg
        · simp [LoopState.request, hl]
        · rintro o' (ho | ho) <;> cases ho
          exact ha
    · cases hs
  | dropEnded l now =>
    simp only [Link.step] at hs
    split at hs
    · rename_i o hl
      obtain ⟨gate, hg, rfl⟩ := Option.map_eq_some_iff.mp hs
      exact h.dropStream (by rw [hl]; rfl) hg rfl
    · cases hs
  | check l | wake l =>
    simp only [Link.step] at hs
    split at hs
    · obtain rfl := Option.some.inj hs
      split
      · exact (h.setLoop (by simp [LoopState.request]) (by simp)).yield
      · exact h.setLoop (by simp [LoopState.request]) (by simp)
    · cases hs
  | pollEnded l =>
    simp only [Link.step] at hs
    split at hs
    · obtain rfl := Option.some.inj hs
      exact (h.setLoop (by simp [LoopState.request]) (by simp)).yield
    · cases hs
  | drop l now =>
    simp only [Link.step] at hs
    split at hs
    · cases hs
    · rename_i o hl
      obtain ⟨gate, hg, rfl⟩ := Option.map_eq_some_iff.mp hs
      exact h.dropStream (by rw [hl]; rfl) hg rfl
    · rename_i o hl
      obtain ⟨gate, hg, rfl⟩ := Option.map_eq_some_iff.mp hs
      exact h.dropStream (by rw [hl]; rfl) hg rfl
    · rename_i o hl
      obtain ⟨gate, hg, rfl⟩ := Option.map_eq_some_iff.mp hs
      exact h.dropStream (by rw [hl]; rfl) hg rfl
    · obtain rfl := Option.some.inj hs
      exact h.setLoop (by simp [LoopState.request]) (by simp)

end LinkInv

theorem linkSys_inv : linkSys.Inductive LinkInv where
  init s hs := by
    obtain ⟨now, rfl⟩ := hs
    have h := gateSys_inv.init (.new now) ⟨now, rfl⟩
    refine ⟨h, ?_, ?_, ?_, ?_, ?_, ?_⟩ <;>
      simp [Link.new, Gate.new, LoopState.request, ShutPc.hasBegun]
  step _ _ _ h hs := h.step hs

/-- What a requester's poll takes from its stream. -/
theorem Gate.poll_cases {g g' : Gate} (hs : g.step (.poll o) = some g') :
    ∃ id, g.stream o = some id ∧
      ((∃ item rest, (g.w.recv.chan id).queue = item :: rest ∧ g.next o = .ready item ∧
          (g'.w.recv.chan id).queue = rest) ∨
        (g.w.recv.chan id).queue = [] ∧ (∀ item, g.next o ≠ .ready item) ∧ g' = g) := by
  simp only [Gate.step, Gate.run] at hs
  split at hs
  · cases hs
  split at hs
  · rename_i id _ hid
    obtain ⟨w, hw, rfl⟩ := Option.map_eq_some_iff.mp hs
    refine ⟨id, hid, ?_⟩
    simp only [Gate.next, hid, Receiver.pollNext]
    obtain ⟨-, ⟨item, rest, hq, rfl⟩ | ⟨hq, rfl⟩⟩ := World.pollNext_cases hw
    · exact .inl ⟨item, rest, hq, by rw [Chan.poll_cons hq], by simp⟩
    · refine .inr ⟨hq, fun item => ?_, rfl⟩
      rw [Chan.poll_nil hq]
      dsimp only
      split <;> simp
  · cases hs

/-- From `s` to `s'` the gate takes a step or none, and the flag is not reset. -/
def Link.Moves (s s' : Link) : Prop :=
  (s'.gate = s.gate ∨ ∃ op, s.gate.step op = some s'.gate) ∧
    (s.shutdown = true → s'.shutdown = true)

theorem Link.Moves.same (hg : s'.gate = s.gate) (hf : s'.shutdown = s.shutdown) : s.Moves s' :=
  ⟨.inl hg, fun h => hf.trans h⟩

theorem Link.Moves.run {v : Link} {op : GateOp} (hg : v.gate = s.gate)
    (hf : v.shutdown = s.shutdown) (hs : v.run op = some s') : s.Moves s' := by
  obtain ⟨gate, hg', rfl⟩ := Option.map_eq_some_iff.mp hs
  rw [hg] at hg'
  exact ⟨.inr ⟨op, hg'⟩, fun h => hf.trans h⟩

theorem Link.step_moves {op : LinkOp} (hs : s.step op = some s') : s.Moves s' := by
  cases op with
  | gate op =>
    simp only [Link.step] at hs
    split at hs
    · exact .run rfl rfl hs
    · cases hs
  | flag k =>
    simp only [Link.step] at hs
    split at hs
    · obtain rfl := Option.some.inj hs
      exact ⟨.inl rfl, fun _ => rfl⟩
    · cases hs
  | «open» l ok =>
    simp only [Link.step] at hs
    split at hs
    · split at hs
      · exact .run (v := { s.setLoop l (.opening s.requests) with requests := s.requests + 1 })
          rfl rfl hs
      · obtain rfl := Option.some.inj hs
        exact .same rfl rfl
    · cases hs
  | answered l =>
    simp only [Link.step] at hs
    split at hs
    · split at hs
      · obtain rfl := Option.some.inj hs
        exact .same rfl rfl
      · obtain rfl := Option.some.inj hs
        exact .same rfl rfl
      · obtain rfl := Option.some.inj hs
        exact .same rfl rfl
      · cases hs
    · cases hs
  | next l =>
    simp only [Link.step] at hs
    split at hs
    · rename_i o _
      split at hs
      · rename_i b _
        exact .run (v := s.yield l (some b) (.streaming o)) rfl rfl hs
      · exact .run rfl rfl hs
      · exact .run rfl rfl hs
      · exact .run (v := s.setLoop l (.finished o)) rfl rfl hs
    · cases hs
  | dropEnded l now =>
    simp only [Link.step] at hs
    split at hs
    · exact .run (v := s.setLoop l .checking) rfl rfl hs
    · cases hs
  | check l | wake l =>
    simp only [Link.step] at hs
    split at hs
    · obtain rfl := Option.some.inj hs
      split <;> exact .same rfl rfl
    · cases hs
  | pollEnded l =>
    simp only [Link.step] at hs
    split at hs
    · obtain rfl := Option.some.inj hs
      exact .same rfl rfl
    · cases hs
  | drop l now =>
    simp only [Link.step] at hs
    split at hs
    · cases hs
    · exact .run (v := s.setLoop l .dropped) rfl rfl hs
    · exact .run (v := s.setLoop l .dropped) rfl rfl hs
    · exact .run (v := s.setLoop l .dropped) rfl rfl hs
    · obtain rfl := Option.some.inj hs
      exact .same rfl rfl

/-! ## Behind the close -/

/-- The bundles left in a loop's stream. -/
def Link.unread (s : Link) (l : Nat) : List Delivery :=
  match (s.loop l).request.bind s.gate.stream with
  | some id => bundles (s.gate.w.recv.chan id).queue
  | none => []

/-- From `s` to `t` the loop `l` yields bundles that were left in its stream, in their order, and
then `None` only. -/
def Yields (s t : Link) (l : Nat) : Prop :=
  ∃ bs n, t.yielded l = s.yielded l ++ bs.map some ++ List.replicate n none ∧
    bs ++ t.unread l <+: s.unread l ∧ ((s.loop l).isOver = true ∨ 0 < n → (t.loop l).isOver = true)

theorem Link.unread_of_over (h : (s.loop l).isOver = true) : s.unread l = [] := by
  unfold Link.unread
  cases hl : s.loop l <;> simp [hl, LoopState.isOver] at h <;> rfl

namespace Yields

variable {t u : Link}

theorem refl : Yields s s l := ⟨[], 0, by simp, by simp, by simp⟩

theorem trans (h : Yields s t l) (h' : Yields t u l) : Yields s u l := by
  obtain ⟨bs, n, hy, hp, ho⟩ := h
  obtain ⟨bs', n', hy', hp', ho'⟩ := h'
  have hp'' : bs ++ bs' ++ u.unread l <+: s.unread l := by
    rw [List.append_assoc]
    exact ((List.prefix_append_right_inj bs).mpr hp').trans hp
  have hover : (s.loop l).isOver = true ∨ 0 < n + n' → (u.loop l).isOver = true := by
    rintro (h | h)
    · exact ho' (.inl (ho (.inl h)))
    · rcases Nat.eq_zero_or_pos n with rfl | hn
      · exact ho' (.inr (by omega))
      · exact ho' (.inl (ho (.inr hn)))
  refine ⟨bs ++ bs', n + n', ?_, hp'', hover⟩
  rw [hy', hy]
  rcases Nat.eq_zero_or_pos n with rfl | hn
  · simp
  · -- It has yielded `None`: nothing is left in its stream.
    have hnil := Link.unread_of_over (ho (.inr hn))
    rw [hnil] at hp'
    obtain ⟨rfl, -⟩ := List.append_eq_nil_iff.mp (List.prefix_nil.mp hp')
    simp

/-- A loop that yields nothing. -/
theorem of_unread (hy : t.yielded l = s.yielded l) (hu : t.unread l <+: s.unread l)
    (ho : (s.loop l).isOver = true → (t.loop l).isOver = true) : Yields s t l :=
  ⟨[], 0, by simp [hy], by simpa using hu, by simpa using ho⟩

end Yields

/-- A close has set both flags and ended the streams. -/
structure LinkShut (s : Link) : Prop where
  inv : LinkInv s
  shut : GateShut s.gate
  flag : s.shutdown = true

namespace LinkShut

variable {t : Link}

/-- A step that is no poll and no drop of a loop's stream leaves in it what is there. -/
theorem unread_eq {op : GateOp} (h : LinkShut s) (hs : s.gate.step op = some t.gate)
    (hl : t.loop l = s.loop l)
    (hop : ∀ o, (s.loop l).request = some o → op ≠ .poll o ∧ op.drops ≠ some o) :
    t.unread l = s.unread l := by
  unfold Link.unread
  rw [hl, (h.shut.step hs).2]
  cases hb : (s.loop l).request.bind s.gate.stream with
  | none => rfl
  | some id =>
    obtain ⟨o, ho, hid⟩ := Option.bind_eq_some_iff.mp hb
    obtain ⟨hp, hd⟩ := hop o ho
    exact h.shut.queue hs hid hp (by rintro now rfl; exact hd rfl)

/-- The loops but `l` are not touched by what `l` does with its own stream. -/
theorem others {op : GateOp} {l' : Nat} (h : LinkShut s) (hs : s.gate.step op = some t.gate)
    (hreq : (s.loop l).request = some o) (hop : op = .poll o ∨ ∃ now, op = .drop o now)
    (hne : l' ≠ l) (hl : t.loop l' = s.loop l') (hy : t.yielded l' = s.yielded l') :
    Yields s t l' := by
  have hu : t.unread l' = s.unread l' := by
    refine h.unread_eq hs hl fun o' ho' => ?_
    have hoo : o' ≠ o := by
      rintro rfl
      exact hne (h.inv.inj l' l o' ho' hreq)
    rcases hop with rfl | ⟨now, rfl⟩ <;> simp [GateOp.drops, hoo.symm]
  exact .of_unread hy (hu ▸ List.prefix_rfl) (by rw [hl]; exact id)

/-- A loop moves: it keeps its stream, or has none any more. -/
theorem move (hreq : st.request = none ∨ st.request = (s.loop l).request)
    (ho : (s.loop l).isOver = true → st.isOver = true) (l' : Nat) :
    Yields s (s.setLoop l st) l' := by
  by_cases hl : l' = l
  · subst hl
    refine .of_unread rfl ?_ (by simpa [Link.setLoop] using ho)
    simp only [Link.unread, Link.setLoop, Function.update_self]
    rcases hreq with hr | hr <;> simp [hr]
  · exact .of_unread rfl (by simp [Link.unread, Link.setLoop, hl]) (by simp [Link.setLoop, hl])

/-- A loop returns `None`. -/
theorem finish (l l' : Nat) : Yields s (s.yield l none .ended) l' := by
  by_cases hl : l' = l
  · subst hl
    refine ⟨[], 1, by simp [Link.yield], ?_, by simp [Link.yield, Link.setLoop, LoopState.isOver]⟩
    simp [Link.unread_of_over (s := s.yield l' none .ended) (l := l')
      (by simp [Link.yield, Link.setLoop, LoopState.isOver])]
  · exact .of_unread (by simp [Link.yield, hl])
      (by simp [Link.unread, Link.yield, Link.setLoop, hl])
      (by simp [Link.yield, Link.setLoop, hl])

/-- A loop polls its stream. -/
theorem poll {gate : Gate} (h : LinkShut s) (hl : s.loop l = .streaming o)
    (hs : s.gate.step (.poll o) = some gate) (l' : Nat) :
    (∀ b, s.gate.next o = .ready (.ok b) →
      Yields s { s.yield l (some b) (.streaming o) with gate } l') ∧
    ((∀ b, s.gate.next o ≠ .ready (.ok b)) → Yields s { s with gate } l') := by
  have hreq : (s.loop l).request = some o := by rw [hl]; rfl
  have hstr := (h.shut.step hs).2
  obtain ⟨id, hid, hq⟩ := Gate.poll_cases hs
  have hun : s.unread l = bundles (s.gate.w.recv.chan id).queue := by
    simp [Link.unread, hreq, hid]
  have hun' {t : Link} (hr : (t.loop l).request = some o) (hg : t.gate = gate) :
      t.unread l = bundles (gate.w.recv.chan id).queue := by
    simp [Link.unread, hr, hg, hstr, hid]
  by_cases hll : l' = l
  · subst hll
    refine ⟨fun b hb => ?_, fun hb => ?_⟩
    · rcases hq with ⟨item, rest, hq, hn, hq'⟩ | ⟨-, hn, -⟩
      · obtain rfl := Poll.ready.inj (hn.symm.trans hb)
        refine ⟨[b], 0, by simp [Link.yield], ?_, by simp [hl, LoopState.isOver]⟩
        rw [hun, hq, hun' (by simp [Link.yield, Link.setLoop, LoopState.request]) rfl, hq']
        simp
      · exact absurd hb (hn _)
    · refine .of_unread rfl ?_ fun ho => ho
      rw [hun, hun' (t := { s with gate }) hreq rfl]
      rcases hq with ⟨item, rest, hq, hn, hq'⟩ | ⟨-, -, rfl⟩
      · cases item with
        | ok b => exact absurd hn (hb b)
        | error e => rw [hq, hq']; simp
      · exact List.prefix_rfl
  · refine ⟨fun b _ => ?_, fun _ => ?_⟩
    · exact h.others hs hreq (.inl rfl) hll (by simp [Link.yield, Link.setLoop, hll])
        (by simp [Link.yield, hll])
    · exact h.others hs hreq (.inl rfl) hll rfl rfl

/-- A loop drops its stream, or no longer waits for it. -/
theorem dropStream {gate : Gate} (h : LinkShut s) (hreq : (s.loop l).request = some o)
    (hs : s.gate.step (.drop o now) = some gate) (hst : st.request = none) (l' : Nat) :
    Yields s { s.setLoop l st with gate } l' := by
  by_cases hll : l' = l
  · subst hll
    refine .of_unread rfl (by simp [Link.unread, Link.setLoop, hst]) fun ho => ?_
    cases hl : s.loop l' <;> simp [hl, LoopState.request, LoopState.isOver] at hreq ho
  · exact h.others hs hreq (.inr ⟨now, rfl⟩) hll (by simp [Link.setLoop, hll]) rfl

/-- A step of the others leaves the loops' streams as they are. -/
theorem gateStep {op : GateOp} {gate : Gate} (h : LinkShut s) (hs : s.gate.step op = some gate)
    (hp : ∀ o, op ≠ .poll o) (hd : op.drops = none) (l : Nat) : Yields s { s with gate } l := by
  have hu := h.unread_eq (t := { s with gate }) (l := l) hs rfl fun o _ => ⟨hp o, by simp [hd]⟩
  exact .of_unread rfl (hu ▸ List.prefix_rfl) fun ho => ho

theorem yields {op : LinkOp} (h : LinkShut s) (hs : s.step op = some s') (l' : Nat) :
    Yields s s' l' := by
  cases op with
  | gate op =>
    simp only [Link.step] at hs
    split at hs
    · rename_i hal
      obtain ⟨gate, hg, rfl⟩ := Option.map_eq_some_iff.mp hs
      refine h.gateStep hg ?_ ?_ l' <;> cases op <;> simp_all [Link.allows, GateOp.drops]
    · cases hs
  | flag k =>
    simp only [Link.step] at hs
    split at hs
    · obtain rfl := Option.some.inj hs
      exact .of_unread rfl List.prefix_rfl fun ho => ho
    · cases hs
  | «open» l ok =>
    simp only [Link.step] at hs
    split at hs
    · rename_i hl
      split at hs
      · obtain ⟨gate, hg, rfl⟩ := Option.map_eq_some_iff.mp hs
        -- The new open has no stream.
        have hnone : s.gate.stream s.requests = none :=
          (h.inv.gate.unopened _ (.inl (h.inv.fresh _ (Nat.le_refl _)).1)).1
        have hstr := (h.shut.step hg).2
        by_cases hll : l' = l
        · subst hll
          refine .of_unread rfl ?_ (by simp [hl, LoopState.isOver])
          simp [Link.unread, Link.setLoop, LoopState.request, hstr, hnone]
        · have hu := h.unread_eq (l := l')
            (t := { s.setLoop l (.opening s.requests) with requests := s.requests + 1, gate }) hg
            (by simp [Link.setLoop, hll]) fun _ _ => ⟨by simp, by simp [GateOp.drops]⟩
          exact .of_unread rfl (hu ▸ List.prefix_rfl) (by simp [Link.setLoop, hll])
      · obtain rfl := Option.some.inj hs
        exact move (.inl rfl) (by simp [hl, LoopState.isOver]) l'
    · cases hs
  | answered l =>
    simp only [Link.step] at hs
    split at hs
    · rename_i o hl
      split at hs
      · obtain rfl := Option.some.inj hs
        exact move (.inr (by simp [hl, LoopState.request])) (by simp [hl, LoopState.isOver]) l'
      · obtain rfl := Option.some.inj hs
        exact finish l l'
      · obtain rfl := Option.some.inj hs
        exact move (.inl rfl) (by simp [hl, LoopState.isOver]) l'
      · cases hs
    · cases hs
  | next l =>
    simp only [Link.step] at hs
    split at hs
    · rename_i o hl
      split at hs
      · rename_i b hb
        obtain ⟨gate, hg, rfl⟩ := Option.map_eq_some_iff.mp hs
        exact (h.poll hl hg l').1 b hb
      · rename_i hb
        obtain ⟨gate, hg, rfl⟩ := Option.map_eq_some_iff.mp hs
        exact (h.poll hl hg l').2 (by simp [hb])
      · rename_i hb
        obtain ⟨gate, hg, rfl⟩ := Option.map_eq_some_iff.mp hs
        exact (h.poll hl hg l').2 (by simp [hb])
      · rename_i hb
        obtain ⟨gate, hg, rfl⟩ := Option.map_eq_some_iff.mp hs
        -- First the poll, then the loop moves.
        refine ((h.poll hl hg l').2 (by simp [hb])).trans ?_
        exact move (s := { s with gate }) (.inr (by simp [hl, LoopState.request]))
          (by simp [hl, LoopState.isOver]) l'
    · cases hs
  | dropEnded l now =>
    simp only [Link.step] at hs
    split at hs
    · rename_i o hl
      obtain ⟨gate, hg, rfl⟩ := Option.map_eq_some_iff.mp hs
      exact h.dropStream (by rw [hl]; rfl) hg rfl l'
    · cases hs
  | check l | wake l =>
    simp only [Link.step] at hs
    split at hs
    · obtain rfl := Option.some.inj hs
      rw [if_pos h.flag]
      exact finish l l'
    · cases hs
  | pollEnded l =>
    simp only [Link.step] at hs
    split at hs
    · obtain rfl := Option.some.inj hs
      exact finish l l'
    · cases hs
  | drop l now =>
    simp only [Link.step] at hs
    split at hs
    · cases hs
    · rename_i o hl
      obtain ⟨gate, hg, rfl⟩ := Option.map_eq_some_iff.mp hs
      exact h.dropStream (by rw [hl]; rfl) hg rfl l'
    · rename_i o hl
      obtain ⟨gate, hg, rfl⟩ := Option.map_eq_some_iff.mp hs
      exact h.dropStream (by rw [hl]; rfl) hg rfl l'
    · rename_i o hl
      obtain ⟨gate, hg, rfl⟩ := Option.map_eq_some_iff.mp hs
      exact h.dropStream (by rw [hl]; rfl) hg rfl l'
    · obtain rfl := Option.some.inj hs
      exact move (.inl rfl) (fun _ => rfl) l'

theorem step {op : LinkOp} (h : LinkShut s) (hs : s.step op = some s') :
    LinkShut s' ∧ s'.gate.stream = s.gate.stream := by
  have hinv := h.inv.step hs
  obtain ⟨hg | ⟨gop, hg⟩, hf⟩ := Link.step_moves hs
  · exact ⟨⟨hinv, hg ▸ h.shut, hf h.flag⟩, by rw [hg]⟩
  · obtain ⟨hshut, hstr⟩ := h.shut.step hg
    exact ⟨⟨hinv, hshut, hf h.flag⟩, hstr⟩

theorem run {ops : List LinkOp} (hr : linkSys.Run s ops t) (h : LinkShut s) :
    LinkShut t ∧ t.gate.stream = s.gate.stream ∧ ∀ l, Yields s t l := by
  induction hr with
  | nil => exact ⟨h, rfl, fun _ => .refl⟩
  | cons hs _ ih =>
    obtain ⟨h₁, he₁⟩ := h.step hs
    obtain ⟨h₂, he₂, hy₂⟩ := ih h₁
    exact ⟨h₂, he₂.trans he₁, fun l => (h.yields hs l).trans (hy₂ l)⟩

/-- A loop that polls its stream gets a bundle, an error or the end. -/
theorem not_pending (h : LinkShut s) (hl : s.loop l = .streaming o) :
    s.gate.next o ≠ .pending := by
  obtain ⟨id, hid⟩ := h.inv.gate.answered o (h.inv.streamed l o (.inl hl))
  simp only [Gate.next, hid]
  exact h.shut.not_pending hid

end LinkShut

/-- What holds of a link in every run from `s`: no inbound stream is open and no open succeeds;
each loop yields at most the bundles left in the stream that it has or waits for, and then `None`
only; and no loop is left waiting for its stream. -/
structure ShutdownFinal (s : Link) : Prop where
  none_open : ∀ ops t, linkSys.Run s ops t → ∀ id, t.gate.w.status id ≠ .open
  none_opened : ∀ ops t, linkSys.Run s ops t → t.gate.stream = s.gate.stream
  yields : ∀ ops t, linkSys.Run s ops t → ∀ l, Yields s t l
  not_pending : ∀ ops t, linkSys.Run s ops t → ∀ l o, t.loop l = .streaming o →
    t.gate.next o ≠ .pending

/-- The same of a `Transport`, as to its streams. -/
structure CleanupFinal (g : Gate) : Prop where
  none_open : ∀ ops g', gateSys.Run g ops g' → ∀ id, g'.w.status id ≠ .open
  none_opened : ∀ ops g', gateSys.Run g ops g' → g'.stream = g.stream

/-- Once a call of `shutdown` or `cleanup` has returned, it is final. -/
theorem shutdown_final :
    (∀ s k, linkSys.Reach s → s.gate.closer k = .returned → ShutdownFinal s) ∧
    (∀ g k, gateSys.Reach g → g.closer k = .returned → CleanupFinal g) := by
  constructor
  · intro s k hr hk
    have hinv := linkSys_inv.reach hr
    have hbegun : (s.gate.closer k).hasBegun = true := by rw [hk]; rfl
    have h : LinkShut s := ⟨hinv, .of_begun hinv.gate hbegun, hinv.flagged k hbegun⟩
    exact {
      none_open := fun ops t ht => (h.run ht).1.shut.none_open
      none_opened := fun ops t ht => (h.run ht).2.1
      yields := fun ops t ht => (h.run ht).2.2
      not_pending := fun ops t ht l o hl => (h.run ht).1.not_pending hl }
  · intro g k hr hk
    have h : GateShut g := .of_begun (gateSys_inv.reach hr) (by rw [hk]; rfl)
    exact {
      none_open := fun ops g' hg => (GateShut.run hg h).1.none_open
      none_opened := fun ops g' hg => (GateShut.run hg h).2 }

/-- A loop opens its stream, a bundle arrives, and a call of `shutdown` returns before the loop has
polled. -/
def shutdownRun : List LinkOp :=
  [.open 0 true, .gate (.openLock 0), .gate (.openSubscribe 0 1), .gate (.stream 1 (.spawned 0)),
    .gate (.openSend 0 1), .gate (.openUnlock 0), .answered 0,
    .gate (.stream 1 (.deliver (.ok ⟨[7], 2, 40⟩))), .gate (.shutLock 0), .gate (.shutMark 0),
    .flag 0, .gate (.shutBegin 0 2), .gate (.shutEnd 0), .gate (.shutUnlock 0)]

/-- The same of a `Transport`. -/
def cleanupRun : List GateOp :=
  [.start 0, .openLock 0, .openSubscribe 0 1, .stream 1 (.spawned 0), .openSend 0 1, .openUnlock 0,
    .shutLock 0, .shutMark 0, .shutBegin 0 2, .shutEnd 0, .shutUnlock 0]

theorem shutdown_final_unread :
    (∃ s, linkSys.exec (.new 0) shutdownRun = some s ∧ s.unread 0 = [⟨0, [7], 2, 40⟩] ∧
      ShutdownFinal s ∧
      (linkSys.exec s [.next 0, .next 0, .dropEnded 0 3, .check 0, .pollEnded 0]).map
        (fun t => t.yielded 0) = some [some ⟨0, [7], 2, 40⟩, none, none]) ∧
    ∃ g, gateSys.exec (.new 0) cleanupRun = some g ∧ CleanupFinal g := by
  obtain ⟨s, hs⟩ : ∃ s, linkSys.exec (.new 0) shutdownRun = some s := ⟨_, rfl⟩
  obtain ⟨g, hg⟩ : ∃ g, gateSys.exec (.new 0) cleanupRun = some g := ⟨_, rfl⟩
  have hsf : (linkSys.exec (.new 0) shutdownRun).map (fun s => (s.gate.closer 0, s.unread 0)) =
      some (.returned, [⟨0, [7], 2, 40⟩]) := by decide
  have hgf : (gateSys.exec (.new 0) cleanupRun).map (fun g => g.closer 0) = some .returned := by
    decide
  have hy : ((linkSys.exec (.new 0) shutdownRun).bind fun s =>
      (linkSys.exec s [.next 0, .next 0, .dropEnded 0 3, .check 0, .pollEnded 0]).map
        (fun t => t.yielded 0)) = some [some ⟨0, [7], 2, 40⟩, none, none] := by decide
  rw [hs, Option.map_some, Option.some.injEq, Prod.mk.injEq] at hsf
  rw [hg, Option.map_some, Option.some.injEq] at hgf
  rw [hs, Option.bind_some] at hy
  exact ⟨⟨s, hs, hsf.2, shutdown_final.1 s 0 (.of_exec ⟨0, rfl⟩ hs) hsf.1, hy⟩,
    g, hg, shutdown_final.2 g 0 (.of_exec ⟨0, rfl⟩ hg) hgf⟩

end Cspcl.Receive
