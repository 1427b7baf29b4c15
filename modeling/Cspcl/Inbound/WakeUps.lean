import Cspcl.Inbound.Accept
import Cspcl.Inbound.Listeners
import Cspcl.Lib.Condvar

/-!
# The receiver's condition variables

Who waits on `changed` (in `subscribe`, `pause_while_receiving` and `wait_while_stopped`) and on
`slot_freed` (in `wait_for_slot`), and which critical sections notify them: `wakeSys` runs the
streams (`streamSys`), the body of `accept_loop` with `spawn_listener`, and the listeners, one
step for each critical section, so the mutexes are free between the steps. A thread that waits may
wake up at any time; it then looks at its condition again.

* `WakeInv`: the threads that wait are where they wait, and no wake-up is lost (`NoLost`).
* `no_lost_wake_up`: what that gives in every reachable state. `accept_failed` and the drop of
  `AcceptGuard` stop receiving without a notification: no accept thread is in its backoff then.
-/

namespace Cspcl.Inbound

open Condvar

/-- `STOP_GRACE`, in the unit of `Instant` (nanoseconds). -/
def stopGrace : Nat := 1000000000

/-- Where an accept thread is in the body of its loop. -/
inductive LoopPc where
  | out
  /-- In `wait_for_slot`. -/
  | slot
  | polling
  /-- `poll_connection` returned a connection from the address and port. -/
  | accepted (key : UInt8 × UInt8)
  | registered (c : Nat)
  /-- The listener thread was started. -/
  | started (c : Nat)
  /-- The listener thread could not be started: its task is being dropped. -/
  | failed (c : Nat)
  | erred (e : Error)
  /-- In `pause_while_receiving`. -/
  | backoff
  deriving DecidableEq, Repr

/-- A receiver with its waiting threads: callers of `subscribe`, accept threads (by the id in `Op`)
in their backoff and for a slot, and listeners. `conns`: the listeners so far. -/
structure WakeWorld where
  w : World
  table : ListenerTable
  conns : Nat
  loop : Nat → LoopPc
  subscribing : Nat → Wait
  backoff : Nat → Wait
  stopped : Nat → Wait
  slot : Nat → Wait

/-- A step. A thread that waits takes the step of its wait again when it wakes up. -/
inductive WakeOp where
  | stream (now : Nat) (op : Op)
  /-- `k`: the caller. -/
  | subscribe (k now : Nat)
  | unsubscribe (id now : Nat)
  | beginClose (now : Nat)
  | closeGuardDrop
  | decide (id : Nat)
  | waitForSlot (id : Nat) (timedOut : Bool)
  | pollConnection (id : Nat) (r : Except Error (UInt8 × UInt8))
  | register (id nowMs : Nat)
  | spawnListener (id : Nat) (ok : Bool)
  | supersede (id : Nat)
  /-- The task of a listener that was not started is dropped. -/
  | dropTask (id : Nat)
  | deliverError (id : Nat)
  | pauseWhileReceiving (id : Nat) (timedOut : Bool)
  | panic (id now : Nat)
  /-- `c`: the listener. -/
  | waitWhileStopped (c now : Nat)
  | listenerExit (c : Nat)

namespace WakeWorld

/-- A new receiver. -/
def new (now : Nat) : WakeWorld where
  w := .new now
  table := ⟨[], fun _ => .new (0, 0) 0⟩
  conns := 0
  loop _ := .out
  subscribing _ := .out
  backoff _ := .out
  stopped _ := .out
  slot _ := .out

/-- `changed.notify_all()`, if `b`. -/
def notifyChanged (s : WakeWorld) (b : Bool) : WakeWorld :=
  { s with
    subscribing := notifyIf b s.subscribing
    backoff := notifyIf b s.backoff
    stopped := notifyIf b s.stopped }

/-- A step of the streams. -/
def run (s : WakeWorld) (now : Nat) (op : Op) : Option WakeWorld :=
  (s.w.step (now, op)).map fun w => { s with w }

def setLoop (s : WakeWorld) (id : Nat) (pc : LoopPc) : WakeWorld :=
  { s with loop := Function.update s.loop id pc }

theorem loop_setLoop (s : WakeWorld) (id i : Nat) (pc : LoopPc) :
    (s.setLoop id pc).loop i = if i = id then pc else s.loop i := by
  simp [setLoop, Function.update_apply]

/-- The end of the loop's body. -/
def endBody (s : WakeWorld) (id : Nat) : Option WakeWorld :=
  (s.w.step (0, .iterate id none)).map fun w =>
    { s.setLoop id .out with
      w
      backoff := Function.update s.backoff id .out
      slot := Function.update s.slot id .out }

/-- `RunningGuard::drop`. -/
def dropRunningGuard (s : WakeWorld) (c : Nat) : WakeWorld :=
  { s with
    table := { s.table with
      state := Function.update s.table.state c { s.table.state c with running := false } }
    slot := notifyAll s.slot }

/-- The steps of the streams that neither notify nor belong to the body of the loop. -/
def plain : Op → Bool
  | .deliver _ | .spawned _ | .spawnFailed _ | .acceptFailed _ | .sendSpawnError _ | .pollNext _ =>
    true
  | _ => false

def step (s : WakeWorld) : WakeOp → Option WakeWorld
  | .stream now op => if plain op then s.run now op else none
  | .subscribe k now =>
    if s.w.recv.closing > 0 then
      some { s with subscribing := Function.update s.subscribing k (.waiting false) }
    else
      (s.w.step (now, .subscribe)).map fun w =>
        notifyChanged { s with w, subscribing := Function.update s.subscribing k .out }
          (!s.w.recv.isReceiving)
  | .unsubscribe id now =>
    (s.w.step (now, .unsubscribe id)).map fun w =>
      notifyChanged { s with w } (w.recv.subscribers.isEmpty && s.w.recv.isReceiving)
  | .beginClose now =>
    (s.w.step (now, .beginClose)).map fun w => notifyChanged { s with w } true
  | .closeGuardDrop =>
    (s.w.step (0, .closeGuardDrop)).map fun w => notifyChanged { s with w } (w.recv.closing == 0)
  | .decide id =>
    (s.w.step (0, .decide id)).map fun w =>
      { s.setLoop id (if s.w.recv.isReceiving then .slot else .out) with w }
  | .waitForSlot id timedOut =>
    if s.loop id = .slot then
      let (may, table) := s.table.mayAccept
      if may then
        some { s.setLoop id .polling with table, slot := Function.update s.slot id .out }
      else if timedOut then endBody { s with table } id
      else some { s with table, slot := Function.update s.slot id (.waiting false) }
    else none
  | .pollConnection id r =>
    if s.loop id = .polling then
      match r with
      | .ok key => some (s.setLoop id (.accepted key))
      | .error .timeout => s.endBody id
      | .error e => some (s.setLoop id (.erred e))
    else none
  | .register id nowMs =>
    match s.loop id with
    | .accepted key =>
      some { s.setLoop id (.registered s.conns) with
        table := s.table.register s.conns (.new key nowMs), conns := s.conns + 1 }
    | _ => none
  | .spawnListener id ok =>
    match s.loop id with
    | .registered c => some (s.setLoop id (if ok then .started c else .failed c))
    | _ => none
  | .supersede id =>
    match s.loop id with
    | .started c => endBody { s with table := s.table.supersede c } id
    | _ => none
  | .dropTask id =>
    match s.loop id with
    | .failed c => some ((s.dropRunningGuard c).setLoop id (.erred .spawn))
    | _ => none
  | .deliverError id =>
    match s.loop id with
    | .erred e => (s.setLoop id .backoff).run 0 (.deliver (.error e))
    | _ => none
  | .pauseWhileReceiving id timedOut =>
    if s.loop id = .backoff then
      if s.w.recv.isReceiving && !timedOut then
        some { s with backoff := Function.update s.backoff id (.waiting false) }
      else s.endBody id
    else none
  | .panic id now =>
    if s.slot id = .out ∧ s.backoff id = .out then
      (s.w.step (now, .panic id)).map fun w => { s.setLoop id .out with w }
    else none
  | .waitWhileStopped c now =>
    if c < s.conns ∧ (s.table.state c).running then
      match s.w.recv.stoppedAt with
      | none => some { s with stopped := Function.update s.stopped c .out }
      | some stoppedAt =>
        -- Once the grace is over, the listener leaves its loop.
        let w := if stopGrace ≤ now - stoppedAt then .out else .waiting false
        some { s with stopped := Function.update s.stopped c w }
    else none
  | .listenerExit c =>
    if c < s.conns ∧ (s.table.state c).running ∧ s.stopped c = .out then
      some (s.dropRunningGuard c)
    else none

end WakeWorld

/-- All interleavings, from a new receiver. -/
def wakeSys : Lts WakeWorld WakeOp where
  init s := ∃ now, s = .new now
  step := WakeWorld.step

/-! ## The streams and the table -/

section

variable {w w' : World} {now id : Nat} {op : Op} {t : ListenerTable}

/-- An accept thread stays in its loop's body until it ends it or panics. -/
theorem World.step_busy (hst : StreamsInv w) (hs : w.step (now, op) = some w') {i : Nat}
    (hi : w.thread i = .busy) (hit : ∀ e, op ≠ .iterate i e) (hp : op ≠ .panic i) :
    w'.thread i = .busy := by
  have hup : ∀ {id : Nat} {a : Accept}, id ≠ i → Function.update w.thread id a i = .busy :=
    fun hne => by rw [Function.update_of_ne (Ne.symm hne), hi]
  cases op with
  | deliver item =>
    obtain rfl := Option.some.inj hs
    cases item <;> exact hi
  | subscribe =>
    simp only [World.step, Receiver.subscribe_spec] at hs
    split at hs
    · cases hs
    · obtain rfl := Option.some.inj hs
      -- The new stream's thread was idle.
      have hidle := hst.idle _ ((hst.unopened_iff w.recv.nextId).mpr (Nat.le_refl _))
      have hne : w.recv.nextId ≠ i := by rintro rfl; simp [hidle] at hi
      dsimp only
      split
      · exact hup hne
      · exact hi
  | spawned id | spawnFailed id | acceptFailed id | sendSpawnError id | decide id =>
    simp only [World.step] at hs
    split at hs
    · rename_i ht
      obtain rfl := Option.some.inj hs
      exact hup (by rintro rfl; simp [ht] at hi)
    · cases hs
  | pollNext id =>
    obtain ⟨-, ⟨item, rest, -, rfl⟩ | ⟨-, rfl⟩⟩ := World.pollNext_cases hs <;> exact hi
  | unsubscribe id | closeGuardDrop =>
    simp only [World.step] at hs
    split at hs
    · obtain rfl := Option.some.inj hs
      exact hi
    · cases hs
  | beginClose => obtain rfl := Option.some.inj hs; exact hi
  | iterate id failure =>
    have hne : id ≠ i := by rintro rfl; exact hit failure rfl
    simp only [World.step] at hs
    split at hs
    · split at hs <;> obtain rfl := Option.some.inj hs <;> exact hup hne
    · cases hs
  | panic id =>
    have hne : id ≠ i := by rintro rfl; exact hp rfl
    simp only [World.step] at hs
    split at hs
    · obtain rfl := Option.some.inj hs
      exact hup hne
    · cases hs

namespace ListenerTable

theorem live_evict {ids : List Nat} : (t.evict ids).live = t.live := by
  simp [live, evict_listeners]

/-- `supersede` only marks connections: each counts until its listener has finished. -/
theorem live_supersede : (t.supersede id).live = t.live := by
  unfold supersede
  split
  · rfl
  · dsimp only
    split
    · unfold evictLeastRecentExcept
      rw [live_evict, live_openCount, live_evict]
    · rw [live_openCount, live_evict]

theorem mayAccept_eq_false :
    t.mayAccept.1 = false ↔ maxInboundConns + maxExtraInboundConns ≤ t.live.length := by
  rw [← fst_openCount, ← Nat.not_lt, ← decide_eq_false_iff_not]
  rfl

theorem live_mayAccept : t.mayAccept.2.live = t.live := live_openCount

/-- A registered listener makes no room. -/
theorem length_live_register {l : Listener} (hl : l.running = true) :
    t.live.length ≤ (t.register id l).live.length := by
  unfold live register
  dsimp only
  rw [List.filter_append, List.length_append]
  refine Nat.le_trans ?_ (Nat.le_add_right _ _)
  rw [← List.countP_eq_length_filter, ← List.countP_eq_length_filter]
  refine List.countP_mono_left fun i _ hi => ?_
  by_cases h : i = id
  · subst h; simpa using hl
  · simpa [h] using hi

end ListenerTable

end

/-! ## The invariant -/

/-- The threads that wait are where they wait, and no wake-up is lost. -/
structure WakeInv (s : WakeWorld) : Prop where
  streams : StreamsInv s.w
  threads : AcceptInv s.w
  busy : ∀ id, s.loop id ≠ .out → s.w.thread id = .busy
  slot_loop : ∀ id, s.slot id ≠ .out → s.loop id = .slot
  backoff_loop : ∀ id, s.backoff id ≠ .out → s.loop id = .backoff
  subscribing : NoLost (0 < s.w.recv.closing) s.subscribing
  backoff : NoLost (s.w.recv.isReceiving = true) s.backoff
  stopped : NoLost (s.w.recv.isReceiving = false) s.stopped
  slot : NoLost (s.table.mayAccept.1 = false) s.slot

variable {s s' : WakeWorld} {op : WakeOp} {now id : Nat}

namespace WakeInv

/-- A step of the streams with the notifications of its section. -/
theorem run {w : World} {sop : Op} {b : Bool} {loop : Nat → LoopPc} (h : WakeInv s)
    (hs : s.w.step (now, sop) = some w)
    (hclosing : b = false → 0 < s.w.recv.closing → 0 < w.recv.closing)
    (hon : (∀ i, s.backoff i = .out) ∨
      (b = false → s.w.recv.isReceiving = true → w.recv.isReceiving = true))
    (hoff : b = false → s.w.recv.isReceiving = false → w.recv.isReceiving = false)
    (hbusy : ∀ i, loop i ≠ .out → w.thread i = .busy)
    (hslot : ∀ i, s.slot i ≠ .out → loop i = .slot)
    (hback : ∀ i, s.backoff i ≠ .out → loop i = .backoff) :
    WakeInv (WakeWorld.notifyChanged { s with w, loop } b) where
  streams := h.streams.step hs
  threads := h.threads.step h.streams hs
  busy := hbusy
  slot_loop := hslot
  backoff_loop i hi := hback i fun ho => hi (notifyIf_eq_out.mpr ho)
  subscribing := h.subscribing.notifyIf hclosing
  backoff := by
    rcases hon with hout | hon
    · exact NoLost.of_out fun i => notifyIf_eq_out.mpr (hout i)
    · exact h.backoff.notifyIf hon
  stopped := h.stopped.notifyIf hoff
  slot := h.slot

/-- A plain step of the streams: if it stops receiving, no accept thread is in its backoff. -/
theorem runPlain {w : World} {sop : Op} {loop : Nat → LoopPc} (h : WakeInv s)
    (hs : s.w.step (now, sop) = some w) (hsub : sop ≠ .subscribe) (hg : sop ≠ .closeGuardDrop)
    (hon : (∀ i, s.backoff i = .out) ∨ sop.stops = false)
    (hbusy : ∀ i, loop i ≠ .out → w.thread i = .busy)
    (hslot : ∀ i, s.slot i ≠ .out → loop i = .slot)
    (hback : ∀ i, s.backoff i ≠ .out → loop i = .backoff) : WakeInv { s with w, loop } := by
  obtain ⟨hc, hoff, hstay⟩ := World.step_flags h.streams hs
  refine h.run (b := false) hs (fun _ hpos => ?_) (hon.imp_right fun hst _ => hstay hst)
    (fun _ => hoff hsub) hbusy hslot hback
  rw [hc]
  cases sop <;> first | exact hpos | exact absurd rfl hg | exact Nat.succ_pos _

theorem leaveSlot (h : WakeInv s) (id : Nat) :
    WakeInv { s with slot := Function.update s.slot id .out } where
  streams := h.streams
  threads := h.threads
  busy := h.busy
  slot_loop i hi := h.slot_loop i (by grind)
  backoff_loop := h.backoff_loop
  subscribing := h.subscribing
  backoff := h.backoff
  stopped := h.stopped
  slot := h.slot.leave

theorem leaveBackoff (h : WakeInv s) (id : Nat) :
    WakeInv { s with backoff := Function.update s.backoff id .out } where
  streams := h.streams
  threads := h.threads
  busy := h.busy
  slot_loop := h.slot_loop
  backoff_loop i hi := h.backoff_loop i (by grind)
  subscribing := h.subscribing
  backoff := h.backoff.leave
  stopped := h.stopped
  slot := h.slot

/-- The table changes and makes no room. -/
theorem setTable {t : ListenerTable} (h : WakeInv s)
    (ht : s.table.live.length ≤ t.live.length) : WakeInv { s with table := t } where
  streams := h.streams
  threads := h.threads
  busy := h.busy
  slot_loop := h.slot_loop
  backoff_loop := h.backoff_loop
  subscribing := h.subscribing
  backoff := h.backoff
  stopped := h.stopped
  slot := h.slot.mono fun hf => by
    rw [ListenerTable.mayAccept_eq_false] at hf ⊢
    exact Nat.le_trans hf ht

/-- An accept thread goes on in its loop's body. -/
theorem setLoop {p : LoopPc} (h : WakeInv s) (hp : s.loop id ≠ .out)
    (hs : s.slot id = .out) (hb : s.backoff id = .out) : WakeInv (s.setLoop id p) where
  streams := h.streams
  threads := h.threads
  busy i hi := h.busy i (by grind [WakeWorld.loop_setLoop])
  slot_loop i hi := by
    have hne : i ≠ id := by rintro rfl; exact hi hs
    rw [WakeWorld.loop_setLoop, if_neg hne]
    exact h.slot_loop i hi
  backoff_loop i hi := by
    have hne : i ≠ id := by rintro rfl; exact hi hb
    rw [WakeWorld.loop_setLoop, if_neg hne]
    exact h.backoff_loop i hi
  subscribing := h.subscribing
  backoff := h.backoff
  stopped := h.stopped
  slot := h.slot

/-- A thread that is elsewhere in the body does not wait. -/
theorem outOf (h : WakeInv s) (id : Nat) (hs : s.loop id ≠ .slot) (hb : s.loop id ≠ .backoff) :
    s.slot id = .out ∧ s.backoff id = .out :=
  ⟨by_contra fun hne => hs (h.slot_loop id hne), by_contra fun hne => hb (h.backoff_loop id hne)⟩

theorem endBody (h : WakeInv s) (hs : s.endBody id = some s') : WakeInv s' := by
  obtain ⟨w, hw, rfl⟩ := Option.map_eq_some_iff.mp hs
  have h₁ := (h.leaveBackoff id).leaveSlot id
  refine h₁.runPlain hw (by simp) (by simp) (.inr rfl) (fun i hi => ?_) (fun i hi => ?_)
    fun i hi => ?_
  · have hne : i ≠ id := by rintro rfl; simp [WakeWorld.setLoop] at hi
    refine World.step_busy h.streams hw (h.busy i ?_) (by grind) (by simp)
    simpa [WakeWorld.setLoop, hne] using hi
  · have hne : i ≠ id := by rintro rfl; simp at hi
    simpa [WakeWorld.setLoop, hne] using h₁.slot_loop i hi
  · have hne : i ≠ id := by rintro rfl; simp at hi
    simpa [WakeWorld.setLoop, hne] using h₁.backoff_loop i hi

/-- A finished listener makes room and wakes the threads that wait for it. -/
theorem dropRunningGuard (h : WakeInv s) (c : Nat) : WakeInv (s.dropRunningGuard c) where
  streams := h.streams
  threads := h.threads
  busy := h.busy
  slot_loop i hi := by
    apply h.slot_loop i
    intro ho
    apply hi
    simp [WakeWorld.dropRunningGuard, notifyAll, ho, Wait.notify]
  backoff_loop := h.backoff_loop
  subscribing := h.subscribing
  backoff := h.backoff
  stopped := h.stopped
  slot := NoLost.notifyAll

/-- While no accept thread runs, none is in its backoff. -/
theorem no_backoff (h : WakeInv s) (hb : ∀ i, s.w.thread i ≠ .busy) (i : Nat) :
    s.loop i = .out ∧ s.backoff i = .out := by
  have hl : s.loop i = .out := by
    by_contra hne
    exact hb i (h.busy i hne)
  refine ⟨hl, ?_⟩
  by_contra hne
  have := h.backoff_loop i hne
  rw [hl] at this
  cases this

/-- `accept_failed` runs for a thread that did not start: no other one runs. -/
theorem acceptFailed_no_backoff {w : World} (h : WakeInv s)
    (hs : s.w.step (now, .acceptFailed id) = some w) (i : Nat) :
    s.loop i = .out ∧ s.backoff i = .out := by
  refine h.no_backoff (fun j hj => ?_) i
  simp only [World.step] at hs
  split at hs
  · rename_i ht
    have := h.threads.unique j id (by rw [hj]; rfl) (by rw [ht]; rfl)
    subst this
    rw [hj] at ht
    cases ht
  · cases hs

/-- A panicking accept thread is the only one. -/
theorem panic_no_backoff {w : World} (h : WakeInv s) (hs : s.w.step (now, .panic id) = some w)
    (hid : s.backoff id = .out) (i : Nat) :
    (i ≠ id → s.loop i = .out) ∧ s.backoff i = .out := by
  have hout : i ≠ id → s.loop i = .out := fun hne => by
    by_contra hl
    simp only [World.step] at hs
    split at hs
    · rename_i ht
      exact hne (h.threads.unique i id (by rw [h.busy i hl]; rfl) (by simp [Accept.active, ht]))
    · cases hs
  refine ⟨hout, ?_⟩
  by_cases hi : i = id
  · rw [hi, hid]
  · by_contra hne
    have := h.backoff_loop i hne
    rw [hout hi] at this
    cases this

/-- The sections of `changed`, which notify if they make a wait condition false. -/
theorem stepChanged {sop : Op} {w : World} (h : WakeInv s) (hs : s.w.step (now, sop) = some w)
    (hop : sop = .subscribe ∨ (∃ id, sop = .unsubscribe id) ∨ sop = .beginClose ∨
      sop = .closeGuardDrop) {b : Bool}
    (hb : b = false → (0 < s.w.recv.closing → 0 < w.recv.closing) ∧
      w.recv.isReceiving = s.w.recv.isReceiving) :
    WakeInv (WakeWorld.notifyChanged { s with w } b) := by
  refine h.run hs (fun hf => (hb hf).1) (.inr fun hf hr => (hb hf).2.trans hr)
    (fun hf hr => (hb hf).2.trans hr) (fun i hi => ?_) h.slot_loop h.backoff_loop
  refine World.step_busy h.streams hs (h.busy i hi) (fun e => ?_) ?_
  all_goals rcases hop with rfl | ⟨id, rfl⟩ | rfl | rfl <;> simp

/-- A plain step: among these, only `accept_failed` stops receiving. -/
theorem stream {sop : Op} (h : WakeInv s) (hs : s.step (.stream now sop) = some s') :
    WakeInv s' := by
  simp only [WakeWorld.step] at hs
  split at hs
  · rename_i hplain
    obtain ⟨w, hw, rfl⟩ := Option.map_eq_some_iff.mp hs
    refine h.runPlain hw (by rintro rfl; cases hplain) (by rintro rfl; cases hplain) ?_
      (fun i hi => World.step_busy h.streams hw (h.busy i hi)
        (by rintro e rfl; cases hplain) (by rintro rfl; cases hplain)) h.slot_loop h.backoff_loop
    by_cases hst : sop.stops = true
    · left
      cases sop <;> simp [Op.stops, WakeWorld.plain] at hst hplain
      exact fun i => (h.acceptFailed_no_backoff hw i).2
    · exact .inr (by simpa using hst)
  · cases hs

theorem subscribe {k : Nat} (h : WakeInv s) (hs : s.step (.subscribe k now) = some s') :
    WakeInv s' := by
  simp only [WakeWorld.step] at hs
  split at hs
  · rename_i hpos
    obtain rfl := Option.some.inj hs
    exact ⟨h.streams, h.threads, h.busy, h.slot_loop, h.backoff_loop,
      h.subscribing.wait hpos _, h.backoff, h.stopped, h.slot⟩
  · rename_i hpos
    obtain ⟨w, hw, rfl⟩ := Option.map_eq_some_iff.mp hs
    have h₁ : WakeInv { s with subscribing := Function.update s.subscribing k .out } :=
      ⟨h.streams, h.threads, h.busy, h.slot_loop, h.backoff_loop, h.subscribing.leave, h.backoff,
        h.stopped, h.slot⟩
    refine h₁.stepChanged hw (.inl rfl) fun hf => ⟨fun hp => absurd hp hpos, ?_⟩
    have hon : s.w.recv.isReceiving = true := by simpa using hf
    exact ((World.step_flags h.streams hw).2.2 rfl hon).trans hon.symm

theorem unsubscribe (h : WakeInv s) (hs : s.step (.unsubscribe id now) = some s') :
    WakeInv s' := by
  simp only [WakeWorld.step] at hs
  obtain ⟨w, hw, rfl⟩ := Option.map_eq_some_iff.mp hs
  refine h.stepChanged hw (.inr (.inl ⟨id, rfl⟩)) fun hf => ?_
  obtain ⟨hc, hoff, -⟩ := World.step_flags h.streams hw
  refine ⟨fun hp => hc ▸ hp, ?_⟩
  cases hr : s.w.recv.isReceiving with
  | false => exact hoff (by simp) hr
  | true =>
    -- Another stream is open.
    rw [hr, Bool.and_true, List.isEmpty_eq_false_iff] at hf
    exact ((h.threads.step h.streams hw).receiving_iff).mpr hf

theorem closeGuardDrop (h : WakeInv s) (hs : s.step .closeGuardDrop = some s') : WakeInv s' := by
  simp only [WakeWorld.step] at hs
  obtain ⟨w, hw, rfl⟩ := Option.map_eq_some_iff.mp hs
  refine h.stepChanged hw (.inr (.inr (.inr rfl))) fun hf => ⟨fun _ => ?_, ?_⟩
  · simp only [beq_eq_false_iff_ne] at hf
    omega
  · simp only [World.step] at hw
    split at hw
    · obtain rfl := Option.some.inj hw
      rfl
    · cases hw

theorem step (h : WakeInv s) (hs : s.step op = some s') : WakeInv s' := by
  cases op with
  | stream now sop => exact h.stream hs
  | subscribe k now => exact h.subscribe hs
  | unsubscribe id now => exact h.unsubscribe hs
  | beginClose now =>
    simp only [WakeWorld.step] at hs
    obtain ⟨w, hw, rfl⟩ := Option.map_eq_some_iff.mp hs
    exact h.stepChanged hw (.inr (.inr (.inl rfl))) fun hf => by cases hf
  | closeGuardDrop => exact h.closeGuardDrop hs
  | decide id =>
    obtain ⟨w, hw, rfl⟩ := Option.map_eq_some_iff.mp hs
    -- The thread was at the top of its loop, so it did not wait.
    have htop : s.loop id = .out := by
      by_contra hne
      have hb := h.busy id hne
      simp [World.step, hb] at hw
    have hne : ∀ i, s.loop i ≠ .out → i ≠ id := by rintro i hi rfl; exact hi htop
    refine h.runPlain hw (by simp) (by simp) (.inr rfl) (fun i hi => ?_) (fun i hi => ?_)
      fun i hi => ?_
    · by_cases hid : i = id
      · subst hid
        simp only [World.step] at hw
        split at hw
        · obtain rfl := Option.some.inj hw
          cases hr : s.w.recv.isReceiving
          · simp [WakeWorld.setLoop, hr] at hi
          · simp [World.setThread, Receiver.decideAccept, hr]
        · cases hw
      · refine World.step_busy h.streams hw (h.busy i ?_) (by simp) (by simp)
        simpa [WakeWorld.setLoop, hid] using hi
    · have hl := h.slot_loop i hi
      have := hne i (by rw [hl]; decide)
      simpa [WakeWorld.setLoop, this] using hl
    · have hl := h.backoff_loop i hi
      have := hne i (by rw [hl]; decide)
      simpa [WakeWorld.setLoop, this] using hl
  | waitForSlot id timedOut =>
    simp only [WakeWorld.step] at hs
    split at hs
    · rename_i hl
      have ht : WakeInv { s with table := s.table.mayAccept.2 } :=
        h.setTable (by rw [ListenerTable.live_mayAccept])
      split at hs
      · obtain rfl := Option.some.inj hs
        have hb : s.backoff id = .out := by
          by_contra hne
          have := h.backoff_loop id hne
          rw [hl] at this
          cases this
        exact (ht.leaveSlot id).setLoop (by simp [hl]) (by simp) hb
      · rename_i hmay
        split at hs
        · exact ht.endBody hs
        · obtain rfl := Option.some.inj hs
          have hfull : s.table.mayAccept.2.mayAccept.1 = false := by
            rw [ListenerTable.mayAccept_eq_false, ListenerTable.live_mayAccept,
              ← ListenerTable.mayAccept_eq_false]
            simpa using hmay
          refine ⟨ht.streams, ht.threads, ht.busy, fun i hi => ?_, ht.backoff_loop, ht.subscribing,
            ht.backoff, ht.stopped, ht.slot.wait hfull _⟩
          by_cases hid : i = id
          · rw [hid, hl]
          · exact h.slot_loop i (by simpa [hid] using hi)
    · cases hs
  | pollConnection id r =>
    simp only [WakeWorld.step] at hs
    split at hs
    · rename_i hl
      obtain ⟨hsl, hb⟩ := h.outOf id (by simp [hl]) (by simp [hl])
      split at hs
      · obtain rfl := Option.some.inj hs
        exact h.setLoop (by simp [hl]) hsl hb
      · exact h.endBody hs
      · obtain rfl := Option.some.inj hs
        exact h.setLoop (by simp [hl]) hsl hb
    · cases hs
  | register id nowMs =>
    simp only [WakeWorld.step] at hs
    split at hs
    · rename_i key hl
      obtain ⟨hsl, hb⟩ := h.outOf id (by simp [hl]) (by simp [hl])
      obtain rfl := Option.some.inj hs
      have := (h.setTable (t := s.table.register s.conns (.new key nowMs))
        (ListenerTable.length_live_register rfl)).setLoop (p := .registered s.conns)
          (by simp [hl]) hsl hb
      exact ⟨this.streams, this.threads, this.busy, this.slot_loop, this.backoff_loop,
        this.subscribing, this.backoff, this.stopped, this.slot⟩
    · cases hs
  | spawnListener id ok =>
    simp only [WakeWorld.step] at hs
    split at hs
    · rename_i c hl
      obtain ⟨hsl, hb⟩ := h.outOf id (by simp [hl]) (by simp [hl])
      obtain rfl := Option.some.inj hs
      exact h.setLoop (by simp [hl]) hsl hb
    · cases hs
  | supersede id =>
    simp only [WakeWorld.step] at hs
    split at hs
    · exact (h.setTable (by rw [ListenerTable.live_supersede])).endBody hs
    · cases hs
  | dropTask id =>
    simp only [WakeWorld.step] at hs
    split at hs
    · rename_i c hl
      obtain ⟨hsl, hb⟩ := h.outOf id (by simp [hl]) (by simp [hl])
      obtain rfl := Option.some.inj hs
      refine (h.dropRunningGuard c).setLoop (by simp [WakeWorld.dropRunningGuard, hl]) ?_ hb
      simp [WakeWorld.dropRunningGuard, notifyAll, hsl, Wait.notify]
    · cases hs
  | deliverError id =>
    simp only [WakeWorld.step] at hs
    split at hs
    · rename_i e hl
      obtain ⟨hsl, hb⟩ := h.outOf id (by simp [hl]) (by simp [hl])
      obtain ⟨w, hw, rfl⟩ := Option.map_eq_some_iff.mp hs
      have h₁ := h.setLoop (p := .backoff) (by simp [hl]) hsl hb
      exact h₁.runPlain hw (by simp) (by simp) (.inr rfl)
        (fun i hi => World.step_busy h.streams hw (h₁.busy i hi) (by simp) (by simp))
        h₁.slot_loop h₁.backoff_loop
    · cases hs
  | pauseWhileReceiving id timedOut =>
    simp only [WakeWorld.step] at hs
    split at hs
    · rename_i hl
      split at hs
      · rename_i hon
        obtain rfl := Option.some.inj hs
        simp only [Bool.and_eq_true] at hon
        refine ⟨h.streams, h.threads, h.busy, h.slot_loop, fun i hi => ?_, h.subscribing,
          h.backoff.wait hon.1 _, h.stopped, h.slot⟩
        by_cases hid : i = id
        · rw [hid, hl]
        · exact h.backoff_loop i (by simpa [hid] using hi)
      · exact h.endBody hs
    · cases hs
  | panic id now =>
    simp only [WakeWorld.step] at hs
    split at hs
    · rename_i hout
      obtain ⟨w, hw, rfl⟩ := Option.map_eq_some_iff.mp hs
      have hno := h.panic_no_backoff hw hout.2
      refine h.runPlain hw (by simp) (by simp) (.inl fun i => (hno i).2) (fun i hi => ?_)
        (fun i hi => ?_) fun i hi => absurd (hno i).2 hi
      · by_cases hid : i = id
        · simp [WakeWorld.setLoop, hid] at hi
        · simp [WakeWorld.setLoop, hid, (hno i).1 hid] at hi
      · have hid : i ≠ id := by rintro rfl; exact hi hout.1
        have hl := h.slot_loop i hi
        rw [(hno i).1 hid] at hl
        cases hl
    · cases hs
  | waitWhileStopped c now =>
    simp only [WakeWorld.step] at hs
    split at hs
    · split at hs
      · obtain rfl := Option.some.inj hs
        exact ⟨h.streams, h.threads, h.busy, h.slot_loop, h.backoff_loop, h.subscribing, h.backoff,
          h.stopped.leave, h.slot⟩
      · rename_i stoppedAt hst
        obtain rfl := Option.some.inj hs
        exact ⟨h.streams, h.threads, h.busy, h.slot_loop, h.backoff_loop, h.subscribing, h.backoff,
          h.stopped.wait (by simp [Receiver.isReceiving, hst]) _, h.slot⟩
    · cases hs
  | listenerExit c =>
    simp only [WakeWorld.step] at hs
    split at hs
    · obtain rfl := Option.some.inj hs
      exact h.dropRunningGuard c
    · cases hs

end WakeInv

theorem wakeSys_inv : wakeSys.Inductive WakeInv where
  init s hs := by
    obtain ⟨now, rfl⟩ := hs
    have h := acceptInv_inductive.init (.new now) ⟨now, rfl⟩
    refine ⟨h.1, h.2, ?_, ?_, ?_, noLost_out, noLost_out, noLost_out, noLost_out⟩ <;>
      simp [WakeWorld.new]
  step _ _ _ h hs := h.step hs

/-- No wake-up is lost: a thread that waits without having been notified has to wait. -/
structure NoLostWakeUp (s : WakeWorld) : Prop where
  subscribe : ∀ k, s.subscribing k = .waiting false → 0 < s.w.recv.closing
  pause_while_receiving : ∀ id, s.backoff id = .waiting false → s.w.recv.isReceiving = true
  wait_while_stopped : ∀ c, s.stopped c = .waiting false → s.w.recv.isReceiving = false
  wait_for_slot : ∀ id, s.slot id = .waiting false → s.table.mayAccept.1 = false
  /-- `accept_failed` does not notify. -/
  accept_failed : ∀ now id s', s.step (.stream now (.acceptFailed id)) = some s' →
    ∀ i, s'.loop i ≠ .backoff ∧ s'.backoff i = .out
  /-- The drop of `AcceptGuard` does not notify. -/
  accept_guard : ∀ now id s', s.step (.panic id now) = some s' →
    ∀ i, s'.loop i ≠ .backoff ∧ s'.backoff i = .out

/-- In every reachable state. -/
theorem no_lost_wake_up (hs : wakeSys.Reach s) : NoLostWakeUp s := by
  have h := wakeSys_inv.reach hs
  refine ⟨h.subscribing, h.backoff, h.stopped, h.slot, fun now id s' hst i => ?_,
    fun now id s' hst i => ?_⟩
  · obtain ⟨w, hw, rfl⟩ := Option.map_eq_some_iff.mp hst
    have hno := h.acceptFailed_no_backoff hw i
    exact ⟨by simp [hno.1], hno.2⟩
  · simp only [WakeWorld.step] at hst
    split at hst
    · rename_i hout
      obtain ⟨w, hw, rfl⟩ := Option.map_eq_some_iff.mp hst
      have hno := h.panic_no_backoff hw hout.2 i
      refine ⟨?_, hno.2⟩
      by_cases hid : i = id
      · simp [WakeWorld.setLoop, hid]
      · simp [WakeWorld.setLoop, hid, hno.1 hid]
    · cases hst

/-- The accept thread is in its backoff when a close begins, and a caller waits for the close. -/
def backoffRun : List WakeOp :=
  [.subscribe 0 0, .stream 0 (.spawned 0), .decide 0, .waitForSlot 0 false,
    .pollConnection 0 (.error .cspRecv), .deliverError 0, .pauseWhileReceiving 0 false,
    .beginClose 1, .subscribe 1 2]

theorem no_lost_wake_up_backoff : ∃ s, wakeSys.exec (.new 0) backoffRun = some s ∧
    s.backoff 0 = .waiting true ∧ s.subscribing 1 = .waiting false ∧ NoLostWakeUp s := by
  obtain ⟨s, hs⟩ : ∃ s, wakeSys.exec (.new 0) backoffRun = some s := ⟨_, rfl⟩
  have hf : (wakeSys.exec (.new 0) backoffRun).map (fun s => (s.backoff 0, s.subscribing 1)) =
      some (.waiting true, .waiting false) := by decide +kernel
  rw [hs, Option.map_some, Option.some.injEq, Prod.mk.injEq] at hf
  exact ⟨s, hs, hf.1, hf.2, no_lost_wake_up (.of_exec ⟨0, rfl⟩ hs)⟩

end Cspcl.Inbound
