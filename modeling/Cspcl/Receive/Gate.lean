import Cspcl.Inbound.Accept
import Cspcl.Inbound.Frame

/-!
# The lock around opening and closing

`CspclLink` (`rust-bindings/picod3tn-cspcl/src/link.rs`) and `Transport`
(`rust-bindings/hardy-cspcl/src/transport.rs`) both keep a mutex `closed`. A thread of its own opens
an inbound stream under it, unless the flag in it is set, and hands the stream over to its
requester, who may have gone meanwhile; `CspclLink::shutdown` and `Transport::cleanup` set the flag
and close the receive socket under it.

* `Gate`: the streams of the `Cspcl`, the mutex, the threads that open and the calls that close.
  `gateSys` is `Transport`, and the part of `CspclLink` that it shares with it.
* `GateInv`: who has the mutex, and whose stream is whose.
-/

namespace Cspcl.Receive

open Inbound

/-- Where a thread is that opens a stream. -/
inductive OpenPc where
  | idle
  | started
  /-- It has the mutex. -/
  | locked
  /-- It is in `Cspcl::inbound`, which opened the stream `id`. -/
  | subscribed (id : Nat)
  /-- It has answered and is about to drop the mutex. -/
  | leaving
  | done
  deriving DecidableEq, Repr

def OpenPc.holds : OpenPc → Bool
  | locked | subscribed _ | leaving => true
  | _ => false

/-- What the requester gets. -/
inductive OpenAnswer where
  | stream
  | closed
  /-- The thread panicked. -/
  | failed
  deriving DecidableEq, Repr

/-- Where a call of `shutdown` or `cleanup` is. -/
inductive ShutPc where
  | idle
  | locked
  /-- The flag is set. -/
  | marked
  /-- In `close_rx_socket`, after `begin_close`. -/
  | begun
  /-- `close_rx_socket` returned. -/
  | ended
  | returned
  deriving DecidableEq, Repr

namespace ShutPc

def holds : ShutPc → Bool
  | idle | returned => false
  | _ => true

def hasMarked : ShutPc → Bool
  | marked | begun | ended | returned => true
  | _ => false

def hasBegun : ShutPc → Bool
  | begun | ended | returned => true
  | _ => false

theorem hasMarked_of_hasBegun {pc : ShutPc} (h : pc.hasBegun = true) : pc.hasMarked = true := by
  cases pc <;> simp [hasBegun, hasMarked] at h ⊢

end ShutPc

/-- Who has the mutex. -/
inductive GateHolder where
  | opener (o : Nat)
  | closer (k : Nat)
  deriving DecidableEq, Repr

/-- A `Cspcl` behind the mutex `closed`. Of the open `o`: the thread, the stream that it opened, its
answer, and whether the requester has gone. -/
structure Gate where
  w : World
  closed : Bool
  holder : Option GateHolder
  opener : Nat → OpenPc
  stream : Nat → Option Nat
  answer : Nat → Option OpenAnswer
  gone : Nat → Bool
  closer : Nat → ShutPc

/-- A step. `o`: an open; `k`: a call of `shutdown` or `cleanup`. -/
inductive GateOp where
  | stream (now : Nat) (op : Op)
  | start (o : Nat)
  | openLock (o : Nat)
  | openSubscribe (o now : Nat)
  | openRefuse (o : Nat)
  | openSend (o now : Nat)
  | openUnlock (o : Nat)
  | openPanic (o : Nat)
  /-- The requester polls its stream. -/
  | poll (o : Nat)
  /-- The requester drops its stream, or what would have received it. -/
  | drop (o now : Nat)
  | shutLock (k : Nat)
  | shutMark (k : Nat)
  | shutBegin (k now : Nat)
  | shutEnd (k : Nat)
  | shutUnlock (k : Nat)

namespace Gate

/-- Around a new `Cspcl`. -/
def new (now : Nat) : Gate where
  w := .new now
  closed := false
  holder := none
  opener _ := .idle
  stream _ := none
  answer _ := none
  gone _ := false
  closer _ := .idle

/-- The steps of the listeners, of the accept thread, and of `subscribe` behind its lock section. -/
def inner : Op → Bool
  | .deliver _ | .spawned _ | .spawnFailed _ | .acceptFailed _ | .sendSpawnError _ | .decide _ |
    .iterate _ _ | .panic _ => true
  | _ => false

def setOpener (g : Gate) (o : Nat) (pc : OpenPc) : Gate :=
  { g with opener := Function.update g.opener o pc }

def setCloser (g : Gate) (k : Nat) (pc : ShutPc) : Gate :=
  { g with closer := Function.update g.closer k pc }

/-- `tx.send`, and the end of the thread's work. -/
def send (g : Gate) (o : Nat) (a : OpenAnswer) (pc : OpenPc) : Gate :=
  { g.setOpener o pc with answer := Function.update g.answer o (some a) }

/-- A step of the streams. -/
def run (g : Gate) (now : Nat) (op : Op) : Option Gate :=
  (g.w.step (now, op)).map fun w => { g with w }

def step (g : Gate) : GateOp → Option Gate
  | .stream now op => if inner op then g.run now op else none
  | .start o => if g.opener o = .idle then some (g.setOpener o .started) else none
  | .openLock o =>
    if g.opener o = .started ∧ g.holder = none then
      some { g.setOpener o .locked with holder := some (.opener o) }
    else none
  | .openSubscribe o now =>
    if g.opener o = .locked ∧ g.closed = false then
      { g.setOpener o (.subscribed g.w.recv.nextId) with
        stream := Function.update g.stream o (some g.w.recv.nextId) }.run now .subscribe
    else none
  | .openRefuse o =>
    if g.opener o = .locked ∧ g.closed = true then some (g.send o .closed .leaving) else none
  | .openSend o now =>
    match g.opener o with
    | .subscribed id =>
      if (g.w.thread id).inSubscribe then none
      -- The channel gives the stream back, and it is dropped.
      else if g.gone o then (g.setOpener o .leaving).run now (.unsubscribe id)
      else some (g.send o .stream .leaving)
    | _ => none
  | .openUnlock o =>
    if g.opener o = .leaving then some { g.setOpener o .done with holder := none } else none
  | .openPanic o =>
    match g.opener o with
    | .started => some (g.send o .failed .done)
    | .locked => some { g.send o .failed .done with holder := none }
    | _ => none
  | .poll o =>
    if g.gone o then none
    else
      match g.answer o, g.stream o with
      | some .stream, some id => g.run 0 (.pollNext id)
      | _, _ => none
  | .drop o now =>
    if g.gone o then none
    else
      match g.answer o, g.stream o with
      | some .stream, some id =>
        { g with gone := Function.update g.gone o true }.run now (.unsubscribe id)
      | _, _ => some { g with gone := Function.update g.gone o true }
  | .shutLock k =>
    if g.closer k = .idle ∧ g.holder = none then
      some { g.setCloser k .locked with holder := some (.closer k) }
    else none
  | .shutMark k =>
    if g.closer k = .locked then some { g.setCloser k .marked with closed := true } else none
  | .shutBegin k now =>
    if g.closer k = .marked then (g.setCloser k .begun).run now .beginClose else none
  | .shutEnd k =>
    if g.closer k = .begun then (g.setCloser k .ended).run 0 .closeGuardDrop else none
  | .shutUnlock k =>
    if g.closer k = .ended then some { g.setCloser k .returned with holder := none } else none

end Gate

/-- All interleavings, around a new `Cspcl`. -/
def gateSys : Lts Gate GateOp where
  init g := ∃ now, g = .new now
  step := Gate.step

/-! ## The invariant -/

/-- The requester of the open `o` has its stream and has not dropped it. -/
def Gate.Holds (g : Gate) (o : Nat) : Prop := g.answer o = some .stream ∧ g.gone o = false

structure GateInv (g : Gate) : Prop where
  streams : StreamsInv g.w
  threads : AcceptInv g.w
  opener_iff : ∀ o, (g.opener o).holds = true ↔ g.holder = some (.opener o)
  closer_iff : ∀ k, (g.closer k).holds = true ↔ g.holder = some (.closer k)
  /-- Behind the flag no stream is opened. -/
  subscribed : ∀ o id, g.opener o = .subscribed id →
    g.stream o = some id ∧ g.answer o = none ∧ g.closed = false
  marked : ∀ k, (g.closer k).hasMarked = true → g.closed = true
  begun : ∀ k, (g.closer k).hasBegun = true → g.w.recv.isReceiving = false
  /-- Each open has its own stream. -/
  lt_nextId : ∀ o id, g.stream o = some id → id < g.w.recv.nextId
  inj : ∀ o o' id, g.stream o = some id → g.stream o' = some id → o = o'
  unopened : ∀ o, (g.opener o = .idle ∨ g.opener o = .started ∨ g.opener o = .locked) →
    g.stream o = none ∧ g.answer o = none
  answered : ∀ o, g.answer o = some .stream → ∃ id, g.stream o = some id
  /-- An opened stream that the thread has handed over is out of `subscribe`. -/
  inSubscribe : ∀ o id, g.stream o = some id → g.opener o ≠ .subscribed id →
    (g.w.thread id).inSubscribe = false
  /-- Only its requester drops a stream. -/
  dropped : ∀ o id, g.stream o = some id → g.opener o = .subscribed id ∨ g.Holds o →
    g.w.status id ≠ .dropped

variable {g g' : Gate} {op : GateOp} {now o k id : Nat}

namespace GateInv

/-- A step of the streams that opens and drops none. -/
theorem run {w : World} {sop : Op} (h : GateInv g) (hs : g.w.step (now, sop) = some w)
    (hsub : sop ≠ .subscribe) (hun : ∀ id, sop ≠ .unsubscribe id) : GateInv { g with w } := by
  have hf := frame_step h.streams hs
  have hin : ∀ i, (g.w.thread i).inSubscribe = false → (w.thread i).inSubscribe = false := by
    intro i hi
    by_contra hne
    rcases hf.inSubscribe i (by simpa using hne) with h' | ⟨h', -⟩
    · simp [hi] at h'
    · exact hsub h'
  exact {
    h with
    streams := h.streams.step hs
    threads := h.threads.step h.streams hs
    begun := fun k hk => (World.step_flags h.streams hs).2.1 hsub (h.begun k hk)
    lt_nextId := fun o id ho => (hf.nextId hsub).symm ▸ h.lt_nextId o id ho
    inSubscribe := fun o id ho hne => hin id (h.inSubscribe o id ho hne)
    dropped := fun o id ho hh hd => by
      rcases hf.dropped id hd with h' | h'
      · exact h.dropped o id ho hh h'
      · exact hun id h' }

theorem start (h : GateInv g) (ho : g.opener o = .idle) : GateInv (g.setOpener o .started) := by
  obtain ⟨hst, hth, hop, hcl, hsu, hma, hbe, hlt, hinj, hun, han, hin, hdr⟩ := h
  refine ⟨hst, hth, ?_, hcl, ?_, hma, hbe, hlt, hinj, ?_, han, ?_, ?_⟩ <;>
    simp only [Gate.setOpener, Function.update_apply, Gate.Holds] <;>
    grind [OpenPc.holds, Gate.Holds]

theorem openLock (h : GateInv g) (ho : g.opener o = .started) (hfree : g.holder = none) :
    GateInv { g.setOpener o .locked with holder := some (.opener o) } := by
  obtain ⟨hst, hth, hop, hcl, hsu, hma, hbe, hlt, hinj, hun, han, hin, hdr⟩ := h
  refine ⟨hst, hth, ?_, ?_, ?_, hma, hbe, hlt, hinj, ?_, han, ?_, ?_⟩ <;>
    simp only [Gate.setOpener, Function.update_apply, Gate.Holds] <;>
    grind [OpenPc.holds, Gate.Holds]

/-- A thread with the mutex answers without a stream. -/
theorem refuse {a : OpenAnswer} {p : OpenPc} {holder : Option GateHolder} (h : GateInv g)
    (ho : g.opener o = .started ∨ g.opener o = .locked) (ha : a ≠ .stream)
    (hpc : p = .leaving ∨ p = .done)
    (hh : holder = if p = .leaving then g.holder
      else if g.opener o = .locked then none else g.holder)
    (hl : p = .leaving → g.opener o = .locked) :
    GateInv { g.send o a p with holder } := by
  obtain ⟨hst, hth, hop, hcl, hsu, hma, hbe, hlt, hinj, hun, han, hin, hdr⟩ := h
  refine ⟨hst, hth, ?_, ?_, ?_, hma, hbe, hlt, hinj, ?_, ?_, ?_, ?_⟩ <;>
    simp only [Gate.send, Gate.setOpener, Function.update_apply, Gate.Holds] <;>
    grind [OpenPc.holds, Gate.Holds]

theorem openSend (h : GateInv g) (ho : g.opener o = .subscribed id)
    (hi : (g.w.thread id).inSubscribe = false) : GateInv (g.send o .stream .leaving) := by
  obtain ⟨hst, hth, hop, hcl, hsu, hma, hbe, hlt, hinj, hun, han, hin, hdr⟩ := h
  refine ⟨hst, hth, ?_, ?_, ?_, hma, hbe, hlt, hinj, ?_, ?_, ?_, ?_⟩ <;>
    simp only [Gate.send, Gate.setOpener, Function.update_apply, Gate.Holds] <;>
    grind [OpenPc.holds, Gate.Holds]

theorem openUnlock (h : GateInv g) (ho : g.opener o = .leaving) :
    GateInv { g.setOpener o .done with holder := none } := by
  obtain ⟨hst, hth, hop, hcl, hsu, hma, hbe, hlt, hinj, hun, han, hin, hdr⟩ := h
  refine ⟨hst, hth, ?_, ?_, ?_, hma, hbe, hlt, hinj, ?_, han, ?_, ?_⟩ <;>
    simp only [Gate.setOpener, Function.update_apply, Gate.Holds] <;>
    grind [OpenPc.holds, Gate.Holds]

theorem openSubscribe {w : World} (h : GateInv g) (ho : g.opener o = .locked)
    (hc : g.closed = false) (hs : g.w.step (now, .subscribe) = some w) :
    GateInv { g.setOpener o (.subscribed g.w.recv.nextId) with
      stream := Function.update g.stream o (some g.w.recv.nextId), w } := by
  have hf := frame_step h.streams hs
  have hst' := h.streams.step hs
  have hnext : w.recv.nextId = g.w.recv.nextId + 1 ∧ w.status g.w.recv.nextId = .open := by
    simp only [World.step, Receiver.subscribe_spec] at hs
    split at hs
    · cases hs
    · obtain rfl := Option.some.inj hs
      simp
  have hopen := h.unopened o (.inr (.inr ho))
  have hth' := h.threads.step h.streams hs
  obtain ⟨hst, hth, hop, hcl, hsu, hma, hbe, hlt, hinj, hun, han, hin, hdr⟩ := h
  refine ⟨hst', hth', ?_, hcl, ?_, hma, ?_, ?_, ?_, ?_, ?_, ?_, ?_⟩
  · simp only [Gate.setOpener, Function.update_apply]
    grind [OpenPc.holds]
  · simp only [Gate.setOpener, Function.update_apply]
    grind
  · -- No close has marked the flag.
    intro k hk
    have hm := hma k (ShutPc.hasMarked_of_hasBegun hk)
    rw [hc] at hm
    cases hm
  · simp only [Function.update_apply]
    grind
  · simp only [Function.update_apply]
    grind
  · simp only [Gate.setOpener, Function.update_apply]
    grind
  · intro o' ha
    by_cases ho' : o' = o
    · subst ho'
      exact absurd (hopen.2.symm.trans ha) (by simp)
    · simpa [ho'] using han o' ha
  · intro o' id ho' hne
    by_contra hin'
    have := hf.inSubscribe id (by simpa using hin')
    simp only [Gate.setOpener, Function.update_apply] at ho' hne
    grind
  · intro o' id ho' hh hd
    have := hf.dropped id hd
    simp only [Gate.setOpener, Function.update_apply, Gate.Holds] at ho' hh
    grind [Gate.Holds]

/-- A stream is dropped, by its opener or by its requester. -/
theorem dropStream {w : World} {p : OpenPc} {b : Bool} (h : GateInv g) (ho : g.stream o = some id)
    (hs : g.w.step (now, .unsubscribe id) = some w)
    (hpc : p = g.opener o ∨ p = .leaving ∧ g.opener o = .subscribed id)
    (hin : (g.w.thread id).inSubscribe = false)
    (hb : p ≠ .subscribed id ∧ (g.answer o = some .stream → b = true)) :
    GateInv { g.setOpener o p with gone := Function.update g.gone o b, w } := by
  have hf := frame_step h.streams hs
  have hst' := h.streams.step hs
  have hth' := h.threads.step h.streams hs
  have hoff := (World.step_flags h.streams hs).2.1 (by simp)
  have hnext := hf.nextId (by simp)
  obtain ⟨hst, hth, hop, hcl, hsu, hma, hbe, hlt, hinj, hun, han, hin', hdr⟩ := h
  refine ⟨hst', hth', ?_, hcl, ?_, hma, fun k hk => hoff (hbe k hk), ?_, hinj, ?_, han, ?_, ?_⟩
  · simp only [Gate.setOpener, Function.update_apply]
    grind [OpenPc.holds]
  · simp only [Gate.setOpener, Function.update_apply]
    grind
  · intro o' i ho'
    exact hnext.symm ▸ hlt o' i ho'
  · simp only [Gate.setOpener, Function.update_apply]
    grind
  · intro o' i ho' hne
    by_contra hi
    have := hf.inSubscribe i (by simpa using hi)
    simp only [Gate.setOpener, Function.update_apply] at ho' hne
    grind
  · intro o' i ho' hh hd
    have := hf.dropped i hd
    simp only [Gate.setOpener, Function.update_apply, Gate.Holds] at ho' hh
    grind [Gate.Holds]

theorem dropNothing (h : GateInv g) : GateInv { g with gone := Function.update g.gone o true } := by
  refine { h with dropped := fun o' id ho' hh => ?_ }
  refine h.dropped o' id ho' (hh.imp_right fun hold => ⟨hold.1, ?_⟩)
  have hg := hold.2
  simp only [Function.update_apply] at hg
  split at hg
  · cases hg
  · exact hg

/-- A close moves. -/
theorem shut {w : World} {closed : Bool} {pc : ShutPc} {holder : Option GateHolder}
    (h : GateInv g) (hst : StreamsInv w) (hth : AcceptInv w)
    (hholder : g.holder = none ∨ g.holder = some (.closer k))
    (hnew : holder = if pc.holds then some (.closer k) else none)
    (hclosed : closed = (g.closed || pc.hasMarked))
    (hoff : pc.hasBegun = true ∨ g.w.recv.isReceiving = false → w.recv.isReceiving = false)
    (hnext : w.recv.nextId = g.w.recv.nextId) (hthread : w.thread = g.w.thread)
    (hstatus : ∀ i, w.status i = .dropped → g.w.status i = .dropped) :
    GateInv { g.setCloser k pc with w, closed, holder } := by
  obtain ⟨-, -, hop, hcl, hsu, hma, hbe, hlt, hinj, hun, han, hin, hdr⟩ := h
  have hfree : ∀ o, (g.opener o).holds = false := fun o => by
    have := hop o
    rcases hholder with hh | hh <;> simpa [hh] using this
  refine ⟨hst, hth, ?_, ?_, ?_, ?_, ?_, ?_, hinj, hun, han, ?_, ?_⟩
  · intro o
    rw [hnew]
    have := hfree o
    dsimp only [Gate.setCloser]
    split <;> simp [this]
  · simp only [Gate.setCloser, Function.update_apply]
    grind
  · -- No opener has the mutex, so none is in `subscribe`.
    intro o id ho
    have := hfree o
    dsimp only [Gate.setCloser] at ho
    rw [ho] at this
    cases this
  · simp only [Gate.setCloser, Function.update_apply]
    grind
  · simp only [Gate.setCloser, Function.update_apply]
    grind
  · intro o id ho
    exact hnext.symm ▸ hlt o id ho
  · intro o id ho hne
    simpa [hthread] using hin o id ho hne
  · intro o id ho hh hd
    exact hdr o id ho hh (hstatus id hd)

theorem step (h : GateInv g) (hs : g.step op = some g') : GateInv g' := by
  cases op with
  | stream now sop =>
    simp only [Gate.step] at hs
    split at hs
    · rename_i hin
      obtain ⟨w, hw, rfl⟩ := Option.map_eq_some_iff.mp hs
      exact h.run hw (by rintro rfl; cases hin) (by rintro id rfl; cases hin)
    · cases hs
  | start o =>
    simp only [Gate.step] at hs
    split at hs
    · obtain rfl := Option.some.inj hs
      exact h.start ‹_›
    · cases hs
  | openLock o =>
    simp only [Gate.step] at hs
    split at hs
    · rename_i hc
      obtain rfl := Option.some.inj hs
      exact h.openLock hc.1 hc.2
    · cases hs
  | openSubscribe o now =>
    simp only [Gate.step] at hs
    split at hs
    · rename_i hc
      obtain ⟨w, hw, rfl⟩ := Option.map_eq_some_iff.mp hs
      exact h.openSubscribe hc.1 hc.2 hw
    · cases hs
  | openRefuse o =>
    simp only [Gate.step] at hs
    split at hs
    · rename_i hc
      obtain rfl := Option.some.inj hs
      exact h.refuse (.inr hc.1) (by simp) (.inl rfl) rfl fun _ => hc.1
    · cases hs
  | openSend o now =>
    simp only [Gate.step] at hs
    split at hs
    · rename_i id ho
      split at hs
      · cases hs
      rename_i hin
      have hin' : (g.w.thread id).inSubscribe = false := by simpa using hin
      split at hs
      · rename_i hgone
        obtain ⟨w, hw, rfl⟩ := Option.map_eq_some_iff.mp hs
        have hno := (h.subscribed o id ho).2.1
        have := h.dropStream (p := .leaving) (b := true) (h.subscribed o id ho).1 hw
          (.inr ⟨rfl, ho⟩) hin' ⟨by simp, by simp⟩
        rw [← hgone, Function.update_eq_self] at this
        exact this
      · obtain rfl := Option.some.inj hs
        exact h.openSend ho hin'
    · cases hs
  | openUnlock o =>
    simp only [Gate.step] at hs
    split at hs
    · obtain rfl := Option.some.inj hs
      exact h.openUnlock ‹_›
    · cases hs
  | openPanic o =>
    simp only [Gate.step] at hs
    split at hs
    · rename_i ho
      obtain rfl := Option.some.inj hs
      exact h.refuse (a := .failed) (p := .done) (.inl ho) (by simp) (.inr rfl)
        (by simp [ho, Gate.setOpener]) (by simp)
    · rename_i ho
      obtain rfl := Option.some.inj hs
      exact h.refuse (.inr ho) (by simp) (.inr rfl) (by simp [ho]) (by simp)
    · cases hs
  | poll o =>
    simp only [Gate.step] at hs
    split at hs
    · cases hs
    split at hs
    · obtain ⟨w, hw, rfl⟩ := Option.map_eq_some_iff.mp hs
      exact h.run hw (by simp) (by simp)
    · cases hs
  | drop o now =>
    simp only [Gate.step] at hs
    split at hs
    · cases hs
    split at hs
    · rename_i id ha ho
      obtain ⟨w, hw, rfl⟩ := Option.map_eq_some_iff.mp hs
      have hne : g.opener o ≠ .subscribed id := fun hsub => by
        simp [(h.subscribed o id hsub).2.1] at ha
      have := h.dropStream (b := true) ho hw (.inl rfl) (h.inSubscribe o id ho hne)
        ⟨hne, fun _ => rfl⟩
      unfold Gate.setOpener at this
      rw [Function.update_eq_self] at this
      exact this
    · obtain rfl := Option.some.inj hs
      exact h.dropNothing
  | shutLock k =>
    simp only [Gate.step] at hs
    split at hs
    · rename_i hc
      obtain rfl := Option.some.inj hs
      exact h.shut h.streams h.threads (.inl hc.2) rfl
        (by simp [Gate.setCloser, ShutPc.hasMarked])
        (by simp [Gate.setCloser, ShutPc.hasBegun]) rfl rfl fun _ hd => hd
    · cases hs
  | shutMark k =>
    simp only [Gate.step] at hs
    split at hs
    · rename_i hk
      obtain rfl := Option.some.inj hs
      have hh := (h.closer_iff k).mp (by rw [hk]; rfl)
      exact h.shut h.streams h.threads (.inr hh) hh (by simp [ShutPc.hasMarked])
        (by simp [Gate.setCloser, ShutPc.hasBegun]) rfl rfl fun _ hd => hd
    · cases hs
  | shutBegin k now =>
    simp only [Gate.step] at hs
    split at hs
    · rename_i hk
      obtain ⟨w, hw, rfl⟩ := Option.map_eq_some_iff.mp hs
      have hh := (h.closer_iff k).mp (by rw [hk]; rfl)
      have hm := h.marked k (by rw [hk]; rfl)
      have hst := h.streams.step hw
      have hth := h.threads.step h.streams hw
      obtain rfl := Option.some.inj hw
      refine h.shut hst hth (.inr hh) hh (by simp [Gate.setCloser, hm])
        (fun _ => ?_) rfl rfl fun i hd => dropped_endAll hd
      exact hth.off_iff.mpr rfl
    · cases hs
  | shutEnd k =>
    simp only [Gate.step] at hs
    split at hs
    · rename_i hk
      obtain ⟨w, hw, rfl⟩ := Option.map_eq_some_iff.mp hs
      have hh := (h.closer_iff k).mp (by rw [hk]; rfl)
      have hm := h.marked k (by rw [hk]; rfl)
      have hb := h.begun k (by rw [hk]; rfl)
      have hf := frame_step h.streams hw
      have hoff := (World.step_flags h.streams hw).2.1 (by simp) hb
      refine h.shut (h.streams.step hw) (h.threads.step h.streams hw) (.inr hh) hh
        (by simp [Gate.setCloser, hm]) (fun _ => hoff) (hf.nextId (by simp)) ?_
        fun i hd => (hf.dropped i hd).resolve_right (by simp)
      simp only [World.step] at hw
      split at hw
      · obtain rfl := Option.some.inj hw
        rfl
      · cases hw
    · cases hs
  | shutUnlock k =>
    simp only [Gate.step] at hs
    split at hs
    · rename_i hk
      obtain rfl := Option.some.inj hs
      have hh := (h.closer_iff k).mp (by rw [hk]; rfl)
      have hm := h.marked k (by rw [hk]; rfl)
      exact h.shut h.streams h.threads (.inr hh) rfl (by simp [Gate.setCloser, hm])
        (fun _ => h.begun k (by rw [hk]; rfl)) rfl rfl fun _ hd => hd
    · cases hs

end GateInv

theorem gateSys_inv : gateSys.Inductive GateInv where
  init g hg := by
    obtain ⟨now, rfl⟩ := hg
    have h := acceptInv_inductive.init (.new now) ⟨now, rfl⟩
    refine ⟨h.1, h.2, ?_, ?_, ?_, ?_, ?_, ?_, ?_, ?_, ?_, ?_, ?_⟩ <;>
      simp [Gate.new, OpenPc.holds, ShutPc.holds, ShutPc.hasMarked, ShutPc.hasBegun]
  step _ _ _ h hs := h.step hs

end Cspcl.Receive
