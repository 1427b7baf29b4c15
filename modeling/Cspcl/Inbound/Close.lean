import Cspcl.Inbound.Accept
import Cspcl.Rx.Recv

/-!
# Closing the receive socket

`Cspcl::close_rx_socket` and `Cspcl::poll_connection` of `rust-bindings/cspcl/src/instance.rs`, with
one step for each operation on the accept lock and each lock section, among the steps of the
streams.

* `CloseWorld`: the receiver with its streams and accept threads, the C instance whose `rx_socket`
  the accept lock guards, the holder of that lock, and where each caller is.
* `CloseInv`: the counter `closing` counts the closes in progress, the accept lock has the holder
  that its callers think it has, and a close that forgot the socket finds no accept behind it.
* `close_final`: what a close in progress excludes, and what holds after it until the next
  `subscribe`.
-/

namespace Cspcl.Inbound

/-- Where an accept thread is in `poll_connection`. -/
inductive PollPc where
  | idle
  /-- It has the accept lock and has not looked at the receiver yet. -/
  | locked
  /-- It saw that receiving is on. -/
  | accepting
  /-- It is about to drop the accept lock. -/
  | leaving
  deriving DecidableEq, Repr

def PollPc.holds : PollPc → Bool
  | idle => false
  | _ => true

/-- Where a call of `close_rx_socket` is. -/
inductive ClosePc where
  | idle
  | begun
  | locked
  /-- `cspcl_close_rx_socket` returned. -/
  | cleared
  /-- The accept lock is dropped, before `CloseGuard`. -/
  | unlocked
  | returned
  deriving DecidableEq, Repr

namespace ClosePc

/-- Between `begin_close` and the drop of its guard. -/
def inProgress : ClosePc → Bool
  | idle | returned => false
  | _ => true

def holds : ClosePc → Bool
  | locked | cleared => true
  | _ => false

/-- The socket is forgotten and the guard is not dropped. -/
def forgot : ClosePc → Bool
  | cleared | unlocked => true
  | _ => false

end ClosePc

/-- Who has the accept lock. -/
inductive AcceptHolder where
  | poll (id : Nat)
  | close (k : Nat)
  deriving DecidableEq, Repr

/-- A `Cspcl` and its callers. `closers` is ghost state: the closes in progress. -/
structure CloseWorld where
  w : World
  globals : Globals
  inst : Instance
  accept : Option AcceptHolder
  poll : Nat → PollPc
  close : Nat → ClosePc
  closers : List Nat

/-- A step. `id`: the accept thread, as in `Op`; `k`: the call of `close_rx_socket`. -/
inductive CloseOp where
  | stream (now : Nat) (op : Op)
  | pollLock (id : Nat)
  | pollCheck (id : Nat)
  | pollAccept (id : Nat) (env : RecvEnv)
  | pollUnlock (id : Nat)
  /-- A panic in `poll_connection` drops the accept lock. -/
  | pollUnwind (id : Nat)
  | closeBegin (k now : Nat)
  | closeLock (k : Nat)
  | closeSocket (k : Nat)
  | closeUnlock (k : Nat)
  | closeEnd (k : Nat)
  /-- Sends of this instance, which change the pool, and the other instances of the process. -/
  | others (g : Globals) (pool : ConnPool)

namespace CloseWorld

/-- A new `Cspcl` around an initialized instance. -/
def new (now : Nat) (g : Globals) (inst : Instance) : CloseWorld where
  w := .new now
  globals := g
  inst := inst
  accept := none
  poll _ := .idle
  close _ := .idle
  closers := []

def setPoll (s : CloseWorld) (id : Nat) (pc : PollPc) : CloseWorld :=
  { s with poll := Function.update s.poll id pc }

def setClose (s : CloseWorld) (k : Nat) (pc : ClosePc) : CloseWorld :=
  { s with close := Function.update s.close k pc }

/-- The steps of `streamSys` outside `close_rx_socket` and `poll_connection`. -/
def free (s : CloseWorld) : Op → Bool
  | .beginClose | .closeGuardDrop => false
  | .iterate id _ | .panic id => !(s.poll id).holds
  | _ => true

def step (s : CloseWorld) : CloseOp → Option CloseWorld
  | .stream now op => if s.free op then (s.w.step (now, op)).map fun w => { s with w } else none
  | .pollLock id =>
    if s.w.thread id = .busy ∧ s.poll id = .idle ∧ s.accept = none then
      some { s.setPoll id .locked with accept := some (.poll id) }
    else none
  | .pollCheck id =>
    if s.poll id = .locked then
      some (s.setPoll id (if s.w.recv.isReceiving then .accepting else .leaving))
    else none
  | .pollAccept id env =>
    if s.poll id = .accepting then
      -- Reopens the socket if it is closed.
      let r := acceptConn s.globals s.inst rxAcceptPollMs env
      some { s.setPoll id .leaving with globals := r.globals, inst := r.inst }
    else none
  | .pollUnlock id =>
    if s.poll id = .leaving then some { s.setPoll id .idle with accept := none } else none
  | .pollUnwind id =>
    if (s.poll id).holds then some { s.setPoll id .idle with accept := none } else none
  | .closeBegin k now =>
    if s.close k = .idle then
      (s.w.step (now, .beginClose)).map fun w =>
        { s.setClose k .begun with w, closers := k :: s.closers }
    else none
  | .closeLock k =>
    if s.close k = .begun ∧ s.accept = none then
      some { s.setClose k .locked with accept := some (.close k) }
    else none
  | .closeSocket k =>
    if s.close k = .locked then
      some { s.setClose k .cleared with inst := s.inst.closeRxSocket }
    else none
  | .closeUnlock k =>
    -- The guards drop in the reverse order of their declaration.
    if s.close k = .cleared then some { s.setClose k .unlocked with accept := none } else none
  | .closeEnd k =>
    if s.close k = .unlocked then
      (s.w.step (0, .closeGuardDrop)).map fun w =>
        { s.setClose k .returned with w, closers := s.closers.erase k }
    else none
  | .others g pool => some { s with globals := g, inst := { s.inst with connPool := pool } }

end CloseWorld

/-- All interleavings, from a new `Cspcl`. -/
def closeSys : Lts CloseWorld CloseOp where
  init s := ∃ now g inst, inst.initialized = true ∧ s = .new now g inst
  step := CloseWorld.step

/-! ## The invariant -/

/-- `closing` counts the closes in progress; the accept lock has the holder that its callers think
it has; behind a close that forgot the socket no accept is on its way. -/
structure CloseInv (s : CloseWorld) : Prop where
  streams : StreamsInv s.w
  threads : AcceptInv s.w
  closing : s.w.recv.closing = s.closers.length
  nodup : s.closers.Nodup
  mem_iff : ∀ k, k ∈ s.closers ↔ (s.close k).inProgress = true
  off : s.closers ≠ [] → s.w.recv.isReceiving = false
  poll_iff : ∀ id, (s.poll id).holds = true ↔ s.accept = some (.poll id)
  close_iff : ∀ k, (s.close k).holds = true ↔ s.accept = some (.close k)
  forgot : ∀ k, (s.close k).forgot = true →
    s.inst.rxSocket = none ∧ ∀ id, s.poll id ≠ .accepting

variable {s s' t : CloseWorld} {op : CloseOp} {ops : List CloseOp} {now id k : Nat}

namespace CloseInv

theorem inProgress_of_forgot (h : (s.close k).forgot = true) : (s.close k).inProgress = true := by
  cases hk : s.close k <;> simp [hk, ClosePc.forgot, ClosePc.inProgress] at h ⊢

/-- While a close is in progress, receiving is off. -/
theorem off_of (h : CloseInv s) (hk : (s.close k).inProgress = true) :
    s.w.recv.isReceiving = false :=
  h.off (List.ne_nil_of_mem ((h.mem_iff k).mpr hk))

/-- A step of the streams. -/
theorem stream {w : World} {sop : Op} (h : CloseInv s) (hs : s.w.step (now, sop) = some w)
    (hb : sop ≠ .beginClose) (hg : sop ≠ .closeGuardDrop) : CloseInv { s with w } where
  streams := h.streams.step hs
  threads := h.threads.step h.streams hs
  closing := by
    rw [← h.closing]
    refine (World.step_flags h.streams hs).1.trans ?_
    cases sop <;> first | rfl | exact absurd rfl hb | exact absurd rfl hg
  nodup := h.nodup
  mem_iff := h.mem_iff
  off hne := by
    by_cases hsub : sop = .subscribe
    · -- `subscribe` waits for the closes.
      subst hsub
      have hpos : 0 < s.w.recv.closing := h.closing ▸ List.length_pos_of_ne_nil hne
      simp [World.step, hpos] at hs
    · exact (World.step_flags h.streams hs).2.1 hsub (h.off hne)
  poll_iff := h.poll_iff
  close_iff := h.close_iff
  forgot := h.forgot

/-- An accept thread moves in `poll_connection`; `a` is the holder of the accept lock then. -/
theorem setPoll {pc : PollPc} {a : Option AcceptHolder} {g : Globals} {inst : Instance}
    (h : CloseInv s) (hb : s.accept = none ∨ s.accept = some (.poll id))
    (ha : a = if pc.holds then some (.poll id) else none)
    (hf : ∀ k, (s.close k).forgot = true → inst.rxSocket = none ∧ pc ≠ .accepting) :
    CloseInv { s.setPoll id pc with accept := a, globals := g, inst := inst } where
  streams := h.streams
  threads := h.threads
  closing := h.closing
  nodup := h.nodup
  mem_iff := h.mem_iff
  off := h.off
  poll_iff i := by
    by_cases hi : i = id
    · subst hi
      cases hpc : pc.holds <;> simp [CloseWorld.setPoll, ha, hpc]
    · have hne : s.accept ≠ some (.poll i) := by
        rcases hb with hb | hb <;> simp [hb, Ne.symm hi]
      have hnot := mt (h.poll_iff i).mp hne
      cases hpc : pc.holds <;> simp [CloseWorld.setPoll, ha, hi, hpc, hnot, Ne.symm hi]
  close_iff k := by
    have hne : s.accept ≠ some (.close k) := by rcases hb with hb | hb <;> simp [hb]
    have hnot := mt (h.close_iff k).mp hne
    cases hpc : pc.holds <;> simp [CloseWorld.setPoll, ha, hpc, hnot]
  forgot k hk := by
    refine ⟨(hf k hk).1, fun i => ?_⟩
    by_cases hi : i = id
    · subst hi
      simpa [CloseWorld.setPoll] using (hf k hk).2
    · simpa [CloseWorld.setPoll, hi] using (h.forgot k hk).2 i

/-- A close in progress moves. -/
theorem setClose {pc : ClosePc} {a : Option AcceptHolder} {inst : Instance} (h : CloseInv s)
    (hk : (s.close k).inProgress = true) (hpc : pc.inProgress = true)
    (hb : s.accept = none ∨ s.accept = some (.close k))
    (ha : a = if pc.holds then some (.close k) else none)
    (hf : ∀ j, (Function.update s.close k pc j).forgot = true →
      inst.rxSocket = none ∧ ∀ id, s.poll id ≠ .accepting) :
    CloseInv { s.setClose k pc with accept := a, inst := inst } where
  streams := h.streams
  threads := h.threads
  closing := h.closing
  nodup := h.nodup
  mem_iff j := by
    by_cases hj : j = k
    · subst hj
      simp [CloseWorld.setClose, hpc, (h.mem_iff j).mpr hk]
    · simpa [CloseWorld.setClose, hj] using h.mem_iff j
  off := h.off
  poll_iff i := by
    have hne : s.accept ≠ some (.poll i) := by rcases hb with hb | hb <;> simp [hb]
    have hnot := mt (h.poll_iff i).mp hne
    cases hpc : pc.holds <;> simp [CloseWorld.setClose, ha, hpc, hnot]
  close_iff j := by
    by_cases hj : j = k
    · subst hj
      cases hpc : pc.holds <;> simp [CloseWorld.setClose, ha, hpc]
    · have hne : s.accept ≠ some (.close j) := by
        rcases hb with hb | hb <;> simp [hb, Ne.symm hj]
      have hnot := mt (h.close_iff j).mp hne
      cases hpc : pc.holds <;> simp [CloseWorld.setClose, ha, hj, hpc, hnot, Ne.symm hj]
  forgot := hf

/-- The lock excludes the accepts while a close has it. -/
theorem not_accepting (h : CloseInv s) (ha : s.accept = some (.close k)) (id : Nat) :
    s.poll id ≠ .accepting := by
  intro hp
  have hh := (h.poll_iff id).mp (by rw [hp]; rfl)
  rw [ha] at hh
  cases hh

theorem closeBegin {w : World} (h : CloseInv s) (hk : s.close k = .idle)
    (hs : s.w.step (now, .beginClose) = some w) :
    CloseInv { s.setClose k .begun with w, closers := k :: s.closers } where
  streams := h.streams.step hs
  threads := h.threads.step h.streams hs
  closing := by
    rw [(World.step_flags h.streams hs).1]
    simp [World.closingAfter, h.closing]
  nodup := List.nodup_cons.mpr ⟨by rw [h.mem_iff, hk]; decide, h.nodup⟩
  mem_iff j := by
    by_cases hj : j = k
    · subst hj; simp [CloseWorld.setClose, ClosePc.inProgress]
    · simpa [CloseWorld.setClose, hj] using h.mem_iff j
  off _ := by
    obtain rfl := Option.some.inj hs
    cases hst : s.w.recv.stoppedAt <;>
      simp [Receiver.beginClose, Receiver.setReceiving, Receiver.isReceiving, hst]
  poll_iff := h.poll_iff
  close_iff j := by
    by_cases hj : j = k
    · subst hj
      have hne := mt (h.close_iff j).mpr (by simp [hk, ClosePc.holds])
      simp [CloseWorld.setClose, ClosePc.holds, hne]
    · simpa [CloseWorld.setClose, hj] using h.close_iff j
  forgot j hj := by
    by_cases hjk : j = k
    · subst hjk; simp [CloseWorld.setClose, ClosePc.forgot] at hj
    · exact h.forgot j (by simpa [CloseWorld.setClose, hjk] using hj)

theorem closeEnd {w : World} (h : CloseInv s) (hk : s.close k = .unlocked)
    (hs : s.w.step (now, .closeGuardDrop) = some w) :
    CloseInv { s.setClose k .returned with w, closers := s.closers.erase k } where
  streams := h.streams.step hs
  threads := h.threads.step h.streams hs
  closing := by
    have hmem := (h.mem_iff k).mpr (by rw [hk]; rfl)
    rw [(World.step_flags h.streams hs).1, List.length_erase_of_mem hmem]
    simp [World.closingAfter, h.closing]
  nodup := h.nodup.erase k
  mem_iff j := by
    rw [h.nodup.mem_erase_iff, h.mem_iff]
    by_cases hj : j = k
    · subst hj; simp [CloseWorld.setClose, ClosePc.inProgress]
    · simp [CloseWorld.setClose, hj]
  off _ := (World.step_flags h.streams hs).2.1 (by simp) (h.off_of (by rw [hk]; rfl))
  poll_iff := h.poll_iff
  close_iff j := by
    by_cases hj : j = k
    · subst hj
      have hne := mt (h.close_iff j).mpr (by simp [hk, ClosePc.holds])
      simp [CloseWorld.setClose, ClosePc.holds, hne]
    · simpa [CloseWorld.setClose, hj] using h.close_iff j
  forgot j hj := by
    by_cases hjk : j = k
    · subst hjk; simp [CloseWorld.setClose, ClosePc.forgot] at hj
    · exact h.forgot j (by simpa [CloseWorld.setClose, hjk] using hj)

theorem step (h : CloseInv s) (hs : s.step op = some s') : CloseInv s' := by
  cases op with
  | stream now sop =>
    simp only [CloseWorld.step] at hs
    split at hs
    · rename_i hfree
      obtain ⟨w, hw, rfl⟩ := Option.map_eq_some_iff.mp hs
      exact h.stream hw (by rintro rfl; cases hfree) (by rintro rfl; cases hfree)
    · cases hs
  | pollLock id =>
    simp only [CloseWorld.step] at hs
    split at hs
    · rename_i hc
      obtain rfl := Option.some.inj hs
      exact h.setPoll (.inl hc.2.2) rfl fun k hk => ⟨(h.forgot k hk).1, by decide⟩
    · cases hs
  | pollCheck id =>
    simp only [CloseWorld.step] at hs
    split at hs
    · rename_i hp
      obtain rfl := Option.some.inj hs
      have ha := (h.poll_iff id).mp (by rw [hp]; rfl)
      refine h.setPoll (.inr ha) ?_ fun k hk => ⟨(h.forgot k hk).1, ?_⟩
      · split <;> exact ha
      · -- Behind a close in progress, the thread sees that receiving is off.
        simp [h.off_of (inProgress_of_forgot hk)]
    · cases hs
  | pollAccept id env =>
    simp only [CloseWorld.step] at hs
    split at hs
    · rename_i hp
      obtain rfl := Option.some.inj hs
      have ha := (h.poll_iff id).mp (by rw [hp]; rfl)
      exact h.setPoll (.inr ha) ha fun k hk => absurd hp ((h.forgot k hk).2 id)
    · cases hs
  | pollUnlock id | pollUnwind id =>
    simp only [CloseWorld.step] at hs
    split at hs
    · rename_i hp
      obtain rfl := Option.some.inj hs
      have ha := (h.poll_iff id).mp (by first | exact hp | (rw [hp]; rfl))
      exact h.setPoll (.inr ha) rfl fun k hk => ⟨(h.forgot k hk).1, by decide⟩
    · cases hs
  | closeBegin k now =>
    simp only [CloseWorld.step] at hs
    split at hs
    · rename_i hk
      obtain ⟨w, hw, rfl⟩ := Option.map_eq_some_iff.mp hs
      exact h.closeBegin hk hw
    · cases hs
  | closeLock k =>
    simp only [CloseWorld.step] at hs
    split at hs
    · rename_i hc
      obtain rfl := Option.some.inj hs
      refine h.setClose (by rw [hc.1]; rfl) rfl (.inl hc.2) rfl fun j hj => h.forgot j ?_
      by_cases hjk : j = k
      · subst hjk; simp [ClosePc.forgot] at hj
      · simpa [hjk] using hj
    · cases hs
  | closeSocket k =>
    simp only [CloseWorld.step] at hs
    split at hs
    · rename_i hk
      obtain rfl := Option.some.inj hs
      have ha := (h.close_iff k).mp (by rw [hk]; rfl)
      exact h.setClose (by rw [hk]; rfl) rfl (.inr ha) ha fun j _ => ⟨rfl, h.not_accepting ha⟩
    · cases hs
  | closeUnlock k =>
    simp only [CloseWorld.step] at hs
    split at hs
    · rename_i hk
      obtain rfl := Option.some.inj hs
      have ha := (h.close_iff k).mp (by rw [hk]; rfl)
      exact h.setClose (by rw [hk]; rfl) rfl (.inr ha) rfl fun j _ =>
        h.forgot k (by rw [hk]; rfl)
    · cases hs
  | closeEnd k =>
    simp only [CloseWorld.step] at hs
    split at hs
    · rename_i hk
      obtain ⟨w, hw, rfl⟩ := Option.map_eq_some_iff.mp hs
      exact h.closeEnd hk hw
    · cases hs
  | others g pool =>
    obtain rfl := Option.some.inj hs
    exact ⟨h.streams, h.threads, h.closing, h.nodup, h.mem_iff, h.off, h.poll_iff, h.close_iff,
      h.forgot⟩

end CloseInv

theorem closeSys_inv : closeSys.Inductive CloseInv where
  init s hs := by
    obtain ⟨now, g, inst, -, rfl⟩ := hs
    have h := acceptInv_inductive.init (.new now) ⟨now, rfl⟩
    refine ⟨h.1, h.2, rfl, List.nodup_nil, ?_, fun hne => absurd rfl hne, ?_, ?_, ?_⟩ <;>
      simp [CloseWorld.new, ClosePc.inProgress, PollPc.holds, ClosePc.holds, ClosePc.forgot]
  step _ _ _ h hs := h.step hs

/-! ## Behind a close -/

/-- The socket is closed and no accept is on its way to reopen it. -/
structure Closed (s : CloseWorld) : Prop where
  inv : CloseInv s
  off : s.w.recv.isReceiving = false
  rxSocket : s.inst.rxSocket = none
  not_accepting : ∀ id, s.poll id ≠ .accepting

/-- The steps that open no stream. -/
def CloseOp.quiet : CloseOp → Prop
  | .stream _ .subscribe => False
  | _ => True

/-- Receiving stays off until a stream is opened. -/
theorem CloseInv.step_off (h : CloseInv s) (hq : op.quiet) (hs : s.step op = some s')
    (hoff : s.w.recv.isReceiving = false) : s'.w.recv.isReceiving = false := by
  cases op with
  | stream now sop =>
    simp only [CloseWorld.step] at hs
    split at hs
    · obtain ⟨w, hw, rfl⟩ := Option.map_eq_some_iff.mp hs
      exact (World.step_flags h.streams hw).2.1 (by rintro rfl; exact hq) hoff
    · cases hs
  | closeBegin k now | closeEnd k =>
    simp only [CloseWorld.step] at hs
    split at hs
    · obtain ⟨w, hw, rfl⟩ := Option.map_eq_some_iff.mp hs
      exact (World.step_flags h.streams hw).2.1 (by simp) hoff
    · cases hs
  | others g pool => obtain rfl := Option.some.inj hs; exact hoff
  | _ =>
    simp only [CloseWorld.step] at hs
    split at hs
    · obtain rfl := Option.some.inj hs
      exact hoff
    · cases hs

/-- No accept is on its way, so none reopens the socket. -/
theorem Closed.step (h : Closed s) (hq : op.quiet) (hs : s.step op = some s') : Closed s' := by
  have hinv := h.inv.step hs
  have hoff := h.inv.step_off hq hs h.off
  have hup {pc : PollPc} (id : Nat) (hpc : pc ≠ .accepting) (i : Nat) :
      Function.update s.poll id pc i ≠ .accepting := by
    by_cases hi : i = id
    · subst hi; simpa using hpc
    · simpa [hi] using h.not_accepting i
  cases op with
  | stream now sop | closeBegin k now | closeEnd k =>
    simp only [CloseWorld.step] at hs
    split at hs
    · obtain ⟨w, -, rfl⟩ := Option.map_eq_some_iff.mp hs
      exact ⟨hinv, hoff, h.rxSocket, h.not_accepting⟩
    · cases hs
  | pollLock id | pollUnlock id | pollUnwind id =>
    simp only [CloseWorld.step] at hs
    split at hs
    · obtain rfl := Option.some.inj hs
      exact ⟨hinv, hoff, h.rxSocket, hup id (by decide)⟩
    · cases hs
  | pollCheck id =>
    simp only [CloseWorld.step] at hs
    split at hs
    · obtain rfl := Option.some.inj hs
      exact ⟨hinv, hoff, h.rxSocket, hup id (by simp [h.off])⟩
    · cases hs
  | pollAccept id env =>
    simp only [CloseWorld.step] at hs
    split at hs
    · rename_i hp
      exact absurd hp (h.not_accepting id)
    · cases hs
  | closeLock k | closeUnlock k =>
    simp only [CloseWorld.step] at hs
    split at hs
    · obtain rfl := Option.some.inj hs
      exact ⟨hinv, hoff, h.rxSocket, h.not_accepting⟩
    · cases hs
  | closeSocket k =>
    simp only [CloseWorld.step] at hs
    split at hs
    · obtain rfl := Option.some.inj hs
      exact ⟨hinv, hoff, rfl, h.not_accepting⟩
    · cases hs
  | others g pool =>
    obtain rfl := Option.some.inj hs
    exact ⟨hinv, hoff, h.rxSocket, h.not_accepting⟩

theorem Closed.run (hr : closeSys.Run s ops t) (h : Closed s) (hq : ∀ op ∈ ops, op.quiet) :
    Closed t := by
  induction hr with
  | nil => exact h
  | cons hs _ ih =>
    obtain ⟨ha, hq⟩ := List.forall_mem_cons.mp hq
    exact ih (h.step ha hs) hq

/-- A close that forgot the socket has closed it. -/
theorem CloseInv.toClosed (h : CloseInv s) (hk : (s.close k).forgot = true) : Closed s :=
  ⟨h, h.off_of (CloseInv.inProgress_of_forgot hk), (h.forgot k hk).1, (h.forgot k hk).2⟩

/-- What closing means in a state. -/
structure CloseFinal (s : CloseWorld) : Prop where
  /-- `closing` counts the calls of `close_rx_socket` that took effect and did not return. -/
  closing_pos : 0 < s.w.recv.closing ↔ ∃ k, (s.close k).inProgress = true
  none_open : 0 < s.w.recv.closing → ∀ id, s.w.status id ≠ .open
  none_opens : 0 < s.w.recv.closing →
    ∀ op s', s.step op = some s' → ∀ id, s'.w.status id ≠ .open
  /-- From the return of a close on, until a stream is opened. -/
  final : ∀ k s' ops t, s.step (.closeEnd k) = some s' → closeSys.Run s' ops t →
    (∀ op ∈ ops, op.quiet) → t.inst.rxSocket = none ∧ t.w.recv.isReceiving = false

theorem CloseInv.none_open (h : CloseInv s) (hoff : s.w.recv.isReceiving = false) (id : Nat) :
    s.w.status id ≠ .open := by
  intro ho
  have hmem := (h.streams.mem_iff id).mpr ho
  rw [h.threads.off_iff.mp hoff] at hmem
  cases hmem

/-- `subscribe` waits while a close is in progress. -/
theorem CloseWorld.quiet_of_closing (hpos : 0 < s.w.recv.closing) (hs : s.step op = some s') :
    op.quiet := by
  unfold CloseOp.quiet
  split
  · simp [CloseWorld.step, CloseWorld.free, World.step, hpos] at hs
  · trivial

/-- In every reachable state. -/
theorem close_final (hs : closeSys.Reach s) : CloseFinal s := by
  have h := closeSys_inv.reach hs
  have hne : 0 < s.w.recv.closing → s.closers ≠ [] := fun hpos =>
    List.ne_nil_of_length_pos (h.closing ▸ hpos)
  refine ⟨⟨fun hpos => ?_, fun ⟨k, hk⟩ => ?_⟩, fun hpos => h.none_open (h.off (hne hpos)),
    fun hpos op s' hst => ?_, fun k s' ops t hst hr hq => ?_⟩
  · obtain ⟨k, hk⟩ := List.exists_mem_of_ne_nil _ (hne hpos)
    exact ⟨k, (h.mem_iff k).mp hk⟩
  · rw [h.closing]
    exact List.length_pos_of_mem ((h.mem_iff k).mpr hk)
  · have hq := CloseWorld.quiet_of_closing hpos hst
    exact (h.step hst).none_open (h.step_off hq hst (h.off (hne hpos)))
  · have hk : s.close k = .unlocked := by
      by_contra hk
      simp [CloseWorld.step, hk] at hst
    have hq' : (CloseOp.closeEnd k).quiet := trivial
    have hc := (h.toClosed (k := k) (by rw [hk]; rfl)).step hq' hst
    have ht := hc.run hr hq
    exact ⟨ht.rxSocket, ht.off⟩

/-- An accept is in progress when the first of two closes begins, and opens the socket; the first
close forgets it before the second one begins. -/
def overlappingRun : List CloseOp :=
  [.stream 0 .subscribe, .stream 0 (.spawned 0), .stream 0 (.decide 0), .pollLock 0, .pollCheck 0,
    .closeBegin 0 1, .pollAccept 0 ⟨⟨some 7, cspErrNone, cspErrNone⟩, none, fun _ => .data none⟩,
    .pollUnlock 0, .closeLock 0, .closeSocket 0, .closeBegin 1 2, .closeUnlock 0]

theorem close_final_overlapping : ∃ s,
    closeSys.exec (.new 0 .zero
      { Instance.new ⟨1, 10, .loopback, [], []⟩ with initialized := true })
      overlappingRun = some s ∧ s.w.recv.closing = 2 ∧ s.globals.globalRxSocket = some 7 ∧
      CloseFinal s := by
  obtain ⟨s, hs⟩ : ∃ s, closeSys.exec (.new 0 .zero
      { Instance.new ⟨1, 10, .loopback, [], []⟩ with initialized := true })
      overlappingRun = some s :=
    ⟨_, rfl⟩
  have hf : (closeSys.exec (.new 0 .zero
      { Instance.new ⟨1, 10, .loopback, [], []⟩ with initialized := true }) overlappingRun).map
        (fun s => (s.w.recv.closing, s.globals.globalRxSocket)) = some (2, some 7) := by decide
  rw [hs, Option.map_some, Option.some.injEq, Prod.mk.injEq] at hf
  exact ⟨s, hs, hf.1, hf.2, close_final (.of_exec ⟨0, _, _, rfl, rfl⟩ hs)⟩

end Cspcl.Inbound
