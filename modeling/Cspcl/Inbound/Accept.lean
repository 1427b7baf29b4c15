import Cspcl.Inbound.Streams

/-!
# The accept thread of a receiver

`AcceptInv`: receiving is on while a stream is open, and `accept_running` stands for the one
accept thread that runs or is being started. `one_accept_thread` is what it gives in every
reachable state.
-/

namespace Cspcl.Inbound

/-- A thread that runs, or that a `subscribe` has claimed. -/
def Accept.active (a : Accept) : Bool := a.live || a.starting

/-- Receiving follows the list of streams, and `accept_running` the accept thread. -/
structure AcceptInv (w : World) : Prop where
  receiving_iff : w.recv.isReceiving = true ↔ w.recv.subscribers ≠ []
  running_iff : w.recv.acceptRunning = true ↔ ∃ id, (w.thread id).active = true
  unique : ∀ i j, (w.thread i).active = true → (w.thread j).active = true → i = j
  running : w.recv.isReceiving = true → w.recv.acceptRunning = true

variable {w w' : World} {now id : Nat} {op : Op} {a : Accept}

namespace AcceptInv

/-- A step that changes none of the flags and no thread's activity. -/
theorem of_active (h : AcceptInv w) (hs : w'.recv.subscribers = w.recv.subscribers)
    (hst : w'.recv.stoppedAt = w.recv.stoppedAt)
    (hr : w'.recv.acceptRunning = w.recv.acceptRunning)
    (ht : ∀ i, (w'.thread i).active = (w.thread i).active) : AcceptInv w' where
  receiving_iff := by simpa [Receiver.isReceiving, hst, hs] using h.receiving_iff
  running_iff := by simpa [hr, ht] using h.running_iff
  unique := by simpa [ht] using h.unique
  running := by simpa [Receiver.isReceiving, hst, hr] using h.running

theorem active_update (i : Nat) (ha : a.active = (w.thread id).active) :
    (Function.update w.thread id a i).active = (w.thread i).active := by
  by_cases hi : i = id
  · subst hi; simp [ha]
  · simp [hi]

/-- The active thread becomes inactive: no other one is active. -/
theorem none_active (h : AcceptInv w) (id : Nat) (hid : (w.thread id).active = true)
    (ha : a.active = false) (i : Nat) : (Function.update w.thread id a i).active = false := by
  by_cases hi : i = id
  · subst hi; simpa using ha
  · rw [Function.update_of_ne hi]
    by_contra hact
    exact hi (h.unique i id (by simpa using hact) hid)

/-- A state in which no thread is active, nothing is received and the flag is clear. -/
theorem of_none (hs : w.recv.subscribers = []) (hst : w.recv.isReceiving = false)
    (hr : w.recv.acceptRunning = false) (ht : ∀ i, (w.thread i).active = false) : AcceptInv w where
  receiving_iff := by simp [hs, hst]
  running_iff := by simp [hr, ht]
  unique i _ hi := by simp [ht] at hi
  running hi := by simp [hst] at hi

theorem deliver {item : Item Bundle} (h : AcceptInv w) (hst : StreamsInv w) :
    AcceptInv (w.deliver item) := by
  have hd (it : Item Delivery) : (w.recv.deliver it).subscribers = w.recv.subscribers ∧
      (w.recv.deliver it).stoppedAt = w.recv.stoppedAt ∧
      (w.recv.deliver it).acceptRunning = w.recv.acceptRunning := by
    rcases Receiver.deliver_cases it hst.open_chan with ⟨-, heq⟩ | ⟨k, -, heq⟩
    · simp [heq]
    · rw [heq]; exact ⟨rfl, rfl, rfl⟩
  cases item <;> exact h.of_active (hd _).1 (hd _).2.1 (hd _).2.2 fun _ => rfl

theorem subscribe (h : AcceptInv w) (hst : StreamsInv w)
    (hs : w.step (now, .subscribe) = some w') : AcceptInv w' := by
  simp only [World.step, Receiver.subscribe_spec] at hs
  split at hs
  · cases hs
  simp only [Option.some.injEq] at hs
  subst hs
  have hidle := hst.idle _ ((hst.unopened_iff w.recv.nextId).mpr (Nat.le_refl _))
  by_cases hr : w.recv.acceptRunning = true
  · -- An accept thread runs or is claimed: this stream counts on it.
    refine ⟨by simp [Receiver.isReceiving], ?_, ?_, fun _ => rfl⟩
    · simpa [hr] using h.running_iff
    · simpa [hr] using h.unique
  · -- The spawn is claimed; no thread was active.
    have hnone : ∀ i, (w.thread i).active ≠ true := fun i hi => hr (h.running_iff.mpr ⟨i, hi⟩)
    have hact : ∀ i, (Function.update w.thread w.recv.nextId .claimed i).active = true →
        i = w.recv.nextId := fun i hi => by
      by_contra hne
      rw [Function.update_of_ne hne] at hi
      exact hnone i hi
    simp only [Bool.not_eq_true] at hr
    refine ⟨by simp [Receiver.isReceiving], ?_, ?_, fun _ => rfl⟩
    · simp only [hr, Bool.not_false, if_true, true_iff]
      exact ⟨w.recv.nextId, by simp [Accept.active, Accept.starting]⟩
    · simp only [hr, Bool.not_false, if_true]
      exact fun i j hi hj => (hact i hi).trans (hact j hj).symm

theorem unsubscribe (h : AcceptInv w) (hst : StreamsInv w)
    (hs : w.step (now, .unsubscribe id) = some w') : AcceptInv w' := by
  simp only [World.step] at hs
  split at hs
  · simp only [Option.some.injEq] at hs
    subst hs
    rcases Receiver.unsubscribe_cases id now hst.open_chan with
      ⟨hn, heq⟩ | ⟨k, hk, -, heq⟩
    · -- The last stream: receiving stops, the accept thread has not noticed yet.
      have hoff : (w.recv.unsubscribe id now).isReceiving = false := by
        rw [heq]; simp [Receiver.isReceiving]
      have hnil : (w.recv.unsubscribe id now).subscribers = [] := by rw [heq]
      refine ⟨by simp [hoff, hnil], ?_, h.unique, fun hi => by simp [hoff] at hi⟩
      simpa [World.setStatus, heq] using h.running_iff
    · have hne : w.recv.subscribers.filter (· ≠ id) ≠ [] := fun h0 => by rw [h0] at hk; cases hk
      have hne' : w.recv.subscribers ≠ [] := fun h0 => hne (by simp [h0])
      refine ⟨?_, ?_, h.unique, ?_⟩
      · have hon := h.receiving_iff.mpr hne'
        simp only [Receiver.isReceiving] at hon
        simp only [heq, Receiver.isReceiving, hon, true_iff]
        exact hne
      · simpa [World.setStatus, heq] using h.running_iff
      · simpa [World.setStatus, heq, Receiver.isReceiving] using h.running
  · cases hs

theorem step (h : AcceptInv w) (hst : StreamsInv w) (hs : w.step (now, op) = some w') :
    AcceptInv w' := by
  cases op with
  | deliver item =>
    simp only [World.step, Option.some.injEq] at hs
    subst hs
    exact h.deliver hst
  | subscribe => exact h.subscribe hst hs
  | unsubscribe id => exact h.unsubscribe hst hs
  | spawned id | spawnFailed id | sendSpawnError id =>
    simp only [World.step] at hs
    split at hs
    · rename_i ht
      simp only [Option.some.injEq] at hs
      subst hs
      exact h.of_active rfl rfl rfl fun i =>
        active_update i (by simp [ht, Accept.active, Accept.live, Accept.starting])
    · cases hs
  | acceptFailed id =>
    simp only [World.step, Receiver.acceptFailed_spec hst.nodup] at hs
    split at hs
    · rename_i ht
      simp only [Option.some.injEq] at hs
      subst hs
      exact of_none rfl (by simp [Receiver.isReceiving]) rfl
        (h.none_active id (by simp [ht, Accept.active, Accept.starting]) rfl)
    · cases hs
  | pollNext id =>
    obtain ⟨-, ⟨item, rest, -, rfl⟩ | ⟨-, rfl⟩⟩ := World.pollNext_cases hs
    · exact h.of_active rfl rfl rfl fun _ => rfl
    · exact h
  | beginClose =>
    simp only [World.step, Option.some.injEq] at hs
    subst hs
    have hoff : (w.recv.beginClose now).isReceiving = false := by
      simp [Receiver.beginClose, Receiver.isReceiving, Receiver.setReceiving]
    have hnil : (w.recv.beginClose now).subscribers = [] := rfl
    exact ⟨by simp [hoff, hnil], h.running_iff, h.unique, fun hi => by simp [hoff] at hi⟩
  | closeGuardDrop =>
    simp only [World.step] at hs
    split at hs
    · simp only [Option.some.injEq] at hs
      subst hs
      exact h.of_active rfl rfl rfl fun _ => rfl
    · cases hs
  | decide id =>
    simp only [World.step] at hs
    split at hs
    · rename_i ht
      simp only [Option.some.injEq] at hs
      subst hs
      by_cases hon : w.recv.isReceiving = true
      · simp only [Receiver.decideAccept, hon, if_true]
        exact h.of_active rfl rfl rfl fun i =>
          active_update i (by simp [ht, Accept.active, Accept.live])
      · -- Receiving is off: the thread clears the flag and stops.
        simp only [Receiver.decideAccept, hon]
        simp only [Bool.not_eq_true] at hon
        have hnil : w.recv.subscribers = [] := by
          by_contra hne
          simp [h.receiving_iff.mpr hne] at hon
        exact of_none hnil hon rfl
          (h.none_active id (by simp [ht, Accept.active, Accept.live]) rfl)
    · cases hs
  | iterate id failure =>
    simp only [World.step] at hs
    split at hs
    · rename_i ht
      have hthread : AcceptInv (w.setThread id .top) := h.of_active rfl rfl rfl fun i =>
        active_update i (by simp [ht, Accept.active, Accept.live])
      have hst' : StreamsInv (w.setThread id .top) := by
        have : w.step (now, .iterate id none) = some (w.setThread id .top) := by
          simp [World.step, ht]
        exact hst.step this
      split at hs <;> simp only [Option.some.injEq] at hs <;> subst hs
      · exact hthread.deliver hst'
      · exact hthread
    · cases hs
  | panic id =>
    simp only [World.step] at hs
    split at hs
    · rename_i ht
      simp only [Option.some.injEq] at hs
      subst hs
      exact of_none rfl (by simp [Receiver.acceptGuardDrop, Receiver.setReceiving,
          Receiver.isReceiving]) rfl
        (h.none_active id (by simp [ht, Accept.active]) rfl)
    · cases hs

/-- A stream is open exactly while receiving is on. -/
theorem off_iff (h : AcceptInv w) : w.recv.isReceiving = false ↔ w.recv.subscribers = [] := by
  rw [← Bool.not_eq_true, h.receiving_iff, not_not]

end AcceptInv

theorem acceptInv_inductive : streamSys.Inductive fun w => StreamsInv w ∧ AcceptInv w := by
  refine streamsInv_inductive.given ?_ fun _ ⟨_, _⟩ _ hst h hs => h.step hst hs
  rintro w ⟨now, rfl⟩
  exact AcceptInv.of_none rfl rfl rfl fun _ => rfl

/-- How the accept thread follows the open streams. -/
structure OneAcceptThread (w : World) : Prop where
  receiving_iff : w.recv.isReceiving = true ↔ w.recv.subscribers ≠ []
  /-- The list of open streams. -/
  mem_iff : ∀ id, id ∈ w.recv.subscribers ↔ w.status id = .open
  one_live : ∀ i j, (w.thread i).live = true → (w.thread j).live = true → i = j
  running_iff : w.recv.acceptRunning = true ↔
    (∃ id, (w.thread id).live = true) ∨ ∃ id, (w.thread id).starting = true
  /-- While a stream is open, an accept thread runs, or is about to be started, or its failed
  start is about to end the stream. -/
  accepting : ∀ id, w.status id = .open → (∃ i, (w.thread i).live = true) ∨
    (∃ i, w.thread i = .claimed) ∨ ∃ i, w.thread i = .spawnFailed

/-- In every reachable state. -/
theorem one_accept_thread (hs : streamSys.Reach w) : OneAcceptThread w := by
  obtain ⟨hst, h⟩ := acceptInv_inductive.reach hs
  have hrun : w.recv.acceptRunning = true ↔
      (∃ id, (w.thread id).live = true) ∨ ∃ id, (w.thread id).starting = true := by
    simp [h.running_iff, Accept.active, exists_or]
  refine ⟨h.receiving_iff, hst.mem_iff, fun i j hi hj => ?_, hrun, fun id hid => ?_⟩
  · exact h.unique i j (by simp [Accept.active, hi]) (by simp [Accept.active, hj])
  · have hne := List.ne_nil_of_mem ((hst.mem_iff id).mpr hid)
    rcases hrun.mp (h.running (h.receiving_iff.mpr hne)) with hl | ⟨i, hi⟩
    · exact .inl hl
    · refine .inr ?_
      cases ht : w.thread i <;> simp [ht, Accept.starting] at hi
      · exact .inl ⟨i, ht⟩
      · exact .inr ⟨i, ht⟩

/-- The spawn of the first stream's accept thread fails after a second stream was opened. -/
def failedSpawnRun : List (Nat × Op) :=
  [(0, .subscribe), (0, .subscribe), (0, .deliver (.ok ⟨[7], 5, 20⟩)), (1, .spawnFailed 0),
    (1, .acceptFailed 0), (2, .subscribe), (2, .sendSpawnError 0)]

theorem one_accept_thread_failed_spawn : ∃ w, streamSys.exec (.new 0) failedSpawnRun = some w ∧
    w.recv.subscribers = [2] ∧ OneAcceptThread w := by
  obtain ⟨w, hw⟩ : ∃ w, streamSys.exec (.new 0) failedSpawnRun = some w := ⟨_, rfl⟩
  refine ⟨w, hw, ?_, one_accept_thread (.of_exec ⟨0, rfl⟩ hw)⟩
  have hs : (streamSys.exec (.new 0) failedSpawnRun).map (·.recv.subscribers) = some [2] := by
    decide
  simpa [hw] using hs

end Cspcl.Inbound
