import Cspcl.Lib.Custody
import Cspcl.Lib.Lts
import Cspcl.Inbound.Lemmas

/-!
# The streams of a receiver and its accept thread

`streamSys`: any interleaving of the lock sections of the listeners (`deliver`), of the calls of
`subscribe` (its lock section, the spawn of the accept thread, and `accept_failed` if that fails),
of the readers (`poll_next`, the drop of a stream), of `begin_close` and the drop of its guard,
and of the accept threads (`accept_loop`, a panic).

* `World`: the receiver, the control state of the accept thread that each stream started, and
  ghost state: the deliveries so far, and for each stream its status, the bundles that were
  pending when it was opened, and what it has yielded.
* `StreamsInv`: the list of open streams, their channels, and the calls of `subscribe`.
-/

namespace Cspcl.Inbound

/-- A bundle passed to `deliver`, with the number of the call. -/
structure Delivery where
  seq : Nat
  bundle : Bundle
  deriving DecidableEq, Repr

/-- The accept thread that the `subscribe` of a stream started, or has to start. -/
inductive Accept where
  /-- `subscribe` found an accept thread, or was not called yet. -/
  | idle
  /-- `subscribe` is about to spawn the thread. -/
  | claimed
  /-- The spawn failed and `accept_failed` did not run yet. -/
  | spawnFailed
  /-- `accept_failed` ran and `subscribe` did not return yet. -/
  | undone
  /-- `subscribe` returned a stream that ends with the error. -/
  | failed
  /-- The thread is at the top of its loop. -/
  | top
  /-- The thread waits for a slot, accepts or pauses. -/
  | busy
  /-- The thread decided to stop, or panicked. -/
  | stopped
  deriving DecidableEq, Repr

namespace Accept

/-- A thread that has not decided to stop. -/
def live : Accept → Bool
  | top | busy => true
  | _ => false

/-- A claimed spawn that did not happen yet and was not given up. -/
def starting : Accept → Bool
  | claimed | spawnFailed => true
  | _ => false

/-- The call of `subscribe` has not returned. -/
def inSubscribe : Accept → Bool
  | claimed | spawnFailed | undone => true
  | _ => false

/-- The thread could not be started and `accept_failed` undid the `subscribe`. -/
def gaveUp : Accept → Bool
  | undone | failed => true
  | _ => false

end Accept

/-- What happened to a stream. -/
inductive Status where
  | unopened
  | open
  /-- Ended by a close, by a panic or by a failed start of the accept thread. -/
  | ended
  | dropped
  deriving DecidableEq, Repr

/-- The receiver, its threads, and what happened so far. -/
structure World where
  recv : Receiver Delivery
  thread : Nat → Accept
  status : Nat → Status
  delivered : List Delivery
  opening : Nat → List Delivery
  yielded : Nat → List (Item Delivery)

/-- A step of a thread; `id`: the stream, or the stream whose `subscribe` started the thread. -/
inductive Op where
  | deliver (item : Item Bundle)
  | subscribe
  | spawned (id : Nat)
  | spawnFailed (id : Nat)
  | acceptFailed (id : Nat)
  | sendSpawnError (id : Nat)
  | pollNext (id : Nat)
  | unsubscribe (id : Nat)
  | beginClose
  | closeGuardDrop
  /-- The decision at the top of `accept_loop`. -/
  | decide (id : Nat)
  /-- The rest of the loop's body, with the error that it delivers. -/
  | iterate (id : Nat) (failure : Option Error)
  /-- A panic of the accept thread and the drop of its guard. -/
  | panic (id : Nat)

namespace World

/-- The world of a new instance. -/
def new (now : Nat) : World where
  recv := .new now
  thread _ := .idle
  status _ := .unopened
  delivered := []
  opening _ := []
  yielded _ := []

def setThread (w : World) (id : Nat) (a : Accept) : World :=
  { w with thread := Function.update w.thread id a }

def setStatus (w : World) (id : Nat) (a : Status) : World :=
  { w with status := Function.update w.status id a }

/-- All open streams end. -/
def endAll (w : World) : World :=
  { w with status := fun id => if w.status id = .open then .ended else w.status id }

/-- `Receiver::deliver`, the next delivery. -/
def deliver (w : World) : Item Bundle → World
  | .ok bundle =>
    let d : Delivery := ⟨w.delivered.length, bundle⟩
    { w with recv := w.recv.deliver (.ok d), delivered := w.delivered ++ [d] }
  | .error e => { w with recv := w.recv.deliver (.error e) }

/-- A reader has the stream: `subscribe` returned it and it was not dropped. -/
def held (w : World) (id : Nat) : Bool :=
  (w.status id == .open || w.status id == .ended) && !(w.thread id).inSubscribe

/-- One step, at the time `now`. -/
def step (w : World) : Nat × Op → Option World
  | (_, .deliver item) => some (w.deliver item)
  | (_, .subscribe) =>
    if w.recv.closing > 0 then none
    else
      let (id, startAccept, recv) := w.recv.subscribe
      some { w with
        recv
        thread := if startAccept then Function.update w.thread id .claimed else w.thread
        status := Function.update w.status id .open
        opening := Function.update w.opening id w.recv.pending }
  | (_, .spawned id) =>
    if w.thread id = .claimed then some (w.setThread id .top) else none
  | (_, .spawnFailed id) =>
    if w.thread id = .claimed then some (w.setThread id .spawnFailed) else none
  | (now, .acceptFailed id) =>
    if w.thread id = .spawnFailed then
      some { w.endAll.setThread id .undone with recv := w.recv.acceptFailed id now }
    else none
  | (_, .sendSpawnError id) =>
    if w.thread id = .undone then
      some { w.setThread id .failed with
        recv := w.recv.setChan id ((w.recv.chan id).sendOrDrop (.error .spawn)) }
    else none
  | (_, .pollNext id) =>
    if w.held id then
      match w.recv.pollNext id (w.thread id).inSubscribe with
      | (.ready item, recv) =>
        some { w with recv, yielded := Function.update w.yielded id (w.yielded id ++ [item]) }
      | (_, recv) => some { w with recv }
    else none
  | (now, .unsubscribe id) =>
    if w.held id then some { w.setStatus id .dropped with recv := w.recv.unsubscribe id now }
    else none
  | (now, .beginClose) => some { w.endAll with recv := w.recv.beginClose now }
  | (_, .closeGuardDrop) =>
    if w.recv.closing > 0 then some { w with recv := w.recv.closeGuardDrop } else none
  | (_, .decide id) =>
    if w.thread id = .top then
      let (on, recv) := w.recv.decideAccept
      some { w.setThread id (if on then .busy else .stopped) with recv }
    else none
  | (_, .iterate id failure) =>
    if w.thread id = .busy then
      let w := w.setThread id .top
      match failure with
      | some e => some (w.deliver (.error e))
      | none => some w
    else none
  | (now, .panic id) =>
    if (w.thread id).live then
      some { w.endAll.setThread id .stopped with recv := w.recv.acceptGuardDrop now }
    else none

end World

/-- All interleavings, from a new instance. -/
def streamSys : Lts World (Nat × Op) where
  init w := ∃ now, w = .new now
  step := World.step

/-- The open streams are the subscribers, oldest first; the ids, the channels and the calls of
`subscribe` agree with the streams' status. -/
structure StreamsInv (w : World) : Prop where
  sorted : w.recv.subscribers.Pairwise (· < ·)
  mem_iff : ∀ id, id ∈ w.recv.subscribers ↔ w.status id = .open
  unopened_iff : ∀ id, w.status id = .unopened ↔ w.recv.nextId ≤ id
  closed_iff : ∀ id, (w.recv.chan id).closed = true ↔ w.status id = .dropped
  idle : ∀ id, w.status id = .unopened → w.thread id = .idle
  inSubscribe : ∀ id, (w.thread id).inSubscribe = true → w.status id ≠ .dropped
  gaveUp : ∀ id, (w.thread id).gaveUp = true → w.status id ≠ .open

variable {w w' : World} {now id : Nat} {op : Op}

/-- What a poll does: the head of the queue is yielded, or nothing changes. -/
theorem World.pollNext_cases (hs : w.step (now, .pollNext id) = some w') : w.held id = true ∧
    ((∃ item rest, (w.recv.chan id).queue = item :: rest ∧
      w' = { w with recv := w.recv.setChan id { w.recv.chan id with queue := rest },
                    yielded := Function.update w.yielded id (w.yielded id ++ [item]) }) ∨
    ((w.recv.chan id).queue = [] ∧ w' = w)) := by
  simp only [World.step, Receiver.pollNext] at hs
  split at hs
  · rename_i hheld
    refine ⟨hheld, ?_⟩
    cases hq : (w.recv.chan id).queue with
    | nil =>
      simp only [Chan.poll_nil hq, Receiver.setChan, Function.update_eq_self] at hs
      split at hs
      · rename_i heq
        split at heq <;> simp at heq
      · rename_i heq
        simp only [Prod.mk.injEq] at heq
        simp only [Option.some.injEq] at hs
        exact .inr ⟨rfl, by rw [← hs, ← heq.2]⟩
    | cons item rest =>
      simp only [Chan.poll_cons hq, Option.some.injEq] at hs
      exact .inl ⟨item, rest, rfl, hs.symm⟩
  · cases hs

namespace StreamsInv

theorem nodup (h : StreamsInv w) : w.recv.subscribers.Nodup :=
  h.sorted.imp fun h => Nat.ne_of_lt h

/-- The channel of an open stream is open. -/
theorem open_chan (h : StreamsInv w) :
    ∀ k ∈ w.recv.subscribers, (w.recv.chan k).closed = false := by
  intro k hk
  by_contra hc
  have hd := (h.closed_iff k).mp (by simpa using hc)
  rw [(h.mem_iff k).mp hk] at hd
  cases hd

theorem lt_nextId (h : StreamsInv w) (hk : id ∈ w.recv.subscribers) : id < w.recv.nextId := by
  by_contra hlt
  have hu := (h.unopened_iff id).mpr (by omega)
  rw [(h.mem_iff id).mp hk] at hu
  cases hu

/-- A step of a thread that opens, ends or drops no stream. -/
theorem of_thread (h : StreamsInv w) (hs : w'.recv.subscribers = w.recv.subscribers)
    (hn : w'.recv.nextId = w.recv.nextId)
    (hc : ∀ i, (w'.recv.chan i).closed = (w.recv.chan i).closed) (hst : w'.status = w.status)
    (ht : ∀ i, w'.thread i = w.thread i ∨ w.thread i ≠ .idle ∧
      ((w'.thread i).inSubscribe = true → (w.thread i).inSubscribe = true) ∧
      ((w'.thread i).gaveUp = true → (w.thread i).gaveUp = true)) : StreamsInv w' where
  sorted := hs ▸ h.sorted
  mem_iff := by simpa [hs, hst] using h.mem_iff
  unopened_iff := by simpa [hn, hst] using h.unopened_iff
  closed_iff := by simpa [hc, hst] using h.closed_iff
  idle i hi := by
    rw [hst] at hi
    rcases ht i with heq | ⟨hne, -, -⟩
    · rw [heq, h.idle i hi]
    · exact absurd (h.idle i hi) hne
  inSubscribe i hi := by
    rw [hst]
    rcases ht i with heq | ⟨-, hin, -⟩
    · exact h.inSubscribe i (heq ▸ hi)
    · exact h.inSubscribe i (hin hi)
  gaveUp i hi := by
    rw [hst]
    rcases ht i with heq | ⟨-, -, hg⟩
    · exact h.gaveUp i (heq ▸ hi)
    · exact h.gaveUp i (hg hi)

/-- All open streams end. -/
theorem ended (h : StreamsInv w) (hs : w'.recv.subscribers = [])
    (hn : w'.recv.nextId = w.recv.nextId)
    (hc : ∀ i, (w'.recv.chan i).closed = (w.recv.chan i).closed)
    (hst : w'.status = w.endAll.status)
    (ht : ∀ i, w'.thread i = w.thread i ∨ w.thread i ≠ .idle ∧
      ((w'.thread i).inSubscribe = true → (w.thread i).inSubscribe = true)) : StreamsInv w' where
  sorted := by simp [hs]
  mem_iff i := by
    rw [hs, hst]
    simp only [List.not_mem_nil, World.endAll, false_iff]
    split <;> simp_all
  unopened_iff i := by
    rw [hn, hst, ← h.unopened_iff i, World.endAll]
    dsimp only
    split <;> simp_all
  closed_iff i := by
    rw [hc, hst, h.closed_iff i, World.endAll]
    dsimp only
    split <;> simp_all
  idle i hi := by
    have hu : w.status i = .unopened := by
      rw [hst, World.endAll] at hi
      dsimp only at hi
      split at hi <;> simp_all
    rcases ht i with heq | ⟨hne, -⟩
    · rw [heq, h.idle i hu]
    · exact absurd (h.idle i hu) hne
  inSubscribe i hi := by
    have hd : w.status i ≠ .dropped := by
      rcases ht i with heq | ⟨-, hin⟩
      · exact h.inSubscribe i (heq ▸ hi)
      · exact h.inSubscribe i (hin hi)
    rw [hst, World.endAll]
    dsimp only
    split <;> simp_all
  gaveUp i _ := by
    rw [hst, World.endAll]
    dsimp only
    split <;> simp_all

theorem deliver {item : Item Bundle} (h : StreamsInv w) : StreamsInv (w.deliver item) := by
  have hd (it : Item Delivery) : (w.recv.deliver it).subscribers = w.recv.subscribers ∧
      (w.recv.deliver it).nextId = w.recv.nextId ∧
      ∀ i, ((w.recv.deliver it).chan i).closed = (w.recv.chan i).closed := by
    rcases Receiver.deliver_cases it h.open_chan with ⟨-, heq⟩ | ⟨k, hk, heq⟩
    · simp [heq]
    · refine ⟨by simp [heq], by simp [heq, Receiver.setChan], fun i => ?_⟩
      have ho := h.open_chan k (List.mem_of_getLast? hk)
      rw [heq, Receiver.chan_setChan]
      split <;> simp_all
  cases item with
  | ok b => exact h.of_thread (hd _).1 (hd _).2.1 (hd _).2.2 rfl fun i => .inl rfl
  | error e => exact h.of_thread (hd _).1 (hd _).2.1 (hd _).2.2 rfl fun i => .inl rfl

theorem subscribe (h : StreamsInv w) (hs : w.step (now, .subscribe) = some w') :
    StreamsInv w' := by
  simp only [World.step, Receiver.subscribe_spec] at hs
  split at hs
  · cases hs
  simp only [Option.some.injEq] at hs
  subst hs
  have hu := (h.unopened_iff w.recv.nextId).mpr (Nat.le_refl _)
  refine ⟨?_, fun i => ?_, fun i => ?_, fun i => ?_, fun i hi => ?_, fun i hi => ?_, fun i hi => ?_⟩
  · simpa [List.pairwise_append, h.sorted] using fun i hi => h.lt_nextId hi
  · by_cases hid : i = w.recv.nextId
    · simp [hid]
    · simp [hid, h.mem_iff]
  · by_cases hid : i = w.recv.nextId
    · simp [hid]
    · simp only [Function.update_of_ne hid, h.unopened_iff]
      omega
  · by_cases hid : i = w.recv.nextId
    · simp [hid]
    · simpa [hid] using h.closed_iff i
  · have hid : i ≠ w.recv.nextId := by rintro rfl; simp at hi
    simp only [Function.update_of_ne hid] at hi
    split <;> simp [hid, h.idle i hi]
  · by_cases hid : i = w.recv.nextId
    · simp [hid]
    · simp only [Function.update_of_ne hid]
      refine h.inSubscribe i ?_
      split at hi <;> simpa [hid] using hi
  · have hid : i ≠ w.recv.nextId := by
      rintro rfl
      split at hi <;> simp [Accept.gaveUp, h.idle _ hu] at hi
    simp only [Function.update_of_ne hid]
    refine h.gaveUp i ?_
    split at hi <;> simpa [hid] using hi

theorem unsubscribe (h : StreamsInv w) (hs : w.step (now, .unsubscribe id) = some w') :
    StreamsInv w' := by
  simp only [World.step] at hs
  split at hs
  · rename_i hheld
    simp only [Option.some.injEq] at hs
    subst hs
    have hr : (w.recv.unsubscribe id now).subscribers = w.recv.subscribers.filter (· ≠ id) ∧
        (w.recv.unsubscribe id now).nextId = w.recv.nextId ∧
        ∀ i, ((w.recv.unsubscribe id now).chan i).closed =
          (decide (i = id) || (w.recv.chan i).closed) := by
      rcases Receiver.unsubscribe_cases id now h.open_chan with
        ⟨hn, heq⟩ | ⟨k, hk, hki, heq⟩
      · rw [heq]
        refine ⟨hn.symm, rfl, fun i => ?_⟩
        by_cases hi : i = id <;> simp [hi]
      · rw [heq]
        refine ⟨rfl, rfl, fun i => ?_⟩
        have ho := h.open_chan k (List.mem_filter.mp (List.mem_of_getLast? hk)).1
        by_cases hik : i = k
        · subst hik; simp [hki, ho]
        · by_cases hi : i = id <;> simp [hi, hik, Ne.symm hki]
    simp only [World.held, Bool.and_eq_true, Bool.or_eq_true, beq_iff_eq,
      Bool.not_eq_true'] at hheld
    refine ⟨?_, fun i => ?_, fun i => ?_, fun i => ?_, fun i hi => ?_, fun i hi => ?_,
      fun i hi => ?_⟩
    · exact hr.1 ▸ h.sorted.filter _
    · rw [hr.1, List.mem_filter, h.mem_iff]
      by_cases hid : i = id <;> simp [World.setStatus, hid]
    · rw [hr.2.1, ← h.unopened_iff]
      by_cases hid : i = id
      · subst hid
        simp only [World.setStatus, Function.update_self]
        rcases hheld.1 with ho | ho <;> simp [ho]
      · simp [World.setStatus, hid]
    · rw [hr.2.2]
      by_cases hid : i = id
      · simp [World.setStatus, hid]
      · simpa [World.setStatus, hid] using h.closed_iff i
    · have hid : i ≠ id := by rintro rfl; simp [World.setStatus] at hi
      exact h.idle i (by simpa [World.setStatus, hid] using hi)
    · have hid : i ≠ id := by
        rintro rfl
        simp [World.setStatus, hheld.2] at hi
      simpa [World.setStatus, hid] using h.inSubscribe i hi
    · by_cases hid : i = id
      · simp [World.setStatus, hid]
      · simpa [World.setStatus, hid] using h.gaveUp i hi
  · cases hs

/-- The control state of one accept thread changes, and it does not enter `subscribe`. -/
theorem thread_update {a : Accept} (hi : w.thread id ≠ .idle)
    (ha : a.inSubscribe = true → (w.thread id).inSubscribe = true) (i : Nat) :
    Function.update w.thread id a i = w.thread i ∨ w.thread i ≠ .idle ∧
      ((Function.update w.thread id a i).inSubscribe = true → (w.thread i).inSubscribe = true) := by
  by_cases hid : i = id
  · subst hid
    exact .inr ⟨hi, by simpa using ha⟩
  · exact .inl (by simp [hid])

theorem step (h : StreamsInv w) (hs : w.step (now, op) = some w') : StreamsInv w' := by
  cases op with
  | deliver item =>
    simp only [World.step, Option.some.injEq] at hs
    subst hs
    exact h.deliver
  | subscribe => exact h.subscribe hs
  | unsubscribe id => exact h.unsubscribe hs
  | spawned id | spawnFailed id =>
    simp only [World.step] at hs
    split at hs
    · rename_i ht
      simp only [Option.some.injEq] at hs
      subst hs
      refine h.of_thread rfl rfl (fun _ => rfl) rfl fun i => ?_
      by_cases hid : i = id
      · subst hid
        exact .inr (by simp [ht, World.setThread, Accept.inSubscribe, Accept.gaveUp])
      · exact .inl (by simp [World.setThread, hid])
    · cases hs
  | acceptFailed id =>
    simp only [World.step, Receiver.acceptFailed_spec h.nodup] at hs
    split at hs
    · rename_i ht
      simp only [Option.some.injEq] at hs
      subst hs
      refine h.ended rfl rfl (fun i => ?_) rfl 
        (thread_update (w := w) (by simp [ht]) (by simp [ht, Accept.inSubscribe]))
      dsimp only
      split
      · rfl
      · split <;> simp
    · cases hs
  | sendSpawnError id =>
    simp only [World.step] at hs
    split at hs
    · rename_i ht
      simp only [Option.some.injEq] at hs
      subst hs
      refine h.of_thread rfl rfl (fun i => ?_) rfl fun i => ?_
      · simp only [Receiver.chan_setChan]
        split <;> simp_all
      · by_cases hid : i = id
        · subst hid
          exact .inr (by simp [ht, World.setThread, Accept.inSubscribe, Accept.gaveUp])
        · exact .inl (by simp [World.setThread, hid])
    · cases hs
  | pollNext id =>
    obtain ⟨-, ⟨item, rest, -, rfl⟩ | ⟨-, rfl⟩⟩ := World.pollNext_cases hs
    · refine h.of_thread rfl rfl (fun i => ?_) rfl fun _ => .inl rfl
      rw [Receiver.chan_setChan]
      split <;> simp_all
    · exact h
  | beginClose =>
    simp only [World.step, Option.some.injEq] at hs
    subst hs
    exact h.ended rfl rfl (fun _ => rfl) rfl fun _ => .inl rfl
  | closeGuardDrop =>
    simp only [World.step] at hs
    split at hs
    · simp only [Option.some.injEq] at hs
      subst hs
      exact h.of_thread rfl rfl (fun _ => rfl) rfl fun _ => .inl rfl
    · cases hs
  | decide id =>
    simp only [World.step] at hs
    split at hs
    · rename_i ht
      simp only [Option.some.injEq] at hs
      subst hs
      have hsame : w.recv.decideAccept.2.subscribers = w.recv.subscribers ∧
          w.recv.decideAccept.2.nextId = w.recv.nextId ∧
          w.recv.decideAccept.2.chan = w.recv.chan := by
        unfold Receiver.decideAccept
        split <;> exact ⟨rfl, rfl, rfl⟩
      refine h.of_thread hsame.1 hsame.2.1 (fun _ => by rw [hsame.2.2]) rfl fun i => ?_
      by_cases hid : i = id
      · subst hid
        refine .inr ⟨by simp [ht], ?_⟩
        simp only [World.setThread, Function.update_self]
        split <;> simp [Accept.inSubscribe, Accept.gaveUp]
      · exact .inl (by simp [World.setThread, hid])
    · cases hs
  | iterate id failure =>
    simp only [World.step] at hs
    split at hs
    · rename_i ht
      have hthread : StreamsInv (w.setThread id .top) := by
        refine h.of_thread rfl rfl (fun _ => rfl) rfl fun i => ?_
        by_cases hid : i = id
        · subst hid
          exact .inr (by simp [ht, World.setThread, Accept.inSubscribe, Accept.gaveUp])
        · exact .inl (by simp [World.setThread, hid])
      split at hs <;> simp only [Option.some.injEq] at hs <;> subst hs
      · exact hthread.deliver
      · exact hthread
    · cases hs
  | panic id =>
    simp only [World.step] at hs
    split at hs
    · rename_i ht
      simp only [Option.some.injEq] at hs
      subst hs
      exact h.ended rfl rfl (fun _ => rfl) rfl
        (thread_update (w := w) (by rintro hi; simp [hi, Accept.live] at ht)
          (by simp [Accept.inSubscribe]))
    · cases hs

end StreamsInv

theorem streamsInv_inductive : streamSys.Inductive StreamsInv where
  init := by
    rintro w ⟨now, rfl⟩
    constructor <;> simp [World.new, Receiver.new, Chan.new, Accept.inSubscribe, Accept.gaveUp]
  step := fun _ ⟨_, _⟩ _ h hs => h.step hs

/-! ## Receiving and the count of the closes -/

/-- The count of the closes after a step. -/
def World.closingAfter (w : World) : Op → Nat
  | .beginClose => w.recv.closing + 1
  | .closeGuardDrop => w.recv.closing - 1
  | _ => w.recv.closing

/-- The steps that may turn receiving off. -/
def Op.stops : Op → Bool
  | .unsubscribe _ | .acceptFailed _ | .beginClose | .panic _ => true
  | _ => false

/-- What a step does to the count of the closes and to the time of the stop: it leaves that as it
is, or turns receiving on or off as `set_receiving` does. -/
theorem World.step_switch (hst : StreamsInv w) (hs : w.step (now, op) = some w') :
    w'.recv.closing = w.closingAfter op ∧ (w'.recv.stoppedAt = w.recv.stoppedAt ∨
      op = .subscribe ∧ w'.recv.stoppedAt = (w.recv.setReceiving true now).stoppedAt ∨
      op.stops = true ∧ w'.recv.stoppedAt = (w.recv.setReceiving false now).stoppedAt) := by
  have hd (it : Item Delivery) : (w.recv.deliver it).closing = w.recv.closing ∧
      (w.recv.deliver it).stoppedAt = w.recv.stoppedAt := by
    rcases Receiver.deliver_cases it hst.open_chan with ⟨-, heq⟩ | ⟨k, -, heq⟩
    · rw [heq]; cases it <;> exact ⟨rfl, rfl⟩
    · rw [heq]; exact ⟨rfl, rfl⟩
  cases op with
  | deliver item =>
    obtain rfl := Option.some.inj hs
    cases item <;> exact ⟨(hd _).1, .inl (hd _).2⟩
  | subscribe =>
    simp only [World.step, Receiver.subscribe_spec] at hs
    split at hs
    · cases hs
    · obtain rfl := Option.some.inj hs
      exact ⟨rfl, .inr (.inl ⟨rfl, rfl⟩)⟩
  | spawned id | spawnFailed id | sendSpawnError id | closeGuardDrop =>
    simp only [World.step] at hs
    split at hs
    · obtain rfl := Option.some.inj hs
      exact ⟨rfl, .inl rfl⟩
    · cases hs
  | acceptFailed id =>
    simp only [World.step, Receiver.acceptFailed_spec hst.nodup] at hs
    split at hs
    · obtain rfl := Option.some.inj hs
      exact ⟨rfl, .inr (.inr ⟨rfl, rfl⟩)⟩
    · cases hs
  | pollNext id =>
    obtain ⟨-, ⟨item, rest, -, rfl⟩ | ⟨-, rfl⟩⟩ := World.pollNext_cases hs <;>
      exact ⟨rfl, .inl rfl⟩
  | unsubscribe id =>
    simp only [World.step] at hs
    split at hs
    · obtain rfl := Option.some.inj hs
      dsimp only
      rcases Receiver.unsubscribe_cases id now hst.open_chan with ⟨-, heq⟩ | ⟨k, -, -, heq⟩
      · rw [heq]
        exact ⟨rfl, .inr (.inr ⟨rfl, rfl⟩)⟩
      · rw [heq]
        exact ⟨rfl, .inl rfl⟩
    · cases hs
  | beginClose =>
    obtain rfl := Option.some.inj hs
    exact ⟨rfl, .inr (.inr ⟨rfl, rfl⟩)⟩
  | decide id =>
    simp only [World.step, Receiver.decideAccept] at hs
    split at hs
    · split at hs <;> obtain rfl := Option.some.inj hs <;> exact ⟨rfl, .inl rfl⟩
    · cases hs
  | iterate id failure =>
    simp only [World.step] at hs
    split at hs
    · split at hs <;> obtain rfl := Option.some.inj hs
      · exact ⟨(hd _).1, .inl (hd _).2⟩
      · exact ⟨rfl, .inl rfl⟩
    · cases hs
  | panic id =>
    simp only [World.step] at hs
    split at hs
    · obtain rfl := Option.some.inj hs
      exact ⟨rfl, .inr (.inr ⟨rfl, rfl⟩)⟩
    · cases hs

/-- Only `subscribe` turns receiving on, and only the steps of `Op.stops` turn it off. -/
theorem World.step_flags (hst : StreamsInv w) (hs : w.step (now, op) = some w') :
    w'.recv.closing = w.closingAfter op ∧
      (op ≠ .subscribe → w.recv.isReceiving = false → w'.recv.isReceiving = false) ∧
      (op.stops = false → w.recv.isReceiving = true → w'.recv.isReceiving = true) := by
  obtain ⟨hclosing, hstop⟩ := World.step_switch hst hs
  refine ⟨hclosing, fun hne hoff => ?_, fun hno hon => ?_⟩ <;> unfold Receiver.isReceiving at *
  · rcases hstop with heq | ⟨hsub, -⟩ | ⟨-, heq⟩
    · rw [heq, hoff]
    · exact absurd hsub hne
    · rw [heq, Receiver.setReceiving]
      cases w.recv.stoppedAt <;> rfl
  · rcases hstop with heq | ⟨-, heq⟩ | ⟨hstops, -⟩
    · rw [heq, hon]
    · rw [heq]
      rfl
    · rw [hno] at hstops
      cases hstops

end Cspcl.Inbound
