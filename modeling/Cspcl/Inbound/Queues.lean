import Cspcl.Inbound.Streams

/-!
# The queues of the streams

`QueuesInv`: what the queues of the streams hold. A stream yields the bundles that were pending
when it was opened first, in their order; one that is unopened or dropped holds nothing.
-/

namespace Cspcl.Inbound

/-- What the streams' queues hold: a stream yields the bundles that were pending when it was
opened first, unless the start of its accept thread failed (`gaveUp`): then it yields no bundle. -/
structure QueuesInv (w : World) : Prop where
  unopened : ∀ id, w.status id = .unopened → (w.recv.chan id).queue = [] ∧ w.yielded id = []
  dropped : ∀ id, w.status id = .dropped → (w.recv.chan id).queue = []
  inSubscribe : ∀ id, (w.thread id).inSubscribe = true → w.yielded id = []
  gaveUp : ∀ id, (w.thread id).gaveUp = true →
    bundles (w.recv.chan id).queue = [] ∧ bundles (w.yielded id) = []
  opening : ∀ id, w.status id = .open ∨ w.status id = .ended → (w.thread id).gaveUp = false →
    (w.opening id).map Except.ok <+: w.yielded id ++ (w.recv.chan id).queue
  started : ∀ id, w.status id = .dropped → (w.thread id).gaveUp = false →
    w.yielded id <+: (w.opening id).map Except.ok ∨ (w.opening id).map Except.ok <+: w.yielded id

variable {w w' : World} {now id : Nat} {op : Op}

namespace QueuesInv

/-- A step that changes no stream but may add items to the queues of open ones, and bundles only
where no start has failed. -/
theorem of_append (h : QueuesInv w) (hst : w'.status = w.status)
    (hy : w'.yielded = w.yielded) (ho : w'.opening = w.opening)
    (ht : ∀ i, ((w'.thread i).inSubscribe = true → (w.thread i).inSubscribe = true) ∧
      (w'.thread i).gaveUp = (w.thread i).gaveUp)
    (hq : ∀ i, ∃ l, (w'.recv.chan i).queue = (w.recv.chan i).queue ++ l ∧
      (w.status i = .unopened ∨ w.status i = .dropped → l = []) ∧
      ((w.thread i).gaveUp = true → bundles l = [])) : QueuesInv w' where
  unopened i hi := by
    obtain ⟨l, hl, hnil, -⟩ := hq i
    rw [hst] at hi
    rw [hl, hnil (.inl hi), hy]
    simpa using h.unopened i hi
  dropped i hi := by
    obtain ⟨l, hl, hnil, -⟩ := hq i
    rw [hst] at hi
    rw [hl, hnil (.inr hi)]
    simpa using h.dropped i hi
  inSubscribe i hi := by
    rw [hy]
    exact h.inSubscribe i ((ht i).1 hi)
  gaveUp i hi := by
    obtain ⟨l, hl, -, hb⟩ := hq i
    rw [(ht i).2] at hi
    rw [hl, bundles_append, hb hi, hy]
    simpa using h.gaveUp i hi
  opening i hi hg := by
    obtain ⟨l, hl, -, -⟩ := hq i
    rw [hst] at hi
    rw [(ht i).2] at hg
    rw [ho, hy, hl, ← List.append_assoc]
    exact (h.opening i hi hg).trans (List.prefix_append _ _)
  started i hi hg := by
    rw [hst] at hi
    rw [(ht i).2] at hg
    rw [ho, hy]
    exact h.started i hi hg

/-- All open streams end. -/
theorem endAll (h : QueuesInv w) : QueuesInv w.endAll := by
  have hst : ∀ i, w.endAll.status i = if w.status i = .open then .ended else w.status i :=
    fun _ => rfl
  refine ⟨fun i hi => h.unopened i ?_, fun i hi => h.dropped i ?_, h.inSubscribe, h.gaveUp,
    fun i hi => h.opening i ?_, fun i hi => h.started i ?_⟩
  all_goals
    rw [hst] at hi
    split at hi <;> simp_all

theorem deliver {item : Item Bundle} (hst : StreamsInv w) (h : QueuesInv w) :
    QueuesInv (w.deliver item) := by
  have hd (it : Item Delivery) (i : Nat) :
      ∃ l, ((w.recv.deliver it).chan i).queue = (w.recv.chan i).queue ++ l ∧
        (w.status i = .unopened ∨ w.status i = .dropped → l = []) ∧
        ((w.thread i).gaveUp = true → bundles l = []) := by
    rcases Receiver.deliver_cases it hst.open_chan with ⟨-, heq⟩ | ⟨k, hk, heq⟩
    · exact ⟨[], by simp [heq]⟩
    · have hopen := (hst.mem_iff k).mp (List.mem_of_getLast? hk)
      by_cases hi : i = k
      · subst hi
        exact ⟨[it], by simp [heq], by simp [hopen], fun hg => absurd hopen (hst.gaveUp i hg)⟩
      · exact ⟨[], by simp [heq, Receiver.chan_setChan_ne hi]⟩
  cases item <;> exact h.of_append rfl rfl rfl (fun _ => ⟨fun hi => hi, rfl⟩) (hd _)

theorem subscribe (hst : StreamsInv w) (h : QueuesInv w)
    (hs : w.step (now, .subscribe) = some w') : QueuesInv w' := by
  simp only [World.step, Receiver.subscribe_spec] at hs
  split at hs
  · cases hs
  simp only [Option.some.injEq] at hs
  subst hs
  have hu := (hst.unopened_iff w.recv.nextId).mpr (Nat.le_refl _)
  have hy := (h.unopened _ hu).2
  have hthread (i : Nat) (hi : i ≠ w.recv.nextId) :
      (if (!w.recv.acceptRunning) = true then Function.update w.thread w.recv.nextId .claimed
        else w.thread) i = w.thread i := by
    split <;> simp [hi]
  refine ⟨fun i hi => ?_, fun i hi => ?_, fun i hi => ?_, fun i hi => ?_, fun i hi hg => ?_,
    fun i hi hg => ?_⟩
  · have hid : i ≠ w.recv.nextId := by rintro rfl; simp at hi
    simp only [Function.update_of_ne hid] at hi ⊢
    exact h.unopened i hi
  · have hid : i ≠ w.recv.nextId := by rintro rfl; simp at hi
    simp only [Function.update_of_ne hid] at hi ⊢
    exact h.dropped i hi
  · by_cases hid : i = w.recv.nextId
    · rw [hid]; exact hy
    · dsimp only at hi
      rw [hthread i hid] at hi
      exact h.inSubscribe i hi
  · have hid : i ≠ w.recv.nextId := by
      rintro rfl
      split at hi <;> simp [Accept.gaveUp, hst.idle _ hu] at hi
    dsimp only at hi ⊢
    rw [hthread i hid] at hi
    simp only [Function.update_of_ne hid]
    exact h.gaveUp i hi
  · by_cases hid : i = w.recv.nextId
    · subst hid
      simp [hy]
    · dsimp only at hg
      rw [hthread i hid] at hg
      simp only [Function.update_of_ne hid] at hi ⊢
      exact h.opening i hi hg
  · have hid : i ≠ w.recv.nextId := by rintro rfl; simp at hi
    dsimp only at hg
    rw [hthread i hid] at hg
    simp only [Function.update_of_ne hid] at hi ⊢
    exact h.started i hi hg

/-- The stream `id`, which has yielded nothing, gives its bundles back. -/
theorem giveUp (id : Nat) (h : QueuesInv w) (hst : w'.status = w.status)
    (hy : w'.yielded = w.yielded) (ho : w'.opening = w.opening)
    (ht : w'.thread = Function.update w.thread id .undone)
    (hq : ∀ i, i ≠ id → (w'.recv.chan i).queue = (w.recv.chan i).queue)
    (hqid : (w'.recv.chan id).queue = []) (hyid : w.yielded id = []) : QueuesInv w' where
  unopened i hi := by
    rw [hst] at hi
    rw [hy]
    by_cases hid : i = id
    · subst hid; exact ⟨hqid, hyid⟩
    · rw [hq i hid]; exact h.unopened i hi
  dropped i hi := by
    rw [hst] at hi
    by_cases hid : i = id
    · subst hid; exact hqid
    · rw [hq i hid]; exact h.dropped i hi
  inSubscribe i hi := by
    rw [hy]
    by_cases hid : i = id
    · subst hid; exact hyid
    · rw [ht, Function.update_of_ne hid] at hi
      exact h.inSubscribe i hi
  gaveUp i hi := by
    rw [hy]
    by_cases hid : i = id
    · subst hid; simp [hqid, hyid]
    · rw [ht, Function.update_of_ne hid] at hi
      rw [hq i hid]
      exact h.gaveUp i hi
  opening i hi hg := by
    have hid : i ≠ id := by rintro rfl; simp [ht, Accept.gaveUp] at hg
    rw [ht, Function.update_of_ne hid] at hg
    rw [hst] at hi
    rw [ho, hy, hq i hid]
    exact h.opening i hi hg
  started i hi hg := by
    have hid : i ≠ id := by rintro rfl; simp [ht, Accept.gaveUp] at hg
    rw [ht, Function.update_of_ne hid] at hg
    rw [hst] at hi
    rw [ho, hy]
    exact h.started i hi hg

theorem acceptFailed (hst : StreamsInv w) (h : QueuesInv w)
    (hs : w.step (now, .acceptFailed id) = some w') : QueuesInv w' := by
  simp only [World.step, Receiver.acceptFailed_spec hst.nodup] at hs
  split at hs
  · rename_i ht
    simp only [Option.some.injEq] at hs
    subst hs
    -- First the other open streams get the error, then this one gives its bundles back.
    let chan := fun i => if i ∈ w.recv.subscribers then
      (w.recv.chan i).sendOrDrop (.error .spawn) else w.recv.chan i
    have hw : QueuesInv { w.endAll with recv := { w.recv with chan } } := by
      refine h.endAll.of_append rfl rfl rfl (fun _ => ⟨fun hi => hi, rfl⟩) fun i => ?_
      by_cases hi : i ∈ w.recv.subscribers
      · refine ⟨[.error .spawn], ?_, ?_, fun _ => rfl⟩
        · simp only [chan, hi, if_true]
          exact Chan.queue_sendOrDrop_of_open (hst.open_chan i hi)
        · simp [World.endAll, (hst.mem_iff i).mp hi]
      · exact ⟨[], by simp [chan, hi, World.endAll]⟩
    refine hw.giveUp id rfl rfl rfl rfl (fun i hi => ?_) ?_
      (h.inSubscribe id (by simp [ht, Accept.inSubscribe]))
    · simp [chan, hi]
    · simp [Chan.drained]
  · cases hs

theorem pollNext (h : QueuesInv w) (hs : w.step (now, .pollNext id) = some w') :
    QueuesInv w' := by
  obtain ⟨hheld, ⟨item, rest, hq, rfl⟩ | ⟨-, rfl⟩⟩ := World.pollNext_cases hs
  · simp only [World.held, Bool.and_eq_true, Bool.or_eq_true, beq_iff_eq,
      Bool.not_eq_true'] at hheld
    obtain ⟨hstat, hin⟩ := hheld
    refine ⟨fun i (hi : w.status i = .unopened) => ?_, fun i (hi : w.status i = .dropped) => ?_,
      fun i hi => ?_, fun i hi => ?_, fun i hi hg => ?_,
      fun i (hi : w.status i = .dropped) hg => ?_⟩
    all_goals by_cases hid : i = id
    all_goals try subst hid
    all_goals try simp only [Receiver.chan_setChan_self, Function.update_self]
    all_goals try simp only [Receiver.chan_setChan_ne hid, Function.update_of_ne hid]
    · simp [hi] at hstat
    · exact h.unopened i hi
    · simp [hi] at hstat
    · exact h.dropped i hi
    · exact absurd (hin.symm.trans hi) (by simp)
    · exact h.inSubscribe i hi
    · obtain ⟨hb, hy⟩ := h.gaveUp i hi
      rw [hq] at hb
      cases item with
      | ok b => simp at hb
      | error e => simpa [hy] using hb
    · exact h.gaveUp i hi
    · have := h.opening i hi hg
      rw [hq] at this
      simpa using this
    · exact h.opening i hi hg
    · simp [hi] at hstat
    · exact h.started i hi hg
  · exact h

theorem unsubscribe (hst : StreamsInv w) (h : QueuesInv w)
    (hs : w.step (now, .unsubscribe id) = some w') : QueuesInv w' := by
  simp only [World.step] at hs
  split at hs
  · rename_i hheld
    simp only [Option.some.injEq] at hs
    subst hs
    simp only [World.held, Bool.and_eq_true, Bool.or_eq_true, beq_iff_eq,
      Bool.not_eq_true'] at hheld
    obtain ⟨hstat, hin⟩ := hheld
    have hqid : ((w.recv.unsubscribe id now).chan id).queue = [] := by
      rcases Receiver.unsubscribe_cases id now hst.open_chan with
        ⟨-, heq⟩ | ⟨k, -, hki, heq⟩
      · simp [heq]
      · simp [heq, Ne.symm hki]
    have hq : ∀ i, i ≠ id → ∃ l, ((w.recv.unsubscribe id now).chan i).queue =
        (w.recv.chan i).queue ++ l ∧ (w.status i = .open ∨ l = []) := fun i hi => by
      rcases Receiver.unsubscribe_cases id now hst.open_chan with
        ⟨-, heq⟩ | ⟨k, hk, hki, heq⟩
      · exact ⟨[], by simp [heq, hi]⟩
      · by_cases hik : i = k
        · subst hik
          have hm := (List.mem_filter.mp (List.mem_of_getLast? hk)).1
          exact ⟨_, by rw [heq]; simp; rfl, .inl ((hst.mem_iff i).mp hm)⟩
        · exact ⟨[], by simp [heq, hi, hik]⟩
    refine ⟨fun i hi => ?_, fun i hi => ?_, h.inSubscribe, fun i hi => ?_, fun i hi hg => ?_,
      fun i hi hg => ?_⟩
    all_goals by_cases hid : i = id
    all_goals try subst hid
    all_goals try simp only [World.setStatus, Function.update_of_ne hid] at hi
    · simp [World.setStatus] at hi
    · obtain ⟨l, hl, ho⟩ := hq i hid
      rcases ho with ho | rfl
      · simp [ho] at hi
      · simpa [hl, World.setStatus] using h.unopened i hi
    · exact hqid
    · obtain ⟨l, hl, ho⟩ := hq i hid
      rcases ho with ho | rfl
      · simp [ho] at hi
      · simpa [hl] using h.dropped i hi
    · exact ⟨by simp [hqid], (h.gaveUp i hi).2⟩
    · obtain ⟨l, hl, ho⟩ := hq i hid
      rcases ho with ho | rfl
      · exact absurd ho (hst.gaveUp i hi)
      · simpa [hl, World.setStatus] using h.gaveUp i hi
    · simp [World.setStatus] at hi
    · obtain ⟨l, hl, -⟩ := hq i hid
      simp only [World.setStatus, hl, ← List.append_assoc]
      exact (h.opening i hi hg).trans (List.prefix_append _ _)
    · -- What it yielded so far and what it would yield next begin with the same bundles.
      exact List.prefix_or_prefix_of_prefix (List.prefix_append _ _) (h.opening i hstat hg)
    · exact h.started i hi hg
  · cases hs

/-- A step of an accept thread, which touches no queue. -/
theorem thread_update {a : Accept} (hin : a.inSubscribe = true → (w.thread id).inSubscribe = true)
    (hg : a.gaveUp = (w.thread id).gaveUp) (i : Nat) :
    ((Function.update w.thread id a i).inSubscribe = true → (w.thread i).inSubscribe = true) ∧
      (Function.update w.thread id a i).gaveUp = (w.thread i).gaveUp := by
  by_cases hid : i = id
  · subst hid; simpa using ⟨hin, hg⟩
  · simp [hid]

theorem same_queues (w : World) (i : Nat) :
    ∃ l, (w.recv.chan i).queue = (w.recv.chan i).queue ++ l ∧
    (w.status i = .unopened ∨ w.status i = .dropped → l = []) ∧
    ((w.thread i).gaveUp = true → bundles l = []) :=
  ⟨[], by simp⟩

theorem step (hst : StreamsInv w) (h : QueuesInv w) (hs : w.step (now, op) = some w') :
    QueuesInv w' := by
  cases op with
  | deliver item =>
    simp only [World.step, Option.some.injEq] at hs
    subst hs
    exact h.deliver hst
  | subscribe => exact h.subscribe hst hs
  | acceptFailed id => exact h.acceptFailed hst hs
  | pollNext id => exact h.pollNext hs
  | unsubscribe id => exact h.unsubscribe hst hs
  | spawned id | spawnFailed id =>
    simp only [World.step] at hs
    split at hs
    · rename_i ht
      simp only [Option.some.injEq] at hs
      subst hs
      exact h.of_append rfl rfl rfl
        (thread_update (by simp [ht, Accept.inSubscribe]) (by simp [ht, Accept.gaveUp]))
        (same_queues w)
    · cases hs
  | sendSpawnError id =>
    simp only [World.step] at hs
    split at hs
    · rename_i ht
      simp only [Option.some.injEq] at hs
      subst hs
      refine h.of_append rfl rfl rfl
        (thread_update (by simp [ht, Accept.inSubscribe]) (by simp [ht, Accept.gaveUp])) fun i => ?_
      by_cases hid : i = id
      · subst hid
        have hnd := hst.inSubscribe i (by simp [ht, Accept.inSubscribe])
        have hc : (w.recv.chan i).closed = false := by
          by_contra hc
          exact hnd ((hst.closed_iff i).mp (by simpa using hc))
        refine ⟨[.error .spawn], by simp [Chan.queue_sendOrDrop_of_open hc], ?_, fun _ => rfl⟩
        rintro (hu | hd)
        · simp [hst.idle i hu] at ht
        · exact absurd hd hnd
      · exact ⟨[], by simp [Receiver.chan_setChan_ne hid]⟩
    · cases hs
  | beginClose =>
    simp only [World.step, Option.some.injEq] at hs
    subst hs
    exact h.endAll.of_append rfl rfl rfl (fun _ => ⟨fun hi => hi, rfl⟩) (same_queues w.endAll)
  | closeGuardDrop =>
    simp only [World.step] at hs
    split at hs
    · simp only [Option.some.injEq] at hs
      subst hs
      exact h.of_append rfl rfl rfl (fun _ => ⟨fun hi => hi, rfl⟩) (same_queues w)
    · cases hs
  | decide id =>
    simp only [World.step] at hs
    split at hs
    · rename_i ht
      simp only [Option.some.injEq] at hs
      subst hs
      have hc : w.recv.decideAccept.2.chan = w.recv.chan := by
        unfold Receiver.decideAccept
        split <;> rfl
      refine h.of_append rfl rfl rfl (thread_update ?_ ?_) fun i => by simp [hc]
      all_goals split <;> simp [ht, Accept.inSubscribe, Accept.gaveUp]
    · cases hs
  | iterate id failure =>
    simp only [World.step] at hs
    split at hs
    · rename_i ht
      have hthread : QueuesInv (w.setThread id .top) := h.of_append rfl rfl rfl
        (thread_update (by simp [Accept.inSubscribe]) (by simp [ht, Accept.gaveUp])) (same_queues w)
      have hst' : StreamsInv (w.setThread id .top) := by
        have : w.step (now, .iterate id none) = some (w.setThread id .top) := by
          simp [World.step, ht]
        exact hst.step this
      split at hs <;> simp only [Option.some.injEq] at hs <;> subst hs
      · exact hthread.deliver hst'
      · exact hthread
    · cases hs
  | panic id =>
    simp only [World.step] at hs
    split at hs
    · rename_i ht
      simp only [Option.some.injEq] at hs
      subst hs
      refine h.endAll.of_append rfl rfl rfl (thread_update (w := w) ?_ ?_) (same_queues w.endAll)
      all_goals
        cases hth : w.thread id <;> simp_all [Accept.live, Accept.inSubscribe, Accept.gaveUp]
    · cases hs

end QueuesInv

end Cspcl.Inbound
