import Cspcl.Inbound.Queues

/-!
# No bundle is lost or duplicated by a receiver

The places of a bundle that was passed to `deliver` (`Place`): the pending queue, the unread queue
of a stream, what a stream has yielded.

* `deliver_holds`: the place that the next delivery goes to.
* `KeptInv`: every delivery is in exactly one place (`Custody`).
* `bundles_kept`: in every reachable state.
-/

namespace Cspcl.Inbound

/-- Where a bundle can be. -/
inductive Place where
  | pending
  | unread (id : Nat)
  | returned (id : Nat)
  deriving DecidableEq, Repr

/-- The bundles in a place. -/
def World.holds (w : World) : Place → List Delivery
  | .pending => w.recv.pending
  | .unread id => bundles (w.recv.chan id).queue
  | .returned id => bundles (w.yielded id)

/-- The deliveries are numbered, and each is in exactly one place. -/
structure KeptInv (w : World) : Prop where
  custody : Custody w.holds w.delivered
  numbered : w.delivered.map Delivery.seq = List.range w.delivered.length

variable {w w' : World} {now id : Nat} {op : Op}

/-- Where an item goes that is delivered: to the newest stream, or to `pending` if none is open. -/
theorem deliver_holds (w' : World) (hst : StreamsInv w) {item : Item Delivery}
    (hr : w'.recv = w.recv.deliver item) (hy : w'.yielded = w.yielded) :
    (w.recv.subscribers = [] ∧ w'.holds .pending = w.holds .pending ++ bundles [item] ∧
      ∀ p, p ≠ .pending → w'.holds p = w.holds p) ∨
    ∃ k, w.recv.subscribers.getLast? = some k ∧
      w'.holds (.unread k) = w.holds (.unread k) ++ bundles [item] ∧
      ∀ p, p ≠ .unread k → w'.holds p = w.holds p := by
  rcases Receiver.deliver_cases item hst.open_chan with ⟨hn, heq⟩ | ⟨k, hk, heq⟩
  · refine .inl ⟨hn, ?_, fun p hp => ?_⟩
    · rw [World.holds, hr, heq]
      cases item <;> simp [Receiver.keep, World.holds]
    · cases p with
      | pending => exact absurd rfl hp
      | unread id => simp [World.holds, hr, heq]
      | returned id => simp [World.holds, hy]
  · refine .inr ⟨k, hk, ?_, fun p hp => ?_⟩
    · simp [World.holds, hr, heq, ← bundles_append]
    · cases p with
      | pending => simp [World.holds, hr, heq]
      | unread id =>
        have hid : id ≠ k := fun h => hp (by rw [h])
        simp [World.holds, hr, heq, Receiver.chan_setChan_ne hid]
      | returned id => simp [World.holds, hy]

namespace KeptInv

/-- The number of the next delivery is new. -/
theorem fresh (h : KeptInv w) {b : Bundle} :
    (⟨w.delivered.length, b⟩ : Delivery) ∉ w.delivered := by
  intro hm
  have := List.mem_map_of_mem (f := Delivery.seq) hm
  simp [h.numbered] at this

/-- A step that moves no bundle. -/
theorem of_same (h : KeptInv w) (hd : w'.delivered = w.delivered)
    (hp : w'.recv.pending = w.recv.pending)
    (hq : ∀ i, bundles (w'.recv.chan i).queue = bundles (w.recv.chan i).queue)
    (hy : ∀ i, bundles (w'.yielded i) = bundles (w.yielded i)) : KeptInv w' where
  custody := by
    have hh : w'.holds = w.holds := by
      funext p
      cases p <;> simp [World.holds, hp, hq, hy]
    rw [hh, hd]
    exact h.custody
  numbered := by rw [hd]; exact h.numbered

/-- A step that moves the bundles `l` from one place to another. -/
theorem of_move {p q : Place} {l : List Delivery} (h : KeptInv w) (hd : w'.delivered = w.delivered)
    (hpq : p ≠ q) (hp : (w.holds p).Perm (w'.holds p ++ l)) (hq : w'.holds q = w.holds q ++ l)
    (hr : ∀ r, r ≠ p → r ≠ q → w'.holds r = w.holds r) : KeptInv w' where
  custody := hd ▸ h.custody.move hpq hp (hq ▸ .refl _) hr
  numbered := by rw [hd]; exact h.numbered

theorem deliver {item : Item Bundle} (h : KeptInv w) (hst : StreamsInv w) :
    KeptInv (w.deliver item) := by
  cases item with
  | ok b =>
    refine ⟨?_, by simp [World.deliver, h.numbered, List.range_succ]⟩
    rcases deliver_holds (w.deliver (.ok b)) hst rfl rfl with ⟨-, hp, hr⟩ | ⟨k, -, hp, hr⟩
    · exact h.custody.put h.fresh (hp ▸ .refl _) hr
    · exact h.custody.put h.fresh (hp ▸ .refl _) hr
  | error e =>
    have hh : (w.deliver (.error e)).holds = w.holds := by
      funext p
      rcases deliver_holds (w.deliver (.error e)) hst rfl rfl with
        ⟨-, hp, hr⟩ | ⟨k, -, hp, hr⟩
      · by_cases hpp : p = .pending
        · subst hpp; simpa using hp
        · exact hr p hpp
      · by_cases hpk : p = .unread k
        · subst hpk; simpa using hp
        · exact hr p hpk
    exact ⟨by rw [hh]; exact h.custody, h.numbered⟩

theorem subscribe (h : KeptInv w) (hst : StreamsInv w) (hqu : QueuesInv w)
    (hs : w.step (now, .subscribe) = some w') : KeptInv w' := by
  simp only [World.step, Receiver.subscribe_spec] at hs
  split at hs
  · cases hs
  simp only [Option.some.injEq] at hs
  subst hs
  have hq := (hqu.unopened _ ((hst.unopened_iff w.recv.nextId).mpr (Nat.le_refl _))).1
  refine h.of_move (p := .pending) (q := .unread w.recv.nextId) (l := w.recv.pending) rfl
    (by simp) (by simp [World.holds]) (by simp [World.holds, hq]) fun r hr hr' => ?_
  cases r with
  | pending => exact absurd rfl hr
  | unread i =>
    have hi : i ≠ w.recv.nextId := fun hi => hr' (by rw [hi])
    simp [World.holds, hi]
  | returned i => rfl

theorem acceptFailed (h : KeptInv w) (hst : StreamsInv w)
    (hs : w.step (now, .acceptFailed id) = some w') : KeptInv w' := by
  simp only [World.step, Receiver.acceptFailed_spec hst.nodup] at hs
  split at hs
  · simp only [Option.some.injEq] at hs
    subst hs
    refine h.of_move (p := .unread id) (q := .pending) (l := bundles (w.recv.chan id).queue) rfl
      (by simp) ?_ ?_ fun r hr hr' => ?_
    · simp [World.holds, Chan.drained]
    · simp [World.holds]
    · cases r with
      | pending => exact absurd rfl hr'
      | unread i =>
        have hi : i ≠ id := fun hi => hr (by rw [hi])
        simp only [World.holds, hi, if_false]
        split
        · rename_i hm
          simp [Chan.queue_sendOrDrop_of_open (hst.open_chan i hm)]
        · rfl
      | returned i => rfl
  · cases hs

theorem pollNext (h : KeptInv w) (hs : w.step (now, .pollNext id) = some w') : KeptInv w' := by
  obtain ⟨-, ⟨item, rest, hq, rfl⟩ | ⟨-, rfl⟩⟩ := World.pollNext_cases hs
  · refine h.of_move (p := .unread id) (q := .returned id) (l := bundles [item]) rfl (by simp) ?_ ?_
      fun r hr hr' => ?_
    · simp only [World.holds, Receiver.chan_setChan_self, hq]
      rw [← List.singleton_append, bundles_append]
      exact List.perm_append_comm
    · simp [World.holds]
    · cases r with
      | pending => rfl
      | unread i =>
        have hi : i ≠ id := fun hi => hr (by rw [hi])
        simp [World.holds, Receiver.chan_setChan_ne hi]
      | returned i =>
        have hi : i ≠ id := fun hi => hr' (by rw [hi])
        simp [World.holds, hi]
  · exact h

theorem unsubscribe (h : KeptInv w) (hst : StreamsInv w)
    (hs : w.step (now, .unsubscribe id) = some w') : KeptInv w' := by
  simp only [World.step] at hs
  split at hs
  · simp only [Option.some.injEq] at hs
    subst hs
    rcases Receiver.unsubscribe_cases id now hst.open_chan with
      ⟨-, heq⟩ | ⟨k, -, hki, heq⟩
    · refine h.of_move (p := .unread id) (q := .pending) (l := bundles (w.recv.chan id).queue) rfl
        (by simp) (by simp [World.holds, heq]) (by simp [World.holds, heq]) fun r hr hr' => ?_
      cases r with
      | pending => exact absurd rfl hr'
      | unread i =>
        have hi : i ≠ id := fun hi => hr (by rw [hi])
        simp [World.holds, heq, hi]
      | returned i => rfl
    · refine h.of_move (p := .unread id) (q := .unread k) (l := bundles (w.recv.chan id).queue) rfl
        (by simpa using Ne.symm hki) (by simp [World.holds, heq, Ne.symm hki])
        (by simp [World.holds, heq]) fun r hr hr' => ?_
      cases r with
      | pending => simp [World.holds, heq]
      | unread i =>
        have hi : i ≠ id := fun hi => hr (by rw [hi])
        have hi' : i ≠ k := fun hi => hr' (by rw [hi])
        simp [World.holds, heq, hi, hi']
      | returned i => rfl
  · cases hs

theorem step (h : KeptInv w) (hst : StreamsInv w) (hqu : QueuesInv w)
    (hs : w.step (now, op) = some w') : KeptInv w' := by
  cases op with
  | deliver item =>
    simp only [World.step, Option.some.injEq] at hs
    subst hs
    exact h.deliver hst
  | subscribe => exact h.subscribe hst hqu hs
  | acceptFailed id => exact h.acceptFailed hst hs
  | pollNext id => exact h.pollNext hs
  | unsubscribe id => exact h.unsubscribe hst hs
  | spawned id | spawnFailed id | closeGuardDrop | panic id =>
    simp only [World.step] at hs
    split at hs
    · simp only [Option.some.injEq] at hs
      subst hs
      exact h.of_same rfl rfl (fun _ => rfl) fun _ => rfl
    · cases hs
  | beginClose =>
    simp only [World.step, Option.some.injEq] at hs
    subst hs
    exact h.of_same rfl rfl (fun _ => rfl) fun _ => rfl
  | sendSpawnError id =>
    simp only [World.step] at hs
    split at hs
    · simp only [Option.some.injEq] at hs
      subst hs
      refine h.of_same rfl rfl (fun i => ?_) fun _ => rfl
      by_cases hi : i = id
      · subst hi
        cases hc : (w.recv.chan i).closed <;> simp [Chan.sendOrDrop, hc]
      · simp [Receiver.chan_setChan_ne hi]
    · cases hs
  | decide id =>
    simp only [World.step] at hs
    split at hs
    · simp only [Option.some.injEq] at hs
      subst hs
      have hsame : w.recv.decideAccept.2.pending = w.recv.pending ∧
          w.recv.decideAccept.2.chan = w.recv.chan := by
        unfold Receiver.decideAccept
        split <;> exact ⟨rfl, rfl⟩
      exact h.of_same rfl hsame.1 (fun i => by rw [hsame.2]) fun _ => rfl
    · cases hs
  | iterate id failure =>
    simp only [World.step] at hs
    split at hs
    · rename_i ht
      have hthread : KeptInv (w.setThread id .top) := h.of_same rfl rfl (fun _ => rfl) fun _ => rfl
      have hst' : StreamsInv (w.setThread id .top) := by
        have : w.step (now, .iterate id none) = some (w.setThread id .top) := by
          simp [World.step, ht]
        exact hst.step this
      split at hs <;> simp only [Option.some.injEq] at hs <;> subst hs
      · exact hthread.deliver hst'
      · exact hthread
    · cases hs

end KeptInv

theorem keptInv_inductive :
    streamSys.Inductive fun w => (StreamsInv w ∧ QueuesInv w) ∧ KeptInv w := by
  refine Lts.Inductive.given (streamsInv_inductive.given ?_ fun _ ⟨_, _⟩ _ hst h hs =>
    h.step hst hs) ?_ fun _ ⟨_, _⟩ _ hj h hs => h.step hj.1 hj.2 hs
  · rintro w ⟨now, rfl⟩
    constructor <;> simp [World.new, Receiver.new, Chan.new, Accept.inSubscribe, Accept.gaveUp]
  · rintro w ⟨now, rfl⟩
    have hh : (World.new now).holds = fun _ => [] := by
      funext p
      cases p <;> rfl
    exact ⟨by rw [hh]; exact Custody.nil, rfl⟩

end Cspcl.Inbound
