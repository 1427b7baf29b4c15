import Cspcl.Inbound.Lemmas

/-!
# The lock sections of a receiver, for any bundles

`LockSection` lists the lock sections of `Receiver`. None of them looks into a bundle.

* `Receiver.Healthy`: the open streams have open channels; every lock section keeps that.
* `LockSection.shifts`: a lock section other than a delivery moves bundles from one queue to another
  at most; `deliver_stored`: a delivery puts its bundle into one queue.
* `LockSection.apply_map`: a lock section commutes with every function of the bundles. So it can be
  followed with numbers in place of bundles.
-/

namespace Cspcl.Inbound

variable {β γ : Type}

/-- A lock section of `Receiver`; after `acceptFailed` comes the error for its own stream. -/
inductive LockSection (β : Type) where
  | deliver (item : Item β)
  | subscribe
  | acceptFailed (id now : Nat)
  | unsubscribe (id now : Nat)
  | beginClose (now : Nat)
  | closeGuardDrop
  | acceptGuardDrop (now : Nat)
  | decideAccept

namespace LockSection

def apply : LockSection β → Receiver β → Receiver β
  | deliver item, r => r.deliver item
  | subscribe, r => r.subscribe.2.2
  | acceptFailed id now, r =>
    let r := r.acceptFailed id now
    r.setChan id ((r.chan id).sendOrDrop (.error .spawn))
  | unsubscribe id now, r => r.unsubscribe id now
  | beginClose now, r => r.beginClose now
  | closeGuardDrop, r => r.closeGuardDrop
  | acceptGuardDrop now, r => r.acceptGuardDrop now
  | decideAccept, r => r.decideAccept.2

/-- The same section with another bundle. -/
def map (f : β → γ) : LockSection β → LockSection γ
  | deliver item => deliver (item.map f)
  | subscribe => subscribe
  | acceptFailed id now => acceptFailed id now
  | unsubscribe id now => unsubscribe id now
  | beginClose now => beginClose now
  | closeGuardDrop => closeGuardDrop
  | acceptGuardDrop now => acceptGuardDrop now
  | decideAccept => decideAccept

/-- The bundle that the section delivers. -/
def bundle : LockSection β → Option β
  | deliver (.ok b) => some b
  | _ => none

/-- A section that delivers no bundle has none to change. -/
theorem map_map_of_bundle {x : LockSection β} (hx : x.bundle = none) (f : β → γ) (g : γ → β) :
    (x.map f).map g = x ∧ (x.map f).bundle = none := by
  cases x with
  | deliver item =>
    cases item with
    | ok b => cases hx
    | error e => exact ⟨rfl, rfl⟩
  | _ => exact ⟨rfl, rfl⟩

end LockSection

namespace Receiver

variable {r r' : Receiver β} {x : LockSection β} {f : β → γ} {id now : Nat} {b : β}

/-- The bundles that are pending (`none`), or unread in a stream. -/
def stored (r : Receiver β) : Option Nat → List β
  | none => r.pending
  | some id => bundles (r.chan id).queue

/-- The open streams have open channels, and a stream that is not open yet has no bundles. -/
structure Healthy (r : Receiver β) : Prop where
  nodup : r.subscribers.Nodup
  lt : ∀ k ∈ r.subscribers, k < r.nextId
  opened : ∀ k ∈ r.subscribers, (r.chan k).closed = false
  unopened : ∀ k, r.nextId ≤ k → bundles (r.chan k).queue = []

theorem healthy_new : (new now : Receiver β).Healthy := ⟨.nil, nofun, nofun, fun _ _ => rfl⟩

theorem bundles_sendOrDrop_error {c : Chan (Item β)} {e : Error} :
    bundles (c.sendOrDrop (.error e)).queue = bundles c.queue := by
  cases hc : c.closed with
  | true => simp [Chan.sendOrDrop, hc]
  | false => simp [Chan.sendOrDrop, hc]

/-- A section that leaves the queues and opens no stream. -/
theorem Healthy.same (h : r.Healthy) (hn : r'.nextId = r.nextId)
    (hs : r'.subscribers.Sublist r.subscribers) (hc : r'.chan = r.chan) : r'.Healthy where
  nodup := h.nodup.sublist hs
  lt k hk := hn ▸ h.lt k (hs.subset hk)
  opened k hk := hc ▸ h.opened k (hs.subset hk)
  unopened k hk := hc ▸ h.unopened k (hn ▸ hk)

theorem Healthy.deliver (h : r.Healthy) (item : Item β) : (r.deliver item).Healthy := by
  rcases deliver_cases item h.opened with ⟨-, heq⟩ | ⟨k, hk, heq⟩
  · rw [heq]
    exact h.same (nextId_keep ..) (by rw [subscribers_keep]) (chan_keep ..)
  · have hlt := h.lt k (List.mem_of_getLast? hk)
    rw [heq]
    refine ⟨h.nodup, h.lt, fun i hi => ?_, fun i hi => ?_⟩
    · rw [chan_setChan]
      split
      · rfl
      · exact h.opened i hi
    · have hi : r.nextId ≤ i := hi
      rw [chan_setChan_ne (by omega)]
      exact h.unopened i hi

theorem Healthy.subscribe (h : r.Healthy) : r.subscribe.2.2.Healthy := by
  rw [subscribe_spec]
  refine ⟨?_, fun k hk => ?_, fun k hk => ?_, fun k hk => ?_⟩
  · refine List.nodup_append.mpr ⟨h.nodup, by simp, fun a ha b hb => ?_⟩
    have := h.lt a ha
    have := List.mem_singleton.mp hb
    omega
  · change k < r.nextId + 1
    rcases List.mem_append.mp hk with hk | hk
    · have := h.lt k hk
      omega
    · have := List.mem_singleton.mp hk
      omega
  · simp only [Function.update_apply]
    split
    · rfl
    · rename_i hne
      rcases List.mem_append.mp hk with hk | hk
      · exact h.opened k hk
      · exact absurd (List.mem_singleton.mp hk) hne
  · have hk : r.nextId + 1 ≤ k := hk
    simp only [Function.update_apply]
    rw [if_neg (by omega)]
    exact h.unopened k (by omega)

theorem Healthy.acceptFailed (h : r.Healthy) :
    (LockSection.acceptFailed id now).apply r |>.Healthy := by
  simp only [LockSection.apply, acceptFailed_spec h.nodup]
  refine ⟨.nil, nofun, nofun, fun k hk => ?_⟩
  have hold := h.unopened k hk
  rw [chan_setChan]
  split
  · simp [bundles_sendOrDrop_error, Chan.drained]
  · rename_i hne
    simp only [if_neg hne]
    split
    · rw [bundles_sendOrDrop_error]
      exact hold
    · exact hold

theorem Healthy.unsubscribe (h : r.Healthy) : (r.unsubscribe id now).Healthy := by
  rcases unsubscribe_cases id now h.opened with ⟨-, heq⟩ | ⟨k, hk, hne, heq⟩
  · rw [heq]
    refine ⟨.nil, nofun, nofun, fun i hi => ?_⟩
    simp only [Function.update_apply]
    split
    · rfl
    · exact h.unopened i hi
  · have hmem := List.mem_filter.mp (List.mem_of_getLast? hk)
    rw [heq]
    refine ⟨h.nodup.filter _, fun i hi => h.lt i (List.mem_of_mem_filter hi), fun i hi => ?_,
      fun i hi => ?_⟩
    · have hi' := List.mem_filter.mp hi
      simp only [Function.update_apply]
      split
      · rfl
      · rw [if_neg (by simpa using hi'.2)]
        exact h.opened i hi'.1
    · have hi : r.nextId ≤ i := hi
      have hlt := h.lt k hmem.1
      simp only [Function.update_apply]
      rw [if_neg (by omega)]
      split
      · rfl
      · exact h.unopened i hi

/-- Every lock section keeps the streams in order. -/
theorem Healthy.apply (h : r.Healthy) (x : LockSection β) : (x.apply r).Healthy := by
  cases x with
  | deliver item => exact h.deliver item
  | subscribe => exact h.subscribe
  | acceptFailed id now => exact h.acceptFailed
  | unsubscribe id now => exact h.unsubscribe
  | beginClose now | acceptGuardDrop now => exact h.same rfl (List.nil_sublist _) rfl
  | closeGuardDrop => exact h.same rfl (.refl _) rfl
  | decideAccept =>
    simp only [LockSection.apply, Receiver.decideAccept]
    split <;> exact h.same rfl (.refl _) rfl

/-! ## Where the bundles go -/

/-- Some bundles move from the end of one queue, or all of it, to the end of another. -/
def Shifts (r r' : Receiver β) : Prop :=
  ∃ p q l, p ≠ q ∧ (r.stored p).Perm (r'.stored p ++ l) ∧ r'.stored q = r.stored q ++ l ∧
    ∀ o, o ≠ p → o ≠ q → r'.stored o = r.stored o

theorem shifts_of_same (h : ∀ o, r'.stored o = r.stored o) : r.Shifts r' := by
  refine ⟨none, some 0, [], nofun, ?_, ?_, fun o _ _ => h o⟩
  · rw [h, List.append_nil]
  · rw [h, List.append_nil]

/-- The queues after an item was delivered. -/
theorem deliver_stored (h : r.Healthy) (item : Item β) :
    ∃ p, (r.deliver item).stored p = r.stored p ++ bundles [item] ∧
      ∀ o, o ≠ p → (r.deliver item).stored o = r.stored o := by
  rcases deliver_cases item h.opened with ⟨-, heq⟩ | ⟨k, -, heq⟩
  · rw [heq]
    refine ⟨none, ?_, fun o ho => ?_⟩
    · cases item <;> simp [stored, keep]
    · cases o with
      | none => exact absurd rfl ho
      | some id => simp [stored]
  · rw [heq]
    refine ⟨some k, ?_, fun o ho => ?_⟩
    · simp [stored, ← bundles_append]
    · cases o with
      | none => rfl
      | some id =>
        have hne : id ≠ k := fun h => ho (by rw [h])
        simp [stored, chan_setChan_ne hne]

theorem shifts_subscribe (h : r.Healthy) : r.Shifts r.subscribe.2.2 := by
  have hnew := h.unopened r.nextId (Nat.le_refl _)
  rw [subscribe_spec]
  refine ⟨none, some r.nextId, r.pending, nofun, ?_, ?_, fun o ho ho' => ?_⟩
  · simp [stored]
  · simp [stored, hnew]
  · cases o with
    | none => exact absurd rfl ho
    | some id =>
      have hne : id ≠ r.nextId := fun h => ho' (by rw [h])
      simp [stored, Function.update_of_ne hne]

theorem shifts_acceptFailed (h : r.Healthy) :
    r.Shifts ((LockSection.acceptFailed id now).apply r) := by
  simp only [LockSection.apply, acceptFailed_spec h.nodup]
  refine ⟨some id, none, bundles (r.chan id).queue, nofun, ?_, rfl, fun o ho ho' => ?_⟩
  · simp [stored, bundles_sendOrDrop_error, Chan.drained]
  · cases o with
    | none => exact absurd rfl ho'
    | some i =>
      have hne : i ≠ id := fun h => ho (by rw [h])
      simp only [stored, chan_setChan_ne hne, if_neg hne]
      split
      · exact bundles_sendOrDrop_error
      · rfl

theorem shifts_unsubscribe (h : r.Healthy) : r.Shifts (r.unsubscribe id now) := by
  rcases unsubscribe_cases id now h.opened with ⟨-, heq⟩ | ⟨k, -, hki, heq⟩
  · rw [heq]
    refine ⟨some id, none, bundles (r.chan id).queue, nofun, ?_, rfl, fun o ho ho' => ?_⟩
    · simp [stored]
    · cases o with
      | none => exact absurd rfl ho'
      | some i =>
        have hne : i ≠ id := fun h => ho (by rw [h])
        simp [stored, Function.update_of_ne hne]
  · rw [heq]
    refine ⟨some id, some k, bundles (r.chan id).queue, ?_, ?_, ?_, fun o ho ho' => ?_⟩
    · exact fun h => hki (Option.some.inj h).symm
    · simp [stored, Function.update_of_ne hki.symm]
    · simp [stored]
    · cases o with
      | none => rfl
      | some i =>
        have hne : i ≠ id := fun h => ho (by rw [h])
        have hne' : i ≠ k := fun h => ho' (by rw [h])
        simp [stored, Function.update_of_ne hne, Function.update_of_ne hne']

/-- A section that delivers no bundle loses none and brings none. -/
theorem Healthy.shifts (h : r.Healthy) (hx : x.bundle = none) : r.Shifts (x.apply r) := by
  cases x with
  | deliver item =>
    cases item with
    | ok b => cases hx
    | error e =>
      obtain ⟨p, hp, ho⟩ := deliver_stored h (.error e)
      rw [bundles_error_cons, bundles_nil, List.append_nil] at hp
      refine shifts_of_same fun o => ?_
      by_cases hop : o = p
      · rw [hop]
        exact hp
      · exact ho o hop
  | subscribe => exact shifts_subscribe h
  | acceptFailed id now => exact shifts_acceptFailed h
  | unsubscribe id now => exact shifts_unsubscribe h
  | beginClose now | closeGuardDrop | acceptGuardDrop now =>
    exact shifts_of_same fun o => by cases o <;> rfl
  | decideAccept =>
    refine shifts_of_same fun o => ?_
    simp only [LockSection.apply, decideAccept]
    split <;> cases o <;> rfl

/-- What a poll yields comes from the front of the stream's queue. -/
theorem pollNext_stored (r : Receiver β) (id : Nat) (opening : Bool) :
    (∃ item, (r.pollNext id opening).1 = .ready item ∧
      r.stored (some id) = bundles [item] ++ (r.pollNext id opening).2.stored (some id) ∧
      ∀ o, o ≠ some id → (r.pollNext id opening).2.stored o = r.stored o) ∨
    ((∀ item, (r.pollNext id opening).1 ≠ .ready item) ∧ (r.pollNext id opening).2 = r) := by
  unfold pollNext
  cases hq : (r.chan id).queue with
  | nil =>
    right
    rw [Chan.poll_nil hq]
    refine ⟨fun item hi => ?_, ?_⟩
    · dsimp only at hi
      split at hi <;> cases hi
    · simp [setChan]
  | cons item rest =>
    left
    rw [Chan.poll_cons hq]
    refine ⟨item, rfl, ?_, fun o ho => ?_⟩
    · simp only [stored, chan_setChan_self, hq, ← bundles_append, List.singleton_append]
    · cases o with
      | none => rfl
      | some i =>
        have hne : i ≠ id := fun h => ho (by rw [h])
        simp [stored, chan_setChan_ne hne]

theorem Healthy.pollNext (h : r.Healthy) (opening : Bool) :
    (r.pollNext id opening).2.Healthy := by
  have hclosed : ((r.chan id).poll (opening || r.subscribers.contains id)).2.closed =
      (r.chan id).closed := by
    unfold Chan.poll
    split <;> rfl
  refine ⟨h.nodup, h.lt, fun k hk => ?_, fun k hk => ?_⟩
  · simp only [Receiver.pollNext, chan_setChan]
    split
    · rename_i hki
      rw [hclosed, ← hki]
      exact h.opened k hk
    · exact h.opened k hk
  · have hold := h.unopened k hk
    rcases pollNext_stored r id opening with ⟨item, -, hs, ho⟩ | ⟨-, heq⟩
    · by_cases hki : k = id
      · subst hki
        have hs : bundles (r.chan k).queue = _ := hs
        rw [hold] at hs
        exact (List.append_eq_nil_iff.mp hs.symm).2
      · exact (ho (some k) (by simpa using hki)).trans hold
    · rw [heq]
      exact hold

/-! ## Other bundles in their place -/

/-- The receiver with `f b` in place of each bundle `b`. -/
def map (f : β → γ) (r : Receiver β) : Receiver γ where
  nextId := r.nextId
  subscribers := r.subscribers
  pending := r.pending.map f
  acceptRunning := r.acceptRunning
  stoppedAt := r.stoppedAt
  closing := r.closing
  chan i := ⟨(r.chan i).queue.map (Except.map f), (r.chan i).closed⟩

theorem bundles_map (l : List (Item β)) : bundles (l.map (Except.map f)) = (bundles l).map f := by
  induction l with
  | nil => rfl
  | cons item l ih =>
    cases item with
    | ok b => exact congrArg (f b :: ·) ih
    | error e => exact ih

theorem stored_map (o : Option Nat) : (r.map f).stored o = (r.stored o).map f := by
  cases o with
  | none => rfl
  | some id => exact bundles_map _

theorem Healthy.map (h : r.Healthy) : (r.map f).Healthy where
  nodup := h.nodup
  lt := h.lt
  opened := h.opened
  unopened k hk := (bundles_map _).trans (by rw [h.unopened k hk]; rfl)

/-- Two functions that agree on the bundles that are there. -/
theorem map_congr {g : β → γ} (h : ∀ o, ∀ b ∈ r.stored o, f b = g b) : r.map f = r.map g := by
  have hchan : ∀ i, (r.chan i).queue.map (Except.map f) = (r.chan i).queue.map (Except.map g) := by
    intro i
    apply List.map_congr_left
    intro item hitem
    cases item with
    | error e => rfl
    | ok b =>
      have hb : b ∈ r.stored (some i) := List.mem_filterMap.mpr ⟨_, hitem, rfl⟩
      exact congrArg Except.ok (h (some i) b hb)
  unfold Receiver.map
  congr 1
  · exact List.map_congr_left (h none)
  · funext i
    rw [hchan]

theorem setChan_map (c : Chan (Item β)) :
    (r.setChan id c).map f = (r.map f).setChan id ⟨c.queue.map (Except.map f), c.closed⟩ := by
  unfold setChan Receiver.map
  dsimp only
  congr 1
  funext i
  simp only [Function.update_apply]
  split <;> rfl

theorem keep_map (item : Item β) : (r.keep item).map f = (r.map f).keep (item.map f) := by
  cases item with
  | ok b => simp [keep, Receiver.map, Except.map]
  | error e => rfl

theorem sendOrDrop_map {c : Chan (Item β)} {e : Error} :
    (⟨(c.sendOrDrop (.error e)).queue.map (Except.map f), (c.sendOrDrop (.error e)).closed⟩ :
      Chan (Item γ)) = Chan.sendOrDrop ⟨c.queue.map (Except.map f), c.closed⟩ (.error e) := by
  cases hc : c.closed with
  | true => simp [Chan.sendOrDrop, hc]
  | false => simp [Chan.sendOrDrop, hc, Except.map]

theorem Healthy.deliver_map (h : r.Healthy) (item : Item β) :
    (r.deliver item).map f = (r.map f).deliver (item.map f) := by
  have h' : (r.map f).Healthy := h.map
  cases hk : r.subscribers.getLast? with
  | none =>
    have hn : r.subscribers = [] := List.getLast?_eq_none_iff.mp hk
    rw [deliver_none hn, deliver_none (r := r.map f) hn, keep_map]
  | some k =>
    have hc := h.opened k (List.mem_of_getLast? hk)
    rw [deliver_last hk hc, deliver_last (r := r.map f) hk (h'.opened k (List.mem_of_getLast? hk)),
      setChan_map]
    simp [Receiver.map]

theorem subscribe_map : r.subscribe.2.2.map f = (r.map f).subscribe.2.2 := by
  simp only [subscribe_spec, Receiver.map, List.map_nil, mk.injEq, true_and]
  funext i
  simp only [Function.update_apply]
  split
  · simp [Except.map]
  · rfl

theorem Healthy.acceptFailed_map (h : r.Healthy) :
    ((LockSection.acceptFailed id now).apply r).map f =
      (LockSection.acceptFailed id now).apply (r.map f) := by
  have h' : (r.map f).Healthy := h.map
  have hspec : (r.acceptFailed id now).map f = (r.map f).acceptFailed id now := by
    rw [acceptFailed_spec h.nodup, acceptFailed_spec h'.nodup]
    simp only [Receiver.map, List.map_append, bundles_map, mk.injEq, true_and]
    funext i
    split
    · rfl
    · split
      · rename_i hm
        exact sendOrDrop_map.trans (if_pos hm).symm
      · rename_i hm
        exact (if_neg hm).symm
  simp only [LockSection.apply]
  rw [setChan_map, hspec, sendOrDrop_map, ← hspec]
  rfl

theorem Healthy.unsubscribe_map (h : r.Healthy) :
    (r.unsubscribe id now).map f = (r.map f).unsubscribe id now := by
  have h' : (r.map f).Healthy := h.map
  cases hk : (r.subscribers.filter (· ≠ id)).getLast? with
  | none =>
    have hn : r.subscribers.filter (· ≠ id) = [] := List.getLast?_eq_none_iff.mp hk
    rw [unsubscribe_stopped hn, unsubscribe_stopped (r := r.map f) hn]
    simp only [Receiver.map, List.map_append, bundles_map, mk.injEq, true_and]
    funext i
    simp only [Function.update_apply]
    split <;> rfl
  | some k =>
    have hmem := (List.mem_filter.mp (List.mem_of_getLast? hk)).1
    rw [unsubscribe_last hk (h.opened k hmem),
      unsubscribe_last (r := r.map f) hk (h'.opened k hmem)]
    simp only [Receiver.map, mk.injEq, true_and]
    funext i
    simp only [Function.update_apply]
    split
    · simp [bundles_map, Except.map]
    · split <;> rfl

/-- No lock section looks into a bundle. -/
theorem Healthy.apply_map (h : r.Healthy) (x : LockSection β) :
    (x.apply r).map f = (x.map f).apply (r.map f) := by
  cases x with
  | deliver item => exact h.deliver_map item
  | subscribe => exact subscribe_map
  | acceptFailed id now => exact h.acceptFailed_map
  | unsubscribe id now => exact h.unsubscribe_map
  | beginClose now | acceptGuardDrop now | closeGuardDrop => rfl
  | decideAccept =>
    have hon : (r.map f).isReceiving = r.isReceiving := rfl
    simp only [LockSection.apply, LockSection.map, decideAccept, hon]
    split <;> rfl

theorem pollNext_map (r : Receiver β) (id : Nat) (opening : Bool) :
    (r.pollNext id opening).2.map f = ((r.map f).pollNext id opening).2 := by
  unfold pollNext
  cases hq : (r.chan id).queue with
  | nil =>
    have hq' : ((r.map f).chan id).queue = [] := by simp [Receiver.map, hq]
    rw [Chan.poll_nil hq, Chan.poll_nil hq', setChan_map]
    rfl
  | cons item rest =>
    have hq' : ((r.map f).chan id).queue = item.map f :: rest.map (Except.map f) := by
      simp [Receiver.map, hq]
    rw [Chan.poll_cons hq, Chan.poll_cons hq', setChan_map]
    rfl

end Receiver

end Cspcl.Inbound
