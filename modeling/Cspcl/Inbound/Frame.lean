import Cspcl.Inbound.Streams

/-!
# What a step of the streams leaves as it is

`frame_step`: the ids of the streams, the calls of `subscribe`, the streams that are not dropped
and, while no stream is open, the bundles left in them (`Frame`).
-/

namespace Cspcl.Inbound

/-- The steps that take bundles out of stream `i`, or may open it. -/
def takesFrom (i : Nat) : Op → Bool
  | .pollNext id | .unsubscribe id | .acceptFailed id => id == i
  | .subscribe => true
  | _ => false

/-- What the step `op` from `w` to `w'` leaves as it is. -/
structure Frame (w w' : World) (op : Op) : Prop where
  nextId : op ≠ .subscribe → w'.recv.nextId = w.recv.nextId
  /-- No caller goes back into `subscribe`. -/
  inSubscribe : ∀ i, (w'.thread i).inSubscribe = true →
    (w.thread i).inSubscribe = true ∨ op = .subscribe ∧ i = w.recv.nextId
  dropped : ∀ i, w'.status i = .dropped → w.status i = .dropped ∨ op = .unsubscribe i
  /-- While no stream is open, no bundle goes into one. -/
  queue : w.recv.subscribers = [] → ∀ i, takesFrom i op = false →
    bundles (w'.recv.chan i).queue = bundles (w.recv.chan i).queue

section Frame

variable {w w' : World} {now id : Nat} {op : Op}

theorem dropped_endAll {i : Nat} (h : w.endAll.status i = .dropped) : w.status i = .dropped := by
  simp only [World.endAll] at h
  split at h
  · cases h
  · exact h

/-- One thread moves, and not into `subscribe`. -/
theorem inSubscribe_update {a : Accept} {i : Nat}
    (ha : a.inSubscribe = true → (w.thread id).inSubscribe = true)
    (h : (Function.update w.thread id a i).inSubscribe = true) :
    (w.thread i).inSubscribe = true := by
  by_cases hi : i = id
  · subst hi
    exact ha (by simpa using h)
  · simpa [hi] using h

theorem frame_deliver (hst : StreamsInv w) (item : Item Bundle) :
    Frame w (w.deliver item) (.deliver item) := by
  have hd (it : Item Delivery) : (w.recv.deliver it).nextId = w.recv.nextId ∧
      (w.recv.subscribers = [] → ∀ i, ((w.recv.deliver it).chan i) = w.recv.chan i) := by
    rcases Receiver.deliver_cases it hst.open_chan with ⟨-, heq⟩ | ⟨k, hk, heq⟩
    · simp [heq]
    · refine ⟨by simp [heq, Receiver.setChan], fun hnil => ?_⟩
      rw [hnil] at hk
      cases hk
  cases item <;>
    exact ⟨fun _ => (hd _).1, fun _ h => .inl h, fun _ h => .inl h,
      fun hnil i _ => congrArg _ (congrArg _ ((hd _).2 hnil i))⟩

theorem frame_subscribe (hs : w.step (now, .subscribe) = some w') : Frame w w' .subscribe := by
  simp only [World.step, Receiver.subscribe_spec] at hs
  split at hs
  · cases hs
  · obtain rfl := Option.some.inj hs
    refine ⟨fun h => absurd rfl h, fun i hi => ?_, fun i hi => .inl ?_, fun _ i h => by cases h⟩
    · by_cases hid : i = w.recv.nextId
      · exact .inr ⟨rfl, hid⟩
      · left
        dsimp only at hi
        split at hi
        · simpa [hid] using hi
        · exact hi
    · by_cases hid : i = w.recv.nextId
      · subst hid; simp at hi
      · simpa [hid] using hi

theorem frame_unsubscribe (hst : StreamsInv w) (hs : w.step (now, .unsubscribe id) = some w') :
    Frame w w' (.unsubscribe id) := by
  simp only [World.step] at hs
  split at hs
  · obtain rfl := Option.some.inj hs
    refine ⟨fun _ => ?_, fun _ h => .inl h, fun i hi => ?_, fun hnil i hi => ?_⟩
    · rcases Receiver.unsubscribe_cases id now hst.open_chan with ⟨-, heq⟩ | ⟨k, -, -, heq⟩ <;>
        simp only [heq]
    · by_cases hid : i = id
      · exact .inr (by rw [hid])
      · exact .inl (by simpa [World.setStatus, hid] using hi)
    · have hid : i ≠ id := by rintro rfl; simp [takesFrom] at hi
      rw [Receiver.unsubscribe_stopped (by simp [hnil])]
      simp [hid]
  · cases hs

/-- What one step leaves as it is. -/
theorem frame_step (hst : StreamsInv w) (hs : w.step (now, op) = some w') : Frame w w' op := by
  cases op with
  | deliver item =>
    obtain rfl := Option.some.inj hs
    exact frame_deliver hst item
  | subscribe => exact frame_subscribe hs
  | unsubscribe id => exact frame_unsubscribe hst hs
  | spawned id | spawnFailed id =>
    simp only [World.step] at hs
    split at hs
    · rename_i ht
      obtain rfl := Option.some.inj hs
      exact ⟨fun _ => rfl,
        fun i hi => .inl (inSubscribe_update (by simp [ht, Accept.inSubscribe]) hi),
        fun _ h => .inl h, fun _ _ _ => rfl⟩
    · cases hs
  | acceptFailed id =>
    simp only [World.step, Receiver.acceptFailed_spec hst.nodup] at hs
    split at hs
    · rename_i ht
      obtain rfl := Option.some.inj hs
      refine ⟨fun _ => rfl,
        fun i hi => .inl (inSubscribe_update (by simp [ht, Accept.inSubscribe]) hi),
        fun i hi => .inl (dropped_endAll hi), fun hnil i hi => ?_⟩
      have hid : i ≠ id := by rintro rfl; simp [takesFrom] at hi
      simp [hid, hnil]
    · cases hs
  | sendSpawnError id =>
    simp only [World.step] at hs
    split at hs
    · rename_i ht
      obtain rfl := Option.some.inj hs
      refine ⟨fun _ => rfl,
        fun i hi => .inl (inSubscribe_update (by simp [ht, Accept.inSubscribe]) hi),
        fun i hi => .inl hi, fun _ i _ => ?_⟩
      -- The error is no bundle.
      simp only [Receiver.chan_setChan]
      split
      · rename_i hid
        subst hid
        cases hc : (w.recv.chan i).closed <;> simp [Chan.sendOrDrop, hc]
      · rfl
    · cases hs
  | pollNext id =>
    obtain ⟨-, ⟨item, rest, -, rfl⟩ | ⟨-, rfl⟩⟩ := World.pollNext_cases hs
    · refine ⟨fun _ => rfl, fun _ h => .inl h, fun _ h => .inl h, fun _ i hi => ?_⟩
      have hid : i ≠ id := by rintro rfl; simp [takesFrom] at hi
      simp [Receiver.chan_setChan, hid]
    · exact ⟨fun _ => rfl, fun _ h => .inl h, fun _ h => .inl h, fun _ _ _ => rfl⟩
  | beginClose =>
    obtain rfl := Option.some.inj hs
    exact ⟨fun _ => rfl, fun _ h => .inl h, fun i hi => .inl (dropped_endAll hi), fun _ _ _ => rfl⟩
  | closeGuardDrop =>
    simp only [World.step] at hs
    split at hs
    · obtain rfl := Option.some.inj hs
      exact ⟨fun _ => rfl, fun _ h => .inl h, fun _ h => .inl h, fun _ _ _ => rfl⟩
    · cases hs
  | decide id =>
    simp only [World.step, Receiver.decideAccept] at hs
    split at hs
    · split at hs <;> obtain rfl := Option.some.inj hs <;>
        exact ⟨fun _ => rfl,
          fun i hi => .inl (inSubscribe_update (by simp [Accept.inSubscribe]) hi),
          fun _ h => .inl h, fun _ _ _ => rfl⟩
    · cases hs
  | iterate id failure =>
    simp only [World.step] at hs
    split at hs
    · rename_i ht
      have hst' : StreamsInv (w.setThread id .top) := by
        have : w.step (now, .iterate id none) = some (w.setThread id .top) := by
          simp [World.step, ht]
        exact hst.step this
      have hin : ∀ i, ((w.setThread id .top).thread i).inSubscribe = true →
          (w.thread i).inSubscribe = true := by
        intro i hi
        have hi' : (Function.update w.thread id .top i).inSubscribe = true := hi
        exact inSubscribe_update (by simp [Accept.inSubscribe]) hi'
      split at hs <;> obtain rfl := Option.some.inj hs
      · rename_i e
        have h := frame_deliver hst' (.error e)
        exact ⟨fun _ => h.nextId (by simp), fun i hi => .inl (hin i hi), fun i hi => .inl hi,
          fun hnil i _ => h.queue hnil i rfl⟩
      · exact ⟨fun _ => rfl, fun i hi => .inl (hin i hi), fun i hi => .inl hi, fun _ _ _ => rfl⟩
    · cases hs
  | panic id =>
    simp only [World.step] at hs
    split at hs
    · obtain rfl := Option.some.inj hs
      exact ⟨fun _ => rfl, fun i hi => .inl (inSubscribe_update (by simp [Accept.inSubscribe]) hi),
        fun i hi => .inl (dropped_endAll hi), fun _ _ _ => rfl⟩
    · cases hs

end Frame

end Cspcl.Inbound
