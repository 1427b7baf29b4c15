import Cspcl.Receive.Gate

/-!
# Behind a close

`GateShut`: a call of `shutdown` or `cleanup` has set the flag and ended the streams. Every step
keeps it.

* `GateShut.none_open`, `GateShut.run`: no stream is open, and none is opened.
* `GateShut.not_pending`, `GateShut.queue`: what is left in a stream is its requester's, who finds
  the end of the stream behind it.
-/

namespace Cspcl.Receive

open Inbound

variable {g g' : Gate} {op : GateOp} {o k id : Nat}

/-- The flag is set and the streams were ended. -/
structure GateShut (g : Gate) : Prop where
  inv : GateInv g
  closed : g.closed = true
  off : g.w.recv.isReceiving = false

namespace GateShut

theorem of_begun (h : GateInv g) (hk : (g.closer k).hasBegun = true) : GateShut g :=
  ⟨h, h.marked k (ShutPc.hasMarked_of_hasBegun hk), h.begun k hk⟩

theorem none_open (h : GateShut g) (id : Nat) : g.w.status id ≠ .open := by
  intro ho
  have hmem := (h.inv.streams.mem_iff id).mpr ho
  rw [h.inv.threads.off_iff.mp h.off] at hmem
  cases hmem

/-- No step of the streams but `subscribe` turns receiving on, and the flag is in its way. -/
theorem step (h : GateShut g) (hs : g.step op = some g') :
    GateShut g' ∧ g'.stream = g.stream := by
  have hinv := h.inv.step hs
  have hrun : ∀ {v : Gate} {now : Nat} {sop : Op}, v.w = g.w → v.closed = true →
      v.stream = g.stream → sop ≠ .subscribe → v.run now sop = some g' →
      GateShut g' ∧ g'.stream = g.stream := by
    intro v now sop hw hc hstr hsub hr
    obtain ⟨w, hw', rfl⟩ := Option.map_eq_some_iff.mp hr
    rw [hw] at hw'
    exact ⟨⟨hinv, hc, (World.step_flags h.inv.streams hw').2.1 hsub h.off⟩, hstr⟩
  cases op with
  | stream now sop =>
    simp only [Gate.step] at hs
    split at hs
    · exact hrun rfl h.closed rfl (by rintro rfl; cases ‹Gate.inner .subscribe = true›) hs
    · cases hs
  | openSubscribe o now =>
    simp only [Gate.step] at hs
    split at hs
    · rename_i hc
      rw [h.closed] at hc
      cases hc.2
    · cases hs
  | openSend o now =>
    simp only [Gate.step] at hs
    split at hs
    · rename_i id ho
      -- A thread in `subscribe` has the mutex, and found the flag clear.
      have hc := (h.inv.subscribed o id ho).2.2
      rw [h.closed] at hc
      cases hc
    · cases hs
  | poll o =>
    simp only [Gate.step] at hs
    split at hs
    · cases hs
    split at hs
    · exact hrun rfl h.closed rfl (by simp) hs
    · cases hs
  | drop o now =>
    simp only [Gate.step] at hs
    split at hs
    · cases hs
    split at hs
    · exact hrun (v := { g with gone := Function.update g.gone o true }) rfl h.closed rfl
        (by simp) hs
    · obtain rfl := Option.some.inj hs
      exact ⟨⟨hinv, h.closed, h.off⟩, rfl⟩
  | shutBegin k now =>
    simp only [Gate.step] at hs
    split at hs
    · exact hrun (v := g.setCloser k .begun) rfl h.closed rfl (by simp) hs
    · cases hs
  | shutEnd k =>
    simp only [Gate.step] at hs
    split at hs
    · exact hrun (v := g.setCloser k .ended) rfl h.closed rfl (by simp) hs
    · cases hs
  | openPanic o =>
    simp only [Gate.step] at hs
    split at hs
    · obtain rfl := Option.some.inj hs
      exact ⟨⟨hinv, h.closed, h.off⟩, rfl⟩
    · obtain rfl := Option.some.inj hs
      exact ⟨⟨hinv, h.closed, h.off⟩, rfl⟩
    · cases hs
  | start o | openLock o | openRefuse o | openUnlock o | shutLock k | shutUnlock k =>
    simp only [Gate.step] at hs
    split at hs
    · obtain rfl := Option.some.inj hs
      exact ⟨⟨hinv, h.closed, h.off⟩, rfl⟩
    · cases hs
  | shutMark k =>
    simp only [Gate.step] at hs
    split at hs
    · obtain rfl := Option.some.inj hs
      exact ⟨⟨hinv, rfl, h.off⟩, rfl⟩
    · cases hs

theorem run {g t : Gate} {ops : List GateOp} (hr : gateSys.Run g ops t) (h : GateShut g) :
    GateShut t ∧ t.stream = g.stream := by
  induction hr with
  | nil => exact ⟨h, rfl⟩
  | cons hs _ ih =>
    obtain ⟨h₁, he⟩ := h.step hs
    obtain ⟨h₂, he₂⟩ := ih h₁
    exact ⟨h₂, he₂.trans he⟩

/-- An ended stream is at its end once its queue is empty: its reader is not left waiting. -/
theorem not_pending (h : GateShut g) {id : Nat} (ho : g.stream o = some id) :
    (g.w.recv.pollNext id (g.w.thread id).inSubscribe).1 ≠ .pending := by
  have hne : g.opener o ≠ .subscribed id := fun hsub => by
    have hc := (h.inv.subscribed o id hsub).2.2
    rw [h.closed] at hc
    cases hc
  rw [h.inv.inSubscribe o id ho hne]
  simp only [Receiver.pollNext, h.inv.threads.off_iff.mp h.off]
  cases hq : (g.w.recv.chan id).queue with
  | nil => simp [Chan.poll_nil hq]
  | cons item rest => simp [Chan.poll_cons hq]

/-- Only its requester takes bundles out of a stream, and no more come in. -/
theorem queue (h : GateShut g) (hs : g.step op = some g') (ho : g.stream o = some id)
    (hp : op ≠ .poll o) (hd : ∀ now, op ≠ .drop o now) :
    bundles (g'.w.recv.chan id).queue = bundles (g.w.recv.chan id).queue := by
  have hnil := h.inv.threads.off_iff.mp h.off
  have hin : (g.w.thread id).inSubscribe = false := h.inv.inSubscribe o id ho fun hsub => by
    have hc := (h.inv.subscribed o id hsub).2.2
    rw [h.closed] at hc
    cases hc
  have hrun : ∀ {v : Gate} {now : Nat} {sop : Op}, v.w = g.w → takesFrom id sop = false →
      v.run now sop = some g' →
      bundles (g'.w.recv.chan id).queue = bundles (g.w.recv.chan id).queue := by
    intro v now sop hw ht hr
    obtain ⟨w, hw', rfl⟩ := Option.map_eq_some_iff.mp hr
    rw [hw] at hw'
    exact (frame_step h.inv.streams hw').queue hnil id ht
  -- Another open's stream is another one.
  have hother : ∀ {o' i : Nat}, g.stream o' = some i → o' ≠ o → i ≠ id := by
    rintro o' i hi hne rfl
    exact hne (h.inv.inj o' o i hi ho)
  cases op with
  | stream now sop =>
    simp only [Gate.step] at hs
    split at hs
    · rename_i hinner
      by_cases hf : sop = .acceptFailed id
      · -- `accept_failed` runs in `subscribe`.
        subst hf
        simp only [Gate.run, World.step] at hs
        split at hs
        · rename_i ht
          simp [ht, Accept.inSubscribe] at hin
        · cases hs
      · refine hrun rfl ?_ hs
        cases sop <;> simp_all [Gate.inner, takesFrom]
    · cases hs
  | openSubscribe o' now =>
    simp only [Gate.step] at hs
    split at hs
    · rename_i hc
      rw [h.closed] at hc
      cases hc.2
    · cases hs
  | openSend o' now =>
    simp only [Gate.step] at hs
    split at hs
    · rename_i id' ho'
      have hc := (h.inv.subscribed o' id' ho').2.2
      rw [h.closed] at hc
      cases hc
    · cases hs
  | poll o' =>
    simp only [Gate.step] at hs
    split at hs
    · cases hs
    split at hs
    · rename_i i _ hi
      have hne := hother hi (by rintro rfl; exact hp rfl)
      exact hrun rfl (by simpa [takesFrom] using hne) hs
    · cases hs
  | drop o' now =>
    have ho' : o' ≠ o := by rintro rfl; exact hd now rfl
    simp only [Gate.step] at hs
    split at hs
    · cases hs
    split at hs
    · rename_i i _ hi
      have hne := hother hi ho'
      exact hrun (v := { g with gone := Function.update g.gone o' true }) rfl
        (by simpa [takesFrom] using hne) hs
    · obtain rfl := Option.some.inj hs
      rfl
  | shutBegin k now =>
    simp only [Gate.step] at hs
    split at hs
    · exact hrun (v := g.setCloser k .begun) rfl rfl hs
    · cases hs
  | shutEnd k =>
    simp only [Gate.step] at hs
    split at hs
    · exact hrun (v := g.setCloser k .ended) rfl rfl hs
    · cases hs
  | openPanic o' =>
    simp only [Gate.step] at hs
    split at hs
    · obtain rfl := Option.some.inj hs
      rfl
    · obtain rfl := Option.some.inj hs
      rfl
    · cases hs
  | start o' | openLock o' | openRefuse o' | openUnlock o' | shutLock k | shutUnlock k
    | shutMark k =>
    simp only [Gate.step] at hs
    split at hs
    · obtain rfl := Option.some.inj hs
      rfl
    · cases hs

end GateShut

end Cspcl.Receive
