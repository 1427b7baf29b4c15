import Cspcl.Inbound.Order
import Cspcl.Lib.Simulation
import Cspcl.Receive.Loop

/-!
# The streams behind a gate

* `GateStreams`: each stream was opened by an open, and its requester has it, will get it, or has
  dropped it.
* `gate_world`: they are the streams of a receiver.
-/

namespace Cspcl

namespace Receive

open Inbound

/-- Each stream was opened by an open, and a requester that is gone has dropped its stream, or its
thread will. -/
structure GateStreams (g : Gate) : Prop where
  inv : GateInv g
  opened : ∀ id, id < g.w.recv.nextId → ∃ o, g.stream o = some id
  gone : ∀ o id, g.gone o = true → g.stream o = some id →
    g.opener o = .subscribed id ∨ g.w.status id = .dropped
  kept : ∀ o id, g.gone o = false → g.stream o = some id →
    g.opener o = .subscribed id ∨ g.answer o = some .stream

variable {g g' v : Gate} {op : GateOp} {now o : Nat} {sop : Inbound.Op}

/-- A step of the streams that opens none; the requesters that are gone were gone before, or drop
their streams. -/
theorem GateStreams.run (h : GateStreams g) (hinv : GateInv g') (hs : v.run now sop = some g')
    (hw : v.w = g.w) (hstream : v.stream = g.stream) (hsub : sop ≠ .subscribe)
    (hgone : ∀ o id, v.gone o = true → g.stream o = some id →
      v.opener o = .subscribed id ∨ g.w.status id = .dropped ∨ sop = .unsubscribe id)
    (hkept : ∀ o id, v.gone o = false → g.stream o = some id →
      v.opener o = .subscribed id ∨ v.answer o = some .stream) : GateStreams g' := by
  obtain ⟨w, hw', rfl⟩ := Option.map_eq_some_iff.mp hs
  rw [hw] at hw'
  refine ⟨hinv, fun id hid => ?_, fun o id ho hid => ?_, fun o id ho hid =>
    hkept o id ho (hstream ▸ hid)⟩
  · rw [show w.recv.nextId = _ from (frame_step h.inv.streams hw').nextId hsub] at hid
    rw [hstream]
    exact h.opened id hid
  · rw [hstream] at hid
    rcases hgone o id ho hid with hsub' | hd | rfl
    · exact .inl hsub'
    · exact .inr (World.step_dropped h.inv.streams hw' hd)
    · right
      simp only [World.step] at hw'
      split at hw'
      · obtain rfl := Option.some.inj hw'
        exact Function.update_self ..
      · cases hw'

/-- Nothing of the streams changes. -/
theorem GateStreams.same (h : GateStreams g) (hinv : GateInv g') (hw : g'.w = g.w)
    (hstream : g'.stream = g.stream)
    (hgone : ∀ o id, g'.gone o = true → g.stream o = some id →
      g'.opener o = .subscribed id ∨ g.w.status id = .dropped)
    (hkept : ∀ o id, g'.gone o = false → g.stream o = some id →
      g'.opener o = .subscribed id ∨ g'.answer o = some .stream) : GateStreams g' := by
  refine ⟨hinv, fun id hid => ?_, fun o id ho hid => ?_, fun o id ho hid =>
    hkept o id ho (hstream ▸ hid)⟩
  · rw [hw] at hid
    rw [hstream]
    exact h.opened id hid
  · rw [hstream] at hid
    rw [hw]
    exact hgone o id ho hid

theorem GateStreams.step (h : GateStreams g) (hs : g.step op = some g') : GateStreams g' := by
  have hinv := h.inv.step hs
  -- A thread that did not open a stream moves, and gives an answer or none.
  have hmoves : ∀ {o pc}, (∀ id, g.opener o ≠ .subscribed id) → ∀ o' id, g.gone o' = true →
      g.stream o' = some id →
      Function.update g.opener o pc o' = .subscribed id ∨ g.w.status id = .dropped := by
    intro o pc ho o' id hg hid
    by_cases hoo : o' = o
    · subst hoo
      exact .inr ((h.gone o' id hg hid).resolve_left (ho id))
    · rw [Function.update_of_ne hoo]
      exact h.gone o' id hg hid
  have hkeeps : ∀ {o pc} {ans : Nat → Option OpenAnswer},
      (∀ id, g.opener o ≠ .subscribed id) → (∀ o', o' ≠ o → ans o' = g.answer o') →
      (∀ id, g.stream o = some id → ans o = g.answer o) → ∀ o' id,
      g.gone o' = false → g.stream o' = some id →
      Function.update g.opener o pc o' = .subscribed id ∨ ans o' = some .stream := by
    intro o pc ans ho hne heq o' id hg hid
    by_cases hoo : o' = o
    · subst hoo
      rw [heq id hid]
      exact .inr ((h.kept o' id hg hid).resolve_left (ho id))
    · rw [Function.update_of_ne hoo, hne o' hoo]
      exact h.kept o' id hg hid
  cases op with
  | stream now sop =>
    simp only [Gate.step] at hs
    split at hs
    · refine h.run hinv hs rfl rfl (by rintro rfl; cases ‹Gate.inner .subscribe = true›) ?_ h.kept
      exact fun o id ho hid => (h.gone o id ho hid).imp_right .inl
    · cases hs
  | start o =>
    simp only [Gate.step] at hs
    split at hs
    · rename_i ho
      obtain rfl := Option.some.inj hs
      exact h.same hinv rfl rfl (hmoves (by rw [ho]; simp))
        (hkeeps (by rw [ho]; simp) (fun _ _ => rfl) fun _ _ => rfl)
    · cases hs
  | openLock o =>
    simp only [Gate.step] at hs
    split at hs
    · rename_i ho
      obtain rfl := Option.some.inj hs
      exact h.same hinv rfl rfl (hmoves (by rw [ho.1]; simp))
        (hkeeps (by rw [ho.1]; simp) (fun _ _ => rfl) fun _ _ => rfl)
    · cases hs
  | openRefuse o =>
    simp only [Gate.step] at hs
    split at hs
    · rename_i ho
      obtain rfl := Option.some.inj hs
      have hnone := (h.inv.unopened o (.inr (.inr ho.1))).1
      exact h.same hinv rfl rfl (hmoves (by rw [ho.1]; simp))
        (hkeeps (by rw [ho.1]; simp) (fun _ hne => Function.update_of_ne hne ..)
          fun id hid => by rw [hnone] at hid; cases hid)
    · cases hs
  | openUnlock o =>
    simp only [Gate.step] at hs
    split at hs
    · rename_i ho
      obtain rfl := Option.some.inj hs
      exact h.same hinv rfl rfl (hmoves (by rw [ho]; simp))
        (hkeeps (by rw [ho]; simp) (fun _ _ => rfl) fun _ _ => rfl)
    · cases hs
  | openPanic o =>
    have hpanic : ∀ holder, (g.opener o = .started ∨ g.opener o = .locked) →
        some { g.send o .failed .done with holder } = some g' → GateStreams g' := by
      intro holder ho hs
      obtain rfl := Option.some.inj hs
      have hne : ∀ id, g.opener o ≠ .subscribed id := by
        rcases ho with ho | ho <;> rw [ho] <;> simp
      have hnone := (h.inv.unopened o (.inr ho)).1
      exact h.same hinv rfl rfl (hmoves hne)
        (hkeeps hne (fun _ hne => Function.update_of_ne hne ..)
          fun id hid => by rw [hnone] at hid; cases hid)
    simp only [Gate.step] at hs
    split at hs
    · rename_i ho
      exact hpanic _ (.inl ho) hs
    · rename_i ho
      exact hpanic _ (.inr ho) hs
    · cases hs
  | openSubscribe o now =>
    simp only [Gate.step] at hs
    split at hs
    · rename_i ho
      obtain ⟨w, hw, rfl⟩ := Option.map_eq_some_iff.mp hs
      have hnone := (h.inv.unopened o (.inr (.inr ho.1))).1
      have hnext : w.recv.nextId = g.w.recv.nextId + 1 := by
        simp only [Gate.setOpener, World.step, Receiver.subscribe_spec] at hw
        split at hw
        · cases hw
        · obtain rfl := Option.some.inj hw
          rfl
      -- The thread has the new stream, and the others have theirs.
      have hold : ∀ o' id, Function.update g.stream o (some g.w.recv.nextId) o' = some id →
          Function.update g.opener o (.subscribed g.w.recv.nextId) o' = .subscribed id ∨
            o' ≠ o ∧ g.stream o' = some id := by
        intro o' id hid
        by_cases hoo : o' = o
        · subst hoo
          rw [Function.update_self] at hid ⊢
          cases hid
          exact .inl rfl
        · exact .inr ⟨hoo, (Function.update_of_ne hoo ..).symm.trans hid⟩
      refine ⟨hinv, fun id hid => ?_, fun o' id ho' hid => ?_, fun o' id ho' hid => ?_⟩
      · by_cases hnew : id = g.w.recv.nextId
        · exact ⟨o, hnew ▸ Function.update_self ..⟩
        · have hid' : id < g.w.recv.nextId + 1 := hnext ▸ hid
          obtain ⟨o', ho'⟩ := h.opened id (by omega)
          refine ⟨o', (Function.update_of_ne ?_ ..).trans ho'⟩
          rintro rfl
          rw [hnone] at ho'
          cases ho'
      · rcases hold o' id hid with hsub | ⟨hoo, hid'⟩
        · exact .inl hsub
        · rcases h.gone o' id ho' hid' with hsub | hd
          · exact .inl ((Function.update_of_ne hoo ..).trans hsub)
          · exact .inr (World.step_dropped h.inv.streams hw hd)
      · rcases hold o' id hid with hsub | ⟨hoo, hid'⟩
        · exact .inl hsub
        · exact (h.kept o' id ho' hid').imp_left ((Function.update_of_ne hoo ..).trans ·)
    · cases hs
  | openSend o now =>
    simp only [Gate.step] at hs
    split at hs
    · rename_i id ho
      have hid₀ := (h.inv.subscribed o id ho).1
      split at hs
      · cases hs
      split at hs
      · rename_i hg₀
        refine h.run (v := g.setOpener o .leaving) hinv hs rfl rfl (by simp) (fun o' id' hg hid => ?_)
          fun o' id' hg hid => ?_
        · by_cases hoo : o' = o
          · subst hoo
            rw [hid₀] at hid
            cases hid
            exact .inr (.inr rfl)
          · rcases h.gone o' id' hg hid with hsub | hd
            · exact .inl ((Function.update_of_ne hoo ..).trans hsub)
            · exact .inr (.inl hd)
        · have hoo : o' ≠ o := by
            rintro rfl
            have hg' : g.gone o' = false := hg
            rw [hg₀] at hg'
            cases hg'
          exact (h.kept o' id' hg hid).imp_left ((Function.update_of_ne hoo ..).trans ·)
      · rename_i hg₀
        obtain rfl := Option.some.inj hs
        refine h.same hinv rfl rfl (fun o' id' hg hid => ?_) fun o' id' hg hid => ?_
        · have hoo : o' ≠ o := by
            rintro rfl
            exact hg₀ hg
          exact (h.gone o' id' hg hid).imp_left ((Function.update_of_ne hoo ..).trans ·)
        · by_cases hoo : o' = o
          · exact .inr (hoo ▸ Function.update_self ..)
          · rcases h.kept o' id' hg hid with hsub | hans
            · exact .inl ((Function.update_of_ne hoo ..).trans hsub)
            · exact .inr ((Function.update_of_ne hoo ..).trans hans)
    · cases hs
  | poll o =>
    simp only [Gate.step] at hs
    split at hs
    · cases hs
    split at hs
    · exact h.run hinv hs rfl rfl (by simp) (fun o id ho hid => (h.gone o id ho hid).imp_right .inl)
        h.kept
    · cases hs
  | drop o now =>
    simp only [Gate.step] at hs
    split at hs
    · cases hs
    rename_i hg₀
    have hold : ∀ o' b, Function.update g.gone o true o' = b → o' ≠ o → g.gone o' = b :=
      fun o' b hg hoo => (Function.update_of_ne hoo ..).symm.trans hg
    have hne : ∀ o', Function.update g.gone o true o' = false → o' ≠ o := by
      rintro o' hg rfl
      rw [Function.update_self] at hg
      cases hg
    split at hs
    · rename_i id hans hid₀
      refine h.run (v := { g with gone := Function.update g.gone o true }) hinv hs rfl rfl (by simp)
        (fun o' id' hg hid => ?_) fun o' id' hg hid => h.kept o' id' (hold o' _ hg (hne o' hg)) hid
      by_cases hoo : o' = o
      · subst hoo
        rw [hid₀] at hid
        cases hid
        exact .inr (.inr rfl)
      · exact (h.gone o' id' (hold o' _ hg hoo) hid).imp_right .inl
    · rename_i hno
      obtain rfl := Option.some.inj hs
      refine h.same hinv rfl rfl (fun o' id' hg hid => ?_)
        fun o' id' hg hid => h.kept o' id' (hold o' _ hg (hne o' hg)) hid
      by_cases hoo : o' = o
      · subst hoo
        refine .inl ((h.kept o' id' (by simpa using hg₀) hid).resolve_right fun hans => ?_)
        exact hno id' hans hid
      · exact h.gone o' id' (hold o' _ hg hoo) hid
  | shutLock k | shutMark k | shutUnlock k =>
    simp only [Gate.step] at hs
    split at hs
    · obtain rfl := Option.some.inj hs
      exact h.same hinv rfl rfl h.gone h.kept
    · cases hs
  | shutBegin k now =>
    simp only [Gate.step] at hs
    split at hs
    · exact h.run (v := g.setCloser k .begun) hinv hs rfl rfl (by simp)
        (fun o id ho hid => (h.gone o id ho hid).imp_right .inl) h.kept
    · cases hs
  | shutEnd k =>
    simp only [Gate.step] at hs
    split at hs
    · exact h.run (v := g.setCloser k .ended) hinv hs rfl rfl (by simp)
        (fun o id ho hid => (h.gone o id ho hid).imp_right .inl) h.kept
    · cases hs

theorem gateStreams_inductive : gateSys.Inductive GateStreams where
  init g hg := by
    have hinv := gateSys_inv.init g hg
    obtain ⟨now, rfl⟩ := hg
    exact ⟨hinv, nofun, nofun, nofun⟩
  step _ _ _ h hs := h.step hs

/-- A requester that has its stream can poll and drop it. -/
theorem GateInv.held {id : Nat} (h : GateInv g) (ho : g.Holds o) (hid : g.stream o = some id) :
    g.w.held id = true := by
  have hsub : g.opener o ≠ .subscribed id := fun hs => by
    have hn := (h.subscribed o id hs).2.1
    rw [ho.1] at hn
    cases hn
  have hin := h.inSubscribe o id hid hsub
  have hd := h.dropped o id hid (.inr ho)
  have hlt := h.lt_nextId o id hid
  have hu := mt (h.streams.unopened_iff id).mp (by omega)
  unfold World.held
  cases hst : g.w.status id with
  | unopened => exact absurd hst hu
  | dropped => exact absurd hst hd
  | «open» | ended =>
    rw [hin]
    rfl

/-- The step of the streams that a step of the gate takes. -/
inductive Gate.Takes (g : Gate) : GateOp → Inbound.Op → Prop
  | inner {now : Nat} {sop : Inbound.Op} : inner sop = true → g.Takes (.stream now sop) sop
  | subscribe {o now : Nat} : g.opener o = .locked → g.Takes (.openSubscribe o now) .subscribe
  | leave {o now id : Nat} : g.opener o = .subscribed id → g.gone o = true →
    g.Takes (.openSend o now) (.unsubscribe id)
  | poll {o id : Nat} : g.stream o = some id → g.Takes (.poll o) (.pollNext id)
  | drop {o now id : Nat} : g.stream o = some id → g.Takes (.drop o now) (.unsubscribe id)
  | close {k now : Nat} : g.closer k = .marked → g.Takes (.shutBegin k now) .beginClose
  | closed {k : Nat} : g.Takes (.shutEnd k) .closeGuardDrop

/-- A step of the gate is one of the streams, or leaves them as they are. -/
theorem Gate.step_world (hs : g.step op = some g') :
    (∃ now sop, g.Takes op sop ∧ g.w.step (now, sop) = some g'.w) ∨
      g'.w = g.w ∧ (∀ o, op ≠ .poll o) ∧ ∀ o now, op ≠ .openSubscribe o now := by
  have hrun : ∀ {v : Gate} {now sop}, v.w = g.w → g.Takes op sop → v.run now sop = some g' →
      ∃ now sop, g.Takes op sop ∧ g.w.step (now, sop) = some g'.w := by
    intro v now sop hw ht hr
    obtain ⟨w, hw', rfl⟩ := Option.map_eq_some_iff.mp hr
    exact ⟨now, sop, ht, hw ▸ hw'⟩
  cases op with
  | stream now sop =>
    simp only [Gate.step] at hs
    split at hs
    · rename_i hinner
      exact .inl (hrun rfl (.inner hinner) hs)
    · cases hs
  | openSend o now =>
    simp only [Gate.step] at hs
    split at hs
    · rename_i id ho
      split at hs
      · cases hs
      split at hs
      · rename_i hg
        exact .inl (hrun (v := g.setOpener o .leaving) rfl (.leave ho hg) hs)
      · obtain rfl := Option.some.inj hs
        exact .inr ⟨rfl, (by simp), (by simp)⟩
    · cases hs
  | poll o =>
    simp only [Gate.step] at hs
    split at hs
    · cases hs
    split at hs
    · rename_i id _ hid
      exact .inl (hrun rfl (.poll hid) hs)
    · cases hs
  | drop o now =>
    simp only [Gate.step] at hs
    split at hs
    · cases hs
    split at hs
    · rename_i id _ hid
      exact .inl (hrun (v := { g with gone := Function.update g.gone o true }) rfl (.drop hid) hs)
    · obtain rfl := Option.some.inj hs
      exact .inr ⟨rfl, (by simp), (by simp)⟩
  | openSubscribe o now =>
    simp only [Gate.step] at hs
    split at hs
    · rename_i ho
      exact .inl (hrun (v := { g.setOpener o (.subscribed g.w.recv.nextId) with
        stream := Function.update g.stream o (some g.w.recv.nextId) }) rfl (.subscribe ho.1) hs)
    · cases hs
  | shutBegin k now =>
    simp only [Gate.step] at hs
    split at hs
    · rename_i hk
      exact .inl (hrun (v := g.setCloser k .begun) rfl (.close hk) hs)
    · cases hs
  | shutEnd k =>
    simp only [Gate.step] at hs
    split at hs
    · exact .inl (hrun (v := g.setCloser k .ended) rfl .closed hs)
    · cases hs
  | _ =>
    simp only [Gate.step] at hs
    split at hs
    all_goals cases hs
    all_goals exact .inr ⟨rfl, (by simp), (by simp)⟩

/-- The streams behind the gate are those of a receiver. -/
theorem gate_world : gateSys.Simulation streamSys fun g w => g.w = w where
  init g hg := by
    obtain ⟨now, rfl⟩ := hg
    exact ⟨_, ⟨now, rfl⟩, rfl⟩
  step g op g' w _ hw hs := by
    subst hw
    rcases Gate.step_world hs with ⟨now, sop, -, hw⟩ | ⟨hw, -⟩
    · exact .inr ⟨_, _, hw, rfl⟩
    · exact .inl hw

theorem reach_world (hg : gateSys.Reach g) : streamSys.Reach g.w := by
  obtain ⟨w, hw, rfl⟩ := gate_world.reach hg
  exact hw

/-- The bundles that the requester of the open `o` got from its stream. -/
def Gate.given (g : Gate) (o : Nat) : List Delivery :=
  match g.stream o with
  | some id => bundles (g.w.yielded id)
  | none => []

/-- They change by its own polls alone. -/
theorem Gate.given_step (hg : gateSys.Reach g) (hs : g.step op = some g') (hop : op ≠ .poll o) :
    g'.given o = g.given o := by
  have hinv := gateSys_inv.reach hg
  have hrun : ∀ {v : Gate} {now sop}, v.w = g.w → v.stream = g.stream → v.run now sop = some g' →
      (∀ id, g.stream o = some id → sop ≠ .pollNext id) → g'.given o = g.given o := by
    intro v now sop hw hstream hr hsop
    obtain ⟨w, hw', rfl⟩ := Option.map_eq_some_iff.mp hr
    rw [hw] at hw'
    unfold Gate.given
    rw [show Gate.stream { v with w } = g.stream from hstream]
    cases hid : g.stream o with
    | none => rfl
    | some id => exact congrArg bundles (World.step_yielded hw' (hsop id hid))
  have hsame : g'.w = g.w → g'.stream = g.stream → g'.given o = g.given o := by
    intro hw hstream
    unfold Gate.given
    rw [hw, hstream]
  cases op with
  | stream now sop =>
    simp only [Gate.step] at hs
    split at hs
    · refine hrun rfl rfl hs ?_
      rintro id - rfl
      cases ‹Gate.inner (.pollNext id) = true›
    · cases hs
  | openSend o' now =>
    simp only [Gate.step] at hs
    split at hs
    · split at hs
      · cases hs
      split at hs
      · exact hrun (v := g.setOpener o' .leaving) rfl rfl hs (by simp)
      · obtain rfl := Option.some.inj hs
        exact hsame rfl rfl
    · cases hs
  | poll o' =>
    simp only [Gate.step] at hs
    split at hs
    · cases hs
    split at hs
    · rename_i id' _ hid'
      refine hrun rfl rfl hs ?_
      rintro id hid heq
      cases heq
      exact hop (congrArg _ (hinv.inj o' o _ hid' hid))
    · cases hs
  | drop o' now =>
    simp only [Gate.step] at hs
    split at hs
    · cases hs
    split at hs
    · exact hrun (v := { g with gone := Function.update g.gone o' true }) rfl rfl hs (by simp)
    · obtain rfl := Option.some.inj hs
      exact hsame rfl rfl
  | openSubscribe o' now =>
    simp only [Gate.step] at hs
    split at hs
    · rename_i ho
      obtain ⟨w, hw, rfl⟩ := Option.map_eq_some_iff.mp hs
      have hy : ∀ id, w.yielded id = g.w.yielded id := fun id => World.step_yielded hw (by simp)
      unfold Gate.given
      dsimp only
      by_cases hoo : o = o'
      · -- The new stream has yielded nothing.
        subst hoo
        have hnew := (keptInv_inductive.reach (reach_world hg)).1.2.unopened _
          ((hinv.streams.unopened_iff _).mpr (Nat.le_refl _))
        rw [Function.update_self, (hinv.unopened o (.inr (.inr ho.1))).1]
        simp only [hy, hnew.2]
        rfl
      · rw [Function.update_of_ne hoo]
        simp only [hy]
    · cases hs
  | shutBegin k now =>
    simp only [Gate.step] at hs
    split at hs
    · exact hrun (v := g.setCloser k .begun) rfl rfl hs (by simp)
    · cases hs
  | shutEnd k =>
    simp only [Gate.step] at hs
    split at hs
    · exact hrun (v := g.setCloser k .ended) rfl rfl hs (by simp)
    · cases hs
  | _ =>
    simp only [Gate.step] at hs
    split at hs
    all_goals cases hs
    all_goals exact hsame rfl rfl

/-- The bundle that a poll of the stream of the open `o` returns, if any. -/
def Gate.taken (g : Gate) (o : Nat) : List Delivery :=
  match g.next o with
  | .ready (.ok x) => [x]
  | _ => []

theorem Gate.given_poll (hs : g.step (.poll o) = some g') :
    g'.given o = g.given o ++ g.taken o := by
  simp only [Gate.step] at hs
  split at hs
  · cases hs
  split at hs
  · rename_i id _ hid
    obtain ⟨w, hw, rfl⟩ := Option.map_eq_some_iff.mp hs
    simp only [Gate.given, Gate.taken, Gate.next, hid]
    obtain ⟨-, ⟨item, rest, hq, rfl⟩ | ⟨hq, rfl⟩⟩ := World.pollNext_cases hw
    · dsimp only
      rw [Function.update_self, Receiver.pollNext, Chan.poll_cons hq]
      cases item <;> simp [bundles, Except.toOption]
    · rw [Receiver.pollNext, Chan.poll_nil hq]
      dsimp only
      split
      · rename_i h
        split at h <;> cases h
      · simp
  · cases hs

theorem Gate.gone_drop (hs : g.step (.drop o now) = some g') : g'.gone o = true := by
  simp only [Gate.step] at hs
  split at hs
  · cases hs
  split at hs
  · obtain ⟨w, -, rfl⟩ := Option.map_eq_some_iff.mp hs
    exact Function.update_self ..
  · obtain rfl := Option.some.inj hs
    exact Function.update_self ..

/-- Only `shutLock` begins a close. -/
theorem Gate.step_closer {k : Nat} (hs : g.step op = some g') (hk : g'.closer k ≠ .idle) :
    g.closer k ≠ .idle ∨ op = .shutLock k := by
  have hmoves : ∀ {k' pc}, g.closer k' ≠ .idle → Function.update g.closer k' pc k ≠ .idle →
      g.closer k ≠ .idle := by
    intro k' pc hk' hne
    by_cases hkk : k = k'
    · rwa [hkk]
    · rwa [Function.update_of_ne hkk] at hne
  have hrun : ∀ {v : Gate} {now sop}, v.run now sop = some g' → v.closer k ≠ .idle := by
    intro v now sop hr
    obtain ⟨w, -, rfl⟩ := Option.map_eq_some_iff.mp hr
    exact hk
  cases op with
  | shutLock k' =>
    simp only [Gate.step] at hs
    split at hs
    · obtain rfl := Option.some.inj hs
      by_cases hkk : k = k'
      · exact .inr (congrArg _ hkk.symm)
      · exact .inl ((Function.update_of_ne hkk ..).symm.trans_ne hk)
    · cases hs
  | shutMark k' | shutUnlock k' =>
    simp only [Gate.step] at hs
    split at hs
    · rename_i hk'
      obtain rfl := Option.some.inj hs
      exact .inl (hmoves (by rw [hk']; simp) hk)
    · cases hs
  | shutBegin k' now =>
    simp only [Gate.step] at hs
    split at hs
    · rename_i hk'
      exact .inl (hmoves (by rw [hk']; simp) (hrun hs :))
    · cases hs
  | shutEnd k' =>
    simp only [Gate.step] at hs
    split at hs
    · rename_i hk'
      exact .inl (hmoves (by rw [hk']; simp) (hrun hs :))
    · cases hs
  | stream now sop | openSubscribe o now =>
    simp only [Gate.step] at hs
    split at hs
    · exact .inl (hrun hs :)
    · cases hs
  | openSend o now =>
    simp only [Gate.step] at hs
    split at hs
    · split at hs
      · cases hs
      split at hs
      · exact .inl (hrun hs :)
      · obtain rfl := Option.some.inj hs
        exact .inl hk
    · cases hs
  | poll o =>
    simp only [Gate.step] at hs
    split at hs
    · cases hs
    split at hs
    · exact .inl (hrun hs :)
    · cases hs
  | drop o now =>
    simp only [Gate.step] at hs
    split at hs
    · cases hs
    split at hs
    · exact .inl (hrun hs :)
    · obtain rfl := Option.some.inj hs
      exact .inl hk
  | _ =>
    simp only [Gate.step] at hs
    split at hs
    all_goals cases hs
    all_goals exact .inl hk

end Receive

end Cspcl
