import Cspcl.Receive.GateStreams

/-!
# One requester behind a gate

A requester that has at most one open at a time, and drops its stream only at its end, gets the
bundles in the order in which the listeners delivered them, over all the streams that it opens.

* `gate_starts`: behind the gate no close comes between `subscribe` and the start of the accept
  thread, so a stream that fails to start was open.
* `Serving`: the requester's open is the only one that has a stream or will get one. `Serving.step`,
  `Serving.asks` and `Serving.release`: its steps.
-/

namespace Cspcl.Receive

open Inbound

variable {g g' : Gate} {op : GateOp} {o now : Nat}

/-- The thread may still open a stream, or hand one over. -/
def OpenPc.opens : OpenPc → Bool
  | started | locked | subscribed _ => true
  | _ => false

theorem Gate.opens_step (hs : g.step op = some g') (ho : (g'.opener o).opens = true) :
    (g.opener o).opens = true ∨ op = .start o := by
  have hmoves : ∀ {o' pc}, (g.opener o').opens = true →
      (Function.update g.opener o' pc o).opens = true → (g.opener o).opens = true := by
    intro o' pc ho' hu
    by_cases hoo : o = o'
    · rwa [hoo]
    · rwa [Function.update_of_ne hoo] at hu
  have hleaves : ∀ {o' pc}, pc.opens = false →
      (Function.update g.opener o' pc o).opens = true → (g.opener o).opens = true := by
    intro o' pc hpc hu
    by_cases hoo : o = o'
    · rw [hoo, Function.update_self, hpc] at hu
      cases hu
    · rwa [Function.update_of_ne hoo] at hu
  have hrun : ∀ {v : Gate} {now sop}, v.run now sop = some g' → (v.opener o).opens = true := by
    intro v now sop hr
    obtain ⟨w, -, rfl⟩ := Option.map_eq_some_iff.mp hr
    exact ho
  cases op with
  | start o' =>
    simp only [Gate.step] at hs
    split at hs
    · obtain rfl := Option.some.inj hs
      by_cases hoo : o = o'
      · exact .inr (congrArg _ hoo.symm)
      · refine .inl ?_
        rwa [show (g.setOpener o' .started).opener o = g.opener o from
          Function.update_of_ne hoo ..] at ho
    · cases hs
  | openLock o' =>
    simp only [Gate.step] at hs
    split at hs
    · rename_i hpc
      obtain rfl := Option.some.inj hs
      exact .inl (hmoves (by rw [hpc.1]; rfl) ho)
    · cases hs
  | openSubscribe o' now =>
    simp only [Gate.step] at hs
    split at hs
    · rename_i hpc
      exact .inl (hmoves (by rw [hpc.1]; rfl) (hrun hs :))
    · cases hs
  | openRefuse o' =>
    simp only [Gate.step] at hs
    split at hs
    · obtain rfl := Option.some.inj hs
      exact .inl (hleaves rfl ho)
    · cases hs
  | openSend o' now =>
    simp only [Gate.step] at hs
    split at hs
    · split at hs
      · cases hs
      split at hs
      · exact .inl (hleaves rfl (hrun hs :))
      · obtain rfl := Option.some.inj hs
        exact .inl (hleaves rfl ho)
    · cases hs
  | openUnlock o' =>
    simp only [Gate.step] at hs
    split at hs
    · obtain rfl := Option.some.inj hs
      exact .inl (hleaves rfl ho)
    · cases hs
  | openPanic o' =>
    simp only [Gate.step] at hs
    split at hs
    · obtain rfl := Option.some.inj hs
      exact .inl (hleaves rfl ho)
    · obtain rfl := Option.some.inj hs
      exact .inl (hleaves rfl ho)
    · cases hs
  | stream now sop | shutBegin k now | shutEnd k =>
    simp only [Gate.step] at hs
    split at hs
    · exact .inl (hrun hs :)
    · cases hs
  | poll o' =>
    simp only [Gate.step] at hs
    split at hs
    · cases hs
    split at hs
    · exact .inl (hrun hs :)
    · cases hs
  | drop o' now =>
    simp only [Gate.step] at hs
    split at hs
    · cases hs
    split at hs
    · exact .inl (hrun hs :)
    · obtain rfl := Option.some.inj hs
      exact .inl ho
  | shutLock k | shutMark k | shutUnlock k =>
    simp only [Gate.step] at hs
    split at hs
    · obtain rfl := Option.some.inj hs
      exact .inl ho
    · cases hs

/-- The streams of the opens after a step. -/
def Gate.streams (g : Gate) : GateOp → Nat → Option Nat
  | .openSubscribe o _ => Function.update g.stream o (some g.w.recv.nextId)
  | _ => g.stream

theorem Gate.stream_step (hs : g.step op = some g') : g'.stream = g.streams op := by
  have hrun : ∀ {v : Gate} {now sop}, v.run now sop = some g' → g'.stream = v.stream := by
    intro v now sop hr
    obtain ⟨w, -, rfl⟩ := Option.map_eq_some_iff.mp hr
    rfl
  cases op with
  | openSend o now =>
    simp only [Gate.step] at hs
    split at hs
    · split at hs
      · cases hs
      split at hs
      · exact (hrun hs :)
      · obtain rfl := Option.some.inj hs
        rfl
    · cases hs
  | openSubscribe o now | stream now sop | shutBegin k now | shutEnd k =>
    simp only [Gate.step] at hs
    split at hs
    · exact (hrun hs :)
    · cases hs
  | poll o =>
    simp only [Gate.step] at hs
    split at hs
    · cases hs
    split at hs
    · exact (hrun hs :)
    · cases hs
  | drop o now =>
    simp only [Gate.step] at hs
    split at hs
    · cases hs
    split at hs
    · exact (hrun hs :)
    · obtain rfl := Option.some.inj hs
      rfl
  | _ =>
    simp only [Gate.step] at hs
    split at hs
    all_goals cases hs
    all_goals rfl

/-- A close waits for the thread that opens a stream. -/
theorem gate_starts : gateSys.Inductive fun g => GateStreams g ∧ g.w.Starts := by
  refine gateStreams_inductive.given ?_ fun g op g' h hst hs => ?_
  · rintro g ⟨now, rfl⟩ id hid
    cases hid
  · rcases Gate.step_world hs with ⟨now, sop, ht, hw⟩ | ⟨hw, -⟩
    · refine World.Starts.step hst h.inv.streams h.inv.threads hw ?_
      rintro rfl id
      cases ht with
      | inner hinner => cases hinner
      | @close c _ hc =>
        by_contra hid
        have hid' : (g.w.thread id).starting = true := by simpa using hid
        have hu := mt (h.inv.streams.unopened_iff id).mpr (by rw [hst id hid']; nofun)
        obtain ⟨o, ho⟩ := h.opened id (by omega)
        have hsub : g.opener o = .subscribed id := by
          by_contra hne
          have hin := h.inv.inSubscribe o id ho hne
          rw [Accept.inSubscribe_of_starting hid'] at hin
          cases hin
        have hholder := (h.inv.opener_iff o).mp (by rw [hsub]; rfl)
        rw [(h.inv.closer_iff c).mp (by rw [hc]; rfl)] at hholder
        cases hholder
    · rw [hw]
      exact hst

/-- The bundle that a step of the gate yields. -/
def Gate.gives (g : Gate) : GateOp → List Delivery
  | .poll o => g.taken o
  | _ => []

theorem Gate.Takes.gives {sop : Inbound.Op} (h : g.Takes op sop) : g.gives op = g.w.gives sop := by
  cases h with
  | @poll o id hid =>
    simp only [Gate.gives, Gate.taken, Gate.next, hid, World.gives, Receiver.pollNext, Chan.poll]
    cases (g.w.recv.chan id).queue with
    | nil =>
      dsimp only
      split
      · rename_i h
        split at h <;> cases h
      · rfl
    | cons item rest => cases item <;> rfl
  | @inner now sop hinner => cases sop <;> first | rfl | cases hinner
  | _ => rfl

/-- The stream of the open has ended and was read to its end. -/
def Gate.Drained (g : Gate) (o : Nat) : Prop := ∃ id, g.stream o = some id ∧ g.w.Drained id

theorem GateInv.drained (h : GateInv g) (ho : g.Holds o) (hn : g.next o = .ended) :
    g.Drained o := by
  obtain ⟨id, hid⟩ := h.answered o ho.1
  have hheld := h.held ho hid
  simp only [Gate.next, hid, Receiver.pollNext, Chan.poll] at hn
  refine ⟨id, hid, ?_⟩
  cases hqueue : (g.w.recv.chan id).queue with
  | cons item rest =>
    rw [hqueue] at hn
    cases hn
  | nil =>
    refine ⟨?_, by rw [hqueue]; rfl⟩
    rw [hqueue] at hn
    rcases World.kept_of_held hheld with hopen | hend
    · -- An open stream has its sender.
      have hmem := (h.streams.mem_iff id).mpr hopen
      have hclosed := h.streams.open_chan id hmem
      simp [hclosed, hmem] at hn
    · exact hend

theorem Gate.Drained.step (h : g.Drained o) (hg : GateInv g) (hs : g.step op = some g')
    (hleave : (g.opener o).opens = false) (hd : ∀ now, op ≠ .drop o now) : g'.Drained o := by
  obtain ⟨id, hid, hdr⟩ := h
  refine ⟨id, ?_, ?_⟩
  · rw [Gate.stream_step hs]
    cases op with
    | openSubscribe p now =>
      have hne : o ≠ p := by
        rintro rfl
        simp only [Gate.step] at hs
        split at hs
        · rename_i ho
          rw [ho.1] at hleave
          cases hleave
        · cases hs
      exact (Function.update_of_ne hne ..).trans hid
    | _ => exact hid
  · rcases Gate.step_world hs with ⟨now, sop, ht, hw⟩ | ⟨hw, -⟩
    · refine hdr.step hg.streams hw ?_
      rintro rfl
      cases ht with
      | inner hinner => cases hinner
      | @leave p _ _ ho hgo =>
        -- Another open's stream is another one.
        have hpo : p = o := hg.inj p o id (hg.subscribed p id ho).1 hid
        rw [← hpo, ho] at hleave
        cases hleave
      | @drop p now _ hpid =>
        obtain rfl := hg.inj p o id hpid hid
        exact hd now rfl
    · rw [hw]
      exact hdr

/-- A requester has at most one open at a time, and nobody else opens streams: `request` is its open,
`got` what it got so far. -/
structure Serving (g : Gate) (request : Option Nat) (got : List Delivery) : Prop where
  order : ∃ q, InOrder g.w got q
  kept : ∀ id, g.w.Kept id → ∃ o, g.stream o = some id ∧ request = some o
  opening : ∀ o, (g.opener o).opens = true → request = some o

namespace Serving

variable {request : Option Nat} {got : List Delivery}

/-- It drops its stream only at its end. -/
theorem step (h : Serving g request got) (hg : GateStreams g) (hst : g.w.Starts)
    (hs : g.step op = some g') (hstart : ∀ o, op ≠ .start o)
    (hgone : ∀ o, request = some o → g.gone o = false)
    (hdrop : ∀ o now, op = .drop o now → g.Drained o) :
    Serving g' request (got ++ g.gives op) := by
  have hstream := Gate.stream_step hs
  have hopening : ∀ o, (g'.opener o).opens = true → request = some o := fun o ho =>
    h.opening o ((Gate.opens_step hs ho).resolve_right (hstart o))
  obtain ⟨q, hq⟩ := h.order
  rcases Gate.step_world hs with ⟨now, sop, ht, hw⟩ | ⟨hw, hpoll, hsub⟩
  · have hfresh : sop = .subscribe → ∀ id, ¬ g.w.Kept id := by
      -- The requester's open has no stream yet.
      rintro rfl id hid
      cases ht with
      | inner hinner => cases hinner
      | @subscribe o _ ho =>
        obtain ⟨o', ho', hr⟩ := h.kept id hid
        obtain rfl := Option.some.inj ((h.opening o (by rw [ho]; rfl)).symm.trans hr)
        rw [(hg.inv.unopened o (.inr (.inr ho))).1] at ho'
        cases ho'
    have hfail : ∀ id, sop = .acceptFailed id → g.w.status id = .open := by
      rintro id rfl
      simp only [World.step] at hw
      split at hw
      · rename_i hfail
        exact hst id (by rw [hfail]; rfl)
      · cases hw
    have hun : ∀ id, sop = .unsubscribe id → g.w.status id = .open ∨ q = [] := by
      rintro id rfl
      cases ht with
      | inner hinner => cases hinner
      | @leave o _ _ ho hgo =>
        have hno := hgone o (h.opening o (by rw [ho]; rfl))
        rw [hgo] at hno
        cases hno
      | @drop o _ _ hid =>
        obtain ⟨id', hid', hdr⟩ := hdrop o _ rfl
        obtain rfl := Option.some.inj (hid.symm.trans hid')
        exact .inr ((hq.queue id (.inr hdr.1)).symm.trans hdr.2)
    rw [ht.gives]
    obtain ⟨q', hq'⟩ := hq.step hg.inv.streams hw hfresh hfail hun
    refine ⟨⟨q', hq'⟩, fun id hid => ?_, hopening⟩
    by_cases hsub : sop = .subscribe
    · subst hsub
      cases ht with
      | inner hinner => cases hinner
      | @subscribe o _ ho =>
        refine ⟨o, ?_, h.opening o (by rw [ho]; rfl)⟩
        have hnew : g'.w.Kept g.w.recv.nextId := by
          simp only [World.step, Receiver.subscribe_spec] at hw
          split at hw
          · cases hw
          · rw [← Option.some.inj hw]
            exact .inl (Function.update_self ..)
        rw [hstream, hq'.one id _ hid hnew]
        exact Function.update_self ..
    · have hsame : g'.stream = g.stream := by
        rw [hstream]
        cases ht with
        | subscribe => exact absurd rfl hsub
        | _ => rfl
      rw [hsame]
      exact h.kept id (World.step_kept hg.inv.streams hw hsub hid)
  · have hgives : g.gives op = [] := by
      cases op with
      | poll o => exact absurd rfl (hpoll o)
      | _ => rfl
    have hsame : g'.stream = g.stream := by
      rw [hstream]
      cases op with
      | openSubscribe o now => exact absurd rfl (hsub o now)
      | _ => rfl
    rw [hgives, List.append_nil]
    refine ⟨⟨q, hw ▸ hq⟩, ?_, hopening⟩
    rw [hsame, hw]
    exact h.kept

/-- It has no stream any more, and will get none. -/
theorem release {p : Nat} (h : Serving g (some p) got)
    (hk : ∀ id, g.stream p = some id → ¬ g.w.Kept id) (ho : (g.opener p).opens = false) :
    Serving g none got where
  order := h.order
  kept id hid := by
    obtain ⟨o, hst, hr⟩ := h.kept id hid
    cases hr
    exact absurd hid (hk id hst)
  opening o hop := by
    cases h.opening o hop
    rw [ho] at hop
    cases hop

/-- It asks for a stream. -/
theorem asks {o : Nat} (h : Serving g none got) (hs : g.step (.start o) = some g') :
    Serving g' (some o) got := by
  have hopens : ∀ p, (g'.opener p).opens = true → some o = some p := fun p hp => by
    rcases Gate.opens_step hs hp with hp | hp
    · cases h.opening p hp
    · cases hp
      rfl
  simp only [Gate.step] at hs
  split at hs
  · obtain rfl := Option.some.inj hs
    refine ⟨h.order, fun id hid => ?_, hopens⟩
    obtain ⟨p, -, hp⟩ := h.kept id hid
    cases hp
  · cases hs

end Serving

/-- A thread that has answered opens nothing any more. -/
theorem GateInv.not_opens {a : OpenAnswer} (h : GateInv g) (ha : g.answer o = some a) :
    (g.opener o).opens = false := by
  cases ho : g.opener o with
  | started | locked =>
    rw [(h.unopened o (by simp [ho])).2] at ha
    cases ha
  | subscribed id =>
    rw [(h.subscribed o id ho).2.1] at ha
    cases ha
  | _ => rfl

theorem Gate.delivered_prefix (hs : g.step op = some g') : g.w.delivered <+: g'.w.delivered := by
  rcases Gate.step_world hs with ⟨now, sop, -, hw⟩ | ⟨hw, -⟩
  · exact World.delivered_prefix hw
  · simp [hw]

/-- A stream that its requester drops is not kept. -/
theorem Gate.not_kept_drop {id : Nat} (hs : g.step (.drop o now) = some g')
    (ha : g.answer o = some .stream) (hid : g.stream o = some id) : ¬ g'.w.Kept id := by
  simp only [Gate.step, ha, hid] at hs
  split at hs
  · cases hs
  · obtain ⟨w, hw, rfl⟩ := Option.map_eq_some_iff.mp hs
    simp only [World.step] at hw
    split at hw
    · obtain rfl := Option.some.inj hw
      simp [World.Kept, World.setStatus]
    · cases hw

/-! ## The flag -/

/-- A requester is only told that the gate is closed once the flag is set, which stays so. -/
def Flagged (g : Gate) : Prop := ∀ o, g.answer o = some .closed → g.closed = true

theorem Gate.closed_step (hs : g.step op = some g') (hc : g.closed = true) : g'.closed = true := by
  have hrun : ∀ {v : Gate} {now sop}, v.closed = true → v.run now sop = some g' →
      g'.closed = true := by
    intro v now sop hv hr
    obtain ⟨w, -, rfl⟩ := Option.map_eq_some_iff.mp hr
    exact hv
  cases op with
  | openSend o now =>
    simp only [Gate.step] at hs
    split at hs
    · split at hs
      · cases hs
      split at hs
      · exact hrun (v := g.setOpener o .leaving) hc hs
      · obtain rfl := Option.some.inj hs
        exact hc
    · cases hs
  | openSubscribe o now =>
    simp only [Gate.step] at hs
    split at hs
    · rename_i ho
      rw [hc] at ho
      cases ho.2
    · cases hs
  | stream now sop =>
    simp only [Gate.step] at hs
    split at hs
    · exact hrun hc hs
    · cases hs
  | poll o =>
    simp only [Gate.step] at hs
    split at hs
    · cases hs
    split at hs
    · exact hrun hc hs
    · cases hs
  | drop o now =>
    simp only [Gate.step] at hs
    split at hs
    · cases hs
    split at hs
    · exact hrun (v := { g with gone := Function.update g.gone o true }) hc hs
    · obtain rfl := Option.some.inj hs
      exact hc
  | shutBegin k now =>
    simp only [Gate.step] at hs
    split at hs
    · exact hrun (v := g.setCloser k .begun) hc hs
    · cases hs
  | shutEnd k =>
    simp only [Gate.step] at hs
    split at hs
    · exact hrun (v := g.setCloser k .ended) hc hs
    · cases hs
  | _ =>
    simp only [Gate.step] at hs
    split at hs
    all_goals cases hs
    all_goals first | exact hc | rfl

theorem Flagged.step (h : Flagged g) (hs : g.step op = some g') : Flagged g' := by
  intro p hp
  have hrun : ∀ {v : Gate} {now sop}, v.answer = g.answer → v.run now sop = some g' →
      g'.closed = true := by
    intro v now sop hv hr
    refine Gate.closed_step hs (h p ?_)
    obtain ⟨w, -, rfl⟩ := Option.map_eq_some_iff.mp hr
    rw [← hv]
    exact hp
  -- A thread that answers.
  have hsend : ∀ {o a}, a ≠ .closed → Function.update g.answer o (some a) p = some .closed →
      g'.closed = true := by
    intro o a ha hu
    refine Gate.closed_step hs (h p ?_)
    by_cases hpo : p = o
    · rw [hpo, Function.update_self] at hu
      exact absurd (Option.some.inj hu) ha
    · rwa [Function.update_of_ne hpo] at hu
  cases op with
  | openRefuse o =>
    simp only [Gate.step] at hs
    split at hs
    · rename_i ho
      obtain rfl := Option.some.inj hs
      exact ho.2
    · cases hs
  | openSend o now =>
    simp only [Gate.step] at hs
    split at hs
    · split at hs
      · cases hs
      split at hs
      · exact hrun (v := g.setOpener o .leaving) rfl hs
      · obtain rfl := Option.some.inj hs
        exact hsend (o := o) (a := .stream) (by simp) hp
    · cases hs
  | openPanic o =>
    simp only [Gate.step] at hs
    split at hs
    · obtain rfl := Option.some.inj hs
      exact hsend (o := o) (a := .failed) (by simp) hp
    · obtain rfl := Option.some.inj hs
      exact hsend (o := o) (a := .failed) (by simp) hp
    · cases hs
  | openSubscribe o now =>
    simp only [Gate.step] at hs
    split at hs
    · exact hrun (v := { g.setOpener o (.subscribed g.w.recv.nextId) with
        stream := Function.update g.stream o (some g.w.recv.nextId) }) rfl hs
    · cases hs
  | stream now sop =>
    simp only [Gate.step] at hs
    split at hs
    · exact hrun rfl hs
    · cases hs
  | poll o =>
    simp only [Gate.step] at hs
    split at hs
    · cases hs
    split at hs
    · exact hrun rfl hs
    · cases hs
  | drop o now =>
    simp only [Gate.step] at hs
    split at hs
    · cases hs
    split at hs
    · exact hrun (v := { g with gone := Function.update g.gone o true }) rfl hs
    · obtain rfl := Option.some.inj hs
      exact h p hp
  | shutBegin k now =>
    simp only [Gate.step] at hs
    split at hs
    · exact hrun (v := g.setCloser k .begun) rfl hs
    · cases hs
  | shutEnd k =>
    simp only [Gate.step] at hs
    split at hs
    · exact hrun (v := g.setCloser k .ended) rfl hs
    · cases hs
  | _ =>
    simp only [Gate.step] at hs
    split at hs
    all_goals cases hs
    all_goals first | exact h p hp | rfl

theorem gate_flagged : gateSys.Inductive Flagged where
  init g hg := by
    obtain ⟨now, rfl⟩ := hg
    exact nofun
  step _ _ _ h hs := h.step hs

end Cspcl.Receive
