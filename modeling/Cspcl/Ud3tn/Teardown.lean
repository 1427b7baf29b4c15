import Cspcl.Ud3tn.LinkInv

/-!
# The teardown of the uD3TN links

* `CanReach.receiving`: while no link has ended, the RX task can go on receiving.
* `teardown_safe_iff`: the teardown is free of deadlocks exactly as long as no link has ended.
* `rx_waits_forever`: once the management task of an ended link has its semaphore, an RX task with
  a bundle for that link never goes on.
-/

namespace Cspcl.Ud3tn

open LinkWorld

namespace LinkWorld

variable {w w' : LinkWorld} {id t : Nat} {op : LinkOp} {key : CString} {P Q : LinkWorld → Prop}

theorem CanReach.now (h : P w) : w.CanReach P := ⟨[], w, .nil w, h⟩

theorem CanReach.step (hs : w.step op = some w') (h : w'.CanReach P) : w.CanReach P := by
  obtain ⟨ops, w'', hr, hP⟩ := h
  exact ⟨op :: ops, w'', .cons hs hr, hP⟩

theorem CanReach.trans (h : w.CanReach P) (hPQ : ∀ w', P w' → w'.CanReach Q) : w.CanReach Q := by
  obtain ⟨ops, w', hr, hP⟩ := h
  obtain ⟨ops', w'', hr', hQ⟩ := hPQ w' hP
  exact ⟨ops ++ ops', w'', hr.append hr', hQ⟩

/-- No link has failed to initialize or has terminated. -/
def NoneEnded (w : LinkWorld) : Prop := ∀ id, w.ended id = false

/-- A link that has not ended is launched or not, being initialized or waited for. -/
theorem NoneEnded.mgmt (h : w.NoneEnded) (id : Nat) :
    w.mgmt id = .absent ∨ w.mgmt id = .init ∨ w.mgmt id = .linkWait := by
  have := h id
  cases hm : w.mgmt id <;> simp_all [ended]

/-- Who owns an unavailable `param_semphr` while no link has ended. -/
theorem NoneEnded.param_owner (h : w.NoneEnded) (hi : LinkInv w)
    (hav : w.avail (.param id) = false) :
    w.mgmt id = .init ∨ w.rx = .store id ∨ ∃ t, w.call t = .inParam id := by
  obtain ⟨a, ha⟩ := hi.owned.held hav
  cases a with
  | mgmt i =>
    simp only [owns, MgmtPc.owns, Bool.and_eq_true, decide_eq_true_eq] at ha
    obtain ⟨rfl, ha⟩ := ha
    rcases h.mgmt id with hm | hm | hm
    · simp [hm] at ha
    · exact .inl hm
    · simp [hm] at ha
  | rx => exact .inr (.inl (by simpa [owns, RxTaskPc.holds] using ha))
  | caller t => exact .inr (.inr ⟨t, by simpa [owns, CallPc.holds] using ha⟩)

/-- Who owns the unavailable `param_htab_sem` while no link has ended. -/
theorem NoneEnded.htab_owner (h : w.NoneEnded) (hi : LinkInv w) (hav : w.avail .htab = false) :
    w.rx.holds .htab = true ∨ ∃ t, (w.call t).holds .htab = true := by
  obtain ⟨a, ha⟩ := hi.owned.held hav
  cases a with
  | mgmt i =>
    rcases h.mgmt i with hm | hm | hm <;> simp [owns, hm, MgmtPc.owns, MgmtPc.holds] at ha
  | rx => exact .inl ha
  | caller t => exact .inr ⟨t, ha⟩

/-- The initialization of a link succeeds: its semaphore becomes available. -/
theorem step_initOk (hm : w.mgmt id = .init) :
    w.step (.initOk id) = some ((w.setMgmt id .linkWait).release (.param id)) := by
  simp [step, hm]

theorem NoneEnded.initOk (h : w.NoneEnded) :
    ((w.setMgmt id .linkWait).release (.param id)).NoneEnded := by
  intro i
  by_cases hi : i = id
  · subst hi; simp [ended, setMgmt, release, setAvail]
  · simpa [ended, setMgmt, release, setAvail, hi] using h i

@[simp] theorem avail_release_self {x : SemId} : (w.release x).avail x = true := by
  simp [release, setAvail]

/-- A caller that holds both semaphores gives them back. -/
theorem step_inParam (hc : w.call t = .inParam id) :
    w.step (.caller t false) = some ((w.setCall t .unlockHtab).release (.param id)) := by
  simp [step, callStep, hc]

theorem receiving_of_store (id : Nat) (hrx : w.rx = .store id) :
    w.CanReach fun w' => w'.rx = .receiving := by
  have hs : w.step (.rx false) = some ({ w with rx := .receiving }.release (.param id)) := by
    simp [step, rxStep, hrx]
  exact .step hs (.now rfl)

/-- From the take of an available `param_semphr`, the RX task goes on. -/
theorem receiving_of_avail (hrx : w.rx = .lockParam id) (hav : w.avail (.param id) = true) :
    w.CanReach fun w' => w'.rx = .receiving := by
  have hs : w.step (.rx false) =
      some ({ w with rx := .store id }.setAvail (.param id) false) := by
    simp [step, rxStep, hrx, take, hav]
  exact .step hs (receiving_of_store id rfl)

theorem receiving_of_lockParam (id : Nat) (h : w.NoneEnded) (hi : LinkInv w)
    (hrx : w.rx = .lockParam id) : w.CanReach fun w' => w'.rx = .receiving := by
  cases hav : w.avail (.param id) with
  | true => exact receiving_of_avail hrx hav
  | false =>
    rcases h.param_owner hi hav with hm | hst | ⟨t, hc⟩
    · exact .step (step_initOk hm) (receiving_of_avail hrx avail_release_self)
    · simp [hrx] at hst
    · exact .step (step_inParam hc) (receiving_of_avail hrx avail_release_self)

theorem receiving_of_unlockHtab (param : Option Nat) (h : w.NoneEnded) (hi : LinkInv w)
    (hrx : w.rx = .unlockHtab param) : w.CanReach fun w' => w'.rx = .receiving := by
  cases param with
  | none =>
    have hs : w.step (.rx false) = some ({ w with rx := .receiving }.release .htab) := by
      simp [step, rxStep, hrx]
    exact .step hs (.now rfl)
  | some id =>
    have hs : w.step (.rx false) = some ({ w with rx := .lockParam id }.release .htab) := by
      simp [step, rxStep, hrx]
    exact .step hs (receiving_of_lockParam id h (hi.step hs) rfl)

theorem receiving_of_lookup (key : CString) (h : w.NoneEnded) (hi : LinkInv w)
    (hrx : w.rx = .lookup key) : w.CanReach fun w' => w'.rx = .receiving := by
  obtain ⟨param, hs⟩ : ∃ param, w.step (.rx false) = some { w with rx := .unlockHtab param } := by
    cases ht : w.table key with
    | none => exact ⟨none, by simp [step, rxStep, hrx, ht]⟩
    | some id => exact ⟨some id, by simp [step, rxStep, hrx, ht]⟩
  exact .step hs (receiving_of_unlockHtab param h (hi.step hs) rfl)

/-- The RX task waits for the table, and no link has ended. -/
def RxAtTable (key : CString) (w : LinkWorld) : Prop :=
  LinkInv w ∧ w.NoneEnded ∧ w.rx = .lockHtab key

theorem htab_of_unlockHtab (h : RxAtTable key w) (hc : w.call t = .unlockHtab) :
    w.CanReach fun w' => RxAtTable key w' ∧ w'.avail .htab = true := by
  have hs : w.step (.caller t false) = some ((w.setCall t .idle).release .htab) := by
    simp [step, callStep, hc]
  exact .step hs (.now ⟨⟨h.1.step hs, h.2.1, h.2.2⟩, avail_release_self⟩)

theorem htab_of_inParam (t id : Nat) (h : RxAtTable key w) (hc : w.call t = .inParam id) :
    w.CanReach fun w' => RxAtTable key w' ∧ w'.avail .htab = true := by
  have hs := step_inParam hc
  exact .step hs (htab_of_unlockHtab (t := t) ⟨h.1.step hs, h.2.1, h.2.2⟩
    (by simp [setCall, release, setAvail]))

theorem htab_of_avail (t id : Nat) (h : RxAtTable key w) (hc : w.call t = .lockParam id)
    (hav : w.avail (.param id) = true) :
    w.CanReach fun w' => RxAtTable key w' ∧ w'.avail .htab = true := by
  have hs : w.step (.caller t false) =
      some ((w.setCall t (.inParam id)).setAvail (.param id) false) := by
    simp [step, callStep, hc, take, setCall, hav]
  exact .step hs (htab_of_inParam t id ⟨h.1.step hs, h.2.1, h.2.2⟩
    (by simp [setCall, setAvail]))

theorem htab_of_lockParam (t id : Nat) (h : RxAtTable key w) (hc : w.call t = .lockParam id) :
    w.CanReach fun w' => RxAtTable key w' ∧ w'.avail .htab = true := by
  cases hav : w.avail (.param id) with
  | true => exact htab_of_avail t id h hc hav
  | false =>
    rcases h.2.1.param_owner h.1 hav with hm | hst | ⟨u, hu⟩
    · have hs := step_initOk hm
      exact .step hs (htab_of_avail t id ⟨h.1.step hs, h.2.1.initOk, h.2.2⟩ hc
        avail_release_self)
    · simp [h.2.2] at hst
    · -- Another caller in the link's section would hold the table, too.
      have htu := h.1.owned.unique (x := .htab) (a := .caller t) (b := .caller u)
        (by simp [owns, hc, CallPc.holds]) (by simp [owns, hu, CallPc.holds])
      obtain rfl : t = u := by simpa using htu
      simp [hc] at hu

theorem htab_of_lookup {call : ClaCall} {k : CString} (h : RxAtTable key w)
    (hc : w.call t = .lookup call k) :
    w.CanReach fun w' => RxAtTable key w' ∧ w'.avail .htab = true := by
  cases ht : w.table k with
  | some id =>
    have hs : w.step (.caller t false) = some (w.setCall t (.lockParam id)) := by
      simp [step, callStep, hc, ht]
    exact .step hs (htab_of_lockParam t id ⟨h.1.step hs, h.2.1, h.2.2⟩
      (by simp [setCall]))
  | none =>
    have hs : w.step (.caller t false) = some (w.setCall t .unlockHtab) := by
      cases call <;> simp [step, callStep, hc, ht]
    exact .step hs (htab_of_unlockHtab (t := t) ⟨h.1.step hs, h.2.1, h.2.2⟩ (by simp [setCall]))

/-- Whoever holds the table gives it back. -/
theorem htab_of_rxAtTable (h : RxAtTable key w) :
    w.CanReach fun w' => RxAtTable key w' ∧ w'.avail .htab = true := by
  cases hav : w.avail .htab with
  | true => exact .now ⟨h, hav⟩
  | false =>
    rcases h.2.1.htab_owner h.1 hav with hrx | ⟨t, ht⟩
    · simp [h.2.2, RxTaskPc.holds] at hrx
    · cases hc : w.call t with
      | idle | lockHtab call k => simp [hc, CallPc.holds] at ht
      | lookup call k => exact htab_of_lookup h hc
      | lockParam id => exact htab_of_lockParam t id h hc
      | inParam id => exact htab_of_inParam t id h hc
      | unlockHtab => exact htab_of_unlockHtab h hc

theorem receiving_of_lockHtab (h : w.NoneEnded) (hi : LinkInv w) (hrx : w.rx = .lockHtab key) :
    w.CanReach fun w' => w'.rx = .receiving := by
  refine (htab_of_rxAtTable ⟨hi, h, hrx⟩).trans fun w' ⟨⟨hi', h', hrx'⟩, hav⟩ => ?_
  have hs : w'.step (.rx false) = some ({ w' with rx := .lookup key }.setAvail .htab false) := by
    simp [step, rxStep, hrx', take, hav]
  exact .step hs (receiving_of_lookup key h' (hi'.step hs) rfl)

/-- While no link has ended, the RX task can go on receiving. -/
theorem CanReach.receiving (h : w.NoneEnded) (hi : LinkInv w) :
    w.CanReach fun w' => w'.rx = .receiving := by
  cases hrx : w.rx with
  | receiving => exact .now hrx
  | lockHtab key => exact receiving_of_lockHtab h hi hrx
  | lookup key => exact receiving_of_lookup key h hi hrx
  | unlockHtab param => exact receiving_of_unlockHtab param h hi hrx
  | lockParam id => exact receiving_of_lockParam id h hi hrx
  | store id => exact receiving_of_store id hrx

end LinkWorld

/-- In every reachable state, the teardown is free of deadlocks iff no link has failed to
initialize and none has terminated. -/
theorem teardown_safe_iff {w : LinkWorld} (hw : linkSys.Reach w) :
    w.TeardownSafe ↔ ∀ id, w.ended id = false := by
  have hi := linkInv_inductive.reach hw
  constructor
  · intro hs id
    by_contra he
    -- The management task of an ended link never gets to freeing its parameters.
    obtain ⟨ops, w', hr, hf⟩ := hs.frees id (by simpa using he)
    exact (linkInv_inductive.run hr hi).not_free id hf
  · intro h
    have hwaits : ∀ id, w.waits (.mgmt id) = none := fun id => by
      rcases NoneEnded.mgmt h id with hm | hm | hm <;> simp [waits, hm, MgmtPc.waits]
    refine ⟨fun id x hx => ?_, fun id x hx => ?_, fun a b id hc => ?_, fun id he => ?_,
      CanReach.receiving h hi⟩
    · simp [hwaits id] at hx
    · simp [hwaits id] at hx
    · obtain ⟨-, -, hb, hbw⟩ := hc
      cases b with
      | mgmt i => simp [hwaits i] at hbw
      | rx =>
        have hrx : w.rx = .store id := by simpa [holds, RxTaskPc.holds] using hb
        simp [waits, hrx, RxTaskPc.waits] at hbw
      | caller t =>
        have hcall : w.call t = .inParam id := by simpa [holds, CallPc.holds] using hb
        simp [waits, hcall, CallPc.waits] at hbw
    · simp [h id] at he

/-- The RX task waits for the semaphore of an ended link, which its management task owns. -/
structure RxStuck (id : Nat) (w : LinkWorld) : Prop where
  inv : LinkInv w
  rx : w.rx = .lockParam id
  owns : (w.mgmt id).owns id (.param id) = true
  ended : w.ended id = true

/-- What a management task leaves alone. -/
theorem mgmtStep_frame {i : Nat} {w w' : LinkWorld} (hs : w.mgmtStep i = some w') :
    w'.rx = w.rx ∧ ∀ j, j ≠ i → w'.mgmt j = w.mgmt j := by
  unfold mgmtStep at hs
  split at hs
  case h_1 | h_2 | h_4 | h_6 =>
    obtain ⟨-, rfl⟩ := LinkInv.take_eq hs
    exact ⟨rfl, fun j hj => by simp [setAvail, setMgmt, hj]⟩
  case h_3 | h_5 =>
    simp only [Option.some.injEq] at hs
    subst hs
    exact ⟨rfl, fun j hj => by simp [release, setAvail, setMgmt, hj]⟩
  all_goals cases hs

/-- What a caller leaves alone. -/
theorem callStep_frame {t : Nat} {launch : Bool} {w w' : LinkWorld}
    (hs : w.callStep t launch = some w') :
    w'.rx = w.rx ∧ ∀ j, j < w.launched → w'.mgmt j = w.mgmt j := by
  unfold callStep at hs
  split at hs
  case h_1 => cases hs
  case h_2 | h_4 =>
    obtain ⟨-, rfl⟩ := LinkInv.take_eq hs
    exact ⟨rfl, fun _ _ => rfl⟩
  case h_3 =>
    split at hs <;> simp only [Option.some.injEq] at hs <;> subst hs
    case h_2 =>
      split
      · exact ⟨rfl, fun j hj => by simp [setCall, LinkWorld.launch, Nat.ne_of_lt hj]⟩
      · exact ⟨rfl, fun _ _ => rfl⟩
    all_goals exact ⟨rfl, fun _ _ => rfl⟩
  case h_5 | h_6 =>
    simp only [Option.some.injEq] at hs
    subst hs
    exact ⟨rfl, fun _ _ => rfl⟩

theorem RxStuck.step {id : Nat} {w w' : LinkWorld} {op : LinkOp} (h : RxStuck id w)
    (hs : w.step op = some w') : RxStuck id w' := by
  have hav : w.avail (.param id) = false := h.inv.owned.free (a := .mgmt id) h.owns
  have hinv := h.inv.step hs
  have hended := h.ended
  have howns := h.owns
  -- Nothing but the management task of the link changes its position.
  have hkeep : w'.rx = w.rx → w'.mgmt id = w.mgmt id → RxStuck id w' := fun hrx hm =>
    ⟨hinv, hrx ▸ h.rx, hm ▸ h.owns, by simpa [LinkWorld.ended, hm] using h.ended⟩
  cases op with
  | initOk i | initFailed i | terminated i =>
    simp only [LinkWorld.step] at hs
    split at hs
    · rename_i hm
      have hi : id ≠ i := by rintro rfl; simp [LinkWorld.ended, hm] at hended
      simp only [Option.some.injEq] at hs
      subst hs
      exact hkeep rfl (by simp [setMgmt, release, setAvail, hi])
    · cases hs
  | received key =>
    simp [LinkWorld.step, h.rx] at hs
  | call t call key =>
    simp only [LinkWorld.step] at hs
    split at hs
    · simp only [Option.some.injEq] at hs
      subst hs
      exact hkeep rfl rfl
    · cases hs
  | rx launch =>
    simp [LinkWorld.step, rxStep, h.rx, take, hav] at hs
  | caller t launch =>
    have hlt : id < w.launched := h.inv.rx_lt id (.inr (.inl h.rx))
    obtain ⟨hrx, hm⟩ := callStep_frame hs
    exact hkeep hrx (hm id hlt)
  | mgmt i =>
    obtain ⟨hrx, hm⟩ := mgmtStep_frame hs
    by_cases hi : id = i
    · subst hi
      simp only [LinkWorld.step, mgmtStep] at hs
      refine ⟨hinv, hrx ▸ h.rx, ?_, ?_⟩
      all_goals
        cases hpc : w.mgmt id <;> simp only [hpc] at hs howns
        case lockFree => simp [take, setMgmt, hav] at hs
        case lockRemove =>
          obtain ⟨-, rfl⟩ := LinkInv.take_eq hs
          simp [setAvail, setMgmt, MgmtPc.owns, LinkWorld.ended]
        case cleanup | remove =>
          simp only [Option.some.injEq] at hs
          subst hs
          simp [release, setAvail, setMgmt, MgmtPc.owns, LinkWorld.ended]
        all_goals simp [MgmtPc.owns] at howns hs
    · exact hkeep hrx (hm id hi)

/-- Once the management task of an ended link has its semaphore, an RX task with a bundle for that
link never goes on. -/
theorem rx_waits_forever {id : Nat} {w : LinkWorld} (h : RxStuck id w) :
    ¬ w.CanReach fun w' => w'.rx = .receiving := by
  rintro ⟨ops, w', hr, hrx⟩
  have hrun : ∀ {u v : LinkWorld} {ops}, linkSys.Run u ops v → RxStuck id u → RxStuck id v := by
    intro u v ops hr
    induction hr with
    | nil => exact fun h => h
    | cons hs _ ih => exact fun h => ih (h.step hs)
  have hrx' := (hrun hr h).rx
  simp [hrx] at hrx'

/-- A contact is started, its link comes up and is looked up by the management task's exit. -/
def contactRun : List LinkOp :=
  [.call 0 .startScheduledContact [53], .caller 0 true, .caller 0 true, .caller 0 true, .initOk 0,
    .received [53], .rx true, .rx true, .rx true]

theorem teardown_safe_iff_contact : ∃ w, linkSys.exec .new contactRun = some w ∧
    w.rx = .lockParam 0 ∧ (w.TeardownSafe ↔ ∀ id, w.ended id = false) := by
  obtain ⟨w, hw⟩ : ∃ w, linkSys.exec .new contactRun = some w := ⟨_, rfl⟩
  have hrx : (linkSys.exec .new contactRun).map (·.rx) = some (.lockParam 0) := by decide
  simp only [hw, Option.map_some, Option.some.injEq] at hrx
  exact ⟨w, hw, hrx, teardown_safe_iff (.of_exec rfl hw)⟩

/-- The link terminates, and its management task goes on to its last take of `param_semphr`. -/
def terminatedRun : List LinkOp :=
  contactRun ++ [.terminated 0, .mgmt 0, .mgmt 0, .mgmt 0, .mgmt 0, .mgmt 0]

/-- The management task waits for the semaphore that it holds. -/
theorem teardown_self_wait : ∃ w, linkSys.exec .new terminatedRun = some w ∧
    w.waits (.mgmt 0) = some (.param 0) ∧ w.holds (.mgmt 0) (.param 0) = true ∧
      w.rx = .lockParam 0 ∧ ¬ w.TeardownSafe := by
  obtain ⟨w, hw⟩ : ∃ w, linkSys.exec .new terminatedRun = some w := ⟨_, rfl⟩
  have hpc : (linkSys.exec .new terminatedRun).map (fun w => (w.waits (.mgmt 0),
      w.holds (.mgmt 0) (.param 0), w.rx)) = some (some (.param 0), true, .lockParam 0) := by
    decide
  simp only [hw, Option.map_some, Option.some.injEq, Prod.mk.injEq] at hpc
  obtain ⟨h1, h2, h3⟩ := hpc
  refine ⟨w, hw, h1, h2, h3, fun hs => ?_⟩
  simp [hs.no_self_wait 0 _ h1] at h2

end Cspcl.Ud3tn
