import Cspcl.Ud3tn.Links

/-!
# Who owns the semaphores of the uD3TN links

`LinkInv`, in every reachable state: each semaphore that is not available has one owner (`Owned`),
the tasks refer to launched links only, and no management task gets to freeing its parameters.
The last take of `param_semphr` is of a semaphore that the task owns itself: it was taken after
`cla_link_wait` and not released, or, if the initialization failed, never released at all.
-/

namespace Cspcl.Ud3tn

/-- The semaphores that only the management task can release, if anybody can. -/
def MgmtPc.owns (pc : MgmtPc) (id : Nat) : SemId → Bool
  | .htab => pc.holds id .htab
  | .param i => i = id &&
    match pc with
    | .absent | .linkWait | .lockHtab | .lockParam => false
    | _ => true

namespace LinkWorld

/-- The task is the one that can release the semaphore. -/
def owns (w : LinkWorld) : Task → SemId → Prop
  | .mgmt id, x => (w.mgmt id).owns id x = true
  | .rx, x => w.rx.holds x = true
  | .caller t, x => (w.call t).holds x = true

variable {w w₁ w' : LinkWorld} {id t : Nat} {x y : SemId} {a b : Task} {op : LinkOp}
  {key : CString}

theorem owns_setMgmt {pc : MgmtPc} (hb : b ≠ .mgmt id) :
    (w.setMgmt id pc).owns b y ↔ w.owns b y := by
  cases b with
  | mgmt i =>
    have hi : i ≠ id := fun h => hb (by rw [h])
    simp [owns, setMgmt, hi]
  | rx | caller t => rfl

theorem owns_setCall {pc : CallPc} (hb : b ≠ .caller t) :
    (w.setCall t pc).owns b y ↔ w.owns b y := by
  cases b with
  | caller i =>
    have hi : i ≠ t := fun h => hb (by rw [h])
    simp [owns, setCall, hi]
  | rx | mgmt i => rfl

theorem owns_setRx {rx : RxTaskPc} (hb : b ≠ .rx) :
    ({ w with rx } : LinkWorld).owns b y ↔ w.owns b y := by
  cases b with
  | rx => exact absurd rfl hb
  | mgmt i | caller i => rfl

/-- Each semaphore that is not available has exactly one owner. -/
def Owned (w : LinkWorld) : Prop := Sem.Owned w.owns w.avail

namespace Owned

theorem take (h : w.Owned) (hs : w₁.take x = some w') (hav : w₁.avail = w.avail)
    (hb : ∀ b, b ≠ a → ∀ y, w₁.owns b y ↔ w.owns b y)
    (ha : ∀ y, w₁.owns a y ↔ w.owns a y ∨ y = x) : w'.Owned := by
  unfold LinkWorld.take at hs
  split at hs
  · rename_i hx
    simp only [Option.some.injEq] at hs
    subst hs
    refine Sem.Owned.take h (hav ▸ hx) hb ha fun y => ?_
    simp [setAvail, Function.update_apply, hav]
  · cases hs

theorem release (w₁ : LinkWorld) (h : w.Owned) (hx : w.owns a x) (hav : w₁.avail = w.avail)
    (hb : ∀ b, b ≠ a → ∀ y, w₁.owns b y ↔ w.owns b y)
    (ha : ∀ y, w₁.owns a y ↔ w.owns a y ∧ y ≠ x) : (w₁.release x).Owned := by
  refine Sem.Owned.release h hx hb ha fun y => ?_
  simp [LinkWorld.release, setAvail, Function.update_apply, hav]

theorem same (w₁ : LinkWorld) (h : w.Owned) (hav : w₁.avail = w.avail)
    (hb : ∀ b, b ≠ a → ∀ y, w₁.owns b y ↔ w.owns b y)
    (ha : ∀ y, w₁.owns a y ↔ w.owns a y) : w₁.Owned := by
  refine Sem.Owned.congr h (fun b y => ?_) fun y => by rw [hav]
  by_cases hba : b = a
  · subst hba; exact ha y
  · exact hb b hba y

end Owned

end LinkWorld

open LinkWorld

/-- Who owns the semaphores, and which links the tasks know; no parameters are ever freed. -/
structure LinkInv (w : LinkWorld) : Prop where
  owned : w.Owned
  absent_iff : ∀ id, w.mgmt id = .absent ↔ w.launched ≤ id
  table_lt : ∀ key id, w.table key = some id → id < w.launched
  rx_lt : ∀ id, w.rx = .unlockHtab (some id) ∨ w.rx = .lockParam id ∨ w.rx = .store id →
    id < w.launched
  call_lt : ∀ t id, w.call t = .lockParam id ∨ w.call t = .inParam id → id < w.launched
  not_free : ∀ id, w.mgmt id ≠ .free

namespace LinkInv

variable {w w' : LinkWorld} {id t : Nat} {x : SemId} {op : LinkOp} {key : CString}

/-- The semaphore of a link that was not launched has no owner. -/
theorem avail_fresh (h : LinkInv w) (hid : w.launched ≤ id) : w.avail (.param id) = true := by
  by_contra hav
  obtain ⟨a, ha⟩ := h.owned.held (by simpa using hav)
  cases a with
  | mgmt i =>
    simp only [LinkWorld.owns, MgmtPc.owns, Bool.and_eq_true, decide_eq_true_eq] at ha
    obtain ⟨rfl, ha⟩ := ha
    simp [(h.absent_iff id).mpr hid] at ha
  | rx =>
    have hrx : w.rx = .store id := by simpa [LinkWorld.owns, RxTaskPc.holds] using ha
    have := h.rx_lt id (.inr (.inr hrx))
    omega
  | caller t =>
    have hc : w.call t = .inParam id := by simpa [LinkWorld.owns, CallPc.holds] using ha
    have := h.call_lt t id (.inr hc)
    omega

/-- A link is launched. -/
theorem launch (h : LinkInv w) (key : CString) : LinkInv (w.launch key) where
  owned := by
    refine Sem.Owned.take (a := .mgmt w.launched) (x := .param w.launched) h.owned
      (h.avail_fresh (Nat.le_refl _)) (fun b hb y => ?_) (fun y => ?_) fun y => ?_
    · cases b with
      | mgmt i =>
        have hi : i ≠ w.launched := fun hi => hb (by rw [hi])
        simp [LinkWorld.owns, LinkWorld.launch, hi]
      | rx | caller t => rfl
    · have habs := (h.absent_iff w.launched).mpr (Nat.le_refl _)
      cases y <;> simp [LinkWorld.owns, LinkWorld.launch, habs, MgmtPc.owns, MgmtPc.holds]
    · simp [LinkWorld.launch, Function.update_apply]
  absent_iff i := by
    by_cases hi : i = w.launched
    · simp [LinkWorld.launch, hi]
    · simp only [LinkWorld.launch, Function.update_of_ne hi, h.absent_iff i]
      omega
  table_lt k i hk := by
    by_cases hkk : k = key
    · have : w.launched = i := by simpa [LinkWorld.launch, hkk] using hk
      simp [LinkWorld.launch, ← this]
    · exact Nat.lt_succ_of_lt (h.table_lt k i (by simpa [LinkWorld.launch, hkk] using hk))
  rx_lt i hi := Nat.lt_succ_of_lt (h.rx_lt i hi)
  call_lt t i hi := Nat.lt_succ_of_lt (h.call_lt t i hi)
  not_free i := by
    by_cases hi : i = w.launched
    · simp [LinkWorld.launch, hi]
    · simpa [LinkWorld.launch, hi] using h.not_free i

/-- A step of the management task of a launched link. -/
theorem of_mgmt {pc : MgmtPc} (h : LinkInv w) (ho : w'.Owned) (hold : w.mgmt id ≠ .absent)
    (hpc : pc ≠ .absent ∧ pc ≠ .free) (hm : w'.mgmt = Function.update w.mgmt id pc)
    (ht : ∀ key i, w'.table key = some i → w.table key = some i)
    (hsame : w'.launched = w.launched ∧ w'.rx = w.rx ∧ w'.call = w.call) : LinkInv w' where
  owned := ho
  absent_iff i := by
    rw [hm, hsame.1, ← h.absent_iff i]
    by_cases hi : i = id
    · subst hi; simp [hpc.1, hold]
    · simp [hi]
  table_lt key i hk := hsame.1 ▸ h.table_lt key i (ht key i hk)
  rx_lt i hi := hsame.1 ▸ h.rx_lt i (hsame.2.1 ▸ hi)
  call_lt t i hi := hsame.1 ▸ h.call_lt t i (hsame.2.2 ▸ hi)
  not_free i := by
    rw [hm]
    by_cases hi : i = id
    · subst hi; simpa using hpc.2
    · simpa [hi] using h.not_free i

/-- A step of the RX task. -/
theorem of_rx (h : LinkInv w) (ho : w'.Owned)
    (hrx : ∀ i, w'.rx = .unlockHtab (some i) ∨ w'.rx = .lockParam i ∨ w'.rx = .store i →
      i < w.launched)
    (hsame : w'.mgmt = w.mgmt ∧ w'.launched = w.launched ∧ w'.table = w.table ∧ w'.call = w.call) :
    LinkInv w' where
  owned := ho
  absent_iff i := by rw [hsame.1, hsame.2.1]; exact h.absent_iff i
  table_lt key i hk := hsame.2.1 ▸ h.table_lt key i (hsame.2.2.1 ▸ hk)
  rx_lt i hi := hsame.2.1 ▸ hrx i hi
  call_lt t i hi := hsame.2.1 ▸ h.call_lt t i (hsame.2.2.2 ▸ hi)
  not_free i := hsame.1 ▸ h.not_free i

/-- A step of a caller. -/
theorem of_call {pc : CallPc} (h : LinkInv w) (ho : w'.Owned)
    (hpc : ∀ i, pc = .lockParam i ∨ pc = .inParam i → i < w.launched)
    (hc : w'.call = Function.update w.call t pc)
    (hsame : w'.mgmt = w.mgmt ∧ w'.launched = w.launched ∧ w'.table = w.table ∧ w'.rx = w.rx) :
    LinkInv w' where
  owned := ho
  absent_iff i := by rw [hsame.1, hsame.2.1]; exact h.absent_iff i
  table_lt key i hk := hsame.2.1 ▸ h.table_lt key i (hsame.2.2.1 ▸ hk)
  rx_lt i hi := hsame.2.1 ▸ h.rx_lt i (hsame.2.2.2 ▸ hi)
  call_lt u i hi := by
    rw [hsame.2.1]
    rw [hc] at hi
    by_cases hu : u = t
    · subst hu; exact hpc i (by simpa using hi)
    · exact h.call_lt u i (by simpa [hu] using hi)
  not_free i := hsame.1 ▸ h.not_free i

theorem take_eq (hs : w.take x = some w') : w.avail x = true ∧ w' = w.setAvail x false := by
  unfold LinkWorld.take at hs
  split at hs
  · rename_i hx
    exact ⟨hx, (Option.some.inj hs).symm⟩
  · cases hs

/-- A management task takes a semaphore. -/
theorem mgmt_take {pc : MgmtPc} (h : LinkInv w) (hs : (w.setMgmt id pc).take x = some w')
    (hold : w.mgmt id ≠ .absent) (hpc : pc ≠ .absent ∧ pc ≠ .free)
    (ha : ∀ y, pc.owns id y = true ↔ (w.mgmt id).owns id y = true ∨ y = x) : LinkInv w' := by
  have ho := h.owned.take hs rfl (fun b hb y => owns_setMgmt hb) fun y => by
    simpa [LinkWorld.owns, LinkWorld.setMgmt] using ha y
  obtain ⟨-, rfl⟩ := take_eq hs
  exact h.of_mgmt ho hold hpc rfl (fun _ _ hk => hk) ⟨rfl, rfl, rfl⟩

/-- A management task releases a semaphore. -/
theorem mgmt_release {pc : MgmtPc} (h : LinkInv w) (hold : w.mgmt id ≠ .absent)
    (hpc : pc ≠ .absent ∧ pc ≠ .free) (hx : (w.mgmt id).owns id x = true)
    (ha : ∀ y, pc.owns id y = true ↔ (w.mgmt id).owns id y = true ∧ y ≠ x) :
    LinkInv ((w.setMgmt id pc).release x) := by
  have ho := h.owned.release (a := .mgmt id) (w.setMgmt id pc) hx rfl
    (fun b hb y => owns_setMgmt hb) fun y => by
      simpa [LinkWorld.owns, LinkWorld.setMgmt] using ha y
  exact h.of_mgmt ho hold hpc rfl (fun _ _ hk => hk) ⟨rfl, rfl, rfl⟩

/-- A management task goes on without the semaphores. -/
theorem mgmt_same {pc : MgmtPc} (h : LinkInv w) (hold : w.mgmt id ≠ .absent)
    (hpc : pc ≠ .absent ∧ pc ≠ .free) (ha : ∀ y, pc.owns id y = (w.mgmt id).owns id y) :
    LinkInv (w.setMgmt id pc) := by
  have ho := h.owned.same (a := .mgmt id) (w.setMgmt id pc) rfl
    (fun b hb y => owns_setMgmt hb) fun y => by
      simp [LinkWorld.owns, LinkWorld.setMgmt, ha]
  exact h.of_mgmt ho hold hpc rfl (fun _ _ hk => hk) ⟨rfl, rfl, rfl⟩

/-- The removal of a link from the table. -/
theorem table {table : CString → Option Nat} (h : LinkInv w)
    (ht : ∀ key i, table key = some i → w.table key = some i) : LinkInv { w with table } where
  owned := h.owned
  absent_iff := h.absent_iff
  table_lt key i hk := h.table_lt key i (ht key i hk)
  rx_lt := h.rx_lt
  call_lt := h.call_lt
  not_free := h.not_free

theorem mgmtStep (h : LinkInv w) (hs : w.mgmtStep id = some w') : LinkInv w' := by
  unfold LinkWorld.mgmtStep at hs
  cases hm : w.mgmt id with
  | absent | init | linkWait | free => simp [hm] at hs
  | lockHtab =>
    simp only [hm] at hs
    exact h.mgmt_take hs (by simp [hm]) (by simp) fun y => by
      cases y <;> simp [hm, MgmtPc.owns, MgmtPc.holds]
  | lockParam =>
    simp only [hm] at hs
    exact h.mgmt_take hs (by simp [hm]) (by simp) fun y => by
      cases y <;> simp [hm, MgmtPc.owns, MgmtPc.holds]
  | cleanup =>
    simp only [hm, Option.some.injEq] at hs
    subst hs
    exact h.mgmt_release (by simp [hm]) (by simp) (by simp [hm, MgmtPc.owns, MgmtPc.holds])
      fun y => by cases y <;> simp [hm, MgmtPc.owns, MgmtPc.holds]
  | lockRemove holdsParam =>
    simp only [hm] at hs
    exact h.mgmt_take hs (by simp [hm]) (by simp) fun y => by
      cases y <;> simp [hm, MgmtPc.owns, MgmtPc.holds]
  | remove holdsParam =>
    simp only [hm, Option.some.injEq] at hs
    subst hs
    refine mgmt_release (h.table fun k i hk => ?_) (by simp [hm]) (by simp)
      (by simp [hm, MgmtPc.owns, MgmtPc.holds])
      fun y => by cases y <;> simp [hm, MgmtPc.owns, MgmtPc.holds]
    split at hk
    · by_cases hkk : k = w.key id
      · simp [hkk] at hk
      · simpa [hkk] using hk
    · exact hk
  | lockFree holdsParam =>
    -- The semaphore that it waits for is its own.
    simp only [hm] at hs
    obtain ⟨hav, -⟩ := take_eq hs
    have hown : w.owns (.mgmt id) (.param id) := by simp [LinkWorld.owns, hm, MgmtPc.owns]
    have := h.owned.free hown
    simp only [LinkWorld.setMgmt] at hav
    rw [this] at hav
    cases hav

/-- The links that a position of the RX task refers to. -/
def RefsLt (w : LinkWorld) (rx : RxTaskPc) : Prop :=
  ∀ i, rx = .unlockHtab (some i) ∨ rx = .lockParam i ∨ rx = .store i → i < w.launched

/-- The RX task takes a semaphore. -/
theorem rx_take {rx : RxTaskPc} (h : LinkInv w) (hs : { w with rx }.take x = some w')
    (hrefs : RefsLt w rx) (ha : ∀ y, rx.holds y = true ↔ w.rx.holds y = true ∨ y = x) :
    LinkInv w' := by
  have ho := h.owned.take (a := .rx) hs rfl (fun b hb y => owns_setRx hb) ha
  obtain ⟨-, rfl⟩ := take_eq hs
  exact h.of_rx ho hrefs ⟨rfl, rfl, rfl, rfl⟩

/-- The RX task releases a semaphore. -/
theorem rx_release {rx : RxTaskPc} (h : LinkInv w) (hrefs : RefsLt w rx)
    (hx : w.rx.holds x = true) (ha : ∀ y, rx.holds y = true ↔ w.rx.holds y = true ∧ y ≠ x) :
    LinkInv ({ w with rx }.release x) := by
  have ho := h.owned.release (a := .rx) { w with rx } hx rfl
    (fun b hb y => owns_setRx hb) ha
  exact h.of_rx ho hrefs ⟨rfl, rfl, rfl, rfl⟩

/-- The RX task goes on without the semaphores. -/
theorem rx_same {rx : RxTaskPc} (h : LinkInv w) (hrefs : RefsLt w rx)
    (ha : ∀ y, rx.holds y = w.rx.holds y) : LinkInv { w with rx } := by
  have ho := h.owned.same (a := .rx) { w with rx } rfl (fun b hb y => owns_setRx hb)
    fun y => by simp [LinkWorld.owns, ha]
  exact h.of_rx ho hrefs ⟨rfl, rfl, rfl, rfl⟩

theorem rxStep {launch : Bool} (h : LinkInv w) (hs : w.rxStep launch = some w') : LinkInv w' := by
  unfold LinkWorld.rxStep at hs
  cases hrx : w.rx with
  | receiving => simp [hrx] at hs
  | lockHtab key =>
    simp only [hrx] at hs
    exact h.rx_take hs (by simp [RefsLt]) fun y => by cases y <;> simp [hrx, RxTaskPc.holds]
  | lookup key =>
    simp only [hrx] at hs
    cases ht : w.table key with
    | some id =>
      simp only [ht, Option.some.injEq] at hs
      subst hs
      exact h.rx_same (by simpa [RefsLt] using h.table_lt key id ht)
        fun y => by cases y <;> simp [hrx, RxTaskPc.holds]
    | none =>
      simp only [ht] at hs
      split at hs <;> simp only [Option.some.injEq] at hs <;> subst hs
      · refine (h.launch key).rx_same (by simp [RefsLt, LinkWorld.launch]) fun y => ?_
        cases y <;> simp [LinkWorld.launch, hrx, RxTaskPc.holds]
      · exact h.rx_same (by simp [RefsLt]) fun y => by cases y <;> simp [hrx, RxTaskPc.holds]
  | unlockHtab param =>
    cases param with
    | none =>
      simp only [hrx, Option.some.injEq] at hs
      subst hs
      exact h.rx_release (by simp [RefsLt]) (by simp [hrx, RxTaskPc.holds])
        fun y => by cases y <;> simp [hrx, RxTaskPc.holds]
    | some id =>
      simp only [hrx, Option.some.injEq] at hs
      subst hs
      exact h.rx_release (by simpa [RefsLt] using h.rx_lt id (.inl hrx))
        (by simp [hrx, RxTaskPc.holds]) fun y => by cases y <;> simp [hrx, RxTaskPc.holds]
  | lockParam id =>
    simp only [hrx] at hs
    refine h.rx_take hs (by simpa [RefsLt] using h.rx_lt id (.inr (.inl hrx))) fun y => ?_
    cases y <;> simp [hrx, RxTaskPc.holds, eq_comm]
  | store id =>
    simp only [hrx, Option.some.injEq] at hs
    subst hs
    refine h.rx_release (by simp [RefsLt]) (by simp [hrx, RxTaskPc.holds]) fun y => ?_
    cases y <;> simp [hrx, RxTaskPc.holds, eq_comm]

/-- A caller takes a semaphore. -/
theorem call_take {pc : CallPc} (h : LinkInv w) (hs : (w.setCall t pc).take x = some w')
    (hpc : ∀ i, pc = .lockParam i ∨ pc = .inParam i → i < w.launched)
    (ha : ∀ y, pc.holds y = true ↔ (w.call t).holds y = true ∨ y = x) : LinkInv w' := by
  have ho := h.owned.take (a := .caller t) hs rfl (fun b hb y => owns_setCall hb) fun y => by
    simpa [LinkWorld.owns, LinkWorld.setCall] using ha y
  obtain ⟨-, rfl⟩ := take_eq hs
  exact h.of_call ho hpc rfl ⟨rfl, rfl, rfl, rfl⟩

/-- A caller releases a semaphore. -/
theorem call_release {pc : CallPc} (h : LinkInv w)
    (hpc : ∀ i, pc = .lockParam i ∨ pc = .inParam i → i < w.launched)
    (hx : (w.call t).holds x = true)
    (ha : ∀ y, pc.holds y = true ↔ (w.call t).holds y = true ∧ y ≠ x) :
    LinkInv ((w.setCall t pc).release x) := by
  have ho := h.owned.release (a := .caller t) (w.setCall t pc) hx rfl
    (fun b hb y => owns_setCall hb) fun y => by
      simpa [LinkWorld.owns, LinkWorld.setCall] using ha y
  exact h.of_call ho hpc rfl ⟨rfl, rfl, rfl, rfl⟩

/-- A caller goes on without the semaphores. -/
theorem call_same {pc : CallPc} (h : LinkInv w)
    (hpc : ∀ i, pc = .lockParam i ∨ pc = .inParam i → i < w.launched)
    (ha : ∀ y, pc.holds y = (w.call t).holds y) : LinkInv (w.setCall t pc) := by
  have ho := h.owned.same (a := .caller t) (w.setCall t pc) rfl
    (fun b hb y => owns_setCall hb) fun y => by
      simp [LinkWorld.owns, LinkWorld.setCall, ha]
  exact h.of_call ho hpc rfl ⟨rfl, rfl, rfl, rfl⟩

theorem callStep {launch : Bool} (h : LinkInv w) (hs : w.callStep t launch = some w') :
    LinkInv w' := by
  unfold LinkWorld.callStep at hs
  cases hc : w.call t with
  | idle => simp [hc] at hs
  | lockHtab call key =>
    simp only [hc] at hs
    exact h.call_take hs (by simp) fun y => by cases y <;> simp [hc, CallPc.holds]
  | lookup call key =>
    simp only [hc] at hs
    cases ht : w.table key with
    | some id =>
      simp only [ht, Option.some.injEq] at hs
      subst hs
      exact h.call_same (by simpa using h.table_lt key id ht)
        fun y => by cases y <;> simp [hc, CallPc.holds]
    | none =>
      have hsame : LinkInv (w.setCall t .unlockHtab) :=
        h.call_same (by simp) fun y => by cases y <;> simp [hc, CallPc.holds]
      cases call <;> simp only [ht, Option.some.injEq] at hs <;> subst hs
      case startScheduledContact =>
        split
        · refine (h.launch key).call_same (by simp) fun y => ?_
          cases y <;> simp [LinkWorld.launch, hc, CallPc.holds]
        · exact hsame
      all_goals exact hsame
  | lockParam id =>
    simp only [hc] at hs
    refine h.call_take hs (by simpa using h.call_lt t id (.inl hc)) fun y => ?_
    cases y <;> simp [hc, CallPc.holds, eq_comm]
  | inParam id =>
    simp only [hc, Option.some.injEq] at hs
    subst hs
    refine h.call_release (by simp) (by simp [hc, CallPc.holds]) fun y => ?_
    cases y <;> simp [hc, CallPc.holds, eq_comm]
  | unlockHtab =>
    simp only [hc, Option.some.injEq] at hs
    subst hs
    exact h.call_release (by simp) (by simp [hc, CallPc.holds])
      fun y => by cases y <;> simp [hc, CallPc.holds]

theorem step (h : LinkInv w) (hs : w.step op = some w') : LinkInv w' := by
  cases op with
  | mgmt id => exact h.mgmtStep hs
  | rx launch => exact h.rxStep hs
  | caller t launch => exact h.callStep hs
  | initOk id =>
    simp only [LinkWorld.step] at hs
    split at hs
    · rename_i hm
      simp only [Option.some.injEq] at hs
      subst hs
      exact h.mgmt_release (by simp [hm]) (by simp) (by simp [hm, MgmtPc.owns])
        fun y => by cases y <;> simp [hm, MgmtPc.owns, MgmtPc.holds]
    · cases hs
  | initFailed id | terminated id =>
    simp only [LinkWorld.step] at hs
    split at hs
    · rename_i hm
      simp only [Option.some.injEq] at hs
      subst hs
      exact h.mgmt_same (by simp [hm]) (by simp)
        fun y => by cases y <;> simp [hm, MgmtPc.owns, MgmtPc.holds]
    · cases hs
  | received key =>
    simp only [LinkWorld.step] at hs
    split at hs
    · rename_i hrx
      simp only [Option.some.injEq] at hs
      subst hs
      exact h.rx_same (by simp [RefsLt]) fun y => by cases y <;> simp [hrx, RxTaskPc.holds]
    · cases hs
  | call t call key =>
    simp only [LinkWorld.step] at hs
    split at hs
    · rename_i hc
      simp only [Option.some.injEq] at hs
      subst hs
      exact h.call_same (by simp) fun y => by cases y <;> simp [hc, CallPc.holds]
    · cases hs

end LinkInv

theorem linkInv_inductive : linkSys.Inductive LinkInv where
  init := by
    rintro w rfl
    refine ⟨⟨fun {x a} h => ?_, fun h => ?_, fun {x a b} h _ => ?_⟩, ?_, ?_, ?_, ?_, ?_⟩
    · cases a <;> cases x <;>
        simp [LinkWorld.owns, LinkWorld.new, MgmtPc.owns, MgmtPc.holds, RxTaskPc.holds,
          CallPc.holds] at h
    · simp [LinkWorld.new] at h
    · cases a <;> cases x <;>
        simp [LinkWorld.owns, LinkWorld.new, MgmtPc.owns, MgmtPc.holds, RxTaskPc.holds,
          CallPc.holds] at h
    all_goals simp [LinkWorld.new]
  step _ _ _ h hs := h.step hs

end Cspcl.Ud3tn
