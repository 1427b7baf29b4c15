import Cspcl.Pool.Owner

/-!
# Concurrent teardown of the pool

Any number of concurrent calls of `cspcl_conn_pool_cleanup` (alone or in `cspcl_cleanup`),
`cspcl_send_bundle` and `cspcl_conn_pool_add` on one initialized pool. The tests of the flags
outside the mutex, the lock, the code under the mutex, the unlock and the destruction of the mutex
are steps of their own (`teardownSys`).

* `TeardownSafe`: what the teardown owes.
* `InitializedAtLock`: the pool is initialized when a call takes the mutex. Every run whose locks
  are such is safe (`pool_teardown_safe`). The code tests the flag before the lock and not again
  behind it, so a run may leave the condition, and then nothing of the above holds
  (`pool_teardown_unsafe`).
-/

namespace Cspcl

open Ledger ConnPool

/-- A call on the pool. `whole`: the cleanup is the one of `cspcl_cleanup`. -/
inductive PoolUse where
  | cleanup (whole : Bool)
  | send (bundle : Bundle) (addr port : UInt8)
  | add (addr port : UInt8) (c : Conn)
  deriving DecidableEq, Repr

/-- Where a call is. -/
inductive UsePc where
  | idle
  /-- Before its test of `pool->initialized`. -/
  | called (k : PoolUse)
  /-- It saw that the pool is initialized and is about to lock. -/
  | tested (k : PoolUse)
  /-- It has the mutex. -/
  | inside (k : PoolUse)
  /-- It is about to unlock. -/
  | leaving (k : PoolUse)
  /-- A cleanup between its unlock and the destruction of the mutex. -/
  | destroying (whole : Bool)
  /-- `cspcl_cleanup`, before it clears `cspcl->initialized`. -/
  | finishing
  | returned (k : PoolUse)
  deriving DecidableEq, Repr

namespace UsePc

def holds : UsePc → Bool
  | inside _ | leaving _ => true
  | _ => false

/-- A cleanup that has closed the connections and not destroyed the mutex yet. -/
def destroys : UsePc → Bool
  | leaving (.cleanup _) | destroying _ => true
  | _ => false

/-- A cleanup that is past its work on the pool. -/
def cleaned : UsePc → Bool
  | finishing | returned (.cleanup _) => true
  | _ => false

end UsePc

/-- A pool, its mutex and the calls on it. `initialized`: of the instance; `destroyed`: how often
the mutex was destroyed. Ghost state: `trace`, the calls to libcsp; `late`, those made under the
mutex after a cleanup had marked the pool; `lockedDestroyed`, the locks of the destroyed mutex. -/
structure PoolTeardown where
  initialized : Bool
  pool : ConnPool
  holder : Option Nat
  destroyed : Nat
  pc : Nat → UsePc
  trace : List Call
  late : List Call
  lockedDestroyed : Nat

/-- A step of the call `t`. -/
inductive TeardownOp where
  | call (t : Nat) (k : PoolUse)
  | test (t : Nat)
  /-- `ok`: the mutex was taken. -/
  | lock (t : Nat) (ok : Bool)
  /-- The code under the mutex, with what its calls return. -/
  | run (t : Nat) (first retry : SendEnv) (now : Int)
  | unlock (t : Nat)
  | destroy (t : Nat)
  | finish (t : Nat)

namespace PoolTeardown

/-- A pool after `cspcl_conn_pool_init`. -/
def new (maxAgeEnv : Option CString) : PoolTeardown where
  initialized := true
  pool := (ConnPool.init true maxAgeEnv).1
  holder := none
  destroyed := 0
  pc _ := .idle
  trace := []
  late := []
  lockedDestroyed := 0

/-- The connections that came into the pool. -/
def opened (s : PoolTeardown) : List Conn := incoming (acts s.trace)

def goto (s : PoolTeardown) (t : Nat) (pc : UsePc) : PoolTeardown :=
  { s with pc := Function.update s.pc t pc }

/-- Where a call goes that does not get at the pool. -/
def afterPool : PoolUse → UsePc
  | .cleanup true => .finishing
  | k => .returned k

/-- The checks before the pool. -/
def rejects (s : PoolTeardown) : PoolUse → Bool
  | .send bundle _ _ => bundle.length == 0 || !s.initialized || maxBundleSize < bundle.length
  | _ => false

/-- The connections that libcsp gives, or that the caller hands over, did not exist before. -/
def Fresh (s : PoolTeardown) (first retry : SendEnv) : PoolUse → Prop
  | .cleanup _ => True
  | .send .. => (∀ c ∈ first.connect, c ∉ s.opened) ∧
      ∀ c ∈ retry.connect, c ∉ s.opened ∧ first.connect ≠ some c
  | .add _ _ c => c ∉ s.opened

instance (s : PoolTeardown) (first retry : SendEnv) (k : PoolUse) :
    Decidable (s.Fresh first retry k) := by
  cases k <;> unfold Fresh <;> infer_instance

/-- The code under the mutex. -/
def locked (p : ConnPool) (first retry : SendEnv) (now : Int) : PoolUse → ConnPool × List Call
  | .cleanup _ => p.cleanupLocked
  | .send bundle addr port =>
    let (p, _, calls) := sendLocked p bundle addr port first retry
    (p, calls)
  | .add addr port c => p.addLocked addr port c now

def step (s : PoolTeardown) : TeardownOp → Option PoolTeardown
  | .call t k =>
    if s.pc t = .idle then some (s.goto t (if s.rejects k then .returned k else .called k))
    else none
  | .test t =>
    match s.pc t with
    | .called k => some (s.goto t (if s.pool.initialized then .tested k else afterPool k))
    | _ => none
  | .lock t ok =>
    match s.pc t with
    | .tested k =>
      if 0 < s.destroyed then
        -- What the lock of a destroyed mutex does is not defined: it may succeed or fail.
        let s := { s with lockedDestroyed := s.lockedDestroyed + 1 }
        some (if ok then { s.goto t (.inside k) with holder := some t } else s.goto t (afterPool k))
      else if ok && s.holder.isNone then some { s.goto t (.inside k) with holder := some t }
      else none
    | _ => none
  | .run t first retry now =>
    match s.pc t with
    | .inside k =>
      if s.Fresh first retry k then
        let (pool, calls) := locked s.pool first retry now k
        some { s.goto t (.leaving k) with
          pool
          trace := s.trace ++ calls
          late := if s.pool.initialized then s.late else s.late ++ calls }
      else none
    | _ => none
  | .unlock t =>
    match s.pc t with
    | .leaving (.cleanup whole) => some { s.goto t (.destroying whole) with holder := none }
    | .leaving k => some { s.goto t (.returned k) with holder := none }
    | _ => none
  | .destroy t =>
    match s.pc t with
    | .destroying whole =>
      some { s.goto t (afterPool (.cleanup whole)) with destroyed := s.destroyed + 1 }
    | _ => none
  | .finish t =>
    if s.pc t = .finishing then
      some { s.goto t (.returned (.cleanup true)) with initialized := false }
    else none

end PoolTeardown

/-- All interleavings, from an initialized pool. -/
def teardownSys : Lts PoolTeardown TeardownOp where
  init s := ∃ maxAgeEnv, s = .new maxAgeEnv
  step := PoolTeardown.step

/-- What the teardown owes in every state. -/
structure TeardownSafe (s : PoolTeardown) : Prop where
  destroyed_le : s.destroyed ≤ 1
  not_locked : s.lockedDestroyed = 0
  /-- Nothing is opened or stored after a cleanup has marked the pool. -/
  none_late : incoming (acts s.late) = []
  /-- Once a cleanup has returned, every connection was closed exactly once. -/
  closed_once : ∀ t whole, s.pc t = .returned (.cleanup whole) →
    ∀ c ∈ s.opened, (acts s.trace).count (.release c) = 1

/-- A call takes the mutex only while the pool is initialized. -/
def InitializedAtLock (s : PoolTeardown) : TeardownOp → Prop
  | .lock _ _ => s.pool.initialized = true
  | _ => True

instance (s : PoolTeardown) (op : TeardownOp) : Decidable (InitializedAtLock s op) := by
  cases op <;> unfold InitializedAtLock <;> infer_instance

/-- The runs whose locks find the pool initialized. -/
abbrev guardedTeardown : Lts PoolTeardown TeardownOp := teardownSys.guard InitializedAtLock

namespace PoolTeardown

/-- The holder of the mutex, the one cleanup that marked the pool, and the pool's connections. -/
structure Inv (s : PoolTeardown) : Prop where
  owns : s.pool.Owns (acts s.trace)
  empty : s.pool.initialized = false → ∀ i, (s.pool.entries i).conn = none
  holder_iff : ∀ t, (s.pc t).holds = true ↔ s.holder = some t
  inside : ∀ t k, s.pc t = .inside k → s.pool.initialized = true
  destroys : ∀ t, (s.pc t).destroys = true → s.pool.initialized = false ∧ s.destroyed = 0
  unique : ∀ t u, (s.pc t).destroys = true → (s.pc u).destroys = true → t = u
  destroyed : 0 < s.destroyed → s.pool.initialized = false
  destroyed_le : s.destroyed ≤ 1
  cleaned : ∀ t, (s.pc t).cleaned = true → s.pool.initialized = false
  late : s.late = []
  not_locked : s.lockedDestroyed = 0

variable {s s' : PoolTeardown} {op : TeardownOp} {t : Nat} {k : PoolUse} {pc : UsePc}

theorem goto_pc (s : PoolTeardown) (t u : Nat) (pc : UsePc) :
    (s.goto t pc).pc u = if u = t then pc else s.pc u := by
  simp [goto, Function.update_apply]

@[simp] theorem goto_pool : (s.goto t pc).pool = s.pool := rfl
@[simp] theorem goto_holder : (s.goto t pc).holder = s.holder := rfl
@[simp] theorem goto_destroyed : (s.goto t pc).destroyed = s.destroyed := rfl

/-- The marked pool after the code under the mutex. -/
theorem initialized_locked (p : ConnPool) (first retry : SendEnv) (now : Int) (k : PoolUse) :
    (locked p first retry now k).1.initialized =
      match k with
      | .cleanup _ => false
      | _ => p.initialized := by
  cases k with
  | cleanup whole => rfl
  | send bundle addr port => exact initialized_sendLocked p bundle addr port first retry
  | add addr port c =>
    unfold locked addLocked
    simp only [initialized_store, initialized_findFreeOrEvictLocked, initialized_bump]

theorem owns_locked {first retry : SendEnv} (now : Int) (h : s.pool.Owns (acts s.trace))
    (hf : s.Fresh first retry k) :
    (locked s.pool first retry now k).1.Owns
      (acts (s.trace ++ (locked s.pool first retry now k).2)) := by
  rw [acts_append]
  cases k with
  | cleanup whole => exact h.cleanupLocked
  | send bundle addr port => exact h.sendLocked bundle addr port hf.1 hf.2
  | add addr port c => exact h.addLocked addr port now hf

namespace Inv

/-- A call moves outside the mutex and the teardown. -/
theorem goto (h : Inv s) (hold : (s.pc t).holds = false ∧ (s.pc t).destroys = false)
    (hnew : pc.holds = false ∧ pc.destroys = false)
    (hcl : pc.cleaned = true → s.pool.initialized = false) : Inv (s.goto t pc) where
  owns := h.owns
  empty := h.empty
  holder_iff u := by
    rw [goto_pc]
    split
    · rename_i hu
      subst hu
      have hne := mt (h.holder_iff u).mpr (by simp [hold.1])
      simp only [hnew.1, Bool.false_eq_true, false_iff]
      exact hne
    · exact h.holder_iff u
  inside u k hu := by
    rw [goto_pc] at hu
    split at hu
    · rw [hu] at hnew
      cases hnew.1
    · exact h.inside u k hu
  destroys u hu := by
    rw [goto_pc] at hu
    split at hu
    · simp [hnew.2] at hu
    · exact h.destroys u hu
  unique u v hu hv := by
    rw [goto_pc] at hu hv
    split at hu
    · simp [hnew.2] at hu
    split at hv
    · simp [hnew.2] at hv
    · exact h.unique u v hu hv
  destroyed := h.destroyed
  destroyed_le := h.destroyed_le
  cleaned u hu := by
    rw [goto_pc] at hu
    split at hu
    · exact hcl hu
    · exact h.cleaned u hu
  late := h.late
  not_locked := h.not_locked

theorem afterPool_spec (k : PoolUse) :
    (afterPool k).holds = false ∧ (afterPool k).destroys = false ∧
    ((afterPool k).cleaned = true ↔ ∃ whole, k = .cleanup whole) := by
  cases k with
  | cleanup whole => cases whole <;> simp [afterPool, UsePc.holds, UsePc.destroys, UsePc.cleaned]
  | send bundle addr port => simp [afterPool, UsePc.holds, UsePc.destroys, UsePc.cleaned]
  | add addr port c => simp [afterPool, UsePc.holds, UsePc.destroys, UsePc.cleaned]

/-- The mutex is taken while the pool is initialized. -/
theorem lock (h : Inv s) (hi : s.pool.initialized = true) (hfree : s.holder = none) :
    Inv { s.goto t (.inside k) with holder := some t } := by
  have hpc : ∀ u, (s.goto t (.inside k)).pc u = if u = t then .inside k else s.pc u :=
    fun u => goto_pc s t u _
  obtain ⟨howns, hempty, hholder, hinside, hdestroys, hunique, hd, hle, hcl, hlate, hnl⟩ := h
  refine ⟨howns, hempty, ?_, ?_, ?_, ?_, hd, hle, ?_, hlate, hnl⟩
  all_goals
    simp only [hpc, goto_pool, goto_destroyed]
    grind [UsePc.holds, UsePc.destroys, UsePc.cleaned]

/-- The code under the mutex: a cleanup marks the pool, and the other calls wait for the mutex. -/
theorem run {first retry : SendEnv} {now : Int} (h : Inv s) (hpc : s.pc t = .inside k)
    (hf : s.Fresh first retry k) : Inv { s.goto t (.leaving k) with
      pool := (locked s.pool first retry now k).1
      trace := s.trace ++ (locked s.pool first retry now k).2
      late := if s.pool.initialized then s.late
        else s.late ++ (locked s.pool first retry now k).2 } := by
  have hi := h.inside t k hpc
  have hown := owns_locked now h.owns hf
  have hinit := initialized_locked s.pool first retry now k
  have hempty : (locked s.pool first retry now k).1.initialized = false →
      ∀ i, ((locked s.pool first retry now k).1.entries i).conn = none := by
    cases k with
    | cleanup whole => exact fun _ _ => rfl
    | send bundle addr port | add addr port c => simp [hinit, hi]
  have hpc' : ∀ u, (s.goto t (.leaving k)).pc u = if u = t then .leaving k else s.pc u :=
    fun u => goto_pc s t u _
  have hmark : (UsePc.leaving k).destroys = true →
      (locked s.pool first retry now k).1.initialized = false := by
    cases k <;> simp [UsePc.destroys, hinit]
  -- Nobody else has the mutex, and no cleanup was here before.
  have hother : ∀ u k', s.pc u = .inside k' → u = t := fun u k' hu => by
    have h₁ := (h.holder_iff u).mp (by rw [hu]; rfl)
    have h₂ := (h.holder_iff t).mp (by rw [hpc]; rfl)
    exact Option.some.inj (h₁.symm.trans h₂)
  have hfirst : ∀ u, (s.pc u).destroys = false ∧ (s.pc u).cleaned = false := fun u => by
    have h₁ := mt (fun hd => (h.destroys u hd).1) (by simp [hi])
    have h₂ := mt (h.cleaned u) (by simp [hi])
    exact ⟨by simpa using h₁, by simpa using h₂⟩
  have hzero : s.destroyed = 0 := by
    have h₁ := mt h.destroyed (by simp [hi])
    omega
  have hholder := h.holder_iff
  generalize locked s.pool first retry now k = r at *
  refine ⟨hown, hempty, ?_, ?_, ?_, ?_, fun hpos => ?_, h.destroyed_le, ?_, ?_, h.not_locked⟩
  · simp only [hpc', goto_holder]
    grind [UsePc.holds]
  · simp only [hpc']
    grind
  · simp only [hpc', goto_destroyed]
    grind
  · simp only [hpc']
    grind
  · exact absurd hpos (by simp [hzero])
  · simp only [hpc']
    grind [UsePc.cleaned]
  · rw [if_pos hi, h.late]

theorem unlock (h : Inv s) (hpc : s.pc t = .leaving k) (hold : pc.holds = false)
    (hin : ∀ k, pc ≠ .inside k) (hd : pc.destroys = (s.pc t).destroys)
    (hcl : pc.cleaned = true → s.pool.initialized = false) :
    Inv { s.goto t pc with holder := none } := by
  have hpc' : ∀ u, (s.goto t pc).pc u = if u = t then pc else s.pc u :=
    fun u => goto_pc s t u _
  obtain ⟨howns, hempty, hholder, hinside, hdestroys, hunique, hd, hle, hcl, hlate, hnl⟩ := h
  refine ⟨howns, hempty, ?_, ?_, ?_, ?_, hd, hle, ?_, hlate, hnl⟩
  all_goals
    simp only [hpc', goto_pool, goto_destroyed]
    grind [UsePc.holds]

theorem destroy {whole : Bool} (h : Inv s) (hpc : s.pc t = .destroying whole) :
    Inv { s.goto t (afterPool (.cleanup whole)) with destroyed := s.destroyed + 1 } := by
  have hpc' : ∀ u, (s.goto t (afterPool (.cleanup whole))).pc u =
      if u = t then afterPool (.cleanup whole) else s.pc u := fun u => goto_pc s t u _
  obtain ⟨hold, hdes, -⟩ := afterPool_spec (.cleanup whole)
  obtain ⟨howns, hempty, hholder, hinside, hdestroys, hunique, hd, hle, hcl, hlate, hnl⟩ := h
  refine ⟨howns, hempty, ?_, ?_, ?_, ?_, ?_, ?_, ?_, hlate, hnl⟩
  all_goals
    simp only [hpc', goto_pool, goto_holder]
    grind [UsePc.holds, UsePc.destroys, UsePc.cleaned, afterPool]

theorem step (h : Inv s) (hok : InitializedAtLock s op) (hs : s.step op = some s') : Inv s' := by
  cases op with
  | call t k =>
    simp only [PoolTeardown.step] at hs
    split at hs
    · rename_i hpc
      obtain rfl := Option.some.inj hs
      refine h.goto (by rw [hpc]; exact ⟨rfl, rfl⟩) ?_ ?_
      · split <;> exact ⟨rfl, rfl⟩
      · -- Only a send is rejected.
        cases k with
        | cleanup whole | add addr port c => simp [rejects, UsePc.cleaned]
        | send bundle addr port =>
          cases s.rejects (.send bundle addr port) <;> simp [UsePc.cleaned]
    · cases hs
  | test t =>
    simp only [PoolTeardown.step] at hs
    split at hs
    · rename_i k hpc
      obtain rfl := Option.some.inj hs
      obtain ⟨hold, hdes, -⟩ := afterPool_spec k
      refine h.goto (by rw [hpc]; exact ⟨rfl, rfl⟩) ?_ fun hc => ?_
      · split
        · exact ⟨rfl, rfl⟩
        · exact ⟨hold, hdes⟩
      · by_contra hi
        simp [Bool.not_eq_false _ ▸ hi, UsePc.cleaned] at hc
    · cases hs
  | lock t ok =>
    simp only [PoolTeardown.step] at hs
    split at hs
    · rename_i k hpc
      split at hs
      · -- The mutex was destroyed, so the pool is marked.
        rename_i hpos
        have hi := h.destroyed hpos
        rw [show s.pool.initialized = true from hok] at hi
        cases hi
      split at hs
      · rename_i hfree
        obtain rfl := Option.some.inj hs
        simp only [Bool.and_eq_true, Option.isNone_iff_eq_none] at hfree
        exact h.lock hok hfree.2
      · cases hs
    · cases hs
  | run t first retry now =>
    simp only [PoolTeardown.step] at hs
    split at hs
    · rename_i k hpc
      split at hs
      · rename_i hf
        obtain rfl := Option.some.inj hs
        exact h.run hpc hf
      · cases hs
    · cases hs
  | unlock t =>
    simp only [PoolTeardown.step] at hs
    split at hs
    · rename_i whole hpc
      obtain rfl := Option.some.inj hs
      exact h.unlock hpc rfl (by simp) (by rw [hpc]; rfl) (by simp [UsePc.cleaned])
    · rename_i k hk hpc
      obtain rfl := Option.some.inj hs
      have hnot : (UsePc.leaving k).destroys = false ∧ (UsePc.returned k).cleaned = false := by
        cases k with
        | cleanup whole => exact absurd rfl (hk whole)
        | send bundle addr port | add addr port c => exact ⟨rfl, rfl⟩
      exact h.unlock hpc rfl (by simp) (by rw [hpc]; exact hnot.1.symm) (by simp [hnot.2])
    · cases hs
  | destroy t =>
    simp only [PoolTeardown.step] at hs
    split at hs
    · rename_i whole hpc
      obtain rfl := Option.some.inj hs
      exact h.destroy hpc
    · cases hs
  | finish t =>
    simp only [PoolTeardown.step] at hs
    split at hs
    · rename_i hpc
      obtain rfl := Option.some.inj hs
      have hi := h.cleaned t (by rw [hpc]; rfl)
      have hret : Inv (s.goto t (.returned (.cleanup true))) :=
        h.goto (by rw [hpc]; exact ⟨rfl, rfl⟩) ⟨rfl, rfl⟩ fun _ => hi
      exact ⟨hret.owns, hret.empty, hret.holder_iff, hret.inside, hret.destroys, hret.unique,
        hret.destroyed, hret.destroyed_le, hret.cleaned, hret.late, hret.not_locked⟩
    · cases hs

end Inv

theorem inv_guarded : guardedTeardown.Inductive Inv where
  init s hs := by
    obtain ⟨maxAgeEnv, rfl⟩ := hs
    refine ⟨⟨by simp [new, ConnPool.init, zero], by simp [new, ConnPool.init, zero], ok_nil,
      by simp [new, ConnPool.init, zero, live]⟩, fun _ _ => rfl, ?_, ?_, ?_, ?_, ?_, ?_, ?_, rfl,
      rfl⟩
    all_goals simp [new, UsePc.holds, UsePc.destroys, UsePc.cleaned]
  step s op s' h hs := by
    obtain ⟨hok, hs⟩ := Lts.guard_step.mp hs
    exact h.step hok hs

/-- A marked pool has no connection left: each was closed once. -/
theorem Inv.safe (h : Inv s) : TeardownSafe s where
  destroyed_le := h.destroyed_le
  not_locked := h.not_locked
  none_late := by rw [h.late]; rfl
  closed_once t whole ht c hc := by
    have hi := h.cleaned t (by rw [ht]; rfl)
    rcases h.owns.ok.live_or_released hc with ⟨hl, -⟩ | ⟨-, h1⟩
    · obtain ⟨i, hi'⟩ := (h.owns.live c).mp hl
      rw [h.empty hi i] at hi'
      cases hi'
    · exact h1

end PoolTeardown

/-- In every run whose locks find the pool initialized, the teardown is safe in every state. -/
theorem pool_teardown_safe {s : PoolTeardown} (hs : guardedTeardown.Reach s) : TeardownSafe s :=
  (PoolTeardown.inv_guarded.reach hs).safe

/-- What the calls of a send return that connects to `c` and is acked. -/
def connectEnv (c : Conn) : SendEnv := ⟨⟨0, 0, some c⟩, 0, true⟩

/-- A send and two cleanups, of which the second one comes to its test after the first one. -/
def orderlyRun : List TeardownOp :=
  [.call 0 (.send [1] 5 10), .call 1 (.cleanup true), .call 2 (.cleanup false), .test 0, .test 1,
    .lock 0 true, .run 0 (connectEnv 0) (connectEnv 1) 0, .unlock 0, .lock 1 true,
    .run 1 (connectEnv 0) (connectEnv 1) 0, .test 2, .unlock 1, .destroy 1, .finish 1]

theorem pool_teardown_safe_orderly : ∃ s, guardedTeardown.exec (.new none) orderlyRun = some s ∧
    s.opened = [0] ∧ s.destroyed = 1 ∧ TeardownSafe s := by
  obtain ⟨s, hs⟩ : ∃ s, guardedTeardown.exec (.new none) orderlyRun = some s := ⟨_, rfl⟩
  have ho : (guardedTeardown.exec (.new none) orderlyRun).map PoolTeardown.opened = some [0] := by
    decide +kernel
  have hd : (guardedTeardown.exec (.new none) orderlyRun).map PoolTeardown.destroyed = some 1 := by
    decide +kernel
  rw [hs, Option.map_some, Option.some.injEq] at ho hd
  exact ⟨s, hs, ho, hd, pool_teardown_safe (.of_exec ⟨none, rfl⟩ hs)⟩

/-- Two cleanups, a send and an add pass their tests; then the first cleanup marks the pool. -/
def racingRun : List TeardownOp :=
  [.call 0 (.cleanup false), .call 1 (.cleanup false), .call 2 (.send [1] 5 10),
    .call 3 (.add 6 10 7), .test 0, .test 1, .test 2, .test 3,
    .lock 0 true, .run 0 (connectEnv 0) (connectEnv 1) 0, .unlock 0,
    .lock 2 true, .run 2 (connectEnv 0) (connectEnv 1) 0, .unlock 2,
    .lock 1 true, .run 1 (connectEnv 0) (connectEnv 1) 0, .unlock 1, .destroy 0, .destroy 1,
    .lock 3 true, .run 3 (connectEnv 0) (connectEnv 1) 0, .unlock 3]

theorem pool_teardown_unsafe : ∃ s, teardownSys.exec (.new none) racingRun = some s ∧
    s.destroyed = 2 ∧ s.lockedDestroyed = 1 ∧ incoming (acts s.late) = [0, 7] ∧
    (acts s.trace).count (.release 7) = 0 ∧ ¬ TeardownSafe s := by
  obtain ⟨s, hs⟩ : ∃ s, teardownSys.exec (.new none) racingRun = some s := ⟨_, rfl⟩
  have hd : (teardownSys.exec (.new none) racingRun).map PoolTeardown.destroyed = some 2 := by
    decide +kernel
  have hl : (teardownSys.exec (.new none) racingRun).map PoolTeardown.lockedDestroyed = some 1 := by
    decide +kernel
  have hin : (teardownSys.exec (.new none) racingRun).map (fun s => incoming (acts s.late)) =
      some [0, 7] := by
    decide +kernel
  have hc : (teardownSys.exec (.new none) racingRun).map
      (fun s => (acts s.trace).count (.release 7)) = some 0 := by
    decide +kernel
  rw [hs, Option.map_some, Option.some.injEq] at hd hl hin hc
  refine ⟨s, hs, hd, hl, hin, hc, fun h => ?_⟩
  have hle := h.destroyed_le
  omega

end Cspcl
