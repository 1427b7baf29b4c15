import Mathlib.Data.List.MinMax
import Mathlib.Data.List.Perm.Subperm
import Cspcl.Config

/-!
# The table of inbound connections

`ListenerTable` of `rust-bindings/cspcl/src/inbound.rs`: the listeners of the accepted connections
that have not finished, and which of them are being closed (`evicted`). A listener is named by a
number, which stands for the pointer to its shared state.

* `live`: the listeners that count, `keptLive`: those that are not being closed.
* `remaining`: those that a `supersede` keeps, unless they are too many. `supersede_spec`: what it
  does to the table.
-/

namespace Cspcl

/-- `INBOUND_IDLE_TIMEOUT` in milliseconds. -/
def inboundIdleTimeoutMs : Nat := 10 * 60 * 1000

namespace Inbound

/-- `MAX_INBOUND_CONNS`. -/
def maxInboundConns : Nat := rxConnTableSize

/-- `MAX_EXTRA_INBOUND_CONNS`. -/
def maxExtraInboundConns : Nat := 2

/-- `ListenerState`. -/
structure Listener where
  key : UInt8 × UInt8
  running : Bool
  evicted : Bool
  lastActiveMs : Nat
  deriving DecidableEq, Repr

/-- `ListenerState::new`. -/
def Listener.new (key : UInt8 × UInt8) (nowMs : Nat) : Listener := ⟨key, true, false, nowMs⟩

/-- `ListenerTable`, with the shared states that it points to. -/
structure ListenerTable where
  listeners : List Nat
  state : Nat → Listener

namespace ListenerTable

/-- `ListenerTable::open`: the number of open connections, after finished listeners are
forgotten. -/
def openCount (t : ListenerTable) : Nat × ListenerTable :=
  let t := { t with listeners := t.listeners.filter fun id => (t.state id).running }
  (t.listeners.length, t)

/-- `ListenerTable::kept`. -/
def kept (t : ListenerTable) : Nat :=
  (t.listeners.filter fun id => !(t.state id).evicted).length

/-- `ListenerTable::may_accept`. -/
def mayAccept (t : ListenerTable) : Bool × ListenerTable :=
  let (n, t) := t.openCount
  (n < maxInboundConns + maxExtraInboundConns, t)

/-- `ListenerTable::register`, of a listener whose state was just created. -/
def register (t : ListenerTable) (id : Nat) (l : Listener) : ListenerTable where
  listeners := t.listeners ++ [id]
  state := Function.update t.state id l

/-- `listener.evicted.store(true)` for each of the listeners. -/
def evict (t : ListenerTable) (ids : List Nat) : ListenerTable :=
  { t with state := fun id => if id ∈ ids then { t.state id with evicted := true } else t.state id }

/-- `ListenerTable::evict_least_recent_except`. -/
def evictLeastRecentExcept (t : ListenerTable) (keep : Nat) : ListenerTable :=
  let candidates := t.listeners.filter fun id => id ≠ keep && !(t.state id).evicted
  t.evict (candidates.argmin fun id => (t.state id).lastActiveMs).toList

/-- `ListenerTable::supersede`. -/
def supersede (t : ListenerTable) (id : Nat) : ListenerTable :=
  if !(t.state id).running then t
  else
    let stale := t.listeners.filter fun old => (t.state old).key = (t.state id).key && old ≠ id
    let (_, t) := (t.evict stale).openCount
    if t.kept > maxInboundConns then t.evictLeastRecentExcept id else t

/-- The listeners that have not finished. -/
def live (t : ListenerTable) : List Nat := t.listeners.filter fun id => (t.state id).running

/-- Those that are not being closed. -/
def keptLive (t : ListenerTable) : List Nat := t.live.filter fun id => !(t.state id).evicted

/-- Those that are still kept once `id` has superseded the others with its key. -/
def remaining (t : ListenerTable) (id : Nat) : List Nat :=
  t.keptLive.filter fun i => i = id || (t.state i).key ≠ (t.state id).key

variable {t : ListenerTable} {id i : Nat}

@[simp] theorem evict_listeners {ids : List Nat} : (t.evict ids).listeners = t.listeners := rfl

@[simp] theorem key_evict {ids : List Nat} : ((t.evict ids).state i).key = (t.state i).key := by
  unfold evict; dsimp only; split <;> rfl

@[simp] theorem running_evict {ids : List Nat} :
    ((t.evict ids).state i).running = (t.state i).running := by
  unfold evict; dsimp only; split <;> rfl

@[simp] theorem lastActiveMs_evict {ids : List Nat} :
    ((t.evict ids).state i).lastActiveMs = (t.state i).lastActiveMs := by
  unfold evict; dsimp only; split <;> rfl

theorem evicted_evict {ids : List Nat} :
    ((t.evict ids).state i).evicted = (decide (i ∈ ids) || (t.state i).evicted) := by
  unfold evict; dsimp only; split <;> simp_all

theorem mem_live : i ∈ t.live ↔ i ∈ t.listeners ∧ (t.state i).running = true := by
  simp [live]

theorem mem_keptLive : i ∈ t.keptLive ↔ i ∈ t.live ∧ (t.state i).evicted = false := by
  simp [keptLive]

theorem mem_remaining : i ∈ t.remaining id ↔
    i ∈ t.keptLive ∧ (i = id ∨ (t.state i).key ≠ (t.state id).key) := by
  simp [remaining]

/-- Forgetting the finished listeners changes none of those that count. -/
theorem live_openCount : t.openCount.2.live = t.live := by
  simp [openCount, live]

theorem keptLive_openCount : t.openCount.2.keptLive = t.keptLive := by
  unfold keptLive
  rw [live_openCount]
  rfl

theorem fst_openCount : t.openCount.1 = t.live.length := rfl

/-- The listeners with the key of `id`, other than itself. -/
def stale (t : ListenerTable) (id : Nat) : List Nat :=
  t.listeners.filter fun old => (t.state old).key = (t.state id).key && old ≠ id

theorem mem_stale :
    i ∈ t.stale id ↔ i ∈ t.listeners ∧ (t.state i).key = (t.state id).key ∧ i ≠ id := by
  simp [stale]

/-- Once the stale listeners are being closed, the others remain. -/
theorem keptLive_evict_stale : (t.evict (t.stale id)).keptLive = t.remaining id := by
  have hl : (t.evict (t.stale id)).live = t.live := by simp [live, evict_listeners]
  unfold remaining keptLive
  rw [hl, List.filter_filter]
  refine List.filter_congr fun i hi => ?_
  rw [evicted_evict]
  by_cases hst : i ∈ t.stale id
  · obtain ⟨-, hk, hne⟩ := mem_stale.mp hst
    simp [hst, hk, hne]
  · have hor : i = id ∨ (t.state i).key ≠ (t.state id).key := by
      by_contra hno
      simp only [not_or, ne_eq, not_not] at hno
      exact hst (mem_stale.mpr ⟨(mem_live.mp hi).1, hno.2, hno.1⟩)
    simp [hst, hor]

/-- What a `supersede` of a listener that has not finished does: it closes the listeners with its
key and, if more than `maxInboundConns` would remain, one other, a least recently active one. -/
theorem supersede_spec (hn : t.listeners.Nodup) (hr : (t.state id).running = true) :
    ∃ o : Option Nat, (t.supersede id).listeners = t.live ∧
      (∀ i, ((t.supersede id).state i).key = (t.state i).key ∧
        ((t.supersede id).state i).running = (t.state i).running ∧
        ((t.supersede id).state i).lastActiveMs = (t.state i).lastActiveMs) ∧
      (∀ i, ((t.supersede id).state i).evicted = true ↔
        (t.state i).evicted = true ∨ i ∈ t.stale id ∨ o = some i) ∧
      (o = none → (t.remaining id).length ≤ maxInboundConns) ∧
      ∀ v, o = some v → v ≠ id ∧ v ∈ t.remaining id ∧ maxInboundConns < (t.remaining id).length ∧
        ∀ j ∈ t.remaining id, j ≠ id → (t.state v).lastActiveMs ≤ (t.state j).lastActiveMs := by
  -- The table after the stale listeners were marked and the finished ones forgotten.
  let t₁ := (t.evict (t.stale id)).openCount.2
  have hlive : t₁.listeners = t.live := by simp [t₁, openCount, live, evict_listeners]
  have hkept : t₁.listeners.filter (fun i => !(t₁.state i).evicted) = t.remaining id := by
    rw [← keptLive_evict_stale, ← keptLive_openCount, keptLive, live_openCount]
    simp [t₁, openCount, live]
  have hs : t.supersede id =
      if t₁.kept > maxInboundConns then t₁.evictLeastRecentExcept id else t₁ := by
    simp [supersede, hr, t₁, stale]
  have hst : ∀ i, (t₁.state i) = ((t.evict (t.stale id)).state i) := fun _ => rfl
  have hk : t₁.kept = (t.remaining id).length := by rw [kept, hkept]
  rw [hs, hk]
  split
  · rename_i hmany
    have hcand : t₁.listeners.filter (fun i => i ≠ id && !(t₁.state i).evicted) =
        (t.remaining id).filter (· ≠ id) := by
      rw [← hkept, List.filter_filter]
    obtain ⟨v, hv⟩ : ∃ v, ((t.remaining id).filter (· ≠ id)).argmin
        (fun i => (t₁.state i).lastActiveMs) = some v := by
      rw [← Option.ne_none_iff_exists', ne_eq, List.argmin_eq_none]
      intro hnil
      -- Only `id` itself would remain.
      have hnd : (t.remaining id).Nodup := ((hn.filter _).filter _).filter _
      have hsub : (t.remaining id) ⊆ [id] := fun i hi => by
        by_contra hne
        have hi' : i ∈ (t.remaining id).filter (· ≠ id) := by simpa [hi] using hne
        rw [hnil] at hi'
        cases hi'
      have hle := (List.subperm_of_subset hnd hsub).length_le
      simp [maxInboundConns, rxConnTableSize] at hmany hle
      omega
    have hmem := List.mem_filter.mp (List.argmin_mem hv)
    have hev : t₁.evictLeastRecentExcept id = t₁.evict [v] := by
      simp only [evictLeastRecentExcept, hcand, hv, Option.toList_some]
    rw [hev]
    refine ⟨some v, hlive, fun i => by simp [hst], fun i => ?_, by simp, fun u hu => ?_⟩
    · rw [evicted_evict, hst]
      simp only [List.mem_singleton, Bool.or_eq_true, decide_eq_true_eq, Option.some.injEq,
        evicted_evict]
      rw [eq_comm (a := v)]
      tauto
    · obtain rfl : v = u := by simpa using hu
      refine ⟨by simpa using hmem.2, hmem.1, hmany, fun j hj hne => ?_⟩
      have hj' : j ∈ (t.remaining id).filter (· ≠ id) := by simpa [hj] using hne
      simpa [hst] using List.le_of_mem_argmin hj' hv
  · rename_i hfew
    refine ⟨none, hlive, fun i => by simp [hst], fun i => ?_, fun _ => by omega, by simp⟩
    rw [hst, evicted_evict]
    simp [or_comm]

end ListenerTable

end Inbound

end Cspcl
