import Mathlib.Data.Finset.Card
import Cspcl.Pool.Outcome

/-!
# The statistics of the pool

`statsSys` is any sequence of calls of `cspcl_send_bundle` and `cspcl_conn_pool_add` after
`cspcl_conn_pool_init`, with the number of additions and of connection requests.

* `Counts p p' added requested`: from `p` to `p'`, the counters moved as `added` additions and
  `requested` requests move them.
* `counts_getOrCreateLocked`, `counts_sendBundle`: each function counts what it does, when an entry
  was dropped and the connect failed too.
* `stats_reconcile`: the number of entries and of requests follow from the counters, modulo `2^32`.
-/

namespace Cspcl

namespace ConnPool

/-- The number of used entries. -/
def usedCount (p : ConnPool) : Nat := (Finset.univ.filter fun i => (p.entries i).used = true).card

/-- The entries, and those that were removed, less those that a lookup made. -/
def addsCounted (p : ConnPool) : UInt32 :=
  .ofNat p.usedCount + p.stats.evictions + p.stats.invalidations - p.stats.misses

/-- The requests that were counted. -/
def requestsCounted (p : ConnPool) : UInt32 :=
  p.stats.hits + p.stats.misses + p.stats.connectFailures

/-- From `p` to `p'`, so many additions and requests are counted. -/
structure Counts (p p' : ConnPool) (added requested : UInt32) : Prop where
  adds : p'.addsCounted = p.addsCounted + added
  requests : p'.requestsCounted = p.requestsCounted + requested

variable {p p' p'' : ConnPool} {i : Fin connPoolSize} {addr port : UInt8} {c : Conn} {now : Int}
  {a a' r r' : UInt32}

theorem Counts.trans (h : Counts p p' a r) (h' : Counts p' p'' a' r') :
    Counts p p'' (a + a') (r + r') :=
  ⟨by rw [h'.adds, h.adds, UInt32.add_assoc], by rw [h'.requests, h.requests, UInt32.add_assoc]⟩

/-! ## The updates -/

theorem usedCount_clear (h : (p.entries i).used = true) :
    (p.clear i).usedCount + 1 = p.usedCount := by
  have he : (Finset.univ.filter fun j => ((p.clear i).entries j).used = true) =
      (Finset.univ.filter fun j => (p.entries j).used = true).erase i := by
    ext j
    simp only [Finset.mem_filter_univ, Finset.mem_erase, entries_clear]
    split
    · simp [*]
    · simp [*]
  rw [usedCount, he]
  exact Finset.card_erase_add_one (Finset.mem_filter_univ i |>.mpr h)

theorem usedCount_store (h : (p.entries i).used = false) :
    (p.store i addr port c now).usedCount = p.usedCount + 1 := by
  have he : (Finset.univ.filter fun j => ((p.store i addr port c now).entries j).used = true) =
      insert i (Finset.univ.filter fun j => (p.entries j).used = true) := by
    ext j
    simp only [Finset.mem_filter_univ, Finset.mem_insert, entries_store]
    split
    · simp [*]
    · simp [*]
  rw [usedCount, he]
  refine Finset.card_insert_of_notMem fun hi => ?_
  rw [(Finset.mem_filter_univ i).mp hi] at h
  cases h

theorem usedCount_touch : (p.touch i).usedCount = p.usedCount := by
  unfold usedCount
  congr 2
  funext j
  rw [entries_touch]
  split
  · subst_vars
    rfl
  · rfl

theorem usedCount_congr (h : p'.entries = p.entries) : p'.usedCount = p.usedCount := by
  unfold usedCount
  rw [h]

theorem counts_bump : Counts p p.bump 0 0 :=
  ⟨(UInt32.add_zero _).symm, (UInt32.add_zero _).symm⟩

theorem counts_touch : Counts p (p.touch i) 0 1 where
  adds := by
    unfold addsCounted
    rw [usedCount_touch, UInt32.add_zero]
    rfl
  requests := by
    simp only [requestsCounted, touch]
    grind

/-- A dropped entry is counted, as invalidated or as evicted. -/
theorem counts_clear_countInvalidation (h : (p.entries i).used = true) :
    Counts p (p.clear i).countInvalidation 0 0 where
  adds := by
    unfold addsCounted
    rw [usedCount_congr entries_countInvalidation, ← usedCount_clear h, UInt32.ofNat_add]
    simp only [countInvalidation, clear]
    grind
  requests := (UInt32.add_zero _).symm

theorem counts_clear_countEviction (h : (p.entries i).used = true) :
    Counts p (p.clear i).countEviction 0 0 where
  adds := by
    unfold addsCounted
    rw [usedCount_congr entries_countEviction, ← usedCount_clear h, UInt32.ofNat_add]
    simp only [countEviction, clear]
    grind
  requests := (UInt32.add_zero _).symm

theorem counts_store (h : (p.entries i).used = false) :
    Counts p (p.store i addr port c now) 1 0 where
  adds := by
    unfold addsCounted
    rw [usedCount_store h, UInt32.ofNat_add]
    simp only [store]
    grind
  requests := (UInt32.add_zero _).symm

/-- A connect is a request, whether it fails or not; the new entry is a miss and no addition. -/
theorem counts_connectInto (h : (p.entries i).used = false) (env : GetEnv) :
    Counts p (p.connectInto i addr port env).1 0 1 := by
  cases hc : env.connect with
  | none =>
    constructor
    · unfold addsCounted
      rw [usedCount_congr (connectInto_none p i addr port hc).1, UInt32.add_zero]
      simp only [connectInto, hc]
    · simp only [requestsCounted, connectInto, hc]
      grind
  | some c =>
    constructor
    · unfold addsCounted
      rw [usedCount_congr (connectInto_some p i addr port hc).1, usedCount_store h,
        UInt32.ofNat_add]
      simp only [connectInto, hc, store]
      grind
    · simp only [requestsCounted, connectInto, hc, store]
      grind

/-! ## The functions -/

theorem counts_findFreeOrEvictLocked : Counts p p.findFreeOrEvictLocked.1 0 0 ∧
    (p.findFreeOrEvictLocked.1.entries p.findFreeOrEvictLocked.2.1).used = false := by
  rcases findFreeOrEvictLocked_cases (p := p) with ⟨i, hi, hq⟩ | ⟨hi, hq⟩ <;> rw [hq]
  · exact ⟨⟨(UInt32.add_zero _).symm, (UInt32.add_zero _).symm⟩, (firstFree_eq_some.mp hi).1⟩
  · exact ⟨counts_clear_countEviction (firstFree_eq_none.mp hi _),
      by simp [evictLru, entries_clear]⟩

/-- A lookup is one request. -/
theorem counts_getOrCreateLocked (hu : p.UsedConn) (addr port : UInt8) (env : GetEnv) :
    Counts p (p.getOrCreateLocked addr port env).1 0 1 := by
  rcases getOrCreateLocked_cases addr port hu env with
    ⟨i, d, -, -, -, hg⟩ | ⟨i, d, f, r, hf, -, -, hff, rfl, hg⟩ | ⟨q, r, -, rfl, rfl, hg⟩ <;> rw [hg]
  · exact counts_bump.trans counts_touch
  · have hused : (p.bump.entries i).used = true := (findDest_eq_some.mp hf).1.1
    have hfree : ((p.bump.clear i).countInvalidation.entries f).used = false :=
      (firstFree_eq_some.mp hff).1
    exact (counts_bump.trans (counts_clear_countInvalidation hused)).trans
      (counts_connectInto hfree env)
  · obtain ⟨hc, hfree⟩ := counts_findFreeOrEvictLocked (p := p.bump)
    exact (counts_bump.trans hc).trans (counts_connectInto hfree env)

/-- An addition that succeeds is one. -/
theorem counts_add (lock : Bool) : Counts p (p.add addr port c lock now).1
    (if (p.add addr port c lock now).2.1 = .ok then 1 else 0) 0 := by
  have hrefl : Counts p p 0 0 := ⟨(UInt32.add_zero _).symm, (UInt32.add_zero _).symm⟩
  unfold add
  split
  · exact hrefl
  split
  · exact hrefl
  · obtain ⟨hc, hfree⟩ := counts_findFreeOrEvictLocked (p := p.bump)
    exact (counts_bump.trans hc).trans (counts_store hfree)

theorem usedConn_add (hu : p.UsedConn) (lock : Bool) : (p.add addr port c lock now).1.UsedConn := by
  unfold add
  split
  · exact hu
  split
  · exact hu
  intro j hj
  dsimp only at hj ⊢
  rw [entries_store] at hj ⊢
  split at hj
  · rw [if_pos ‹_›]
    nofun
  · rw [if_neg ‹_›]
    rcases findFreeOrEvictLocked_cases (p := p.bump) with ⟨i, -, hq⟩ | ⟨-, hq⟩ <;> rw [hq] at hj ⊢
    · exact hu j hj
    · exact UsedConn.clear (p := p.bump) hu j hj

end ConnPool

open ConnPool

variable {p : ConnPool} {bundle : Bundle} {addr port : UInt8} {first retry : SendEnv}

/-- The checks of `cspcl_send_bundle` pass, and it has the mutex. -/
def sendAccepted (initialized : Bool) (p : ConnPool) (bundle : Bundle) (lock : Bool) : Prop :=
  bundle.length ≠ 0 ∧ bundle.length ≤ maxBundleSize ∧ p.initialized = true ∧ initialized = true ∧
    lock = true

instance (initialized : Bool) (p : ConnPool) (bundle : Bundle) (lock : Bool) :
    Decidable (sendAccepted initialized p bundle lock) :=
  inferInstanceAs (Decidable (_ ∧ _ ∧ _ ∧ _ ∧ _))

/-- The requests for a connection that `cspcl_send_bundle` makes: one in each pass of its loop. The
second pass is made when the first had a connection and failed. -/
def sendRequests (initialized : Bool) (p : ConnPool) (bundle : Bundle) (addr port : UInt8)
    (lock : Bool) (first : SendEnv) : Nat :=
  if sendAccepted initialized p bundle lock then
    match (sendAttempt p bundle addr port first).2.1 with
    | none => 1
    | some ret => if ret = cspErrNone then 1 else 2
  else 0

theorem counts_sendAttempt (hu : p.UsedConn) (bundle : Bundle) (addr port : UInt8)
    (env : SendEnv) : (sendAttempt p bundle addr port env).1.UsedConn ∧
      Counts p (sendAttempt p bundle addr port env).1 0 1 := by
  have hq := usedConn_getOrCreateLocked hu addr port env.toGetEnv
  have hc := counts_getOrCreateLocked hu addr port env.toGetEnv
  rcases hg : p.getOrCreateLocked addr port env.toGetEnv with ⟨q, r, calls⟩
  rw [hg] at hq hc
  rcases sendAttempt_cases hu bundle hg with
    ⟨-, ha⟩ | ⟨c, -, ha⟩ | ⟨c, i, ret, io, -, hd, -, -, -, -, -, ha⟩ <;> rw [ha]
  · exact ⟨hq, hc⟩
  · exact ⟨hq, hc⟩
  · exact ⟨hq.clear, hc.trans (counts_clear_countInvalidation hd.1)⟩

/-- A send counts its requests. -/
theorem counts_sendBundle (hu : p.UsedConn) (initialized : Bool) (bundle : Bundle)
    (addr port : UInt8) (lock : Bool) (first retry : SendEnv) :
    (sendBundle initialized p bundle addr port lock first retry).1.UsedConn ∧
      Counts p (sendBundle initialized p bundle addr port lock first retry).1 0
        (.ofNat (sendRequests initialized p bundle addr port lock first)) := by
  by_cases h : sendAccepted initialized p bundle lock
  · rw [sendRequests, if_pos h]
    obtain ⟨hb, hm, hi, rfl, rfl⟩ := h
    rw [sendBundle_eq hb hm hi]
    obtain ⟨hu₁, hc₁⟩ := counts_sendAttempt hu bundle addr port first
    generalize sendAttempt p bundle addr port first = r₁ at hu₁ hc₁
    obtain ⟨p₁, _ | ret, calls₁⟩ := r₁
    · exact ⟨hu₁, hc₁⟩
    dsimp only at hu₁ hc₁ ⊢
    by_cases hret : ret = cspErrNone
    · simp only [if_pos hret]
      exact ⟨hu₁, hc₁⟩
    · simp only [if_neg hret]
      obtain ⟨hu₂, hc₂⟩ := counts_sendAttempt hu₁ bundle addr port retry
      generalize sendAttempt p₁ bundle addr port retry = r₂ at hu₂ hc₂
      obtain ⟨p₂, _ | ret', calls₂⟩ := r₂
      · exact ⟨hu₂, hc₁.trans hc₂⟩
      · exact ⟨hu₂, hc₁.trans hc₂⟩
  · rw [sendRequests, if_neg h]
    rcases sendBundle_refused initialized p bundle addr port lock first retry with ⟨he, -⟩ | h'
    · rw [he]
      exact ⟨hu, (UInt32.add_zero _).symm, (UInt32.add_zero _).symm⟩
    · exact absurd h' h

/-! ## Runs -/

/-- A pool, with the number of connections that were added to it and of connection requests. -/
structure StatsRun where
  pool : ConnPool
  adds : Nat
  requests : Nat

/-- A call of the API, with what its calls return. -/
inductive StatsOp where
  | send (initialized : Bool) (bundle : Bundle) (addr port : UInt8) (lock : Bool)
      (first retry : SendEnv)
  | add (addr port : UInt8) (c : Conn) (lock : Bool) (now : Int)

/-- Any sequence of sends and additions, after `cspcl_conn_pool_init`. -/
def statsSys : Lts StatsRun StatsOp where
  init s := ∃ maxAgeEnv, s = ⟨(ConnPool.init true maxAgeEnv).1, 0, 0⟩
  step
    | s, .send initialized bundle addr port lock first retry =>
      some ⟨(sendBundle initialized s.pool bundle addr port lock first retry).1, s.adds,
        s.requests + sendRequests initialized s.pool bundle addr port lock first⟩
    | s, .add addr port c lock now =>
      let r := s.pool.add addr port c lock now
      some ⟨r.1, if r.2.1 = .ok then s.adds + 1 else s.adds, s.requests⟩

/-- The counters account for the additions and the requests. -/
structure StatsInv (s : StatsRun) : Prop where
  usedConn : s.pool.UsedConn
  adds : s.pool.addsCounted = .ofNat s.adds
  requests : s.pool.requestsCounted = .ofNat s.requests

theorem statsInv_inductive : statsSys.Inductive StatsInv where
  init := by
    rintro s ⟨maxAgeEnv, rfl⟩
    refine ⟨nofun, ?_, rfl⟩
    simp [addsCounted, usedCount, ConnPool.init, zero]
  step s op s' h hs := by
    cases op with
    | send initialized bundle addr port lock first retry =>
      obtain rfl := Option.some.inj hs
      obtain ⟨hu, hadds, hrequests⟩ :=
        counts_sendBundle h.usedConn initialized bundle addr port lock first retry
      refine ⟨hu, ?_, ?_⟩
      · rw [hadds, h.adds, UInt32.add_zero]
      · rw [hrequests, h.requests, UInt32.ofNat_add]
    | add addr port c lock now =>
      obtain rfl := Option.some.inj hs
      obtain ⟨hadds, hrequests⟩ : Counts s.pool (s.pool.add addr port c lock now).1 _ 0 :=
        counts_add lock
      refine ⟨usedConn_add h.usedConn lock, ?_, ?_⟩
      · dsimp only
        rw [hadds, h.adds]
        split
        · rw [UInt32.ofNat_add]
          rfl
        · rw [UInt32.add_zero]
      · rw [hrequests, h.requests, UInt32.add_zero]

/-- The entries are the misses and the additions, less what was removed; the requests are those that
were counted. -/
theorem stats_reconcile {s : StatsRun} (h : statsSys.Reach s) :
    UInt32.ofNat s.pool.usedCount = s.pool.stats.misses + .ofNat s.adds - s.pool.stats.evictions -
        s.pool.stats.invalidations ∧
      UInt32.ofNat s.requests = s.pool.stats.hits + s.pool.stats.misses +
        s.pool.stats.connectFailures := by
  obtain ⟨-, hadds, hrequests⟩ := statsInv_inductive.reach h
  refine ⟨?_, hrequests.symm⟩
  rw [← hadds, addsCounted]
  grind

/-- An addition to node 2, then a send that fails and whose retry gets no connection. -/
def failedRetryRun : List StatsOp :=
  [.add 2 10 1 true 0, .send true [1] 2 10 true ⟨⟨0, 0, none⟩, -1, false⟩ ⟨⟨0, 0, none⟩, 0, true⟩]

theorem stats_reconcile_failedRetry :
    ∃ s, statsSys.exec ⟨(ConnPool.init true none).1, 0, 0⟩ failedRetryRun = some s ∧
      s.adds = 1 ∧ s.requests = 2 ∧ s.pool.stats = ⟨1, 0, 0, 1, 1⟩ ∧
      UInt32.ofNat s.pool.usedCount = s.pool.stats.misses + .ofNat s.adds - s.pool.stats.evictions -
        s.pool.stats.invalidations ∧
      UInt32.ofNat s.requests = s.pool.stats.hits + s.pool.stats.misses +
        s.pool.stats.connectFailures :=
  ⟨_, rfl, rfl, by decide, by decide,
    stats_reconcile (.of_exec (l := failedRetryRun) ⟨none, rfl⟩ rfl)⟩

end Cspcl
