import Cspcl.Pool.Owner

/-!
# Runs of the connection pool

`poolSys`: any sequence of calls of `cspcl_conn_pool_init`, `cspcl_send_bundle`,
`cspcl_conn_pool_add` and `cspcl_conn_pool_cleanup` on one pool, with any outcome of the calls to
libcsp, and the list of these calls. `PoolInv` is its invariant: the table owns the live
connections (`Owns`), and a pool that is not initialized owns none.
-/

namespace Cspcl

open Ledger ConnPool

/-- A pool and the calls that were made to libcsp for it. -/
structure PoolRun where
  pool : ConnPool
  trace : List Call

/-- A call of the pool's API and what its calls to libcsp return. -/
inductive PoolOp where
  | init (mutex : Bool) (maxAgeEnv : Option CString)
  | send (initialized : Bool) (bundle : Bundle) (addr port : UInt8) (lock : Bool)
      (first retry : SendEnv)
  | add (addr port : UInt8) (c : Conn) (lock : Bool) (now : Int)
  | cleanup (lock : Bool)

/-- The connections that came into the pool. -/
def PoolRun.opened (s : PoolRun) : List Conn := incoming (acts s.trace)

/-- The connections that `csp_connect` gives to the two attempts did not exist before. -/
def PoolRun.Fresh (s : PoolRun) (first retry : SendEnv) : Prop :=
  (∀ c ∈ first.connect, c ∉ s.opened) ∧
    ∀ c ∈ retry.connect, c ∉ s.opened ∧ first.connect ≠ some c

instance (s : PoolRun) (first retry : SendEnv) : Decidable (s.Fresh first retry) :=
  inferInstanceAs (Decidable (_ ∧ _))

/-- A call in state `s`: `init` is called for a pool that is not initialized, and `add` for a
connection that the pool does not know. -/
def poolStep (s : PoolRun) : PoolOp → Option PoolRun
  | .init mutex maxAgeEnv =>
    if s.pool.initialized then none else some ⟨(ConnPool.init mutex maxAgeEnv).1, s.trace⟩
  | .send initialized bundle addr port lock first retry =>
    if s.Fresh first retry then
      let (pool, _, calls) := sendBundle initialized s.pool bundle addr port lock first retry
      some ⟨pool, s.trace ++ calls⟩
    else none
  | .add addr port c lock now =>
    if c ∈ s.opened then none
    else
      let (pool, _, calls) := s.pool.add addr port c lock now
      some ⟨pool, s.trace ++ calls⟩
  | .cleanup lock =>
    let (pool, calls) := s.pool.cleanup lock
    some ⟨pool, s.trace ++ calls⟩

/-- All runs of a pool, from one that was never initialized. -/
def poolSys : Lts PoolRun PoolOp where
  init s := s = ⟨ConnPool.zero, []⟩
  step := poolStep

variable {s s' : PoolRun} {op : PoolOp}

/-- The table owns the live connections; a pool that is not initialized owns none. -/
structure PoolInv (s : PoolRun) : Prop where
  owns : s.pool.Owns (acts s.trace)
  idle : s.pool.initialized = false → ∀ i, (s.pool.entries i).conn = none

/-- What one call does: the pool's invariant is kept. -/
theorem PoolInv.step (h : PoolInv s) (hs : poolStep s op = some s') : PoolInv s' := by
  obtain ⟨p, t⟩ := s
  obtain ⟨hown, hidle⟩ := h
  cases op with
  | init mutex maxAgeEnv =>
    simp only [poolStep] at hs
    split at hs
    · cases hs
    · rename_i hi
      cases hs
      -- No connection is live: the cleared table has them all.
      have hlive : ∀ c, c ∉ live (acts t) := fun c hc => by
        obtain ⟨i, hi'⟩ := (hown.live c).mp hc
        rw [hidle (by simpa using hi) i] at hi'
        cases hi'
      unfold ConnPool.init
      split <;> exact ⟨⟨by simp [zero], by simp [zero], hown.ok, by simp [zero, hlive]⟩,
        fun _ _ => rfl⟩
  | send initialized bundle addr port lock first retry =>
    simp only [poolStep] at hs
    split at hs
    · rename_i hf
      cases hs
      refine ⟨?_, fun hi => ?_⟩
      · simpa using hown.sendBundle initialized bundle addr port lock hf.1 hf.2
      · have hi' := initialized_sendBundle.symm.trans hi
        simpa [sendBundle_of_not_initialized hi'] using hidle hi'
    · cases hs
  | add addr port c lock now =>
    simp only [poolStep] at hs
    split at hs
    · cases hs
    · rename_i hc
      cases hs
      refine ⟨by simpa using hown.add hc, fun hi => ?_⟩
      unfold ConnPool.add at hi ⊢
      split
      · exact hidle (by simp_all)
      split
      · exact hidle (by simp_all)
      · simp_all
  | cleanup lock =>
    simp only [poolStep, Option.some.injEq] at hs
    subst hs
    refine ⟨by simpa using hown.cleanup, fun hi => ?_⟩
    unfold ConnPool.cleanup at hi ⊢
    split
    · exact hidle (by simp_all)
    · exact fun _ => rfl

theorem poolInv_inductive : poolSys.Inductive PoolInv where
  init := by
    rintro s rfl
    exact ⟨⟨by simp [zero], by simp [zero], ok_nil, by simp [zero, live]⟩, fun _ _ => rfl⟩
  step _ _ _ h hs := h.step hs

/-- A cleanup (that got the mutex) closes every connection of the pool. -/
theorem cleanup_closes_all (h : PoolInv s) (hs : poolStep s (.cleanup true) = some s') {c : Conn}
    (hc : c ∈ s'.opened) : (acts s'.trace).count (.release c) = 1 := by
  have h' := h.step hs
  have hno : s'.pool.initialized = false := by
    simp only [poolStep, Option.some.injEq] at hs
    subst hs
    unfold ConnPool.cleanup
    split <;> simp_all
  rcases h'.owns.ok.live_or_released hc with ⟨hl, -⟩ | ⟨-, h1⟩
  · obtain ⟨i, hi⟩ := (h'.owns.live c).mp hl
    rw [h'.idle hno i] at hi
    cases hi
  · exact h1

/-- A connection that came into the pool is in exactly one entry and open, or in none and was
closed exactly once. -/
theorem PoolInv.entry_or_closed (h : PoolInv s) {c : Conn} (hc : c ∈ s.opened) :
    ((∃! i, (s.pool.entries i).conn = some c) ∧ (acts s.trace).count (.release c) = 0) ∨
      ((∀ i, (s.pool.entries i).conn ≠ some c) ∧ (acts s.trace).count (.release c) = 1) := by
  rcases h.owns.ok.live_or_released hc with ⟨hl, h0⟩ | ⟨hl, h1⟩
  · obtain ⟨i, hi⟩ := (h.owns.live c).mp hl
    exact .inl ⟨⟨i, hi, fun j hj => h.owns.inj j i c hj hi⟩, h0⟩
  · exact .inr ⟨fun i hi => hl ((h.owns.live c).mpr ⟨i, hi⟩), h1⟩

/-- What the pool owes for its connections, between calls. -/
structure PoolOwned (s : PoolRun) : Prop where
  used_iff : ∀ i, (s.pool.entries i).used = true ↔ (s.pool.entries i).conn ≠ none
  one_entry : ∀ i j c, (s.pool.entries i).conn = some c → (s.pool.entries j).conn = some c → i = j
  /-- A connection that came in is open and in exactly one entry, or closed once and in none. -/
  entry_or_closed : ∀ c ∈ s.opened,
    ((∃! i, (s.pool.entries i).conn = some c) ∧ (acts s.trace).count (.release c) = 0) ∨
    ((∀ i, (s.pool.entries i).conn ≠ some c) ∧ (acts s.trace).count (.release c) = 1)
  /-- `csp_sfp_send` and `csp_read` are done on open connections only. -/
  use_open : ∀ pre post c, acts s.trace = pre ++ .use c :: post → c ∈ live pre
  /-- `csp_connect` is called only while fewer connections are open than the table has slots. -/
  connect_below : ∀ pre post a, acts s.trace = pre ++ a :: post → a.request = true →
    (live pre).length < connPoolSize
  /-- A cleanup (that gets the mutex) leaves every connection closed, once. -/
  cleanup_closes : ∀ s', poolStep s (.cleanup true) = some s' → ∀ c ∈ s'.opened,
    (acts s'.trace).count (.release c) = 1

/-- In every run of the pool, its connections are accounted for in every state between calls. -/
theorem pool_ownership (hs : poolSys.Reach s) : PoolOwned s := by
  have h := poolInv_inductive.reach hs
  exact ⟨h.owns.used_iff, h.owns.inj, fun c hc => h.entry_or_closed hc,
    fun pre post c ht => (ht ▸ h.owns.ok).use_live,
    fun pre post a ht ha => (ht ▸ h.owns.ok).request_lt ha,
    fun s' hst c hc => cleanup_closes_all h hst hc⟩

/-- An attempt that is not acked, and the retry on a new connection, which is. -/
def retryRun : List PoolOp :=
  [.init true none,
    .send true [1, 2] 5 10 true ⟨⟨0, 0, some 0⟩, 0, false⟩ ⟨⟨0, 0, some 1⟩, 0, true⟩]

theorem pool_ownership_retry :
    ∃ s, poolSys.exec ⟨ConnPool.zero, []⟩ retryRun = some s ∧ s.opened = [0, 1] ∧ PoolOwned s := by
  obtain ⟨s, hs⟩ : ∃ s, poolSys.exec ⟨ConnPool.zero, []⟩ retryRun = some s := ⟨_, rfl⟩
  refine ⟨s, hs, ?_, pool_ownership (.of_exec rfl hs)⟩
  have ho : (poolSys.exec ⟨ConnPool.zero, []⟩ retryRun).map PoolRun.opened = some [0, 1] := by
    decide
  simpa [hs] using ho

end Cspcl
