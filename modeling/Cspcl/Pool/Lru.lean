import Cspcl.Lib.Recency
import Cspcl.Pool.Outcome

/-!
# Which entry the pool evicts

`lruSys`: any run of the pool's functions, with the history of the connections that were used:
returned by `cspcl_pool_get_or_create_locked` (a cache hit or a new connection) or stored by
`cspcl_conn_pool_add`. While the tick does not wrap (`NoWrap`), the ticks in the table order its
connections as the history does (`PoolStamped`), so both copies of the eviction close the one that
was not used for the longest time (`evictsOldest`). The tick is a `uint32_t`: after it wrapped, the
eviction takes the connection that was used last (`evicts_newest_after_wrap`).

`poolRun_lru`: the calls of the API are runs of these functions.
-/

namespace Cspcl

open ConnPool Recency

/-- A pool, and the connections that were used, the last one first. -/
structure LruRun where
  pool : ConnPool
  history : List Conn

/-- A function of the pool, with what its calls return. -/
inductive LruOp where
  | init (mutex : Bool) (maxAgeEnv : Option CString)
  | get (addr port : UInt8) (env : GetEnv)
  | invalidate (addr port : UInt8)
  | add (addr port : UInt8) (c : Conn) (lock : Bool) (now : Int)
  | cleanup (lock : Bool)

/-- One function in state `s`. `get` and `invalidate` are called on an initialized pool, and a
connection that `csp_connect` gives or that is added was not used before. -/
def lruStep (s : LruRun) : LruOp → Option LruRun
  | .init mutex maxAgeEnv =>
    if s.pool.initialized then none else some ⟨(ConnPool.init mutex maxAgeEnv).1, s.history⟩
  | .get addr port env =>
    if s.pool.initialized = true ∧ ∀ c ∈ env.connect, c ∉ s.history then
      let r := s.pool.getOrCreateLocked addr port env
      some ⟨r.1, r.2.1.toList ++ s.history⟩
    else none
  | .invalidate addr port =>
    if s.pool.initialized then some ⟨(s.pool.invalidateLocked addr port).1, s.history⟩ else none
  | .add addr port c lock now =>
    if c ∈ s.history then none
    else
      let r := s.pool.add addr port c lock now
      some ⟨r.1, if r.2.1 = .ok then c :: s.history else s.history⟩
  | .cleanup lock => some ⟨(s.pool.cleanup lock).1, s.history⟩

def lruSys : Lts LruRun LruOp where
  init s := s = ⟨ConnPool.zero, []⟩
  step := lruStep

/-- The tick is not at its limit when the function increments it. -/
def NoWrap (s : LruRun) : LruOp → Prop
  | .get .. => s.pool.tick ≠ 4294967295
  | .add _ _ _ lock _ => s.pool.initialized = true → lock = true → s.pool.tick ≠ 4294967295
  | _ => True

instance : ∀ s op, Decidable (NoWrap s op)
  | _, .get .. => inferInstanceAs (Decidable (_ ≠ _))
  | _, .add .. => inferInstanceAs (Decidable (_ → _ → _))
  | _, .init .. | _, .invalidate .. | _, .cleanup .. => inferInstanceAs (Decidable True)

namespace ConnPool

variable {p : ConnPool} {i : Fin connPoolSize} {addr port : UInt8} {c : Conn} {now : Int}
  {tick : Nat} {hist : List Conn}

/-- The connections of the table, with the ticks of their last use. -/
def slots (p : ConnPool) : Slots (Fin connPoolSize) Conn :=
  fun i => (p.entries i).conn.map fun c => (c, (p.entries i).lastUsed.toNat)

theorem slots_eq_some {a : Nat} :
    p.slots i = some (c, a) ↔ (p.entries i).conn = some c ∧ (p.entries i).lastUsed.toNat = a := by
  unfold slots
  rw [Option.map_eq_some_iff]
  constructor
  · rintro ⟨d, hd, he⟩
    obtain ⟨rfl, rfl⟩ := Prod.mk.inj he
    exact ⟨hd, rfl⟩
  · rintro ⟨hc, rfl⟩
    exact ⟨c, hc, rfl⟩

theorem slots_clear : (p.clear i).slots = Function.update p.slots i none := by
  funext j
  unfold slots
  rw [entries_clear, Function.update_apply]
  split <;> rfl

theorem slots_store :
    (p.store i addr port c now).slots = Function.update p.slots i (some (c, p.tick.toNat)) := by
  funext j
  unfold slots
  rw [entries_store, Function.update_apply]
  split <;> rfl

theorem slots_touch (hc : (p.entries i).conn = some c) :
    (p.touch i).slots = Function.update p.slots i (some (c, p.tick.toNat)) := by
  funext j
  unfold slots
  rw [entries_touch, Function.update_apply]
  split
  · simp [hc]
  · rfl

theorem slots_congr {q : ConnPool} (h : q.entries = p.entries) : q.slots = p.slots := by
  unfold slots
  rw [h]

theorem tick_bump (h : p.tick ≠ 4294967295) : p.bump.tick.toNat = p.tick.toNat + 1 := by
  have hlt := p.tick.toNat_lt
  have hne : p.tick.toNat ≠ 4294967295 := fun e => h (UInt32.toNat_inj.mp e)
  show (p.tick + 1).toNat = _
  rw [UInt32.toNat_add]
  show (p.tick.toNat + 1) % _ = _
  omega

theorem tick_connectInto {env : GetEnv} :
    (p.connectInto i addr port env).1.tick = p.tick := by
  unfold connectInto
  split <;> rfl

/-- A connect under a counter that was increased, for a connection not used before. -/
theorem stamped_connectInto {env : GetEnv} (h : Stamped p.slots tick hist)
    (hlt : tick < p.tick.toNat) (hnew : ∀ c ∈ env.connect, c ∉ hist) :
    Stamped (p.connectInto i addr port env).1.slots
      (p.connectInto i addr port env).1.tick.toNat
      ((p.connectInto i addr port env).2.1.toList ++ hist) := by
  rw [tick_connectInto]
  cases hc : env.connect with
  | none =>
    obtain ⟨he, hr⟩ := connectInto_none p i addr port hc
    rw [hr, slots_congr he]
    exact h.mono hlt.le
  | some c =>
    obtain ⟨he, hr⟩ := connectInto_some p i addr port hc
    rw [hr, slots_congr he, slots_store]
    refine h.use hlt fun j a hj => ?_
    exact absurd (h.seen j c a hj) (hnew c hc)

theorem stamped_clear (h : Stamped p.slots tick hist) (i : Fin connPoolSize) :
    Stamped (p.clear i).slots tick hist := by
  rw [slots_clear]
  exact h.remove i

end ConnPool

/-- The ticks of the table order its connections as the history does. -/
structure PoolStamped (s : LruRun) : Prop where
  usedConn : s.pool.UsedConn
  stamped : Stamped s.pool.slots s.pool.tick.toNat s.history

variable {p : ConnPool} {addr port : UInt8} {c : Conn} {s s' : LruRun} {op : LruOp}
  {hist : List Conn}

theorem PoolStamped.get (h : PoolStamped s) (htick : s.pool.tick ≠ 4294967295) (addr port : UInt8)
    (env : GetEnv) (hnew : ∀ c ∈ env.connect, c ∉ s.history) :
    PoolStamped ⟨(s.pool.getOrCreateLocked addr port env).1,
      (s.pool.getOrCreateLocked addr port env).2.1.toList ++ s.history⟩ := by
  obtain ⟨p, hist⟩ := s
  obtain ⟨hu, hst⟩ := h
  simp only at hu hst htick hnew ⊢
  refine ⟨usedConn_getOrCreateLocked hu addr port env, ?_⟩
  have hlt : p.tick.toNat < p.bump.tick.toNat := by
    rw [tick_bump htick]
    exact Nat.lt_succ_self _
  rcases getOrCreateLocked_cases addr port hu env with
    ⟨i, d, -, hd, -, he⟩ | ⟨i, d, f, r, -, hd, -, -, rfl, he⟩ | ⟨q, r, -, rfl, rfl, he⟩ <;>
    simp only [he]
  · -- A hit: the entry gets the new tick, which no other entry has.
    rw [slots_touch (p := p.bump) hd]
    refine hst.use hlt fun j a hj => ?_
    exact hst.inj j i d a _ hj (slots_eq_some.mpr ⟨hd, rfl⟩)
  · exact stamped_connectInto (p := (p.bump.clear i).countInvalidation)
      (stamped_clear (p := p.bump) hst i) hlt hnew
  · rcases findFreeOrEvictLocked_cases (p := p.bump) with ⟨i, -, hq⟩ | ⟨-, hq⟩ <;> rw [hq]
    · exact stamped_connectInto hst hlt hnew
    · exact stamped_connectInto (p := p.bump.evictLru.1)
        (stamped_clear (p := p.bump) hst p.lru) hlt hnew

theorem PoolStamped.add (h : PoolStamped s) (htick : s.pool.tick ≠ 4294967295) (addr port : UInt8)
    (now : Int) (hi : s.pool.initialized = true) (hnew : c ∉ s.history) :
    PoolStamped ⟨(s.pool.add addr port c true now).1, c :: s.history⟩ := by
  obtain ⟨p, hist⟩ := s
  obtain ⟨hu, hst⟩ := h
  simp only at hu hst htick hi hnew ⊢
  have hlt : p.tick.toNat < p.bump.tick.toNat := by
    rw [tick_bump htick]
    exact Nat.lt_succ_self _
  -- The slot taken is unused; the others are as they were.
  obtain ⟨q, slot, hq, htq, hu', hst'⟩ : ∃ (q : ConnPool) (slot : Fin connPoolSize),
      (p.add addr port c true now).1 = q.store slot addr port c now ∧ q.tick = p.bump.tick ∧
      q.UsedConn ∧ Stamped q.slots p.tick.toNat hist := by
    have hadd : (p.add addr port c true now).1 =
        p.bump.findFreeOrEvictLocked.1.store p.bump.findFreeOrEvictLocked.2.1 addr port c now := by
      simp [ConnPool.add, hi]
    rcases findFreeOrEvictLocked_cases (p := p.bump) with ⟨i, hf, hq⟩ | ⟨hf, hq⟩ <;> rw [hq] at hadd
    · exact ⟨p.bump, i, hadd, rfl, hu, hst⟩
    · exact ⟨p.bump.evictLru.1, p.lru, hadd, rfl, UsedConn.clear (p := p.bump) hu,
        stamped_clear (p := p.bump) hst p.lru⟩
  rw [hq]
  constructor
  · intro j hj
    rw [entries_store] at hj ⊢
    split at hj
    · rw [if_pos ‹_›]
      simp
    · rw [if_neg ‹_›]
      exact hu' j hj
  · show Stamped _ q.tick.toNat _
    rw [slots_store, htq]
    refine hst'.use hlt fun j a hj => ?_
    exact absurd (hst'.seen j c a hj) hnew

/-- What one function does to the order, while the tick does not wrap. -/
theorem PoolStamped.step (h : PoolStamped s) (hok : NoWrap s op) (hs : lruStep s op = some s') :
    PoolStamped s' := by
  cases op with
  | init mutex maxAgeEnv =>
    simp only [lruStep] at hs
    split at hs
    · cases hs
    · cases hs
      have hnone : ∀ i,
          ((ConnPool.init mutex maxAgeEnv).1.entries i) = ⟨false, 0, 0, none, 0, 0⟩ := by
        intro i
        unfold ConnPool.init
        split <;> rfl
      refine ⟨fun i hi => ?_, stamped_empty _ _ fun i => ?_⟩
      · rw [hnone i] at hi
        cases hi
      · simp [slots, hnone i]
  | get addr port env =>
    simp only [lruStep] at hs
    split at hs
    · rename_i hc
      cases hs
      exact h.get hok addr port env hc.2
    · cases hs
  | invalidate addr port =>
    simp only [lruStep] at hs
    split at hs
    · cases hs
      unfold invalidateLocked
      split
      · exact ⟨UsedConn.clear h.usedConn, stamped_clear h.stamped _⟩
      · exact h
    · cases hs
  | add addr port c lock now =>
    simp only [lruStep] at hs
    split at hs
    · cases hs
    · rename_i hnew
      cases hs
      by_cases hc : s.pool.initialized = true ∧ lock = true
      · obtain ⟨hi, rfl⟩ := hc
        have hres : (s.pool.add addr port c true now).2.1 = .ok := by simp [ConnPool.add, hi]
        rw [hres, if_pos rfl]
        exact h.add (hok hi rfl) addr port now hi hnew
      · have hadd : (s.pool.add addr port c lock now).1 = s.pool ∧
            (s.pool.add addr port c lock now).2.1 ≠ .ok := by
          unfold ConnPool.add
          split
          · exact ⟨rfl, by simp⟩
          split
          · exact ⟨rfl, by simp⟩
          · simp_all
        rw [hadd.1, if_neg hadd.2]
        exact h
  | cleanup lock =>
    simp only [lruStep, Option.some.injEq] at hs
    subst hs
    unfold ConnPool.cleanup
    split
    · exact h
    · exact ⟨fun i hi => by simp at hi, stamped_empty _ _ fun i => rfl⟩

theorem poolStamped_inductive : (lruSys.guard NoWrap).Inductive PoolStamped where
  init := by
    rintro s rfl
    exact ⟨fun i hi => by simp [ConnPool.zero] at hi, stamped_empty _ _ fun i => rfl⟩
  step s op s' h hs := by
    obtain ⟨hok, hs⟩ := Lts.guard_step.mp hs
    exact h.step hok hs

/-- An eviction in the state `s` closes the connection that was not used for the longest time, and
both functions take its slot. -/
structure EvictsOldest (s : LruRun) : Prop where
  get : ∀ addr port env, s.pool.findDest addr port = none → s.pool.firstFree = none →
    ∃ d, (s.pool.entries s.pool.lru).conn = some d ∧ Oldest s.pool.slots s.history d ∧
      (s.pool.getOrCreateLocked addr port env).2.2 = [.close d, .connect addr port env.connect] ∧
      ((s.pool.getOrCreateLocked addr port env).1.entries s.pool.lru).conn = env.connect
  add : ∀ addr port c now, s.pool.initialized = true → s.pool.firstFree = none →
    ∃ d, (s.pool.entries s.pool.lru).conn = some d ∧ Oldest s.pool.slots s.history d ∧
      (s.pool.add addr port c true now).2.2 = [.close d, .adopt c] ∧
      ((s.pool.add addr port c true now).1.entries s.pool.lru).conn = some c

/-- In a full table the least tick is that of the connection used longest ago. -/
theorem PoolStamped.oldest (h : PoolStamped s) (hf : s.pool.firstFree = none) :
    ∃ d, (s.pool.entries s.pool.lru).conn = some d ∧ Oldest s.pool.slots s.history d := by
  have hall := firstFree_eq_none.mp hf
  obtain ⟨d, hd⟩ := Option.ne_none_iff_exists'.mp (h.usedConn s.pool.lru (hall s.pool.lru))
  refine ⟨d, hd, h.stamped.least (slots_eq_some.mpr ⟨hd, rfl⟩) fun j c b hj => ?_⟩
  rw [← (slots_eq_some.mp hj).2]
  exact Table.leastIdx_le (fun i => (s.pool.entries i).lastUsed.toNat) j

theorem evictsOldest (h : PoolStamped s) : EvictsOldest s := by
  have hclose : ∀ {d}, (s.pool.entries s.pool.lru).conn = some d →
      s.pool.bump.evictLru.2.2 = [.close d] := by
    intro d hd
    show s.pool.closeCalls s.pool.lru = _
    rw [closeCalls, hd]
  have hfind : s.pool.firstFree = none →
      s.pool.bump.findFreeOrEvictLocked = s.pool.bump.evictLru := by
    intro hf
    rcases findFreeOrEvictLocked_cases (p := s.pool.bump) with ⟨i, hi, -⟩ | ⟨-, hq⟩
    · cases hf.symm.trans hi
    · exact hq
  constructor
  · intro addr port env hd hf
    obtain ⟨d, hc, hold⟩ := h.oldest hf
    refine ⟨d, hc, hold, ?_⟩
    rcases getOrCreateLocked_cases addr port h.usedConn env with
      ⟨i, e, hi, -, -, -⟩ | ⟨i, e, f, r, hi, -, -, -, -, -⟩ | ⟨q, r, -, rfl, rfl, he⟩
    · rw [hd] at hi
      cases hi
    · rw [hd] at hi
      cases hi
    · rw [he, hfind hf]
      simp only [hclose hc]
      have hslot : s.pool.bump.evictLru.2.1 = s.pool.lru := rfl
      have hempty : (s.pool.bump.evictLru.1.entries s.pool.lru).conn = none := by
        show ((s.pool.bump.clear s.pool.lru).entries s.pool.lru).conn = none
        rw [entries_clear, if_pos rfl]
      rw [hslot]
      unfold connectInto
      cases env.connect with
      | none => exact ⟨rfl, hempty⟩
      | some e => exact ⟨rfl, by simp [entries_store]⟩
  · intro addr port c now hi hf
    obtain ⟨d, hc, hold⟩ := h.oldest hf
    refine ⟨d, hc, hold, ?_⟩
    have hslot : s.pool.bump.evictLru.2.1 = s.pool.lru := rfl
    simp [ConnPool.add, hi, hfind hf, hclose hc, hslot, entries_store]

/-! ## The calls of the API as runs of these functions -/

open Ledger in
/-- One attempt to send is a lookup and, if it fails, an invalidation. What is new in the history
was in the table or has just been opened. -/
theorem sendAttempt_lru (bundle : Bundle) (addr port : UInt8) {env : SendEnv} (hu : p.UsedConn)
    (hi : p.initialized = true) (hnew : ∀ c ∈ env.connect, c ∉ hist) :
    ∃ l h, lruSys.Run ⟨p, hist⟩ l ⟨(sendAttempt p bundle addr port env).1, h⟩ ∧
      ∀ c ∈ h, c ∈ hist ∨ p.Has c ∨
        c ∈ incoming (acts (sendAttempt p bundle addr port env).2.2) := by
  rcases hg : p.getOrCreateLocked addr port env.toGetEnv with ⟨q, r, calls⟩
  have hget : lruSys.step ⟨p, hist⟩ (.get addr port env.toGetEnv) = some ⟨q, r.toList ++ hist⟩ := by
    simp only [lruSys, lruStep, hg]
    rw [if_pos ⟨hi, hnew⟩]
  have hq : q.initialized = true := by
    have := initialized_getOrCreateLocked p addr port env.toGetEnv
    rw [hg] at this
    exact this.trans hi
  have hsrc : ∀ c ∈ r, p.Has c ∨ c ∈ incoming (acts calls) := by
    intro c hc
    have hcalls := calls_getOrCreateLocked hu addr port env.toGetEnv
    rw [hg] at hcalls
    rcases hcalls with ⟨-, i, d, -, hd, hr⟩ | ⟨closed, rfl, hr⟩
    · obtain rfl : d = c := Option.some.inj (hr.symm.trans hc)
      exact .inl ⟨i, hd⟩
    · right
      obtain hr : env.connect = some c := hr.symm.trans hc
      rw [hr, acts_append, incoming_append]
      exact List.mem_append_right _ (by simp [incoming, Act.incoming, Call.act])
  have hhist : ∀ {l : List Call}, ∀ c ∈ r.toList ++ hist,
      c ∈ hist ∨ p.Has c ∨ c ∈ incoming (acts (calls ++ l)) := by
    intro l c hc
    rcases List.mem_append.mp hc with hc | hc
    · right
      refine (hsrc c (Option.mem_toList.mp hc)).imp_right fun h => ?_
      rw [acts_append, incoming_append]
      exact List.mem_append_left _ h
    · exact .inl hc
  rcases sendAttempt_cases hu bundle hg with
    ⟨-, ha⟩ | ⟨c, -, ha⟩ | ⟨c, i, ret, io, -, -, -, -, -, -, hinv, ha⟩ <;> rw [ha]
  · refine ⟨_, _, .single hget, ?_⟩
    simpa using hhist (l := [])
  · exact ⟨_, _, .single hget, hhist⟩
  · have hdrop : lruSys.step ⟨q, r.toList ++ hist⟩ (.invalidate addr port) =
        some ⟨(q.clear i).countInvalidation, r.toList ++ hist⟩ := by
      simp only [lruSys, lruStep, hq, if_true, hinv]
    refine ⟨_, _, .cons hget (.single hdrop), ?_⟩
    simp only [List.append_assoc]
    exact hhist

open Ledger in
/-- A call of the API is a run of the pool's functions. -/
theorem poolStep_lru {s s' : PoolRun} {op : PoolOp} (hinv : PoolInv s)
    (hh : ∀ c ∈ hist, c ∈ s.opened) (hs : poolStep s op = some s') :
    ∃ l h, lruSys.Run ⟨s.pool, hist⟩ l ⟨s'.pool, h⟩ ∧ ∀ c ∈ h, c ∈ s'.opened := by
  cases op with
  | init mutex maxAgeEnv =>
    simp only [poolStep] at hs
    split at hs
    · cases hs
    · rename_i hi
      cases hs
      refine ⟨[.init mutex maxAgeEnv], hist, .single ?_, hh⟩
      simp only [lruSys, lruStep]
      rw [if_neg hi]
  | add addr port c lock now =>
    simp only [poolStep] at hs
    split at hs
    · cases hs
    · rename_i hnew
      have hopened : s'.opened =
          s.opened ++ incoming (acts (s.pool.add addr port c lock now).2.2) := by
        cases hs
        simp [PoolRun.opened, incoming_append]
      cases hs
      refine ⟨[.add addr port c lock now],
        if (s.pool.add addr port c lock now).2.1 = .ok then c :: hist else hist, .single ?_, ?_⟩
      · simp only [lruSys, lruStep]
        rw [if_neg fun h => hnew (hh c h)]
      · intro d hd
        rw [hopened]
        split at hd
        · rename_i hok
          rcases List.mem_cons.mp hd with rfl | hd
          · refine List.mem_append_right _ ?_
            unfold ConnPool.add at hok ⊢
            split at hok
            · cases hok
            split at hok
            · cases hok
            · simp_all [incoming, Act.incoming, Call.act]
          · exact List.mem_append_left _ (hh d hd)
        · exact List.mem_append_left _ (hh d hd)
  | cleanup lock =>
    simp only [poolStep, Option.some.injEq] at hs
    subst hs
    refine ⟨[.cleanup lock], hist, .single rfl, fun c hc => ?_⟩
    simp only [PoolRun.opened, acts_append, incoming_append]
    exact List.mem_append_left _ (hh c hc)
  | send initialized bundle addr port lock first retry =>
    simp only [poolStep] at hs
    split at hs
    · rename_i hf
      have hs' : s' = ⟨(sendBundle initialized s.pool bundle addr port lock first retry).1,
          s.trace ++ (sendBundle initialized s.pool bundle addr port lock first retry).2.2⟩ :=
        (Option.some.inj hs).symm
      rw [hs']
      clear hs hs'
      simp only [PoolRun.opened, acts_append, incoming_append]
      have hown := hinv.owns
      rcases sendBundle_refused initialized s.pool bundle addr port lock first retry with
        ⟨h, h'⟩ | ⟨hb, hm, hi, rfl, rfl⟩
      · rw [h, h']
        refine ⟨[], hist, .nil _, fun c hc => ?_⟩
        exact List.mem_append_left _ (hh c hc)
      rw [sendBundle_eq hb hm hi]
      -- The first attempt.
      obtain ⟨l₁, h₁, hr₁, hh₁⟩ := sendAttempt_lru bundle addr port
        hown.usedConn hi fun c hc hm => hf.1 c hc (hh c hm)
      have hown₁ := hown.sendAttempt bundle addr port hf.1
      have hinc₁ := fun c => incoming_sendAttempt (c := c) bundle addr port first hown.usedConn
      have hi₁ := (initialized_sendAttempt s.pool bundle addr port first).trans hi
      replace hh₁ : ∀ c ∈ h₁, c ∈ incoming (acts s.trace ++
          acts (sendAttempt s.pool bundle addr port first).2.2) := by
        intro c hc
        rw [incoming_append]
        rcases hh₁ c hc with h | ⟨i, hi⟩ | h
        · exact List.mem_append_left _ (hh c h)
        · exact List.mem_append_left _ (hown.ok.nodup_live.2 c ((hown.live c).mpr ⟨i, hi⟩))
        · exact List.mem_append_right _ h
      generalize sendAttempt s.pool bundle addr port first = r₁ at *
      obtain ⟨p₁, o₁, calls₁⟩ := r₁
      simp only [incoming_append] at hh₁ hown₁ hinc₁ hi₁
      cases o₁ with
      | none => exact ⟨l₁, h₁, hr₁, hh₁⟩
      | some ret =>
        simp only
        split
        · exact ⟨l₁, h₁, hr₁, hh₁⟩
        -- The retry, with a connection that is new after the first attempt too.
        · have hnew : ∀ c ∈ retry.connect, c ∉ h₁ := by
            intro c hc hm
            rcases List.mem_append.mp (hh₁ c hm) with h | h
            · exact (hf.2 c hc).1 h
            · exact (hf.2 c hc).2 (hinc₁ c h)
          obtain ⟨l₂, h₂, hr₂, hh₂⟩ := sendAttempt_lru bundle addr port
            hown₁.usedConn hi₁ hnew
          generalize sendAttempt p₁ bundle addr port retry = r₂ at *
          obtain ⟨p₂, o₂, calls₂⟩ := r₂
          have hmem : ∀ c ∈ h₂,
              c ∈ incoming (acts s.trace) ++ incoming (acts (calls₁ ++ calls₂)) := by
            intro c hc
            simp only [acts_append, incoming_append, ← List.append_assoc]
            rcases hh₂ c hc with h | ⟨i, hi⟩ | h
            · exact List.mem_append_left _ (hh₁ c h)
            · refine List.mem_append_left _ ?_
              have := hown₁.ok.nodup_live.2 c ((hown₁.live c).mpr ⟨i, hi⟩)
              rwa [incoming_append] at this
            · exact List.mem_append_right _ h
          cases o₂ <;> exact ⟨l₁ ++ l₂, h₂, hr₁.append hr₂, hmem⟩
    · cases hs

/-- Every run of the API is a run of the pool's functions. -/
theorem poolRun_lru {s : PoolRun} (hs : poolSys.Reach s) :
    ∃ h, lruSys.Reach ⟨s.pool, h⟩ ∧ ∀ c ∈ h, c ∈ s.opened := by
  have hind := poolInv_inductive.given
    (I := fun s => ∃ h, lruSys.Reach ⟨s.pool, h⟩ ∧ ∀ c ∈ h, c ∈ s.opened) ?_ ?_
  · exact (hind.reach hs).2
  · rintro s rfl
    exact ⟨[], .init rfl, by simp⟩
  · rintro s op s' hinv ⟨h, hr, hh⟩ hst
    obtain ⟨l, h', hrun, hh'⟩ := poolStep_lru hinv hh hst
    exact ⟨h', hr.run hrun, hh'⟩

/-! ## The wrap -/

/-- The state after `n` more cache hits of slot `i`, whose connection is `c`. -/
def LruRun.hits (s : LruRun) (i : Fin connPoolSize) (c : Conn) (n : Nat) : LruRun where
  pool :=
    { s.pool with
      entries := Function.update s.pool.entries i
        { s.pool.entries i with lastUsed := s.pool.tick + UInt32.ofNat n }
      tick := s.pool.tick + UInt32.ofNat n
      stats := { s.pool.stats with hits := s.pool.stats.hits + UInt32.ofNat n } }
  history := List.replicate n c ++ s.history

/-- A run of `n` hits of the entry that was used last. -/
theorem run_hits {i : Fin connPoolSize} (hi : s.pool.initialized = true)
    (hage : s.pool.maxConnAgeMs = 0) (hf : s.pool.findDest addr port = some i)
    (hc : (s.pool.entries i).conn = some c) (hu : s.pool.UsedConn)
    (hlast : (s.pool.entries i).lastUsed = s.pool.tick) (n : Nat) :
    lruSys.Run s (List.replicate n (.get addr port ⟨0, 0, none⟩)) (s.hits i c n) := by
  have hzero : s.hits i c 0 = s := by
    have hsame : { s.pool.entries i with lastUsed := s.pool.tick } = s.pool.entries i := by
      rw [← hlast]
    simp [LruRun.hits, hsame]
  -- One more hit, from any of these states.
  have hstep : ∀ n, lruSys.step (s.hits i c n) (.get addr port ⟨0, 0, none⟩) =
      some (s.hits i c (n + 1)) := by
    intro n
    have hconn : ∀ j, ((s.hits i c n).pool.entries j).used = (s.pool.entries j).used ∧
        ((s.hits i c n).pool.entries j).conn = (s.pool.entries j).conn ∧
        ((s.hits i c n).pool.entries j).destAddr = (s.pool.entries j).destAddr ∧
        ((s.hits i c n).pool.entries j).destPort = (s.pool.entries j).destPort := by
      intro j
      simp only [LruRun.hits, Function.update_apply]
      split
      · subst_vars; exact ⟨rfl, rfl, rfl, rfl⟩
      · exact ⟨rfl, rfl, rfl, rfl⟩
    have hu' : (s.hits i c n).pool.UsedConn := by
      intro j hj
      rw [(hconn j).2.1]
      exact hu j ((hconn j).1 ▸ hj)
    have hf' : (s.hits i c n).pool.findDest addr port = some i := by
      rw [← hf]
      unfold findDest
      simp only [hconn]
    have hg : (s.hits i c n).pool.getOrCreateLocked addr port ⟨0, 0, none⟩ =
        ((s.hits i c n).pool.bump.touch i, some c, []) := by
      rcases getOrCreateLocked_cases addr port hu' ⟨0, 0, none⟩ with
        ⟨k, d, hk, hd, -, he⟩ | ⟨k, d, f, r, -, -, hold, -, -, -⟩ | ⟨q, r, hk, -, -, -⟩
      · obtain rfl := Option.some.inj (hf'.symm.trans hk)
        rw [(hconn i).2.1, hc] at hd
        cases hd
        exact he
      · simp [tooOld, LruRun.hits, hage] at hold
      · rw [hf'] at hk
        cases hk
    have hinit : (s.hits i c n).pool.initialized = true := hi
    simp only [lruSys, lruStep, hinit, hg, true_and]
    rw [if_pos (by simp)]
    simp [LruRun.hits, touch, bump, List.replicate_succ, ← UInt32.add_assoc]
  have hrun : ∀ m k, lruSys.Run (s.hits i c k) (List.replicate m (.get addr port ⟨0, 0, none⟩))
      (s.hits i c (k + m)) := by
    intro m
    induction m with
    | zero => exact fun k => .nil _
    | succ m ih =>
      intro k
      refine .cons (hstep k) ?_
      rw [Nat.add_comm m, ← Nat.add_assoc]
      exact ih (k + 1)
  have := hrun n 0
  rwa [hzero, Nat.zero_add] at this

/-- Sixteen adds fill the pool, the last one for slot 15. -/
def fillRun : List LruOp :=
  .init true none :: (List.range connPoolSize).map fun i => .add (UInt8.ofNat i) 10 i true 0

/-- The number of hits after which the tick, 16 after the fill, is 0 again. -/
def hitsToWrap : Nat := 2 ^ 32 - 16

/-- After the tick wrapped, the entry that was used last has the least tick: it is evicted. -/
theorem evicts_newest_after_wrap :
    ∃ s d, lruSys.Reach s ∧ s.pool.initialized = true ∧ s.pool.firstFree = none ∧
      (s.pool.add 200 10 100 true 0).2.2 = [.close d, .adopt 100] ∧ s.history.head? = some d ∧
      ¬ Oldest s.pool.slots s.history d := by
  obtain ⟨s, hs⟩ : ∃ s, lruSys.exec ⟨ConnPool.zero, []⟩ fillRun = some s := ⟨_, rfl⟩
  have hfacts : (lruSys.exec ⟨ConnPool.zero, []⟩ fillRun).map (fun s =>
      decide (s.pool.initialized = true ∧ s.pool.maxConnAgeMs = 0 ∧
        s.pool.findDest 15 10 = some 15 ∧
        s.pool.entries 15 = ⟨true, 15, 10, some 15, s.pool.tick, 0⟩ ∧
        ∀ i, (s.pool.entries i).conn ≠ none)) = some true := by decide +kernel
  have hlast : (lruSys.exec ⟨ConnPool.zero, []⟩ fillRun).map (fun s =>
      ((s.hits 15 15 hitsToWrap).pool.firstFree,
        ((s.hits 15 15 hitsToWrap).pool.add 200 10 100 true 0).2.2,
        ((s.hits 15 15 hitsToWrap).pool.entries 0).conn)) =
      some (none, [.close 15, .adopt 100], some 0) := by decide +kernel
  rw [hs, Option.map_some, Option.some.injEq] at hfacts hlast
  obtain ⟨hi, hage, hf, he, hall⟩ := of_decide_eq_true hfacts
  simp only [Prod.mk.injEq] at hlast
  obtain ⟨hfull, hadd, h0⟩ := hlast
  have hrun :=
    run_hits hi hage hf (c := 15) (by rw [he]) (fun i _ => hall i) (by rw [he]) hitsToWrap
  have hhist : (s.hits 15 15 hitsToWrap).history.head? = some 15 := rfl
  refine ⟨s.hits 15 15 hitsToWrap, 15, Lts.Reach.run (.of_exec rfl hs) hrun, hi, hfull, hadd, hhist,
    fun hold => ?_⟩
  have hlt := hold 0 0 _ (slots_eq_some.mpr ⟨h0, rfl⟩) (by decide)
  have hidx : (s.hits 15 15 hitsToWrap).history.idxOf 15 = 0 := by
    obtain ⟨l, hl⟩ := List.head?_eq_some_iff.mp hhist
    rw [hl, List.idxOf_cons_self]
  rw [hidx] at hlt
  exact absurd hlt (Nat.not_lt_zero _)

end Cspcl
