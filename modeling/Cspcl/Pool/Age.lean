import Cspcl.Pool.Lru

/-!
# The age of pooled connections (`CSPCL_MAX_CONN_AGE_MS`)

The limit is in milliseconds; the age check compares it with the difference of two `time(NULL)`, in
seconds and as a `uint32_t`. `ageSys` is any run of the pool's functions but
`cspcl_conn_pool_add`, with a clock in milliseconds and the instants at which the connections were
opened.

* `ageMissed_iff`: which pairs of instants the check gets wrong (`AgeMissed`).
* `aged_replaced_iff`: a lookup closes and replaces a connection that is over the limit, unless the
  check misses it.
-/

namespace Cspcl

open ConnPool

/-- What the calls of `cspcl_pool_get_or_create_locked` return, with the clock in milliseconds. A
connection is opened when the clock is read for it. -/
structure GetMs where
  ageNow : Nat
  connNow : Nat
  connect : Option Conn

/-- `time(NULL)` is in seconds. -/
def GetMs.env (e : GetMs) : GetEnv := ⟨(e.ageNow / 1000 : Nat), (e.connNow / 1000 : Nat), e.connect⟩

/-- A pool, the clock, and when its connections were opened. -/
structure AgeRun where
  pool : ConnPool
  now : Nat
  openedAt : Conn → Option Nat

namespace AgeRun

/-- The pool is initialized, the clock does not go back, and a connection is not opened twice. -/
def Possible (s : AgeRun) (e : GetMs) : Prop :=
  s.pool.initialized = true ∧ s.now ≤ e.ageNow ∧ e.ageNow ≤ e.connNow ∧
    ∀ c ∈ e.connect, s.openedAt c = none

instance (s : AgeRun) (e : GetMs) : Decidable (s.Possible e) :=
  inferInstanceAs (Decidable (_ ∧ _ ∧ _ ∧ _))

/-- The connection that a call opened at `now`. -/
def note (now : Nat) (openedAt : Conn → Option Nat) : Call → Conn → Option Nat
  | .connect _ _ (some c) => Function.update openedAt c (some now)
  | _ => openedAt

/-- `cspcl_pool_get_or_create_locked`. -/
def get (s : AgeRun) (addr port : UInt8) (e : GetMs) : AgeRun :=
  let r := s.pool.getOrCreateLocked addr port e.env
  ⟨r.1, e.connNow, r.2.2.foldl (note e.connNow) s.openedAt⟩

end AgeRun

/-- A function of the pool. -/
inductive AgeOp where
  | init (mutex : Bool) (maxAgeEnv : Option CString)
  | get (addr port : UInt8) (e : GetMs)
  | invalidate (addr port : UInt8)
  | cleanup (lock : Bool)

def ageStep (s : AgeRun) : AgeOp → Option AgeRun
  | .init mutex maxAgeEnv =>
    if s.pool.initialized then none
    else some { s with pool := (ConnPool.init mutex maxAgeEnv).1 }
  | .get addr port e => if s.Possible e then some (s.get addr port e) else none
  | .invalidate addr port => some { s with pool := (s.pool.invalidateLocked addr port).1 }
  | .cleanup lock => some { s with pool := (s.pool.cleanup lock).1 }

def ageSys : Lts AgeRun AgeOp where
  init s := s.pool = ConnPool.zero ∧ ∀ c, s.openedAt c = none
  step := ageStep

/-- What the limit asks of a lookup in state `s`. -/
structure AgedReplaced (s : AgeRun) (addr port : UInt8) (e : GetMs) : Prop where
  /-- It does not return a connection over the limit. -/
  returned : ∀ c t, (s.pool.getOrCreateLocked addr port e.env).2.1 = some c →
    s.openedAt c = some t → e.ageNow ≤ t + s.pool.maxConnAgeMs.toNat
  /-- One that the destination has is closed and counted, and a fresh one is stored and returned,
  or `NULL`. -/
  replaced : ∀ i c t, s.pool.IsDest addr port i → (s.pool.entries i).conn = some c →
    s.openedAt c = some t → t + s.pool.maxConnAgeMs.toNat < e.ageNow →
    (s.pool.getOrCreateLocked addr port e.env).2 =
        (e.connect, [.close c, .connect addr port e.connect]) ∧
      (s.pool.getOrCreateLocked addr port e.env).1.stats.invalidations =
        s.pool.stats.invalidations + 1 ∧
      ∀ d ∈ e.connect, ∃ j, (s.pool.getOrCreateLocked addr port e.env).1.IsDest addr port j ∧
        ((s.pool.getOrCreateLocked addr port e.env).1.entries j).conn = some d

/-- The age check misses that a connection opened at `t` is over the limit `max` at `now`: the whole
seconds since then are those of the limit, and the rest of the age is more than that of the limit;
or the seconds do not fit in a `uint32_t`. -/
def AgeMissed (max t now : Nat) : Prop :=
  (now / 1000 - t / 1000 = max / 1000 ∧ t % 1000 + max % 1000 < now % 1000) ∨
    (2 ^ 32 ≤ now / 1000 - t / 1000 ∧ (now / 1000 - t / 1000) % 2 ^ 32 ≤ max / 1000)

instance (max t now : Nat) : Decidable (AgeMissed max t now) := inferInstanceAs (Decidable (_ ∨ _))

/-! ## The check -/

theorem ageMissed_iff {max t now : Nat} (hm : max < 2 ^ 32) (ht : t ≤ now) :
    AgeMissed max t now ↔
      t + max < now ∧ ¬ max / 1000 < (now / 1000 - t / 1000) % 2 ^ 32 := by
  unfold AgeMissed
  omega

theorem toNat_toU32 {a b : Nat} (h : b ≤ a) :
    (toU32 ((a : Int) - b)).toNat = (a - b) % 2 ^ 32 := by
  have he : (((a : Int) - b) % 2 ^ 32).toNat = (a - b) % 2 ^ 32 := by omega
  rw [toU32, he, UInt32.toNat_ofNat', Nat.mod_mod]

variable {p : ConnPool} {s s' : AgeRun} {e : GetMs} {op : AgeOp} {addr port : UInt8}

/-- The age check in terms of the two instants. -/
theorem tooOld_iff {entry : PoolEntry} {t now : Nat} (hm : 0 < p.maxConnAgeMs) (ht : t ≤ now)
    (he : entry.connectedAt = (t / 1000 : Nat)) :
    p.tooOld entry (now / 1000 : Nat) = true ↔
      p.maxConnAgeMs.toNat / 1000 < (now / 1000 - t / 1000) % 2 ^ 32 := by
  rw [tooOld, he, decide_eq_true hm, Bool.true_and, decide_eq_true_eq, UInt32.lt_iff_toNat_lt,
    toNat_toU32 (Nat.div_le_div_right ht)]
  rfl

/-! ## The invariant -/

/-- Each connection of the table was opened, and its entry has the second in which it was. -/
def Dated (p : ConnPool) (now : Nat) (openedAt : Conn → Option Nat) : Prop :=
  ∀ i c, (p.entries i).conn = some c →
    ∃ t ≤ now, openedAt c = some t ∧ (p.entries i).connectedAt = (t / 1000 : Nat)

section Dated

variable {now : Nat} {openedAt : Conn → Option Nat} {i : Fin connPoolSize}

theorem Dated.later {now' : Nat} (h : Dated p now openedAt) (hn : now ≤ now') :
    Dated p now' openedAt := by
  intro i c hc
  obtain ⟨t, ht, ho⟩ := h i c hc
  exact ⟨t, ht.trans hn, ho⟩

theorem Dated.clear (h : Dated p now openedAt) : Dated (p.clear i) now openedAt := by
  intro j c hc
  rw [entries_clear] at hc ⊢
  split at hc
  · cases hc
  · rw [if_neg ‹_›]
    exact h j c hc

theorem Dated.touch (h : Dated p now openedAt) : Dated (p.touch i) now openedAt := by
  intro j c hc
  rw [entries_touch] at hc ⊢
  split at hc
  · rename_i hj
    rw [if_pos hj]
    exact h i c hc
  · rw [if_neg ‹_›]
    exact h j c hc

/-- A connection that was not opened before is dated when it is. -/
theorem Dated.connectInto (h : Dated p now openedAt) (hn : now ≤ e.connNow)
    (hnew : ∀ c ∈ e.connect, openedAt c = none) :
    Dated (p.connectInto i addr port e.env).1 e.connNow
      ((p.connectInto i addr port e.env).2.2.foldl (AgeRun.note e.connNow) openedAt) := by
  have hconnect : e.env.connect = e.connect := rfl
  cases hc : e.connect with
  | none =>
    simp only [ConnPool.connectInto, hconnect, hc]
    exact h.later hn
  | some d =>
    simp only [ConnPool.connectInto, hconnect, hc, List.foldl_cons, List.foldl_nil, AgeRun.note]
    intro j c hj
    dsimp only at hj ⊢
    rw [entries_store] at hj ⊢
    split at hj
    · rw [if_pos ‹_›]
      obtain rfl := Option.some.inj hj
      exact ⟨e.connNow, Nat.le_refl _, Function.update_self .., rfl⟩
    · rw [if_neg ‹_›]
      obtain ⟨t, ht, ho, hs⟩ := h j c hj
      have hne : c ≠ d := by
        rintro rfl
        rw [hnew c hc] at ho
        cases ho
      exact ⟨t, ht.trans hn, by rw [Function.update_of_ne hne, ho], hs⟩

end Dated

/-- The table has one dated connection at most for each destination. -/
structure AgeInv (s : AgeRun) : Prop where
  usedConn : s.pool.UsedConn
  oneEntry : s.pool.OneEntry
  dated : Dated s.pool s.now s.openedAt

theorem foldl_note_closeCalls {now : Nat} {openedAt : Conn → Option Nat} {i : Fin connPoolSize} :
    (p.closeCalls i).foldl (AgeRun.note now) openedAt = openedAt := by
  unfold closeCalls
  cases (p.entries i).conn <;> rfl

theorem AgeInv.get (h : AgeInv s) (he : s.Possible e) : AgeInv (s.get addr port e) := by
  obtain ⟨-, hage, hconn, hnew⟩ := he
  have hnow := hage.trans hconn
  refine ⟨usedConn_getOrCreateLocked h.usedConn addr port _,
    (getOrCreateLocked_spec h.usedConn h.oneEntry addr port _).2.1, ?_⟩
  unfold AgeRun.get
  dsimp only
  have hd : Dated s.pool.bump s.now s.openedAt := h.dated
  rcases getOrCreateLocked_cases addr port h.usedConn e.env with
    ⟨i, d, -, -, -, hg⟩ | ⟨i, d, f, r, -, -, -, -, rfl, hg⟩ | ⟨q, r, -, rfl, rfl, hg⟩ <;> rw [hg]
  · exact hd.touch.later hnow
  · exact Dated.connectInto (p := (s.pool.bump.clear i).countInvalidation) hd.clear hnow hnew
  · rw [List.foldl_append]
    rcases findFreeOrEvictLocked_cases (p := s.pool.bump) with ⟨i, -, hq⟩ | ⟨-, hq⟩ <;> rw [hq]
    · exact hd.connectInto hnow hnew
    · simp only [evictLru, foldl_note_closeCalls]
      exact Dated.connectInto (p := (s.pool.bump.clear _).countEviction) hd.clear hnow hnew

theorem AgeInv.invalidate (h : AgeInv s) :
    AgeInv { s with pool := (s.pool.invalidateLocked addr port).1 } := by
  unfold invalidateLocked
  cases hf : s.pool.findDest addr port with
  | none => exact h
  | some i =>
    have hs := spares_clear (findDest_eq_some.mp hf).1
    refine ⟨h.usedConn.clear, hs.oneEntry h.oneEntry fun j k hj hk => ?_, h.dated.clear⟩
    exact h.oneEntry addr port j k (isDest_of_clear hj).2 (isDest_of_clear hk).2

/-- A table without used entries, and without connections. -/
theorem ageInv_of_empty (hu : ∀ i, (s.pool.entries i).used = false)
    (hc : ∀ i, (s.pool.entries i).conn = none) : AgeInv s where
  usedConn i h := by
    rw [hu i] at h
    cases h
  oneEntry := oneEntry_of_unused hu
  dated i c h := by
    rw [hc i] at h
    cases h

theorem step_get (he : s.Possible e) :
    ageSys.step s (.get addr port e) = some (s.get addr port e) := if_pos he

theorem AgeInv.step (h : AgeInv s) (hs : ageStep s op = some s') : AgeInv s' := by
  cases op with
  | init mutex maxAgeEnv =>
    simp only [ageStep] at hs
    split at hs
    · cases hs
    · obtain rfl := Option.some.inj hs
      cases mutex <;> exact ageInv_of_empty (fun _ => rfl) fun _ => rfl
  | get addr port e =>
    simp only [ageStep] at hs
    split at hs
    · rename_i he
      obtain rfl := Option.some.inj hs
      exact h.get he
    · cases hs
  | invalidate addr port =>
    obtain rfl := Option.some.inj hs
    exact h.invalidate
  | cleanup lock =>
    obtain rfl := Option.some.inj hs
    unfold ConnPool.cleanup
    split
    · exact h
    · exact ageInv_of_empty (fun _ => rfl) fun _ => rfl

theorem ageInv_reach (h : ageSys.Reach s) : AgeInv s := by
  refine Lts.Inductive.reach ⟨fun s hs => ?_, fun s op s' hs hst => hs.step hst⟩ h
  have hp : s.pool = ConnPool.zero := hs.1
  exact ageInv_of_empty (by rw [hp]; exact fun _ => rfl) (by rw [hp]; exact fun _ => rfl)

/-! ## The lookup -/

/-- A lookup that does not use the table returns what `csp_connect` gave. -/
theorem agedReplaced_of_no_dest (hno : ∀ i, ¬ s.pool.IsDest addr port i)
    (hr : (s.pool.getOrCreateLocked addr port e.env).2.1 = e.connect) (he : s.Possible e) :
    AgedReplaced s addr port e where
  returned c t hc ht := by
    rw [hr] at hc
    rw [he.2.2.2 c hc] at ht
    cases ht
  replaced i _ _ hd := absurd hd (hno i)

theorem connectInto_snd (p : ConnPool) (i : Fin connPoolSize) (addr port : UInt8) (env : GetEnv) :
    (p.connectInto i addr port env).2 = (env.connect, [.connect addr port env.connect]) ∧
      (p.connectInto i addr port env).1.stats.invalidations = p.stats.invalidations := by
  unfold connectInto
  cases env.connect <;> exact ⟨rfl, rfl⟩

/-- The first entry of a destination is its only one. -/
theorem AgeInv.only (h : AgeInv s) {i j : Fin connPoolSize} {c d : Conn} {t t' : Nat}
    (hf : s.pool.findDest addr port = some i) (hc : (s.pool.entries i).conn = some c)
    (ht : s.openedAt c = some t) (hj : s.pool.IsDest addr port j)
    (hd : (s.pool.entries j).conn = some d) (ht' : s.openedAt d = some t') : d = c ∧ t' = t := by
  obtain rfl := h.oneEntry addr port j i hj (findDest_eq_some.mp hf).1
  obtain rfl : d = c := Option.some.inj (hd.symm.trans hc)
  exact ⟨rfl, Option.some.inj (ht'.symm.trans ht)⟩

/-- A lookup that drops an entry does so as the limit asks. -/
theorem agedReplaced_of_expired (h : AgeInv s) (he : s.Possible e) {i f : Fin connPoolSize}
    {c : Conn} (hf : s.pool.findDest addr port = some i) (hc : (s.pool.entries i).conn = some c)
    (hg : s.pool.getOrCreateLocked addr port e.env =
      (((s.pool.bump.clear i).countInvalidation.connectInto f addr port e.env).1,
        ((s.pool.bump.clear i).countInvalidation.connectInto f addr port e.env).2.1,
        .close c :: ((s.pool.bump.clear i).countInvalidation.connectInto f addr port e.env).2.2)) :
    AgedReplaced s addr port e := by
  obtain ⟨hr, hst⟩ := connectInto_snd (s.pool.bump.clear i).countInvalidation f addr port e.env
  have hres : (s.pool.getOrCreateLocked addr port e.env).2.1 = e.connect := by
    rw [hg, hr]
    rfl
  constructor
  · intro d t hd ht
    rw [hres] at hd
    rw [he.2.2.2 d hd] at ht
    cases ht
  · intro j d t hj hd ht hold
    -- The destination has no other entry.
    obtain rfl := h.oneEntry addr port j i hj (findDest_eq_some.mp hf).1
    obtain rfl : d = c := Option.some.inj (hd.symm.trans hc)
    refine ⟨?_, ?_, fun d' hd' => ?_⟩
    · rw [hg, hr]
      rfl
    · rw [hg]
      exact hst
    · obtain ⟨k, hk, hkc⟩ := serves_getOrCreateLocked h.usedConn e.env (hres.trans hd')
      exact ⟨k, (findDest_eq_some.mp hk).1, hkc⟩

/-- The check of an entry of the table, in terms of when its connection was opened. -/
theorem AgeInv.tooOld_iff (h : AgeInv s) (hm : 0 < s.pool.maxConnAgeMs) (hn : s.now ≤ e.ageNow)
    {i : Fin connPoolSize} {c : Conn} (hc : (s.pool.entries i).conn = some c) :
    ∃ t, s.openedAt c = some t ∧ (AgeMissed s.pool.maxConnAgeMs.toNat t e.ageNow ↔
      t + s.pool.maxConnAgeMs.toNat < e.ageNow ∧
        s.pool.tooOld (s.pool.entries i) e.env.ageNow = false) := by
  obtain ⟨t, ht, ho, hs⟩ := h.dated i c hc
  have ht := ht.trans hn
  have hold : s.pool.tooOld (s.pool.entries i) e.env.ageNow = true ↔ _ :=
    Cspcl.tooOld_iff hm ht hs
  refine ⟨t, ho, ?_⟩
  rw [ageMissed_iff s.pool.maxConnAgeMs.toNat_lt ht, ← hold, Bool.not_eq_true]

/-- In every run, a lookup does what the limit asks unless the check misses the age. -/
theorem aged_replaced_iff (h : ageSys.Reach s) (hm : 0 < s.pool.maxConnAgeMs) (he : s.Possible e) :
    AgedReplaced s addr port e ↔
      ∀ i c t, s.pool.IsDest addr port i → (s.pool.entries i).conn = some c →
        s.openedAt c = some t → ¬ AgeMissed s.pool.maxConnAgeMs.toNat t e.ageNow := by
  have hinv := ageInv_reach h
  rcases getOrCreateLocked_cases addr port hinv.usedConn e.env with
    ⟨i, c, hf, hc, hold, hg⟩ | ⟨i, c, f, r, hf, hc, hold, -, rfl, hg⟩ | ⟨q, r, hf, rfl, rfl, hg⟩
  · -- A hit: whether it is over the limit is what the check missed.
    obtain ⟨t, ht, hmissed⟩ := hinv.tooOld_iff hm he.2.1 hc
    have hres : (s.pool.getOrCreateLocked addr port e.env).2.1 = some c := by rw [hg]
    constructor
    · intro hr j d t' hj hd ht' hmiss
      obtain ⟨rfl, rfl⟩ := hinv.only hf hc ht hj hd ht'
      exact Nat.not_lt.mpr (hr.returned d t' hres ht) (hmissed.mp hmiss).1
    · intro hno
      have hyoung : e.ageNow ≤ t + s.pool.maxConnAgeMs.toNat := by
        refine Nat.not_lt.mp fun hover => ?_
        exact hno i c t (findDest_eq_some.mp hf).1 hc ht (hmissed.mpr ⟨hover, hold⟩)
      constructor
      · intro d t' hd ht'
        obtain rfl : c = d := Option.some.inj (hres.symm.trans hd)
        obtain rfl : t' = t := Option.some.inj (ht'.symm.trans ht)
        exact hyoung
      · intro j d t' hj hd ht' hover
        obtain ⟨rfl, rfl⟩ := hinv.only hf hc ht hj hd ht'
        exact absurd hover (Nat.not_lt.mpr hyoung)
  · obtain ⟨t, ht, hmissed⟩ := hinv.tooOld_iff hm he.2.1 hc
    refine iff_of_true (agedReplaced_of_expired hinv he hf hc hg) fun j d t' hj hd ht' hmiss => ?_
    obtain ⟨rfl, rfl⟩ := hinv.only hf hc ht hj hd ht'
    have := (hmissed.mp hmiss).2
    rw [hold] at this
    cases this
  · have hno := findDest_eq_none.mp hf
    have hres : (s.pool.getOrCreateLocked addr port e.env).2.1 = e.connect := by
      rw [hg, (connectInto_snd _ _ addr port e.env).1]
      rfl
    exact iff_of_true (agedReplaced_of_no_dest hno hres he) fun i _ _ hi => absurd hi (hno i)

/-- With `CSPCL_MAX_CONN_AGE_MS=1000`, a connection to node 2 is opened at 0 ms. -/
def openedAtZero : AgeRun :=
  AgeRun.get ⟨(ConnPool.init true (some [49, 48, 48, 48])).1, 0, fun _ => none⟩ 2 10 ⟨0, 0, some 1⟩

theorem reach_openedAtZero : ageSys.Reach openedAtZero := by
  have hinit : ageSys.Reach ⟨ConnPool.zero, 0, fun _ => none⟩ := .init ⟨rfl, fun _ => rfl⟩
  have hpool := hinit.step (a := .init true (some [49, 48, 48, 48])) rfl
  exact hpool.step (step_get (e := ⟨0, 0, some 1⟩) (by decide))

/-- After two seconds it is replaced. -/
theorem replaced_after_2000_ms : AgedReplaced openedAtZero 2 10 ⟨2000, 2000, some 2⟩ :=
  (aged_replaced_iff reach_openedAtZero (by decide) (by decide)).mpr fun _ c t _ _ ht => by
    have hopened : openedAtZero.openedAt = Function.update (fun _ => none) 1 (some 0) := rfl
    rw [hopened, Function.update_apply] at ht
    split at ht
    · obtain rfl := Option.some.inj ht
      decide
    · cases ht

/-- One millisecond earlier, at almost twice the limit, it is returned. -/
theorem returned_after_1999_ms : ageSys.Reach openedAtZero ∧
    openedAtZero.pool.maxConnAgeMs = 1000 ∧ openedAtZero.Possible ⟨1999, 1999, some 2⟩ ∧
    openedAtZero.openedAt 1 = some 0 ∧
    (openedAtZero.pool.getOrCreateLocked 2 10 (GetMs.env ⟨1999, 1999, some 2⟩)).2.1 = some 1 ∧
    ¬ AgedReplaced openedAtZero 2 10 ⟨1999, 1999, some 2⟩ := by
  have hret : (openedAtZero.pool.getOrCreateLocked 2 10
      (GetMs.env ⟨1999, 1999, some 2⟩)).2.1 = some 1 := by decide
  refine ⟨reach_openedAtZero, by decide, by decide, rfl, hret, fun h => ?_⟩
  exact absurd (h.returned 1 0 hret rfl) (by decide)

/-! ## The sends as runs of these functions -/

/-- What the calls of one attempt return, with the clock in milliseconds. -/
structure SendMs extends GetMs where
  sfpSend : CspErr
  ack : Bool

def SendMs.env (e : SendMs) : SendEnv := ⟨e.toGetMs.env, e.sfpSend, e.ack⟩

theorem foldl_note_close {now : Nat} {openedAt : Conn → Option Nat} {closed : List Conn} :
    (closed.map Call.close).foldl (AgeRun.note now) openedAt = openedAt := by
  induction closed with
  | nil => rfl
  | cons c closed ih => exact ih

/-- A lookup opens no other connection than the one that `csp_connect` gives. -/
theorem openedAt_get (hu : s.pool.UsedConn) {c : Conn} (hc : s.openedAt c = none)
    (hne : e.connect ≠ some c) : (s.get addr port e).openedAt c = none := by
  unfold AgeRun.get
  dsimp only
  rcases calls_getOrCreateLocked hu addr port e.env with ⟨hcalls, -⟩ | ⟨closed, hcalls, -⟩
  · rw [hcalls]
    exact hc
  · rw [hcalls, List.foldl_append, foldl_note_close]
    show AgeRun.note e.connNow s.openedAt (.connect addr port e.connect) c = none
    cases hd : e.connect with
    | none => exact hc
    | some d =>
      rw [hd] at hne
      exact (Function.update_of_ne (fun h => hne (congrArg some h.symm)) ..).trans hc

/-- An attempt to send is a lookup and, if it fails, an invalidation. -/
theorem sendAttempt_age (bundle : Bundle) (addr port : UInt8) {e : SendMs} (h : AgeInv s)
    (he : s.Possible e.toGetMs) :
    ∃ l s', ageSys.Run s l s' ∧ s'.pool = (sendAttempt s.pool bundle addr port e.env).1 ∧
      s'.now = e.connNow ∧
      ∀ c, s.openedAt c = none → e.connect ≠ some c → s'.openedAt c = none := by
  have hget : ageSys.step s (.get addr port e.toGetMs) = some (s.get addr port e.toGetMs) :=
    step_get he
  have hopened := fun c => @openedAt_get s e.toGetMs addr port h.usedConn c
  rcases hg : s.pool.getOrCreateLocked addr port e.env.toGetEnv with ⟨q, r, calls⟩
  have hq : (s.get addr port e.toGetMs).pool = q := congrArg Prod.fst hg
  rcases sendAttempt_cases h.usedConn bundle hg with
    ⟨-, ha⟩ | ⟨c, -, ha⟩ | ⟨c, i, ret, io, -, -, -, -, -, -, hinv, ha⟩ <;> rw [ha]
  · exact ⟨_, _, .single hget, hq, rfl, hopened⟩
  · exact ⟨_, _, .single hget, hq, rfl, hopened⟩
  · have hdrop : ageSys.step (s.get addr port e.toGetMs) (.invalidate addr port) =
        some { s.get addr port e.toGetMs with
          pool := ((s.get addr port e.toGetMs).pool.invalidateLocked addr port).1 } := rfl
    refine ⟨_, _, .cons hget (.single hdrop), ?_, rfl, hopened⟩
    dsimp only
    rw [hq, hinv]

/-- A send is a run of these functions: its retry comes after its first attempt, and gets a
connection of its own. -/
theorem sendBundle_age (bundle : Bundle) (addr port : UInt8) (lock : Bool) {first retry : SendMs}
    (h : ageSys.Reach s) (hf : s.Possible first.toGetMs) (hr : first.connNow ≤ retry.ageNow)
    (hr' : retry.ageNow ≤ retry.connNow)
    (hnew : ∀ c ∈ retry.connect, s.openedAt c = none ∧ first.connect ≠ some c) :
    ∃ s', ageSys.Reach s' ∧
      s'.pool = (sendBundle true s.pool bundle addr port lock first.env retry.env).1 := by
  rcases sendBundle_refused true s.pool bundle addr port lock first.env retry.env with
    ⟨he, -⟩ | ⟨hb, hm, hi, -, rfl⟩
  · exact ⟨s, h, he.symm⟩
  rw [sendBundle_eq hb hm hi]
  obtain ⟨l, s₁, hrun, hp, hnow, hopened⟩ := sendAttempt_age bundle addr port (ageInv_reach h) hf
  have hreach := h.run hrun
  have hi₁ := (initialized_sendAttempt s.pool bundle addr port first.env).trans hi
  rw [← hp] at hi₁
  generalize sendAttempt s.pool bundle addr port first.env = r₁ at hp
  obtain ⟨p₁, _ | ret, calls₁⟩ := r₁
  · exact ⟨s₁, hreach, hp⟩
  dsimp only at hp ⊢
  subst hp
  split
  · exact ⟨s₁, hreach, rfl⟩
  · have hposs : s₁.Possible retry.toGetMs :=
      ⟨hi₁, hnow.trans_le hr, hr', fun c hc => hopened c (hnew c hc).1 (hnew c hc).2⟩
    obtain ⟨l', s₂, hrun', hp', -, -⟩ := sendAttempt_age bundle addr port (ageInv_reach hreach)
      hposs
    refine ⟨s₂, hreach.run hrun', hp'.trans ?_⟩
    rcases sendAttempt s₁.pool bundle addr port retry.env with ⟨p₂, _ | ret', calls₂⟩ <;> rfl

end Cspcl
