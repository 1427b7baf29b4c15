import Mathlib.Data.List.TakeWhile
import Cspcl.Pool.Destinations

/-!
# The outcome of `cspcl_send_bundle`, and one entry for each destination

* `SendOutcome`: what a send returns, in terms of the calls that it made to libcsp, and what it
  leaves in the table. It holds of every pool with one entry for each destination
  (`sendOutcome`), hence in every run without `cspcl_conn_pool_add` (`send_outcome`).
* `AddsOnce`: an add is for a destination without an entry. The runs whose adds are such are those
  with one entry for each destination throughout (`one_entry_iff`): there the retry of a send is
  always on a connection that the send opened itself.
-/

namespace Cspcl

open ConnPool

variable {p : ConnPool} {bundle : Bundle} {addr port : UInt8} {c : Conn} {calls : List Call}
  {first retry : SendEnv}

/-! ## What the calls of a send say -/

/-- The calls end with a send of the bundle on `c` that was acked. -/
def EndsAcked (calls : List Call) (bundle : Bundle) (c : Conn) : Prop :=
  ∃ pre, calls = pre ++ [.sfpSend c bundle cspErrNone, .read c true]

/-- `csp_connect` gave no connection before anything was sent. -/
def FirstUnconnected (calls : List Call) (addr port : UInt8) : Prop :=
  .connect addr port none ∈ calls.takeWhile Call.silent

/-- The calls after the first `csp_sfp_send`. -/
def afterFirstSend (calls : List Call) : List Call := (calls.dropWhile Call.silent).tail

/-- The outcome `r` of `cspcl_send_bundle` on the pool `p`. -/
structure SendOutcome (p : ConnPool) (bundle : Bundle) (addr port : UInt8)
    (r : ConnPool × CspclError × List Call) : Prop where
  ok_iff : r.2.1 = .ok ↔ ∃ c, EndsAcked r.2.2 bundle c
  connection_iff : r.2.1 = .connection ↔ FirstUnconnected r.2.2 addr port
  nothing_sent : r.2.1 = .connection → ∀ c b ret, .sfpSend c b ret ∉ r.2.2
  failed : r.2.1 ≠ .ok → r.2.1 ≠ .connection → ∃ ret, lastCode r.2.2 = some ret ∧
    ret ≠ cspErrNone ∧ r.2.1 = if ret = cspErrTimedout then .timeout else .cspSend
  /-- The acked connection is in the only entry of the destination. -/
  acked : ∀ c, EndsAcked r.2.2 bundle c → ∃ i, (r.1.entries i).conn = some c ∧
    ∀ j, r.1.IsDest addr port j ↔ j = i
  dropped : r.2.1 ≠ .ok → ∀ j, ¬ r.1.IsDest addr port j
  /-- The other destinations keep their entries, except for at most one eviction. -/
  others : ∃ e, Spares addr port e p r.1 ∧ ∀ k ∈ e, p.Evictable addr port k

theorem not_endsAcked {a : Call} (ha : ∀ c, a ≠ .read c true) :
    ¬ EndsAcked (calls ++ [a]) bundle c := by
  rintro ⟨pre, h⟩
  have hl := congrArg List.getLast? h
  simp only [List.getLast?_append, List.getLast?_cons_cons, List.getLast?_singleton,
    Option.some_or, Option.some.injEq] at hl
  exact ha c hl

theorem endsAcked_iff {d : Conn} :
    EndsAcked (calls ++ [.sfpSend c bundle cspErrNone, .read c true]) bundle d ↔ d = c := by
  constructor
  · rintro ⟨pre, h⟩
    have := List.append_inj_right' h rfl
    simp at this
    exact this.symm
  · rintro rfl
    exact ⟨calls, rfl⟩

section Silent

variable {pre post : List Call} {b : Bundle} {code : CspErr} (hs : ∀ a ∈ pre, a.silent = true)
include hs

theorem takeWhile_silent : (pre ++ .sfpSend c b code :: post).takeWhile Call.silent = pre := by
  rw [List.takeWhile_append_of_pos hs]
  simp [Call.silent, Call.code]

theorem afterFirstSend_append : afterFirstSend (pre ++ .sfpSend c b code :: post) = post := by
  unfold afterFirstSend
  rw [List.dropWhile_append_of_pos hs]
  simp [Call.silent, Call.code]

theorem not_firstUnconnected (hno : .connect addr port none ∉ pre) :
    ¬ FirstUnconnected (pre ++ .sfpSend c b code :: post) addr port := by
  unfold FirstUnconnected
  rwa [takeWhile_silent hs]

theorem lastCode_silent : lastCode pre = none := by
  unfold lastCode
  have h : pre.filterMap Call.code = [] := by
    rw [List.filterMap_eq_nil_iff]
    intro a ha
    simpa [Call.silent] using hs a ha
  rw [h]
  rfl

end Silent

theorem lastCode_append (l m : List Call) : lastCode (l ++ m) = (lastCode m).or (lastCode l) := by
  simp [lastCode]

/-- The calls of a lookup that gave no connection. -/
theorem silent_unconnected (addr port : UInt8) (closed : List Conn) :
    ∀ a ∈ closed.map Call.close ++ [.connect addr port none], a.silent = true := by
  intro a ha
  rcases List.mem_append.mp ha with ha | ha
  · obtain ⟨d, -, rfl⟩ := List.mem_map.mp ha
    rfl
  · rw [List.mem_singleton.mp ha]
    rfl

/-! ## One send -/

/-- The part of `cspcl_send_bundle` under the pool mutex. -/
theorem sendBundle_eq (hb : bundle.length ≠ 0) (hm : bundle.length ≤ maxBundleSize)
    (hi : p.initialized = true) :
    sendBundle true p bundle addr port true first retry =
      match sendAttempt p bundle addr port first with
      | (p, none, calls) => (p, .connection, calls)
      | (p, some ret, calls) =>
        if ret = cspErrNone then (p, .ok, calls)
        else
          match sendAttempt p bundle addr port retry with
          | (p, none, calls') => (p, sendResult ret, calls ++ calls')
          | (p, some ret', calls') => (p, sendResult ret', calls ++ calls') := by
  have hm' : ¬ maxBundleSize < bundle.length := by omega
  unfold sendBundle
  rw [if_neg hb, if_neg (by simp), if_neg hm', if_neg (by simp [hi])]
  exact if_neg (by simp)

/-- A send is refused and touches nothing, or all its checks passed. -/
theorem sendBundle_refused (initialized : Bool) (p : ConnPool) (bundle : Bundle)
    (addr port : UInt8) (lock : Bool) (first retry : SendEnv) :
    ((sendBundle initialized p bundle addr port lock first retry).1 = p ∧
      (sendBundle initialized p bundle addr port lock first retry).2.2 = []) ∨
    (bundle.length ≠ 0 ∧ bundle.length ≤ maxBundleSize ∧ p.initialized = true ∧
      initialized = true ∧ lock = true) := by
  by_cases h : bundle.length ≠ 0 ∧ bundle.length ≤ maxBundleSize ∧ p.initialized = true ∧
      initialized = true ∧ lock = true
  · exact .inr h
  · left
    unfold sendBundle
    iterate 5 (split; · exact ⟨rfl, rfl⟩)
    refine absurd ⟨‹_›, not_lt.mp ‹_›, ?_, ?_, ?_⟩ h <;> simp_all

theorem sendResult_failed {ret : CspErr} (h : ret ≠ cspErrNone) :
    sendResult ret = if ret = cspErrTimedout then .timeout else .cspSend := by
  simp [sendResult, h]

/-- The outcome of a send on a pool with one entry for each destination. -/
theorem sendOutcome (hu : p.UsedConn) (ho : p.OneEntry) (hb : bundle.length ≠ 0)
    (hm : bundle.length ≤ maxBundleSize) (hi : p.initialized = true) (first retry : SendEnv) :
    SendOutcome p bundle addr port (sendBundle true p bundle addr port true first retry) := by
  rw [sendBundle_eq hb hm hi]
  obtain ⟨hu₁, ho₁, ⟨e, hs₁, he⟩, hend⟩ := attempted_sendAttempt hu ho bundle addr port first
  generalize sendAttempt p bundle addr port first = r₁ at *
  replace he : ∀ k ∈ e, p.Evictable addr port k := fun k hk => (he k hk).1
  cases hend with
  | noConn q closed hno =>
    have hsil := silent_unconnected addr port closed
    refine ⟨?_, ?_, fun _ c b ret hm => ?_, fun _ h => absurd rfl h, ?_, fun _ => hno, e, hs₁, he⟩
    · simp only [reduceCtorEq, false_iff, not_exists]
      exact fun c => not_endsAcked (by simp)
    · simp only [true_iff]
      unfold FirstUnconnected
      rw [List.takeWhile_eq_self_iff.mpr hsil]
      simp
    · simpa [Call.silent, Call.code] using hsil _ hm
    · exact fun c hc => absurd hc (not_endsAcked (by simp))
  | acked q pre c i hd hc hsil hno hnew =>
    refine ⟨?_, ?_, by simp, by simp, ?_, by simp, e, hs₁, he⟩
    · simp only [if_true, true_iff]
      exact ⟨c, endsAcked_iff.mpr rfl⟩
    · simpa using not_firstUnconnected hsil hno
    · intro d hd'
      obtain rfl := endsAcked_iff.mp hd'
      exact ⟨i, hc, fun j => ⟨fun hj => ho₁ addr port j i hj hd, fun hj => hj ▸ hd⟩⟩
  | failed q pre post c code ret i hgone hfree hsil hno hnew hret hlast hpost =>
    simp only [if_neg hret]
    obtain ⟨hu₂, ho₂, ⟨e₂, hs₂, he₂⟩, hend₂⟩ := attempted_sendAttempt hu₁ ho₁ bundle addr port retry
    generalize sendAttempt q bundle addr port retry = r₂ at *
    -- The slot that the first attempt freed is there for the second one.
    obtain rfl : e₂ = none := by
      refine Option.eq_none_iff_forall_not_mem.mpr fun k hk => ?_
      have := (he₂ k hk).1.1 i
      simp [hfree] at this
    have hs := hs₁.trans hs₂
    obtain ⟨calls, hcalls⟩ : ∃ l, l = pre ++ .sfpSend c bundle code :: post ++ [.close c] :=
      ⟨_, rfl⟩
    have hfirst : ∀ l, ¬ FirstUnconnected (calls ++ l) addr port := by
      intro l
      rw [hcalls, List.append_assoc, List.append_assoc]
      exact not_firstUnconnected hsil hno
    have hlast₁ : lastCode calls = some ret := by
      rw [hcalls, List.append_assoc, lastCode_append, lastCode_append, hlast]
      rfl
    rw [← hcalls]
    cases hend₂ with
    | noConn q₂ closed hno₂ =>
      have hsil₂ := silent_unconnected addr port closed
      have hne : sendResult ret ≠ .ok ∧ sendResult ret ≠ .connection := by
        rw [sendResult_failed hret]
        split <;> simp
      refine ⟨?_, ?_, fun h => absurd h hne.2, fun _ _ => ⟨ret, ?_, hret, sendResult_failed hret⟩,
        ?_, fun _ => hno₂, e, hs, he⟩
      · simp only [hne.1, false_iff, not_exists, ← List.append_assoc]
        exact fun c => not_endsAcked (by simp)
      · simp only [hne.2, false_iff]
        exact hfirst _
      · rw [lastCode_append, lastCode_silent hsil₂, hlast₁]
        rfl
      · simp only [← List.append_assoc]
        exact fun c hc => absurd hc (not_endsAcked (by simp))
    | acked q₂ pre₂ d i₂ hd hc hsil₂ hno₂ hnew₂ =>
      have hr : sendResult cspErrNone = .ok := by decide
      simp only [hr, ← List.append_assoc]
      refine ⟨?_, ?_, by simp, by simp, ?_, by simp, e, hs, he⟩
      · simp only [true_iff]
        exact ⟨d, endsAcked_iff.mpr rfl⟩
      · simp only [reduceCtorEq, false_iff]
        rw [List.append_assoc]
        exact hfirst _
      · intro d' hd'
        obtain rfl := endsAcked_iff.mp hd'
        exact ⟨i₂, hc, fun j => ⟨fun hj => ho₂ addr port j i₂ hj hd, fun hj => hj ▸ hd⟩⟩
    | failed q₂ pre₂ post₂ d code₂ ret₂ i₂ hgone₂ hfree₂ hsil₂ hno₂ hnew₂ hret₂ hlast₂ hpost₂ =>
      have hne : sendResult ret₂ ≠ .ok ∧ sendResult ret₂ ≠ .connection := by
        rw [sendResult_failed hret₂]
        split <;> simp
      refine ⟨?_, ?_, fun h => absurd h hne.2,
        fun _ _ => ⟨ret₂, ?_, hret₂, sendResult_failed hret₂⟩, ?_, fun _ => hgone₂, e, hs, he⟩
      · simp only [hne.1, false_iff, not_exists, ← List.append_assoc]
        exact fun c => not_endsAcked (by simp)
      · simp only [hne.2, false_iff]
        exact hfirst _
      · rw [lastCode_append, List.append_assoc, lastCode_append,
          lastCode_append, hlast₂]
        rfl
      · simp only [← List.append_assoc]
        exact fun c hc => absurd hc (not_endsAcked (by simp))

/-- A send keeps one entry for each destination. -/
theorem oneEntry_sendBundle (hu : p.UsedConn) (ho : p.OneEntry) (initialized : Bool)
    (bundle : Bundle) (addr port : UInt8) (lock : Bool) (first retry : SendEnv) :
    (sendBundle initialized p bundle addr port lock first retry).1.OneEntry := by
  rcases sendBundle_refused initialized p bundle addr port lock first retry with
    ⟨h, -⟩ | ⟨hb, hm, hi, rfl, rfl⟩
  · rwa [h]
  · rw [sendBundle_eq hb hm hi]
    obtain ⟨hu₁, ho₁, -, -⟩ := attempted_sendAttempt hu ho bundle addr port first
    generalize sendAttempt p bundle addr port first = r₁ at *
    obtain ⟨p₁, o₁, calls₁⟩ := r₁
    cases o₁ with
    | none => exact ho₁
    | some ret =>
      simp only
      split
      · exact ho₁
      · obtain ⟨-, ho₂, -, -⟩ := attempted_sendAttempt hu₁ ho₁ bundle addr port retry
        generalize sendAttempt p₁ bundle addr port retry = r₂ at *
        obtain ⟨p₂, o₂, calls₂⟩ := r₂
        cases o₂ <;> exact ho₂

/-- An attempt for a destination without an entry sends on a connection that it opened. -/
theorem AttemptEnd.opened {r : ConnPool × Option CspErr × List Call} {b : Bundle} {e : CspErr}
    (h : AttemptEnd p bundle addr port r) (hno : ∀ j, ¬ p.IsDest addr port j)
    (hm : .sfpSend c b e ∈ r.2.2) : .connect addr port (some c) ∈ r.2.2 := by
  have hpre : ∀ {pre : List Call}, (∀ a ∈ pre, a.silent = true) → .sfpSend c b e ∉ pre := by
    intro pre hsil hm
    simpa [Call.silent, Call.code] using hsil _ hm
  cases h with
  | noConn q closed _ => exact absurd hm (hpre (silent_unconnected addr port closed))
  | acked q pre d i _ _ hsil _ hnew =>
    have hsend := (List.mem_append.mp hm).resolve_left (hpre hsil)
    obtain ⟨rfl, -⟩ : c = d ∧ _ := by simpa using hsend
    exact List.mem_append_left _ (hnew hno)
  | failed q pre post d code ret₁ i _ _ hsil _ hnew _ _ hpost =>
    rw [List.append_assoc] at hm ⊢
    have hsend := (List.mem_append.mp hm).resolve_left (hpre hsil)
    obtain ⟨rfl, -⟩ : c = d ∧ _ := by simpa [hpost] using hsend
    exact List.mem_append_left _ (hnew hno)

/-- The retry of a send runs on a connection that the send opened after its first attempt. -/
theorem retry_fresh (hu : p.UsedConn) (ho : p.OneEntry) (initialized : Bool) (bundle : Bundle)
    (addr port : UInt8) (lock : Bool) (first retry : SendEnv) {b : Bundle} {ret : CspErr}
    (hm : .sfpSend c b ret ∈
      afterFirstSend (sendBundle initialized p bundle addr port lock first retry).2.2) :
    .connect addr port (some c) ∈
      afterFirstSend (sendBundle initialized p bundle addr port lock first retry).2.2 := by
  rcases sendBundle_refused initialized p bundle addr port lock first retry with
    ⟨-, h⟩ | ⟨hb, hmax, hi, rfl, rfl⟩
  · rw [h] at hm
    simp [afterFirstSend] at hm
  rw [sendBundle_eq hb hmax hi] at hm ⊢
  obtain ⟨hu₁, ho₁, -, hend⟩ := attempted_sendAttempt hu ho bundle addr port first
  generalize sendAttempt p bundle addr port first = r₁ at *
  cases hend with
  | noConn q closed hno =>
    have hsil := silent_unconnected addr port closed
    simp [afterFirstSend, List.dropWhile_eq_nil_iff.mpr hsil] at hm
  | acked q pre d i hd hc hsil hno hnew =>
    simp [afterFirstSend_append hsil] at hm
  | failed q pre post d code ret₁ i hgone hfree hsil hno hnew hret hlast hpost =>
    simp only [if_neg hret] at hm ⊢
    have hafter : ∀ l, afterFirstSend (pre ++ .sfpSend d bundle code :: post ++ [.close d] ++ l) =
        post ++ [.close d] ++ l := by
      intro l
      rw [List.append_assoc, List.append_assoc]
      exact (afterFirstSend_append hsil).trans (List.append_assoc ..).symm
    have hold : .sfpSend c b ret ∉ post ++ [.close d] := by
      simpa using hpost c b ret
    obtain ⟨-, -, -, hend₂⟩ := attempted_sendAttempt hu₁ ho₁ bundle addr port retry
    have hopened := hend₂.opened (c := c) (b := b) (e := ret) hgone
    generalize sendAttempt q bundle addr port retry = r₂ at *
    obtain ⟨p₂, o₂, calls₂⟩ := r₂
    cases o₂ with
    | none | some ret₂ =>
      simp only [hafter] at hm ⊢
      exact List.mem_append_right _ (hopened ((List.mem_append.mp hm).resolve_left hold))

/-! ## Runs -/

variable {s s' s₀ : PoolRun} {op : PoolOp} {l : List PoolOp}

/-- No call of `cspcl_conn_pool_add`. -/
def NoAdd (_ : PoolRun) : PoolOp → Prop
  | .add .. => False
  | _ => True

instance : ∀ s op, Decidable (NoAdd s op)
  | _, .add .. => inferInstanceAs (Decidable False)
  | _, .init .. | _, .send .. | _, .cleanup .. => inferInstanceAs (Decidable True)

/-- An add that stores its connection is for a destination without an entry, or whose entry is the
one that the add evicts. -/
def AddsOnce (s : PoolRun) : PoolOp → Prop
  | .add addr port _ lock _ => s.pool.initialized = true → lock = true →
      ∀ i, s.pool.IsDest addr port i → s.pool.firstFree = none ∧ i = s.pool.lru
  | _ => True

instance : ∀ s op, Decidable (AddsOnce s op)
  | _, .add .. => inferInstanceAs (Decidable (_ → _ → _))
  | _, .init .. | _, .send .. | _, .cleanup .. => inferInstanceAs (Decidable True)

theorem oneEntry_of_unused (h : ∀ i, (p.entries i).used = false) : p.OneEntry := by
  intro a b i j hi
  have := hi.1
  simp [h i] at this

/-- An add keeps one entry for each destination exactly if the destination has none besides the one
that the add evicts. -/
theorem oneEntry_add_iff (ho : p.OneEntry) (c : Conn) (now : Int) (hi : p.initialized = true) :
    (p.add addr port c true now).1.OneEntry ↔
      ∀ i, p.IsDest addr port i → p.firstFree = none ∧ i = p.lru := by
  have hadd : (p.add addr port c true now).1 =
      p.bump.findFreeOrEvictLocked.1.store p.bump.findFreeOrEvictLocked.2.1 addr port c now := by
    simp [ConnPool.add, hi]
  -- The slot taken: `q` is the table with that slot free.
  obtain ⟨q, slot, hq, hfree, hkeep, hdest⟩ : ∃ (q : ConnPool) (slot : Fin connPoolSize),
      (p.add addr port c true now).1 = q.store slot addr port c now ∧
      (q.entries slot).used = false ∧ q.OneEntry ∧
      ((∀ i, ¬ q.IsDest addr port i) ↔
        ∀ i, p.IsDest addr port i → p.firstFree = none ∧ i = p.lru) := by
    rcases findFreeOrEvictLocked_cases (p := p.bump) with ⟨i, hf, hq⟩ | ⟨hf, hq⟩ <;>
      rw [hq] at hadd
    · replace hf : p.firstFree = some i := hf
      refine ⟨_, _, hadd, (firstFree_eq_some.mp hf).1, ho, ?_⟩
      simp only [hf, reduceCtorEq, false_and, imp_false]
      rfl
    · replace hf : p.firstFree = none := hf
      refine ⟨_, _, hadd, by simp [evictLru, entries_clear], ?_, ?_⟩
      · intro a b i j hi hj
        exact ho a b i j (isDest_of_clear (p := p.bump) hi).2 (isDest_of_clear (p := p.bump) hj).2
      · simp only [hf, true_and]
        constructor
        · intro h i hi
          by_contra hne
          refine h i ((isDest_congr ?_).mpr hi)
          show (p.bump.clear p.lru).entries i = _
          rw [entries_clear, if_neg hne]
          rfl
        · intro h i hi
          obtain ⟨hne, hi⟩ := isDest_of_clear (p := p.bump) hi
          exact hne (h i hi)
  rw [hq, ← hdest]
  have hs : Spares addr port none q (q.store slot addr port c now) := spares_store hfree
  have hslot : (q.store slot addr port c now).IsDest addr port slot := by
    simp [IsDest, entries_store]
  constructor
  · intro h i hi
    have hne : i ≠ slot := by
      rintro rfl
      have := hi.1
      simp [hfree] at this
    refine hne (h addr port i slot ((isDest_congr ?_).mpr hi) hslot)
    rw [entries_store, if_neg hne]
  · intro h
    refine hs.oneEntry hkeep fun i j hi hj => ?_
    have hi' := (isDest_store hi).resolve_right (h i)
    have hj' := (isDest_store hj).resolve_right (h j)
    exact hi'.trans hj'.symm

/-- Of the calls of the API, only an add can give a destination a second entry. -/
theorem oneEntry_step (hinv : PoolInv s) (ho : s.pool.OneEntry) (hs : poolStep s op = some s') :
    s'.pool.OneEntry ↔ AddsOnce s op := by
  cases op with
  | init mutex maxAgeEnv =>
    simp only [AddsOnce, iff_true]
    simp only [poolStep] at hs
    split at hs
    · cases hs
    · cases hs
      refine oneEntry_of_unused fun i => ?_
      unfold ConnPool.init
      split <;> rfl
  | send initialized bundle addr port lock first retry =>
    simp only [AddsOnce, iff_true]
    simp only [poolStep] at hs
    split at hs
    · cases hs
      exact oneEntry_sendBundle hinv.owns.usedConn ho initialized bundle addr port lock first retry
    · cases hs
  | add addr port c lock now =>
    simp only [poolStep] at hs
    split at hs
    · cases hs
    · cases hs
      simp only [AddsOnce]
      by_cases h : s.pool.initialized = true ∧ lock = true
      · obtain ⟨hi, rfl⟩ := h
        simpa [hi] using oneEntry_add_iff ho c now hi
      · have hadd : (s.pool.add addr port c lock now).1 = s.pool := by
          unfold ConnPool.add
          split
          · rfl
          split
          · rfl
          · simp_all
        simp only [hadd]
        exact ⟨fun _ hi hl => absurd ⟨hi, hl⟩ h, fun _ => ho⟩
  | cleanup lock =>
    simp only [AddsOnce, iff_true]
    simp only [poolStep, Option.some.injEq] at hs
    subst hs
    unfold ConnPool.cleanup
    split
    · exact ho
    · exact oneEntry_of_unused fun i => rfl

/-- What one entry for each destination gives in the state `s`. -/
structure OneConn (s : PoolRun) : Prop where
  one : s.pool.OneEntry
  /-- After a send that failed, no entry of its destination is left. -/
  none_lingers : ∀ initialized bundle addr port lock first retry,
    let r := sendBundle initialized s.pool bundle addr port lock first retry
    r.2.2 ≠ [] → r.2.1 ≠ .ok → ∀ i, ¬ r.1.IsDest addr port i
  /-- What is sent after the first attempt is sent on a connection opened after it. -/
  retry_fresh : ∀ initialized bundle addr port lock first retry c b ret,
    let r := sendBundle initialized s.pool bundle addr port lock first retry
    .sfpSend c b ret ∈ afterFirstSend r.2.2 → .connect addr port (some c) ∈ afterFirstSend r.2.2

theorem oneConn (hinv : PoolInv s) (ho : s.pool.OneEntry) : OneConn s := by
  refine ⟨ho, fun initialized bundle addr port lock first retry => ?_,
    fun initialized bundle addr port lock first retry c b ret hm =>
      retry_fresh hinv.owns.usedConn ho initialized bundle addr port lock first retry hm⟩
  intro r hne hfail
  rcases sendBundle_refused initialized s.pool bundle addr port lock first retry with
    ⟨-, h⟩ | ⟨hb, hm, hi, rfl, rfl⟩
  · exact absurd h hne
  · exact (sendOutcome hinv.owns.usedConn ho hb hm hi first retry).dropped hfail

theorem poolZero_oneEntry : ConnPool.zero.OneEntry := oneEntry_of_unused fun _ => rfl

/-- In every run of the pool whose adds are each for a destination without an entry, no
destination has two entries, a failed send leaves none, and a retry is on a new connection. Those
are the runs with one entry for each destination throughout. -/
theorem one_entry_iff (hr : poolSys.Run ⟨ConnPool.zero, []⟩ l s) :
    ((∀ l₁ l₂ u, l = l₁ ++ l₂ → poolSys.Run ⟨ConnPool.zero, []⟩ l₁ u → u.pool.OneEntry) ↔
      (poolSys.guard AddsOnce).Run ⟨ConnPool.zero, []⟩ l s) ∧
    ((poolSys.guard AddsOnce).Run ⟨ConnPool.zero, []⟩ l s →
      ∀ l₁ l₂ u, l = l₁ ++ l₂ → poolSys.Run ⟨ConnPool.zero, []⟩ l₁ u → OneConn u) := by
  have hinv := poolInv_inductive.init ⟨ConnPool.zero, []⟩ rfl
  have hiff := poolInv_inductive.along_guard_iff (P := fun s => s.pool.OneEntry)
    (fun s a s' hj hP hs => oneEntry_step hj hP hs) hr hinv poolZero_oneEntry
  refine ⟨hiff, fun hg l₁ l₂ u hl hu => ?_⟩
  exact oneConn (poolInv_inductive.run hu hinv) (hiff.mpr hg l₁ l₂ u hl hu)

/-- An add, then a send whose first attempt on the added connection fails. -/
def addThenRetryRun : List PoolOp :=
  [.init true none, .add 5 10 7 true 0,
    .send true [1, 2] 5 10 true ⟨⟨0, 0, none⟩, 0, false⟩ ⟨⟨0, 0, some 8⟩, 0, true⟩]

theorem one_entry_iff_retry :
    ∃ s, poolSys.exec ⟨ConnPool.zero, []⟩ addThenRetryRun = some s ∧ s.opened = [7, 8] ∧
      OneConn s := by
  obtain ⟨s, hs⟩ :
      ∃ s, (poolSys.guard AddsOnce).exec ⟨ConnPool.zero, []⟩ addThenRetryRun = some s :=
    ⟨_, rfl⟩
  have hg := Lts.run_iff_exec.mpr hs
  have hr := hg.of_guard
  have ho : ((poolSys.guard AddsOnce).exec ⟨ConnPool.zero, []⟩ addThenRetryRun).map
      PoolRun.opened = some [7, 8] := by decide +kernel
  rw [hs, Option.map_some, Option.some.injEq] at ho
  exact ⟨s, Lts.run_iff_exec.mp hr, ho,
    (one_entry_iff hr).2 hg _ [] s (List.append_nil _).symm hr⟩

/-- Three adds for one destination. -/
def addThreeRun : List PoolOp :=
  [.init true none, .add 5 10 0 true 0, .add 5 10 1 true 0, .add 5 10 2 true 0]

/-- `cspcl_conn_pool_add` does not look for an entry of its destination. After three adds for one
destination, a send that fails twice has tried two cached connections, and the third one stays. -/
theorem second_entry_add :
    ∃ s, poolSys.Reach s ∧ ¬ s.pool.OneEntry ∧
      ∃ r, r = sendBundle true s.pool [1] 5 10 true ⟨⟨0, 0, none⟩, 0, false⟩
          ⟨⟨0, 0, none⟩, 0, false⟩ ∧
        r.2.1 = .timeout ∧ r.1.IsDest 5 10 2 ∧ (r.1.entries 2).conn = some 2 ∧
        r.2.2 = [.sfpSend 0 [1] 0, .read 0 false, .close 0,
          .sfpSend 1 [1] 0, .read 1 false, .close 1] := by
  obtain ⟨s, hs⟩ : ∃ s, poolSys.exec ⟨ConnPool.zero, []⟩ addThreeRun = some s := ⟨_, rfl⟩
  have hone : (poolSys.exec ⟨ConnPool.zero, []⟩ addThreeRun).map
      (fun s => decide (s.pool.IsDest 5 10 0 ∧ s.pool.IsDest 5 10 1)) = some true := by
    decide +kernel
  have hsend : (poolSys.exec ⟨ConnPool.zero, []⟩ addThreeRun).map (fun s =>
      (sendBundle true s.pool [1] 5 10 true ⟨⟨0, 0, none⟩, 0, false⟩
        ⟨⟨0, 0, none⟩, 0, false⟩).2) =
      some (.timeout, [.sfpSend 0 [1] 0, .read 0 false, .close 0,
        .sfpSend 1 [1] 0, .read 1 false, .close 1]) := by decide +kernel
  have hlinger : (poolSys.exec ⟨ConnPool.zero, []⟩ addThreeRun).map (fun s =>
      (sendBundle true s.pool [1] 5 10 true ⟨⟨0, 0, none⟩, 0, false⟩
        ⟨⟨0, 0, none⟩, 0, false⟩).1.entries 2) = some ⟨true, 5, 10, some 2, 3, 0⟩ := by
    decide +kernel
  rw [hs, Option.map_some, Option.some.injEq] at hone hsend hlinger
  obtain ⟨h0, h1⟩ := of_decide_eq_true hone
  refine ⟨s, .of_exec rfl hs, fun ho => ?_, _, rfl, by rw [hsend], by simp [IsDest, hlinger],
    by rw [hlinger], by rw [hsend]⟩
  have := ho 5 10 0 1 h0 h1
  simp at this

/-- One entry for each destination in every run without an add. -/
theorem oneEntry_noAdd :
    (poolSys.guard NoAdd).Inductive fun s => PoolInv s ∧ s.pool.OneEntry := by
  refine poolInv_inductive.guard.given ?_ ?_
  · rintro s rfl
    exact poolZero_oneEntry
  · intro s op s' hinv ho hs
    obtain ⟨hok, hs⟩ := Lts.guard_step.mp hs
    refine (oneEntry_step hinv ho hs).mpr ?_
    cases op with
    | add addr port c lock now => exact absurd hok id
    | init mutex maxAgeEnv => trivial
    | send initialized bundle addr port lock first retry => trivial
    | cleanup lock => trivial

/-- Every send on a pool that any run without `cspcl_conn_pool_add` reached has its outcome; on a
pool that is not initialized it does nothing. -/
theorem send_outcome (hs : (poolSys.guard NoAdd).Reach s) (hb : bundle ≠ [])
    (hm : bundle.length ≤ maxBundleSize) (first retry : SendEnv) :
    (s.pool.initialized = true →
      SendOutcome s.pool bundle addr port
        (sendBundle true s.pool bundle addr port true first retry)) ∧
    (s.pool.initialized = false →
      sendBundle true s.pool bundle addr port true first retry =
        (s.pool, .notInitialized, [])) := by
  obtain ⟨hinv, ho⟩ := oneEntry_noAdd.reach hs
  have hb' : bundle.length ≠ 0 := by simpa using hb
  constructor
  · intro hi
    exact sendOutcome hinv.owns.usedConn ho hb' hm hi first retry
  · intro hi
    have hm' : ¬ maxBundleSize < bundle.length := by omega
    simp [sendBundle, hb', hm', hi]

/-- A retry that is acked, seen by the theorem on the state before the send. -/
theorem send_outcome_retry :
    ∃ s, (poolSys.guard NoAdd).Reach s ∧
      SendOutcome s.pool [1, 2] 5 10 (sendBundle true s.pool [1, 2] 5 10 true
        ⟨⟨0, 0, some 0⟩, 0, false⟩ ⟨⟨0, 0, some 1⟩, 0, true⟩) := by
  obtain ⟨s, hs⟩ : ∃ s, (poolSys.guard NoAdd).exec ⟨ConnPool.zero, []⟩ [.init true none] = some s :=
    ⟨_, rfl⟩
  have hi : ((poolSys.guard NoAdd).exec ⟨ConnPool.zero, []⟩ [.init true none]).map
      (fun s => s.pool.initialized) = some true := by decide +kernel
  rw [hs, Option.map_some, Option.some.injEq] at hi
  have hreach : (poolSys.guard NoAdd).Reach s := .of_exec rfl hs
  exact ⟨s, hreach, (send_outcome hreach (by simp) (by decide) _ _).1 hi⟩

/-- After a cleanup a send is none of these: it is refused with `CSPCL_ERR_NOT_INITIALIZED`. -/
theorem send_after_cleanup :
    ∃ s, (poolSys.guard NoAdd).Reach s ∧
      (sendBundle true s.pool [1, 2] 5 10 true ⟨⟨0, 0, some 0⟩, 0, true⟩
        ⟨⟨0, 0, some 1⟩, 0, true⟩).2 = (.notInitialized, []) := by
  obtain ⟨s, hs⟩ : ∃ s, (poolSys.guard NoAdd).exec ⟨ConnPool.zero, []⟩
      [.init true none, .cleanup true] = some s := ⟨_, rfl⟩
  refine ⟨s, .of_exec rfl hs, ?_⟩
  have hf : ((poolSys.guard NoAdd).exec ⟨ConnPool.zero, []⟩ [.init true none, .cleanup true]).map
      (fun s => (sendBundle true s.pool [1, 2] 5 10 true ⟨⟨0, 0, some 0⟩, 0, true⟩
        ⟨⟨0, 0, some 1⟩, 0, true⟩).2) = some (.notInitialized, []) := by decide +kernel
  simpa [hs] using hf

end Cspcl
