import Cspcl.Pool.Runs

/-!
# The entries of one destination, and those of the others

* `OneEntry`: no destination has two used entries.
* `Spares`: an operation for one destination leaves the entries of the others as they are, except
  for the one that it evicts.
* `getOrCreateLocked_spec`, `attempted_sendAttempt`: what a lookup and one attempt to send do to
  both, and how the attempt ends (`AttemptEnd`).
-/

namespace Cspcl
namespace ConnPool

variable {p p' q q' : ConnPool} {i j : Fin connPoolSize} {addr port : UInt8} {c : Conn} {now : Int}
  {e : Option (Fin connPoolSize)}

/-- No destination has two used entries. -/
def OneEntry (p : ConnPool) : Prop :=
  ∀ addr port i j, p.IsDest addr port i → p.IsDest addr port j → i = j

instance (p : ConnPool) (addr port : UInt8) (i : Fin connPoolSize) :
    Decidable (p.IsDest addr port i) :=
  inferInstanceAs (Decidable (_ ∧ _))

/-- From `p` to `p'` the used entries of destinations other than `addr`, `port` are unchanged,
except for that of slot `e`, and there are no new ones. -/
structure Spares (addr port : UInt8) (e : Option (Fin connPoolSize)) (p p' : ConnPool) : Prop where
  kept : ∀ j, (p.entries j).used = true → ¬ p.IsDest addr port j → j ∉ e →
    p'.entries j = p.entries j
  old : ∀ j, (p'.entries j).used = true → ¬ p'.IsDest addr port j → p'.entries j = p.entries j

theorem isDest_congr (h : p'.entries j = p.entries j) :
    p'.IsDest addr port j ↔ p.IsDest addr port j := by
  unfold IsDest
  rw [h]

theorem Spares.refl (p : ConnPool) : Spares addr port none p p :=
  ⟨fun _ _ _ _ => rfl, fun _ _ _ => rfl⟩

theorem Spares.trans {p'' : ConnPool} (h : Spares addr port e p p')
    (h' : Spares addr port none p' p'') : Spares addr port e p p'' where
  kept j hu hd he := by
    have hj := h.kept j hu hd he
    rw [h'.kept j (by rwa [hj]) (by rwa [isDest_congr hj]) (by simp), hj]
  old j hu hd := by
    have hj := h'.old j hu hd
    rw [hj, h.old j (by rwa [← hj]) (by rwa [← isDest_congr hj])]

/-- A call that changes only entries of its destination keeps the others apart. -/
theorem Spares.oneEntry (h : Spares addr port e p p') (ho : p.OneEntry)
    (hd : ∀ i j, p'.IsDest addr port i → p'.IsDest addr port j → i = j) : p'.OneEntry := by
  intro a b i j hi hj
  by_cases hab : a = addr ∧ b = port
  · obtain ⟨rfl, rfl⟩ := hab
    exact hd i j hi hj
  · have hne : ∀ k, p'.IsDest a b k → ¬ p'.IsDest addr port k := by
      intro k hk hk'
      exact hab ⟨hk.2.1.symm.trans hk'.2.1, hk.2.2.symm.trans hk'.2.2⟩
    apply ho a b i j
    · rwa [← isDest_congr (h.old i hi.1 (hne i hi))]
    · rwa [← isDest_congr (h.old j hj.1 (hne j hj))]

/-! ## The updates -/

/-- Closing an entry of the destination. -/
theorem spares_clear (hd : p.IsDest addr port i) : Spares addr port none p (p.clear i) where
  kept j _ hj _ := by
    rw [entries_clear, if_neg]
    rintro rfl
    exact hj hd
  old j hu _ := by
    rw [entries_clear] at hu ⊢
    split at hu
    · simp at hu
    · rw [if_neg ‹_›]

/-- Closing any entry. -/
theorem spares_evict (i : Fin connPoolSize) : Spares addr port (some i) p (p.clear i) where
  kept j _ _ hj := by
    rw [entries_clear, if_neg]
    rintro rfl
    exact hj rfl
  old j hu _ := by
    rw [entries_clear] at hu ⊢
    split at hu
    · simp at hu
    · rw [if_neg ‹_›]

/-- A new entry of the destination in an unused slot. -/
theorem spares_store (hi : (p.entries i).used = false) :
    Spares addr port none p (p.store i addr port c now) where
  kept j hu _ _ := by
    rw [entries_store, if_neg]
    rintro rfl
    rw [hi] at hu
    cases hu
  old j _ hd := by
    rw [entries_store, if_neg]
    rintro rfl
    exact hd (by simp [IsDest, entries_store])

/-- After a store the destination has its new entry, and those it had. -/
theorem isDest_store (h : (p.store i addr port c now).IsDest addr port j) :
    j = i ∨ p.IsDest addr port j := by
  by_cases hji : j = i
  · exact .inl hji
  · refine .inr ((isDest_congr ?_).mp h)
    rw [entries_store, if_neg hji]

theorem isDest_touch {a b : UInt8} : (p.touch i).IsDest a b j ↔ p.IsDest a b j := by
  unfold IsDest
  rw [entries_touch]
  split
  · subst_vars; rfl
  · rfl

theorem spares_touch (hd : p.IsDest addr port i) : Spares addr port none p (p.touch i) where
  kept j _ hj _ := by
    rw [entries_touch, if_neg]
    rintro rfl
    exact hj hd
  old j _ hj := by
    rw [entries_touch, if_neg]
    rintro rfl
    exact hj (isDest_touch.mpr hd)

/-- Only the entries matter. -/
theorem Spares.same (h : Spares addr port e p p') (hq : q.entries = p.entries)
    (hq' : q'.entries = p'.entries) : Spares addr port e q q' := by
  constructor
  · intro j hu hd he
    rw [hq] at hu ⊢
    rw [hq', h.kept j hu (fun hj => hd ((isDest_congr (congrFun hq j)).mpr hj)) he]
  · intro j hu hd
    rw [hq'] at hu ⊢
    rw [hq, h.old j hu fun hj => hd ((isDest_congr (congrFun hq' j)).mpr hj)]

/-! ## The lookup -/

/-- The connect for an unused slot, of a destination without an entry. -/
theorem connectInto_spec (env : GetEnv) (hi : (p.entries i).used = false)
    (hno : ∀ j, ¬ p.IsDest addr port j) :
    Spares addr port none p (p.connectInto i addr port env).1 ∧
      (∀ j, (p.connectInto i addr port env).1.IsDest addr port j →
        j = i ∧ env.connect ≠ none) ∧
      (p.connectInto i addr port env).2.1 = env.connect := by
  cases hc : env.connect with
  | none =>
    obtain ⟨he, hr⟩ := connectInto_none p i addr port hc
    refine ⟨(Spares.refl p).same rfl he, fun j hj => ?_, hr⟩
    exact absurd ((isDest_congr (congrFun he j)).mp hj) (hno j)
  | some c =>
    obtain ⟨he, hr⟩ := connectInto_some p i addr port hc
    refine ⟨(spares_store hi).same rfl he, fun j hj => ⟨?_, by simp⟩, hr⟩
    rcases isDest_store ((isDest_congr (congrFun he j)).mp hj) with h | h
    · exact h
    · exact absurd h (hno j)

/-- The least recently used slot, which both copies of the eviction take. -/
def lru (p : ConnPool) : Fin connPoolSize := Table.leastIdx fun i => (p.entries i).lastUsed.toNat

/-- What `cspcl_pool_get_or_create_locked` does to the entries: it leaves those of the other
destinations alone, except for an eviction from a full table without an entry of the destination,
and afterwards the destination has one entry, with the connection returned, or none. -/
theorem getOrCreateLocked_spec (hu : p.UsedConn) (ho : p.OneEntry) (addr port : UInt8)
    (env : GetEnv) :
    (∃ e, Spares addr port e p (p.getOrCreateLocked addr port env).1 ∧
      ∀ k ∈ e, (∀ j, (p.entries j).used = true) ∧ (∀ j, ¬ p.IsDest addr port j) ∧
        k = p.lru ∧ ∃ c, (p.entries k).conn = some c ∧
          .close c ∈ (p.getOrCreateLocked addr port env).2.2) ∧
    (p.getOrCreateLocked addr port env).1.OneEntry ∧
    ((p.getOrCreateLocked addr port env).2.1 = none →
      ∀ j, ¬ (p.getOrCreateLocked addr port env).1.IsDest addr port j) := by
  rcases getOrCreateLocked_cases addr port hu env with
    ⟨i, c, hf, -, -, he⟩ | ⟨i, c, f, r, hf, hc, -, hff, rfl, he⟩ | ⟨q, r, hf, rfl, rfl, he⟩ <;>
    rw [he]
  · -- A hit: nothing but a tick changes.
    have hd := (findDest_eq_some.mp hf).1
    have hs : Spares addr port none p (p.bump.touch i) :=
      (spares_touch (p := p.bump) hd).same rfl rfl
    refine ⟨⟨none, hs, by simp⟩, hs.oneEntry ho fun k j hk hj => ?_, by simp⟩
    exact ho addr port k j (isDest_touch (p := p.bump).mp hk) (isDest_touch (p := p.bump).mp hj)
  · -- The entry was too old: it is the only one of the destination.
    have hd := (findDest_eq_some.mp hf).1
    have hno : ∀ j, ¬ (p.bump.clear i).countInvalidation.IsDest addr port j := by
      intro j hj
      obtain ⟨hne, hj⟩ := isDest_of_clear (p := p.bump) hj
      exact hne (ho addr port j i hj hd)
    have hfree : ((p.bump.clear i).countInvalidation.entries f).used = false :=
      (firstFree_eq_some.mp hff).1
    obtain ⟨hs, hdest, hr⟩ := connectInto_spec env hfree hno
    have hclear : Spares addr port none p (p.bump.clear i).countInvalidation :=
      (spares_clear (p := p.bump) hd).same rfl rfl
    have hs' := hclear.trans hs
    refine ⟨⟨none, hs', by simp⟩, hs'.oneEntry ho fun k j hk hj => ?_, fun hn j hj => ?_⟩
    · exact (hdest k hk).1.trans (hdest j hj).1.symm
    · exact (hdest j hj).2 (hr.symm.trans hn)
  · have hno := findDest_eq_none.mp hf
    rcases findFreeOrEvictLocked_cases (p := p.bump) with ⟨i, hi, hq⟩ | ⟨hi, hq⟩ <;> rw [hq]
    · -- An unused slot.
      have hfree : (p.bump.entries i).used = false := (firstFree_eq_some.mp hi).1
      obtain ⟨hs, hdest, hr⟩ := connectInto_spec env hfree hno
      have hs' : Spares addr port none p (p.bump.connectInto i addr port env).1 := hs.same rfl rfl
      refine ⟨⟨none, hs', by simp⟩, hs'.oneEntry ho fun k j hk hj => ?_, fun hn j hj => ?_⟩
      · exact (hdest k hk).1.trans (hdest j hj).1.symm
      · exact (hdest j hj).2 (hr.symm.trans hn)
    · -- The eviction.
      have hall : ∀ j, (p.entries j).used = true := firstFree_eq_none.mp hi
      obtain ⟨d, hd⟩ := Option.ne_none_iff_exists'.mp (hu p.lru (hall p.lru))
      have hno' : ∀ j, ¬ p.bump.evictLru.1.IsDest addr port j := by
        intro j hj
        exact hno j (isDest_of_clear (p := p.bump) hj).2
      have hfree : (p.bump.evictLru.1.entries p.bump.evictLru.2.1).used = false := by
        simp [evictLru, entries_clear]
      obtain ⟨hs, hdest, hr⟩ := connectInto_spec env hfree hno'
      have hev : Spares addr port (some p.lru) p p.bump.evictLru.1 :=
        (spares_evict (p := p.bump) p.lru).same rfl rfl
      have hs' := hev.trans hs
      refine ⟨⟨_, hs', ?_⟩, hs'.oneEntry ho fun k j hk hj => ?_, fun hn j hj => ?_⟩
      · intro k hk
        obtain rfl := Option.mem_some_iff.mp hk
        refine ⟨hall, hno, rfl, d, hd, List.mem_append_left _ ?_⟩
        have hcl : p.bump.evictLru.2.2 = [.close d] := by
          show p.closeCalls p.lru = _
          rw [closeCalls, hd]
        simp [hcl]
      · exact (hdest k hk).1.trans (hdest j hj).1.symm
      · exact (hdest j hj).2 (hr.symm.trans hn)

theorem UsedConn.clear (hu : p.UsedConn) : (p.clear i).UsedConn := by
  intro j hj
  rw [entries_clear] at hj ⊢
  split at hj
  · cases hj
  · rw [if_neg ‹_›]
    exact hu j hj

/-- The used entries still have a connection after a lookup. -/
theorem usedConn_getOrCreateLocked (hu : p.UsedConn) (addr port : UInt8) (env : GetEnv) :
    (p.getOrCreateLocked addr port env).1.UsedConn := by
  have hconn : ∀ {p : ConnPool} (i), p.UsedConn → (p.connectInto i addr port env).1.UsedConn := by
    intro p i hu j hj
    cases hc : env.connect with
    | none =>
      rw [(connectInto_none _ _ _ _ hc).1] at hj ⊢
      exact hu j hj
    | some c =>
      rw [(connectInto_some p i addr port hc).1, entries_store] at hj ⊢
      split at hj
      · rw [if_pos ‹_›]
        simp
      · rw [if_neg ‹_›]
        exact hu j hj
  rcases getOrCreateLocked_cases addr port hu env with
    ⟨i, d, -, -, -, he⟩ | ⟨i, d, f, r, -, -, -, -, rfl, he⟩ | ⟨q, r, -, rfl, rfl, he⟩ <;> rw [he]
  · intro j hj
    rw [entries_touch] at hj ⊢
    split at hj
    · rw [if_pos ‹_›]
      exact hu i hj
    · rw [if_neg ‹_›]
      exact hu j hj
  · exact hconn f (UsedConn.clear (p := p.bump) hu)
  · apply hconn
    rcases findFreeOrEvictLocked_cases (p := p.bump) with ⟨i, -, hq⟩ | ⟨-, hq⟩ <;> rw [hq]
    · exact hu
    · exact UsedConn.clear (p := p.bump) hu

/-- The calls of a lookup: none, if it is a hit, else some closes and the connect. -/
theorem calls_getOrCreateLocked (hu : p.UsedConn) (addr port : UInt8) (env : GetEnv) :
    ((p.getOrCreateLocked addr port env).2.2 = [] ∧
      ∃ i c, p.IsDest addr port i ∧ (p.entries i).conn = some c ∧
        (p.getOrCreateLocked addr port env).2.1 = some c) ∨
    (∃ closed : List Conn, (p.getOrCreateLocked addr port env).2.2 =
        closed.map .close ++ [.connect addr port env.connect] ∧
      (p.getOrCreateLocked addr port env).2.1 = env.connect) := by
  have hconn : ∀ (q : ConnPool) i, (q.connectInto i addr port env).2 =
      (env.connect, [.connect addr port env.connect]) := by
    intro q i
    unfold connectInto
    cases env.connect <;> rfl
  rcases getOrCreateLocked_cases addr port hu env with
    ⟨i, d, hf, hd, -, he⟩ | ⟨i, d, f, r, -, -, -, -, rfl, he⟩ | ⟨q, r, -, rfl, rfl, he⟩ <;> rw [he]
  · exact .inl ⟨rfl, i, d, (findDest_eq_some.mp hf).1, hd, rfl⟩
  · exact .inr ⟨[d], by simp [hconn], by simp [hconn]⟩
  · right
    rcases findFreeOrEvictLocked_cases (p := p.bump) with ⟨i, -, hq⟩ | ⟨-, hq⟩ <;> rw [hq]
    · exact ⟨[], by simp [hconn], by simp [hconn]⟩
    · refine ⟨(p.entries p.lru).conn.toList, ?_, by simp [hconn]⟩
      have hcl : p.bump.evictLru.2.2 = ((p.entries p.lru).conn.toList).map .close := by
        show p.closeCalls p.lru = _
        unfold closeCalls
        cases (p.entries p.lru).conn <;> rfl
      simp [hconn, hcl]

end ConnPool

/-! ## One attempt -/

open ConnPool

variable {p : ConnPool} {bundle : Bundle} {addr port : UInt8}

/-- The code that `csp_sfp_send` or the wait for the ack returned. -/
def Call.code : Call → Option CspErr
  | .sfpSend _ _ ret => some ret
  | .read _ packet => some (if packet then cspErrNone else cspErrTimedout)
  | _ => none

/-- The code of the last attempt that had a connection. -/
def lastCode (calls : List Call) : Option CspErr := (calls.filterMap Call.code).getLast?

/-- What one attempt does after its lookup: it has no connection; or the bundle was sent on `c` and
acked; or it failed with `ret`, and the first entry of the destination, that of `c`, is dropped. -/
theorem sendAttempt_cases {q : ConnPool} {r : Option Conn} {calls : List Call} {env : SendEnv}
    (hu : p.UsedConn) (bundle : Bundle)
    (hg : p.getOrCreateLocked addr port env.toGetEnv = (q, r, calls)) :
    (r = none ∧ sendAttempt p bundle addr port env = (q, none, calls)) ∨
    (∃ c, r = some c ∧ sendAttempt p bundle addr port env =
      (q, some cspErrNone, calls ++ [.sfpSend c bundle cspErrNone, .read c true])) ∨
    (∃ c i ret io, r = some c ∧ q.IsDest addr port i ∧ (q.entries i).conn = some c ∧
      ret ≠ cspErrNone ∧ lastCode io = some ret ∧
      (∃ code post, io = .sfpSend c bundle code :: post ∧ ∀ d b r, .sfpSend d b r ∉ post) ∧
      q.invalidateLocked addr port = ((q.clear i).countInvalidation, [.close c]) ∧
      sendAttempt p bundle addr port env =
        ((q.clear i).countInvalidation, some ret, calls ++ io ++ [.close c])) := by
  cases r with
  | none => exact .inl ⟨rfl, by simp [sendAttempt, hg]⟩
  | some c =>
    right
    obtain ⟨i, hfind, hi⟩ := serves_getOrCreateLocked hu env.toGetEnv (c := c) (by rw [hg])
    rw [hg] at hfind hi
    simp only at hfind hi
    have hinv : q.invalidateLocked addr port = ((q.clear i).countInvalidation, [.close c]) := by
      unfold invalidateLocked closeCalls
      rw [hfind]
      simp only [hi]
    have hd := (findDest_eq_some.mp hfind).1
    by_cases hs : env.sfpSend = cspErrNone
    · cases ha : env.ack with
      | true =>
        refine .inl ⟨c, rfl, ?_⟩
        simp [sendAttempt, hg, sendAndConfirm, waitAck, hs, ha]
      | false =>
        have hne : cspErrTimedout ≠ cspErrNone := by decide
        refine .inr ⟨c, i, cspErrTimedout, [.sfpSend c bundle cspErrNone, .read c false], rfl, hd,
          hi, hne, ?_, ⟨_, _, rfl, ?_⟩, hinv, ?_⟩
        · simp [lastCode, Call.code]
        · simp
        · simp [sendAttempt, hg, sendAndConfirm, waitAck, hs, ha, hne, hinv]
    · refine .inr ⟨c, i, env.sfpSend, [.sfpSend c bundle env.sfpSend], rfl, hd, hi, hs, ?_,
        ⟨_, _, rfl, ?_⟩, hinv, ?_⟩
      · simp [lastCode, Call.code]
      · simp
      · simp [sendAttempt, hg, sendAndConfirm, hs, hinv]

/-- No call of `csp_sfp_send` and no wait for an ack. -/
def Call.silent (a : Call) : Bool := a.code.isNone

/-- Slot `k` may be evicted for the destination: all slots are used, none of them for it, and `k`
is the least recently used one. -/
def ConnPool.Evictable (p : ConnPool) (addr port : UInt8) (k : Fin connPoolSize) : Prop :=
  (∀ j, (p.entries j).used = true) ∧ (∀ j, ¬ p.IsDest addr port j) ∧ k = p.lru

/-- How one attempt ends: without a connection; acked; or failed, with the entry dropped. The
calls before `csp_sfp_send` open a connection if the destination had no entry. -/
inductive AttemptEnd (p : ConnPool) (bundle : Bundle) (addr port : UInt8) :
    ConnPool × Option CspErr × List Call → Prop
  | noConn (q : ConnPool) (closed : List Conn) : (∀ j, ¬ q.IsDest addr port j) →
      AttemptEnd p bundle addr port (q, none, closed.map .close ++ [.connect addr port none])
  | acked (q : ConnPool) (pre : List Call) (c : Conn) (i : Fin connPoolSize) :
      q.IsDest addr port i → (q.entries i).conn = some c → (∀ a ∈ pre, a.silent) →
      .connect addr port none ∉ pre →
      ((∀ j, ¬ p.IsDest addr port j) → .connect addr port (some c) ∈ pre) →
      AttemptEnd p bundle addr port
        (q, some cspErrNone, pre ++ [.sfpSend c bundle cspErrNone, .read c true])
  | failed (q : ConnPool) (pre post : List Call) (c : Conn) (code ret : CspErr)
      (i : Fin connPoolSize) :
      (∀ j, ¬ q.IsDest addr port j) → (q.entries i).used = false → (∀ a ∈ pre, a.silent) →
      .connect addr port none ∉ pre →
      ((∀ j, ¬ p.IsDest addr port j) → .connect addr port (some c) ∈ pre) →
      ret ≠ cspErrNone → lastCode (.sfpSend c bundle code :: post) = some ret →
      (∀ d b r, .sfpSend d b r ∉ post) →
      AttemptEnd p bundle addr port
        (q, some ret, pre ++ .sfpSend c bundle code :: post ++ [.close c])

/-- What one attempt does to the table. -/
structure Attempted (p : ConnPool) (bundle : Bundle) (addr port : UInt8)
    (r : ConnPool × Option CspErr × List Call) : Prop where
  usedConn : r.1.UsedConn
  oneEntry : r.1.OneEntry
  spares : ∃ e, Spares addr port e p r.1 ∧ ∀ k ∈ e, p.Evictable addr port k ∧
    ∃ c, (p.entries k).conn = some c ∧ .close c ∈ r.2.2
  ending : AttemptEnd p bundle addr port r

/-- The calls of the lookup, up to the first use of the connection. -/
theorem opened_getOrCreateLocked {q : ConnPool} {c : Conn} {calls : List Call} {env : GetEnv}
    (hu : p.UsedConn) (hg : p.getOrCreateLocked addr port env = (q, some c, calls)) :
    (∀ a ∈ calls, a.silent) ∧ .connect addr port none ∉ calls ∧
      ((∀ j, ¬ p.IsDest addr port j) → .connect addr port (some c) ∈ calls) := by
  have h := calls_getOrCreateLocked hu addr port env
  rw [hg] at h
  rcases h with ⟨rfl, i, d, hi, -⟩ | ⟨closed, rfl, hc⟩
  · exact ⟨by simp, by simp, fun hno => absurd hi (hno i)⟩
  · rw [← hc]
    refine ⟨fun a ha => ?_, by simp, fun _ => by simp⟩
    rcases List.mem_append.mp ha with ha | ha
    · obtain ⟨d, -, rfl⟩ := List.mem_map.mp ha
      rfl
    · rw [List.mem_singleton.mp ha]
      rfl

theorem attempted_sendAttempt (hu : p.UsedConn) (ho : p.OneEntry) (bundle : Bundle)
    (addr port : UInt8) (env : SendEnv) :
    Attempted p bundle addr port (sendAttempt p bundle addr port env) := by
  obtain ⟨⟨e, hs, he⟩, hone, hnone⟩ := getOrCreateLocked_spec hu ho addr port env.toGetEnv
  have hu' := usedConn_getOrCreateLocked hu addr port env.toGetEnv
  have hcalls := calls_getOrCreateLocked hu addr port env.toGetEnv
  rcases hg : p.getOrCreateLocked addr port env.toGetEnv with ⟨q, r, calls⟩
  rw [hg] at hs he hone hnone hu' hcalls
  replace he : ∀ k ∈ e, p.Evictable addr port k ∧
      ∃ c, (p.entries k).conn = some c ∧ .close c ∈ calls := by
    intro k hk
    obtain ⟨hall, hno, hlru, hc⟩ := he k hk
    exact ⟨⟨hall, hno, hlru⟩, hc⟩
  rcases sendAttempt_cases hu bundle hg with
    ⟨rfl, ha⟩ | ⟨c, rfl, ha⟩ | ⟨c, i, ret, io, rfl, hd, hc, hret, hlast,
      ⟨code, post, rfl, hpost⟩, -, ha⟩
  · rw [ha]
    refine ⟨hu', hone, ⟨e, hs, he⟩, ?_⟩
    rcases hcalls with ⟨-, i, d, -, -, hr⟩ | ⟨closed, rfl, hr⟩
    · cases hr
    · rw [← hr]
      exact .noConn q closed (hnone rfl)
  · rw [ha]
    obtain ⟨hsil, hno, hnew⟩ := opened_getOrCreateLocked hu hg
    obtain ⟨i, hfind, hi⟩ := serves_getOrCreateLocked hu env.toGetEnv (c := c) (by rw [hg])
    rw [hg] at hfind hi
    refine ⟨hu', hone, ⟨e, hs, fun k hk => ?_⟩, ?_⟩
    · obtain ⟨hev, d, hd, hcl⟩ := he k hk
      exact ⟨hev, d, hd, List.mem_append_left _ hcl⟩
    · exact .acked q calls c i (findDest_eq_some.mp hfind).1 hi hsil hno hnew
  · rw [ha]
    obtain ⟨hsil, hno, hnew⟩ := opened_getOrCreateLocked hu hg
    have hgone : ∀ j, ¬ (q.clear i).countInvalidation.IsDest addr port j := by
      intro j hj
      obtain ⟨hne, hj⟩ := isDest_of_clear hj
      exact hne (hone addr port j i hj hd)
    have hclear : Spares addr port none q (q.clear i).countInvalidation :=
      (spares_clear hd).same rfl rfl
    refine ⟨hu'.clear, hclear.oneEntry hone fun k j hk => absurd hk (hgone k),
      ⟨e, hs.trans hclear, fun k hk => ?_⟩, ?_⟩
    · obtain ⟨hev, d, hd, hcl⟩ := he k hk
      exact ⟨hev, d, hd, List.mem_append_left _ (List.mem_append_left _ hcl)⟩
    · exact .failed _ calls post c code ret i hgone (by simp [entries_clear]) hsil hno hnew hret
        hlast hpost

end Cspcl
