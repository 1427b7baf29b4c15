import Cspcl.Pool.Basic

/-!
# What the pool's functions do to its entries

* The small updates (`clear`, `store`, `touch`) and the entries after them.
* `getOrCreateLocked_eq`: `cspcl_pool_get_or_create_locked` in one line, for a pool whose used
  entries have a connection. It returns the first entry of the destination if that is not too
  old; else it drops that entry, takes the slot that `cspcl_pool_find_free_or_evict_locked` would
  take, and connects. The scan of the C code (`lookupFrom`) is read only here.
-/

namespace Cspcl
namespace ConnPool

variable {p : ConnPool} {i j : Fin connPoolSize} {addr port : UInt8} {c : Conn} {now : Int}

/-! ## The entries after an update -/

theorem entries_clear :
    (p.clear i).entries j =
      if j = i then { p.entries i with used := false, conn := none } else p.entries j := by
  simp [clear, Function.update_apply]

theorem entries_store :
    (p.store i addr port c now).entries j =
      if j = i then ⟨true, addr, port, some c, p.tick, now⟩ else p.entries j := by
  simp [store, Function.update_apply]

theorem entries_touch :
    (p.touch i).entries j =
      if j = i then { p.entries i with lastUsed := p.tick } else p.entries j := by
  simp [touch, Function.update_apply]

@[simp] theorem entries_bump : p.bump.entries = p.entries := rfl

@[simp] theorem initialized_bump : p.bump.initialized = p.initialized := rfl

@[simp] theorem entries_countEviction : p.countEviction.entries = p.entries := rfl

@[simp] theorem entries_countInvalidation : p.countInvalidation.entries = p.entries := rfl

@[simp] theorem initialized_countEviction : p.countEviction.initialized = p.initialized := rfl

@[simp] theorem initialized_countInvalidation :
    p.countInvalidation.initialized = p.initialized := rfl

@[simp] theorem initialized_clear : (p.clear i).initialized = p.initialized := rfl

@[simp] theorem initialized_store : (p.store i addr port c now).initialized = p.initialized := rfl

@[simp] theorem initialized_touch : (p.touch i).initialized = p.initialized := rfl

/-! ## The first entry of a destination and the first unused slot -/

/-- Slot `i` is used for the destination. -/
def IsDest (p : ConnPool) (addr port : UInt8) (i : Fin connPoolSize) : Prop :=
  (p.entries i).used = true ∧ (p.entries i).destAddr = addr ∧ (p.entries i).destPort = port

theorem findDest_eq_some :
    p.findDest addr port = some i ↔ p.IsDest addr port i ∧ ∀ j < i, ¬ p.IsDest addr port j := by
  simp [findDest, IsDest, and_assoc]

theorem findDest_eq_none : p.findDest addr port = none ↔ ∀ i, ¬ p.IsDest addr port i := by
  simp [findDest, IsDest]

theorem firstFree_eq_some :
    p.firstFree = some i ↔ (p.entries i).used = false ∧ ∀ j < i, (p.entries j).used = true := by
  simp [firstFree]

theorem firstFree_eq_none : p.firstFree = none ↔ ∀ i, (p.entries i).used = true := by
  simp [firstFree]

/-! ## The scan -/

/-- The used entries have a connection. -/
def UsedConn (p : ConnPool) : Prop := ∀ i, (p.entries i).used = true → (p.entries i).conn ≠ none

/-- The scan over `is`, after the slots `pre` without an entry of the destination. It ends at the
first entry of the destination in `is`, or at the end. -/
theorem lookupFrom_spec (addr port : UInt8) (now : Int) (hu : p.UsedConn)
    (is pre : List (Fin connPoolSize)) :
    (∃ i c mid post, is = mid ++ i :: post ∧ (∀ j ∈ mid, ¬ p.IsDest addr port j) ∧
      p.IsDest addr port i ∧ (p.entries i).conn = some c ∧
      p.lookupFrom addr port now (pre.find? fun i => !(p.entries i).used) is =
        if p.tooOld (p.entries i) now then
          .expired i c (((pre ++ mid).find? fun i => !(p.entries i).used).getD i)
        else .hit i c) ∨
    ((∀ j ∈ is, ¬ p.IsDest addr port j) ∧
      p.lookupFrom addr port now (pre.find? fun i => !(p.entries i).used) is =
        .miss ((pre ++ is).find? fun i => !(p.entries i).used)) := by
  induction is generalizing pre with
  | nil => exact .inr ⟨by simp, by simp [lookupFrom]⟩
  | cons i is ih =>
    by_cases hd : p.IsDest addr port i
    · obtain ⟨c, hc⟩ := Option.ne_none_iff_exists'.mp (hu i hd.1)
      exact .inl ⟨i, c, [], is, rfl, by simp, hd, hc,
        by simp [lookupFrom, hd.1, hd.2.1, hd.2.2, hc]⟩
    · -- Another entry: the scan goes on, and `i` joins the slots before it.
      have hstep : p.lookupFrom addr port now (pre.find? fun i => !(p.entries i).used) (i :: is) =
          p.lookupFrom addr port now ((pre ++ [i]).find? fun i => !(p.entries i).used) is := by
        by_cases hused : (p.entries i).used = true
        · have hne : ¬ ((p.entries i).destAddr = addr ∧ (p.entries i).destPort = port) :=
            fun h => hd ⟨hused, h⟩
          simp [lookupFrom, hused, hne]
        · simp [lookupFrom, hused]
      rw [hstep]
      rcases ih (pre ++ [i]) with ⟨k, c, mid, post, rfl, hmid, hk, hc, he⟩ | ⟨hno, he⟩
      · refine .inl ⟨k, c, i :: mid, post, rfl, ?_, hk, hc, by rw [he]; simp⟩
        exact fun j hj => (List.mem_cons.mp hj).elim (fun h => h ▸ hd) (hmid j)
      · refine .inr ⟨fun j hj => (List.mem_cons.mp hj).elim (fun h => h ▸ hd) (hno j), ?_⟩
        rw [he]; simp

/-- In `List.finRange`, the slots before `i` are the smaller ones. -/
theorem lt_of_finRange_split {mid post : List (Fin connPoolSize)}
    (h : List.finRange connPoolSize = mid ++ i :: post) : ∀ j, j < i ↔ j ∈ mid := by
  have hs : (mid ++ i :: post).Pairwise (· < ·) := h ▸ List.pairwise_lt_finRange connPoolSize
  rw [List.pairwise_append] at hs
  obtain ⟨-, hpost, hlt⟩ := hs
  intro j
  refine ⟨fun hj => ?_, fun hj => hlt j hj i (by simp)⟩
  have hm : j ∈ mid ++ i :: post := h ▸ List.mem_finRange j
  rcases List.mem_append.mp hm with hm | hm
  · exact hm
  · rcases List.mem_cons.mp hm with rfl | hm
    · exact absurd hj (lt_irrefl _)
    · exact absurd hj (lt_asymm (List.rel_of_pairwise_cons hpost hm))

/-- The scan of the whole table: the first entry of the destination decides. An expired entry
leaves `free_slot` at the first slot that is unused once the entry is dropped. -/
theorem lookup_cases (addr port : UInt8) (now : Int) (hu : p.UsedConn) :
    (∃ i c, p.findDest addr port = some i ∧ (p.entries i).conn = some c ∧
      p.tooOld (p.entries i) now = false ∧
      p.lookupFrom addr port now none (List.finRange connPoolSize) = .hit i c) ∨
    (∃ i c f, p.findDest addr port = some i ∧ (p.entries i).conn = some c ∧
      p.tooOld (p.entries i) now = true ∧ (p.clear i).firstFree = some f ∧
      p.lookupFrom addr port now none (List.finRange connPoolSize) = .expired i c f) ∨
    (p.findDest addr port = none ∧
      p.lookupFrom addr port now none (List.finRange connPoolSize) = .miss p.firstFree) := by
  rcases lookupFrom_spec addr port now hu (List.finRange connPoolSize) [] with
    ⟨i, c, mid, post, hs, hmid, hd, hc, he⟩ | ⟨hno, he⟩
  · have hlt := lt_of_finRange_split hs
    have hf : p.findDest addr port = some i :=
      findDest_eq_some.mpr ⟨hd, fun j hj => hmid j ((hlt j).mp hj)⟩
    by_cases hold : p.tooOld (p.entries i) now = true
    · refine .inr (.inl ⟨i, c, _, hf, hc, hold, ?_, by simpa [hold] using he⟩)
      -- Before `i` the table is as it was; `i` itself is unused now.
      cases hm : mid.find? fun i => !(p.entries i).used with
      | none =>
        rw [Option.getD_none]
        refine firstFree_eq_some.mpr ⟨by simp [entries_clear], fun j hj => ?_⟩
        have hj' := List.find?_eq_none.mp hm j ((hlt j).mp hj)
        rw [entries_clear, if_neg (ne_of_lt hj)]
        simpa using hj'
      | some f =>
        obtain ⟨hfree, as, bs, rfl, has⟩ := List.find?_eq_some_iff_append.mp hm
        have hfi : f < i := (hlt f).mpr (by simp)
        rw [Option.getD_some]
        refine firstFree_eq_some.mpr ⟨?_, fun j hj => ?_⟩
        · rw [entries_clear, if_neg (ne_of_lt hfi)]
          simpa using hfree
        · rw [List.append_assoc, List.cons_append] at hs
          have hj' := has j ((lt_of_finRange_split hs j).mp hj)
          rw [entries_clear, if_neg (ne_of_lt (hj.trans hfi))]
          simpa using hj'
    · rw [Bool.not_eq_true] at hold
      exact .inl ⟨i, c, hf, hc, hold, by simpa [hold] using he⟩
  · refine .inr (.inr ⟨findDest_eq_none.mpr fun i => hno i (List.mem_finRange i), ?_⟩)
    rw [firstFree, Fin.find?_eq_find?_finRange]
    simpa using he

/-- `findFreeOrEvictLocked`: the first unused slot, or the least recently used entry, closed. -/
theorem findFreeOrEvictLocked_cases :
    (∃ i, p.firstFree = some i ∧ p.findFreeOrEvictLocked = (p, i, [])) ∨
    (p.firstFree = none ∧ p.findFreeOrEvictLocked = p.evictLru) := by
  unfold findFreeOrEvictLocked
  cases h : p.firstFree with
  | none => exact .inr ⟨rfl, rfl⟩
  | some i => exact .inl ⟨i, rfl, rfl⟩

/-- What `cspcl_pool_get_or_create_locked` does: a cache hit; an expired entry dropped and a new
connection in the first unused slot; or a new connection in the slot that
`cspcl_pool_find_free_or_evict_locked` gives. -/
theorem getOrCreateLocked_cases (addr port : UInt8) (hu : p.UsedConn) (env : GetEnv) :
    (∃ i c, p.findDest addr port = some i ∧ (p.entries i).conn = some c ∧
      p.tooOld (p.entries i) env.ageNow = false ∧
      p.getOrCreateLocked addr port env = (p.bump.touch i, some c, [])) ∨
    (∃ i c f r, p.findDest addr port = some i ∧ (p.entries i).conn = some c ∧
      p.tooOld (p.entries i) env.ageNow = true ∧ (p.clear i).firstFree = some f ∧
      (p.bump.clear i).countInvalidation.connectInto f addr port env = r ∧
      p.getOrCreateLocked addr port env = (r.1, r.2.1, .close c :: r.2.2)) ∨
    (∃ q r, p.findDest addr port = none ∧ p.bump.findFreeOrEvictLocked = q ∧
      q.1.connectInto q.2.1 addr port env = r ∧
      p.getOrCreateLocked addr port env = (r.1, r.2.1, q.2.2 ++ r.2.2)) := by
  rcases lookup_cases (p := p.bump) addr port env.ageNow hu with
    ⟨i, c, hf, hc, ho, he⟩ | ⟨i, c, f, hf, hc, ho, hff, he⟩ | ⟨hf, he⟩
  · exact .inl ⟨i, c, hf, hc, ho, by simp [getOrCreateLocked, he]⟩
  · exact .inr (.inl ⟨i, c, f, _, hf, hc, ho, hff, rfl, by simp [getOrCreateLocked, he]⟩)
  · refine .inr (.inr ⟨_, _, hf, rfl, rfl, ?_⟩)
    rcases findFreeOrEvictLocked_cases (p := p.bump) with ⟨i, hi, hq⟩ | ⟨hi, hq⟩
    · rw [hq]; simp [getOrCreateLocked, he, hi]
    · rw [hq]; simp [getOrCreateLocked, he, hi]

@[simp] theorem initialized_connectInto {env : GetEnv} :
    (p.connectInto i addr port env).1.initialized = p.initialized := by
  unfold connectInto; split <;> rfl

@[simp] theorem initialized_findFreeOrEvictLocked :
    p.findFreeOrEvictLocked.1.initialized = p.initialized := by
  rcases findFreeOrEvictLocked_cases (p := p) with ⟨i, -, he⟩ | ⟨-, he⟩ <;> rw [he]; rfl

@[simp] theorem initialized_getOrCreateLocked (p : ConnPool) (addr port : UInt8) (env : GetEnv) :
    (p.getOrCreateLocked addr port env).1.initialized = p.initialized := by
  unfold getOrCreateLocked
  simp only
  split
  · rfl
  · simp
  · simp
  · simp [evictLru]

@[simp] theorem initialized_invalidateLocked :
    (p.invalidateLocked addr port).1.initialized = p.initialized := by
  unfold invalidateLocked; split <;> rfl

/-! ## The entry that serves a destination -/

theorem connectInto_none (p : ConnPool) (i : Fin connPoolSize) (addr port : UInt8) {env : GetEnv}
    (h : env.connect = none) :
    (p.connectInto i addr port env).1.entries = p.entries ∧
      (p.connectInto i addr port env).2.1 = none := by
  simp [connectInto, h]

theorem connectInto_some (p : ConnPool) (i : Fin connPoolSize) (addr port : UInt8) {env : GetEnv}
    (h : env.connect = some c) :
    (p.connectInto i addr port env).1.entries = (p.store i addr port c env.connNow).entries ∧
      (p.connectInto i addr port env).2.1 = some c := by
  simp [connectInto, h]

theorem isDest_of_clear (h : (p.clear i).IsDest addr port j) : j ≠ i ∧ p.IsDest addr port j := by
  unfold IsDest at h ⊢
  rw [entries_clear] at h
  split at h
  · simp at h
  · exact ⟨‹_›, h⟩

/-- The slot of a connect serves the destination, if no slot before it does. -/
theorem serves_connectInto {env : GetEnv} (hno : ∀ j < i, ¬ p.IsDest addr port j)
    (hr : (p.connectInto i addr port env).2.1 = some c) :
    (p.connectInto i addr port env).1.findDest addr port = some i ∧
      ((p.connectInto i addr port env).1.entries i).conn = some c := by
  cases hc : env.connect with
  | none => rw [(connectInto_none _ _ _ _ hc).2] at hr; cases hr
  | some d =>
    obtain ⟨he, hd⟩ := connectInto_some p i addr port hc
    rw [hd] at hr
    cases hr
    rw [findDest_eq_some]
    simp only [IsDest, he, entries_store]
    refine ⟨⟨by simp, fun j hj hdest => hno j hj ?_⟩, by simp⟩
    rwa [if_neg (ne_of_lt hj)] at hdest

/-- The connection that `cspcl_pool_get_or_create_locked` returns is in the first entry of the
destination: it is the one that `cspcl_pool_invalidate_locked` would close. -/
theorem serves_getOrCreateLocked (hu : p.UsedConn) (env : GetEnv)
    (hr : (p.getOrCreateLocked addr port env).2.1 = some c) :
    ∃ i, (p.getOrCreateLocked addr port env).1.findDest addr port = some i ∧
      ((p.getOrCreateLocked addr port env).1.entries i).conn = some c := by
  rcases getOrCreateLocked_cases addr port hu env with
    ⟨i, d, hf, hd, -, he⟩ | ⟨i, d, f, r, hf, -, -, hff, rfl, he⟩ | ⟨q, r, hf, rfl, rfl, he⟩
  · rw [he] at hr ⊢
    cases hr
    obtain ⟨hi, hlt⟩ := findDest_eq_some.mp hf
    refine ⟨i, findDest_eq_some.mpr ?_, by simpa [entries_touch] using hd⟩
    simp only [IsDest, entries_touch] at hi hlt ⊢
    refine ⟨by simpa using hi, fun j hj => ?_⟩
    rw [if_neg (ne_of_lt hj)]
    exact hlt j hj
  · rw [he] at hr ⊢
    refine ⟨f, serves_connectInto (fun j hj hdest => ?_) hr⟩
    -- `free_slot` is at most `i`, and no slot before `i` has the destination.
    obtain ⟨-, hlt⟩ := firstFree_eq_some.mp hff
    have hfi : ¬ i < f := fun hif => by simpa [entries_clear] using hlt i hif
    obtain ⟨-, hj'⟩ := isDest_of_clear (p := p.bump) hdest
    exact (findDest_eq_some.mp hf).2 j (lt_of_lt_of_le hj (not_lt.mp hfi)) hj'
  · rw [he] at hr ⊢
    refine ⟨_, serves_connectInto (fun j _ hdest => ?_) hr⟩
    have hno := findDest_eq_none.mp hf j
    rcases findFreeOrEvictLocked_cases (p := p.bump) with ⟨i, -, hq⟩ | ⟨-, hq⟩ <;> rw [hq] at hdest
    · exact hno hdest
    · exact hno (isDest_of_clear (p := p.bump) hdest).2

/-- The connections of the table. -/
def Has (p : ConnPool) (c : Conn) : Prop := ∃ i, (p.entries i).conn = some c

theorem has_of_clear (h : (p.clear i).Has c) : p.Has c := by
  obtain ⟨j, hj⟩ := h
  rw [entries_clear] at hj
  split at hj
  · cases hj
  · exact ⟨j, hj⟩

theorem has_of_connectInto {env : GetEnv} (h : (p.connectInto i addr port env).1.Has c) :
    p.Has c ∨ env.connect = some c := by
  obtain ⟨j, hj⟩ := h
  cases hc : env.connect with
  | none => rw [(connectInto_none _ _ _ _ hc).1] at hj; exact .inl ⟨j, hj⟩
  | some d =>
    rw [(connectInto_some p i addr port hc).1, entries_store] at hj
    split at hj
    · exact .inr hj
    · exact .inl ⟨j, hj⟩

/-- The table holds what it held before, and the new connection. -/
theorem has_of_getOrCreateLocked (hu : p.UsedConn) {env : GetEnv}
    (h : (p.getOrCreateLocked addr port env).1.Has c) : p.Has c ∨ env.connect = some c := by
  rcases getOrCreateLocked_cases addr port hu env with
    ⟨i, d, -, -, -, he⟩ | ⟨i, d, f, r, -, -, -, -, rfl, he⟩ | ⟨q, r, -, rfl, rfl, he⟩ <;>
    rw [he] at h
  · obtain ⟨j, hj⟩ := h
    rw [entries_touch] at hj
    split at hj
    · rename_i hji; subst hji; exact .inl ⟨_, hj⟩
    · exact .inl ⟨j, hj⟩
  · exact (has_of_connectInto h).imp_left fun h' => has_of_clear (p := p.bump) h'
  · refine (has_of_connectInto h).imp_left fun h' => ?_
    rcases findFreeOrEvictLocked_cases (p := p.bump) with ⟨i, -, hq⟩ | ⟨-, hq⟩ <;> rw [hq] at h'
    · exact h'
    · exact has_of_clear (p := p.bump) h'

end ConnPool
end Cspcl
