import Cspcl.Pool.Lru
import Cspcl.Rx.Owner

/-!
# Which connection the receive table evicts

`rxLruSys`: any run of the operations on the receive table, with the history of the connections that
were active: stored, or read a bundle from. As for the pool (`Cspcl.Pool.Lru`), the ticks order the
connections as the history does while the tick does not wrap, so `cspcl_rx_table_store` evicts the
one that was inactive for the longest time. `lru_evictions` says this of both tables.

`recvRun_rxLru`: the calls of `cspcl_recv_bundle` and `cspcl_cleanup` are runs of these operations.
-/

namespace Cspcl

open RxTable Recency Ledger

/-- A receive table, and the connections that were active, the last one first. -/
structure RxLruRun where
  table : RxTable
  history : List Conn

/-- An operation on the table; `init` is the `memset` of `cspcl_init`. -/
inductive RxLruOp where
  | init
  | store (c : Conn) (addr port : UInt8)
  | touch (i : Fin rxConnTableSize)
  | drop (i : Fin rxConnTableSize)
  | clear

/-- One operation: a stored connection is new, and a bundle is received on a connection. -/
def rxLruStep (s : RxLruRun) : RxLruOp → Option RxLruRun
  | .init => some ⟨RxTable.zero, s.history⟩
  | .store c addr port =>
    if c ∈ s.history then none else some ⟨(s.table.store c addr port).1, c :: s.history⟩
  | .touch i =>
    match (s.table.entries i).conn with
    | some c => some ⟨s.table.touch i, c :: s.history⟩
    | none => none
  | .drop i => some ⟨s.table.drop i, s.history⟩
  | .clear => some ⟨s.table.clear, s.history⟩

def rxLruSys : Lts RxLruRun RxLruOp where
  init s := s = ⟨RxTable.zero, []⟩
  step := rxLruStep

/-- The tick is not at its limit when the operation increments it. -/
def RxNoWrap (s : RxLruRun) : RxLruOp → Prop
  | .store .. | .touch _ => s.table.tick ≠ 4294967295
  | _ => True

instance : ∀ s op, Decidable (RxNoWrap s op)
  | _, .store .. | _, .touch _ => inferInstanceAs (Decidable (_ ≠ _))
  | _, .init | _, .drop _ | _, .clear => inferInstanceAs (Decidable True)

namespace RxTable

variable {t : RxTable} {i : Fin rxConnTableSize} {c : Conn} {addr port : UInt8}

/-- The connections of the table, with the ticks of their last activity. -/
def slots (t : RxTable) : Slots (Fin rxConnTableSize) Conn :=
  fun i => (t.entries i).conn.map fun c => (c, (t.entries i).lastActive.toNat)

theorem slots_eq_some {a : Nat} :
    t.slots i = some (c, a) ↔ (t.entries i).conn = some c ∧ (t.entries i).lastActive.toNat = a := by
  unfold slots
  rw [Option.map_eq_some_iff]
  constructor
  · rintro ⟨d, hd, he⟩
    obtain ⟨rfl, rfl⟩ := Prod.mk.inj he
    exact ⟨hd, rfl⟩
  · rintro ⟨hc, rfl⟩
    exact ⟨c, hc, rfl⟩

theorem slots_drop : (t.drop i).slots = Function.update t.slots i none := by
  funext j
  unfold slots
  rw [entries_drop, Function.update_apply]
  split <;> rfl

theorem slots_store : (t.store c addr port).1.slots =
    Function.update t.slots (t.storeSlot addr port) (some (c, (t.tick + 1).toNat)) := by
  funext j
  unfold slots
  rw [entries_store, Function.update_apply]
  split <;> rfl

theorem slots_touch (hc : (t.entries i).conn = some c) :
    (t.touch i).slots = Function.update t.slots i (some (c, (t.tick + 1).toNat)) := by
  funext j
  unfold slots
  simp only [RxTable.touch, Function.update_apply]
  split
  · simp [hc]
  · rfl

theorem tick_store : (t.store c addr port).1.tick = t.tick + 1 := rfl

end RxTable

/-- The ticks of the table order its connections as the history does. -/
structure RxStamped (s : RxLruRun) : Prop where
  usedConn : ∀ i, (s.table.entries i).used = true → (s.table.entries i).conn ≠ none
  stamped : Stamped s.table.slots s.table.tick.toNat s.history

variable {s s' : RxLruRun} {op : RxLruOp} {hist : List Conn} {t : RxTable}

/-- What one operation does to the order, while the tick does not wrap. -/
theorem RxStamped.step (h : RxStamped s) (hok : RxNoWrap s op) (hs : rxLruStep s op = some s') :
    RxStamped s' := by
  obtain ⟨t, hist⟩ := s
  obtain ⟨hu, hst⟩ := h
  simp only at hu hst
  have hlt : t.tick ≠ 4294967295 → t.tick.toNat < (t.tick + 1).toNat := by
    intro hne
    have hmax := t.tick.toNat_lt
    have hne : t.tick.toNat ≠ 4294967295 := fun e => hne (UInt32.toNat_inj.mp e)
    rw [UInt32.toNat_add]
    show _ < (t.tick.toNat + 1) % _
    omega
  cases op with
  | init =>
    cases hs
    exact ⟨fun i hi => by simp [RxTable.zero] at hi, stamped_empty _ _ fun i => rfl⟩
  | store c addr port =>
    simp only [rxLruStep] at hs
    split at hs
    · cases hs
    · rename_i hnew
      cases hs
      constructor
      · intro j hj
        rw [entries_store] at hj ⊢
        split at hj
        · rw [if_pos ‹_›]
          simp
        · rw [if_neg ‹_›]
          exact hu j hj
      · simp only [slots_store, tick_store]
        refine hst.use (hlt hok) fun j a hj => ?_
        exact absurd (hst.seen j c a hj) hnew
  | touch i =>
    simp only [rxLruStep] at hs
    split at hs
    · rename_i c hc
      cases hs
      constructor
      · intro j hj
        simp only [RxTable.touch, Function.update_apply] at hj ⊢
        split at hj
        · rw [if_pos ‹_›]
          simp [hc]
        · rw [if_neg ‹_›]
          exact hu j hj
      · simp only [slots_touch hc]
        refine hst.use (hlt hok) fun j a hj => ?_
        exact hst.inj j i c a _ hj (slots_eq_some.mpr ⟨hc, rfl⟩)
    · cases hs
  | drop i =>
    cases hs
    constructor
    · intro j hj
      rw [entries_drop] at hj ⊢
      split at hj
      · cases hj
      · rw [if_neg ‹_›]
        exact hu j hj
    · simp only [slots_drop]
      exact hst.remove i
  | clear =>
    cases hs
    exact ⟨fun i hi => by simp [RxTable.clear] at hi, stamped_empty _ _ fun i => rfl⟩

theorem rxStamped_inductive : (rxLruSys.guard RxNoWrap).Inductive RxStamped where
  init := by
    rintro s rfl
    exact ⟨fun i hi => by simp [RxTable.zero] at hi, stamped_empty _ _ fun i => rfl⟩
  step s op s' h hs := by
    obtain ⟨hok, hs⟩ := Lts.guard_step.mp hs
    exact h.step hok hs

/-- A store into a full table, of a peer without an entry, closes the connection that was inactive
for the longest time. -/
def RxEvictsOldest (s : RxLruRun) : Prop :=
  ∀ c addr port, s.table.slotFor addr port = none →
    ∃ d, (s.table.store c addr port).2 = [d] ∧
      (s.table.entries (s.table.storeSlot addr port)).conn = some d ∧
      Oldest s.table.slots s.history d

theorem rxEvictsOldest (h : RxStamped s) : RxEvictsOldest s := by
  intro c addr port hs
  have hslot : s.table.storeSlot addr port =
      Table.leastIdx fun i => (s.table.entries i).lastActive.toNat := by
    rw [storeSlot, hs, Option.getD_none]
  have hclosed : (s.table.store c addr port).2 =
      (s.table.entries (s.table.storeSlot addr port)).conn.toList := by
    rw [hslot]
    unfold RxTable.store
    rw [hs]
  have hused : (s.table.entries (s.table.storeSlot addr port)).used = true := by
    unfold slotFor at hs
    have := Fin.find?_eq_none_iff.mp (Option.or_eq_none_iff.mp hs).2 (s.table.storeSlot addr port)
    simpa using this
  obtain ⟨d, hd⟩ := Option.ne_none_iff_exists'.mp (h.usedConn _ hused)
  refine ⟨d, by rw [hclosed, hd]; rfl, hd, ?_⟩
  refine h.stamped.least (slots_eq_some.mpr ⟨hd, rfl⟩) fun j e b hj => ?_
  rw [← (slots_eq_some.mp hj).2, hslot]
  exact Table.leastIdx_le (fun i => (s.table.entries i).lastActive.toNat) j

/-! ## The calls of the API as runs of these operations -/

/-- The loop over the table. -/
theorem scan_rxLru (maxLen : Nat) (rt : UInt32) (reads : Fin rxConnTableSize → SfpRecv)
    (start : Nat) (ns : List Nat) (t : RxTable) (hist : List Conn) :
    ∃ l h, rxLruSys.Run ⟨t, hist⟩ l ⟨(t.scan maxLen rt reads start ns).table, h⟩ ∧
      ∀ c ∈ h, c ∈ hist ∨ ∃ i, t.conns i = some c := by
  induction ns generalizing t with
  | nil => exact ⟨[], hist, .nil _, fun c hc => .inl hc⟩
  | cons n ns ih =>
    -- The rest of the loop after the entry was dropped.
    have hdrop : ∃ l h, rxLruSys.Run ⟨t, hist⟩ l
        ⟨((t.drop (slotAt start n)).scan maxLen rt reads start ns).table, h⟩ ∧
        ∀ c ∈ h, c ∈ hist ∨ ∃ i, t.conns i = some c := by
      obtain ⟨l, h, hr, hh⟩ := ih (t.drop (slotAt start n))
      refine ⟨.drop (slotAt start n) :: l, h, .cons rfl hr, fun c hc => ?_⟩
      refine (hh c hc).imp_right ?_
      rintro ⟨i, hi⟩
      rw [conns_drop, Function.update_apply] at hi
      split at hi
      · cases hi
      · exact ⟨i, hi⟩
    simp only [RxTable.scan]
    split
    · exact ih t
    cases hc : (t.entries (slotAt start n)).conn with
    | none =>
      have he : recvFromEntry maxLen (t.entries (slotAt start n)) rt (reads (slotAt start n)) =
          (.error .invalidParam, []) := by
        simp [recvFromEntry, hc]
      simp only [he]
      exact hdrop
    | some c =>
      rcases recvFromEntry_cases maxLen rt (reads (slotAt start n)) hc with
        ⟨data, -, he⟩ | ⟨err, he⟩ <;> simp only [he]
      · refine ⟨[.touch (slotAt start n)], c :: hist, .single ?_, fun d hd => ?_⟩
        · simp only [rxLruSys, rxLruStep, hc]
        · rcases List.mem_cons.mp hd with rfl | hd
          · exact .inr ⟨_, hc⟩
          · exact .inl hd
      · split
        · exact ih t
        · exact hdrop

/-- The poll of the table. -/
theorem poll_rxLru (maxLen : Nat) (timeoutMs acceptMs : UInt32)
    (reads : Fin rxConnTableSize → SfpRecv) (t : RxTable) (hist : List Conn) :
    ∃ l h, rxLruSys.Run ⟨t, hist⟩ l ⟨(t.poll maxLen timeoutMs acceptMs reads).table, h⟩ ∧
      ∀ c ∈ h, c ∈ hist ∨ ∃ i, t.conns i = some c := by
  unfold RxTable.poll
  split
  · exact ⟨[], hist, .nil _, fun c hc => .inl hc⟩
  · exact scan_rxLru maxLen _ reads _ _ t hist

/-- A receive is a run of the table's operations. What is new in the history was in the table or has
just been accepted. -/
theorem recvBundle_rxLru (g : Globals) (inst : Instance) (maxLen : Nat) (timeoutMs : UInt32)
    (env : RecvEnv) (hnew : ∀ a ∈ env.accept, a.1 ∉ hist) :
    ∃ l h, rxLruSys.Run ⟨inst.rx, hist⟩ l
        ⟨(recvBundle g inst maxLen timeoutMs env).inst.rx, h⟩ ∧
      ∀ c ∈ h, c ∈ hist ∨ (∃ i, inst.rx.conns i = some c) ∨
        c ∈ incoming (rxActs (recvBundle g inst maxLen timeoutMs env).calls) := by
  have hnil : (recvBundle g inst maxLen timeoutMs env).inst.rx = inst.rx →
      ∃ l h, rxLruSys.Run ⟨inst.rx, hist⟩ l
        ⟨(recvBundle g inst maxLen timeoutMs env).inst.rx, h⟩ ∧
      ∀ c ∈ h, c ∈ hist ∨ (∃ i, inst.rx.conns i = some c) ∨
        c ∈ incoming (rxActs (recvBundle g inst maxLen timeoutMs env).calls) := by
    intro hrx
    rw [hrx]
    exact ⟨[], hist, .nil _, fun c hc => .inl hc⟩
  by_cases hi : inst.initialized = true
  swap
  · exact hnil (by simp [recvBundle, hi])
  obtain ⟨-, -, stack, ⟨-, hrx, -, -⟩ | ⟨-, r, hr, hrx, -, hcalls⟩⟩ :=
    recvBundle_cases g hi maxLen timeoutMs env
  · exact hnil hrx
  rw [hrx, hcalls, hr]
  cases ha : env.accept with
  | none =>
    obtain ⟨l, h, hrun, hh⟩ := poll_rxLru maxLen (callerTimeoutMs timeoutMs)
      (acceptTimeoutMs (callerTimeoutMs timeoutMs) inst.rx.live) env.reads inst.rx hist
    exact ⟨l, h, hrun, fun c hc => (hh c hc).imp_right .inl⟩
  | some a =>
    obtain ⟨c, addr, port⟩ := a
    -- The store, then the poll of the new table.
    have hstore : rxLruSys.step ⟨inst.rx, hist⟩ (.store c addr port) =
        some ⟨(inst.rx.store c addr port).1, c :: hist⟩ := by
      simp only [rxLruSys, rxLruStep]
      rw [if_neg (hnew _ ha)]
    obtain ⟨l, h, hrun, hh⟩ := poll_rxLru maxLen (callerTimeoutMs timeoutMs)
      (acceptTimeoutMs (callerTimeoutMs timeoutMs) inst.rx.live) env.reads
      (inst.rx.store c addr port).1 (c :: hist)
    refine ⟨_, h, .cons hstore hrun, fun d hd => ?_⟩
    have hc : c ∈ incoming (rxActs (stack.map .stack ++
        (.accept (realAcceptMs (acceptTimeoutMs (callerTimeoutMs timeoutMs) inst.rx.live))
          (some (c, addr, port)) :: ((inst.rx.withAccepted (some (c, addr, port))).2.map .close ++
            ((inst.rx.withAccepted (some (c, addr, port))).1.poll maxLen (callerTimeoutMs timeoutMs)
              (acceptTimeoutMs (callerTimeoutMs timeoutMs) inst.rx.live) env.reads).calls)))) := by
      rw [rxActs_append, rxActs_stack, List.nil_append]
      exact List.mem_cons_self
    rcases hh d hd with hd | ⟨i, hi⟩
    · rcases List.mem_cons.mp hd with rfl | hd
      · exact .inr (.inr hc)
      · exact .inl hd
    · unfold conns at hi
      rw [entries_store] at hi
      split at hi
      · obtain rfl := Option.some.inj hi
        exact .inr (.inr hc)
      · exact .inr (.inl ⟨i, hi⟩)

/-- Every run of receives and cleanups is a run of the table's operations. -/
theorem recvRun_rxLru {s : RecvRun} (hs : recvSys.Reach s) :
    ∃ h, rxLruSys.Reach ⟨s.inst.rx, h⟩ ∧ ∀ c ∈ h, c ∈ s.accepted := by
  have hind := rxOwns_inductive.given
    (I := fun s => ∃ h, rxLruSys.Reach ⟨s.inst.rx, h⟩ ∧ ∀ c ∈ h, c ∈ s.accepted) ?_ ?_
  · exact (hind.reach hs).2
  · rintro s ⟨-, hrx, -⟩
    rw [hrx]
    exact ⟨[], .init rfl, by simp⟩
  · rintro s op s' hinv ⟨h, hr, hh⟩ hst
    cases op with
    | recv maxLen timeoutMs env =>
      simp only [recvSys, recvStep] at hst
      split at hst
      · rename_i hnew
        cases hst
        obtain ⟨l, h', hrun, hh'⟩ := recvBundle_rxLru s.globals s.inst maxLen
          timeoutMs env fun a ha hm => hnew a ha (hh _ hm)
        refine ⟨h', hr.run hrun, fun c hc => ?_⟩
        simp only [RecvRun.accepted, rxActs_append, incoming_append]
        rcases hh' c hc with hc | ⟨i, hi⟩ | hc
        · exact List.mem_append_left _ (hh c hc)
        · exact List.mem_append_left _
            (hinv.holds.ok.nodup_live.2 c ((hinv.holds.live c).mpr ⟨i, hi⟩))
        · exact List.mem_append_right _ hc
      · cases hst
    | cleanup lock =>
      simp only [recvSys, recvStep, Option.some.injEq] at hst
      subst hst
      refine ⟨h, hr.step (a := .clear) rfl, fun c hc => ?_⟩
      simp only [RecvRun.accepted, rxActs_append, incoming_append]
      exact List.mem_append_left _ (hh c hc)

/-- In every run in which no tick is at its limit when it is incremented, both tables evict the
connection that was used longest ago. -/
theorem lru_evictions {s : LruRun} {u : RxLruRun} (hs : (lruSys.guard NoWrap).Reach s)
    (hu : (rxLruSys.guard RxNoWrap).Reach u) : EvictsOldest s ∧ RxEvictsOldest u :=
  ⟨evictsOldest (poolStamped_inductive.reach hs), rxEvictsOldest (rxStamped_inductive.reach hu)⟩

/-- A store of eight peers, then a bundle from the first of them. -/
def fillTableRun : List RxLruOp :=
  (List.range rxConnTableSize).map (fun i => .store i (UInt8.ofNat i) 10) ++ [.touch 0]

/-- Both tables full: the first connection of the pool is the oldest, and the second one of the
receive table, since a bundle came on the first. -/
theorem lru_evictions_full :
    ∃ s u, (lruSys.guard NoWrap).exec ⟨ConnPool.zero, []⟩ fillRun = some s ∧
      (rxLruSys.guard RxNoWrap).exec ⟨RxTable.zero, []⟩ fillTableRun = some u ∧
      s.pool.firstFree = none ∧ u.table.slotFor 9 10 = none ∧ (u.table.store 100 9 10).2 = [1] ∧
      EvictsOldest s ∧ RxEvictsOldest u := by
  obtain ⟨s, hs⟩ : ∃ s, (lruSys.guard NoWrap).exec ⟨ConnPool.zero, []⟩ fillRun = some s :=
    ⟨_, rfl⟩
  obtain ⟨u, hu⟩ : ∃ u, (rxLruSys.guard RxNoWrap).exec ⟨RxTable.zero, []⟩ fillTableRun = some u :=
    ⟨_, rfl⟩
  have hsf : ((lruSys.guard NoWrap).exec ⟨ConnPool.zero, []⟩ fillRun).map
      (fun s => s.pool.firstFree) = some none := by decide +kernel
  have huf : ((rxLruSys.guard RxNoWrap).exec ⟨RxTable.zero, []⟩ fillTableRun).map
      (fun u => (u.table.slotFor 9 10, (u.table.store 100 9 10).2)) = some (none, [1]) := by
    decide +kernel
  rw [hs, Option.map_some, Option.some.injEq] at hsf
  rw [hu, Option.map_some, Option.some.injEq, Prod.mk.injEq] at huf
  exact ⟨s, u, hs, hu, hsf, huf.1, huf.2, lru_evictions (.of_exec rfl hs) (.of_exec rfl hu)⟩

end Cspcl
