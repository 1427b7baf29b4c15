import Cspcl.Rx.Owner
import Cspcl.Rx.Scan

/-!
# The round robin of `cspcl_recv_bundle`

`PassedOver` is a run of calls during which a connection stays in its slot of the receive table and
has a bundle ready, and that return bundles of other connections. The loop starts at the slot
`rx_tick % 8`, and `turnsLeft` is how far that is from the slot of the connection.

`not_starved`: the tick moves on by one with each bundle, so the loop starts at the slot after at
most 7 bundles of others; but it also moves on by one with each connection that is stored, and must
not do so when the loop would start at the slot.
-/

namespace Cspcl

open RxTable

/-- How many slots the loop that starts at `tick` visits before slot `v`. -/
def turnsLeft (tick : UInt32) (v : Fin rxConnTableSize) : Nat :=
  (v + (rxConnTableSize - tick.toNat % rxConnTableSize)) % rxConnTableSize

/-- The connection `c` is in slot `v`. -/
def InSlot (c : Conn) (v : Fin rxConnTableSize) (s : RecvRun) : Prop :=
  (s.inst.rx.entries v).used = true ∧ (s.inst.rx.entries v).conn = some c

/-- A run of calls of `cspcl_recv_bundle` in the system `S`: `c` stays in slot `v` and has a
bundle ready at each call, `n` of the calls return `CSPCL_OK`, and none of them a bundle of `c`,
which would be acknowledged. -/
inductive PassedOver (S : Lts RecvRun RecvOp) (c : Conn) (v : Fin rxConnTableSize) :
    RecvRun → Nat → RecvRun → Prop
  | nil {s : RecvRun} : InSlot c v s → PassedOver S c v s 0 s
  | call {s s₁ s' : RecvRun} {n maxLen : Nat} {timeoutMs : UInt32} {env : RecvEnv} {data : Bundle} :
    InSlot c v s → recvFromConnTimeout maxLen (env.reads v) = .ok data →
    .sendAck c ∉ (recvBundle s.globals s.inst maxLen timeoutMs env).calls →
    S.step s (.recv maxLen timeoutMs env) = some s₁ → PassedOver S c v s₁ n s' →
    PassedOver S c v s
      (n + if (recvBundle s.globals s.inst maxLen timeoutMs env).res.isOk then 1 else 0) s'

/-- No connection is stored when it is the turn of slot `v`. -/
def SparesTurn (v : Fin rxConnTableSize) (s : RecvRun) : RecvOp → Prop
  | .recv _ _ env => env.accept.isSome = true → turnsLeft s.inst.rx.tick v ≠ 0
  | .cleanup _ => True

instance (v : Fin rxConnTableSize) (s : RecvRun) (op : RecvOp) : Decidable (SparesTurn v s op) := by
  cases op
  · exact inferInstanceAs (Decidable (_ → _))
  · exact inferInstanceAs (Decidable True)

instance (c : Conn) (v : Fin rxConnTableSize) (s : RecvRun) : Decidable (InSlot c v s) :=
  inferInstanceAs (Decidable (_ ∧ _))

/-- The run of the calls `l`, if it passes over `c`. -/
def passOver (S : Lts RecvRun RecvOp) (c : Conn) (v : Fin rxConnTableSize) (s : RecvRun) :
    List (Nat × UInt32 × RecvEnv) → Option (Nat × RecvRun)
  | [] => if InSlot c v s then some (0, s) else none
  | (maxLen, timeoutMs, env) :: l =>
    let r := recvBundle s.globals s.inst maxLen timeoutMs env
    if InSlot c v s ∧ (recvFromConnTimeout maxLen (env.reads v)).isOk = true ∧
        .sendAck c ∉ r.calls then
      (S.step s (.recv maxLen timeoutMs env)).bind fun s₁ =>
        (passOver S c v s₁ l).map fun p => (p.1 + if r.res.isOk then 1 else 0, p.2)
    else none

variable {c : Conn} {v : Fin rxConnTableSize} {s s₁ : RecvRun} {maxLen : Nat} {timeoutMs : UInt32}
  {env : RecvEnv} {data : Bundle}

theorem turnsLeft_lt (tick : UInt32) (v : Fin rxConnTableSize) :
    turnsLeft tick v < rxConnTableSize := Nat.mod_lt _ (by decide)

/-- The tick moves on: one slot less, also where it wraps. -/
theorem turnsLeft_succ {tick : UInt32} (h : turnsLeft tick v ≠ 0) :
    turnsLeft (tick + 1) v + 1 = turnsLeft tick v := by
  have hv := v.isLt
  have htick : (tick + 1).toNat = (tick.toNat + 1) % 2 ^ 32 := UInt32.toNat_add tick 1
  simp only [turnsLeft, rxConnTableSize] at hv h ⊢
  omega

theorem slotAt_turnsLeft (tick : UInt32) (v : Fin rxConnTableSize) :
    slotAt (tick.toNat % rxConnTableSize) (turnsLeft tick v) = v := by
  have hv := v.isLt
  refine Fin.ext ?_
  simp only [slotAt, turnsLeft, rxConnTableSize] at hv ⊢
  omega

namespace RxTable

variable {t : RxTable} {acceptMs : UInt32} {reads : Fin rxConnTableSize → SfpRecv}

/-- The poll of a table in which `c` has a bundle, and which acknowledges another connection: it was
not the turn of `c`. -/
theorem poll_passes (hu : (t.entries v).used = true) (hc : (t.entries v).conn = some c)
    (hr : recvFromConnTimeout maxLen (reads v) = .ok data)
    (hack : .sendAck c ∉ (t.poll maxLen timeoutMs acceptMs reads).calls) :
    turnsLeft t.tick v ≠ 0 ∧ (t.poll maxLen timeoutMs acceptMs reads).table.tick = t.tick + 1 ∧
      ∃ x, (t.poll maxLen timeoutMs acceptMs reads).res = .ok x := by
  have hready : t.Ready maxLen reads v :=
    ⟨data, by rw [outcome, if_pos hu, hc, Option.map_some, hr]⟩
  have hlive : t.live ≠ 0 := by
    have := live_pos.mpr ⟨v, hu⟩
    omega
  have hmem : turnsLeft t.tick v ∈ List.range rxConnTableSize :=
    List.mem_range.mpr (turnsLeft_lt t.tick v)
  obtain ⟨pre, n, post, x, hns, hpre, ⟨d, hd, hdack⟩, hres, htick, -⟩ := scan_ready
    (readTimeoutMs timeoutMs acceptMs (UInt32.ofNat t.live))
    (nodup_slotAt (t.tick.toNat % rxConnTableSize))
    ⟨_, hmem, (slotAt_turnsLeft t.tick v).symm ▸ hready⟩
  rw [poll, if_neg hlive] at hack ⊢
  refine ⟨fun h0 => ?_, htick, _, hres⟩
  -- The loop starts at `v`, so it ends there.
  have hfirst : n = 0 := by
    rw [h0, hns, List.mem_append, List.mem_cons] at hmem
    rcases hmem with h | h | h
    · exact absurd hready (by rw [← slotAt_turnsLeft t.tick v, h0]; exact hpre 0 h)
    · exact h.symm
    · have := (List.pairwise_append.mp (hns ▸ List.pairwise_lt_range)).2.1
      exact absurd ((List.pairwise_cons.mp this).1 0 h) (by omega)
  have hslot : slotAt (t.tick.toNat % rxConnTableSize) n = v := by
    rw [hfirst, ← h0]
    exact slotAt_turnsLeft t.tick v
  rw [hslot, hc] at hd
  obtain rfl := Option.some.inj hd
  exact hack (List.mem_cons_of_mem _ hdack)

theorem poll_conn (h : ((t.poll maxLen timeoutMs acceptMs reads).table.entries v).conn = some c) :
    (t.entries v).conn = some c := by
  unfold poll at h
  split at h
  · exact h
  · exact scan_conn t _ h

/-- Such a poll takes a turn for its bundle. -/
theorem poll_turnsLeft (hu : (t.entries v).used = true) (hc : (t.entries v).conn = some c)
    (hr : recvFromConnTimeout maxLen (reads v) = .ok data)
    (hack : .sendAck c ∉ (t.poll maxLen timeoutMs acceptMs reads).calls) :
    turnsLeft (t.poll maxLen timeoutMs acceptMs reads).table.tick v +
        (if (t.poll maxLen timeoutMs acceptMs reads).res.isOk then 1 else 0) ≤
      turnsLeft t.tick v := by
  obtain ⟨hleft, htick, x, hx⟩ := poll_passes hu hc hr hack
  rw [htick, hx]
  exact (turnsLeft_succ hleft).le

/-- So does a poll after another connection was stored, if it was not the turn of `c`: that takes a
turn, too. -/
theorem store_poll_turnsLeft {k : Conn} {addr port : UInt8} (hkc : k ≠ c)
    (hspare : turnsLeft t.tick v ≠ 0) (hu : (t.entries v).used = true)
    (hc : (t.entries v).conn = some c) (hr : recvFromConnTimeout maxLen (reads v) = .ok data)
    (hack : .sendAck c ∉ ((t.store k addr port).1.poll maxLen timeoutMs acceptMs reads).calls)
    (hc₁ : (((t.store k addr port).1.poll maxLen timeoutMs acceptMs reads).table.entries v).conn =
      some c) :
    turnsLeft ((t.store k addr port).1.poll maxLen timeoutMs acceptMs reads).table.tick v +
        (if ((t.store k addr port).1.poll maxLen timeoutMs acceptMs reads).res.isOk then 1 else 0) ≤
      turnsLeft t.tick v := by
  -- `c` is still in its slot, so the other connection was stored elsewhere.
  have hslot : v ≠ t.storeSlot addr port := by
    intro hv
    have hk := poll_conn hc₁
    rw [entries_store, if_pos hv] at hk
    exact hkc (Option.some.inj hk)
  have hent : (t.store k addr port).1.entries v = t.entries v := by
    rw [entries_store, if_neg hslot]
  refine (poll_turnsLeft (hent ▸ hu) (hent ▸ hc) hr hack).trans ?_
  have hstore : turnsLeft (t.store k addr port).1.tick v + 1 = turnsLeft t.tick v :=
    turnsLeft_succ hspare
  omega

end RxTable

/-! ## Runs -/

/-- A call that passes over `c` takes a turn for each bundle. -/
theorem turnsLeft_call (hs : recvSys.Reach s) (hin : InSlot c v s)
    (hr : recvFromConnTimeout maxLen (env.reads v) = .ok data)
    (hack : .sendAck c ∉ (recvBundle s.globals s.inst maxLen timeoutMs env).calls)
    (hstep : (recvSys.guard (SparesTurn v)).step s (.recv maxLen timeoutMs env) = some s₁)
    (hin₁ : InSlot c v s₁) :
    turnsLeft s₁.inst.rx.tick v +
        (if (recvBundle s.globals s.inst maxLen timeoutMs env).res.isOk then 1 else 0) ≤
      turnsLeft s.inst.rx.tick v := by
  obtain ⟨hspare, hstep⟩ := Lts.guard_step.mp hstep
  simp only [recvSys, recvStep] at hstep
  split at hstep
  swap
  · cases hstep
  rename_i hnew
  obtain rfl := Option.some.inj hstep
  cases hi : s.inst.initialized with
  | false =>
    have hb : recvBundle s.globals s.inst maxLen timeoutMs env =
        ⟨s.globals, s.inst, .error .notInitialized, []⟩ := by simp [recvBundle, hi]
    rw [hb]
    exact le_rfl
  | true =>
    obtain ⟨-, -, stack, ⟨-, hrx, ⟨err, herr⟩, -⟩ | ⟨-, r, hpoll, hrx, hres, hcalls⟩⟩ :=
      recvBundle_cases s.globals hi maxLen timeoutMs env
    · show turnsLeft (recvBundle s.globals s.inst maxLen timeoutMs env).inst.rx.tick v + _ ≤ _
      rw [hrx, herr]
      exact le_rfl
    have hack' : .sendAck c ∉ r.calls := fun hm => hack (by
      rw [hcalls]
      exact List.mem_append_right _ (List.mem_cons_of_mem _ (List.mem_append_right _ hm)))
    obtain ⟨hu₁, hc₁⟩ := hin₁
    show turnsLeft (recvBundle s.globals s.inst maxLen timeoutMs env).inst.rx.tick v + _ ≤ _
    change ((recvBundle s.globals s.inst maxLen timeoutMs env).inst.rx.entries v).conn = _ at hc₁
    rw [hrx] at hc₁ ⊢
    rw [hres]
    cases ha : env.accept with
    | none =>
      rw [ha, RxTable.withAccepted] at hpoll
      subst hpoll
      exact poll_turnsLeft hin.1 hin.2 hr hack'
    | some a =>
      obtain ⟨k, addr, port⟩ := a
      rw [ha, RxTable.withAccepted] at hpoll
      subst hpoll
      have hown := rxOwns_inductive.reach hs
      have hkc : k ≠ c := by
        rintro rfl
        refine hnew _ ha ?_
        exact hown.holds.ok.nodup_live.2 k ((hown.holds.live k).mpr ⟨v, hin.2⟩)
      exact store_poll_turnsLeft hkc (hspare (by rw [ha]; rfl)) hin.1 hin.2 hr hack' hc₁

theorem passedOver_inSlot {S : Lts RecvRun RecvOp} {s' : RecvRun} {n : Nat}
    (h : PassedOver S c v s n s') : InSlot c v s := by
  cases h <;> assumption

/-- A connection that stays in its slot with a bundle ready is not starved: if no connection is
stored at its turn, at most 8 calls return bundles of others. -/
theorem not_starved (hs : recvSys.Reach s) {n : Nat} {s' : RecvRun}
    (h : PassedOver (recvSys.guard (SparesTurn v)) c v s n s') : n ≤ rxConnTableSize := by
  have hleft : n ≤ turnsLeft s.inst.rx.tick v := by
    induction h with
    | nil => exact Nat.zero_le _
    | call hin hr hack hstep hrest ih =>
      have := turnsLeft_call hs hin hr hack hstep (passedOver_inSlot hrest)
      have := ih (hs.step (Lts.guard_step.mp hstep).2)
      omega
  exact hleft.trans (turnsLeft_lt _ v).le

theorem passedOver_of_eq {S : Lts RecvRun RecvOp} {l : List (Nat × UInt32 × RecvEnv)} {n : Nat}
    {s' : RecvRun} (h : passOver S c v s l = some (n, s')) : PassedOver S c v s n s' := by
  induction l generalizing s n with
  | nil =>
    rw [passOver] at h
    split at h
    · rename_i hin
      cases h
      exact .nil hin
    · cases h
  | cons op l ih =>
    obtain ⟨maxLen, timeoutMs, env⟩ := op
    rw [passOver] at h
    split at h
    · rename_i hok
      obtain ⟨hin, hr, hack⟩ := hok
      obtain ⟨s₁, hs, h⟩ := Option.bind_eq_some_iff.mp h
      obtain ⟨⟨m, s''⟩, hp, heq⟩ := Option.map_eq_some_iff.mp h
      cases heq
      cases hd : recvFromConnTimeout maxLen (env.reads v) with
      | error e =>
        rw [hd] at hr
        cases hr
      | ok data => exact .call hin hd hack hs (ih hp)
    · cases h

/-- Peer (5, 10) connects with connection 0 and peer (6, 10) with connection 1, and then the first
sends a bundle. -/
def twoPeers : List RecvOp :=
  [.recv 100 0 { idleEnv with accept := some (0, 5, 10) },
    .recv 100 0 { idleEnv with accept := some (1, 6, 10) },
    .recv 100 0 { idleEnv with reads := fun i => if i = 0 then .data (some [7]) else .fail (-3) }]

/-- Every connection has a bundle. -/
def busyEnv : RecvEnv := ⟨⟨none, 0, 0⟩, none, fun _ => .data (some [7])⟩

/-- Both peers have bundles, and the second one waits for one bundle of the first. -/
theorem not_starved_two_peers :
    ∃ s s', recvSys.exec newRun twoPeers = some s ∧
      PassedOver (recvSys.guard (SparesTurn 1)) 1 1 s 1 s' ∧ 1 ≤ rxConnTableSize := by
  obtain ⟨s, hs⟩ : ∃ s, recvSys.exec newRun twoPeers = some s := ⟨_, rfl⟩
  have hp : ((recvSys.exec newRun twoPeers).bind fun s =>
      (passOver (recvSys.guard (SparesTurn 1)) 1 1 s [(100, 0, busyEnv)]).map Prod.fst) =
        some 1 := by decide +kernel
  rw [hs, Option.bind_some] at hp
  obtain ⟨⟨n, s'⟩, hp, rfl⟩ := Option.map_eq_some_iff.mp hp
  have h := passedOver_of_eq hp
  exact ⟨s, s', hs, h, not_starved (.of_exec ⟨rfl, rfl, rfl⟩ hs) h⟩

/-- The first peer reconnects, as connection `k`, and sends a bundle. -/
def reconnect (k : Conn) : Nat × UInt32 × RecvEnv :=
  (100, 0, { busyEnv with accept := some (k, 5, 10) })

/-- The first peer reconnects before each of its bundles: nine of them are received in a row, and
none of the second peer. -/
theorem starved_by_reconnects :
    ∃ s s', recvSys.Reach s ∧ PassedOver recvSys 1 1 s 9 s' ∧ ¬ 9 ≤ rxConnTableSize := by
  obtain ⟨s, hs⟩ : ∃ s, recvSys.exec newRun twoPeers = some s := ⟨_, rfl⟩
  have hp : ((recvSys.exec newRun twoPeers).bind fun s =>
      (passOver recvSys 1 1 s ((List.range 9).map fun k => reconnect (k + 2))).map Prod.fst) =
        some 9 := by decide +kernel
  rw [hs, Option.bind_some] at hp
  obtain ⟨⟨n, s'⟩, hp, rfl⟩ := Option.map_eq_some_iff.mp hp
  exact ⟨s, s', .of_exec ⟨rfl, rfl, rfl⟩ hs, passedOver_of_eq hp, by decide⟩

end Cspcl
