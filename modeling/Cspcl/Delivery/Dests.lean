import Cspcl.Delivery.Acks

/-!
# Where the connections lead

A pool opens a connection for one destination, and uses it for no other one.

* `ConnPool.Leads`: a pooled connection and its destination. `leads_of_getOrCreateLocked`: a lookup
  gives no connection another destination.
* `Tx.Dests`: all attempts on one connection come from one instance and go to one destination.
-/

namespace Cspcl

open Ledger

namespace ConnPool

variable {p : ConnPool} {i : Fin connPoolSize} {addr port a b : UInt8} {c : Conn}

/-- The pool has the connection, for the destination. -/
def Leads (p : ConnPool) (c : Conn) (addr port : UInt8) : Prop :=
  ∃ i, (p.entries i).conn = some c ∧ (p.entries i).destAddr = addr ∧ (p.entries i).destPort = port

theorem Leads.has (h : p.Leads c addr port) : p.Has c := h.imp fun _ hi => hi.1

theorem Has.leads (h : p.Has c) : ∃ addr port, p.Leads c addr port := by
  obtain ⟨i, hi⟩ := h
  exact ⟨_, _, i, hi, rfl, rfl⟩

/-- Each connection has one entry, so one destination. -/
theorem Owns.leads_unique {t : List (Act Conn)} (h : p.Owns t) (hab : p.Leads c addr port)
    (hcd : p.Leads c a b) : a = addr ∧ b = port := by
  obtain ⟨i, hi, rfl, rfl⟩ := hab
  obtain ⟨j, hj, rfl, rfl⟩ := hcd
  obtain rfl := h.inj i j c hi hj
  exact ⟨rfl, rfl⟩

theorem leads_of_clear (h : (p.clear i).Leads c addr port) : p.Leads c addr port := by
  obtain ⟨j, hj, haddr, hport⟩ := h
  rw [entries_clear] at hj haddr hport
  split at hj
  · cases hj
  · rename_i hne
    rw [if_neg hne] at haddr hport
    exact ⟨j, hj, haddr, hport⟩

theorem leads_of_touch (h : (p.touch i).Leads c addr port) : p.Leads c addr port := by
  obtain ⟨j, hj, haddr, hport⟩ := h
  rw [entries_touch] at hj haddr hport
  by_cases hji : j = i
  · subst hji
    rw [if_pos rfl] at hj haddr hport
    exact ⟨j, hj, haddr, hport⟩
  · rw [if_neg hji] at hj haddr hport
    exact ⟨j, hj, haddr, hport⟩

theorem leads_of_connectInto {env : GetEnv} (h : (p.connectInto i addr port env).1.Leads c a b) :
    p.Leads c a b ∨ env.connect = some c ∧ a = addr ∧ b = port := by
  obtain ⟨j, hj, ha, hb⟩ := h
  cases hc : env.connect with
  | none =>
    rw [(connectInto_none _ _ _ _ hc).1] at hj ha hb
    exact .inl ⟨j, hj, ha, hb⟩
  | some d =>
    rw [(connectInto_some p i addr port hc).1, entries_store] at hj ha hb
    by_cases hji : j = i
    · rw [if_pos hji] at hj ha hb
      exact .inr ⟨hj, ha.symm, hb.symm⟩
    · rw [if_neg hji] at hj ha hb
      exact .inl ⟨j, hj, ha, hb⟩

/-- A pooled connection keeps its destination; the new one has that of the lookup. -/
theorem leads_of_getOrCreateLocked (hu : p.UsedConn) {env : GetEnv}
    (h : (p.getOrCreateLocked addr port env).1.Leads c a b) :
    p.Leads c a b ∨ env.connect = some c ∧ a = addr ∧ b = port := by
  rcases getOrCreateLocked_cases addr port hu env with
    ⟨i, d, -, -, -, he⟩ | ⟨i, d, f, r, -, -, -, -, rfl, he⟩ | ⟨q, r, -, rfl, rfl, he⟩ <;>
    rw [he] at h
  · exact .inl (leads_of_touch (p := p.bump) h)
  · exact (leads_of_connectInto h).imp_left fun h' => leads_of_clear (p := p.bump) h'
  · refine (leads_of_connectInto h).imp_left fun h' => ?_
    rcases findFreeOrEvictLocked_cases (p := p.bump) with ⟨i, -, hq⟩ | ⟨-, hq⟩ <;> rw [hq] at h'
    · exact h'
    · exact leads_of_clear (p := p.bump) h'

theorem leads_of_invalidateLocked (h : (p.invalidateLocked addr port).1.Leads c a b) :
    p.Leads c a b := by
  unfold invalidateLocked at h
  split at h
  · exact leads_of_clear (p := p) h
  · exact h

/-- The connection that a lookup returns has the destination of the lookup. -/
theorem leads_getOrCreateLocked (hu : p.UsedConn) {env : GetEnv}
    (hr : (p.getOrCreateLocked addr port env).2.1 = some c) :
    (p.getOrCreateLocked addr port env).1.Leads c addr port := by
  obtain ⟨i, hi, hc⟩ := serves_getOrCreateLocked hu env hr
  obtain ⟨⟨-, haddr, hport⟩, -⟩ := findDest_eq_some.mp hi
  exact ⟨i, hc, haddr, hport⟩

end ConnPool

/-- The call has the source and the destination of the other one. -/
structure SendCall.Alike (k l : SendCall) : Prop where
  inst : k.inst = l.inst
  addr : k.addr = l.addr
  port : k.port = l.port

/-- The attempts on a connection are all from the pool that has it, to the destination that the
connection was opened for. -/
structure Tx.Dests (s : Tx) : Prop where
  pooled : ∀ i c addr port, (s.pool i).Leads c addr port → ∀ y ∈ s.attempts, y.conn = c →
    y.call.inst = i ∧ y.call.addr = addr ∧ y.call.port = port
  same : ∀ x ∈ s.attempts, ∀ y ∈ s.attempts, x.conn = y.conn → x.call.Alike y.call

namespace Tx.Dests

variable {s s' : Tx} {t : Nat} {k : SendCall} {pc : SendPc}

/-- The pools keep the destinations of their connections, and no attempt is new. -/
theorem shrink (h : s.Dests) (hat : s'.attempts = s.attempts)
    (hp : ∀ i c addr port, (s'.pool i).Leads c addr port → (s.pool i).Leads c addr port) :
    s'.Dests where
  pooled i c addr port hl y hy := by
    rw [hat] at hy
    exact h.pooled i c addr port (hp i c addr port hl) y hy
  same := by
    rw [hat]
    exact h.same

theorem get {n : Nat} {ret : CspErr} {env : ConnPool.GetEnv} (h : s.Dests) (hinv : s.TxInv)
    (hinv' : (s.get t k n ret env).TxInv)
    (hnew : env.connect = none ∨ env.connect = some s.next) : (s.get t k n ret env).Dests := by
  have hu := (hinv.pools.owns k.inst).usedConn
  have hpool : (s.get t k n ret env).pool = Function.update s.pool k.inst
      ((s.pool k.inst).getOrCreateLocked k.addr k.port env).1 := by
    unfold Tx.get
    dsimp only
    split <;> rfl
  -- The old attempts are on connections that the pools had.
  have hold : ∀ i c addr port, ((s.get t k n ret env).pool i).Leads c addr port →
      ∀ y ∈ s.attempts, y.conn = c →
        y.call.inst = i ∧ y.call.addr = addr ∧ y.call.port = port := by
    intro i c addr port hl y hy hyc
    rw [hpool, Function.update_apply] at hl
    split at hl
    · rename_i hi
      subst hi
      rcases ConnPool.leads_of_getOrCreateLocked hu hl with hl | ⟨hc, -, -⟩
      · exact h.pooled _ c addr port hl y hy hyc
      · have hlt := hinv.conns.lt y hy
        rcases hnew with hn | hn
        · rw [hn] at hc
          cases hc
        · obtain rfl : s.next = c := Option.some.inj (hn.symm.trans hc)
          rw [hyc] at hlt
          exact absurd hlt (lt_irrefl _)
    · exact h.pooled i c addr port hl y hy hyc
  cases hr : ((s.pool k.inst).getOrCreateLocked k.addr k.port env).2.1 with
  | none =>
    have hat : (s.get t k n ret env).attempts = s.attempts := by
      unfold Tx.get
      dsimp only
      rw [hr]
      rfl
    refine ⟨fun i c addr port hl y hy => ?_, ?_⟩
    · rw [hat] at hy
      exact hold i c addr port hl y hy
    · rw [hat]
      exact h.same
  | some c =>
    have hat : (s.get t k n ret env).attempts = s.attempts ++ [⟨k, n, c⟩] := by
      unfold Tx.get
      dsimp only
      rw [hr]
      rfl
    have hlead : ((s.get t k n ret env).pool k.inst).Leads c k.addr k.port := by
      rw [hpool, Function.update_self]
      exact ConnPool.leads_getOrCreateLocked hu hr
    refine ⟨fun i d addr port hl y hy hyd => ?_, fun x hx y hy hxy => ?_⟩
    · rw [hat] at hy
      rcases List.mem_append.mp hy with hy | hy
      · exact hold i d addr port hl y hy hyd
      · obtain rfl := List.mem_singleton.mp hy
        -- The connection of the new attempt is in no other pool.
        subst hyd
        obtain rfl := hinv'.pools.eq_of_has hlead.has hl.has
        exact ⟨rfl, (hinv'.pools.owns k.inst).leads_unique hl hlead⟩
    · rw [hat] at hx hy
      rcases List.mem_append.mp hx with hx | hx
      · rcases List.mem_append.mp hy with hy | hy
        · exact h.same x hx y hy hxy
        · obtain rfl := List.mem_singleton.mp hy
          obtain ⟨hi, ha, hp⟩ := hold _ _ _ _ hlead x hx hxy
          exact ⟨hi, ha, hp⟩
      · obtain rfl := List.mem_singleton.mp hx
        rcases List.mem_append.mp hy with hy | hy
        · obtain ⟨hi, ha, hp⟩ := hold _ _ _ _ hlead y hy hxy.symm
          exact ⟨hi.symm, ha.symm, hp.symm⟩
        · obtain rfl := List.mem_singleton.mp hy
          exact ⟨rfl, rfl, rfl⟩

theorem invalidate {x : Attempt} {ret : CspErr} (h : s.Dests) : (s.invalidate t x ret).Dests := by
  refine h.shrink rfl fun i c addr port hl => ?_
  simp only [Tx.invalidate, Tx.goto, Tx.setPool, Function.update_apply] at hl
  split at hl
  · rename_i hi
    rw [hi]
    exact ConnPool.leads_of_invalidateLocked hl
  · exact hl

/-- Only the log of a pool changes. -/
theorem log {i : Nat} (h : s.Dests) (hat : s'.attempts = s.attempts)
    (hp : s'.pool = Function.update s.pool i (s.pool i)) : s'.Dests := by
  refine h.shrink hat fun j c addr port hl => ?_
  rw [hp, Function.update_eq_self] at hl
  exact hl

end Tx.Dests

namespace World

variable {w w' : World}

theorem Inv.dests {op : DeliveryOp} (h : w.Inv) (hd : w.tx.Dests) (hs : w.step op = some w') :
    w'.tx.Dests := by
  have hinv := h.step hs
  cases op with
  | send t i bundle addr port =>
    simp only [World.step] at hs
    split at hs
    · obtain rfl := Option.some.inj hs
      have hsame : (w.tx.begin (w.initialized i) t ⟨w.tx.started, i, bundle, addr, port⟩).attempts =
          w.tx.attempts ∧ (w.tx.begin (w.initialized i) t ⟨w.tx.started, i, bundle, addr, port⟩).pool =
          w.tx.pool := by
        unfold Tx.begin
        dsimp only
        split <;> exact ⟨rfl, rfl⟩
      exact hd.shrink hsame.1 fun i c addr port hl => hsame.2 ▸ hl
    · cases hs
  | lock t ok =>
    simp only [World.step] at hs
    split at hs
    · split at hs
      · obtain rfl := Option.some.inj hs
        exact hd.shrink rfl fun _ _ _ _ hl => hl
      · split at hs
        · obtain rfl := Option.some.inj hs
          exact hd.shrink rfl fun _ _ _ _ hl => hl
        · cases hs
    · cases hs
  | get t env =>
    simp only [World.step] at hs
    split at hs
    · split at hs
      · rename_i hnew
        obtain rfl := Option.some.inj hs
        exact hd.get h.tx hinv.tx hnew
      · cases hs
    · cases hs
  | queue t =>
    simp only [World.step] at hs
    split at hs
    · split at hs
      · obtain rfl := Option.some.inj hs
        exact hd.shrink rfl fun _ _ _ _ hl => hl
      · cases hs
    · cases hs
  | sfpSend t ret =>
    simp only [World.step] at hs
    split at hs
    · split at hs
      · cases hs
      · obtain rfl := Option.some.inj hs
        exact hd.log rfl rfl
    · cases hs
  | read t packet =>
    simp only [World.step] at hs
    split at hs
    · split at hs
      · obtain rfl := Option.some.inj hs
        exact hd.log rfl rfl
      · split at hs
        · obtain rfl := Option.some.inj hs
          exact hd.log rfl rfl
        · cases hs
    · cases hs
  | invalidate t =>
    simp only [World.step] at hs
    split at hs
    · obtain rfl := Option.some.inj hs
      exact hd.invalidate
    · cases hs
  | unlock t ok =>
    simp only [World.step] at hs
    split at hs
    · obtain rfl := Option.some.inj hs
      cases ok <;> exact hd.shrink rfl fun _ _ _ _ hl => hl
    · cases hs
  | _ =>
    rcases step_tx hs with ⟨-, htx, -⟩ | ⟨t, pc, hsend, -⟩
    · rw [htx]
      exact hd
    · cases hsend

end World

end Cspcl
