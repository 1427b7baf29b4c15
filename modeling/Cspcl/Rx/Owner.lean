import Cspcl.Lib.Ledger
import Cspcl.Lib.Lts
import Cspcl.Rx.Recv

/-!
# Who owns the accepted connections

The calls of `cspcl_recv_bundle` and `cspcl_cleanup` are a ledger (`Cspcl.Lib.Ledger`) of the
accepted connections: `csp_accept` brings one in, `csp_close` releases one. `RxOwns t log` ties the
receive table to it: the live connections are those in the table, each in one slot, with the address
and the port that `csp_accept` gave with it, and no two slots are for one peer. Each operation on
the table keeps it, so every run of `recvSys` does (`rx_owned`).
-/

namespace Cspcl

open Ledger

/-- What a call does to the accepted connections. -/
def RxCall.act : RxCall → Option (Act Conn)
  | .accept _ (some a) => some (.adopt a.1)
  | .sfpRecv c _ _ => some (.use c)
  | .sendAck c => some (.use c)
  | .close c => some (.release c)
  | .accept _ none | .stack _ | .split .. => none

/-- The ledger of a list of calls. -/
def rxActs (log : List RxCall) : List (Act Conn) := log.filterMap RxCall.act

variable {t : RxTable} {log calls : List RxCall} {i : Fin rxConnTableSize} {c : Conn}
  {addr port : UInt8}

@[simp] theorem rxActs_append : rxActs (log ++ calls) = rxActs log ++ rxActs calls := by
  simp [rxActs]

@[simp] theorem rxActs_close (l : List Conn) : rxActs (l.map .close) = l.map .release := by
  induction l with
  | nil => rfl
  | cons a l ih => simpa [rxActs, RxCall.act] using ih

@[simp] theorem rxActs_stack (l : List StackCall) : rxActs (l.map .stack) = [] := by
  simp [rxActs, RxCall.act]

namespace RxTable

/-- The connections of the slots. -/
def conns (t : RxTable) (i : Fin rxConnTableSize) : Option Conn := (t.entries i).conn

/-- The table holds the live connections of the log, each in one slot, one for each peer. -/
structure RxOwns (t : RxTable) (log : List RxCall) : Prop where
  used_iff : ∀ i, (t.entries i).used = true ↔ (t.entries i).conn ≠ none
  peer : ∀ i j, (t.entries i).used = true → (t.entries j).used = true →
    (t.entries i).srcAddr = (t.entries j).srcAddr →
    (t.entries i).srcPort = (t.entries j).srcPort → i = j
  holds : Holds t.conns rxConnTableSize (rxActs log)
  /-- The source of an entry is that of its connection. -/
  source : ∀ i c, (t.entries i).conn = some c →
    ∃ ms, .accept ms (some (c, (t.entries i).srcAddr, (t.entries i).srcPort)) ∈ log

/-- Calls that are no acts. -/
theorem RxOwns.silent (h : t.RxOwns log) (hc : rxActs calls = []) : t.RxOwns (log ++ calls) where
  used_iff := h.used_iff
  peer := h.peer
  holds := by simpa [hc] using h.holds
  source i c hi := by
    obtain ⟨ms, hm⟩ := h.source i c hi
    exact ⟨ms, List.mem_append_left _ hm⟩

theorem rxOwns_zero : zero.RxOwns [] :=
  ⟨by simp [zero], by simp [zero], holds_empty _, by simp [zero]⟩

/-- A read or an ack on a connection of the table. -/
theorem RxOwns.use {a : RxCall} (h : t.RxOwns log) (hi : (t.entries i).conn = some c)
    (ha : a.act = some (.use c)) : t.RxOwns (log ++ [a]) where
  used_iff := h.used_iff
  peer := h.peer
  holds := by
    have hact : rxActs [a] = [.use c] := by simp [rxActs, ha]
    rw [rxActs_append, hact]
    exact h.holds.use (i := i) hi
  source i c hi := by
    obtain ⟨ms, hm⟩ := h.source i c hi
    exact ⟨ms, List.mem_append_left _ hm⟩

theorem conns_drop : (t.drop i).conns = Function.update t.conns i none := by
  funext j
  unfold conns
  rw [entries_drop, Function.update_apply]
  split <;> rfl

/-- A broken connection is closed and forgotten. -/
theorem RxOwns.drop (h : t.RxOwns log) (hi : (t.entries i).conn = some c) :
    (t.drop i).RxOwns (log ++ [.close c]) := by
  have hold : ∀ {j}, ((t.drop i).entries j).used = true →
      (t.drop i).entries j = t.entries j := by
    intro j hj
    rw [entries_drop] at hj ⊢
    split at hj
    · cases hj
    · rw [if_neg ‹_›]
  constructor
  · intro j
    rw [entries_drop]
    split
    · simp
    · exact h.used_iff j
  · intro j k hj hk ha hp
    have ej := hold hj
    have ek := hold hk
    rw [ej] at hj
    rw [ek] at hk
    rw [ej, ek] at ha hp
    exact h.peer j k hj hk ha hp
  · rw [conns_drop, rxActs_append]
    exact h.holds.release hi
  · intro j d hj
    rw [entries_drop] at hj ⊢
    split at hj
    · cases hj
    · rw [if_neg ‹_›]
      obtain ⟨ms, hm⟩ := h.source j d hj
      exact ⟨ms, List.mem_append_left _ hm⟩

/-- A bundle was received: only ticks change. -/
theorem RxOwns.touch (h : t.RxOwns log) : (t.touch i).RxOwns log := by
  have hsame : ∀ j, ((t.touch i).entries j).used = (t.entries j).used ∧
      ((t.touch i).entries j).conn = (t.entries j).conn ∧
      ((t.touch i).entries j).srcAddr = (t.entries j).srcAddr ∧
      ((t.touch i).entries j).srcPort = (t.entries j).srcPort := by
    intro j
    simp only [RxTable.touch, Function.update_apply]
    split
    · subst_vars; exact ⟨rfl, rfl, rfl, rfl⟩
    · exact ⟨rfl, rfl, rfl, rfl⟩
  have hconns : (t.touch i).conns = t.conns := funext fun j => (hsame j).2.1
  refine ⟨fun j => ?_, fun j k => ?_, hconns ▸ h.holds, fun j d hj => ?_⟩
  · rw [(hsame j).1, (hsame j).2.1]
    exact h.used_iff j
  · rw [(hsame j).1, (hsame k).1, (hsame j).2.2.1, (hsame k).2.2.1, (hsame j).2.2.2,
      (hsame k).2.2.2]
    exact h.peer j k
  · rw [(hsame j).2.1] at hj
    rw [(hsame j).2.2.1, (hsame j).2.2.2]
    exact h.source j d hj

/-- The slot that `cspcl_rx_table_store` takes. -/
def storeSlot (t : RxTable) (addr port : UInt8) : Fin rxConnTableSize :=
  (t.slotFor addr port).getD (Table.leastIdx fun i => (t.entries i).lastActive.toNat)

theorem entries_store (j : Fin rxConnTableSize) :
    (t.store c addr port).1.entries j =
      if j = t.storeSlot addr port then ⟨true, some c, addr, port, t.tick + 1⟩
      else t.entries j := by
  unfold store storeSlot
  cases t.slotFor addr port <;> simp [Function.update_apply]

/-- An entry of the peer is the slot taken. -/
theorem storeSlot_of_peer (h : t.RxOwns log) (hu : (t.entries i).used = true)
    (ha : (t.entries i).srcAddr = addr) (hp : (t.entries i).srcPort = port) :
    t.storeSlot addr port = i := by
  unfold storeSlot slotFor
  cases hf : Fin.find? fun i => (t.entries i).used && (t.entries i).srcAddr == addr &&
      (t.entries i).srcPort == port with
  | none =>
    have := Fin.find?_eq_none_iff.mp hf i
    simp [hu, ha, hp] at this
  | some j =>
    have hj := Fin.eq_true_of_find?_eq_some hf
    simp only [Bool.and_eq_true, beq_iff_eq] at hj
    simpa using h.peer j i hj.1.1 hu (hj.1.2.trans ha.symm) (hj.2.trans hp.symm)

/-- What the store closes: the old connection of the slot taken. -/
theorem closed_store (h : t.RxOwns log) (hnew : c ∉ incoming (rxActs log)) :
    (t.store c addr port).2 = (t.entries (t.storeSlot addr port)).conn.toList := by
  unfold store storeSlot
  cases hs : t.slotFor addr port with
  | none => rfl
  | some i =>
    simp only [Option.getD_some]
    split
    · -- The old connection is another one.
      have hfilter : (t.entries i).conn.filter (· ≠ c) = (t.entries i).conn := by
        cases hi : (t.entries i).conn with
        | none => rfl
        | some d =>
          rw [Option.filter_some, if_pos]
          have hd : d ∈ incoming (rxActs log) :=
            h.holds.ok.nodup_live.2 d ((h.holds.live d).mpr ⟨i, hi⟩)
          simp only [ne_eq, decide_eq_true_eq]
          rintro rfl
          exact hnew hd
      rw [hfilter]
    · rename_i hu
      have hnone : (t.entries i).conn = none := by
        by_contra hc
        exact hu ((h.used_iff i).mpr hc)
      rw [hnone]
      rfl

/-- A new connection is stored, and the one whose slot it takes is closed. -/
theorem RxOwns.store (h : t.RxOwns log) (ms : UInt32) (hnew : c ∉ incoming (rxActs log)) :
    (t.store c addr port).1.RxOwns
      (log ++ .accept ms (some (c, addr, port)) :: (t.store c addr port).2.map .close) := by
  rw [closed_store h hnew]
  have hconns : (t.store c addr port).1.conns =
      Function.update t.conns (t.storeSlot addr port) (some c) := by
    funext j
    unfold conns
    rw [entries_store, Function.update_apply]
    split <;> rfl
  constructor
  · intro j
    rw [entries_store]
    split
    · simp
    · exact h.used_iff j
  · intro j k hj hk ha hp
    rw [entries_store] at hj ha hp
    rw [entries_store] at hk ha hp
    split at hj <;> split at hk
    · subst_vars; rfl
    · rw [if_pos ‹_›, if_neg ‹_›] at ha hp
      rw [‹j = _›]
      exact storeSlot_of_peer h hk ha.symm hp.symm
    · rw [if_neg ‹_›, if_pos ‹_›] at ha hp
      rw [‹k = _›]
      exact (storeSlot_of_peer h hj ha hp).symm
    · rw [if_neg ‹_›, if_neg ‹_›] at ha hp
      exact h.peer j k hj hk ha hp
  · have hacts : rxActs (.accept ms (some (c, addr, port)) ::
        (t.entries (t.storeSlot addr port)).conn.toList.map .close) =
        .adopt c :: (t.conns (t.storeSlot addr port)).toList.map .release := by
      show .adopt c :: rxActs _ = _
      rw [rxActs_close]
      rfl
    rw [hconns, rxActs_append, hacts]
    exact h.holds.replace hnew _
  · intro j d hj
    rw [entries_store] at hj ⊢
    split at hj
    · cases hj
      rw [if_pos ‹_›]
      exact ⟨ms, List.mem_append_right _ List.mem_cons_self⟩
    · rw [if_neg ‹_›]
      obtain ⟨ms', hm⟩ := h.source j d hj
      exact ⟨ms', List.mem_append_left _ hm⟩

/-- `cspcl_cleanup` closes what is in the table. -/
theorem RxOwns.clear (h : t.RxOwns log) : t.clear.RxOwns (log ++ t.openConns.map .close) := by
  have hopen : t.openConns = (List.finRange rxConnTableSize).filterMap t.conns := by
    refine List.filterMap_congr fun i _ => ?_
    split
    · rfl
    · rename_i hu
      have := (h.used_iff i).not.mp hu
      exact (not_not.mp this).symm
  refine ⟨by simp [RxTable.clear], by simp [RxTable.clear], ?_, by simp [RxTable.clear]⟩
  rw [rxActs_append, rxActs_close, hopen]
  exact h.holds.releaseAll (List.nodup_finRange _) fun i _ _ => List.mem_finRange i

end RxTable

theorem recvFromConnTimeout_ok {maxLen : Nat} {read : SfpRecv} {data : Bundle}
    (h : recvFromConnTimeout maxLen read = .ok data) : read = .data (some data) := by
  cases read with
  | fail ret => simp [recvFromConnTimeout] at h
  | data d =>
    cases d with
    | none => simp [recvFromConnTimeout] at h
    | some d =>
      simp only [recvFromConnTimeout] at h
      split at h
      · cases h
      split at h
      · cases h
      · cases h
        rfl

/-- A read of an entry with the connection `c`: a bundle, which is acked, or an error. -/
theorem recvFromEntry_cases {e : RxEntry} (maxLen : Nat) (timeoutMs : UInt32) (read : SfpRecv)
    (hc : e.conn = some c) :
    (∃ data, read = .data (some data) ∧
      recvFromEntry maxLen e timeoutMs read = (.ok data, [.sfpRecv c timeoutMs read, .sendAck c])) ∨
    (∃ err, recvFromEntry maxLen e timeoutMs read = (.error err, [.sfpRecv c timeoutMs read])) := by
  unfold recvFromEntry
  simp only [hc]
  cases hr : recvFromConnTimeout maxLen read with
  | ok data => exact .inl ⟨data, recvFromConnTimeout_ok hr, rfl⟩
  | error err => exact .inr ⟨err, rfl⟩

/-- The bundle `r` was read and acked on a connection that `csp_accept` gave with its source. -/
def ReadFrom (log calls : List RxCall) (r : Reported) : Prop :=
  ∃ c ms, .sfpRecv c ms (.data (some r.1)) ∈ calls ∧ .sendAck c ∈ calls ∧
    ∃ ms', .accept ms' (some (c, r.2)) ∈ log

namespace RxTable

/-- The loop over the table. -/
theorem RxOwns.scan (h : t.RxOwns log) (maxLen : Nat) (rt : UInt32)
    (reads : Fin rxConnTableSize → SfpRecv) (start : Nat) (ns : List Nat) :
    (t.scan maxLen rt reads start ns).table.RxOwns
        (log ++ (t.scan maxLen rt reads start ns).calls) ∧
      ∀ r, (t.scan maxLen rt reads start ns).res = .ok r →
        ReadFrom (log ++ (t.scan maxLen rt reads start ns).calls)
          (t.scan maxLen rt reads start ns).calls r := by
  induction ns generalizing t log with
  | nil =>
    simp only [RxTable.scan, List.append_nil]
    exact ⟨h, fun r hr => by cases hr⟩
  | cons n ns ih =>
    simp only [RxTable.scan]
    split
    · exact ih h
    rename_i hu
    have hu : (t.entries (slotAt start n)).used = true := by simpa using hu
    obtain ⟨c, hc⟩ := Option.ne_none_iff_exists'.mp ((h.used_iff _).mp hu)
    have hread := h.use (a := .sfpRecv c rt (reads (slotAt start n))) hc rfl
    rcases recvFromEntry_cases maxLen rt (reads (slotAt start n)) hc with
      ⟨data, hd, he⟩ | ⟨err, he⟩
    · -- A bundle: it has the source of the entry.
      simp only [he]
      constructor
      · have := (hread.use (a := .sendAck c) hc rfl).touch (i := slotAt start n)
        simpa using this
      · intro r hr
        cases hr
        obtain ⟨ms, hm⟩ := h.source _ c hc
        exact ⟨c, rt, by simp [hd], by simp, ms, List.mem_append_left _ hm⟩
    · simp only [he]
      -- What the rest of the loop reads, it reads after this call too.
      have hrest : ∀ {t' : RxTable} {calls : List RxCall}, t'.RxOwns (log ++ calls) →
          (t'.scan maxLen rt reads start ns).table.RxOwns
              (log ++ (calls ++ (t'.scan maxLen rt reads start ns).calls)) ∧
            ∀ r, (t'.scan maxLen rt reads start ns).res = .ok r →
              ReadFrom (log ++ (calls ++ (t'.scan maxLen rt reads start ns).calls))
                (calls ++ (t'.scan maxLen rt reads start ns).calls) r := by
        intro t' calls h'
        obtain ⟨hown, hsrc⟩ := ih h'
        rw [← List.append_assoc]
        refine ⟨hown, fun r hr => ?_⟩
        obtain ⟨d, ms, hr, ha, hm⟩ := hsrc r hr
        exact ⟨d, ms, List.mem_append_right _ hr, List.mem_append_right _ ha, hm⟩
      split
      · exact hrest hread
      · have hdrop := hread.drop hc
        rw [List.append_assoc] at hdrop
        have := hrest hdrop
        simpa [hc] using this

/-- The part of `cspcl_recv_bundle` after the accept. -/
theorem RxOwns.poll (h : t.RxOwns log) (maxLen : Nat) (timeoutMs acceptMs : UInt32)
    (reads : Fin rxConnTableSize → SfpRecv) :
    (t.poll maxLen timeoutMs acceptMs reads).table.RxOwns
        (log ++ (t.poll maxLen timeoutMs acceptMs reads).calls) ∧
      ∀ r, (t.poll maxLen timeoutMs acceptMs reads).res = .ok r →
        ReadFrom (log ++ (t.poll maxLen timeoutMs acceptMs reads).calls)
          (t.poll maxLen timeoutMs acceptMs reads).calls r := by
  unfold RxTable.poll
  split
  · simp only [List.append_nil]
    exact ⟨h, fun r hr => by cases hr⟩
  · have hsplit : t.RxOwns (log ++ [.split timeoutMs acceptMs (UInt32.ofNat t.live)]) :=
      h.silent rfl
    obtain ⟨hown, hsrc⟩ := hsplit.scan maxLen
      (readTimeoutMs timeoutMs acceptMs (UInt32.ofNat t.live)) reads
      (t.tick.toNat % rxConnTableSize) (List.range rxConnTableSize)
    rw [List.append_assoc] at hown
    refine ⟨hown, fun r hr => ?_⟩
    obtain ⟨c, ms, hr, ha, ms', hm⟩ := hsrc r hr
    rw [List.append_assoc] at hm
    exact ⟨c, ms, List.mem_cons_of_mem _ hr, List.mem_cons_of_mem _ ha, ms', hm⟩

end RxTable

open RxTable

variable {g : Globals} {inst : Instance}

/-- `cspcl_recv_bundle`, when `csp_accept` gives a connection that is not known yet. -/
theorem rxOwns_recvBundle (h : inst.rx.RxOwns log) (maxLen : Nat) (timeoutMs : UInt32)
    (env : RecvEnv) (hnew : ∀ a ∈ env.accept, a.1 ∉ incoming (rxActs log)) :
    (recvBundle g inst maxLen timeoutMs env).inst.rx.RxOwns
        (log ++ (recvBundle g inst maxLen timeoutMs env).calls) ∧
      ∀ r, (recvBundle g inst maxLen timeoutMs env).res = .ok r →
        ReadFrom (log ++ (recvBundle g inst maxLen timeoutMs env).calls)
          (recvBundle g inst maxLen timeoutMs env).calls r := by
  by_cases hi : inst.initialized = true
  swap
  · have hr : recvBundle g inst maxLen timeoutMs env = ⟨g, inst, .error .notInitialized, []⟩ := by
      simp [recvBundle, hi]
    rw [hr]
    simp only [List.append_nil]
    exact ⟨h, fun r hr => by cases hr⟩
  obtain ⟨-, -, stack, ⟨-, hrx, ⟨err, hres⟩, hcalls⟩ | ⟨-, r, hr, hrx, hres, hcalls⟩⟩ :=
    recvBundle_cases g hi maxLen timeoutMs env
  · rw [hrx, hres, hcalls]
    exact ⟨h.silent (rxActs_stack stack), fun r hr => by cases hr⟩
  · rw [hrx, hres, hcalls]
    have hstack := h.silent (rxActs_stack stack)
    -- The table with the new connection, if there is one.
    obtain ⟨pre, hpre, hown⟩ : ∃ pre, pre = log ++ (stack.map .stack ++
        (.accept (realAcceptMs (acceptTimeoutMs (callerTimeoutMs timeoutMs) inst.rx.live))
          env.accept :: (inst.rx.withAccepted env.accept).2.map .close)) ∧
        (inst.rx.withAccepted env.accept).1.RxOwns pre := by
      refine ⟨_, rfl, ?_⟩
      cases ha : env.accept with
      | none =>
        rw [← List.append_assoc]
        exact hstack.silent rfl
      | some a =>
        obtain ⟨c, addr, port⟩ := a
        have hc : c ∉ incoming (rxActs (log ++ stack.map .stack)) := by
          rw [rxActs_append, rxActs_stack, List.append_nil]
          exact hnew _ ha
        rw [← List.append_assoc]
        exact hstack.store _ hc
    obtain ⟨hown', hsrc⟩ := hown.poll maxLen (callerTimeoutMs timeoutMs)
      (acceptTimeoutMs (callerTimeoutMs timeoutMs) inst.rx.live) env.reads
    rw [← hr] at hown' hsrc
    have hlist : log ++ (stack.map .stack ++
        (.accept (realAcceptMs (acceptTimeoutMs (callerTimeoutMs timeoutMs) inst.rx.live))
          env.accept :: ((inst.rx.withAccepted env.accept).2.map .close ++ r.calls))) =
        pre ++ r.calls := by
      rw [hpre]
      simp
    rw [hlist]
    refine ⟨hown', fun b hb => ?_⟩
    obtain ⟨c, ms, hread, hack, hm⟩ := hsrc b hb
    refine ⟨c, ms, ?_, ?_, hm⟩
    · exact List.mem_append_right _ (List.mem_cons_of_mem _ (List.mem_append_right _ hread))
    · exact List.mem_append_right _ (List.mem_cons_of_mem _ (List.mem_append_right _ hack))

/-! ## Runs -/

/-- An instance, the state of its process, and the calls that were made for the receive table. -/
structure RecvRun where
  globals : Globals
  inst : Instance
  log : List RxCall

/-- A call of the API. -/
inductive RecvOp where
  | recv (maxLen : Nat) (timeoutMs : UInt32) (env : RecvEnv)
  | cleanup (lock : Bool)

/-- The connections that were accepted. -/
def RecvRun.accepted (s : RecvRun) : List Conn := incoming (rxActs s.log)

/-- A call in state `s`: a connection that `csp_accept` gives did not exist before. Of the calls of
`cspcl_cleanup`, the log has those for the receive table; the others are those of the pool. -/
def recvStep (s : RecvRun) : RecvOp → Option RecvRun
  | .recv maxLen timeoutMs env =>
    if ∀ a ∈ env.accept, a.1 ∉ s.accepted then
      let r := recvBundle s.globals s.inst maxLen timeoutMs env
      some ⟨r.globals, r.inst, s.log ++ r.calls⟩
    else none
  | .cleanup lock =>
    some ⟨s.globals, (s.inst.cleanup lock).1, s.log ++ s.inst.rx.openConns.map .close⟩

/-- All runs of an instance from its initialization on. -/
def recvSys : Lts RecvRun RecvOp where
  init s := s.inst.initialized = true ∧ s.inst.rx = RxTable.zero ∧ s.log = []
  step := recvStep

variable {s s' : RecvRun} {op : RecvOp}

theorem rxOwns_inductive : recvSys.Inductive fun s => s.inst.rx.RxOwns s.log where
  init := by
    rintro s ⟨-, hrx, hlog⟩
    rw [hrx, hlog]
    exact rxOwns_zero
  step := by
    intro s op s' h hs
    cases op with
    | recv maxLen timeoutMs env =>
      simp only [recvSys, recvStep] at hs
      split at hs
      · rename_i hnew
        cases hs
        exact (rxOwns_recvBundle h maxLen timeoutMs env hnew).1
      · cases hs
    | cleanup lock =>
      simp only [recvSys, recvStep, Option.some.injEq] at hs
      subst hs
      exact h.clear

/-- In a list without repetitions of the images, an image has one origin. -/
theorem eq_of_nodup_filterMap {α β : Type} {f : α → Option β} {l : List α} {x y : α} {b : β}
    (h : (l.filterMap f).Nodup) (hx : x ∈ l) (hy : y ∈ l) (hfx : f x = some b)
    (hfy : f y = some b) : x = y := by
  induction l with
  | nil => cases hx
  | cons a l ih =>
    cases ha : f a with
    | none =>
      rw [List.filterMap_cons_none ha] at h
      have hne : ∀ {z}, z ∈ a :: l → f z = some b → z ∈ l := by
        intro z hz hfz
        refine (List.mem_cons.mp hz).resolve_left ?_
        rintro rfl
        rw [ha] at hfz
        cases hfz
      exact ih h (hne hx hfx) (hne hy hfy)
    | some d =>
      rw [List.filterMap_cons_some ha, List.nodup_cons] at h
      have hmem : ∀ {z}, z ∈ l → f z = some b → b ∈ l.filterMap f := fun hz hfz =>
        List.mem_filterMap.mpr ⟨_, hz, hfz⟩
      rcases List.mem_cons.mp hx with rfl | hx' <;> rcases List.mem_cons.mp hy with rfl | hy'
      · rfl
      · obtain rfl := Option.some.inj (hfx.symm.trans ha)
        exact absurd (hmem hy' hfy) h.1
      · obtain rfl := Option.some.inj (hfy.symm.trans ha)
        exact absurd (hmem hx' hfx) h.1
      · exact ih h.2 hx' hy'

/-- What the receive side owes for its connections, between calls. -/
structure RxOwned (s : RecvRun) : Prop where
  used_iff : ∀ i, (s.inst.rx.entries i).used = true ↔ (s.inst.rx.entries i).conn ≠ none
  one_peer : ∀ i j, (s.inst.rx.entries i).used = true → (s.inst.rx.entries j).used = true →
    (s.inst.rx.entries i).srcAddr = (s.inst.rx.entries j).srcAddr →
    (s.inst.rx.entries i).srcPort = (s.inst.rx.entries j).srcPort → i = j
  one_entry : ∀ i j c, (s.inst.rx.entries i).conn = some c →
    (s.inst.rx.entries j).conn = some c → i = j
  /-- An accepted connection is open and in exactly one entry, or closed once and in none. -/
  entry_or_closed : ∀ c ∈ s.accepted,
    ((∃! i, (s.inst.rx.entries i).conn = some c) ∧ (rxActs s.log).count (.release c) = 0) ∨
    ((∀ i, (s.inst.rx.entries i).conn ≠ some c) ∧ (rxActs s.log).count (.release c) = 1)
  open_le : (live (rxActs s.log)).length ≤ rxConnTableSize
  /-- A bundle is reported with the source of the connection it was read on, and the connection has
  no other. -/
  reported : ∀ maxLen timeoutMs env s' r, recvStep s (.recv maxLen timeoutMs env) = some s' →
    (recvBundle s.globals s.inst maxLen timeoutMs env).res = .ok r →
    ∃ c ms ms', .sfpRecv c ms (.data (some r.1)) ∈
        (recvBundle s.globals s.inst maxLen timeoutMs env).calls ∧
      .sendAck c ∈ (recvBundle s.globals s.inst maxLen timeoutMs env).calls ∧
      .accept ms' (some (c, r.2)) ∈ s'.log ∧
      ∀ ms'' src, .accept ms'' (some (c, src)) ∈ s'.log → src = r.2

/-- In every run of receives and cleanups, the accepted connections are accounted for between
calls, and every bundle is reported with its source. -/
theorem rx_owned (hs : recvSys.Reach s) : RxOwned s := by
  have h := rxOwns_inductive.reach hs
  refine ⟨h.used_iff, h.peer, h.holds.inj, fun c hc => ?_, h.holds.live_length_le, ?_⟩
  · rcases h.holds.ok.live_or_released hc with ⟨hl, h0⟩ | ⟨hl, h1⟩
    · obtain ⟨i, hi⟩ := (h.holds.live c).mp hl
      exact .inl ⟨⟨i, hi, fun j hj => h.holds.inj j i c hj hi⟩, h0⟩
    · exact .inr ⟨fun i hi => hl ((h.holds.live c).mpr ⟨i, hi⟩), h1⟩
  · intro maxLen timeoutMs env s' r hst hr
    have h' := rxOwns_inductive.reach (hs.step (a := .recv maxLen timeoutMs env) hst)
    simp only [recvStep] at hst
    split at hst
    · rename_i hnew
      cases hst
      obtain ⟨c, ms, hread, hack, ms', hacc⟩ :=
        (rxOwns_recvBundle h maxLen timeoutMs env hnew).2 r hr
      refine ⟨c, ms, ms', hread, hack, hacc, fun ms'' src hm => ?_⟩
      -- The connection came in once.
      have hnodup := h'.holds.ok.nodup_incoming
      rw [rxActs, incoming, List.filterMap_filterMap] at hnodup
      have := eq_of_nodup_filterMap hnodup hm hacc rfl rfl
      cases this
      rfl
    · cases hst

/-- Two receives: a connection from peer (5, 10) is accepted, then it has a bundle. -/
def recvTwice : List RecvOp :=
  [.recv 100 0 ⟨⟨some 7, 0, 0⟩, some (3, 5, 10), fun _ => .fail cspErrTimedout⟩,
    .recv 100 0 ⟨⟨none, 0, 0⟩, none, fun _ => .data (some [1, 2])⟩]

/-- A new instance, initialized. -/
def newRun : RecvRun :=
  let r := Instance.init false Globals.zero (Instance.new ⟨1, 10, .loopback, [], []⟩) goodEnv
  ⟨r.1, r.2.1, []⟩

theorem rx_owned_twice :
    ∃ s, recvSys.exec newRun recvTwice = some s ∧ s.accepted = [3] ∧ RxOwned s := by
  obtain ⟨s, hs⟩ : ∃ s, recvSys.exec newRun recvTwice = some s := ⟨_, rfl⟩
  have hacc : (recvSys.exec newRun recvTwice).map RecvRun.accepted = some [3] := by decide +kernel
  rw [hs, Option.map_some, Option.some.injEq] at hacc
  exact ⟨s, hs, hacc, rx_owned (.of_exec ⟨rfl, rfl, rfl⟩ hs)⟩

end Cspcl
