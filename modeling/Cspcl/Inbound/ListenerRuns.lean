import Cspcl.Lib.Lts
import Cspcl.Inbound.Listeners

/-!
# The bound on inbound connections

`listenerSys`: any interleaving of the accept thread (`wait_for_slot`, `poll_connection`,
`register`, the start of the listener thread or its failure, `supersede`) with the listener
threads (a bundle received, the exit, the drop of the task: first the connection, then the
`RunningGuard`). An accept thread that stops or panics is replaced by the next one; it does not
panic between `register` and `supersede`.

* `ListenersInv`: the table counts the connections from their registration until they are closed.
* `inbound_bound`: what that gives in every reachable state.
-/

namespace Cspcl.Inbound

/-- An inbound connection, with its listener. -/
inductive ConnPhase where
  | absent
  /-- Accepted and not registered yet. -/
  | accepted
  /-- Registered, its thread not started yet. -/
  | registered
  | running
  /-- The task is being dropped; the connection is still open. -/
  | dropping
  /-- The connection was closed; the `RunningGuard` is not dropped yet. -/
  | closed
  | finished
  deriving DecidableEq, Repr

namespace ConnPhase

/-- Accepted and not closed. -/
def isOpen : ConnPhase → Bool
  | accepted | registered | running | dropping => true
  | _ => false

/-- Registered, and its guard not dropped. -/
def counted : ConnPhase → Bool
  | registered | running | dropping | closed => true
  | _ => false

end ConnPhase

/-- Where the accept thread is. -/
inductive AcceptPc where
  | top
  /-- It may accept. -/
  | slot
  | accepted (id : Nat) (key : UInt8 × UInt8)
  | registered (id : Nat)
  /-- The listener thread could not be started: its task is being dropped. -/
  | failed (id : Nat)
  /-- The listener thread was started. -/
  | started (id : Nat)
  deriving DecidableEq, Repr

namespace AcceptPc

/-- The connection between its `register` and its `supersede`. -/
def registering : AcceptPc → Option Nat
  | registered id | failed id | started id => some id
  | _ => none

/-- The connection that was accepted and is not registered yet. -/
def accepting : AcceptPc → Option Nat
  | accepted id _ => some id
  | _ => none

/-- `wait_for_slot` returned and nothing was registered since. -/
def roomy : AcceptPc → Bool
  | slot | accepted _ _ => true
  | _ => false

end AcceptPc

/-- The table, the accept thread, and the connections so far. -/
structure ListenerWorld where
  table : ListenerTable
  accept : AcceptPc
  phase : Nat → ConnPhase
  /-- The number of connections accepted so far, and the name of the next one. -/
  accepted : Nat

/-- A step of the accept thread or of the listener `id`. -/
inductive ListenerOp where
  | waitForSlot
  /-- The key of the connection that was accepted, if any. -/
  | pollConnection (key : Option (UInt8 × UInt8))
  | register (nowMs : Nat)
  | spawned
  | spawnFailed
  | supersede
  /-- The accept thread panics, or stops and is replaced. -/
  | replaced
  | received (id : Nat) (nowMs : Nat)
  | exit (id : Nat)
  | closeConn (id : Nat)
  | dropGuard (id : Nat)

namespace ListenerWorld

/-- Nothing was accepted yet. -/
def new : ListenerWorld where
  table := ⟨[], fun _ => .new (0, 0) 0⟩
  accept := .top
  phase _ := .absent
  accepted := 0

def setPhase (s : ListenerWorld) (id : Nat) (p : ConnPhase) : ListenerWorld :=
  { s with phase := Function.update s.phase id p }

@[simp, grind =] theorem phase_setPhase {s : ListenerWorld} {id i : Nat} {p : ConnPhase} :
    (s.setPhase id p).phase i = if i = id then p else s.phase i := by
  simp [setPhase, Function.update_apply]

@[simp, grind =] theorem table_setPhase {s : ListenerWorld} {id : Nat} {p : ConnPhase} :
    (s.setPhase id p).table = s.table := rfl

@[simp, grind =] theorem accept_setPhase {s : ListenerWorld} {id : Nat} {p : ConnPhase} :
    (s.setPhase id p).accept = s.accept := rfl

@[simp, grind =] theorem accepted_setPhase {s : ListenerWorld} {id : Nat} {p : ConnPhase} :
    (s.setPhase id p).accepted = s.accepted := rfl

/-- `self.listener` of the guard, or the state of a listener, is changed. -/
def setState (s : ListenerWorld) (id : Nat) (l : Listener) : ListenerWorld :=
  { s with table := { s.table with state := Function.update s.table.state id l } }

@[simp, grind =] theorem phase_setState {s : ListenerWorld} {id i : Nat} {l : Listener} :
    (s.setState id l).phase i = s.phase i := rfl

@[simp, grind =] theorem accept_setState {s : ListenerWorld} {id : Nat} {l : Listener} :
    (s.setState id l).accept = s.accept := rfl

@[simp, grind =] theorem accepted_setState {s : ListenerWorld} {id : Nat} {l : Listener} :
    (s.setState id l).accepted = s.accepted := rfl

/-- One step. -/
def step (s : ListenerWorld) : ListenerOp → Option ListenerWorld
  | .waitForSlot =>
    if s.accept = .top then
      let (may, table) := s.table.mayAccept
      some { s with table, accept := if may then .slot else .top }
    else none
  | .pollConnection key =>
    if s.accept = .slot then
      match key with
      | none => some { s with accept := .top }
      | some key =>
        some { s.setPhase s.accepted .accepted with
          accept := .accepted s.accepted key, accepted := s.accepted + 1 }
    else none
  | .register nowMs =>
    match s.accept with
    | .accepted id key =>
      some { s.setPhase id .registered with
        table := s.table.register id (.new key nowMs), accept := .registered id }
    | _ => none
  | .spawned =>
    match s.accept with
    | .registered id => some { s.setPhase id .running with accept := .started id }
    | _ => none
  | .spawnFailed =>
    match s.accept with
    | .registered id => some { s.setPhase id .dropping with accept := .failed id }
    | _ => none
  | .supersede =>
    match s.accept with
    | .started id => some { s with table := s.table.supersede id, accept := .top }
    | _ => none
  | .replaced =>
    match s.accept with
    | .top | .slot => some { s with accept := .top }
    -- The accepted connection is closed when it is dropped.
    | .accepted id _ => some { s.setPhase id .finished with accept := .top }
    | _ => none
  | .received id nowMs =>
    if s.phase id = .running then
      some (s.setState id { s.table.state id with lastActiveMs := nowMs })
    else none
  | .exit id => if s.phase id = .running then some (s.setPhase id .dropping) else none
  | .closeConn id => if s.phase id = .dropping then some (s.setPhase id .closed) else none
  | .dropGuard id =>
    if s.phase id = .closed then
      some { (s.setPhase id .finished).setState id { s.table.state id with running := false } with
        accept := if s.accept = .failed id then .top else s.accept }
    else none

/-- The connections that were accepted and not closed. -/
def openConns (s : ListenerWorld) : List Nat :=
  (List.range s.accepted).filter fun id => (s.phase id).isOpen

/-- The kept listeners other than the one being registered. -/
def settled (s : ListenerWorld) : List Nat :=
  s.table.keptLive.filter fun id => s.accept.registering ≠ some id

end ListenerWorld

/-- All interleavings, from an empty table. -/
def listenerSys : Lts ListenerWorld ListenerOp where
  init s := s = .new
  step := ListenerWorld.step

/-- Where the accept thread is tells the phase of the connection it works on. -/
structure PhaseInv (s : ListenerWorld) : Prop where
  absent_iff : ∀ id, s.phase id = .absent ↔ s.accepted ≤ id
  accepted_iff : ∀ id, s.phase id = .accepted ↔ s.accept.accepting = some id
  registered_iff : ∀ id, s.phase id = .registered ↔ s.accept = .registered id
  failed : ∀ id, s.accept = .failed id → s.phase id = .dropping ∨ s.phase id = .closed
  started : ∀ id, s.accept = .started id → s.phase id ≠ .absent

variable {s s' : ListenerWorld} {op : ListenerOp} {id : Nat}

theorem PhaseInv.step (h : PhaseInv s) (hs : s.step op = some s') : PhaseInv s' := by
  obtain ⟨ha, hacc, hreg, hf, hst⟩ := h
  cases op <;> simp only [ListenerWorld.step] at hs
  case pollConnection key =>
    split at hs
    · split at hs <;> cases hs <;> constructor <;> grind [AcceptPc.accepting]
    · cases hs
  case replaced =>
    split at hs <;> first | cases hs; done | cases hs; constructor <;> grind [AcceptPc.accepting]
  all_goals
    split at hs
    · cases hs
      constructor <;> grind [AcceptPc.accepting]
    · cases hs

/-- The table counts each connection from its registration until it is closed, one more is accepted
only when there is a slot, and the settled listeners are few and have different keys. -/
structure TableInv (s : ListenerWorld) : Prop where
  nodup : s.table.listeners.Nodup
  known : ∀ id ∈ s.table.listeners, s.phase id ≠ .absent ∧ s.phase id ≠ .accepted
  mem_live_iff : ∀ id, id ∈ s.table.live ↔ (s.phase id).counted = true
  mem_registering : ∀ id, s.accept.registering = some id → id ∈ s.table.listeners
  bound : s.table.live.length ≤ maxInboundConns + maxExtraInboundConns
  room : s.accept.roomy = true → s.table.live.length < maxInboundConns + maxExtraInboundConns
  fresh : ∀ id, s.accept.registering = some id → (s.table.state id).evicted = false
  settled_le : s.settled.length ≤ maxInboundConns
  settled_key : ∀ i ∈ s.settled, ∀ j ∈ s.settled,
    (s.table.state i).key = (s.table.state j).key → i = j

namespace TableInv

/-- A step that registers, closes and finishes no listener. -/
theorem of_same (h : TableInv s) (hn : s'.table.listeners.Nodup)
    (hsub : s'.table.listeners ⊆ s.table.listeners) (hlive : s'.table.live = s.table.live)
    (hkept : s'.table.keptLive = s.table.keptLive)
    (hstate : ∀ i, (s'.table.state i).key = (s.table.state i).key ∧
      (s'.table.state i).evicted = (s.table.state i).evicted)
    (hphase : ∀ i, (s'.phase i).counted = (s.phase i).counted ∧
      (s.phase i ≠ .absent → s.phase i ≠ .accepted → s'.phase i ≠ .absent ∧ s'.phase i ≠ .accepted))
    (hreg : s'.accept.registering = s.accept.registering)
    (hmem : ∀ i, s.accept.registering = some i → i ∈ s'.table.listeners)
    (hroom : s'.accept.roomy = true →
      s.table.live.length < maxInboundConns + maxExtraInboundConns) : TableInv s' := by
  have hset : s'.settled = s.settled := by rw [ListenerWorld.settled, hkept, hreg]; rfl
  exact {
    nodup := hn
    known := fun i hi => (hphase i).2 (h.known i (hsub hi)).1 (h.known i (hsub hi)).2
    mem_live_iff := fun i => by rw [hlive, (hphase i).1]; exact h.mem_live_iff i
    mem_registering := fun i hi => hmem i (hreg ▸ hi)
    bound := hlive ▸ h.bound
    room := fun hr => hlive ▸ hroom hr
    fresh := fun i hi => (hstate i).2 ▸ h.fresh i (hreg ▸ hi)
    settled_le := hset ▸ h.settled_le
    settled_key := fun i hi j hj hk => by
      rw [hset] at hi hj
      rw [(hstate i).1, (hstate j).1] at hk
      exact h.settled_key i hi j hj hk }

theorem register (h : TableInv s) (hp : PhaseInv s) {nowMs : Nat}
    (hs : s.step (.register nowMs) = some s') : TableInv s' := by
  simp only [ListenerWorld.step] at hs
  split at hs
  · rename_i id key hacc
    simp only [Option.some.injEq] at hs
    have htab : s'.table = s.table.register id (.new key nowMs) := by rw [← hs]
    have haccept : s'.accept = .registered id := by rw [← hs]
    have hphase : ∀ i, s'.phase i = if i = id then .registered else s.phase i := by simp [← hs]
    have hnew : id ∉ s.table.listeners := fun hm =>
      (h.known id hm).2 ((hp.accepted_iff id).mpr (by simp [hacc, AcceptPc.accepting]))
    have hold : ∀ i ∈ s.table.listeners, i ≠ id := fun i hi hid => hnew (hid ▸ hi)
    have hstate : ∀ i, i ≠ id → s'.table.state i = s.table.state i := fun i hi => by
      simp [htab, ListenerTable.register, hi]
    have hid : s'.table.state id = .new key nowMs := by simp [htab, ListenerTable.register]
    have hmem : ∀ i, i ∈ s'.table.listeners ↔ i ∈ s.table.listeners ∨ i = id := fun i => by
      simp [htab, ListenerTable.register]
    have hlive : s'.table.live = s.table.live ++ [id] := by
      have hl : s'.table.listeners = s.table.listeners ++ [id] := by rw [htab]; rfl
      rw [ListenerTable.live, hl, List.filter_append]
      congr 1
      · exact List.filter_congr fun i hi => by rw [hstate i (hold i hi)]
      · simp [hid, Listener.new]
    -- The new listener is not settled yet.
    have hset : s'.settled = s.settled := by
      have hnone : s.accept.registering = none := by simp [hacc, AcceptPc.registering]
      have hsome : s'.accept.registering = some id := by simp [haccept, AcceptPc.registering]
      simp only [ListenerWorld.settled, ListenerTable.keptLive, hlive, List.filter_append, hnone,
        hsome, List.filter_filter]
      have h1 : [id].filter (fun i => (some id ≠ some i) && !(s'.table.state i).evicted) = [] := by
        simp
      rw [h1, List.append_nil]
      refine List.filter_congr fun i hi => ?_
      have hne := hold i (ListenerTable.mem_live.mp hi).1
      simp [hstate i hne, Ne.symm hne]
    have hroom := h.room (by simp [hacc, AcceptPc.roomy])
    refine ⟨?_, fun i hi => ?_, fun i => ?_, fun i hi => ?_, ?_, fun hr => ?_, fun i hi => ?_,
      hset ▸ h.settled_le, fun i hi j hj hk => ?_⟩
    · simpa [htab, ListenerTable.register, List.nodup_append, h.nodup] using hold
    · rw [hphase]
      rcases (hmem i).mp hi with hi | rfl
      · simpa [hold i hi] using h.known i hi
      · simp
    · rw [hlive, hphase, List.mem_append, h.mem_live_iff]
      by_cases hii : i = id
      · simp [hii, ConnPhase.counted]
      · simp [hii]
    · obtain rfl : id = i := by simpa [haccept, AcceptPc.registering] using hi
      exact (hmem _).mpr (.inr rfl)
    · rw [hlive, List.length_append]
      exact hroom
    · simp [haccept, AcceptPc.roomy] at hr
    · obtain rfl : id = i := by simpa [haccept, AcceptPc.registering] using hi
      rw [hid]
      rfl
    · rw [hset] at hi hj
      have hl : ∀ k ∈ s.settled, k ≠ id := fun k hk =>
        hold k (ListenerTable.mem_live.mp
          (ListenerTable.mem_keptLive.mp (List.mem_filter.mp hk).1).1).1
      rw [hstate i (hl i hi), hstate j (hl j hj)] at hk
      exact h.settled_key i hi j hj hk
  · cases hs

/-- What a `supersede` leaves open: the listeners that remained, without the one it evicts. -/
theorem supersede (h : TableInv s) (hs : s.step .supersede = some s') : TableInv s' := by
  simp only [ListenerWorld.step] at hs
  split at hs
  · rename_i id hacc
    simp only [Option.some.injEq] at hs
    have htab : s'.table = s.table.supersede id := by rw [← hs]
    have haccept : s'.accept = .top := by rw [← hs]
    have hphase : s'.phase = s.phase := by rw [← hs]
    have hreg : s.accept.registering = some id := by simp [hacc, AcceptPc.registering]
    have hsettled' : s'.settled = s'.table.keptLive := by
      simp [ListenerWorld.settled, haccept, AcceptPc.registering]
    have hsettled : ∀ i, i ∈ s.settled ↔ i ∈ s.table.keptLive ∧ i ≠ id := fun i => by
      simp [ListenerWorld.settled, hreg, eq_comm (a := id) (b := i)]
    by_cases hr : (s.table.state id).running = true
    · obtain ⟨o, hlist, hsame, hev, hfew, hvictim⟩ :=
        ListenerTable.supersede_spec h.nodup hr
      rw [← htab] at hlist hsame hev
      have hlive : s'.table.live = s.table.live := by
        rw [ListenerTable.live, hlist]
        refine List.filter_eq_self.mpr fun i hi => ?_
        rw [(hsame i).2.1]
        exact (ListenerTable.mem_live.mp hi).2
      have hkept : ∀ i, i ∈ s'.table.keptLive ↔ i ∈ s.table.remaining id ∧ o ≠ some i := fun i => by
        have hne : (s'.table.state i).evicted = false ↔ (s.table.state i).evicted = false ∧
            i ∉ s.table.stale id ∧ o ≠ some i := by
          have := hev i
          grind
        rw [ListenerTable.mem_keptLive, hlive, hne, ListenerTable.mem_remaining,
          ListenerTable.mem_keptLive, ListenerTable.mem_stale]
        constructor
        · rintro ⟨hl, he, hst, ho⟩
          have := (ListenerTable.mem_live.mp hl).1
          exact ⟨⟨⟨hl, he⟩, by tauto⟩, ho⟩
        · rintro ⟨⟨⟨hl, he⟩, hst⟩, ho⟩
          exact ⟨hl, he, by tauto, ho⟩
      have hnd : (s.table.remaining id).Nodup := ((h.nodup.filter _).filter _).filter _
      have hnd' : s'.table.keptLive.Nodup := by
        rw [ListenerTable.keptLive, hlive]
        exact (h.nodup.filter _).filter _
      -- At most the new listener remains besides those that were settled.
      have hlen : (s.table.remaining id).length ≤ s.settled.length + 1 := by
        have hsub : s.table.remaining id ⊆ id :: s.settled := fun i hi => by
          by_cases hid : i = id
          · simp [hid]
          · exact List.mem_cons_of_mem _ ((hsettled i).mpr
              ⟨(ListenerTable.mem_remaining.mp hi).1, hid⟩)
        exact (hnd.subperm hsub).length_le
      refine ⟨?_, fun i hi => ?_, fun i => ?_, by simp [haccept, AcceptPc.registering], ?_,
        by simp [haccept, AcceptPc.roomy], by simp [haccept, AcceptPc.registering], ?_,
        fun i hi j hj hk => ?_⟩
      · rw [hlist]; exact h.nodup.filter _
      · rw [hlist] at hi
        rw [hphase]
        exact h.known i (ListenerTable.mem_live.mp hi).1
      · rw [hlive, hphase]; exact h.mem_live_iff i
      · rw [hlive]; exact h.bound
      · rw [hsettled']
        cases o with
        | none =>
          have hsub : s'.table.keptLive ⊆ s.table.remaining id := fun i hi => ((hkept i).mp hi).1
          exact (hnd'.subperm hsub).length_le.trans (hfew rfl)
        | some v =>
          obtain ⟨-, hv, -, -⟩ := hvictim v rfl
          have hsub : s'.table.keptLive ⊆ (s.table.remaining id).erase v := fun i hi => by
            obtain ⟨hm, hne⟩ := (hkept i).mp hi
            exact (List.mem_erase_of_ne (by rintro rfl; exact hne rfl)).mpr hm
          have := (hnd'.subperm hsub).length_le
          have := List.length_erase_of_mem hv
          have := h.settled_le
          omega
      · rw [hsettled'] at hi hj
        rw [(hsame i).1, (hsame j).1] at hk
        have hi' := ListenerTable.mem_remaining.mp ((hkept i).mp hi).1
        have hj' := ListenerTable.mem_remaining.mp ((hkept j).mp hj).1
        by_cases hii : i = id
        · subst hii
          rcases hj'.2 with hjj | hjj
          · exact hjj.symm
          · exact absurd hk.symm hjj
        · by_cases hjj : j = id
          · subst hjj
            exact absurd hk (hi'.2.resolve_left hii)
          · exact h.settled_key i ((hsettled i).mpr ⟨hi'.1, hii⟩) j
              ((hsettled j).mpr ⟨hj'.1, hjj⟩) hk
    · -- The listener has already finished: nothing changes, and it is not among the kept ones.
      have hsup : s.table.supersede id = s.table := by simp [ListenerTable.supersede, hr]
      rw [hsup] at htab
      have hset : s'.settled = s.settled := by
        rw [hsettled', htab, ListenerWorld.settled, hreg]
        refine (List.filter_eq_self.mpr fun i hi => ?_).symm
        have hrun := (ListenerTable.mem_live.mp (ListenerTable.mem_keptLive.mp hi).1).2
        have hid : id ≠ i := by rintro rfl; exact hr hrun
        simpa using hid
      refine ⟨htab ▸ h.nodup, by simpa [htab, hphase] using h.known,
        by simpa [htab, hphase] using h.mem_live_iff, by simp [haccept, AcceptPc.registering],
        htab ▸ h.bound, by simp [haccept, AcceptPc.roomy],
        by simp [haccept, AcceptPc.registering], hset ▸ h.settled_le, ?_⟩
      simpa [hset, htab] using h.settled_key
  · cases hs

theorem dropGuard (h : TableInv s) (hs : s.step (.dropGuard id) = some s') :
    TableInv s' := by
  simp only [ListenerWorld.step] at hs
  split at hs
  · simp only [Option.some.injEq] at hs
    have hlisteners : s'.table.listeners = s.table.listeners := by rw [← hs]; rfl
    have hstate : ∀ i, i ≠ id → s'.table.state i = s.table.state i := fun i hi => by
      simp [← hs, ListenerWorld.setState, hi]
    have hkey : ∀ i, (s'.table.state i).key = (s.table.state i).key ∧
        (s'.table.state i).evicted = (s.table.state i).evicted := fun i => by
      by_cases hi : i = id
      · subst hi; simp [← hs, ListenerWorld.setState]
      · rw [hstate i hi]; exact ⟨rfl, rfl⟩
    have hphase : ∀ i, s'.phase i = if i = id then .finished else s.phase i := by simp [← hs]
    have haccept : s'.accept = if s.accept = .failed id then .top else s.accept := by rw [← hs]
    have hlive : s'.table.live = s.table.live.filter (· ≠ id) := by
      rw [ListenerTable.live, hlisteners, ListenerTable.live, List.filter_filter]
      refine List.filter_congr fun i hi => ?_
      by_cases hid : i = id
      · simp [hid, ← hs, ListenerWorld.setState]
      · simp [hid, hstate i hid]
    have hset : s'.settled = s.settled.filter (· ≠ id) := by
      simp only [ListenerWorld.settled, ListenerTable.keptLive, hlive, List.filter_filter]
      refine List.filter_congr fun i hi => ?_
      by_cases hid : i = id
      · simp [hid]
      · have hreg : s'.accept.registering = some i ↔ s.accept.registering = some i := by
          rw [haccept]
          split
          · rename_i hf
            simp [hf, AcceptPc.registering, Ne.symm hid]
          · rfl
        simp [hid, (hkey i).2, hreg]
    have hreg : ∀ i, s'.accept.registering = some i → s.accept.registering = some i := by
      intro i hi
      rw [haccept] at hi
      split at hi
      · simp [AcceptPc.registering] at hi
      · exact hi
    have hle : s'.table.live.length ≤ s.table.live.length := by
      rw [hlive]; exact List.length_filter_le _ _
    refine ⟨hlisteners ▸ h.nodup, fun i hi => ?_, fun i => ?_, fun i hi => ?_, hle.trans h.bound,
      fun hr => ?_, fun i hi => ?_, ?_, fun i hi j hj hk => ?_⟩
    · rw [hphase]
      split
      · simp
      · exact h.known i (hlisteners ▸ hi)
    · rw [hlive, hphase, List.mem_filter, h.mem_live_iff]
      by_cases hid : i = id <;> simp [hid, ConnPhase.counted]
    · exact hlisteners ▸ h.mem_registering i (hreg i hi)
    · have hr' : s.accept.roomy = true := by
        rw [haccept] at hr
        split at hr
        · simp [AcceptPc.roomy] at hr
        · exact hr
      exact Nat.lt_of_le_of_lt hle (h.room hr')
    · rw [(hkey i).2]; exact h.fresh i (hreg i hi)
    · rw [hset]; exact (List.length_filter_le _ _).trans h.settled_le
    · rw [hset] at hi hj
      rw [(hkey i).1, (hkey j).1] at hk
      exact h.settled_key i (List.mem_filter.mp hi).1 j (List.mem_filter.mp hj).1 hk
  · cases hs

/-- A step that leaves the table alone, and moves the connection `i` from a phase to another one
that is counted alike. -/
theorem of_phase (h : TableInv s) (htab : s'.table = s.table)
    (hphase : ∀ i, (s'.phase i).counted = (s.phase i).counted ∧
      (s.phase i ≠ .absent → s.phase i ≠ .accepted → s'.phase i ≠ .absent ∧ s'.phase i ≠ .accepted))
    (hreg : s'.accept.registering = s.accept.registering)
    (hroom : s'.accept.roomy = true → s.accept.roomy = true) : TableInv s' :=
  h.of_same (htab ▸ h.nodup) (by rw [htab]; exact fun _ hi => hi) (by rw [htab]) (by rw [htab])
    (fun i => by rw [htab]; exact ⟨rfl, rfl⟩) hphase hreg
    (fun i hi => by rw [htab]; exact h.mem_registering i hi) fun hr => h.room (hroom hr)

theorem step (h : TableInv s) (hp : PhaseInv s) (hs : s.step op = some s') : TableInv s' := by
  cases op with
  | register nowMs => exact h.register hp hs
  | supersede => exact h.supersede hs
  | dropGuard id => exact h.dropGuard hs
  | waitForSlot =>
    simp only [ListenerWorld.step] at hs
    split at hs
    · rename_i hacc
      simp only [Option.some.injEq] at hs
      subst hs
      refine h.of_same (h.nodup.filter _) (fun i hi => (List.mem_filter.mp hi).1)
        ListenerTable.live_openCount ListenerTable.keptLive_openCount (fun _ => ⟨rfl, rfl⟩)
        (fun _ => ⟨rfl, fun h1 h2 => ⟨h1, h2⟩⟩) ?_ (by simp [hacc, AcceptPc.registering]) ?_
      · dsimp only
        split <;> simp [hacc, AcceptPc.registering]
      · -- It goes on only if the table has a free slot.
        intro hr
        dsimp only at hr
        split at hr
        · rename_i hmay
          exact of_decide_eq_true hmay
        · simp [AcceptPc.roomy] at hr
    · cases hs
  | pollConnection key =>
    simp only [ListenerWorld.step] at hs
    split at hs
    · rename_i hacc
      have habs := (hp.absent_iff s.accepted).mpr (Nat.le_refl _)
      split at hs <;> simp only [Option.some.injEq] at hs <;> subst hs
      · exact h.of_phase rfl (fun _ => ⟨rfl, fun h1 h2 => ⟨h1, h2⟩⟩)
          (by simp [hacc, AcceptPc.registering]) (by simp [AcceptPc.roomy])
      · refine h.of_phase rfl (fun i => ?_) (by simp [hacc, AcceptPc.registering])
          (by simp [hacc, AcceptPc.roomy])
        by_cases hi : i = s.accepted
        · simp [hi, habs, ConnPhase.counted]
        · simp only [ListenerWorld.phase_setPhase, hi, if_false]
          exact ⟨trivial, fun h1 h2 => ⟨h1, h2⟩⟩
    · cases hs
  | spawned | spawnFailed =>
    simp only [ListenerWorld.step] at hs
    split at hs
    · rename_i id hacc
      have hph := (hp.registered_iff id).mpr hacc
      simp only [Option.some.injEq] at hs
      subst hs
      refine h.of_phase rfl (fun i => ?_) (by simp [hacc, AcceptPc.registering])
        (by simp [AcceptPc.roomy])
      by_cases hi : i = id
      · simp [hi, hph, ConnPhase.counted]
      · simp only [ListenerWorld.phase_setPhase, hi, if_false]
        exact ⟨trivial, fun h1 h2 => ⟨h1, h2⟩⟩
    · cases hs
  | replaced =>
    simp only [ListenerWorld.step] at hs
    split at hs
    · rename_i hacc
      simp only [Option.some.injEq] at hs
      subst hs
      exact h.of_phase rfl (fun _ => ⟨rfl, fun h1 h2 => ⟨h1, h2⟩⟩)
        (by simp [hacc, AcceptPc.registering]) (by simp [AcceptPc.roomy])
    · rename_i hacc
      simp only [Option.some.injEq] at hs
      subst hs
      exact h.of_phase rfl (fun _ => ⟨rfl, fun h1 h2 => ⟨h1, h2⟩⟩)
        (by simp [hacc, AcceptPc.registering]) (by simp [AcceptPc.roomy])
    · rename_i id key hacc
      have hph := (hp.accepted_iff id).mpr (by simp [hacc, AcceptPc.accepting])
      simp only [Option.some.injEq] at hs
      subst hs
      refine h.of_phase rfl (fun i => ?_) (by simp [hacc, AcceptPc.registering])
        (by simp [AcceptPc.roomy])
      by_cases hi : i = id
      · simp [hi, hph, ConnPhase.counted]
      · simp only [ListenerWorld.phase_setPhase, hi, if_false]
        exact ⟨trivial, fun h1 h2 => ⟨h1, h2⟩⟩
    · cases hs
  | received id nowMs =>
    simp only [ListenerWorld.step] at hs
    split at hs
    · simp only [Option.some.injEq] at hs
      subst hs
      let l : Listener := { s.table.state id with lastActiveMs := nowMs }
      have hstate : ∀ i, ((s.setState id l).table.state i).key = (s.table.state i).key ∧
          ((s.setState id l).table.state i).evicted = (s.table.state i).evicted ∧
          ((s.setState id l).table.state i).running = (s.table.state i).running := fun i => by
        by_cases hi : i = id
        · subst hi; simp [ListenerWorld.setState, l]
        · simp [ListenerWorld.setState, hi]
      have hlive : (s.setState id l).table.live = s.table.live :=
        List.filter_congr fun i _ => by rw [(hstate i).2.2]
      have hkept : (s.setState id l).table.keptLive = s.table.keptLive := by
        rw [ListenerTable.keptLive, hlive]
        exact List.filter_congr fun i _ => by rw [(hstate i).2.1]
      exact h.of_same h.nodup (fun _ hi => hi) hlive hkept
        (fun i => ⟨(hstate i).1, (hstate i).2.1⟩) (fun _ => ⟨rfl, fun h1 h2 => ⟨h1, h2⟩⟩) rfl
        h.mem_registering h.room
    · cases hs
  | exit id | closeConn id =>
    simp only [ListenerWorld.step] at hs
    split at hs
    · rename_i hph
      simp only [Option.some.injEq] at hs
      subst hs
      refine h.of_phase rfl (fun i => ?_) rfl fun hr => hr
      by_cases hi : i = id
      · simp [hi, hph, ConnPhase.counted]
      · simp only [ListenerWorld.phase_setPhase, hi, if_false]
        exact ⟨trivial, fun h1 h2 => ⟨h1, h2⟩⟩
    · cases hs

end TableInv

theorem tableInv_inductive : listenerSys.Inductive fun s => PhaseInv s ∧ TableInv s := by
  refine Lts.Inductive.given ⟨?_, fun s op s' h hs => h.step hs⟩ ?_
    fun s op s' hp h hs => h.step hp hs
  · rintro s rfl
    constructor <;> simp [ListenerWorld.new, AcceptPc.accepting]
  · rintro s rfl
    constructor <;> simp [ListenerWorld.new, ListenerTable.live, ListenerTable.keptLive,
      ListenerWorld.settled, ConnPhase.counted, AcceptPc.roomy, AcceptPc.registering]

/-- The inbound connections are bounded. -/
structure InboundBound (s : ListenerWorld) : Prop where
  open_le : s.openConns.length ≤ maxInboundConns + maxExtraInboundConns
  /-- A registered connection is counted by the table until after it was closed. -/
  counted : ∀ id ∈ s.openConns, s.phase id ≠ .accepted → id ∈ s.table.live
  /-- Such a listener counts from `register` to the drop of its guard, no other one does. -/
  live_iff : ∀ id, id ∈ s.table.live ↔ (s.phase id).counted = true
  /-- While no connection is between its `register` and its `supersede`, few listeners are kept,
  with different keys. -/
  kept_le : s.accept.registering = none → s.table.keptLive.length ≤ maxInboundConns
  kept_key : s.accept.registering = none → ∀ i ∈ s.table.keptLive, ∀ j ∈ s.table.keptLive,
    (s.table.state i).key = (s.table.state j).key → i = j
  /-- What the next `supersede` evicts. -/
  supersede : ∀ s' id, s.accept = .started id → s.step .supersede = some s' →
    (s'.table.state id).evicted = (s.table.state id).evicted ∧
    ((s.table.state id).running = false → s'.table = s.table) ∧
    ∃ o : Option Nat, (∀ i, (s'.table.state i).evicted = true → (s.table.state i).evicted = false →
        (s.table.state i).key = (s.table.state id).key ∨ o = some i) ∧
      ∀ v, o = some v → v ∈ s.table.keptLive ∧
        maxInboundConns < (s.table.remaining id).length ∧
        ∀ j ∈ s.table.remaining id, j ≠ id →
          (s.table.state v).lastActiveMs ≤ (s.table.state j).lastActiveMs

/-- In every reachable state. -/
theorem inbound_bound (hs : listenerSys.Reach s) : InboundBound s := by
  obtain ⟨hp, h⟩ := tableInv_inductive.reach hs
  have hcounted : ∀ id ∈ s.openConns, s.phase id ≠ .accepted → id ∈ s.table.live :=
    fun id hid hne => by
      have ho := (List.mem_filter.mp hid).2
      refine (h.mem_live_iff id).mpr ?_
      cases hph : s.phase id <;> simp_all [ConnPhase.isOpen, ConnPhase.counted]
  have hsettled : s.accept.registering = none → s.settled = s.table.keptLive := fun hn => by
    simp [ListenerWorld.settled, hn]
  have hnd : s.openConns.Nodup := List.nodup_range.filter _
  refine ⟨?_, hcounted, h.mem_live_iff, fun hn => hsettled hn ▸ h.settled_le,
    fun hn => hsettled hn ▸ h.settled_key,
    fun s' id hacc hst => ?_⟩
  · cases ha : s.accept.accepting with
    | none =>
      have hsub : s.openConns ⊆ s.table.live := fun i hi => hcounted i hi fun hph => by
        simpa [ha] using (hp.accepted_iff i).mp hph
      exact (hnd.subperm hsub).length_le.trans h.bound
    | some id =>
      -- One connection is accepted and not registered: the table has a free slot for it.
      have hsub : s.openConns ⊆ id :: s.table.live := fun i hi => by
        by_cases hph : s.phase i = .accepted
        · have := (hp.accepted_iff i).mp hph
          simp_all
        · exact List.mem_cons_of_mem _ (hcounted i hi hph)
      have hroomy : s.accept.roomy = true := by
        cases hac : s.accept <;> simp_all [AcceptPc.accepting, AcceptPc.roomy]
      exact (hnd.subperm hsub).length_le.trans (h.room hroomy)
  · simp only [ListenerWorld.step, hacc, Option.some.injEq] at hst
    have htab : s'.table = s.table.supersede id := by rw [← hst]
    by_cases hr : (s.table.state id).running = true
    · obtain ⟨o, -, -, hev, -, hv⟩ := ListenerTable.supersede_spec h.nodup hr
      refine ⟨?_, by simp [hr], o, fun i hi hni => ?_, fun v hov => ?_⟩
      · have hfresh := h.fresh id (by simp [hacc, AcceptPc.registering])
        rw [hfresh, htab]
        by_contra hcon
        rcases (hev id).mp (by simpa using hcon) with he | hst | ho
        · simp [hfresh] at he
        · exact (ListenerTable.mem_stale.mp hst).2.2 rfl
        · exact (hv id ho).1 rfl
      · rw [htab] at hi
        rcases (hev i).mp hi with he | hst | ho
        · simp [hni] at he
        · exact .inl (ListenerTable.mem_stale.mp hst).2.1
        · exact .inr ho
      · obtain ⟨-, hm, hlt, hmin⟩ := hv v hov
        exact ⟨(ListenerTable.mem_remaining.mp hm).1, hlt, hmin⟩
    · have hsup : s.table.supersede id = s.table := by simp [ListenerTable.supersede, hr]
      rw [htab, hsup]
      exact ⟨rfl, fun _ => rfl, none, fun i hi hni => by simp [hi] at hni, by simp⟩

/-- A connection is accepted twice from the same key, and the new one supersedes the old one. -/
def reopenedRun : List ListenerOp :=
  [.waitForSlot, .pollConnection (some (5, 20)), .register 0, .spawned, .supersede,
    .waitForSlot, .pollConnection (some (5, 20)), .register 7, .spawned, .supersede]

theorem inbound_bound_reopened : ∃ s, listenerSys.exec .new reopenedRun = some s ∧
    s.table.live = [0, 1] ∧ s.table.keptLive = [1] ∧ InboundBound s := by
  obtain ⟨s, hs⟩ : ∃ s, listenerSys.exec .new reopenedRun = some s := ⟨_, rfl⟩
  have hl : (listenerSys.exec .new reopenedRun).map (fun s => (s.table.live, s.table.keptLive)) =
      some ([0, 1], [1]) := by decide
  simp only [hs, Option.map_some, Option.some.injEq, Prod.mk.injEq] at hl
  exact ⟨s, hs, hl.1, hl.2, inbound_bound (.of_exec rfl hs)⟩

end Cspcl.Inbound
