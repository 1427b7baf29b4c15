import Cspcl.Lib.LockOrder
import Cspcl.Nodes.Steps

/-!
# Receiving never waits for a send

A send has the mutexes `Cspcl::send` and, in C, that of the pool, and keeps them until its peer has
acknowledged the bundle. No other thread waits for it, not even by way of further threads
(`NeverWaits.not_send`), and a listener that has a whole bundle acknowledges it by itself
(`NeverWaits.acks`).

* `Inv.wants_of_not_sends`: a thread outside of the sends wants neither mutex, except that the last
  user of an instance takes a pool that nobody has.
* `Inv.ordered`: the mutexes are taken in the order of their ranks (`rank`).
* `Inv.acknowledges`: the steps of the listener.
-/

namespace Cspcl

open Relation

namespace Nodes

/-- Who has which mutex, and who waits for which. -/
def toLocks (s : Nodes) : Locks Nat Mutex := ⟨s.holder, s.wants⟩

/-- The whole bundle of attempt `a` is at the thread `r`: in the connection or read, or in the
buffer. -/
def Arrived (s : Nodes) (r a : Nat) (x : Attempt) : Prop :=
  match s.d.rx.recv r with
  | .reading _ _ _ got => ∀ j < frags x.call.bundle, ⟨a, j⟩ ∈ got ++ (s.d.link x.conn).fwd
  | .acking _ _ b _ => b = a
  | _ => False

/-- What holds of sends and receivers at any time. -/
structure NeverWaits (s : Nodes) : Prop where
  /-- A thread that is in no send waits for none that is, nor for one that waits for such a one. -/
  not_send : ∀ t u, s.sends t = false → TransGen s.toLocks.Blocks t u → s.sends u = false
  /-- It waits in the end for a thread that no mutex keeps from going on. -/
  free : ∀ t, s.sends t = false →
    ∃ u, ReflTransGen s.toLocks.Blocks t u ∧ s.sends u = false ∧ ∀ v, ¬ s.toLocks.Blocks u v
  /-- No thread, in a send or not, waits for itself by way of others. -/
  acyclic : ∀ t, ¬ TransGen s.toLocks.Blocks t t
  /-- A listener that reads a connection on which a bundle has arrived acknowledges it to the send
  that waits, by steps of its own. -/
  acks : ∀ t r a x i l, s.d.tx.send t = .waiting a x →
    s.thread r = some ⟨.listen i l x.conn .reading, false⟩ → s.Arrived r a x →
    ∃ ops s', nodesSys.Run s ops s' ∧ (∀ op ∈ ops, op.thread = some r) ∧
      s'.d.tx.send t = .waiting a x ∧ a ∈ (s'.d.link x.conn).back

variable {s s' : Nodes} {t u r a i l : Nat} {x : Attempt} {c : Conn} {m m' : Mutex}
  {th : NodeThread}

/-! ## Who has which mutex -/

theorem Inv.thread_of_locks (h : s.Inv) (hm : s.locks m = some t) :
    ∃ th, s.thread t = some th ∧ m ∈ th.held s.proc := ((h.fits t).locks m).mp hm

theorem holder_cases (hm : s.holder m = some t) :
    s.locks m = some t ∨ ∃ i, m = .pool i ∧ s.d.tx.holder i = some t := by
  cases m with
  | pool i =>
    rcases Option.or_eq_some_iff.mp hm with hm | ⟨-, hm⟩
    · exact .inl hm
    · exact .inr ⟨i, rfl, hm⟩
  | _ => exact .inl hm

/-- Who has a pool in a send is past its lock. -/
theorem Inv.thread_of_holder (h : s.Inv) (hi : s.d.tx.holder i = some t) :
    ∃ k bundle addr port, (s.d.tx.send t).holding = some k ∧
      s.thread t = some ⟨.send i bundle addr port .inC, false⟩ := by
  obtain ⟨k, hk, rfl⟩ := h.sound.locked i t hi
  obtain ⟨bundle, addr, port, ht⟩ := (h.fits t).call k (SendPc.call_of_holding hk)
  exact ⟨k, bundle, addr, port, hk, ht⟩

section Places

variable {proc : Nat → Nat} {q : NodePlace}

theorem mutex_eq_send (hq : q.mutex proc = some (.send i)) : q.sends = true := by
  cases q with
  | send i bundle addr port p => rfl
  | accept i p | listen i l c p | close i p | «open» i p => cases p <;> cases hq
  | _ => cases hq

theorem mutex_eq_pool (hq : q.mutex proc = some (.pool i)) : ∃ o, q = .cleanup i o := by
  cases q with
  | cleanup i o =>
    cases hq
    exact ⟨o, rfl⟩
  | send i bundle addr port p => cases p <;> cases hq
  | accept i p | listen i l c p | close i p | «open» i p => cases p <;> cases hq
  | _ => cases hq

/-- The mutexes that a send has outside of C. -/
theorem held_of_sends (hs : th.place.sends = true) (hm : m ∈ th.held proc) :
    ∃ i, m = .send i := by
  obtain ⟨q, w⟩ := th
  cases q with
  | send i bundle addr port p =>
    refine ⟨i, ?_⟩
    cases p <;> cases w <;> simp [NodeThread.held, NodePlace.outer, NodePlace.mutex] at hm
    all_goals exact hm
  | _ => cases hs

theorem held_pool (hm : .pool i ∈ th.held proc) : ∃ o, th = ⟨.cleanup i o, false⟩ := by
  obtain ⟨q, w⟩ := th
  rcases List.mem_append.mp hm with hm | hm
  · -- No thread is inside of another section with a pool.
    cases q with
    | send i bundle addr port p | accept i p => cases p <;> simp [NodePlace.outer] at hm
    | _ => cases hm
  · cases w with
    | true => cases hm
    | false =>
      obtain ⟨o, rfl⟩ := mutex_eq_pool (Option.mem_toList.mp hm)
      exact ⟨o, rfl⟩

end Places

/-- Nobody has the pool of an instance that is to be cleaned up. -/
theorem Inv.pool_free (h : s.Inv) {o : Option Nat} (ht : s.thread t = some ⟨.cleanup i o, true⟩) :
    s.holder (.pool i) = none := by
  by_contra hne
  obtain ⟨u, hu⟩ := Option.ne_none_iff_exists'.mp hne
  rcases holder_cases hu with hu | ⟨j, hj, hu⟩
  · obtain ⟨th, hth, hm⟩ := h.thread_of_locks hu
    obtain ⟨o', rfl⟩ := held_pool hm
    -- That would be another thread that cleans it up.
    obtain rfl := h.one i t u o o' true false ht hth
    rw [ht] at hth
    cases hth
  · obtain rfl := Mutex.pool.inj hj
    obtain ⟨k, bundle, addr, port, -, hth⟩ := h.thread_of_holder hu
    have hmem := (h.fits u).ref _ i hth rfl
    rw [((h.fits t).gone i o true ht).1] at hmem
    cases hmem

/-! ## Who waits for whom -/

/-- What a thread outside of the sends may wait for: no mutex of a send. -/
def Apart (s : Nodes) (m : Mutex) : Prop :=
  (∀ i, m ≠ .send i) ∧ ∀ i, m = .pool i → s.holder m = none

theorem Inv.wants_of_not_sends (h : s.Inv) (ht : s.sends t = false) (hm : s.wants t = some m) :
    s.Apart m := by
  unfold sends at ht
  unfold wants at hm
  split at hm
  · cases hm
  rename_i th hth
  rw [hth, Option.any_some] at ht
  split at hm
  · rename_i hplace _
    rw [hplace] at ht
    cases ht
  split at hm
  · rename_i hw
    constructor
    · rintro i rfl
      rw [mutex_eq_send hm] at ht
      cases ht
    · rintro i rfl
      obtain ⟨q, w⟩ := th
      obtain ⟨o, rfl⟩ := mutex_eq_pool hm
      obtain rfl : w = true := hw
      exact h.pool_free hth
  · cases hm

theorem Inv.not_sends_of_holder (h : s.Inv) (ha : s.Apart m) (hm : s.holder m = some t) :
    s.sends t = false := by
  rcases holder_cases hm with hl | ⟨i, rfl, -⟩
  · obtain ⟨th, ht, hheld⟩ := h.thread_of_locks hl
    unfold sends
    rw [ht, Option.any_some, ← Bool.not_eq_true]
    intro hs
    obtain ⟨i, rfl⟩ := held_of_sends hs hheld
    exact ha.1 i rfl
  · rw [ha.2 i rfl] at hm
    cases hm

theorem Inv.closed (h : s.Inv) : s.toLocks.Closed s.Apart := fun _ _ _ ha hm hw =>
  h.wants_of_not_sends (h.not_sends_of_holder ha hm) hw

/-! ## The order of the mutexes -/

/-- `Cspcl::send` comes before the pool, `Cspcl::accept` before the receiver's state and the global
lock. -/
def rank : Mutex → Nat
  | .send _ | .accept _ => 0
  | .pool _ | .state _ | .table _ | .global _ => 1

theorem rank_of_outer {proc : Nat → Nat} {q : NodePlace} (hm : m ∈ q.outer)
    (hm' : q.mutex proc = some m') : rank m < rank m' := by
  cases q with
  | send i bundle addr port p => cases p <;> simp [NodePlace.outer, NodePlace.mutex] at hm hm'
  | accept i p =>
    cases p <;> simp [NodePlace.outer, NodePlace.mutex] at hm hm'
    all_goals
      subst hm hm'
      exact Nat.zero_lt_one
  | _ => cases hm

theorem Inv.ordered (h : s.Inv) : s.toLocks.Ordered rank := by
  intro m t m' hm hw
  change s.holder m = some t at hm
  change s.wants t = some m' at hw
  unfold wants at hw
  split at hw
  · cases hw
  rename_i th ht
  split at hw
  · -- In C it has taken `Cspcl::send` only.
    rename_i i bundle addr port k hplace hpc
    obtain rfl := Option.some.inj hw
    rcases holder_cases hm with hl | ⟨j, rfl, hh⟩
    · obtain ⟨th', ht', hheld⟩ := h.thread_of_locks hl
      obtain rfl := Option.some.inj (ht.symm.trans ht')
      obtain ⟨i', rfl⟩ := held_of_sends (by rw [hplace]; rfl) hheld
      exact Nat.zero_lt_one
    · obtain ⟨k', _, _, _, hk', -⟩ := h.thread_of_holder hh
      rw [hpc] at hk'
      cases hk'
  split at hw
  · rename_i hwait
    rcases holder_cases hm with hl | ⟨j, rfl, hh⟩
    · obtain ⟨th', ht', hheld⟩ := h.thread_of_locks hl
      obtain rfl := Option.some.inj (ht.symm.trans ht')
      unfold NodeThread.held at hheld
      rw [if_pos hwait, List.append_nil] at hheld
      exact rank_of_outer hheld hw
    · obtain ⟨_, _, _, _, -, hth⟩ := h.thread_of_holder hh
      obtain rfl := Option.some.inj (ht.symm.trans hth)
      cases hwait
  · cases hw

theorem rank_le (m : Mutex) : rank m ≤ 1 := by
  cases m <;> simp [rank]

/-! ## The ack -/

theorem wants_of_reading (hr : s.thread r = some ⟨.listen i l c .reading, false⟩) :
    s.wants r = none := by
  simp [wants, hr]

/-- A step of a listener in its read. -/
theorem step_reading {op : DeliveryOp} {d : World}
    (hr : s.thread r = some ⟨.listen i l c .reading, false⟩) (hop : op.recvBy r = true)
    (hd : s.d.step op = some d) :
    s.step (.run r (.inC op)) = some
      (match s.recvResult r op with
       | some res => ({ s with d } : Nodes).received r i l c (.inC op) res
       | none => { s with d }) := by
  have hin : s.inC op = some { s with d } := by
    simp only [inC, hd, Option.map_some]
  simp only [Nodes.step, hr, wants_of_reading hr, next, nextListen, NodeEnv.inC, hop, if_true]
  exact (congrArg _ hin).trans rfl

theorem received_d {env : NodeEnv} {res : Except CspclError Bundle} :
    (s.received t i l c env res).d = s.d := by
  unfold received
  split <;> rfl

/-- A run of steps in C that do not let the read return. -/
theorem run_reading {ops : List DeliveryOp} {d : World}
    (hr : s.thread r = some ⟨.listen i l c .reading, false⟩)
    (hx : s.d.tx.attempts[a]? = some x)
    (hok : recvFromConnTimeout maxBundleSize (.data (some x.call.bundle)) = .ok x.call.bundle)
    (hrun : deliverySys.Run s.d ops d) (hops : ∀ op ∈ ops, op = .consume r ∨ op = .reassemble r a) :
    ∃ ops', nodesSys.Run s ops' { s with d } ∧ ∀ op ∈ ops', op.thread = some r := by
  obtain ⟨d₀, hd₀⟩ : ∃ d₀, s.d = d₀ := ⟨_, rfl⟩
  rw [hd₀] at hrun
  induction hrun generalizing s with
  | nil d =>
    subst hd₀
    refine ⟨[], .nil s, fun op hop => ?_⟩
    cases hop
  | @cons d₀ d₁ d op ops hs hrun ih =>
    subst hd₀
    have hnone : op.sender = none := by
      rcases hops op List.mem_cons_self with rfl | rfl <;> rfl
    have htx : d₁.tx = s.d.tx := by
      rcases World.step_tx (w := s.d) hs with ⟨-, htx, -⟩ | ⟨_, _, hsend, -⟩
      · exact htx
      · rw [hnone] at hsend
        cases hsend
    have hby : op.recvBy r = true := by
      rcases hops op List.mem_cons_self with rfl | rfl <;> simp [DeliveryOp.recvBy]
    have hres : s.recvResult r op = none := by
      rcases hops op List.mem_cons_self with rfl | rfl
      · rfl
      · simp only [recvResult, hx, Option.map_some, hok]
    have hstep : s.step (.run r (.inC op)) = some { s with d := d₁ } := by
      rw [step_reading hr hby hs, hres]
    obtain ⟨ops', hrun', hall⟩ := ih (s := { s with d := d₁ }) hr (by rw [htx]; exact hx)
      (fun op hop => hops op (List.mem_cons_of_mem _ hop)) rfl
    refine ⟨.run r (.inC op) :: ops', .cons hstep hrun', ?_⟩
    intro op' hop'
    rcases List.mem_cons.mp hop' with rfl | hop'
    · rfl
    · exact hall op' hop'

/-- The listener sends the ack for the bundle in its buffer. -/
theorem Inv.sendsAck {data : Bundle} (h : s.Inv) (ht : s.d.tx.send t = .waiting a x)
    (hr : s.thread r = some ⟨.listen i l x.conn .reading, false⟩)
    (hrecv : s.d.rx.recv r = .acking .direct x.conn a data) :
    ∃ s', s.step (.run r (.inC (.ack r true))) = some s' ∧ s'.d.tx.send t = .waiting a x ∧
      a ∈ (s'.d.link x.conn).back := by
  have hopen : (s.d.link x.conn).txOpen = true :=
    h.sound.inv.txOpen h.sound.ends (by rw [ht]; rfl)
  obtain ⟨d, hd, htx, hback⟩ : ∃ d, s.d.step (.ack r true) = some d ∧ d.tx = s.d.tx ∧
      a ∈ (d.link x.conn).back := by
    refine ⟨({ s.d with rx := s.d.rx.finish r .direct x.conn a data } : World).setLink x.conn
      ((s.d.link x.conn).ack a), ?_, rfl, ?_⟩
    · simp only [World.step, hrecv, if_true]
    · rw [World.link_setLink, if_pos rfl, World.ack_of_open hopen]
      exact List.mem_append_right _ (List.mem_singleton.mpr rfl)
  have hres : s.recvResult r (.ack r true) = some (.ok data) := by
    simp only [recvResult, hrecv]
  refine ⟨_, step_reading hr (by simp [DeliveryOp.recvBy]) hd, ?_, ?_⟩
  · rw [hres]
    dsimp only
    rw [received_d, htx]
    exact ht
  · rw [hres]
    dsimp only
    rw [received_d]
    exact hback

theorem Inv.acknowledges (h : s.Inv) (ht : s.d.tx.send t = .waiting a x)
    (hr : s.thread r = some ⟨.listen i l x.conn .reading, false⟩) (ha : s.Arrived r a x) :
    ∃ ops s', nodesSys.Run s ops s' ∧ (∀ op ∈ ops, op.thread = some r) ∧
      s'.d.tx.send t = .waiting a x ∧ a ∈ (s'.d.link x.conn).back := by
  have hx : s.d.tx.attempts[a]? = some x :=
    (h.sound.inv.tx.conns.current t a x (by rw [ht]; rfl)).1
  -- It is in the call for the connection of its place.
  have hreads : (s.d.rx.recv r).Reads x.conn := by
    rcases (h.fits r).reads with hi | ⟨i', l', c, hth, hreads⟩
    · unfold Arrived at ha
      rw [hi] at ha
      cases ha
    · rw [hr] at hth
      cases hth
      exact hreads
  rcases hreads with ⟨got, hrecv⟩ | ⟨b, data, hrecv⟩
  · have hall : ∀ j < frags x.call.bundle, ⟨a, j⟩ ∈ got ++ (s.d.link x.conn).fwd := by
      simpa only [Arrived, hrecv] using ha
    obtain ⟨ops, d, hrun, hops, htx, hrecv'⟩ :=
      h.sound.inv.reassembles h.sound.ends ht hrecv hall
    have hok := h.sound.inv.recv_ok h.sound.ends hx
    obtain ⟨ops', hrun', hall'⟩ := run_reading hr hx hok hrun hops
    obtain ⟨s', hs', ht', hback⟩ := (nodesSys_inv.run hrun' h).sendsAck (by rw [htx]; exact ht) hr
      hrecv'
    have hack : nodesSys.Run { s with d } [.run r (.inC (.ack r true))] s' := .single hs'
    refine ⟨ops' ++ [.run r (.inC (.ack r true))], s', hrun'.append hack, ?_, ht', hback⟩
    intro op hop
    rcases List.mem_append.mp hop with hop | hop
    · exact hall' op hop
    · rw [List.mem_singleton.mp hop]
      rfl
  · obtain rfl : b = a := by simpa only [Arrived, hrecv] using ha
    obtain ⟨s', hs', ht', hback⟩ := h.sendsAck ht hr hrecv
    refine ⟨[.run r (.inC (.ack r true))], s', .single hs', ?_, ht', hback⟩
    intro op hop
    rw [List.mem_singleton.mp hop]
    rfl

end Nodes

open Nodes in
/-- Sends never make a receiver wait, in both directions and to the node itself. -/
theorem receiving_never_waits {s : Nodes} (h : nodesSys.Reach s) : s.NeverWaits := by
  have hinv := nodesSys_inv.reach h
  have hnot : ∀ t u, s.sends t = false → TransGen s.toLocks.Blocks t u → s.sends u = false := by
    intro t u ht hb
    obtain ⟨m, hm, hu⟩ := hinv.closed.holder (fun m hm => hinv.wants_of_not_sends ht hm) hb
    exact hinv.not_sends_of_holder hm hu
  refine ⟨hnot, fun t ht => ?_, fun _ => hinv.ordered.acyclic,
    fun t r a x i l ht hr ha => hinv.acknowledges ht hr ha⟩
  obtain ⟨u, hu, hfree⟩ := hinv.ordered.exists_free rank_le t
  refine ⟨u, hu, ?_, hfree⟩
  rcases reflTransGen_iff_eq_or_transGen.mp hu with rfl | hu
  · exact ht
  · exact hnot t u ht hu

/-! ## Two nodes that send to each other -/

namespace Crossing

/-- Nodes `0` and `1` have the addresses `1` and `2`. -/
def start : Nodes :=
  .new id
    (fun i => { Instance.new ⟨.ofNat (i + 1), 10, .loopback, [], []⟩ with initialized := true })
    (fun _ => none) (fun _ => .zero) (fun _ => 0)

/-- Nothing that matters. -/
def env : NodeEnv := .inC (.queue 0)

/-- Thread `t` takes the mutex of its place and runs the section. -/
def locked (t : Nat) : List NodesOp := [.lock t true, .run t env]

/-- Node `i` opens a stream. Its threads are `b`, its accept thread `b + 1`, the listener `b + 2`
and the send `b + 3`. -/
def opens (i b : Nat) : List NodesOp :=
  .call b i .inbound :: locked b ++ .run b { env with spawned := some (b + 1) } ::
    locked (b + 1) ++ locked (b + 1) ++ locked (b + 1) ++ locked (b + 1) ++ .run (b + 1) env ::
    locked (b + 1) ++ .run (b + 1) { env with rx := ⟨some 7, 0, 0⟩ } :: locked (b + 1)

/-- Node `i` sends a bundle on the new connection `c`. -/
def sends (i b : Nat) (addr : UInt8) (c : Conn) : List NodesOp :=
  .call (b + 3) i (.sendBundle [1] addr 10) :: locked (b + 3) ++
    [.lock (b + 3) true, .run (b + 3) (.inC (.get (b + 3) ⟨0, 0, some c⟩)),
      .run (b + 3) (.inC (.queue (b + 3))), .run (b + 3) (.inC (.sfpSend (b + 3) cspErrNone))]

/-- The node accepts the connection `c`, and its listener begins to read. -/
def accepts (b : Nat) (addr : UInt8) (c : Conn) : List NodesOp :=
  .run (b + 1) { env with accepted := some (c, addr, 32) } :: .run (b + 1) env ::
    locked (b + 1) ++ .run (b + 1) { env with spawned := some (b + 2) } ::
    locked (b + 2) ++ [.run (b + 2) env]

def run : List NodesOp :=
  opens 0 0 ++ opens 1 10 ++ sends 0 0 2 0 ++ sends 1 10 1 1 ++ accepts 0 2 1 ++ accepts 10 1 0

/-- What thread `r` needs to acknowledge the bundle of thread `t` on the connection `c`. -/
def view (t r : Nat) (c : Conn) (s : Nodes) :
    SendPc × RecvPc × Option NodeThread × List Frag :=
  (s.d.tx.send t, s.d.rx.recv r, s.thread r, (s.d.link c).fwd)

end Crossing

open Nodes Crossing in
/-- Both sends wait, and each listener acknowledges the one from the other node. -/
theorem receiving_never_waits_crossing : ∃ s, nodesSys.exec start run = some s ∧
    (∃ x ops s', s.d.tx.send 3 = .waiting 0 x ∧ nodesSys.Run s ops s' ∧
      (∀ op ∈ ops, op.thread = some 12) ∧ 0 ∈ (s'.d.link x.conn).back) ∧
    ∃ x ops s', s.d.tx.send 13 = .waiting 1 x ∧ nodesSys.Run s ops s' ∧
      (∀ op ∈ ops, op.thread = some 2) ∧ 1 ∈ (s'.d.link x.conn).back := by
  have h₀ : (nodesSys.exec start run).map (view 3 12 0) =
      some (.waiting 0 ⟨⟨0, 0, [1], 2, 10⟩, 0, 0⟩, .reading .direct maxBundleSize 0 [],
        some ⟨.listen 1 0 0 .reading, false⟩, [⟨0, 0⟩]) := by
    decide +kernel
  have h₁ : (nodesSys.exec start run).map (view 13 2 1) =
      some (.waiting 1 ⟨⟨1, 1, [1], 1, 10⟩, 0, 1⟩, .reading .direct maxBundleSize 1 [],
        some ⟨.listen 0 0 1 .reading, false⟩, [⟨1, 0⟩]) := by
    decide +kernel
  obtain ⟨s, hs, h₀⟩ := Option.map_eq_some_iff.mp h₀
  rw [hs, Option.map_some, Option.some.injEq] at h₁
  simp only [view, Prod.mk.injEq] at h₀ h₁
  obtain ⟨ht₀, hr₀, hth₀, hf₀⟩ := h₀
  obtain ⟨ht₁, hr₁, hth₁, hf₁⟩ := h₁
  have hreach : nodesSys.Reach s := .of_exec ⟨_, _, _, _, _, fun _ => rfl, rfl⟩ hs
  have ha₀ : s.Arrived 12 0 ⟨⟨0, 0, [1], 2, 10⟩, 0, 0⟩ := by
    simp [Arrived, hr₀, hf₀, frags, maxPayload]
  have ha₁ : s.Arrived 2 1 ⟨⟨1, 1, [1], 1, 10⟩, 0, 1⟩ := by
    simp [Arrived, hr₁, hf₁, frags, maxPayload]
  obtain ⟨ops₀, s₀, hrun₀, hops₀, -, hback₀⟩ :=
    (receiving_never_waits hreach).acks _ _ _ _ _ _ ht₀ hth₀ ha₀
  obtain ⟨ops₁, s₁, hrun₁, hops₁, -, hback₁⟩ :=
    (receiving_never_waits hreach).acks _ _ _ _ _ _ ht₁ hth₁ ha₁
  exact ⟨s, hs, ⟨_, ops₀, s₀, ht₀, hrun₀, hops₀, hback₀⟩, _, ops₁, s₁, ht₁, hrun₁, hops₁, hback₁⟩

end Cspcl
