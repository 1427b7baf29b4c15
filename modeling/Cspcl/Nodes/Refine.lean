import Cspcl.Lib.Simulation
import Cspcl.Nodes.Traffic
import Cspcl.Nodes.Waits

/-!
# What the nodes do with connections and bundles

Every run of the nodes, with all their mutexes, tables and sockets, is a run of `trafficSys`.

* `Nodes.conn`, `Nodes.hand`: the connection of a thread, and the bundle that it is about to
  deliver, both read off its place.
* `Shows`: a state of the nodes shows a state of the abstract system.
* `Rest`: a step that concerns neither, or only the receiver of an instance.
* `nodes_refine`: the simulation.
-/

namespace Cspcl

open Inbound (Receiver LockSection)

/-- The connection that the thread has there, with its instance. -/
def NodePlace.conn : NodePlace → Option (Nat × Conn)
  | accept i p =>
    match p with
    | .polled (.ok (c, _)) | .register c _ | .spawn c _ | .dropConn c _ => some (i, c)
    | _ => none
  | listen i _ c _ => some (i, c)
  | _ => none

/-- The bundle that the thread is about to deliver. -/
def NodePlace.hand : NodePlace → Option Inbound.Bundle
  | listen _ _ _ (.deliver (.ok b)) => some b
  | _ => none

namespace Nodes

def conn (s : Nodes) (t : Nat) : Option (Nat × Conn) := (s.thread t).bind fun th => th.place.conn

def hand (s : Nodes) (t : Nat) : Option Inbound.Bundle := (s.thread t).bind fun th => th.place.hand

end Nodes

/-- The bundle of a receipt. -/
def Traffic.bundle (a : Traffic) (n : Nat) : Inbound.Bundle :=
  match a.receipts[n]? with
  | some r => r.bundle
  | none => ⟨[], 0, 0⟩

/-- The nodes in the state `s` show the state `a`. -/
structure Shows (s : Nodes) (a : Traffic) : Prop where
  inv : s.Inv
  conn : s.conn = a.conn
  accepted : s.d.rx.accepted = a.accepted.map Prod.snd
  closed : ∀ c, (s.d.link c).rxOpen = false ↔ c ∈ a.closed
  hand : ∀ t, s.hand t = (a.hand t).map a.bundle
  recv : ∀ i, s.recv i = (a.recv i).map a.bundle
  received : s.d.rx.received.map (fun q => (q.conn, q.data)) =
    a.receipts.map fun r => (r.conn, r.bundle.data)
  leads : ∀ x ∈ a.accepted, s.leadsTo x.2 x.1 = true

/-! ## Steps in C -/

namespace World

variable {w w' : World} {op : DeliveryOp} {t : Nat} {c : Conn}

/-- What a step leaves of the connections that were accepted and of the bundles. -/
structure Idle (w w' : World) : Prop where
  accepted : w'.rx.accepted = w.rx.accepted
  received : w'.rx.received = w.rx.received
  rxOpen : ∀ c, (w'.link c).rxOpen = (w.link c).rxOpen
  attempts : ∀ x ∈ w.tx.attempts, x ∈ w'.tx.attempts

theorem Idle.refl (w : World) : w.Idle w := ⟨rfl, rfl, fun _ => rfl, fun _ hx => hx⟩

theorem rxOpen_setTx {s : Tx} {l : List Call} :
    ((w.setTx s l).link c).rxOpen = (w.link c).rxOpen := by
  unfold setTx
  dsimp only
  split <;> rfl

theorem rxOpen_setLink {l : Link} {d : Conn} (h : l.rxOpen = (w.link d).rxOpen) :
    ((w.setLink d l).link c).rxOpen = (w.link c).rxOpen := by
  rw [link_setLink]
  split
  · rename_i hd
    rw [hd, h]
  · rfl

theorem idle_tx {s : Tx} (h : ∀ x ∈ w.tx.attempts, x ∈ s.attempts) : w.Idle { w with tx := s } :=
  ⟨rfl, rfl, fun _ => rfl, h⟩

/-- A step in `cspcl_send_bundle`. -/
theorem idle_of_sender (hs : w.step op = some w') (hop : op.sender = some t) : w.Idle w' := by
  cases op with
  | send u i bundle addr port =>
    simp only [World.step] at hs
    split at hs
    · obtain rfl := Option.some.inj hs
      apply idle_tx
      unfold Tx.begin
      dsimp only
      split <;> exact fun _ hx => hx
    · cases hs
  | lock u ok =>
    simp only [World.step] at hs
    split at hs
    · split at hs
      · obtain rfl := Option.some.inj hs
        exact idle_tx fun _ hx => hx
      · split at hs
        · obtain rfl := Option.some.inj hs
          exact idle_tx fun _ hx => hx
        · cases hs
    · cases hs
  | get u env =>
    simp only [World.step] at hs
    split at hs
    · split at hs
      · obtain rfl := Option.some.inj hs
        refine ⟨rfl, rfl, fun _ => rxOpen_setTx, fun x hx => ?_⟩
        show x ∈ (Tx.get ..).attempts
        unfold Tx.get
        dsimp only
        split
        · exact hx
        · exact List.mem_append_left _ hx
      · cases hs
    · cases hs
  | queue u =>
    simp only [World.step] at hs
    split at hs
    · split at hs
      · obtain rfl := Option.some.inj hs
        refine ⟨rfl, rfl, fun _ => rxOpen_setLink ?_, fun _ hx => hx⟩
        unfold Link.queue
        split <;> rfl
      · cases hs
    · cases hs
  | sfpSend u ret =>
    simp only [World.step] at hs
    split at hs
    · split at hs
      · cases hs
      · obtain rfl := Option.some.inj hs
        exact idle_tx fun _ hx => hx
    · cases hs
  | read u packet =>
    simp only [World.step] at hs
    split at hs
    · split at hs
      · obtain rfl := Option.some.inj hs
        exact idle_tx fun _ hx => hx
      · split at hs
        · obtain rfl := Option.some.inj hs
          exact ⟨rfl, rfl, fun _ => rxOpen_setLink rfl, fun _ hx => hx⟩
        · cases hs
    · cases hs
  | invalidate u =>
    simp only [World.step] at hs
    split at hs
    · obtain rfl := Option.some.inj hs
      exact ⟨rfl, rfl, fun _ => rxOpen_setTx, fun _ hx => hx⟩
    · cases hs
  | unlock u ok =>
    simp only [World.step] at hs
    split at hs
    · obtain rfl := Option.some.inj hs
      apply idle_tx
      cases ok <;> exact fun _ hx => hx
    · cases hs
  | _ => cases hop

/-- A step in `cspcl_recv_bundle_from_conn` that does not return a bundle. -/
theorem idle_of_reads (hr : (w.rx.recv t).Reads c) (hop : op.recvBy t = true)
    (hack : ∀ sent, op ≠ .ack t sent) (hs : w.step op = some w') : w.Idle w' := by
  cases op with
  | consume u =>
    obtain rfl : u = t := by simpa [DeliveryOp.recvBy] using hop
    rcases hr with ⟨got, hr⟩ | ⟨a, data, hr⟩
    · simp only [World.step, hr] at hs
      split at hs
      · obtain rfl := Option.some.inj hs
        exact ⟨rfl, rfl, fun _ => rxOpen_setLink rfl, fun _ hx => hx⟩
      · cases hs
    · simp only [World.step, hr] at hs
      cases hs
  | sfpRecvFails u ret =>
    obtain rfl : u = t := by simpa [DeliveryOp.recvBy] using hop
    rcases hr with ⟨got, hr⟩ | ⟨a, data, hr⟩
    · simp only [World.step, hr] at hs
      split at hs
      · cases hs
      · obtain rfl := Option.some.inj hs
        exact ⟨rfl, rfl, fun _ => rfl, fun _ hx => hx⟩
    · simp only [World.step, hr] at hs
      cases hs
  | reassemble u a =>
    obtain rfl : u = t := by simpa [DeliveryOp.recvBy] using hop
    rcases hr with ⟨got, hr⟩ | ⟨b, data, hr⟩
    · simp only [World.step, hr] at hs
      split at hs
      · split at hs
        · obtain rfl := Option.some.inj hs
          simp only [Rx.sfpRecvDone]
          -- A direct read closes nothing.
          split <;> exact ⟨rfl, rfl, fun _ => rfl, fun _ hx => hx⟩
        · cases hs
      · cases hs
    · simp only [World.step, hr] at hs
      cases hs
  | ack u sent =>
    obtain rfl : u = t := by simpa [DeliveryOp.recvBy] using hop
    exact absurd rfl (hack sent)
  | _ => cases hop

theorem idle_recvFromConn {r m : Nat} (hs : w.step (.recvFromConn r c m) = some w') :
    w.Idle w' := by
  simp only [World.step] at hs
  split at hs
  · split at hs
    · obtain rfl := Option.some.inj hs
      exact ⟨rfl, rfl, fun _ => rfl, fun _ hx => hx⟩
    · cases hs
  · cases hs

theorem idle_setLink {l : Link} (h : l.rxOpen = (w.link c).rxOpen) : w.Idle (w.setLink c l) :=
  ⟨rfl, rfl, fun _ => rxOpen_setLink h, fun _ hx => hx⟩

end World

/-! ## Steps that the receivers alone show -/

namespace Nodes

variable {s s₁ s' : Nodes} {t r i l : Nat} {p q : NodePlace} {w : Bool} {c : Conn}

/-- What a step leaves, the receivers aside: nothing moves that a `Traffic` shows. -/
structure Rest (s s' : Nodes) : Prop where
  conn : s'.conn = s.conn
  hand : s'.hand = s.hand
  idle : s.d.Idle s'.d
  addr : ∀ i, (s'.inst i).localAddr = (s.inst i).localAddr ∧ (s'.inst i).cspPort = (s.inst i).cspPort

/-- A part of a step that moves no thread. -/
structure Same (s s₁ : Nodes) : Prop where
  thread : s₁.thread = s.thread
  idle : s.d.Idle s₁.d
  addr : ∀ i, (s₁.inst i).localAddr = (s.inst i).localAddr ∧ (s₁.inst i).cspPort = (s.inst i).cspPort

theorem Same.refl (s : Nodes) : s.Same s := ⟨rfl, .refl _, fun _ => ⟨rfl, rfl⟩⟩

theorem Same.of_inst (hthread : s₁.thread = s.thread) (hd : s₁.d = s.d) (hi : s₁.inst = s.inst) :
    s.Same s₁ := ⟨hthread, hd ▸ .refl _, fun i => by rw [hi]; exact ⟨rfl, rfl⟩⟩

/-- The instance gets or closes its receive socket. -/
theorem Same.setInst {x : Instance} (haddr : x.localAddr = (s.inst i).localAddr)
    (hport : x.cspPort = (s.inst i).cspPort) : s.Same (s.setInst i x) := by
  refine ⟨rfl, .refl _, fun j => ?_⟩
  simp only [Nodes.setInst, Function.update_apply]
  split
  · rename_i hj
    rw [hj, haddr, hport]
    exact ⟨rfl, rfl⟩
  · exact ⟨rfl, rfl⟩

theorem conn_goto : (s.goto t p).conn = Function.update s.conn t p.conn := by
  funext u
  simp only [Nodes.conn, Nodes.goto, Function.update_apply]
  split <;> rfl

theorem hand_goto : (s.goto t p).hand = Function.update s.hand t p.hand := by
  funext u
  simp only [Nodes.hand, Nodes.goto, Function.update_apply]
  split <;> rfl

theorem conn_exit : (s.exit t).conn = Function.update s.conn t none := by
  funext u
  simp only [Nodes.conn, Nodes.exit, Function.update_apply]
  split <;> rfl

theorem hand_exit : (s.exit t).hand = Function.update s.hand t none := by
  funext u
  simp only [Nodes.hand, Nodes.exit, Function.update_apply]
  split <;> rfl

theorem conn_at (ht : s.thread t = some ⟨q, w⟩) : s.conn t = q.conn := by
  simp [Nodes.conn, ht]

theorem hand_at (ht : s.thread t = some ⟨q, w⟩) : s.hand t = q.hand := by
  simp [Nodes.hand, ht]

theorem Same.conn (hs : s.Same s₁) : s₁.conn = s.conn := by
  funext u
  simp only [Nodes.conn, hs.thread]

theorem Same.hand (hs : s.Same s₁) : s₁.hand = s.hand := by
  funext u
  simp only [Nodes.hand, hs.thread]

theorem Same.rest (hs : s.Same s₁) : s.Rest s₁ := ⟨hs.conn, hs.hand, hs.idle, hs.addr⟩

theorem Rest.trans (h : s.Rest s₁) (h' : s₁.Rest s') : s.Rest s' where
  conn := h'.conn.trans h.conn
  hand := h'.hand.trans h.hand
  idle := ⟨h'.idle.accepted.trans h.idle.accepted, h'.idle.received.trans h.idle.received,
    fun c => (h'.idle.rxOpen c).trans (h.idle.rxOpen c),
    fun x hx => h'.idle.attempts x (h.idle.attempts x hx)⟩
  addr i := ⟨(h'.addr i).1.trans (h.addr i).1, (h'.addr i).2.trans (h.addr i).2⟩

/-- A thread gets to another place with what it has. -/
theorem Rest.goto (ht : s.thread t = some ⟨q, w⟩) (hs : s.Same s₁) (hc : p.conn = q.conn)
    (hh : p.hand = q.hand) : s.Rest (s₁.goto t p) := by
  refine ⟨?_, ?_, hs.idle, hs.addr⟩
  · rw [conn_goto, hs.conn, hc, ← conn_at ht, Function.update_eq_self]
  · rw [hand_goto, hs.hand, hh, ← hand_at ht, Function.update_eq_self]

/-- A thread that has nothing ends. -/
theorem Rest.exit (ht : s.thread t = some ⟨q, w⟩) (hs : s.Same s₁) (hc : q.conn = none)
    (hh : q.hand = none) : s.Rest (s₁.exit t) := by
  refine ⟨?_, ?_, hs.idle, hs.addr⟩
  · rw [conn_exit, hs.conn, ← hc, ← conn_at ht, Function.update_eq_self]
  · rw [hand_exit, hs.hand, ← hh, ← hand_at ht, Function.update_eq_self]

/-- A thread begins with nothing. -/
theorem Rest.enter (ht : s.thread t = none) (hs : s.Same s₁) (hc : p.conn = none)
    (hh : p.hand = none) : s.Rest (s₁.goto t p) := by
  have hct : s.conn t = none := by simp [Nodes.conn, ht]
  have hht : s.hand t = none := by simp [Nodes.hand, ht]
  refine ⟨?_, ?_, hs.idle, hs.addr⟩
  · rw [conn_goto, hs.conn, hc, ← hct, Function.update_eq_self]
  · rw [hand_goto, hs.hand, hh, ← hht, Function.update_eq_self]

theorem Rest.afterRelease {o : Option Nat} (ht : s.thread t = some ⟨q, w⟩) (hs : s.Same s₁)
    (hc : q.conn = none) (hh : q.hand = none) : s.Rest (s₁.afterRelease t i o) := by
  cases o with
  | none => exact .exit ht hs hc hh
  | some l => exact .goto ht hs hc.symm hh.symm

theorem Rest.leadsTo (hr : s.Rest s') (h : s.leadsTo c i = true) : s'.leadsTo c i = true := by
  obtain ⟨x, hx, hp⟩ := List.any_eq_true.mp h
  refine List.any_eq_true.mpr ⟨x, hr.idle.attempts x hx, ?_⟩
  rw [(hr.addr i).1, (hr.addr i).2]
  exact hp

end Nodes

namespace Shows

open Nodes

variable {s s' : Nodes} {a : Traffic} {t i : Nat}

/-- The step shows as one of the abstract system, or not at all. -/
def Step (s' : Nodes) (a : Traffic) : Prop :=
  Shows s' a ∨ ∃ k a', a.step k = some a' ∧ Shows s' a'

theorem quiet (h : Shows s a) (hinv : s'.Inv) (hr : s.Rest s') (hrecv : s'.recv = s.recv) :
    Step s' a := by
  refine .inl ⟨hinv, hr.conn.trans h.conn, hr.idle.accepted.trans h.accepted, fun c => ?_,
    fun t => ?_, fun i => ?_, ?_, fun x hx => hr.leadsTo (h.leads x hx)⟩
  · rw [hr.idle.rxOpen]
    exact h.closed c
  · rw [hr.hand]
    exact h.hand t
  · rw [hrecv]
    exact h.recv i
  · rw [hr.idle.received]
    exact h.received

/-- A lock section that delivers no bundle. -/
theorem runs (h : Shows s a) (ha : TrafficInv a) (hinv : s'.Inv) (hr : s.Rest s')
    (x : LockSection Inbound.Bundle) (hx : x.bundle = none)
    (hrecv : s'.recv = Function.update s.recv i (x.apply (s.recv i))) : Step s' a := by
  obtain ⟨hmap, hnone⟩ := LockSection.map_map_of_bundle hx (fun _ => 0) a.bundle
  refine .inr ⟨.run i (x.map fun _ => 0), _, if_pos hnone, ?_⟩
  refine ⟨hinv, hr.conn.trans h.conn, hr.idle.accepted.trans h.accepted, fun c => ?_,
    fun t => ?_, fun j => ?_, ?_, fun x hx => hr.leadsTo (h.leads x hx)⟩
  · rw [hr.idle.rxOpen]
    exact h.closed c
  · rw [hr.hand]
    exact h.hand t
  · rw [hrecv]
    simp only [Traffic.setRecv, Function.update_apply]
    split
    · have hcomm := (ha.healthy i).apply_map (x.map fun _ => 0) (f := a.bundle)
      rw [hmap, ← h.recv i] at hcomm
      exact hcomm.symm
    · exact h.recv j
  · rw [hr.idle.received]
    exact h.received

/-- The bundles of the receipts so far. -/
theorem bundle_concat {x : Receipt} {n : Nat} {rs : List Receipt} (hn : n < rs.length)
    {a' : Traffic} (ha : a.receipts = rs) (ha' : a'.receipts = rs ++ [x]) :
    a'.bundle n = a.bundle n := by
  unfold Traffic.bundle
  rw [ha, ha', List.getElem?_append_left hn]

theorem lt_of_hand (ha : TrafficInv a) {n : Nat} (hn : a.hand t = some n) :
    n < a.receipts.length := by
  obtain ⟨r, hr, -⟩ := ha.hand t n hn
  exact (List.getElem?_eq_some_iff.mp hr).1

theorem hand_eq_none (h : Shows s a) (ht : s.hand t = none) : a.hand t = none := by
  have := h.hand t
  rw [ht] at this
  exact Option.map_eq_none_iff.mp this.symm

/-- A thread accepts a connection. -/
theorem accepts {c : Conn} (h : Shows s a) (hinv : s'.Inv) (hconn : s.conn t = none)
    (hhand : s.hand t = none) (hnew : c ∉ s.d.rx.accepted) (hleads : s.leadsTo c i = true)
    (hc : s'.conn = Function.update s.conn t (some (i, c))) (hh : s'.hand = s.hand)
    (hacc : s'.d.rx.accepted = s.d.rx.accepted ++ [c]) (hrec : s'.d.rx.received = s.d.rx.received)
    (hopen : ∀ c, (s'.d.link c).rxOpen = (s.d.link c).rxOpen)
    (hl : ∀ c i, s.leadsTo c i = true → s'.leadsTo c i = true) (hrecv : s'.recv = s.recv) :
    Step s' a := by
  have hfree : a.conn t = none ∧ a.hand t = none ∧ c ∉ a.accepted.map Prod.snd := by
    rw [← h.conn, ← h.accepted]
    exact ⟨hconn, h.hand_eq_none hhand, hnew⟩
  refine .inr ⟨.accept t i c, _, if_pos hfree, hinv, ?_, ?_, fun c => ?_, fun u => ?_, fun j => ?_,
    ?_, fun x hx => ?_⟩
  · rw [hc, h.conn]
  · rw [hacc, h.accepted, List.map_append]
    rfl
  · rw [hopen]
    exact h.closed c
  · rw [hh]
    exact h.hand u
  · rw [hrecv]
    exact h.recv j
  · rw [hrec]
    exact h.received
  · rcases List.mem_append.mp hx with hx | hx
    · exact hl _ _ (h.leads x hx)
    · rw [List.mem_singleton.mp hx]
      exact hl _ _ hleads

/-- A thread gives its connection to a new one. -/
theorem passes {r : Nat} {x : Nat × Conn} (h : Shows s a) (hinv : s'.Inv) (ht : s.conn t = some x)
    (hr : s.conn r = none) (hht : s.hand t = none) (hhr : s.hand r = none)
    (hc : s'.conn = Function.update (Function.update s.conn r (some x)) t none)
    (hh : s'.hand = s.hand) (hd : s'.d = s.d) (hinst : s'.inst = s.inst)
    (hrecv : s'.recv = s.recv) : Step s' a := by
  have ht' : a.conn t = some x := by rw [← h.conn, ht]
  have hfree : a.conn r = none ∧ a.hand t = none ∧ a.hand r = none := by
    rw [← h.conn]
    exact ⟨hr, h.hand_eq_none hht, h.hand_eq_none hhr⟩
  have hstep : a.step (.pass t r) = some { a with
      conn := Function.update (Function.update a.conn r (some x)) t none } := by
    simp only [Traffic.step, ht']
    exact if_pos hfree
  refine .inr ⟨.pass t r, _, hstep, hinv, ?_, ?_, fun c => ?_, fun u => ?_, fun j => ?_, ?_,
    fun x hx => ?_⟩
  · rw [hc, h.conn]
  · rw [hd]
    exact h.accepted
  · rw [hd]
    exact h.closed c
  · rw [hh]
    exact h.hand u
  · rw [hrecv]
    exact h.recv j
  · rw [hd]
    exact h.received
  · have := h.leads x hx
    unfold leadsTo at this ⊢
    rw [hd, hinst]
    exact this

/-- A thread closes its connection. -/
theorem closes {c : Conn} (h : Shows s a) (hinv : s'.Inv) (ht : s.conn t = some (i, c))
    (hht : s.hand t = none) (hc : s'.conn = Function.update s.conn t none) (hh : s'.hand = s.hand)
    (hd : s.d.step (.closeConn c) = some s'.d) (hinst : s'.inst = s.inst)
    (hrecv : s'.recv = s.recv) : Step s' a := by
  have ht' : a.conn t = some (i, c) := by rw [← h.conn, ht]
  have hht' := h.hand_eq_none hht
  simp only [World.step] at hd
  split at hd
  · have hd := Option.some.inj hd
    have hstep : a.step (.close t) = some { a with
        conn := Function.update a.conn t none, closed := a.closed ++ [c] } := by
      simp only [Traffic.step, ht', hht']
    refine .inr ⟨.close t, _, hstep, hinv, ?_, ?_, fun c' => ?_, fun u => ?_, fun j => ?_, ?_,
      fun x hx => ?_⟩
    · rw [hc, h.conn]
    · rw [← hd]
      exact h.accepted
    · rw [← hd]
      simp only [World.setRx, List.mem_singleton, List.mem_append]
      split
      · rename_i hcc
        simp [Link.closeRx, hcc]
      · rename_i hcc
        rw [h.closed c']
        simp [hcc]
    · rw [hh]
      exact h.hand u
    · rw [hrecv]
      exact h.recv j
    · rw [← hd]
      exact h.received
    · have := h.leads x hx
      unfold leadsTo at this ⊢
      rw [← hd, hinst]
      exact this
  · cases hd

/-- The read of a listener returns a bundle. -/
theorem receives {c : Conn} {b : Inbound.Bundle} {q : Received} (h : Shows s a)
    (ha : TrafficInv a) (hinv : s'.Inv) (ht : s.conn t = some (i, c)) (hht : s.hand t = none)
    (hc : s'.conn = s.conn) (hh : s'.hand = Function.update s.hand t (some b))
    (hacc : s'.d.rx.accepted = s.d.rx.accepted) (hrec : s'.d.rx.received = s.d.rx.received ++ [q])
    (hq : q.conn = c ∧ q.data = b.data)
    (hopen : ∀ c, (s'.d.link c).rxOpen = (s.d.link c).rxOpen)
    (hl : ∀ c i, s.leadsTo c i = true → s'.leadsTo c i = true) (hrecv : s'.recv = s.recv) :
    Step s' a := by
  have ht' : a.conn t = some (i, c) := by rw [← h.conn, ht]
  have hht' := h.hand_eq_none hht
  have hstep : a.step (.receive t b) = some { a with
      hand := Function.update a.hand t (some a.receipts.length)
      receipts := a.receipts ++ [⟨i, c, b⟩] } := by
    simp only [Traffic.step, ht', hht']
  have hold : ∀ n < a.receipts.length, Traffic.bundle { a with
      hand := Function.update a.hand t (some a.receipts.length)
      receipts := a.receipts ++ [⟨i, c, b⟩] } n = a.bundle n :=
    fun n hn => bundle_concat hn rfl rfl
  refine .inr ⟨.receive t b, _, hstep, hinv, ?_, ?_, fun c => ?_, fun u => ?_, fun j => ?_, ?_,
    fun x hx => hl _ _ (h.leads x hx)⟩
  · rw [hc, h.conn]
  · rw [hacc]
    exact h.accepted
  · rw [hopen]
    exact h.closed c
  · rw [hh]
    simp only [Function.update_apply]
    split
    · simp [Traffic.bundle]
    · rw [h.hand u]
      cases hu : a.hand u with
      | none => rfl
      | some n => exact congrArg some (hold n (lt_of_hand ha hu)).symm
  · rw [hrecv, h.recv j]
    refine Receiver.map_congr fun o n hn => (hold n ?_).symm
    have := ha.receipts.known (.stored j o) n hn
    simpa using this
  · rw [hrec, List.map_append, h.received, List.map_append]
    simp [hq.1, hq.2]

/-- A listener delivers its bundle. -/
theorem delivers {c : Conn} {b : Inbound.Bundle} (h : Shows s a) (ha : TrafficInv a)
    (hinv : s'.Inv) (ht : s.conn t = some (i, c)) (hht : s.hand t = some b) (hc : s'.conn = s.conn)
    (hh : s'.hand = Function.update s.hand t none) (hd : s'.d = s.d) (hinst : s'.inst = s.inst)
    (hrecv : s'.recv = Function.update s.recv i ((s.recv i).deliver (.ok b))) : Step s' a := by
  have ht' : a.conn t = some (i, c) := by rw [← h.conn, ht]
  have hhand := h.hand t
  rw [hht] at hhand
  obtain ⟨n, hn, hb⟩ := Option.map_eq_some_iff.mp hhand.symm
  have hstep : a.step (.deliver t) = some ({ a with
      hand := Function.update a.hand t none }.setRecv i ((a.recv i).deliver (.ok n))) := by
    simp only [Traffic.step, ht', hn]
  refine .inr ⟨.deliver t, _, hstep, hinv, ?_, ?_, fun c => ?_, fun u => ?_, fun j => ?_, ?_,
    fun x hx => ?_⟩
  · rw [hc, h.conn]
    rfl
  · rw [hd]
    exact h.accepted
  · rw [hd]
    exact h.closed c
  · rw [hh]
    simp only [Traffic.setRecv, Function.update_apply]
    split
    · rfl
    · exact h.hand u
  · rw [hrecv]
    simp only [Traffic.setRecv, Function.update_apply]
    split
    · have hcomm := (ha.healthy i).deliver_map (.ok n) (f := a.bundle)
      rw [← h.recv i, show Except.map a.bundle (.ok n) = (.ok b : Inbound.Item _) from
        congrArg Except.ok hb] at hcomm
      exact hcomm.symm
    · exact h.recv j
  · rw [hd]
    exact h.received
  · have := h.leads x hx
    unfold leadsTo at this ⊢
    rw [hd, hinst]
    exact this

/-- A listener panics before it has delivered its bundle. -/
theorem loses {b : Inbound.Bundle} (h : Shows s a) (hinv : s'.Inv) (hht : s.hand t = some b)
    (hc : s'.conn = s.conn) (hh : s'.hand = Function.update s.hand t none) (hd : s'.d = s.d)
    (hinst : s'.inst = s.inst) (hrecv : s'.recv = s.recv) : Step s' a := by
  have hhand := h.hand t
  rw [hht] at hhand
  obtain ⟨n, hn, -⟩ := Option.map_eq_some_iff.mp hhand.symm
  have hstep : a.step (.lose t) = some { a with
      hand := Function.update a.hand t none, lost := a.lost ++ [n] } := by
    simp only [Traffic.step, hn]
  refine .inr ⟨.lose t, _, hstep, hinv, ?_, ?_, fun c => ?_, fun u => ?_, fun j => ?_, ?_,
    fun x hx => ?_⟩
  · rw [hc, h.conn]
  · rw [hd]
    exact h.accepted
  · rw [hd]
    exact h.closed c
  · rw [hh]
    simp only [Function.update_apply]
    split
    · rfl
    · exact h.hand u
  · rw [hrecv]
    exact h.recv j
  · rw [hd]
    exact h.received
  · have := h.leads x hx
    unfold leadsTo at this ⊢
    rw [hd, hinst]
    exact this

/-- A stream is polled. -/
theorem polls {id : Nat} (h : Shows s a)
    (hinv : (s.setRecv i ((s.recv i).pollNext id false).2).Inv) :
    Step (s.setRecv i ((s.recv i).pollNext id false).2) a := by
  have hyield : ∀ (a : Traffic) q, (a.yield i id q).conn = a.conn ∧
      (a.yield i id q).accepted = a.accepted ∧ (a.yield i id q).closed = a.closed ∧
      (a.yield i id q).hand = a.hand ∧ (a.yield i id q).receipts = a.receipts ∧
      (a.yield i id q).recv = a.recv := by
    intro a q
    unfold Traffic.yield
    split <;> exact ⟨rfl, rfl, rfl, rfl, rfl, rfl⟩
  obtain ⟨q, hq⟩ : ∃ q, (a.recv i).pollNext id false = q := ⟨_, rfl⟩
  have hstep : a.step (.poll i id) = some ((a.setRecv i q.2).yield i id q.1) := by
    simp only [Traffic.step, hq]
  obtain ⟨hconn, hacc, hclosed, hhand, hrec, hrecv⟩ := hyield (a.setRecv i q.2) q.1
  have hb : ((a.setRecv i q.2).yield i id q.1).bundle = a.bundle := by
    funext n
    unfold Traffic.bundle
    rw [hrec]
    rfl
  refine .inr ⟨.poll i id, _, hstep, hinv, ?_, ?_, fun c => ?_, fun u => ?_, fun j => ?_, ?_,
    fun x hx => ?_⟩
  · rw [hconn]
    exact h.conn
  · rw [hacc]
    exact h.accepted
  · rw [hclosed]
    exact h.closed c
  · rw [hhand, hb]
    exact h.hand u
  · rw [hrecv, hb]
    simp only [Nodes.setRecv, Traffic.setRecv, Function.update_apply]
    split
    · rw [h.recv i, ← Receiver.pollNext_map, hq]
    · exact h.recv j
  · rw [hrec]
    exact h.received
  · rw [hacc] at hx
    exact h.leads x hx

/-! ## The places -/

variable {env : NodeEnv} {w : Bool} {l : Nat} {c : Conn}

theorem nextSend {bundle : Bundle} {addr port : UInt8} {p : SendAt} (h : Shows s a)
    (hinv : s'.Inv) (ht : s.thread t = some ⟨.send i bundle addr port p, w⟩)
    (hs : s.nextSend t i bundle addr port env p = some s') : Step s' a := by
  cases p with
  | turn =>
    simp only [Nodes.nextSend] at hs
    split at hs
    · obtain rfl := Option.some.inj hs
      exact h.quiet hinv (.goto ht (.refl s) rfl rfl) rfl
    · obtain ⟨s₁, hs₁, rfl⟩ := Option.map_eq_some_iff.mp hs
      obtain ⟨d, hd, rfl⟩ := Option.map_eq_some_iff.mp hs₁
      have hidle := World.idle_of_sender hd rfl
      exact h.quiet hinv (.goto ht ⟨rfl, hidle, fun _ => ⟨rfl, rfl⟩⟩ rfl rfl) rfl
  | inC =>
    simp only [Nodes.nextSend] at hs
    split at hs
    · rename_i hop
      obtain ⟨s₁, hs₁, rfl⟩ := Option.map_eq_some_iff.mp hs
      obtain ⟨d, hd, rfl⟩ := Option.map_eq_some_iff.mp hs₁
      have hidle := World.idle_of_sender hd (sendBy_spec hop).1
      have hsame : s.Same { s with d } := ⟨rfl, hidle, fun _ => ⟨rfl, rfl⟩⟩
      revert hinv
      split
      · intro hinv
        exact h.quiet hinv (.goto ht hsame rfl rfl) rfl
      · intro hinv
        exact h.quiet hinv hsame.rest rfl
    · cases hs
  | leaving =>
    obtain rfl := Option.some.inj hs
    exact h.quiet hinv (.goto ht (.refl s) rfl rfl) rfl

theorem nextAccept {p : AcceptAt} (h : Shows s a) (ha : TrafficInv a) (hinv : s'.Inv)
    (ht : s.thread t = some ⟨.accept i p, w⟩) (hs : s.nextAccept t i env p = some s') :
    Step s' a := by
  cases p with
  | decide =>
    obtain rfl := Option.some.inj hs
    refine h.runs ha hinv (.goto ht (.of_inst rfl rfl rfl) ?_ ?_) .decideAccept rfl rfl
    · split <;> rfl
    · split <;> rfl
  | waitForSlot =>
    obtain rfl := Option.some.inj hs
    refine h.quiet hinv (.goto ht (.of_inst rfl rfl rfl) ?_ ?_) rfl
    · dsimp only
      split
      · rfl
      · split <;> rfl
    · rfl
  | slotFreed | pollConnection | backoff =>
    obtain rfl := Option.some.inj hs
    exact h.quiet hinv (.goto ht (.refl s) rfl rfl) rfl
  | isReceiving | acceptConn | pause =>
    obtain rfl := Option.some.inj hs
    refine h.quiet hinv (.goto ht (.refl s) ?_ rfl) rfl
    repeat' split
    all_goals rfl
  | rxLookup =>
    simp only [Nodes.nextAccept] at hs
    split at hs
    · obtain rfl := Option.some.inj hs
      exact h.quiet hinv (.goto ht (.setInst rfl rfl) rfl rfl) rfl
    · obtain rfl := Option.some.inj hs
      exact h.quiet hinv (.goto ht (.refl s) rfl rfl) rfl
  | rxCreate =>
    simp only [Nodes.nextAccept] at hs
    split at hs
    · obtain rfl := Option.some.inj hs
      exact h.quiet hinv (.goto ht (.setInst rfl rfl) rfl rfl) rfl
    · obtain rfl := Option.some.inj hs
      exact h.quiet hinv (.goto ht (.refl s) rfl rfl) rfl
  | rxRegister k | supersede l | dropRunning l =>
    obtain rfl := Option.some.inj hs
    exact h.quiet hinv (.goto ht (.of_inst rfl rfl rfl) rfl rfl) rfl
  | register c key =>
    obtain rfl := Option.some.inj hs
    exact h.quiet hinv (.goto ht (.of_inst rfl rfl rfl) rfl rfl) rfl
  | accepting =>
    simp only [Nodes.nextAccept] at hs
    split at hs
    · obtain rfl := Option.some.inj hs
      exact h.quiet hinv (.goto ht (.refl s) rfl rfl) rfl
    · rename_i c key _
      split at hs
      · rename_i hleads
        obtain ⟨s₁, hs₁, rfl⟩ := Option.map_eq_some_iff.mp hs
        obtain ⟨d, hd, rfl⟩ := Option.map_eq_some_iff.mp hs₁
        simp only [World.step] at hd
        split at hd
        · rename_i hnew
          obtain rfl := Option.some.inj hd
          refine h.accepts hinv (conn_at ht) (hand_at ht) hnew.2 hleads ?_ ?_ rfl rfl
            (fun _ => rfl) (fun _ _ hl => hl) rfl
          · rw [conn_goto]
            rfl
          · rw [hand_goto, show NodePlace.hand (.accept i _) = none from rfl,
              ← show s.hand t = none from hand_at ht]
            exact Function.update_eq_self ..
        · cases hd
      · cases hs
  | polled res =>
    obtain rfl := Option.some.inj hs
    refine h.quiet hinv (.goto ht (.refl s) ?_ rfl) rfl
    split
    · rfl
    · rfl
    · rename_i e hne
      cases e <;> rfl
  | spawn c l =>
    simp only [Nodes.nextAccept] at hs
    split at hs
    · rename_i r _
      obtain ⟨s₁, hs₁, rfl⟩ := Option.map_eq_some_iff.mp hs
      unfold Nodes.spawn at hs₁
      split at hs₁
      · rename_i hr
        obtain rfl := Option.some.inj hs₁
        have hrc : s.conn r = none := by simp [Nodes.conn, hr]
        have hrh : s.hand r = none := by simp [Nodes.hand, hr]
        have hth : s.hand t = none := hand_at ht
        refine h.passes hinv (conn_at ht) hrc hth hrh ?_ ?_ rfl rfl rfl
        · rw [conn_goto, conn_goto]
          rfl
        · rw [hand_goto, hand_goto]
          show Function.update (Function.update s.hand r none) t none = s.hand
          rw [← hrh, Function.update_eq_self, hrh, ← hth, Function.update_eq_self]
      · cases hs₁
    · obtain rfl := Option.some.inj hs
      exact h.quiet hinv (.goto ht (.refl s) rfl rfl) rfl
  | dropConn c l =>
    obtain ⟨s₁, hs₁, rfl⟩ := Option.map_eq_some_iff.mp hs
    obtain ⟨d, hd, rfl⟩ := Option.map_eq_some_iff.mp hs₁
    have hth : s.hand t = none := hand_at ht
    refine h.closes hinv (conn_at ht) hth ?_ ?_ hd rfl rfl
    · rw [conn_goto]
      rfl
    · rw [hand_goto]
      show Function.update s.hand t none = s.hand
      rw [← hth, Function.update_eq_self]
  | deliver e =>
    obtain rfl := Option.some.inj hs
    exact h.runs ha hinv (.goto ht (.of_inst rfl rfl rfl) rfl rfl) (.deliver (.error e)) rfl rfl
  | unwind =>
    obtain rfl := Option.some.inj hs
    exact h.runs ha hinv (.goto ht (.of_inst rfl rfl rfl) rfl rfl) (.acceptGuardDrop env.now)
      rfl rfl

theorem nextClose {p : CloseAt} (h : Shows s a) (ha : TrafficInv a)
    (hinv : (s.nextClose t i env p).Inv) (ht : s.thread t = some ⟨.close i p, w⟩) :
    Step (s.nextClose t i env p) a := by
  cases p with
  | begin =>
    exact h.runs ha hinv (.goto ht (.of_inst rfl rfl rfl) rfl rfl) (.beginClose env.now) rfl rfl
  | socket => exact h.quiet hinv (.goto ht (.setInst rfl rfl) rfl rfl) rfl
  | guardDrop =>
    exact h.runs ha hinv (.goto ht (.of_inst rfl rfl rfl) rfl rfl) .closeGuardDrop rfl rfl

/-- A step of a read returns a bundle, or nothing of it shows. -/
theorem read_cases {op : DeliveryOp} {d : World} (hr : (s.d.rx.recv t).Reads c)
    (hop : op.recvBy t = true) (hd : s.d.step op = some d) :
    (∃ b data, s.recvResult t op = some (.ok data) ∧ d.tx = s.d.tx ∧
      d.rx.accepted = s.d.rx.accepted ∧ d.rx.received = s.d.rx.received ++ [⟨b, c, data⟩] ∧
      ∀ c', (d.link c').rxOpen = (s.d.link c').rxOpen) ∨
    s.d.Idle d ∧ ∀ data, s.recvResult t op ≠ some (.ok data) := by
  by_cases hack : ∃ sent, op = .ack t sent
  · left
    obtain ⟨sent, rfl⟩ := hack
    rcases hr with ⟨got, hr⟩ | ⟨b, data, hr⟩
    · simp only [World.step, hr] at hd
      cases hd
    · simp only [World.step, hr] at hd
      obtain rfl := Option.some.inj hd
      refine ⟨b, data, by simp only [recvResult, hr], ?_⟩
      cases sent with
      | false => exact ⟨rfl, rfl, rfl, fun _ => rfl⟩
      | true =>
        refine ⟨rfl, rfl, rfl, fun c' => World.rxOpen_setLink (w := { s.d with rx := _ }) ?_⟩
        unfold Link.ack
        split <;> rfl
  · right
    refine ⟨World.idle_of_reads hr hop (fun sent he => hack ⟨sent, he⟩) hd, fun data hres => ?_⟩
    cases op with
    | ack u sent =>
      obtain rfl : u = t := by simpa [DeliveryOp.recvBy] using hop
      exact hack ⟨sent, rfl⟩
    | sfpRecvFails u ret => cases Option.some.inj hres
    | reassemble u b =>
      simp only [recvResult] at hres
      split at hres
      · cases hres
      · cases Option.some.inj hres
    | _ => cases hres

/-- A read of a listener goes on, or returns. -/
theorem reading (h : Shows s a) (ha : TrafficInv a) (hinv : s'.Inv)
    (ht : s.thread t = some ⟨.listen i l c .reading, w⟩)
    (hs : s.nextListen t i l c env .reading = some s') : Step s' a := by
  simp only [Nodes.nextListen] at hs
  split at hs
  · rename_i hop
    obtain ⟨s₁, hs₁, rfl⟩ := Option.map_eq_some_iff.mp hs
    obtain ⟨d, hd, rfl⟩ := Option.map_eq_some_iff.mp hs₁
    -- It reads the connection of its place.
    have hreads : (s.d.rx.recv t).Reads c := by
      rcases (h.inv.fits t).reads with hi | ⟨i', l', c', hth, hr⟩
      · exact absurd hd (not_reads_idle hi hop)
      · rw [ht] at hth
        cases hth
        exact hr
    revert hinv
    rcases read_cases hreads hop hd with ⟨b, data, hres, htx, hacc, hrec, hopen⟩ | ⟨hidle, hno⟩
    · simp only [hres]
      intro hinv
      refine h.receives ha (b := ⟨data, _, _⟩) (q := ⟨b, c, data⟩) hinv (conn_at ht) (hand_at ht)
        (conn_goto.trans ?_) hand_goto hacc hrec ⟨rfl, rfl⟩ hopen ?_ rfl
      · show Function.update s.conn t (some (i, c)) = s.conn
        rw [← show s.conn t = some (i, c) from conn_at ht, Function.update_eq_self]
      · intro c' i' hl
        unfold leadsTo at hl ⊢
        rw [received_d, htx]
        exact hl
    · have hsame : s.Same { s with d } := ⟨rfl, hidle, fun _ => ⟨rfl, rfl⟩⟩
      cases hres : s.recvResult t env.c with
      | none => exact fun hinv => h.quiet hinv hsame.rest rfl
      | some res =>
        cases res with
        | ok data => exact absurd hres (hno data)
        | error e =>
          intro hinv
          cases e with
          | timeout =>
            refine h.quiet hinv (.goto ht hsame rfl ?_) rfl
            split <;> rfl
          | _ => exact h.quiet hinv (.goto ht hsame rfl rfl) rfl
  · cases hs

theorem nextListen {p : ListenAt} (h : Shows s a) (ha : TrafficInv a) (hinv : s'.Inv)
    (ht : s.thread t = some ⟨.listen i l c p, w⟩)
    (hs : s.nextListen t i l c env p = some s') : Step s' a := by
  cases p with
  | top =>
    obtain rfl := Option.some.inj hs
    refine h.quiet hinv (.goto ht (.refl s) rfl ?_) rfl
    split
    · rfl
    · split <;> rfl
  | stopped =>
    obtain rfl := Option.some.inj hs
    exact h.quiet hinv (.goto ht (.refl s) rfl rfl) rfl
  | evicted =>
    simp only [Nodes.nextListen] at hs
    split at hs
    · obtain rfl := Option.some.inj hs
      exact h.quiet hinv (.goto ht (.refl s) rfl rfl) rfl
    · obtain ⟨s₁, hs₁, rfl⟩ := Option.map_eq_some_iff.mp hs
      obtain ⟨d, hd, rfl⟩ := Option.map_eq_some_iff.mp hs₁
      have hidle := World.idle_recvFromConn hd
      exact h.quiet hinv (.goto ht ⟨rfl, hidle, fun _ => ⟨rfl, rfl⟩⟩ rfl rfl) rfl
  | reading => exact h.reading ha hinv ht hs
  | deliver item =>
    obtain rfl := Option.some.inj hs
    cases item with
    | ok b =>
      refine h.delivers ha hinv (conn_at ht) (hand_at ht) (conn_goto.trans ?_) hand_goto rfl rfl rfl
      show Function.update s.conn t (some (i, c)) = s.conn
      rw [← show s.conn t = some (i, c) from conn_at ht, Function.update_eq_self]
    | error e =>
      exact h.runs ha hinv (.goto ht (.of_inst rfl rfl rfl) rfl rfl) (.deliver (.error e)) rfl rfl
  | closing =>
    obtain ⟨s₁, hs₁, rfl⟩ := Option.map_eq_some_iff.mp hs
    obtain ⟨d, hd, rfl⟩ := Option.map_eq_some_iff.mp hs₁
    have hth : s.hand t = none := hand_at ht
    refine h.closes hinv (conn_at ht) hth conn_goto ?_ hd rfl rfl
    rw [hand_goto]
    show Function.update s.hand t none = s.hand
    rw [← hth, Function.update_eq_self]

theorem nextOpen {p : OpenAt} (h : Shows s a) (ha : TrafficInv a) (hinv : s'.Inv)
    (ht : s.thread t = some ⟨.open i p, w⟩) (hs : s.nextOpen t i env p = some s') : Step s' a := by
  cases p with
  | subscribe =>
    simp only [Nodes.nextOpen] at hs
    split at hs
    · obtain rfl := Option.some.inj hs
      exact h.quiet hinv (.goto ht (.refl s) rfl rfl) rfl
    · obtain rfl := Option.some.inj hs
      have hsame : s.Same (s.setRecv i (s.recv i).subscribe.2.2) := .of_inst rfl rfl rfl
      refine h.runs (i := i) ha hinv ?_ .subscribe rfl ?_
      · split
        · exact .goto ht hsame rfl rfl
        · exact .exit ht (.of_inst rfl rfl rfl) rfl rfl
      · split <;> rfl
  | closing =>
    obtain rfl := Option.some.inj hs
    exact h.quiet hinv (.goto ht (.refl s) rfl rfl) rfl
  | spawn n =>
    simp only [Nodes.nextOpen] at hs
    split at hs
    · rename_i r _
      obtain ⟨s₁, hs₁, rfl⟩ := Option.map_eq_some_iff.mp hs
      unfold Nodes.spawn at hs₁
      split at hs₁
      · rename_i hr
        obtain rfl := Option.some.inj hs₁
        have htr : t ≠ r := by
          rintro rfl
          rw [hr] at ht
          cases ht
        have hone : s.Rest ((s.addRef r i).goto r (.accept i .decide)) :=
          .enter hr (.of_inst rfl rfl rfl) rfl rfl
        have ht₁ : ((s.addRef r i).goto r (.accept i .decide)).thread t = some ⟨.open i (.spawn n), w⟩ :=
          (Function.update_of_ne htr ..).trans ht
        exact h.quiet hinv (hone.trans (.exit ht₁ (.of_inst rfl rfl rfl) rfl rfl)) rfl
      · cases hs₁
    · obtain rfl := Option.some.inj hs
      exact h.quiet hinv (.goto ht (.refl s) rfl rfl) rfl
  | acceptFailed n =>
    obtain rfl := Option.some.inj hs
    exact h.runs ha hinv (.exit ht (.of_inst rfl rfl rfl) rfl rfl) (.acceptFailed n env.now) rfl rfl

theorem next {q : NodePlace} (h : Shows s a) (ha : TrafficInv a) (hinv : s'.Inv)
    (ht : s.thread t = some ⟨q, w⟩) (hs : s.next t env q = some s') : Step s' a := by
  cases q with
  | send i bundle addr port p => exact h.nextSend hinv ht hs
  | accept i p => exact h.nextAccept ha hinv ht hs
  | listen i l c p => exact h.nextListen ha hinv ht hs
  | close i p =>
    obtain rfl := Option.some.inj hs
    exact h.nextClose ha hinv ht
  | «open» i p => exact h.nextOpen ha hinv ht hs
  | unsubscribe i id =>
    obtain rfl := Option.some.inj hs
    exact h.runs ha hinv (.goto ht (.of_inst rfl rfl rfl) rfl rfl) (.unsubscribe id env.now) rfl rfl
  | init p =>
    obtain rfl := Option.some.inj hs
    exact h.quiet hinv (.exit ht (.of_inst rfl rfl rfl) rfl rfl) rfl
  | release i o =>
    simp only [Nodes.next] at hs
    obtain rfl := Option.some.inj hs
    have hsame : s.Same (s.dropRef t i) := .of_inst rfl rfl rfl
    refine h.quiet hinv ?_ ?_
    · split
      · exact .goto ht hsame rfl rfl
      · exact .afterRelease ht hsame rfl rfl
    · split
      · rfl
      · cases o <;> rfl
  | cleanup i o =>
    obtain rfl := Option.some.inj hs
    refine h.quiet hinv (.afterRelease ht (.setInst rfl rfl) rfl rfl) ?_
    cases o <;> rfl
  | finish i l =>
    obtain rfl := Option.some.inj hs
    exact h.quiet hinv (.exit ht (.of_inst rfl rfl rfl) rfl rfl) rfl

/-- Thread `t` is called with nothing in its hands. -/
theorem begin {k : NodeCall} (h : Shows s a) (hinv : (s.begin t i k).Inv)
    (ht : s.thread t = none) : Step (s.begin t i k) a := by
  cases k with
  | sendBundle bundle addr port =>
    simp only [Nodes.begin] at hinv ⊢
    split
    · exact .inl h
    · rename_i hb
      rw [if_neg hb] at hinv
      exact h.quiet hinv (.enter ht (.of_inst rfl rfl rfl) rfl rfl) rfl
  | _ => exact h.quiet hinv (.enter ht (.of_inst rfl rfl rfl) rfl rfl) rfl

/-- A thread takes the mutex of its place. -/
theorem waits {th : NodeThread} {f : Mutex → Option Nat} (h : Shows s a)
    (ht : s.thread t = some th)
    (hinv : Nodes.Inv { s with
      thread := Function.update s.thread t (some { th with waiting := false }), locks := f }) :
    Step { s with
      thread := Function.update s.thread t (some { th with waiting := false }), locks := f } a := by
  refine h.quiet hinv ⟨?_, ?_, .refl _, fun _ => ⟨rfl, rfl⟩⟩ rfl
  · funext u
    simp only [Nodes.conn, Function.update_apply]
    split
    · rename_i hu
      rw [hu, ht]
      rfl
    · rfl
  · funext u
    simp only [Nodes.hand, Function.update_apply]
    split
    · rename_i hu
      rw [hu, ht]
      rfl
    · rfl

theorem step {op : NodesOp} (h : Shows s a) (ha : TrafficInv a) (hs : s.step op = some s') :
    Step s' a := by
  have hinv := h.inv.step hs
  cases op with
  | call t i k =>
    simp only [Nodes.step] at hs
    split at hs
    · rename_i hcond
      obtain rfl := Option.some.inj hs
      exact h.begin hinv hcond.1
    · cases hs
  | init t n =>
    simp only [Nodes.step] at hs
    split at hs
    · rename_i ht
      obtain rfl := Option.some.inj hs
      exact h.quiet hinv (.enter ht (.refl s) rfl rfl) rfl
    · cases hs
  | lock t ok =>
    simp only [Nodes.step] at hs
    split at hs
    · rename_i th m ht hm
      split at hs
      · cases hs
      split at hs
      · rename_i hc
        obtain ⟨i, bundle, addr, port, rfl⟩ := inC_of_wants ht hm hc
        obtain ⟨s₁, hs₁, rfl⟩ := Option.map_eq_some_iff.mp hs
        obtain ⟨d, hd, rfl⟩ := Option.map_eq_some_iff.mp hs₁
        have hsame : s.Same { s with d } := ⟨rfl, World.idle_of_sender hd rfl, fun _ => ⟨rfl, rfl⟩⟩
        revert hinv
        dsimp only
        split
        · exact fun hinv => h.quiet hinv (.goto ht hsame rfl rfl) rfl
        · exact fun hinv => h.quiet hinv hsame.rest rfl
      · obtain rfl := Option.some.inj hs
        exact h.waits ht hinv
    · cases hs
  | run t env =>
    simp only [Nodes.step] at hs
    split at hs
    · rename_i th ht hm
      exact h.next ha hinv ht hs
    · cases hs
  | panic t =>
    simp only [Nodes.step] at hs
    split at hs
    · rename_i i p w ht
      -- At these places it has no connection.
      split at hs
      all_goals cases hs
      rename_i h₁ h₂ h₃ h₄ h₅ h₆ h₇
      have hconn : NodePlace.conn (.accept i p) = none := by
        cases p with
        | polled res => exact absurd rfl (h₁ res)
        | register c key => exact absurd rfl (h₂ c key)
        | spawn c l => exact absurd rfl (h₃ c l)
        | dropConn c l => exact absurd rfl (h₅ c l)
        | _ => rfl
      exact h.quiet hinv (.goto ht (.refl s) hconn.symm rfl) rfl
    · rename_i i l c p w ht
      split at hs
      all_goals cases hs
      by_cases hb : ∃ b, p = .deliver (.ok b)
      · obtain ⟨b, rfl⟩ := hb
        refine h.loses hinv (hand_at ht) (conn_goto.trans ?_) hand_goto rfl rfl rfl
        show Function.update s.conn t (some (i, c)) = s.conn
        rw [← show s.conn t = some (i, c) from conn_at ht, Function.update_eq_self]
      · have hhand : NodePlace.hand (.listen i l c p) = none := by
          cases p with
          | deliver item =>
            cases item with
            | ok b => exact absurd ⟨b, rfl⟩ hb
            | error e => rfl
          | _ => rfl
        exact h.quiet hinv (.goto ht (.refl s) rfl hhand.symm) rfl
    · cases hs
  | cloneCspcl i =>
    simp only [Nodes.step] at hs
    split at hs
    · obtain rfl := Option.some.inj hs
      exact h.quiet hinv (Same.rest (.of_inst rfl rfl rfl)) rfl
    · cases hs
  | poll i id =>
    obtain rfl := Option.some.inj hs
    exact h.polls hinv
  | loseFrag c j | loseAck c j =>
    simp only [Nodes.step] at hs
    obtain ⟨d, hd, rfl⟩ := Option.map_eq_some_iff.mp hs
    obtain rfl := Option.some.inj hd
    exact h.quiet hinv (Same.rest ⟨rfl, World.idle_setLink rfl, fun _ => ⟨rfl, rfl⟩⟩) rfl

end Shows

/-- The nodes refine the abstract system. -/
theorem nodes_refine : nodesSys.Simulation trafficSys Shows where
  init s hs := by
    have hinv := nodesSys_inv.init s hs
    obtain ⟨proc, inst, maxAgeEnv, globals, now, -, rfl⟩ := hs
    exact ⟨.new now, ⟨now, rfl⟩, hinv, rfl, rfl, fun c => by simp [Nodes.new, World.new, Link.new,
      Traffic.new], fun _ => rfl, fun _ => rfl, rfl, nofun⟩
  step s op s' a ha h hs := h.step (trafficSys_inv.reach ha) hs

end Cspcl
