import Cspcl.Delivery.Dests
import Cspcl.Nodes.Others
import Cspcl.Nodes.Refine

/-!
# From the send to the stream

A send that returned `CSPCL_OK` has its bundle at an instance with the address and port that it was
sent to, and that receipt is in exactly one place there: a listener is about to deliver it, it waits
for a stream, it is in the queue of one, or a stream has yielded it (or a panic took it from the
listener's hands).

* `nodes_delivery`: what the nodes do in C is a run of `deliverySys`.
* `Nodes.EndToEnd`, `end_to_end`: the statement, in every reachable state.
-/

namespace Cspcl

open Inbound (Receiver)

/-- In C, and between the nodes, a run of the nodes is a run of `deliverySys`. -/
theorem nodes_delivery : nodesSys.Simulation deliverySys fun s w => s.d = w where
  init s hs := by
    obtain ⟨proc, inst, maxAgeEnv, globals, now, -, rfl⟩ := hs
    exact ⟨_, ⟨_, _, rfl⟩, rfl⟩
  step s op s' w _ h hs := by
    subst h
    rcases (Nodes.step_moves hs).d with hd | ⟨op', hd, -⟩
    · exact .inl hd
    · exact .inr ⟨op', _, hd, rfl⟩

theorem dests_inductive : deliverySys.Inductive fun w => w.Inv ∧ w.tx.Dests :=
  World.inv_inductive.given
    (fun w hw => by
      obtain ⟨initialized, pool, rfl⟩ := hw
      exact ⟨nofun, nofun⟩)
    fun _ _ _ hinv hd hs => hinv.dests hd hs

namespace Nodes

/-- The instance has the address and the port. -/
def IsAt (s : Nodes) (i : Nat) (addr port : UInt8) : Prop :=
  (s.inst i).localAddr = addr ∧ (s.inst i).cspPort = port

/-- What becomes of the bundles; `a` tells which receipts there were, and where they are. -/
structure EndToEnd (s : Nodes) (a : Traffic) : Prop where
  /-- The bundle of a send that returned `CSPCL_OK` was received where it was sent to, because of
  that very send. -/
  delivered : ∀ x ∈ s.d.tx.sent, x.err = .ok →
    ∃ (n : Nat) (r : Receipt) (q : Received) (y : Attempt),
    a.receipts[n]? = some r ∧ s.d.rx.received[n]? = some q ∧
    s.d.tx.attempts[q.attempt]? = some y ∧ y.call = x.call ∧ r.bundle.data = x.call.bundle ∧
    s.IsAt r.inst x.call.addr x.call.port
  /-- No bundle is received more than twice because of one send. -/
  twice : ∀ id, (s.d.rx.received.filter (s.d.causedBy id)).length ≤ 2
  /-- An instance receives only what was sent to it, unchanged. -/
  sent : ∀ r ∈ a.receipts, ∃ y ∈ s.d.tx.attempts, y.conn = r.conn ∧
    y.call.bundle = r.bundle.data ∧ s.IsAt r.inst y.call.addr y.call.port
  /-- Each receipt is in exactly one place, once, and there are no others. -/
  one_place : ∀ n < a.receipts.length,
    ∃ p, (a.receiptAt p).count n = 1 ∧ ∀ q, q ≠ p → n ∉ a.receiptAt q
  known : ∀ p, ∀ n ∈ a.receiptAt p, n < a.receipts.length
  /-- It never gets to the receiver or the streams of another instance. -/
  home : ∀ p i n, p.inst = some i → n ∈ a.receiptAt p → ∃ r, a.receipts[n]? = some r ∧ r.inst = i
  /-- The queues of the receivers hold the bundles of the receipts that are there. -/
  stored : ∀ i o, (s.recv i).stored o = (a.receiptAt (.stored i o)).map a.bundle
  hand : ∀ t, s.hand t = (a.hand t).map a.bundle

end Nodes

open Nodes in
theorem end_to_end {s : Nodes} (hs : nodesSys.Reach s) :
    ∃ a, trafficSys.Reach a ∧ Shows s a ∧ s.EndToEnd a := by
  obtain ⟨a, ha, h⟩ := nodes_refine.reach hs
  obtain ⟨w, hw, rfl⟩ := nodes_delivery.reach hs
  have hinv := trafficSys_inv.reach ha
  have hhonest := World.delivery_honest hw
  obtain ⟨hd, hdest⟩ := dests_inductive.reach hw
  have hlen : s.d.rx.received.length = a.receipts.length := by
    simpa using congrArg List.length h.received
  -- What is received at `n` is the receipt `n`.
  have hat : ∀ (n : Nat) (q : Received) (r : Receipt), s.d.rx.received[n]? = some q →
      a.receipts[n]? = some r → q.conn = r.conn ∧ q.data = r.bundle.data := by
    intro n q r hq hr
    have := congrArg (·[n]?) h.received
    simpa [hq, hr] using this
  -- The attempts on its connection were for the instance.
  have hto : ∀ r ∈ a.receipts, ∀ y ∈ s.d.tx.attempts, y.conn = r.conn →
      s.IsAt r.inst y.call.addr y.call.port := by
    intro r hr y hy hyr
    obtain ⟨z, hz, hp⟩ := List.any_eq_true.mp (h.leads _ (hinv.source r hr))
    simp only [Bool.and_eq_true, decide_eq_true_eq] at hp
    obtain ⟨-, haddr, hport⟩ := hdest.same y hy z hz (hyr.trans hp.1.1.symm)
    exact ⟨hp.1.2.symm.trans haddr.symm, hp.2.symm.trans hport.symm⟩
  refine ⟨a, ha, h, fun x hx hok => ?_, hhonest.two, fun r hr => ?_, fun n hn => ?_,
    fun p n hn => ?_, hinv.home, fun i o => ?_, h.hand⟩
  · obtain ⟨b, y, q, -, hy, hcall, hq, rfl, hconn, hdata⟩ := hhonest.delivered x hx hok
    obtain ⟨n, hn⟩ := List.getElem?_of_mem hq
    obtain ⟨hlt, -⟩ := List.getElem?_eq_some_iff.mp hn
    have hr : a.receipts[n]? = some a.receipts[n] := List.getElem?_eq_getElem (hlen ▸ hlt)
    obtain ⟨hc, hb⟩ := hat n q _ hn hr
    refine ⟨n, _, q, y, hr, hn, hy, hcall, hb.symm.trans hdata, ?_⟩
    rw [← hcall]
    exact hto _ (List.mem_of_getElem? hr) y (List.mem_of_getElem? hy) (hconn.symm.trans hc)
  · obtain ⟨n, hn⟩ := List.getElem?_of_mem hr
    obtain ⟨hlt, -⟩ := List.getElem?_eq_some_iff.mp hn
    have hq : s.d.rx.received[n]? = some s.d.rx.received[n] :=
      List.getElem?_eq_getElem (hlen ▸ hlt)
    obtain ⟨hc, hb⟩ := hat n _ r hq hn
    obtain ⟨y, hy, hyc, hyb⟩ := hd.packets.received _ (List.mem_of_getElem? hq)
    have hmem := List.mem_of_getElem? hy
    exact ⟨y, hmem, hyc.trans hc, hyb.trans hb, hto r hr y hmem (hyc.trans hc)⟩
  · exact hinv.receipts.held n (List.mem_range.mpr hn)
  · exact List.mem_range.mp (hinv.receipts.known p n hn)
  · rw [h.recv i]
    exact Receiver.stored_map o

namespace Crossing

/-- The listener of node `1` takes the bundle of node `0` over, a stream yields it, and the send
returns. -/
def arrives : List NodesOp :=
  run ++ [.run 12 (.inC (.consume 12)), .run 12 (.inC (.reassemble 12 0)),
    .run 12 (.inC (.ack 12 true))] ++ locked 12 ++ [.poll 1 0, .run 3 (.inC (.read 3 true)),
    .run 3 (.inC (.unlock 3 true))]

end Crossing

open Nodes Crossing in
theorem end_to_end_crossing : ∃ s a, nodesSys.exec start arrives = some s ∧
    s.d.tx.sent = [⟨⟨0, 0, [1], 2, 10⟩, .ok, some ⟨0, 0⟩⟩] ∧ s.EndToEnd a := by
  have h : (nodesSys.exec start arrives).map (·.d.tx.sent) =
      some [⟨⟨0, 0, [1], 2, 10⟩, .ok, some ⟨0, 0⟩⟩] := by
    decide +kernel
  obtain ⟨s, hs, hsent⟩ := Option.map_eq_some_iff.mp h
  have hreach : nodesSys.Reach s := .of_exec ⟨_, _, _, _, _, fun _ => rfl, rfl⟩ hs
  obtain ⟨a, -, -, he⟩ := end_to_end hreach
  exact ⟨s, a, hs, hsent, he⟩

end Cspcl
