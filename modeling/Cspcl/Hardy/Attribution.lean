import Mathlib.Data.List.Forall2
import Cspcl.Config
import Cspcl.Receive.Agree

/-!
# Whose bundle it is

The way of a source address from a connection of libcsp to `sink.dispatch`: `cspcl_accept_conn`
(`src/cspcl.c`), `recv_bundle_from_conn` (`rust-bindings/cspcl/src/inbound.rs`), the dispatcher.

* `cspToEndpoint_eq`: the table has a peer under its address and the port it is configured with.
* `attributed_iff`: the bundles of the configured peers are dispatched with their node ids iff each
  came on a connection whose source port is the port configured for its peer. libcsp gives an
  outgoing connection a port of its own, not the one that the peer listens on.
-/

namespace Cspcl.Hardy

open Inbound Receive

/-- A connection of libcsp: what `csp_conn_src` and `csp_conn_sport` return. -/
structure CspConn where
  src : UInt8
  sport : UInt8
  deriving DecidableEq, Repr

/-- `AcceptedConn` of the bindings. -/
structure AcceptedConn where
  conn : CspConn
  srcAddr : UInt8
  srcPort : UInt8

/-- `cspcl_accept_conn`. `opened`: what `cspcl_open_rx_socket` returns if there is no socket yet;
`accepted`: what `csp_accept` returns. -/
def acceptConn (initialized rxSocket : Bool) (opened : CspclError) (accepted : Option CspConn) :
    Except CspclError AcceptedConn :=
  if !initialized then .error .notInitialized
  else if !rxSocket && opened ≠ .ok then .error opened
  else match accepted with
    | none => .error .timeout
    | some conn => .ok ⟨conn, conn.src, conn.sport⟩

/-- `recv_bundle_from_conn`, for a bundle of these bytes. -/
def recvBundleFromConn (conn : AcceptedConn) (data : List UInt8) : Inbound.Bundle :=
  ⟨data, conn.srcAddr, conn.srcPort⟩

/-- A bundle that arrives on a connection that was accepted. -/
structure Arrival where
  conn : CspConn
  accepted : AcceptedConn
  data : List UInt8
  accept : acceptConn true true .ok (some conn) = .ok accepted

/-- The bundle that the bindings make of it. -/
def Arrival.bundle (a : Arrival) : Inbound.Bundle := recvBundleFromConn a.accepted a.data

theorem Arrival.bundle_eq (a : Arrival) : a.bundle = ⟨a.data, a.conn.src, a.conn.sport⟩ := by
  obtain ⟨conn, accepted, data, h⟩ := a
  obtain rfl := Except.ok.inj h
  rfl

variable {ι : Type} {peers : List (PeerConfig ι)} {p : PeerConfig ι} {addr port : UInt8}

/-! ## The table -/

/-- The insertions of peers with other addresses leave an address as it is. -/
theorem insertAll_of_ne (table : CspAddress → Option ι) (h : ∀ q ∈ peers, q.addr ≠ addr) :
    peers.foldl insertPeer table ⟨addr, port⟩ = table ⟨addr, port⟩ := by
  induction peers generalizing table with
  | nil => rfl
  | cons q peers ih =>
    rw [List.foldl_cons, ih _ fun r hr => h r (List.mem_cons_of_mem q hr), insertPeer,
      Function.update_of_ne]
    intro he
    exact h q List.mem_cons_self (CspAddress.mk.inj he).1.symm

theorem insertAll_of_mem (table : CspAddress → Option ι) (hu : (peers.map PeerConfig.addr).Nodup)
    (hp : p ∈ peers) (ht : table ⟨p.addr, port⟩ = none) :
    peers.foldl insertPeer table ⟨p.addr, port⟩ =
      if port = p.port then some p.nodeId else none := by
  induction peers generalizing table with
  | nil => cases hp
  | cons q peers ih =>
    rw [List.map_cons, List.nodup_cons] at hu
    have hne : ∀ r ∈ peers, r.addr ≠ q.addr :=
      fun r hr he => hu.1 (List.mem_map.mpr ⟨r, hr, he⟩)
    rw [List.foldl_cons]
    rcases List.mem_cons.mp hp with rfl | hp
    · rw [insertAll_of_ne _ hne, insertPeer]
      by_cases he : port = p.port
      · rw [if_pos he, he, Function.update_self]
      · rw [if_neg he, Function.update_of_ne fun h => he (CspAddress.mk.inj h).2, ht]
    · refine ih _ hu.2 hp ?_
      rw [insertPeer, Function.update_of_ne fun h => hne p hp (CspAddress.mk.inj h).1, ht]

/-- A peer whose address no other peer has is in the table under the port it is configured with,
and under no other port. -/
theorem cspToEndpoint_eq (hu : (peers.map PeerConfig.addr).Nodup) (hp : p ∈ peers) :
    cspToEndpoint peers ⟨p.addr, port⟩ = if port = p.port then some p.nodeId else none :=
  insertAll_of_mem _ hu hp rfl

/-! ## The dispatcher -/

/-- The call for a bundle has the node id of the peer whose address the bundle came from. -/
def Attributed (peers : List (PeerConfig ι)) (a : Arrival) (call : Dispatch ι) : Prop :=
  ∀ p ∈ peers, a.conn.src = p.addr → call.peerNode = some p.nodeId

theorem attributed_call_iff (hu : (peers.map PeerConfig.addr).Nodup) (a : Arrival) :
    Attributed peers a (dispatchCall (cspToEndpoint peers) a.bundle) ↔
      ∀ p ∈ peers, a.conn.src = p.addr → a.conn.sport = p.port := by
  have hcall : ∀ p ∈ peers, a.conn.src = p.addr →
      ((dispatchCall (cspToEndpoint peers) a.bundle).peerNode = some p.nodeId ↔
        a.conn.sport = p.port) := by
    intro p hp ha
    rw [a.bundle_eq]
    show cspToEndpoint peers ⟨a.conn.src, a.conn.sport⟩ = _ ↔ _
    rw [ha, cspToEndpoint_eq hu hp]
    split
    · rename_i h
      exact iff_of_true rfl h
    · rename_i h
      exact iff_of_false nofun h
  exact forall₂_congr fun p hp => ⟨fun h ha => (hcall p hp ha).mp (h ha),
    fun h ha => (hcall p hp ha).mpr (h ha)⟩

/-- The results of the polls, with another item for each. -/
def scriptMap {α β : Type} (f : α → β) (script : Script α) : Script β := fun k =>
  match script k with
  | .failed => .failed
  | .stream polls => .stream fun i =>
    match polls i with
    | .item after item => .item after (item.map f)
    | .ended after => .ended after
    | .never => .never

theorem delivered_scriptMap {α β : Type} (f : α → β) (script : Script α) (feed : Feed) :
    feed.delivered (scriptMap f script) = (feed.delivered script).map f := by
  have hpoll : ∀ k i,
      ((scriptMap f script).poll k i).bundle? = (script.poll k i).bundle?.map f := by
    intro k i
    rw [Script.poll, Script.poll, scriptMap]
    cases script k with
    | failed => rfl
    | stream polls =>
      dsimp only
      cases polls i with
      | item after item => cases item <;> rfl
      | ended after => rfl
      | never => rfl
  rw [Feed.delivered, Feed.delivered, List.map_flatMap]
  refine List.flatMap_congr fun k _ => ?_
  rw [Script.bundles, Script.bundles, List.map_filterMap]
  exact congrArg (List.filterMap · _) (funext fun i => hpoll k i)

/-- For every peer list without repeated addresses and every run of the dispatcher: each bundle of
a configured peer is dispatched with the peer's node id iff each came from the port that is
configured for its peer. -/
theorem attributed_iff (hu : (peers.map PeerConfig.addr).Nodup) (arrivals : Script Arrival)
    (now n : Nat) :
    List.Forall₂ (Attributed peers)
        ((dispatcher peers (scriptMap Arrival.bundle arrivals) now n).transport.delivered arrivals)
        (dispatcher peers (scriptMap Arrival.bundle arrivals) now n).calls ↔
      ∀ a ∈ (dispatcher peers (scriptMap Arrival.bundle arrivals) now n).transport.delivered
          arrivals,
        ∀ p ∈ peers, a.conn.src = p.addr → a.conn.sport = p.port := by
  rw [calls_eq, delivered_scriptMap, List.map_map, List.forall₂_map_right_iff,
    List.forall₂_same]
  exact forall₂_congr fun a _ => attributed_call_iff hu a

/-- One bundle from address 2 and source port `sport`, and no other. -/
def oneArrival (sport : UInt8) : Arrival := ⟨⟨2, sport⟩, ⟨⟨2, sport⟩, 2, sport⟩, [1, 2, 3], rfl⟩

/-- A stream that returns one bundle and stays open. -/
def oneScript (sport : UInt8) : Script Arrival := fun _ =>
  .stream fun i => if i = 0 then .item 5 (.ok (oneArrival sport)) else .never

/-- A peer at address 2, port 10. -/
def onePeer : List (PeerConfig String) := [⟨"ipn:2.0", 2, 10⟩]

/-- If the bundle comes from port 10, it is attributed. -/
theorem configured_port_attributed : List.Forall₂ (Attributed onePeer)
    ((dispatcher onePeer (scriptMap Arrival.bundle (oneScript 10)) 0 1).transport.delivered
      (oneScript 10))
    (dispatcher onePeer (scriptMap Arrival.bundle (oneScript 10)) 0 1).calls := by
  refine (attributed_iff (by decide) (oneScript 10) 0 1).mpr ?_
  have hd : (dispatcher onePeer (scriptMap Arrival.bundle (oneScript 10)) 0 1).transport.delivered
      (oneScript 10) = [oneArrival 10] := rfl
  rw [hd]
  intro a ha p hp _
  rw [List.mem_singleton.mp ha, List.mem_singleton.mp hp]
  rfl

/-- From an ephemeral port, such as 48, it is dispatched without a node id. -/
theorem ephemeral_port_unattributed :
    (dispatcher onePeer (scriptMap Arrival.bundle (oneScript 48)) 0 1).calls =
        [⟨[1, 2, 3], none, some (.privateAddr [2, 48])⟩] ∧
      ¬ List.Forall₂ (Attributed onePeer)
        ((dispatcher onePeer (scriptMap Arrival.bundle (oneScript 48)) 0 1).transport.delivered
          (oneScript 48))
        (dispatcher onePeer (scriptMap Arrival.bundle (oneScript 48)) 0 1).calls := by
  have hc : (dispatcher onePeer (scriptMap Arrival.bundle (oneScript 48)) 0 1).calls =
      [⟨[1, 2, 3], none, some (.privateAddr [2, 48])⟩] := rfl
  have hd : (dispatcher onePeer (scriptMap Arrival.bundle (oneScript 48)) 0 1).transport.delivered
      (oneScript 48) = [oneArrival 48] := rfl
  refine ⟨hc, fun h => ?_⟩
  rw [hc, hd] at h
  cases h with
  | cons h _ => cases h _ List.mem_cons_self rfl

end Cspcl.Hardy
