import Mathlib.Logic.Function.Basic
import Cspcl.Lib.Lts
import Cspcl.Lib.Pieces
import Cspcl.Pool.Basic

/-!
# The receive task and the peers of the Unibo-BP daemon (`unibo-integration/src/cspcl_daemon.c`)

The peer table (`Peers`), which receptions and contacts fill and only the shutdown empties, and
`csp_rx_task`, which hands each received bundle to Unibo-BP on the link of its source address.

* `ensureLinkForAddr`: one link for each CSP address, with every outcome of the Unibo-BP calls.
* `daemonSys`: the receive task, interleaved with `on_add_contact` and `on_remove_contact` at its
  lock section.
* `bundles_handed`: a bundle for whose address there is an entry or a free slot is handed once,
  whole, on the link of that address; one that finds the table full is dropped.
-/

namespace Cspcl.Unibo

/-- A handle of type `UniboBPEID`. -/
abbrev Eid := Nat

/-- A link id of Unibo-BP. -/
abbrev LinkId := UInt64

/-- `struct csp_peer`. -/
structure CspPeer where
  used : Bool
  cspAddr : UInt8
  linkId : LinkId
  eid : Option Eid
  linkOpen : Bool
  deriving DecidableEq, Repr

/-- `peers` of `struct csp_cla_config`. -/
abbrev Peers := Fin maxLinks → CspPeer

/-- A call to Unibo-BP and what it returned. The data of an inbound PDU are those of its file, from
the start on. -/
inductive BpCall where
  | eidCreate (addr : UInt8) (r : Option Eid)
  | eidDestroy (eid : Eid)
  | createLink (eid : Eid) (r : Option LinkId)
  | destroyLink (link : LinkId)
  | setLinkParam (link : LinkId) (ok : Bool)
  | startObservation (eid : Eid) (ok : Bool)
  | openLink (link : LinkId) (ok : Bool)
  | closeLink (link : LinkId) (ok : Bool)
  | openFile (ok : Bool)
  | inboundPdu (link : LinkId) (file : List UInt8) (len : Nat) (ok : Bool)
  deriving DecidableEq, Repr

/-- What the calls of `ensure_link_for_addr` return. -/
structure EnsureEnv where
  eidCreate : Option Eid
  createLink : Option LinkId
  setLinkParam : Bool
  startObservation : Bool
  openLink : Bool
  deriving Repr

namespace Peers

/-- The zeroed table. -/
def zero : Peers := fun _ => ⟨false, 0, 0, none, false⟩

/-- `find_peer_by_addr`. -/
def findPeerByAddr (p : Peers) (addr : UInt8) : Option (Fin maxLinks) :=
  Fin.find? fun i => (p i).used && (p i).cspAddr == addr

/-- The first unused slot. -/
def freeIdx (p : Peers) : Option (Fin maxLinks) := Fin.find? fun i => !(p i).used

/-- The part of `ensure_link_for_addr` that makes the link, for slot `i`. -/
def newLink (p : Peers) (i : Fin maxLinks) (addr : UInt8) (env : EnsureEnv) :
    Peers × Bool × List BpCall :=
  match env.eidCreate with
  | none => (p, false, [.eidCreate addr none])
  | some eid =>
    match env.createLink with
    | none => (p, false, [.eidCreate addr (some eid), .createLink eid none, .eidDestroy eid])
    | some link =>
      let made := [.eidCreate addr (some eid), .createLink eid (some link),
        .setLinkParam link env.setLinkParam]
      if !env.setLinkParam then (p, false, made ++ [.destroyLink link, .eidDestroy eid])
      else
        -- A failure to observe the neighbour is only logged.
        let made := made ++ [.startObservation eid env.startObservation,
          .openLink link env.openLink]
        if !env.openLink then (p, false, made ++ [.destroyLink link, .eidDestroy eid])
        else (Function.update p i ⟨true, addr, link, some eid, true⟩, true, made)

/-- `ensure_link_for_addr`; the flag is whether it returned 0. -/
def ensureLinkForAddr (p : Peers) (addr : UInt8) (env : EnsureEnv) : Peers × Bool × List BpCall :=
  match p.findPeerByAddr addr with
  | some _ => (p, true, [])
  | none =>
    match p.freeIdx with
    | none => (p, false, [])
    | some i => p.newLink i addr env

/-- The link of an address. -/
def linkOf (p : Peers) (addr : UInt8) : Option LinkId :=
  (p.findPeerByAddr addr).map fun i => (p i).linkId

/-- The address has an entry, or there is a slot for it. -/
def hasRoom (p : Peers) (addr : UInt8) : Bool := (p.findPeerByAddr addr).isSome || p.freeIdx.isSome

end Peers

/-- Where `csp_rx_task` is: in `cspcl_recv_bundle`, with a bundle, or with its link. -/
inductive RxTask where
  | receiving
  | received (addr : UInt8) (bundle : Bundle)
  | linked (link : LinkId) (bundle : Bundle)
  deriving DecidableEq, Repr

/-- With the link id that was found; 0 stands for none. -/
def RxTask.ofLink (link : LinkId) (bundle : Bundle) : RxTask :=
  if link = 0 then .receiving else .linked link bundle

/-- A bundle that has come to the lock section of `csp_rx_task`; `room`: `hasRoom` of its address
at that point. -/
structure Looked where
  addr : UInt8
  bundle : Bundle
  room : Bool
  deriving DecidableEq, Repr

/-- What the calls that hand over a bundle return; `write k n`: what the `k`-th `write` returns
when it is given `n` bytes. -/
structure HandEnv where
  openFile : Bool
  write : Nat → Nat → Int
  inboundPdu : Bool

/-- The daemon: its peers and receive task, the calls made so far, the bundles that
`cspcl_recv_bundle` returned, and those that came to the lock section. -/
structure Daemon where
  peers : Peers
  rx : RxTask
  calls : List BpCall
  received : List (UInt8 × Bundle)
  looked : List Looked

/-- A step of `csp_rx_task`, or a callback. `addr` of a callback is what `csp_addr_from_eid` made of
the neighbour. -/
inductive DaemonOp where
  | recv (addr : UInt8) (bundle : Bundle)
  | look (env : EnsureEnv)
  | hand (env : HandEnv)
  | addContact (uplink : Bool) (addr : UInt8) (env : EnsureEnv) (openLink : Bool)
  | removeContact (addr : UInt8) (closeLink : Bool)

namespace Daemon

/-- The daemon after `csp_cla_init`. -/
def new : Daemon := ⟨Peers.zero, .receiving, [], [], []⟩

/-- The lock section of `csp_rx_task`. -/
def look (w : Daemon) (addr : UInt8) (bundle : Bundle) (env : EnsureEnv) : Daemon :=
  let r := w.peers.ensureLinkForAddr addr env
  { w with
    peers := r.1
    rx := if r.2.1 then .ofLink ((r.1.linkOf addr).getD 0) bundle else .receiving
    calls := w.calls ++ r.2.2
    looked := w.looked ++ [⟨addr, bundle, w.peers.hasRoom addr⟩] }

/-- The calls that hand over a bundle: the file, the write loop, the PDU. -/
def handCalls (link : LinkId) (bundle : Bundle) (env : HandEnv) : List BpCall :=
  if !env.openFile then [.openFile false]
  else
    match Pieces.copy env.write streamChunkSize bundle.length 0 bundle [] with
    | ([], file) => [.openFile true, .inboundPdu link file bundle.length env.inboundPdu]
    | _ => [.openFile true]

/-- `on_add_contact`. -/
def addContact (w : Daemon) (uplink : Bool) (addr : UInt8) (env : EnsureEnv) (openLink : Bool) :
    Daemon :=
  if !uplink || addr = 0 then w
  else
    let r := w.peers.ensureLinkForAddr addr env
    let opened := if r.2.1 then (r.1.linkOf addr).toList.map (.openLink · openLink) else []
    { w with peers := r.1, calls := w.calls ++ r.2.2 ++ opened }

/-- `on_remove_contact`: the peer keeps its slot. -/
def removeContact (w : Daemon) (addr : UInt8) (closeLink : Bool) : Daemon :=
  { w with calls := w.calls ++ (w.peers.linkOf addr).toList.map (.closeLink · closeLink) }

def step (w : Daemon) : DaemonOp → Option Daemon
  | .recv addr bundle =>
    match w.rx with
    | .receiving =>
      if bundle = [] ∨ rxBufferSize < bundle.length then none
      else some { w with
        rx := .received addr bundle
        received := w.received ++ [(addr, bundle)] }
    | _ => none
  | .look env =>
    match w.rx with
    | .received addr bundle => some (w.look addr bundle env)
    | _ => none
  | .hand env =>
    match w.rx with
    | .linked link bundle =>
      some { w with rx := .receiving, calls := w.calls ++ handCalls link bundle env }
    | _ => none
  | .addContact uplink addr env openLink => some (w.addContact uplink addr env openLink)
  | .removeContact addr closeLink => some (w.removeContact addr closeLink)

end Daemon

/-- Any interleaving of the receive task and the callbacks. -/
def daemonSys : Lts Daemon DaemonOp where
  init w := w = .new
  step := Daemon.step

/-- Every call of `ensure_link_for_addr` succeeds, with a link id that is not zero. -/
def EnsureEnv.Ok (env : EnsureEnv) : Prop :=
  env.eidCreate.isSome = true ∧ (∃ link, env.createLink = some link ∧ link ≠ 0) ∧
    env.setLinkParam = true ∧ env.startObservation = true ∧ env.openLink = true

/-- Every call of the operation succeeds, and each `write` writes at least one byte. -/
def DaemonOp.Ok : DaemonOp → Prop
  | .recv _ _ => True
  | .look env => env.Ok
  | .hand env => env.openFile = true ∧ (∀ k n, 0 < n → 1 ≤ env.write k n ∧ env.write k n ≤ n) ∧
    env.inboundPdu = true
  | .addContact _ _ env openLink => env.Ok ∧ openLink = true
  | .removeContact _ closeLink => closeLink = true

/-! ## The peer table -/

namespace Peers

variable {p : Peers} {addr a : UInt8} {env : EnsureEnv} {i : Fin maxLinks} {link : LinkId}

theorem findPeerByAddr_eq_some (h : p.findPeerByAddr addr = some i) :
    (p i).used = true ∧ (p i).cspAddr = addr := by
  simpa using Fin.eq_true_of_find?_eq_some h

theorem not_used_of_freeIdx (h : p.freeIdx = some i) : (p i).used = false := by
  simpa using Fin.eq_true_of_find?_eq_some h

/-- A new entry for one address changes nothing for the others. -/
theorem findPeerByAddr_update (hi : (p i).used = false) {e : CspPeer} (he : e.cspAddr ≠ a) :
    findPeerByAddr (Function.update p i e) a = p.findPeerByAddr a := by
  unfold findPeerByAddr
  congr 1
  funext j
  by_cases hj : j = i
  · subst hj
    simp [hi, he]
  · rw [Function.update_of_ne hj]

theorem findPeerByAddr_update_self (hno : p.findPeerByAddr addr = none) {e : CspPeer}
    (hu : e.used = true) (he : e.cspAddr = addr) :
    findPeerByAddr (Function.update p i e) addr = some i := by
  refine Fin.find?_eq_some_iff.mpr ⟨by simp [hu, he], fun j hj => ?_⟩
  rw [Function.update_of_ne (ne_of_lt hj)]
  exact Fin.eq_false_of_find?_eq_none hno j

theorem linkOf_update (hno : p.findPeerByAddr addr = none) (hi : (p i).used = false)
    {eid : Option Eid} {o : Bool} (a : UInt8) :
    linkOf (Function.update p i ⟨true, addr, link, eid, o⟩) a =
      if a = addr then some link else p.linkOf a := by
  by_cases ha : a = addr
  · subst ha
    rw [if_pos rfl, linkOf, findPeerByAddr_update_self hno rfl rfl, Option.map_some,
      Function.update_self]
  · rw [if_neg ha, linkOf, findPeerByAddr_update hi (Ne.symm ha), linkOf]
    refine Option.map_congr fun j hj => ?_
    have hne : j ≠ i := by
      rintro rfl
      simp [(findPeerByAddr_eq_some hj).1] at hi
    rw [Function.update_of_ne hne]

theorem newLink_ok (p : Peers) (i : Fin maxLinks) (addr : UInt8) (h : env.Ok) :
    ∃ link eid, link ≠ 0 ∧
    (p.newLink i addr env).1 = Function.update p i ⟨true, addr, link, some eid, true⟩ ∧
    (p.newLink i addr env).2.1 = true := by
  obtain ⟨he, ⟨link, hl, hne⟩, hp, -, ho⟩ := h
  obtain ⟨eid, he⟩ := Option.isSome_iff_exists.mp he
  refine ⟨link, eid, hne, ?_⟩
  simp only [newLink, he, hl, hp, ho, Bool.not_true, Bool.false_eq_true, if_false, and_self]

/-- How `ensure_link_for_addr` ends when its calls succeed. -/
theorem ensureLinkForAddr_cases (p : Peers) (addr : UInt8) (h : env.Ok) :
    ((p.findPeerByAddr addr).isSome = true ∧ (p.ensureLinkForAddr addr env).1 = p ∧
      (p.ensureLinkForAddr addr env).2.1 = true) ∨
    (p.hasRoom addr = false ∧ (p.ensureLinkForAddr addr env).1 = p ∧
      (p.ensureLinkForAddr addr env).2.1 = false) ∨
    ∃ i link eid, p.findPeerByAddr addr = none ∧ p.freeIdx = some i ∧ link ≠ 0 ∧
      (p.ensureLinkForAddr addr env).1 = Function.update p i ⟨true, addr, link, some eid, true⟩ ∧
      (p.ensureLinkForAddr addr env).2.1 = true := by
  unfold ensureLinkForAddr
  cases hf : p.findPeerByAddr addr with
  | some j => exact .inl ⟨rfl, rfl, rfl⟩
  | none =>
    cases hi : p.freeIdx with
    | none => exact .inr (.inl ⟨by rw [hasRoom, hf, hi]; rfl, rfl, rfl⟩)
    | some i =>
      obtain ⟨link, eid, hne, hp, hok⟩ := newLink_ok p i addr h
      exact .inr (.inr ⟨i, link, eid, rfl, rfl, hne, hp, hok⟩)

/-- The used entries have links. -/
def Linked (p : Peers) : Prop := ∀ i, (p i).used = true → (p i).linkId ≠ 0

theorem linkOf_ne_zero (hp : p.Linked) (h : p.linkOf addr = some link) : link ≠ 0 := by
  obtain ⟨i, hi, rfl⟩ := Option.map_eq_some_iff.mp h
  exact hp i (findPeerByAddr_eq_some hi).1

/-- What `ensure_link_for_addr` does to the links: it gives one to the address if there is room, and
keeps those that there are. -/
theorem ensureLinkForAddr_spec (hp : p.Linked) (h : env.Ok) (addr : UInt8) :
    (p.ensureLinkForAddr addr env).2.1 = p.hasRoom addr ∧
    (p.ensureLinkForAddr addr env).1.Linked ∧
    (∀ a link, p.linkOf a = some link → (p.ensureLinkForAddr addr env).1.linkOf a = some link) ∧
    (p.hasRoom addr = true → ∃ link, (p.ensureLinkForAddr addr env).1.linkOf addr = some link) := by
  rcases ensureLinkForAddr_cases p addr h with
    ⟨hf, he, hok⟩ | ⟨hr, he, hok⟩ | ⟨i, link, eid, hno, hi, hne, he, hok⟩
  all_goals rw [he, hok]
  · refine ⟨by simp [hasRoom, hf], hp, fun _ _ => id, fun _ => ?_⟩
    obtain ⟨j, hj⟩ := Option.isSome_iff_exists.mp hf
    exact ⟨_, by rw [linkOf, hj]; rfl⟩
  · exact ⟨hr.symm, hp, fun _ _ => id, fun hroom => by simp [hr] at hroom⟩
  · have hu := not_used_of_freeIdx hi
    refine ⟨by simp [hasRoom, hi], fun j hj => ?_, fun a l ha => ?_, fun _ => ⟨link, ?_⟩⟩
    · by_cases hji : j = i
      · subst hji
        rwa [Function.update_self]
      · rw [Function.update_of_ne hji] at hj ⊢
        exact hp j hj
    · rw [linkOf_update hno hu]
      have hne : a ≠ addr := by
        rintro rfl
        rw [linkOf, hno] at ha
        cases ha
      rwa [if_neg hne]
    · rw [linkOf_update hno hu, if_pos rfl]

end Peers

/-! ## Handing over -/

/-- A call of `unibo_bp_cla_inbound_pdu`: the link, the data and the length. -/
def BpCall.pdu : BpCall → Option (LinkId × List UInt8 × Nat)
  | .inboundPdu link file len _ => some (link, file, len)
  | _ => none

namespace Peers

variable {p : Peers} {addr : UInt8} {env : EnsureEnv} {i : Fin maxLinks}

theorem newLink_calls : (p.newLink i addr env).2.2.filterMap BpCall.pdu = [] := by
  unfold newLink
  split
  · rfl
  split
  · rfl
  dsimp only
  split
  · rfl
  split
  · rfl
  · rfl

/-- No bundle is handed over while a link is made. -/
theorem ensureLinkForAddr_calls :
    (p.ensureLinkForAddr addr env).2.2.filterMap BpCall.pdu = [] := by
  unfold ensureLinkForAddr
  split
  · rfl
  split
  · rfl
  · exact newLink_calls

end Peers

namespace RxTask

/-- The bundle that waits for the lock section. -/
def waiting : RxTask → List (UInt8 × Bundle)
  | .received addr bundle => [(addr, bundle)]
  | _ => []

/-- The bundle that is being handed over. -/
def inHand : RxTask → List (LinkId × List UInt8 × Nat)
  | .linked link bundle => [(link, bundle, bundle.length)]
  | _ => []

@[simp] theorem waiting_receiving : waiting .receiving = [] := rfl
@[simp] theorem waiting_received {addr : UInt8} {bundle : Bundle} :
    waiting (.received addr bundle) = [(addr, bundle)] := rfl
@[simp] theorem waiting_linked {link : LinkId} {bundle : Bundle} :
    waiting (.linked link bundle) = [] := rfl
@[simp] theorem inHand_receiving : inHand .receiving = [] := rfl
@[simp] theorem inHand_received {addr : UInt8} {bundle : Bundle} :
    inHand (.received addr bundle) = [] := rfl
@[simp] theorem inHand_linked {link : LinkId} {bundle : Bundle} :
    inHand (.linked link bundle) = [(link, bundle, bundle.length)] := rfl

end RxTask

namespace Daemon

variable {w w' : Daemon} {op : DaemonOp} {ops : List DaemonOp} {l : List Looked}

/-- The PDUs handed to Unibo-BP, in order. -/
def pdus (w : Daemon) : List (LinkId × List UInt8 × Nat) := w.calls.filterMap BpCall.pdu

/-- The PDU that a bundle makes: on the link of its source address, with all its bytes and its
length. -/
def pduOf (w : Daemon) (l : Looked) : Option LinkId × List UInt8 × Nat :=
  (w.peers.linkOf l.addr, l.bundle, l.bundle.length)

/-- Each received bundle has come to the lock section once or is about to, and those of the list
`l`, and no others, have been handed over or are about to be: each once, in order. -/
def Handed (w : Daemon) (l : List Looked) : Prop :=
  w.received = w.looked.map (fun k => (k.addr, k.bundle)) ++ w.rx.waiting ∧
    (w.pdus ++ w.rx.inHand).map (fun d => (some d.1, d.2)) = l.map w.pduOf

/-- The bundles for which there was room. -/
def roomy (w : Daemon) : List Looked := w.looked.filter Looked.room

/-- What holds after a run whose calls succeed. -/
structure Inv (w : Daemon) : Prop where
  linked : w.peers.Linked
  handed : w.Handed w.roomy

/-- Links that stay the same make the same PDUs. -/
theorem map_pduOf (h : ∀ k ∈ l, ∃ d : LinkId × List UInt8 × Nat, w.pduOf k = (some d.1, d.2))
    (hp : ∀ a link, w.peers.linkOf a = some link → w'.peers.linkOf a = some link) :
    l.map w'.pduOf = l.map w.pduOf := by
  refine List.map_congr_left fun k hk => ?_
  obtain ⟨d, hd⟩ := h k hk
  have hl : w.peers.linkOf k.addr = some d.1 := congrArg Prod.fst hd
  rw [pduOf, pduOf, hp _ _ hl, hl]

theorem Inv.pduOf_some (h : w.Inv) {k : Looked} (hk : k ∈ w.roomy) :
    ∃ d : LinkId × List UInt8 × Nat, w.pduOf k = (some d.1, d.2) := by
  have hm : w.pduOf k ∈ w.roomy.map w.pduOf := List.mem_map_of_mem hk
  rw [← h.handed.2] at hm
  obtain ⟨d, -, hd⟩ := List.mem_map.mp hm
  exact ⟨d, hd.symm⟩

/-- A step that keeps the bundles and the links, and hands nothing over. -/
theorem Inv.frame (h : w.Inv) (hlinked : w'.peers.Linked)
    (hp : ∀ a link, w.peers.linkOf a = some link → w'.peers.linkOf a = some link)
    (hrx : w'.rx = w.rx) (hrec : w'.received = w.received) (hlook : w'.looked = w.looked)
    {calls : List BpCall} (hc : w'.calls = w.calls ++ calls)
    (hno : calls.filterMap BpCall.pdu = []) : w'.Inv := by
  have hpdus : w'.pdus = w.pdus := by
    rw [pdus, hc, List.filterMap_append, hno, List.append_nil, pdus]
  have hroomy : w'.roomy = w.roomy := by rw [roomy, hlook, roomy]
  refine ⟨hlinked, ?_, ?_⟩
  · rw [hrec, hlook, hrx]
    exact h.handed.1
  · rw [hpdus, hrx, hroomy, map_pduOf (fun k => h.pduOf_some) hp]
    exact h.handed.2

theorem Inv.recv (h : w.Inv) (hrx : w.rx = .receiving) {addr : UInt8} {bundle : Bundle} :
    Inv { w with rx := .received addr bundle, received := w.received ++ [(addr, bundle)] } := by
  obtain ⟨h₁, h₂⟩ := h.handed
  rw [hrx] at h₁ h₂
  refine ⟨h.linked, ?_, h₂⟩
  rw [show w.received = _ from h₁]
  simp

theorem pdus_look {addr : UInt8} {bundle : Bundle} {env : EnsureEnv} :
    (w.look addr bundle env).pdus = w.pdus := by
  rw [pdus, show (w.look addr bundle env).calls =
    w.calls ++ (w.peers.ensureLinkForAddr addr env).2.2 from rfl, List.filterMap_append,
    Peers.ensureLinkForAddr_calls, List.append_nil, pdus]

theorem roomy_look {addr : UInt8} {bundle : Bundle} {env : EnsureEnv} :
    (w.look addr bundle env).roomy =
      w.roomy ++ if w.peers.hasRoom addr then [⟨addr, bundle, true⟩] else [] := by
  rw [roomy, show (w.look addr bundle env).looked =
    w.looked ++ [⟨addr, bundle, w.peers.hasRoom addr⟩] from rfl, List.filter_append, roomy]
  cases w.peers.hasRoom addr <;> rfl

theorem rx_look {addr : UInt8} {bundle : Bundle} {env : EnsureEnv} :
    (w.look addr bundle env).rx =
      if (w.peers.ensureLinkForAddr addr env).2.1 then
        .ofLink (((w.peers.ensureLinkForAddr addr env).1.linkOf addr).getD 0) bundle
      else .receiving := by
  unfold look
  rfl

theorem Inv.look (h : w.Inv) {addr : UInt8} {bundle : Bundle} {env : EnsureEnv}
    (hrx : w.rx = .received addr bundle) (hok : env.Ok) : (w.look addr bundle env).Inv := by
  obtain ⟨hr, hlinked, hkeep, hnew⟩ := Peers.ensureLinkForAddr_spec h.linked hok addr
  obtain ⟨h₁, h₂⟩ := h.handed
  have hmap : w.roomy.map (w.look addr bundle env).pduOf = w.roomy.map w.pduOf :=
    map_pduOf (fun k => h.pduOf_some) hkeep
  rw [hrx] at h₁ h₂
  rw [RxTask.inHand_received, List.append_nil] at h₂
  have hrec : (w.look addr bundle env).received =
      (w.look addr bundle env).looked.map fun k => (k.addr, k.bundle) := by
    rw [show (w.look addr bundle env).looked =
      w.looked ++ [⟨addr, bundle, w.peers.hasRoom addr⟩] from rfl, List.map_append]
    exact h₁
  cases hroom : w.peers.hasRoom addr with
  | true =>
    obtain ⟨link, hl⟩ := hnew hroom
    have htask : (w.look addr bundle env).rx = .linked link bundle := by
      rw [rx_look, hr, hroom, if_pos rfl, hl, Option.getD_some, RxTask.ofLink,
        if_neg (Peers.linkOf_ne_zero hlinked hl)]
    refine ⟨hlinked, ?_, ?_⟩
    · rw [htask, hrec, RxTask.waiting_linked, List.append_nil]
    · rw [htask, pdus_look, roomy_look, hroom, if_pos rfl, List.map_append, List.map_append, hmap,
        h₂]
      exact congrArg (_ ++ [·]) (Prod.ext hl.symm rfl)
  | false =>
    have htask : (w.look addr bundle env).rx = .receiving := by
      rw [rx_look, hr, hroom, if_neg Bool.false_ne_true]
    refine ⟨hlinked, ?_, ?_⟩
    · rw [htask, hrec, RxTask.waiting_receiving, List.append_nil]
    · rw [htask, pdus_look, roomy_look, hroom, RxTask.inHand_receiving, List.append_nil, h₂]
      simp [hmap]

/-- All bytes of the bundle are written, however `write` splits them. -/
theorem handCalls_ok {link : LinkId} {bundle : Bundle} {env : HandEnv}
    (hf : env.openFile = true) (hw : ∀ k n, 0 < n → 1 ≤ env.write k n ∧ env.write k n ≤ n) :
    handCalls link bundle env =
      [.openFile true, .inboundPdu link bundle bundle.length env.inboundPdu] := by
  have hcopy : Pieces.copy env.write streamChunkSize bundle.length 0 bundle [] = ([], bundle) :=
    Pieces.copy_done (fun k n hn => (hw k n hn).1) (by decide) (Nat.le_refl _)
  simp only [handCalls, hf, hcopy, Bool.not_true, Bool.false_eq_true, if_false]

theorem Inv.hand (h : w.Inv) {link : LinkId} {bundle : Bundle} {env : HandEnv}
    (hrx : w.rx = .linked link bundle) (hok : (DaemonOp.hand env).Ok) :
    Inv { w with rx := .receiving, calls := w.calls ++ handCalls link bundle env } := by
  obtain ⟨h₁, h₂⟩ := h.handed
  rw [hrx] at h₁ h₂
  refine ⟨h.linked, h₁, ?_⟩
  have hpdus : pdus { w with rx := .receiving, calls := w.calls ++ handCalls link bundle env } =
      w.pdus ++ [(link, bundle, bundle.length)] := by
    rw [pdus, handCalls_ok hok.1 hok.2.1, List.filterMap_append]
    rfl
  rw [hpdus, RxTask.inHand_receiving, List.append_nil]
  exact h₂

theorem Inv.addContact (h : w.Inv) {uplink openLink : Bool} {addr : UInt8} {env : EnsureEnv}
    (hok : env.Ok) : (w.addContact uplink addr env openLink).Inv := by
  unfold Daemon.addContact
  split
  · exact h
  obtain ⟨-, hlinked, hkeep, -⟩ := Peers.ensureLinkForAddr_spec h.linked hok addr
  refine h.frame hlinked hkeep rfl rfl rfl (List.append_assoc _ _ _) ?_
  rw [List.filterMap_append, Peers.ensureLinkForAddr_calls]
  split
  · cases Peers.linkOf _ addr <;> rfl
  · rfl

theorem Inv.step (h : w.Inv) (hok : op.Ok) (hs : w.step op = some w') : w'.Inv := by
  cases op with
  | recv addr bundle =>
    simp only [Daemon.step] at hs
    split at hs
    · rename_i hrx
      split at hs
      · cases hs
      · obtain rfl := Option.some.inj hs
        exact h.recv hrx
    · cases hs
  | look env =>
    simp only [Daemon.step] at hs
    split at hs
    · rename_i addr bundle hrx
      obtain rfl := Option.some.inj hs
      exact h.look hrx hok
    · cases hs
  | hand env =>
    simp only [Daemon.step] at hs
    split at hs
    · rename_i link bundle hrx
      obtain rfl := Option.some.inj hs
      exact h.hand hrx hok
    · cases hs
  | addContact uplink addr env openLink =>
    obtain rfl := Option.some.inj hs
    exact h.addContact hok.1
  | removeContact addr closeLink =>
    obtain rfl := Option.some.inj hs
    refine h.frame h.linked (fun _ _ => id) rfl rfl rfl rfl ?_
    cases w.peers.linkOf addr <;> rfl

theorem Inv.new : Daemon.new.Inv := ⟨fun _ hi => absurd hi Bool.false_ne_true, rfl, rfl⟩

theorem Inv.run (h : w.Inv) (hr : daemonSys.Run w ops w') (hok : ∀ op ∈ ops, op.Ok) : w'.Inv := by
  induction hr with
  | nil => exact h
  | cons hs _ ih =>
    exact ih (h.step (hok _ List.mem_cons_self) hs) fun op hop =>
      hok op (List.mem_cons_of_mem _ hop)

end Daemon

/-- After any run whose calls succeed, the bundles that found an entry of their address or a free
slot have been handed to Unibo-BP (the last one may be on its way): each once, in order, on the link
of its source address, with all its bytes and its length. The others have not. -/
theorem bundles_handed {w : Daemon} {ops : List DaemonOp} (hr : daemonSys.Run .new ops w)
    (hok : ∀ op ∈ ops, op.Ok) : w.Handed w.roomy :=
  (Daemon.Inv.new.run hr hok).handed

/-- Calls that succeed, with link id `link`. -/
def goodEnsure (link : LinkId) : EnsureEnv := ⟨some 1, some link, true, true, true⟩

theorem goodEnsure_ok {link : LinkId} (h : link ≠ 0) : (goodEnsure link).Ok :=
  ⟨rfl, ⟨link, rfl, h⟩, rfl, rfl, rfl⟩

/-- Calls that succeed; each `write` takes at most `k` bytes. -/
def goodHand (k : Nat) : HandEnv := ⟨true, fun _ n => (min (k + 1) n : Nat), true⟩

theorem goodHand_ok (k : Nat) : (DaemonOp.hand (goodHand k)).Ok := by
  refine ⟨rfl, fun _ n hn => ?_, rfl⟩
  simp only [goodHand]
  omega

/-- A bundle from node 5 while a contact with node 6 comes and goes, then one from node 6. -/
def contactRun : List DaemonOp :=
  [.recv 5 [1, 2, 3], .addContact true 6 (goodEnsure 9) true, .look (goodEnsure 10),
    .removeContact 6 true, .hand (goodHand 1), .recv 6 [4], .look (goodEnsure 11)]

theorem bundles_handed_contact :
    ∃ w, daemonSys.exec .new contactRun = some w ∧ w.pdus = [(10, [1, 2, 3], 3)] ∧
      w.rx = .linked 9 [4] ∧ w.Handed w.roomy := by
  obtain ⟨w, hw⟩ : ∃ w, daemonSys.exec .new contactRun = some w := ⟨_, rfl⟩
  have hf : (daemonSys.exec .new contactRun).map (fun w => (w.pdus, w.rx)) =
      some ([(10, [1, 2, 3], 3)], .linked 9 [4]) := by decide
  simp only [hw, Option.map_some, Option.some.injEq, Prod.mk.injEq] at hf
  refine ⟨w, hw, hf.1, hf.2, bundles_handed (Lts.run_iff_exec.mpr hw) fun op hop => ?_⟩
  simp only [contactRun, List.mem_cons, List.not_mem_nil, or_false] at hop
  rcases hop with rfl | rfl | rfl | rfl | rfl | rfl | rfl
  · trivial
  · exact ⟨goodEnsure_ok (by decide), rfl⟩
  · exact goodEnsure_ok (by decide)
  · rfl
  · exact goodHand_ok 1
  · trivial
  · exact goodEnsure_ok (by decide)

/-- One bundle from each of the nodes 1 to 17. -/
def fullRun : List DaemonOp :=
  ((List.range 16).flatMap fun n => [.recv (UInt8.ofNat (n + 1)) [7],
    .look (goodEnsure (UInt64.ofNat (n + 1))), .hand (goodHand 7)]) ++
  [.recv 17 [7], .look (goodEnsure 17)]

/-- The table is full when the bundle from node 17 arrives: it is never handed over. -/
theorem full_table_drops :
    ∃ w, daemonSys.exec .new fullRun = some w ∧ (∀ op ∈ fullRun, op.Ok) ∧
      ¬ w.Handed w.looked := by
  obtain ⟨w, hw⟩ : ∃ w, daemonSys.exec .new fullRun = some w := ⟨_, rfl⟩
  have hf : (daemonSys.exec .new fullRun).map
      (fun w => (w.pdus.length, w.rx.inHand.length, w.looked.length)) = some (16, 0, 17) := by
    decide
  simp only [hw, Option.map_some, Option.some.injEq, Prod.mk.injEq] at hf
  refine ⟨w, hw, fun op hop => ?_, fun hh => ?_⟩
  · have hlink : ∀ n < 16, UInt64.ofNat (n + 1) ≠ 0 := by decide
    rcases List.mem_append.mp hop with hop | hop
    · obtain ⟨n, hn, hop⟩ := List.mem_flatMap.mp hop
      simp only [List.mem_cons, List.not_mem_nil, or_false] at hop
      rcases hop with rfl | rfl | rfl
      · trivial
      · exact goodEnsure_ok (hlink n (List.mem_range.mp hn))
      · exact goodHand_ok 7
    · simp only [List.mem_cons, List.not_mem_nil, or_false] at hop
      rcases hop with rfl | rfl
      · trivial
      · exact goodEnsure_ok (by decide)
  · have := congrArg List.length hh.2
    simp only [List.length_map, List.length_append] at this
    omega

end Cspcl.Unibo
