import Cspcl.Addr.Endpoint
import Cspcl.Lib.Numeral
import Cspcl.Unibo.Peers

/-!
# The CSP address of a neighbour (`unibo-integration/src/cspcl_daemon.c`)

`csp_addr_from_eid` takes the address from the node number of an `ipn` EID, and from the text of any
other EID with `cspcl_endpoint_to_addr`. The first is a cast to `uint8_t`, the second checks the
range.

* `endpointToAddr_ipnText`: what the text of an `ipn` EID would give.
* `eid_agrees_iff`: the two agree, and the contact callbacks act on the neighbour only, for node
  numbers up to 255 and for the multiples of 256, which both map to 0, if no peer has that address.
-/

namespace Cspcl.Unibo

open CString

/-- `ConstUniboBPEID`: an EID of the `ipn` scheme with its numbers, or one of another scheme with
the text that `unibo_bp_eid_to_string` writes, if it does. -/
inductive BpEid where
  | ipn (node service : UInt64)
  | other (text : Option CString)

/-- `csp_addr_from_eid`. -/
def cspAddrFromEid : Option BpEid → UInt8
  | none => 0
  | some (.ipn node _) => node.toUInt8
  | some (.other none) => 0
  | some (.other (some text)) => endpointToAddr text

/-- The text of an `ipn` EID. -/
def ipnText (node service : UInt64) : CString :=
  ofString "ipn:" ++ (decimal node.toNat ++ 46 :: decimal service.toNat)

namespace Daemon

/-- `on_add_contact`; no EID is like one without an address. -/
def onAddContact (w : Daemon) (neighbor : Option BpEid) (uplink : Bool) (env : EnsureEnv)
    (openLink : Bool) : Daemon :=
  w.addContact uplink (cspAddrFromEid neighbor) env openLink

/-- `on_remove_contact`. -/
def onRemoveContact (w : Daemon) (neighbor : Option BpEid) (closeLink : Bool) : Daemon :=
  w.removeContact (cspAddrFromEid neighbor) closeLink

end Daemon

/-- The link is that of a peer with the number `node`, or was created for that node. -/
def LinkOfNode (p : Peers) (new : List BpCall) (node : Nat) (link : LinkId) : Prop :=
  (∃ i, (p i).used = true ∧ (p i).cspAddr.toNat = node ∧ (p i).linkId = link) ∨
    ∃ addr eid, addr.toNat = node ∧ .eidCreate addr (some eid) ∈ new ∧
      .createLink eid (some link) ∈ new

/-- From `w` to `w'` no link is opened or closed but those of the node. -/
def ActsOnNode (w w' : Daemon) (node : Nat) : Prop :=
  ∃ new, w'.calls = w.calls ++ new ∧
    ∀ link ok, .openLink link ok ∈ new ∨ .closeLink link ok ∈ new →
      LinkOfNode w.peers new node link

/-- The mapping of an `ipn` EID is that of its text, and that of its number where this is an
address; and the contact callbacks act on the node that it names. -/
structure EidAgrees (w : Daemon) (node service : UInt64) : Prop where
  text : cspAddrFromEid (some (.ipn node service)) = endpointToAddr (ipnText node service)
  mapped : (cspAddrFromEid (some (.ipn node service))).toNat =
    if node.toNat ≤ 255 then node.toNat else 0
  added : ∀ uplink env openLink,
    ActsOnNode w (w.onAddContact (some (.ipn node service)) uplink env openLink) node.toNat
  removed : ∀ closeLink,
    ActsOnNode w (w.onRemoveContact (some (.ipn node service)) closeLink) node.toNat

/-! ## The text -/

theorem endpointToAddr_ipn (t : CString) :
    endpointToAddr (ofString "ipn:" ++ t) = ((scanInt t).bind toAddr).getD 0 := by
  have hipn : parseIpn (ofString "ipn:" ++ t) =
      ((scanInt t).bind toAddr).map fun addr => (addr, portBp) := rfl
  have hnode : parseNode (ofString "ipn:" ++ t) = none := rfl
  have hlabel : parseLabel (ofString "ipn:" ++ t) = none := rfl
  rw [endpointToAddr_eq, parseScheme, hipn, hnode, hlabel]
  cases (scanInt t).bind toAddr <;> rfl

variable {w : Daemon} {node service : UInt64}

theorem endpointToAddr_ipnText :
    endpointToAddr (ipnText node service) = (toAddr (toInt (clampLong node.toNat))).getD 0 := by
  rw [ipnText, endpointToAddr_ipn,
    scanInt_numeral_any (numeral_decimal node.toNat) (noDigit_cons (by decide))]
  rfl

/-- The node numbers that are addresses. -/
theorem endpointToAddr_ipnText_of_le (h : node.toNat ≤ 255) :
    endpointToAddr (ipnText node service) = node.toUInt8 := by
  rw [endpointToAddr_ipnText, clampLong_natCast (by omega), toInt_natCast (by omega),
    toAddr_natCast h]
  rfl

/-- A multiple of 256 gives no address: where the number that is read is in the range, it is 0. -/
theorem endpointToAddr_ipnText_of_mod (h : node.toNat % 256 = 0) :
    endpointToAddr (ipnText node service) = 0 := by
  have hlt := node.toNat_lt
  have hread : ∀ i : Int, i = toInt (clampLong node.toNat) → 0 ≤ i → i ≤ 255 → i = 0 := by
    intro i hi h0 h255
    unfold toInt clampLong at hi
    rw [Int.bmod_def] at hi
    split at hi <;> omega
  rw [endpointToAddr_ipnText, toAddr]
  split
  · rename_i hr
    rw [hread _ rfl hr.1 hr.2]
    rfl
  · rfl

theorem toNat_cspAddrFromEid :
    (cspAddrFromEid (some (.ipn node service))).toNat = node.toNat % 256 :=
  UInt64.toNat_toUInt8 node

/-! ## The contact callbacks -/

section

variable {p : Peers} {i : Fin maxLinks} {addr : UInt8} {env : EnsureEnv} {link : LinkId}
  {new new' : List BpCall} {node : Nat}

theorem LinkOfNode.mono (h : LinkOfNode p new node link) (hn : new ⊆ new') :
    LinkOfNode p new' node link := by
  rcases h with h | ⟨addr, eid, ha, he, hl⟩
  · exact .inl h
  · exact .inr ⟨addr, eid, ha, hn he, hn hl⟩

theorem linkOfNode_of_linkOf (h : p.linkOf addr = some link) :
    LinkOfNode p new addr.toNat link := by
  obtain ⟨i, hi, rfl⟩ := Option.map_eq_some_iff.mp h
  obtain ⟨hu, ha⟩ := Peers.findPeerByAddr_eq_some hi
  exact .inl ⟨i, hu, congrArg UInt8.toNat ha, rfl⟩

/-- A new peer gets a link that was created for it, and no other link is opened. -/
theorem newLink_links (p : Peers) (i : Fin maxLinks) (addr : UInt8) (env : EnsureEnv) :
    ((p.newLink i addr env).1 = p ∨ ∃ link eid,
      (p.newLink i addr env).1 = Function.update p i ⟨true, addr, link, some eid, true⟩ ∧
      LinkOfNode p (p.newLink i addr env).2.2 addr.toNat link) ∧
    ∀ link ok, .openLink link ok ∈ (p.newLink i addr env).2.2 ∨
        .closeLink link ok ∈ (p.newLink i addr env).2.2 →
      LinkOfNode p (p.newLink i addr env).2.2 addr.toNat link := by
  cases he : env.eidCreate with
  | none => simp [Peers.newLink, he]
  | some eid =>
    cases hl : env.createLink with
    | none => simp [Peers.newLink, he, hl]
    | some link =>
      -- Every link that is named is the one of these two calls.
      have hmade : ∀ new, .eidCreate addr (some eid) ∈ new → .createLink eid (some link) ∈ new →
          LinkOfNode p new addr.toNat link := fun new h h' => .inr ⟨addr, eid, rfl, h, h'⟩
      cases hp : env.setLinkParam with
      | false => simp [Peers.newLink, he, hl, hp]
      | true =>
        cases ho : env.openLink with
        | false =>
          simp only [Peers.newLink, he, hl, hp, ho]
          refine ⟨.inl rfl, fun l ok h => ?_⟩
          obtain ⟨rfl, -⟩ : l = link ∧ ok = false := by simpa using h
          exact hmade _ (by simp) (by simp)
        | true =>
          simp only [Peers.newLink, he, hl, hp, ho]
          refine ⟨.inr ⟨link, eid, rfl, hmade _ (by simp) (by simp)⟩, fun l ok h => ?_⟩
          obtain ⟨rfl, -⟩ : l = link ∧ ok = true := by simpa using h
          exact hmade _ (by simp) (by simp)

/-- After `ensure_link_for_addr` the link of the address is one that the node has, and it opens no
other. -/
theorem ensureLinkForAddr_links (p : Peers) (addr : UInt8) (env : EnsureEnv) :
    (∀ link, (p.ensureLinkForAddr addr env).1.linkOf addr = some link →
      LinkOfNode p (p.ensureLinkForAddr addr env).2.2 addr.toNat link) ∧
    ∀ link ok, .openLink link ok ∈ (p.ensureLinkForAddr addr env).2.2 ∨
        .closeLink link ok ∈ (p.ensureLinkForAddr addr env).2.2 →
      LinkOfNode p (p.ensureLinkForAddr addr env).2.2 addr.toNat link := by
  unfold Peers.ensureLinkForAddr
  cases hf : p.findPeerByAddr addr with
  | some i => exact ⟨fun link h => linkOfNode_of_linkOf h, by simp⟩
  | none =>
    cases hi : p.freeIdx with
    | none => exact ⟨fun link h => linkOfNode_of_linkOf h, by simp⟩
    | some i =>
      obtain ⟨hnew | ⟨made, eid, hnew, hmade⟩, hopen⟩ := newLink_links p i addr env
      · refine ⟨fun link h => linkOfNode_of_linkOf ?_, hopen⟩
        rwa [hnew] at h
      · refine ⟨fun link h => ?_, hopen⟩
        dsimp only at h ⊢
        rw [hnew, Peers.linkOf_update hf (Peers.not_used_of_freeIdx hi), if_pos rfl] at h
        obtain rfl := Option.some.inj h
        exact hmade

theorem ActsOnNode.refl {w : Daemon} : ActsOnNode w w node :=
  ⟨[], (List.append_nil _).symm, by simp⟩

theorem actsOnNode_addContact (w : Daemon) (uplink : Bool) (addr : UInt8) (env : EnsureEnv)
    (openLink : Bool) : ActsOnNode w (w.addContact uplink addr env openLink) addr.toNat := by
  unfold Daemon.addContact
  split
  · exact .refl
  · obtain ⟨hlink, hopen⟩ := ensureLinkForAddr_links w.peers addr env
    refine ⟨_, List.append_assoc .., fun link ok h => ?_⟩
    refine LinkOfNode.mono ?_
      (List.subset_append_left (w.peers.ensureLinkForAddr addr env).2.2 _)
    simp only [List.mem_append] at h
    rcases h with (h | h) | (h | h)
    · exact hopen link ok (.inl h)
    · refine hlink link ?_
      split at h
      · have h : (w.peers.ensureLinkForAddr addr env).1.linkOf addr = some link ∧
            openLink = ok := by
          simpa using h
        exact h.1
      · cases h
    · exact hopen link ok (.inr h)
    · split at h
      · simp at h
      · cases h

theorem actsOnNode_removeContact (w : Daemon) (addr : UInt8) (closeLink : Bool) :
    ActsOnNode w (w.removeContact addr closeLink) addr.toNat := by
  refine ⟨_, rfl, fun link ok h => linkOfNode_of_linkOf ?_⟩
  have h : w.peers.linkOf addr = some link ∧ closeLink = ok := by simpa using h
  exact h.1

end

/-! ## Agreement -/

/-- A node that is not an address has no peers. -/
theorem not_actsOnNode_close {link : LinkId} (h : 255 < node.toNat)
    (hl : w.peers.linkOf 0 = some link) : ¬ ActsOnNode w (w.removeContact 0 true) node.toNat := by
  rintro ⟨new, hnew, hact⟩
  have hcalls : (w.removeContact 0 true).calls = w.calls ++ [.closeLink link true] := by
    simp [Daemon.removeContact, hl]
  obtain rfl := List.append_cancel_left (hnew.symm.trans hcalls)
  rcases hact link true (.inr (List.mem_singleton_self _)) with
    ⟨i, -, hi, -⟩ | ⟨addr, eid, -, he, -⟩
  · have := (w.peers i).cspAddr.toNat_lt
    omega
  · simp at he

/-- The two mappings agree, and the callbacks act on the node named, iff the number is an address or
a multiple of 256 while no peer has the address 0. -/
theorem eid_agrees_iff (w : Daemon) (node service : UInt64) :
    EidAgrees w node service ↔
      node.toNat ≤ 255 ∨ (node.toNat % 256 = 0 ∧ w.peers.linkOf 0 = none) := by
  have haddr : (cspAddrFromEid (some (.ipn node service))).toNat = node.toNat % 256 :=
    toNat_cspAddrFromEid
  constructor
  · rintro ⟨-, hmapped, -, hremoved⟩
    by_cases h : node.toNat ≤ 255
    · exact .inl h
    · rw [if_neg h, haddr] at hmapped
      refine .inr ⟨hmapped, ?_⟩
      have h0 : cspAddrFromEid (some (.ipn node service)) = 0 :=
        UInt8.toNat_inj.mp (haddr.trans hmapped)
      cases hl : w.peers.linkOf 0 with
      | none => rfl
      | some link =>
        have hact := hremoved true
        rw [Daemon.onRemoveContact, h0] at hact
        exact absurd hact (not_actsOnNode_close (Nat.lt_of_not_le h) hl)
  · rintro (h | ⟨hmod, hl⟩)
    · have hnode : (cspAddrFromEid (some (.ipn node service))).toNat = node.toNat := by
        rw [haddr, Nat.mod_eq_of_lt (Nat.lt_succ_of_le h)]
      refine ⟨(endpointToAddr_ipnText_of_le h).symm, ?_, ?_, ?_⟩
      · rw [if_pos h, hnode]
      · intro uplink env openLink
        rw [← hnode]
        exact actsOnNode_addContact ..
      · intro closeLink
        rw [← hnode]
        exact actsOnNode_removeContact ..
    · have h0 : cspAddrFromEid (some (.ipn node service)) = 0 :=
        UInt8.toNat_inj.mp (haddr.trans hmod)
      refine ⟨h0.trans (endpointToAddr_ipnText_of_mod hmod).symm, ?_, ?_, ?_⟩
      · rw [haddr, hmod]
        split
        · omega
        · rfl
      · intro uplink env openLink
        rw [Daemon.onAddContact, h0, Daemon.addContact, if_pos (by simp)]
        exact .refl
      · intro closeLink
        rw [Daemon.onRemoveContact, h0]
        refine ⟨[], ?_, by simp⟩
        simp [Daemon.removeContact, hl]

/-- Node 257 is taken for node 1: a contact with it opens a link to node 1. -/
theorem node_257_taken_for_1 :
    daemonSys.Reach .new ∧ cspAddrFromEid (some (.ipn 257 0)) = 1 ∧
      endpointToAddr (ipnText 257 0) = 0 ∧
      (Daemon.new.onAddContact (some (.ipn 257 0)) true ⟨some 5, some 7, true, true, true⟩
        true).calls = [.eidCreate 1 (some 5), .createLink 5 (some 7), .setLinkParam 7 true,
          .startObservation 5 true, .openLink 7 true, .openLink 7 true] ∧
      ¬ EidAgrees .new 257 0 := by
  refine ⟨.init rfl, by decide, by decide, by decide, fun h => ?_⟩
  have := h.mapped
  exact absurd this (by decide)

end Cspcl.Unibo
