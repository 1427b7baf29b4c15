import Cspcl.Unibo.Peers

/-!
# The transmit callback of the Unibo-BP daemon (`unibo-integration/src/cspcl_daemon.c`)

`onOutboundPdu` copies a PDU from its descriptor into a buffer, sends it to the peer that owns the
link, and tells Unibo-BP how it went.

* `reported_once`: every way through the callback makes one report, a success iff the bundle was
  sent.
* `sent_of_ready`: a PDU for the link of a peer that can be read whole is sent.
* `entry_kept`: a used entry of the peer table does not change, so the callback may read it without
  the lock.
-/

namespace Cspcl.Unibo

/-- `find_peer_by_link_id`. -/
def Peers.findPeerByLinkId (p : Peers) (link : LinkId) : Option (Fin maxLinks) :=
  Fin.find? fun i => (p i).used && (p i).linkId == link

/-- What the callback reads of `struct csp_cla_config`: the entry that it finds under the lock, and
reads again after it. -/
structure ClaConfig where
  peers : Peers
  cspPort : UInt8

/-- `ConstUniboBPCLAOutboundPDU`; `file` is what can be read from its descriptor. -/
structure OutboundPdu where
  transmissionId : UInt64
  file : List UInt8
  size : UInt64

/-- A call of the callback to cspcl, with its result, or to Unibo-BP. -/
inductive TxCall where
  | sendBundle (bundle : Bundle) (len : Nat) (addr port : UInt8) (r : CspclError)
  | transmissionSuccess (link : LinkId) (tx : UInt64)
  | transmissionFailure (link : LinkId) (tx : UInt64)
  deriving DecidableEq, Repr

/-- What the calls return. `read k` is what the `k`-th `read` is ready to return: an error, or a
number of bytes, of which it returns no more than it was asked for and the descriptor has. -/
structure OutboundEnv where
  malloc : Bool
  read : Nat → Int
  sendBundle : CspclError

/-- `on_outbound_pdu`: what it returns and the calls it makes, if its loop ends. -/
def onOutboundPdu (cfg : Option ClaConfig) (link : LinkId) (pdu : Option OutboundPdu)
    (env : OutboundEnv) : Option (Bool × List TxCall) :=
  match cfg, pdu with
  | some cfg, some pdu =>
    let failure := TxCall.transmissionFailure link pdu.transmissionId
    match cfg.peers.findPeerByLinkId link with
    | none => some (false, [failure])
    | some i =>
      let len := pdu.size.toNat
      if !env.malloc then some (false, [failure])
      else
        -- Each pass but the last reads a byte at least.
        match Pieces.fill env.read streamChunkSize (len + 1) 0 len pdu.file [] with
        | .unfinished => none
        | .failed => some (false, [failure])
        | .full buffer =>
          let send := TxCall.sendBundle buffer len (cfg.peers i).cspAddr cfg.cspPort env.sendBundle
          if env.sendBundle = .ok then
            some (true, [send, .transmissionSuccess link pdu.transmissionId])
          else some (false, [send, failure])
  | _, _ => some (false, [])

/-- The first used entry of a link. -/
structure Peers.Owns (p : Peers) (i : Fin maxLinks) (link : LinkId) : Prop where
  used : (p i).used = true
  linkId : (p i).linkId = link
  first : ∀ j < i, (p j).used = true → (p j).linkId ≠ link

/-- The call sends the PDU, whole, to the peer that owns the link. -/
def SendsPdu (cfg : ClaConfig) (link : LinkId) (pdu : OutboundPdu) (call : TxCall) : Prop :=
  pdu.size.toNat ≤ pdu.file.length ∧ ∃ i r, cfg.peers.Owns i link ∧
    call = .sendBundle (pdu.file.take pdu.size.toNat) pdu.size.toNat (cfg.peers i).cspAddr
      cfg.cspPort r

/-- One report, after one send or none, and it is a success iff the send was. -/
structure Resolved (cfg : ClaConfig) (link : LinkId) (pdu : OutboundPdu)
    (r : Bool × List TxCall) : Prop where
  once : ∃ sends, sends.length ≤ 1 ∧ (∀ call ∈ sends, SendsPdu cfg link pdu call) ∧
    (r.2 = sends ++ [.transmissionSuccess link pdu.transmissionId] ∨
      r.2 = sends ++ [.transmissionFailure link pdu.transmissionId])
  success : .transmissionSuccess link pdu.transmissionId ∈ r.2 ↔
    ∃ bundle len addr port, .sendBundle bundle len addr port .ok ∈ r.2
  returns : r.1 = true ↔ .transmissionSuccess link pdu.transmissionId ∈ r.2

variable {cfg : ClaConfig} {link : LinkId} {pdu : OutboundPdu} {env : OutboundEnv}
  {i : Fin maxLinks} {p : Peers}

theorem Peers.findPeerByLinkId_eq_some (h : p.findPeerByLinkId link = some i) : p.Owns i link := by
  obtain ⟨h, hfirst⟩ := Fin.find?_eq_some_iff.mp h
  simp only [Bool.and_eq_true, beq_iff_eq] at h
  refine ⟨h.1, h.2, fun j hj hu hl => ?_⟩
  have := hfirst j hj
  simp [hu, hl] at this

/-- Nothing was sent. -/
theorem resolved_failure :
    Resolved cfg link pdu (false, [.transmissionFailure link pdu.transmissionId]) where
  once := ⟨[], Nat.zero_le _, fun _ h => (nomatch h), .inr rfl⟩
  success := by simp
  returns := by simp

/-- With the buffer full, the send decides. -/
theorem resolved_sent (hi : cfg.peers.Owns i link) (hw : pdu.size.toNat ≤ pdu.file.length) :
    Resolved cfg link pdu
      (let send := TxCall.sendBundle (pdu.file.take pdu.size.toNat) pdu.size.toNat
          (cfg.peers i).cspAddr cfg.cspPort env.sendBundle
        if env.sendBundle = .ok then
          (true, [send, .transmissionSuccess link pdu.transmissionId])
        else (false, [send, .transmissionFailure link pdu.transmissionId])) := by
  have hsends : ∀ call ∈ [TxCall.sendBundle (pdu.file.take pdu.size.toNat) pdu.size.toNat
      (cfg.peers i).cspAddr cfg.cspPort env.sendBundle], SendsPdu cfg link pdu call := by
    intro call hc
    exact ⟨hw, i, _, hi, List.mem_singleton.mp hc⟩
  dsimp only
  split
  · rename_i hok
    refine ⟨⟨[_], Nat.le_refl 1, hsends, .inl rfl⟩, ?_, ?_⟩
    · simp [hok]
    · simp
  · rename_i hok
    refine ⟨⟨[_], Nat.le_refl 1, hsends, .inr rfl⟩, ?_, ?_⟩
    · simp [Ne.symm hok]
    · simp

/-- Every callback with a PDU ends with one report, and it is true. -/
theorem reported_once (cfg : ClaConfig) (link : LinkId) (pdu : OutboundPdu) (env : OutboundEnv) :
    ∃ r, onOutboundPdu (some cfg) link (some pdu) env = some r ∧ Resolved cfg link pdu r := by
  unfold onOutboundPdu
  dsimp only
  cases hi : cfg.peers.findPeerByLinkId link with
  | none => exact ⟨_, rfl, resolved_failure⟩
  | some i =>
    dsimp only
    cases env.malloc with
    | false => exact ⟨_, rfl, resolved_failure⟩
    | true =>
      cases hfill : Pieces.fill env.read streamChunkSize (pdu.size.toNat + 1) 0 pdu.size.toNat
          pdu.file [] with
      | unfinished => exact absurd hfill (Pieces.fill_ends (Nat.lt_succ_self _))
      | failed => exact ⟨_, rfl, resolved_failure⟩
      | full buffer =>
        obtain ⟨rfl, hw⟩ := Pieces.fill_full hfill
        exact ⟨_, (apply_ite some ..).symm, resolved_sent (Peers.findPeerByLinkId_eq_some hi) hw⟩

/-- If the link is that of a peer and the PDU can be read, it is sent. -/
theorem sent_of_ready (hi : cfg.peers.findPeerByLinkId link = some i) (hm : env.malloc = true)
    (hr : ∀ k, 0 < env.read k) (hw : pdu.size.toNat ≤ pdu.file.length) :
    ∃ r, onOutboundPdu (some cfg) link (some pdu) env = some r ∧
      .sendBundle (pdu.file.take pdu.size.toNat) pdu.size.toNat (cfg.peers i).cspAddr cfg.cspPort
        env.sendBundle ∈ r.2 := by
  unfold onOutboundPdu
  dsimp only
  rw [hi, Pieces.fill_done hr (by decide) hw (Nat.lt_succ_self _), hm]
  dsimp only
  cases env.sendBundle
  all_goals exact ⟨_, rfl, List.mem_cons_self⟩

/-! ## The entry after the lock -/

theorem Peers.newLink_of_ne {j : Fin maxLinks} {addr : UInt8} {env : EnsureEnv} (h : j ≠ i) :
    (p.newLink i addr env).1 j = p j := by
  unfold Peers.newLink
  split
  · rfl
  split
  · rfl
  dsimp only
  split
  · rfl
  split
  · rfl
  · exact Function.update_of_ne h ..

theorem Peers.ensureLinkForAddr_of_used {addr : UInt8} {env : EnsureEnv}
    (h : (p i).used = true) : (p.ensureLinkForAddr addr env).1 i = p i := by
  unfold Peers.ensureLinkForAddr
  cases p.findPeerByAddr addr with
  | some j => rfl
  | none =>
    cases hj : p.freeIdx with
    | none => rfl
    | some j =>
      refine Peers.newLink_of_ne ?_
      rintro rfl
      rw [Peers.not_used_of_freeIdx hj] at h
      cases h

/-- No step of the receive task or of a contact callback changes a used entry. -/
theorem entry_kept_step {w w' : Daemon} {op : DaemonOp} (hs : w.step op = some w')
    (h : (w.peers i).used = true) : w'.peers i = w.peers i := by
  cases op with
  | recv addr bundle =>
    simp only [Daemon.step] at hs
    split at hs
    · split at hs
      · cases hs
      · obtain rfl := Option.some.inj hs
        rfl
    · cases hs
  | look env =>
    simp only [Daemon.step] at hs
    split at hs
    · obtain rfl := Option.some.inj hs
      exact Peers.ensureLinkForAddr_of_used h
    · cases hs
  | hand env =>
    simp only [Daemon.step] at hs
    split at hs
    · obtain rfl := Option.some.inj hs
      rfl
    · cases hs
  | addContact uplink addr env openLink =>
    obtain rfl := Option.some.inj hs
    unfold Daemon.addContact
    split
    · rfl
    · exact Peers.ensureLinkForAddr_of_used h
  | removeContact addr closeLink =>
    obtain rfl := Option.some.inj hs
    rfl

theorem entry_kept {w w' : Daemon} {ops : List DaemonOp} (hr : daemonSys.Run w ops w')
    (h : (w.peers i).used = true) : w'.peers i = w.peers i := by
  induction hr with
  | nil => rfl
  | cons hs _ ih =>
    have he := entry_kept_step hs h
    rw [ih (he ▸ h), he]

end Cspcl.Unibo
