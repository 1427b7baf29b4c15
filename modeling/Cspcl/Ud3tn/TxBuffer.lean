import Cspcl.Lib.Buffer
import Cspcl.Lib.Lts
import Cspcl.Pool.Basic

/-!
# The transmit buffer of a uD3TN link (`ud3tn-integration/src/cla_csp.c`)

uD3TN gives a bundle to its link in pieces: `csp_cla_begin_packet` with the length, then
`csp_cla_send_packet_data` for each piece, then `csp_cla_end_packet`, which sends what came.

* `LinkTx`: the transmit side of `struct csp_link`, with the bound on what it holds.
* `packet_sendData`: pieces that fit are accepted, and follow one another in the buffer.
* `txSys`: any sequence of packets on a link, some of them given up before the end.
* `sent_whole_iff`: a packet is refused at the start or handed whole to `cspcl_send_bundle`, which
  does not find it too large, unless it is larger than `CSPCL_MAX_BUNDLE_SIZE` and fits the buffer.
-/

namespace Cspcl.Ud3tn

/-- The transmit side of `struct csp_link`. -/
structure LinkTx where
  destAddr : UInt8
  destPort : UInt8
  txBuffer : Buffer UInt8
  txBufferLen : Nat
  len_le : txBufferLen ≤ txBufferSize

/-- A call of `csp_cla_end_packet`: the pool, which other links use too, and what the calls of
`cspcl_send_bundle` return. -/
structure EndEnv where
  pool : ConnPool
  lock : Bool
  first : SendEnv
  retry : SendEnv

/-- What `csp_cla_end_packet` did: its result, the bundle that it handed to `cspcl_send_bundle` with
what that returned, and whether it called the disconnect handler. -/
structure Ended where
  ok : Bool
  sent : Option (Bundle × CspclError)
  disconnected : Bool

namespace LinkTx

/-- As `csp_link_init` makes it. -/
def init (destAddr destPort : UInt8) (data : Buffer UInt8) : LinkTx :=
  ⟨destAddr, destPort, data, 0, Nat.zero_le _⟩

/-- `tx_buffer_len = 0`. -/
def reset (l : LinkTx) : LinkTx := { l with txBufferLen := 0, len_le := Nat.zero_le _ }

/-- `csp_cla_begin_packet`; the flag is `CLA_BEGIN_PACKET_OK`. -/
def beginPacket (l : LinkTx) (length : Nat) : LinkTx × Bool :=
  (l.reset, !decide (length > txBufferSize))

/-- `csp_cla_send_packet_data`, with the sum of a `size_t`; the flag is `UD3TN_OK`. -/
def sendPacketData (l : LinkTx) (data : List UInt8) : LinkTx × Bool :=
  if h : (l.txBufferLen + data.length) % 2 ^ 64 > txBufferSize then (l, false)
  else
    ({ l with
        txBuffer := l.txBuffer.write l.txBufferLen data
        txBufferLen := (l.txBufferLen + data.length) % 2 ^ 64
        len_le := Nat.le_of_not_lt h }, true)

/-- `csp_cla_end_packet`. The instance of the CLA is initialized before there is a link. -/
def endPacket (l : LinkTx) (env : EndEnv) : LinkTx × Ended :=
  if l.txBufferLen = 0 then (l, ⟨true, none, false⟩)
  else
    let bundle := l.txBuffer.read 0 l.txBufferLen
    let err := (sendBundle true env.pool bundle l.destAddr l.destPort env.lock env.first
      env.retry).2.1
    if err ≠ .ok then (l.reset, ⟨false, some (bundle, err), true⟩)
    else (l.reset, ⟨true, some (bundle, err), false⟩)

/-- The pieces of a packet, one after another. -/
def sendData (l : LinkTx) : List (List UInt8) → LinkTx × List Bool
  | [] => (l, [])
  | data :: chunks =>
    let (l, ok) := l.sendPacketData data
    let (l, oks) := l.sendData chunks
    (l, ok :: oks)

/-- The bytes of the current packet. -/
def packet (l : LinkTx) : List UInt8 := l.txBuffer.read 0 l.txBufferLen

end LinkTx

/-- A packet: a bundle of the announced length, in pieces. -/
structure Packet where
  length : Nat
  chunks : List (List UInt8)
  pos : 0 < length
  whole : chunks.flatten.length = length

/-- What the callbacks returned for a packet. Without a begin there is no end. -/
structure PacketLog where
  begun : Bool
  accepted : List Bool
  ended : Option Ended

/-- uD3TN sends a packet. -/
def LinkTx.sendPacket (l : LinkTx) (p : Packet) (env : EndEnv) : LinkTx × PacketLog :=
  match l.beginPacket p.length with
  | (l, false) => (l, ⟨false, [], none⟩)
  | (l, true) =>
    let (l, accepted) := l.sendData p.chunks
    let (l, ended) := l.endPacket env
    (l, ⟨true, accepted, some ended⟩)

/-- A link, with the packets that were sent on it. -/
structure TxRun where
  link : LinkTx
  log : List (Packet × PacketLog)

/-- A packet from begin to end, or one that is given up after some pieces. -/
inductive TxOp where
  | packet (p : Packet) (env : EndEnv)
  | abandoned (length : Nat) (chunks : List (List UInt8))

/-- Any sequence of packets on a link. -/
def txSys : Lts TxRun TxOp where
  init s := ∃ addr port data, s = ⟨LinkTx.init addr port data, []⟩
  step
    | s, .packet p env =>
      let (link, r) := s.link.sendPacket p env
      some ⟨link, s.log ++ [(p, r)]⟩
    | s, .abandoned length chunks =>
      some ⟨((s.link.beginPacket length).1.sendData chunks).1, s.log⟩

/-- The packet was refused at its begin; or all its pieces were accepted, and at its end exactly
they were handed to `cspcl_send_bundle`, which did not find them too large. -/
def SentWhole (p : Packet) (r : PacketLog) : Prop :=
  r.begun = false ∨
    (∀ ok ∈ r.accepted, ok = true) ∧ ∃ ended err, r.ended = some ended ∧
      ended.sent = some (p.chunks.flatten, err) ∧ err ≠ .bundleTooLarge

/-! ## The pieces -/

namespace LinkTx

variable {l : LinkTx}

@[simp] theorem packet_reset : l.reset.packet = [] := rfl

@[simp] theorem length_packet : l.packet.length = l.txBufferLen := Buffer.length_read

theorem sendPacketData_eq (l : LinkTx) (data : List UInt8)
    (h : l.txBufferLen + data.length ≤ txBufferSize) :
    (l.sendPacketData data).2 = true ∧ (l.sendPacketData data).1.packet = l.packet ++ data ∧
      (l.sendPacketData data).1.txBufferLen = l.txBufferLen + data.length := by
  -- A sum within the buffer does not wrap around.
  have hmod : (l.txBufferLen + data.length) % 2 ^ 64 = l.txBufferLen + data.length :=
    Nat.mod_eq_of_lt (Nat.lt_of_le_of_lt h (by decide))
  have hfits : ¬ (l.txBufferLen + data.length) % 2 ^ 64 > txBufferSize := by omega
  rw [sendPacketData, dif_neg hfits]
  refine ⟨rfl, ?_, hmod⟩
  have hread := Buffer.read_write_append l.txBuffer 0 l.txBufferLen data
  rw [Nat.zero_add] at hread
  simpa only [packet, hmod] using hread

/-- Pieces that fit are accepted, and the buffer has them in order. -/
theorem packet_sendData {chunks : List (List UInt8)}
    (h : l.txBufferLen + chunks.flatten.length ≤ txBufferSize) :
    (∀ ok ∈ (l.sendData chunks).2, ok = true) ∧
      (l.sendData chunks).1.packet = l.packet ++ chunks.flatten := by
  induction chunks generalizing l with
  | nil => exact ⟨fun _ h => (nomatch h), (List.append_nil _).symm⟩
  | cons data chunks ih =>
    rw [List.flatten_cons, List.length_append] at h
    obtain ⟨hok, hpacket, hlen⟩ := sendPacketData_eq l data (by omega)
    obtain ⟨hoks, hrest⟩ := @ih (l.sendPacketData data).1 (by omega)
    constructor
    · intro ok hmem
      rcases List.mem_cons.mp hmem with rfl | hmem
      · exact hok
      · exact hoks ok hmem
    · rw [List.flatten_cons, ← List.append_assoc, ← hpacket, ← hrest]
      rfl

/-- What the end of a packet does, given the result of `cspcl_send_bundle`. -/
def ended (bundle : Bundle) (err : CspclError) : Ended :=
  ⟨decide (err = .ok), some (bundle, err), decide (err ≠ .ok)⟩

theorem endPacket_eq (env : EndEnv) (h : l.packet ≠ []) :
    (l.endPacket env).2 = ended l.packet (sendBundle true env.pool l.packet l.destAddr l.destPort
      env.lock env.first env.retry).2.1 := by
  have hlen : l.txBufferLen ≠ 0 := by
    rw [← length_packet]
    exact fun h0 => h (List.length_eq_zero_iff.mp h0)
  rw [endPacket, if_neg hlen, ← packet]
  dsimp only
  split
  · rename_i herr
    simp [ended, herr]
  · rename_i herr
    rw [not_not.mp herr]
    rfl

end LinkTx

/-! ## The size limit of `cspcl_send_bundle` -/

theorem sendResult_ne_tooLarge (ret : CspErr) : sendResult ret ≠ .bundleTooLarge := by
  unfold sendResult
  split
  · nofun
  split
  · nofun
  · nofun

theorem sendBundle_tooLarge_iff {pool : ConnPool} {bundle : Bundle} {addr port : UInt8}
    {lock : Bool} {first retry : SendEnv} (h : bundle ≠ []) :
    (sendBundle true pool bundle addr port lock first retry).2.1 = .bundleTooLarge ↔
      maxBundleSize < bundle.length := by
  have h0 : bundle.length ≠ 0 := fun h0 => h (List.length_eq_zero_iff.mp h0)
  by_cases hlarge : maxBundleSize < bundle.length
  · simp [sendBundle, h0, hlarge]
  · refine iff_of_false ?_ hlarge
    unfold sendBundle
    rw [if_neg h0, if_neg (by simp), if_neg hlarge]
    split
    · nofun
    split
    · nofun
    rcases sendAttempt pool bundle addr port first with ⟨p, _ | ret, calls⟩
    · nofun
    dsimp only
    split
    · nofun
    rcases sendAttempt p bundle addr port retry with ⟨p', _ | ret', calls'⟩
    · exact sendResult_ne_tooLarge ret
    · exact sendResult_ne_tooLarge ret'

/-! ## Packets -/

variable {l : LinkTx} {p : Packet} {env : EndEnv} {s : TxRun} {r : PacketLog}

theorem LinkTx.sendPacket_refused (h : txBufferSize < p.length) :
    (l.sendPacket p env).2 = ⟨false, [], none⟩ := by
  simp [sendPacket, beginPacket, h]

/-- Whatever was on the link before, an accepted packet is handed over as it is. -/
theorem LinkTx.sendPacket_accepted (env : EndEnv) (h : p.length ≤ txBufferSize) :
    ∃ accepted err, (l.sendPacket p env).2 = ⟨true, accepted, some (ended p.chunks.flatten err)⟩ ∧
      (∀ ok ∈ accepted, ok = true) ∧ (err = .bundleTooLarge ↔ maxBundleSize < p.length) := by
  have hbegin : l.beginPacket p.length = (l.reset, true) := by simp [beginPacket, h]
  have hfits : l.reset.txBufferLen + p.chunks.flatten.length ≤ txBufferSize := by
    rw [p.whole]
    exact (Nat.zero_add _).trans_le h
  obtain ⟨hok, hpacket⟩ := packet_sendData hfits
  rw [packet_reset, List.nil_append] at hpacket
  have hne : p.chunks.flatten ≠ [] := by
    refine List.ne_nil_of_length_pos ?_
    rw [p.whole]
    exact p.pos
  have hend := endPacket_eq env (hpacket ▸ hne)
  rw [hpacket] at hend
  have hlarge := @sendBundle_tooLarge_iff env.pool _ (l.reset.sendData p.chunks).1.destAddr
    (l.reset.sendData p.chunks).1.destPort env.lock env.first env.retry hne
  rw [p.whole] at hlarge
  refine ⟨_, _, ?_, hok, hlarge⟩
  rw [sendPacket, hbegin]
  exact congrArg (PacketLog.mk true _ <| some ·) hend

/-- Only a packet between the two limits is accepted and then found too large. -/
theorem LinkTx.sentWhole_sendPacket : SentWhole p (l.sendPacket p env).2 ↔
    p.length ≤ maxBundleSize ∨ txBufferSize < p.length := by
  by_cases h : p.length ≤ txBufferSize
  · obtain ⟨accepted, err, hr, hok, herr⟩ := sendPacket_accepted env h
    rw [hr, or_iff_left (Nat.not_lt.mpr h), ← Nat.not_lt, ← herr]
    constructor
    · rintro (hb | ⟨-, _, _, he, hs, hne⟩)
      · cases hb
      · obtain rfl := Option.some.inj he
        cases hs
        exact hne
    · exact fun hne => .inr ⟨hok, _, err, rfl, rfl, hne⟩
  · have h := Nat.lt_of_not_le h
    rw [sendPacket_refused h]
    exact iff_of_true (.inl rfl) (.inr h)

/-- What is in the log is what the link did. -/
theorem log_sendPacket (h : txSys.Reach s) :
    ∀ e ∈ s.log, ∃ (l : LinkTx) (env : EndEnv), e.2 = (l.sendPacket e.1 env).2 := by
  refine Lts.Inductive.reach (I := fun s => ∀ e ∈ s.log, ∃ (l : LinkTx) (env : EndEnv),
    e.2 = (l.sendPacket e.1 env).2) ⟨?_, ?_⟩ h
  · rintro s ⟨addr, port, data, rfl⟩ e he
    cases he
  · intro s op s' hs hstep e he
    cases op with
    | packet p env =>
      obtain rfl := Option.some.inj hstep
      rcases List.mem_append.mp he with he | he
      · exact hs e he
      · obtain rfl := List.mem_singleton.mp he
        exact ⟨s.link, env, rfl⟩
    | abandoned length chunks =>
      obtain rfl := Option.some.inj hstep
      exact hs e he

/-- In every run, a packet is refused at its begin or sent whole, iff its length is not between
`CSPCL_MAX_BUNDLE_SIZE` and `CSPCL_TX_BUFFER_SIZE`. -/
theorem sent_whole_iff (h : txSys.Reach s) (hr : (p, r) ∈ s.log) :
    SentWhole p r ↔ p.length ≤ maxBundleSize ∨ txBufferSize < p.length := by
  obtain ⟨l, env, he⟩ := log_sendPacket h _ hr
  rw [show r = (l.sendPacket p env).2 from he]
  exact LinkTx.sentWhole_sendPacket

/-- A fresh link to node 2, after one packet. -/
def linkAfter (p : Packet) (env : EndEnv) : TxRun :=
  let r := (LinkTx.init 2 10 fun _ => 0).sendPacket p env
  ⟨r.1, [(p, r.2)]⟩

theorem reach_linkAfter (p : Packet) (env : EndEnv) : txSys.Reach (linkAfter p env) :=
  Lts.Reach.step (s := ⟨LinkTx.init 2 10 fun _ => 0, []⟩) (a := .packet p env)
    (.init ⟨2, 10, fun _ => 0, rfl⟩) rfl

/-- The pool is empty, and the receiver acknowledges the bundle. -/
def acknowledged : EndEnv where
  pool := (ConnPool.init true none).1
  lock := true
  first := ⟨⟨0, 0, some 1⟩, cspErrNone, true⟩
  retry := ⟨⟨0, 0, none⟩, cspErrNone, false⟩

/-- Three bytes in two pieces. -/
def shortPacket : Packet := ⟨3, [[1, 2], [3]], by decide, rfl⟩

theorem shortPacket_sent :
    SentWhole shortPacket ((LinkTx.init 2 10 fun _ => 0).sendPacket shortPacket acknowledged).2 :=
  (sent_whole_iff (reach_linkAfter shortPacket acknowledged) List.mem_cons_self).mpr
    (.inl (by decide))

/-- One byte more than `CSPCL_MAX_BUNDLE_SIZE`, in one piece. -/
def longPacket : Packet :=
  ⟨65536, [List.replicate 65536 0], by decide, by
    rw [List.flatten_singleton, List.length_replicate]⟩

/-- It is accepted, found too large when it has come whole, and costs the link. -/
theorem longPacket_not_sent : ∃ s r, txSys.Reach s ∧ (longPacket, r) ∈ s.log ∧ r.begun = true ∧
    (∃ ended, r.ended = some ended ∧ ended.disconnected = true ∧
      ended.sent = some (List.replicate 65536 0, .bundleTooLarge)) ∧ ¬ SentWhole longPacket r := by
  obtain ⟨accepted, err, hr, -, herr⟩ := LinkTx.sendPacket_accepted (p := longPacket)
    (l := LinkTx.init 2 10 fun _ => 0) acknowledged (Nat.le_refl _)
  obtain rfl := herr.mpr (Nat.lt_succ_self _)
  refine ⟨linkAfter longPacket acknowledged, _, reach_linkAfter _ _, List.mem_cons_self, ?_, ?_,
    fun h => ?_⟩
  · rw [hr]
  · rw [hr]
    refine ⟨_, rfl, rfl, ?_⟩
    show some (longPacket.chunks.flatten, _) = _
    rw [show longPacket.chunks.flatten = List.replicate 65536 0 from List.flatten_singleton]
  · rcases LinkTx.sentWhole_sendPacket.mp h with h | h
    · exact absurd h (Nat.not_succ_le_self _)
    · exact absurd h (Nat.lt_irrefl _)

end Cspcl.Ud3tn
