import Cspcl.Pool.Basic

/-!
# Receiving on an accepted connection, and the receive table (`src/cspcl.c`)

`recvFromConnTimeout` is `cspcl_recv_from_conn_timeout` up to its ack, as a function of what
`csp_sfp_recv` returns. `RxTable` is the table of accepted connections of one instance, which
`cspcl_recv_bundle` reads in turn.
-/

namespace Cspcl

/-- What `csp_sfp_recv` returns: a code other than `CSP_ERR_NONE`, or `CSP_ERR_NONE` and the data
(`none`: a `NULL` pointer). -/
inductive SfpRecv where
  | fail (ret : CspErr)
  | data (d : Option Bundle)
  deriving DecidableEq, Repr

/-- `cspcl_recv_from_conn_timeout` with a buffer of `maxLen` bytes: the bundle that it copies into
the buffer and acknowledges, or the error that it returns. -/
def recvFromConnTimeout (maxLen : Nat) : SfpRecv → Except CspclError Bundle
  | .fail ret => .error (if ret = cspErrTimedout then .timeout else .sfp)
  | .data none => .error .cspRecv
  | .data (some d) =>
    if d.length = 0 then .error .cspRecv
    else if maxLen < d.length then .error .noMemory
    else .ok d

/-- `cspcl_rx_conn_entry_t`. -/
structure RxEntry where
  used : Bool
  conn : Option Conn
  srcAddr : UInt8
  srcPort : UInt8
  lastActive : UInt32
  deriving DecidableEq, Repr

/-- `rx_conns` and `rx_tick` of an instance. -/
structure RxTable where
  entries : Fin rxConnTableSize → RxEntry
  tick : UInt32

namespace RxTable

/-- `memset` of `rx_conns`, `rx_tick = 0`. -/
def zero : RxTable := ⟨fun _ => ⟨false, none, 0, 0, 0⟩, 0⟩

/-- The number of used entries (`live`). -/
def live (t : RxTable) : Nat := (List.finRange rxConnTableSize).countP fun i => (t.entries i).used

/-- The slots that the first loop of `cspcl_rx_table_store` looks for: the peer's entry, which ends
the loop, else the first unused slot. -/
def slotFor (t : RxTable) (addr port : UInt8) : Option (Fin rxConnTableSize) :=
  (Fin.find? fun i => (t.entries i).used && (t.entries i).srcAddr == addr &&
    (t.entries i).srcPort == port).or (Fin.find? fun i => !(t.entries i).used)

/-- `cspcl_rx_table_store`, and the connections that it closes. -/
def store (t : RxTable) (conn : Conn) (addr port : UInt8) : RxTable × List Conn :=
  let (slot, closed) :=
    match t.slotFor addr port with
    | some i =>
      -- The old connection of a peer that reconnected; an unused slot has nothing to close.
      (i, if (t.entries i).used then ((t.entries i).conn.filter (· ≠ conn)).toList else [])
    | none =>
      let lru := Table.leastIdx fun i => (t.entries i).lastActive.toNat
      (lru, (t.entries lru).conn.toList)
  ({ entries := Function.update t.entries slot ⟨true, some conn, addr, port, t.tick + 1⟩,
     tick := t.tick + 1 }, closed)

/-- A bundle was received on slot `i`. -/
def touch (t : RxTable) (i : Fin rxConnTableSize) : RxTable :=
  { entries := Function.update t.entries i { t.entries i with lastActive := t.tick + 1 }
    tick := t.tick + 1 }

/-- The broken connection of slot `i` is forgotten. -/
def drop (t : RxTable) (i : Fin rxConnTableSize) : RxTable :=
  { t with entries := Function.update t.entries i { t.entries i with conn := none, used := false } }

theorem entries_drop (t : RxTable) (i j : Fin rxConnTableSize) :
    (t.drop i).entries j =
      if j = i then { t.entries i with conn := none, used := false } else t.entries j := by
  simp [drop, Function.update_apply]

/-- The connections of the used entries: those that `cspcl_cleanup` closes. -/
def openConns (t : RxTable) : List Conn :=
  (List.finRange rxConnTableSize).filterMap fun i =>
    if (t.entries i).used then (t.entries i).conn else none

/-- `conn = NULL` and `used = false` in every entry (`cspcl_cleanup`). -/
def clear (t : RxTable) : RxTable :=
  { t with entries := fun i => { t.entries i with conn := none, used := false } }

/-- The slot that the scan looks at in step `n`: `(start + n) % CSPCL_RX_CONN_TABLE_SIZE`. -/
def slotAt (start n : Nat) : Fin rxConnTableSize :=
  ⟨(start + n) % rxConnTableSize, Nat.mod_lt _ (by decide)⟩

theorem nodup_slotAt (start : Nat) : ((List.range rxConnTableSize).map (slotAt start)).Nodup := by
  refine List.Nodup.map_on ?_ List.nodup_range
  intro a ha b hb h
  rw [List.mem_range] at ha hb
  have hv : (start + a) % rxConnTableSize = (start + b) % rxConnTableSize := congrArg Fin.val h
  simp only [rxConnTableSize] at ha hb hv
  omega

theorem exists_slotAt (start : Nat) (i : Fin rxConnTableSize) :
    ∃ n ∈ List.range rxConnTableSize, slotAt start n = i := by
  have hi := i.isLt
  refine ⟨(i + (rxConnTableSize - start % rxConnTableSize)) % rxConnTableSize, ?_, Fin.ext ?_⟩
  · exact List.mem_range.mpr (Nat.mod_lt _ (by decide))
  · simp only [slotAt, rxConnTableSize] at hi ⊢
    omega

end RxTable

end Cspcl
