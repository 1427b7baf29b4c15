import Cspcl.Lib.Lts
import Cspcl.Pool.Basic
import Cspcl.Rx.Basic

/-!
# Senders, receivers and the connections between them

Threads that call `cspcl_send_bundle` and threads that call `cspcl_recv_bundle` or
`cspcl_recv_bundle_from_conn`, on any instances and in any interleaving (`deliverySys`). A step is
one call to libcsp (or to the pool's mutex) with the code after it up to the next one; in
`csp_sfp_send` and `csp_sfp_recv`, one packet. The instances are initialized before and are not
cleaned up; every connection of a pool comes from `csp_connect`.

Of libcsp it is assumed that a connection delivers the packets of each direction in order, that it
neither invents nor duplicates one, and that `csp_sfp_recv` returns the bytes of one
`csp_sfp_send` whose fragments it read on that connection. Any packet can be lost, any call can
fail or time out, and a closed end gets nothing more.

* `Link`: a connection. The packets name the attempt that they belong to, which no code reads.
* `Tx`, `SendPc`: the sending sides, and where a thread is in `cspcl_send_bundle`.
* `Rx`, `RecvPc`: the receiving sides, and where a thread is in a receive call.
* `Honest`: what a send that returned `CSPCL_OK` promises.
-/

namespace Cspcl

/-! ## Connections -/

/-- A fragment of a bundle on its way: the attempt that queued it, and its index. -/
structure Frag where
  attempt : Nat
  index : Nat
  deriving DecidableEq, Repr

/-- The number of fragments that `csp_sfp_send` makes of a bundle. -/
def frags (bundle : Bundle) : Nat := (bundle.length + maxPayload - 1) / maxPayload

/-- A connection: the packets on their way to the receiver, the acks on their way to the sender
(the attempts whose bundles they confirm), and whether each end is open. -/
structure Link where
  fwd : List Frag
  back : List Nat
  txOpen : Bool
  rxOpen : Bool
  deriving DecidableEq, Repr

namespace Link

def new : Link := ⟨[], [], true, true⟩

/-- A fragment is queued for the receiver. -/
def queue (l : Link) (f : Frag) : Link := if l.rxOpen then { l with fwd := l.fwd ++ [f] } else l

/-- An ack is sent to the sender. -/
def ack (l : Link) (a : Nat) : Link := if l.txOpen then { l with back := l.back ++ [a] } else l

/-- `csp_close` by the sender. -/
def closeTx (l : Link) : Link := { l with back := [], txOpen := false }

/-- `csp_close` by the receiver. -/
def closeRx (l : Link) : Link := { l with fwd := [], rxOpen := false }

end Link

/-! ## The sending sides -/

/-- A call of `cspcl_send_bundle` on instance `inst`; `id` is its number. -/
structure SendCall where
  id : Nat
  inst : Nat
  bundle : Bundle
  addr : UInt8
  port : UInt8
  deriving DecidableEq, Repr

/-- A pass of the retry loop that got a connection. -/
structure Attempt where
  call : SendCall
  n : Nat
  conn : Conn
  deriving DecidableEq, Repr

/-- The packet that an attempt took as its ack: the one for the attempt `ackOf`. -/
structure AckRead where
  attempt : Nat
  ackOf : Nat
  deriving DecidableEq, Repr

/-- Where a thread is in `cspcl_send_bundle`. In the retry loop, `a` is the number of the attempt
`x`. -/
inductive SendPc where
  | idle
  /-- Before it takes the mutex. -/
  | locking (k : SendCall)
  /-- At the top of pass `n` of the loop; `ret` as the pass before left it. -/
  | getting (k : SendCall) (n : Nat) (ret : CspErr)
  /-- In `csp_sfp_send`, which has queued `j` fragments. -/
  | sending (a : Nat) (x : Attempt) (j : Nat)
  /-- In `csp_read`. -/
  | waiting (a : Nat) (x : Attempt)
  /-- Before `cspcl_pool_invalidate_locked`. -/
  | failed (a : Nat) (x : Attempt) (ret : CspErr)
  /-- Past the loop. -/
  | unlocking (k : SendCall) (err : CspclError) (ack : Option AckRead)
  deriving DecidableEq, Repr

/-- A call of `cspcl_send_bundle` that has returned. -/
structure Sent where
  call : SendCall
  err : CspclError
  ack : Option AckRead
  deriving DecidableEq, Repr

/-- The sending sides: for each instance, its pool, the calls that were made to libcsp for it and
the thread that holds its mutex; where each thread is; the number of calls that began, and those
that returned; the attempts; the acks that were read, and the connections that `csp_connect`
gave, which are numbered. -/
structure Tx where
  pool : Nat → ConnPool
  calls : Nat → List Call
  holder : Nat → Option Nat
  send : Nat → SendPc
  started : Nat
  sent : List Sent
  attempts : List Attempt
  taken : List Nat
  next : Conn

namespace Tx

def goto (s : Tx) (t : Nat) (pc : SendPc) : Tx := { s with send := Function.update s.send t pc }

/-- The pool of instance `i` after the calls `calls`. -/
def setPool (s : Tx) (i : Nat) (p : ConnPool) (calls : List Call) : Tx :=
  { s with
    pool := Function.update s.pool i p
    calls := Function.update s.calls i (s.calls i ++ calls) }

def setHolder (s : Tx) (i : Nat) (h : Option Nat) : Tx :=
  { s with holder := Function.update s.holder i h }

/-- `cspcl_send_bundle` returns. -/
def finish (s : Tx) (t : Nat) (k : SendCall) (err : CspclError) (ack : Option AckRead) : Tx :=
  { s.goto t .idle with sent := s.sent ++ [⟨k, err, ack⟩] }

/-- The checks of `cspcl_send_bundle` before it takes the mutex. -/
def refuse (initialized : Bool) (p : ConnPool) (bundle : Bundle) : Option CspclError :=
  if bundle.length = 0 then some .invalidParam
  else if !initialized then some .notInitialized
  else if maxBundleSize < bundle.length then some .bundleTooLarge
  else if !p.initialized then some .notInitialized
  else none

/-- `cspcl_send_bundle` is called. -/
def begin (s : Tx) (initialized : Bool) (t : Nat) (k : SendCall) : Tx :=
  let s := { s with started := s.started + 1 }
  match refuse initialized (s.pool k.inst) k.bundle with
  | some err => s.finish t k err none
  | none => s.goto t (.locking k)

/-- `cspcl_pool_get_or_create_locked` in pass `n` of the loop. -/
def get (s : Tx) (t : Nat) (k : SendCall) (n : Nat) (ret : CspErr) (env : ConnPool.GetEnv) : Tx :=
  let r := (s.pool k.inst).getOrCreateLocked k.addr k.port env
  let s := { s.setPool k.inst r.1 r.2.2 with next := s.next + env.connect.toList.length }
  match r.2.1 with
  -- Without a connection the loop ends: the first pass is a hard error, a retry is not.
  | none => s.goto t (.unlocking k (if n = 0 then .connection else sendResult ret) none)
  | some c =>
    { s.goto t (.sending s.attempts.length ⟨k, n, c⟩ 0) with attempts := s.attempts ++ [⟨k, n, c⟩] }

/-- `csp_sfp_send` returns. -/
def sfpSent (s : Tx) (t a : Nat) (x : Attempt) (ret : CspErr) : Tx :=
  (s.setPool x.call.inst (s.pool x.call.inst) [.sfpSend x.conn x.call.bundle ret]).goto t
    (if ret = cspErrNone then .waiting a x else .failed a x ret)

/-- `csp_read` returns, with the ack for the attempt `b` or without a packet. -/
def readDone (s : Tx) (t a : Nat) (x : Attempt) (packet : Option Nat) : Tx :=
  let r := waitAck x.conn packet.isSome
  let s := s.setPool x.call.inst (s.pool x.call.inst) r.2
  match packet with
  | some b =>
    { s.goto t (.unlocking x.call (sendResult r.1) (some ⟨a, b⟩)) with taken := s.taken ++ [b] }
  | none => s.goto t (.failed a x r.1)

/-- `cspcl_pool_invalidate_locked`, and the next pass of the loop if there is one. -/
def invalidate (s : Tx) (t : Nat) (x : Attempt) (ret : CspErr) : Tx :=
  let r := (s.pool x.call.inst).invalidateLocked x.call.addr x.call.port
  (s.setPool x.call.inst r.1 r.2).goto t
    (if x.n + 1 < 2 then .getting x.call (x.n + 1) ret
     else .unlocking x.call (sendResult ret) none)

end Tx

/-! ## The receiving sides -/

/-- What a receive call reads: a connection that its caller passed, or slot after slot of the
receive table of instance `i` (it is at the slot of step `n`). -/
inductive RecvSite where
  | direct
  | table (i start n : Nat)
  deriving DecidableEq, Repr

/-- Where a thread is in a receive call with a buffer of `maxLen` bytes. -/
inductive RecvPc where
  | idle
  /-- In `csp_accept`; `live` entries were used before. -/
  | accepting (i maxLen live : Nat)
  /-- In the loop over the table, before slot `n`. -/
  | scanning (i maxLen start n : Nat)
  /-- In `csp_sfp_recv`, which has read the packets `got`. -/
  | reading (site : RecvSite) (maxLen : Nat) (c : Conn) (got : List Frag)
  /-- The bundle is in the buffer; before `cspcl_send_ack`. -/
  | acking (site : RecvSite) (c : Conn) (a : Nat) (data : Bundle)
  deriving DecidableEq, Repr

/-- A receive call that returned `CSPCL_OK`: the connection it read, the attempt whose packets it
reassembled, and the bytes in its buffer. -/
structure Received where
  attempt : Nat
  conn : Conn
  data : Bundle
  deriving DecidableEq, Repr

/-- The receiving sides: the receive table of each instance, where each thread is, the connections
that `csp_accept` gave, and the receive calls that returned `CSPCL_OK`. -/
structure Rx where
  table : Nat → RxTable
  recv : Nat → RecvPc
  accepted : List Conn
  received : List Received

namespace Rx

def goto (s : Rx) (r : Nat) (pc : RecvPc) : Rx := { s with recv := Function.update s.recv r pc }

def setTable (s : Rx) (i : Nat) (t : RxTable) : Rx :=
  { s with table := Function.update s.table i t }

/-- `csp_accept` of `cspcl_recv_bundle` returns, and the connections that are closed. -/
def acceptDone (s : Rx) (r i maxLen live : Nat) :
    Except CspclError (Conn × UInt8 × UInt8) → Rx × List Conn
  | .ok (c, addr, port) =>
    let res := (s.table i).store c addr port
    ({ (s.setTable i res.1).goto r (.scanning i maxLen (res.1.tick.toNat % rxConnTableSize) 0) with
        accepted := s.accepted ++ [c] }, res.2)
  | .error err =>
    if err = .timeout ∧ live ≠ 0 then
      (s.goto r (.scanning i maxLen ((s.table i).tick.toNat % rxConnTableSize) 0), [])
    else (s.goto r .idle, [])

/-- The entry of slot `n` of the loop is closed (unless it is `NULL`) and forgotten. -/
def dropSlot (s : Rx) (r i maxLen start n : Nat) : Rx × List Conn :=
  let slot := RxTable.slotAt start n
  ((s.setTable i ((s.table i).drop slot)).goto r (.scanning i maxLen start (n + 1)),
    ((s.table i).entries slot).conn.toList)

/-- The loop of `cspcl_recv_bundle` at slot `n`, and the connections that are closed. -/
def poll (s : Rx) (r i maxLen start n : Nat) : Rx × List Conn :=
  if n < rxConnTableSize then
    let e := (s.table i).entries (RxTable.slotAt start n)
    if !e.used then (s.goto r (.scanning i maxLen start (n + 1)), [])
    else
      match e.conn with
      | some c => (s.goto r (.reading (.table i start n) maxLen c []), [])
      | none => s.dropSlot r i maxLen start n
  else (s.goto r .idle, [])

/-- `cspcl_recv_from_conn_timeout` returns an error, and the connections that are closed. -/
def recvFailed (s : Rx) (r maxLen : Nat) (site : RecvSite) (err : CspclError) : Rx × List Conn :=
  match site with
  | .direct => (s.goto r .idle, [])
  | .table i start n =>
    if err = .timeout then (s.goto r (.scanning i maxLen start (n + 1)), [])
    else s.dropSlot r i maxLen start n

/-- `csp_sfp_recv` returns, and the connections that are closed. -/
def sfpRecvDone (s : Rx) (r maxLen : Nat) (site : RecvSite) (c : Conn) (a : Nat) (res : SfpRecv) :
    Rx × List Conn :=
  match recvFromConnTimeout maxLen res with
  | .ok data => (s.goto r (.acking site c a data), [])
  | .error err => s.recvFailed r maxLen site err

/-- The receive call returns `CSPCL_OK`. -/
def finish (s : Rx) (r : Nat) (site : RecvSite) (c : Conn) (a : Nat) (data : Bundle) : Rx :=
  let s := { s.goto r .idle with received := s.received ++ [⟨a, c, data⟩] }
  match site with
  | .direct => s
  | .table i start n => s.setTable i ((s.table i).touch (RxTable.slotAt start n))

end Rx

/-! ## The system -/

/-- All instances (and whether each is initialized), and all connections. -/
structure World where
  initialized : Nat → Bool
  tx : Tx
  rx : Rx
  link : Conn → Link

/-- A step of the sender `t` or of the receiver `r`, or one of the network. -/
inductive DeliveryOp where
  | send (t i : Nat) (bundle : Bundle) (addr port : UInt8)
  | lock (t : Nat) (ok : Bool)
  | get (t : Nat) (env : ConnPool.GetEnv)
  | queue (t : Nat)
  | sfpSend (t : Nat) (ret : CspErr)
  | read (t : Nat) (packet : Bool)
  | invalidate (t : Nat)
  | unlock (t : Nat) (ok : Bool)
  | recvBundle (r i maxLen : Nat)
  | accept (r : Nat) (res : Except CspclError (Conn × UInt8 × UInt8))
  | poll (r : Nat)
  | recvFromConn (r : Nat) (c : Conn) (maxLen : Nat)
  | consume (r : Nat)
  | sfpRecvFails (r : Nat) (ret : CspErr)
  | reassemble (r a : Nat)
  | ack (r : Nat) (sent : Bool)
  /-- A caller of `cspcl_recv_bundle_from_conn` accepts or closes a connection itself. -/
  | acceptConn (c : Conn)
  | closeConn (c : Conn)
  /-- The packet at position `j` is lost. -/
  | loseFrag (c : Conn) (j : Nat)
  | loseAck (c : Conn) (j : Nat)

namespace World

/-- The start: any instances, nothing sent. -/
def new (initialized : Nat → Bool) (pool : Nat → Bool × Option CString) : World where
  initialized := initialized
  tx := {
    pool i := (ConnPool.init (pool i).1 (pool i).2).1
    calls _ := []
    holder _ := none
    send _ := .idle
    started := 0
    sent := []
    attempts := []
    taken := []
    next := 0 }
  rx := {
    table _ := .zero
    recv _ := .idle
    accepted := []
    received := [] }
  link _ := .new

def setLink (w : World) (c : Conn) (l : Link) : World :=
  { w with link := Function.update w.link c l }

/-- The sending side after a call of one of the pool's functions, which closed some connections. -/
def setTx (w : World) (s : Tx) (calls : List Call) : World :=
  { w with tx := s, link := fun c => if .close c ∈ calls then (w.link c).closeTx else w.link c }

/-- The receiving side after a function that closed some connections. -/
def setRx (w : World) (s : Rx × List Conn) : World :=
  { w with rx := s.1, link := fun c => if c ∈ s.2 then (w.link c).closeRx else w.link c }

/-- A step; `none` if the thread is not there, or libcsp cannot do that. -/
def step (w : World) : DeliveryOp → Option World
  | .send t i bundle addr port =>
    match w.tx.send t with
    | .idle => some { w with
        tx := w.tx.begin (w.initialized i) t ⟨w.tx.started, i, bundle, addr, port⟩ }
    | _ => none
  | .lock t ok =>
    match w.tx.send t with
    | .locking k =>
      if !ok then some { w with tx := w.tx.finish t k .connection none }
      else if w.tx.holder k.inst = none then
        some { w with
          tx := (w.tx.setHolder k.inst (some t)).goto t (.getting k 0 cspErrTimedout) }
      else none
    | _ => none
  | .get t env =>
    match w.tx.send t with
    | .getting k n ret =>
      -- A connection that did not exist before.
      if env.connect = none ∨ env.connect = some w.tx.next then
        some (w.setTx (w.tx.get t k n ret env)
          ((w.tx.pool k.inst).getOrCreateLocked k.addr k.port env).2.2)
      else none
    | _ => none
  | .queue t =>
    match w.tx.send t with
    | .sending a x j =>
      if j < frags x.call.bundle then
        some ({ w with tx := w.tx.goto t (.sending a x (j + 1)) }.setLink x.conn
          ((w.link x.conn).queue ⟨a, j⟩))
      else none
    | _ => none
  | .sfpSend t ret =>
    match w.tx.send t with
    | .sending a x j =>
      -- It succeeds once all fragments are queued, and can fail at any time.
      if ret = cspErrNone ∧ j ≠ frags x.call.bundle then none
      else some { w with tx := w.tx.sfpSent t a x ret }
    | _ => none
  | .read t packet =>
    match w.tx.send t with
    | .waiting a x =>
      if !packet then some { w with tx := w.tx.readDone t a x none }
      else
        match (w.link x.conn).back with
        | b :: rest => some ({ w with tx := w.tx.readDone t a x (some b) }.setLink x.conn
            { w.link x.conn with back := rest })
        | [] => none
    | _ => none
  | .invalidate t =>
    match w.tx.send t with
    | .failed _ x ret =>
      some (w.setTx (w.tx.invalidate t x ret)
        ((w.tx.pool x.call.inst).invalidateLocked x.call.addr x.call.port).2)
    | _ => none
  | .unlock t ok =>
    match w.tx.send t with
    | .unlocking k err ack =>
      some { w with
        tx := (if ok then w.tx.setHolder k.inst none else w.tx).finish t k err ack }
    | _ => none
  | .recvBundle r i maxLen =>
    match w.rx.recv r with
    | .idle => some { w with
        rx := w.rx.goto r (if w.initialized i then .accepting i maxLen (w.rx.table i).live
          else .idle) }
    | _ => none
  | .accept r res =>
    match w.rx.recv r with
    | .accepting i maxLen live =>
      match res with
      | .ok (c, addr, port) =>
        if c < w.tx.next ∧ c ∉ w.rx.accepted then
          some (w.setRx (w.rx.acceptDone r i maxLen live (.ok (c, addr, port))))
        else none
      | .error err => some (w.setRx (w.rx.acceptDone r i maxLen live (.error err)))
    | _ => none
  | .poll r =>
    match w.rx.recv r with
    | .scanning i maxLen start n => some (w.setRx (w.rx.poll r i maxLen start n))
    | _ => none
  | .recvFromConn r c maxLen =>
    match w.rx.recv r with
    | .idle =>
      if c ∈ w.rx.accepted then some { w with rx := w.rx.goto r (.reading .direct maxLen c []) }
      else none
    | _ => none
  | .consume r =>
    match w.rx.recv r with
    | .reading site maxLen c got =>
      match (w.link c).fwd with
      | f :: rest =>
        some ({ w with rx := w.rx.goto r (.reading site maxLen c (got ++ [f])) }.setLink c
          { w.link c with fwd := rest })
      | [] => none
    | _ => none
  | .sfpRecvFails r ret =>
    match w.rx.recv r with
    | .reading site maxLen c _ =>
      if ret = cspErrNone then none
      else some (w.setRx (w.rx.sfpRecvDone r maxLen site c 0 (.fail ret)))
    | _ => none
  | .reassemble r a =>
    match w.rx.recv r with
    | .reading site maxLen c got =>
      match w.tx.attempts[a]? with
      | some x =>
        -- `csp_sfp_recv` gives the bytes of one `csp_sfp_send`, all of whose packets it read.
        if (List.range (frags x.call.bundle)).all fun j => ⟨a, j⟩ ∈ got then
          some (w.setRx (w.rx.sfpRecvDone r maxLen site c a (.data (some x.call.bundle))))
        else none
      | none => none
    | _ => none
  | .ack r sent =>
    match w.rx.recv r with
    | .acking site c a data =>
      let w' := { w with rx := w.rx.finish r site c a data }
      some (if sent then w'.setLink c ((w.link c).ack a) else w')
    | _ => none
  | .acceptConn c =>
    if c < w.tx.next ∧ c ∉ w.rx.accepted then
      some { w with rx := { w.rx with accepted := w.rx.accepted ++ [c] } }
    else none
  | .closeConn c => if c ∈ w.rx.accepted then some (w.setRx (w.rx, [c])) else none
  | .loseFrag c j =>
    some (w.setLink c { w.link c with fwd := (w.link c).fwd.eraseIdx j })
  | .loseAck c j =>
    some (w.setLink c { w.link c with back := (w.link c).back.eraseIdx j })

/-- The receive call got a bundle of the send call number `id`. -/
def causedBy (w : World) (id : Nat) (r : Received) : Bool :=
  (w.tx.attempts[r.attempt]?).any fun x => x.call.id = id

/-- The packet that the call's last attempt took as the ack is the ack of that very attempt, and at
the other end of its connection a receive call returned `CSPCL_OK` with the bytes of the bundle. -/
def Delivered (w : World) (k : SendCall) (ack : Option AckRead) : Prop :=
  ∃ a x r, ack = some ⟨a, a⟩ ∧ w.tx.attempts[a]? = some x ∧ x.call = k ∧
    r ∈ w.rx.received ∧ r.attempt = a ∧ r.conn = x.conn ∧ r.data = k.bundle

/-- What the sends that returned `CSPCL_OK` promise, and how often a bundle is received. -/
structure Honest (w : World) : Prop where
  delivered : ∀ s ∈ w.tx.sent, s.err = .ok → w.Delivered s.call s.ack
  /-- No attempt is received twice. -/
  once : (w.rx.received.map Received.attempt).Nodup
  /-- At most two receive calls return `CSPCL_OK` because of one send. -/
  two : ∀ id, (w.rx.received.filter (w.causedBy id)).length ≤ 2

end World

/-- Any interleaving of senders, receivers and the network. -/
def deliverySys : Lts World DeliveryOp where
  init w := ∃ initialized pool, w = .new initialized pool
  step := World.step

end Cspcl
