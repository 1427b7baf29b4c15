import Cspcl.Stack.Basic

/-!
# `cspcl_recv_bundle` (`src/cspcl.c`)

One call of `cspcl_recv_bundle` on an instance, as a function of what its calls return (`RecvEnv`):
it polls for a new connection (`acceptConn`), stores it in the receive table, and reads the entries
of the table in turn (`scan`). Each function returns the calls that it made (`RxCall`), in order.
The checks for `NULL` arguments are left out.
-/

namespace Cspcl

/-- `CSPCL_CSP_TIMEOUT_MS`. -/
def cspTimeoutMs : UInt32 := 1000

/-- `CSPCL_RX_ACCEPT_POLL_MS`. -/
def rxAcceptPollMs : UInt32 := 100

/-- The least timeout of a read. -/
def minReadMs : UInt32 := 50

/-- What `csp_accept` gives: a connection, its address and its port. -/
abbrev Accepted := Conn × UInt8 × UInt8

/-- A call and what it returned. `split` is not one: it marks that the read timeout was computed, as
`(timeout - accept) / live`. -/
inductive RxCall where
  | stack (call : StackCall)
  | accept (timeout : UInt32) (r : Option Accepted)
  | split (timeout accept live : UInt32)
  | sfpRecv (c : Conn) (timeout : UInt32) (r : SfpRecv)
  | sendAck (c : Conn)
  | close (c : Conn)
  deriving DecidableEq, Repr

/-- What the calls of `cspcl_recv_bundle` return; each slot is read at most once. -/
structure RecvEnv where
  rx : RxEnv
  accept : Option Accepted
  reads : Fin rxConnTableSize → SfpRecv

/-- What `cspcl_accept_conn` does. -/
structure AcceptResult where
  globals : Globals
  inst : Instance
  res : Except CspclError Accepted
  calls : List RxCall

/-- `cspcl_accept_conn`. -/
def acceptConn (g : Globals) (c : Instance) (timeoutMs : UInt32) (env : RecvEnv) : AcceptResult :=
  if !c.initialized then ⟨g, c, .error .notInitialized, []⟩
  else
    match if c.rxSocket.isNone then c.openRxSocket g env.rx else (g, c, .ok, []) with
    | (g, c, .ok, calls) =>
      let timeout := if 0 < timeoutMs then timeoutMs else cspTimeoutMs
      ⟨g, c, env.accept.elim (.error .timeout) .ok,
        calls.map .stack ++ [.accept timeout env.accept]⟩
    | (g, c, err, calls) => ⟨g, c, .error err, calls.map .stack⟩

/-- `cspcl_recv_from_conn_timeout` on the connection of an entry. -/
def recvFromEntry (maxLen : Nat) (e : RxEntry) (timeoutMs : UInt32) (read : SfpRecv) :
    Except CspclError Bundle × List RxCall :=
  match e.conn with
  | none => (.error .invalidParam, [])
  | some c =>
    match recvFromConnTimeout maxLen read with
    | .ok data => (.ok data, [.sfpRecv c timeoutMs read, .sendAck c])
    | .error err => (.error err, [.sfpRecv c timeoutMs read])

/-- A bundle with the address and the port that it is reported with. -/
abbrev Reported := Bundle × UInt8 × UInt8

/-- What the loop over the table does. -/
structure ScanResult where
  table : RxTable
  res : Except CspclError Reported
  calls : List RxCall

namespace RxTable

/-- The loop over the steps `ns`: it ends at the first entry that has a bundle. -/
def scan (maxLen : Nat) (readTimeout : UInt32) (reads : Fin rxConnTableSize → SfpRecv)
    (start : Nat) (t : RxTable) : List Nat → ScanResult
  | [] => ⟨t, .error .timeout, []⟩
  | n :: ns =>
    let i := slotAt start n
    let e := t.entries i
    if !e.used then t.scan maxLen readTimeout reads start ns
    else
      match recvFromEntry maxLen e readTimeout (reads i) with
      | (.ok data, calls) => ⟨t.touch i, .ok (data, e.srcAddr, e.srcPort), calls⟩
      | (.error err, calls) =>
        if err = .timeout then
          let r := t.scan maxLen readTimeout reads start ns
          { r with calls := calls ++ r.calls }
        else
          -- The connection is broken.
          let r := (t.drop i).scan maxLen readTimeout reads start ns
          { r with calls := calls ++ (e.conn.toList.map .close ++ r.calls) }

/-- `accept_timeout`. -/
def acceptTimeoutMs (timeoutMs : UInt32) (live : Nat) : UInt32 :=
  if 0 < live then
    if timeoutMs / 2 < rxAcceptPollMs then timeoutMs / 2 else rxAcceptPollMs
  else timeoutMs

/-- `read_timeout`. -/
def readTimeoutMs (timeoutMs acceptMs live : UInt32) : UInt32 :=
  let read := (timeoutMs - acceptMs) / live
  if read < minReadMs then minReadMs else read

/-- The part of `cspcl_recv_bundle` after the accept. -/
def poll (maxLen : Nat) (timeoutMs acceptMs : UInt32) (reads : Fin rxConnTableSize → SfpRecv)
    (t : RxTable) : ScanResult :=
  if t.live = 0 then ⟨t, .error .timeout, []⟩
  else
    let live := UInt32.ofNat t.live
    let r := t.scan maxLen (readTimeoutMs timeoutMs acceptMs live) reads
      (t.tick.toNat % rxConnTableSize) (List.range rxConnTableSize)
    { r with calls := .split timeoutMs acceptMs live :: r.calls }

end RxTable

/-- What `cspcl_recv_bundle` does. -/
structure RecvResult where
  globals : Globals
  inst : Instance
  res : Except CspclError Reported
  calls : List RxCall

/-- The timeout that the caller asks for: 0 stands for `CSPCL_CSP_TIMEOUT_MS`. -/
def callerTimeoutMs (timeoutMs : UInt32) : UInt32 :=
  if timeoutMs = 0 then cspTimeoutMs else timeoutMs

/-- `cspcl_recv_bundle` with a buffer of `maxLen` bytes. -/
def recvBundle (g : Globals) (c : Instance) (maxLen : Nat) (timeoutMs : UInt32) (env : RecvEnv) :
    RecvResult :=
  if !c.initialized then ⟨g, c, .error .notInitialized, []⟩
  else
    let timeoutMs := callerTimeoutMs timeoutMs
    let acceptMs := RxTable.acceptTimeoutMs timeoutMs c.rx.live
    let a := acceptConn g c acceptMs env
    match a.res with
    | .ok (conn, addr, port) =>
      let (t, closed) := a.inst.rx.store conn addr port
      let r := t.poll maxLen timeoutMs acceptMs env.reads
      ⟨a.globals, { a.inst with rx := r.table }, r.res, a.calls ++ (closed.map .close ++ r.calls)⟩
    | .error err =>
      if err = .timeout then
        let r := a.inst.rx.poll maxLen timeoutMs acceptMs env.reads
        ⟨a.globals, { a.inst with rx := r.table }, r.res, a.calls ++ r.calls⟩
      else ⟨a.globals, a.inst, .error err, a.calls⟩

/-! ## The accept -/

variable {g : Globals} {c : Instance} {env : RecvEnv} {timeoutMs : UInt32}

/-- The instance has a receive socket, or `cspcl_open_rx_socket` finds or makes one. -/
def socketOpens (g : Globals) (c : Instance) (env : RxEnv) : Bool :=
  c.rxSocket.isSome || (Instance.rxLookup g c).isSome ||
    (env.socket.isSome && env.bind == cspErrNone && env.listen == cspErrNone)

/-- `cspcl_open_rx_socket` touches nothing but the socket. -/
theorem openRxSocket_spec (hi : c.initialized = true) (env : RxEnv) :
    (c.openRxSocket g env).2.1.rx = c.rx ∧
      (c.openRxSocket g env).2.1.initialized = true ∧
      (c.openRxSocket g env).2.1.connPool = c.connPool ∧
      (c.openRxSocket g env).2.2.1 ≠ .timeout ∧
      ((c.openRxSocket g env).2.2.1 = .ok ↔ socketOpens g c env = true) := by
  unfold Instance.openRxSocket socketOpens
  rw [if_neg (by simp [hi])]
  cases hs : c.rxSocket with
  | some s => simp [hi]
  | none =>
    cases hl : Instance.rxLookup g c with
    | some s => simp [hi, Instance.setRxSocket]
    | none =>
      unfold Instance.rxCreate
      cases he : env.socket with
      | none => simp [hi]
      | some s =>
        by_cases hb : env.bind = cspErrNone
        · by_cases hn : env.listen = cspErrNone
          · simp [hi, hb, hn, Instance.setRxSocket]
          · simp [hi, hb, hn]
        · simp [hi, hb]

/-- What `cspcl_accept_conn` does: it has no socket, or it calls `csp_accept`, with a timeout that
is never 0. -/
theorem acceptConn_spec (hi : c.initialized = true) (timeoutMs : UInt32) (env : RecvEnv) :
    (acceptConn g c timeoutMs env).inst.rx = c.rx ∧
      (acceptConn g c timeoutMs env).inst.initialized = true ∧
      (acceptConn g c timeoutMs env).inst.connPool = c.connPool ∧
      ∃ calls : List StackCall,
        (socketOpens g c env.rx = false ∧
          (∃ err, err ≠ .timeout ∧ (acceptConn g c timeoutMs env).res = .error err) ∧
          (acceptConn g c timeoutMs env).calls = calls.map .stack) ∨
        (socketOpens g c env.rx = true ∧
          (acceptConn g c timeoutMs env).res = env.accept.elim (.error .timeout) .ok ∧
          (acceptConn g c timeoutMs env).calls = calls.map .stack ++
            [.accept (if 0 < timeoutMs then timeoutMs else cspTimeoutMs) env.accept]) := by
  obtain ⟨hrx, hinit, hpool, hto, hok⟩ := openRxSocket_spec (g := g) hi env.rx
  unfold acceptConn
  rw [if_neg (by simp [hi])]
  cases hs : c.rxSocket with
  | some s =>
    refine ⟨rfl, hi, rfl, [], .inr ⟨?_, rfl, rfl⟩⟩
    simp [socketOpens, hs]
  | none =>
    simp only [Option.isNone_none, if_true]
    rcases hr : c.openRxSocket g env.rx with ⟨g', c', err, calls⟩
    rw [hr] at hrx hinit hpool hto hok
    cases err with
    | ok => exact ⟨hrx, hinit, hpool, calls, .inr ⟨hok.mp rfl, rfl, rfl⟩⟩
    | timeout => exact absurd rfl hto
    | _ =>
      refine ⟨hrx, hinit, hpool, calls, .inl ⟨?_, ⟨_, ?_, rfl⟩, rfl⟩⟩
      · rw [← Bool.not_eq_true, ← hok]
        simp
      · simp

/-- The timeout that `csp_accept` really gets. -/
def realAcceptMs (timeoutMs : UInt32) : UInt32 := if 0 < timeoutMs then timeoutMs else cspTimeoutMs

/-- The table that `cspcl_recv_bundle` polls, and the connections closed for the new one. -/
def RxTable.withAccepted (t : RxTable) : Option Accepted → RxTable × List Conn
  | none => (t, [])
  | some (conn, addr, port) => t.store conn addr port

/-- What `cspcl_recv_bundle` does on an initialized instance: it has no socket, or it accepts,
stores the connection if there is one, and polls the table. -/
theorem recvBundle_cases (g : Globals) (hi : c.initialized = true) (maxLen : Nat)
    (timeoutMs : UInt32) (env : RecvEnv) :
    (recvBundle g c maxLen timeoutMs env).inst.initialized = true ∧
      (recvBundle g c maxLen timeoutMs env).inst.connPool = c.connPool ∧
      ∃ stack : List StackCall,
        (socketOpens g c env.rx = false ∧ (recvBundle g c maxLen timeoutMs env).inst.rx = c.rx ∧
          (∃ err, (recvBundle g c maxLen timeoutMs env).res = .error err) ∧
          (recvBundle g c maxLen timeoutMs env).calls = stack.map .stack) ∨
        (socketOpens g c env.rx = true ∧
          ∃ r, r = (c.rx.withAccepted env.accept).1.poll maxLen (callerTimeoutMs timeoutMs)
              (RxTable.acceptTimeoutMs (callerTimeoutMs timeoutMs) c.rx.live) env.reads ∧
            (recvBundle g c maxLen timeoutMs env).inst.rx = r.table ∧
            (recvBundle g c maxLen timeoutMs env).res = r.res ∧
            (recvBundle g c maxLen timeoutMs env).calls = stack.map .stack ++
              (.accept
                (realAcceptMs (RxTable.acceptTimeoutMs (callerTimeoutMs timeoutMs) c.rx.live))
                env.accept :: ((c.rx.withAccepted env.accept).2.map .close ++ r.calls))) := by
  unfold recvBundle
  rw [if_neg (by simp [hi])]
  obtain ⟨hrx, hinit, hpool, stack, ⟨hno, ⟨err, herr, hres⟩, hcalls⟩ | ⟨hopen, hres, hcalls⟩⟩ :=
    acceptConn_spec (g := g) hi (RxTable.acceptTimeoutMs (callerTimeoutMs timeoutMs) c.rx.live) env
  · simp only [hres, if_neg herr]
    exact ⟨hinit, hpool, stack, .inl ⟨hno, hrx, ⟨err, rfl⟩, hcalls⟩⟩
  · cases ha : env.accept with
    | none =>
      rw [ha] at hres hcalls
      simp only [Option.elim] at hres
      simp only [hres, if_true, hrx, hcalls]
      refine ⟨hinit, hpool, stack, .inr ⟨hopen, _, rfl, rfl, rfl, ?_⟩⟩
      simp [RxTable.withAccepted, realAcceptMs]
    | some k =>
      obtain ⟨conn, addr, port⟩ := k
      rw [ha] at hres hcalls
      simp only [Option.elim] at hres
      simp only [hres, hrx, hcalls]
      refine ⟨hinit, hpool, stack, .inr ⟨hopen, _, rfl, rfl, rfl, ?_⟩⟩
      simp [RxTable.withAccepted, realAcceptMs]

end Cspcl
