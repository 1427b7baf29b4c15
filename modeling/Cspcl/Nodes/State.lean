import Cspcl.Delivery.World
import Cspcl.Inbound.WakeUps
import Cspcl.Stack.Basic

/-!
# Nodes that send and receive, with their locks

Any number of `Cspcl` instances (`rust-bindings/cspcl/src/instance.rs` and `inbound.rs` over
`src/cspcl.c`) in any number of processes, and all threads in them: sends, accept threads,
listeners, and calls that open, drop or close streams. Between them are the connections of
`Delivery.World`, which a node may also have to itself.

Each mutex is taken and released by itself. A thread at a place with a critical section first waits
for its mutex (`NodePlace.mutex`), takes it (`NodesOp.lock`) and then runs the section
(`NodesOp.run`), which releases the mutexes that the next place is not inside of
(`NodePlace.outer`). A thread that waits on a condition variable has no mutex of it; it may wake up
at any time.

* `Mutex`, `NodePlace`: the mutexes, and where a thread is.
* `Nodes`: the instances with their receivers, tables and sockets, who holds which mutex, where each
  thread is, and who keeps each instance alive.
* `Nodes.next`: what a thread does at its place.
-/

namespace Cspcl

open Inbound (Receiver ListenerTable Listener Item stopGrace)

/-- `Error::from_raw`. -/
def Inbound.Error.fromRaw : CspclError → Inbound.Error
  | .ok => .unknownError 0
  | .invalidParam => .invalidParam
  | .noMemory => .noMemory
  | .bundleTooLarge => .bundleTooLarge
  | .cspSend => .cspSend
  | .cspRecv => .cspRecv
  | .timeout => .timeout
  | .sfp => .sfp
  | .notInitialized => .notInitialized
  | .connection => .connection
  | .cspinit => .cspInit
  | .cspStackInit => .cspStackInit
  | .cspZmqhubInit => .cspZmqhubInit
  | .cspCanInit => .cspCanInit
  | .cspCanNotSupported => .cspCanNotSupported
  | .cspRouter => .cspRouter
  | .poolFull => .poolFull

/-- The mutexes, of instance `i` or of process `p`. -/
inductive Mutex where
  /-- `Cspcl::send`. -/
  | send (i : Nat)
  /-- The lock of the C connection pool. -/
  | pool (i : Nat)
  /-- `Cspcl::accept`. -/
  | accept (i : Nat)
  /-- `Receiver::state`. -/
  | state (i : Nat)
  /-- `Listeners::table`. -/
  | table (i : Nat)
  /-- `g_cspcl_global_lock`. -/
  | global (p : Nat)
  deriving DecidableEq, Repr

/-! ## Places -/

/-- Where a call of `send_raw` is. -/
inductive SendAt where
  /-- At its turn: has it been cancelled? -/
  | turn
  /-- In `cspcl_send_bundle`. -/
  | inC
  | leaving
  deriving DecidableEq, Repr

/-- Where an accept thread is. -/
inductive AcceptAt where
  /-- The top of `accept_loop`. -/
  | decide
  | waitForSlot
  /-- It waits on `slot_freed`. -/
  | slotFreed
  | pollConnection
  /-- `is_receiving` in `poll_connection`. -/
  | isReceiving
  /-- In `cspcl_accept_conn`, before the receive socket is there. -/
  | acceptConn
  /-- The lock sections of `cspcl_open_rx_socket` and the code between them. -/
  | rxLookup
  | rxCreate
  | rxRegister (s : Socket)
  /-- In `csp_accept`. -/
  | accepting
  /-- `poll_connection` is about to return. -/
  | polled (r : Except Inbound.Error (Conn × UInt8 × UInt8))
  /-- In `spawn_listener`. -/
  | register (c : Conn) (key : UInt8 × UInt8)
  | spawn (c : Conn) (l : Nat)
  | supersede (l : Nat)
  /-- The thread did not start: its task is dropped. -/
  | dropConn (c : Conn) (l : Nat)
  | dropRunning (l : Nat)
  | deliver (e : Inbound.Error)
  | pause
  /-- It waits on `changed` in `pause_while_receiving`. -/
  | backoff
  /-- In `AcceptGuard::drop` after a panic. -/
  | unwind
  deriving DecidableEq

/-- Where a listener is. -/
inductive ListenAt where
  /-- In `wait_while_stopped`. -/
  | top
  /-- It waits on `changed`. -/
  | stopped
  | evicted
  /-- In `recv_bundle_from_conn`. -/
  | reading
  | deliver (item : Item Inbound.Bundle)
  | closing
  deriving DecidableEq

/-- Where a call of `close_rx_socket` is. -/
inductive CloseAt where
  | begin
  | socket
  | guardDrop
  deriving DecidableEq, Repr

/-- Where a call of `inbound` is. -/
inductive OpenAt where
  | subscribe
  /-- It waits on `changed`. -/
  | closing
  | spawn (id : Nat)
  | acceptFailed (id : Nat)
  deriving DecidableEq, Repr

/-- Where a thread is. `i`: the instance; `l`: the listener. -/
inductive NodePlace where
  | send (i : Nat) (bundle : Bundle) (addr port : UInt8) (p : SendAt)
  | accept (i : Nat) (p : AcceptAt)
  | listen (i l : Nat) (c : Conn) (p : ListenAt)
  | close (i : Nat) (p : CloseAt)
  | open (i : Nat) (p : OpenAt)
  /-- In the drop of a stream. -/
  | unsubscribe (i id : Nat)
  /-- In `cspcl_init` of an instance that process `p` adds. -/
  | init (p : Nat)
  /-- It drops its reference to the instance, and then ends or, as a listener, its task. -/
  | release (i : Nat) (l : Option Nat)
  /-- In `Cspcl::drop`. -/
  | cleanup (i : Nat) (l : Option Nat)
  /-- In `RunningGuard::drop`. -/
  | finish (i l : Nat)
  deriving DecidableEq

namespace NodePlace

/-- The mutex of the critical section that the thread is at. -/
def mutex (proc : Nat → Nat) : NodePlace → Option Mutex
  | send i _ _ _ .turn => some (.send i)
  | accept i p =>
    match p with
    | .decide | .isReceiving | .deliver _ | .pause | .unwind => some (.state i)
    | .waitForSlot | .register _ _ | .supersede _ | .dropRunning _ => some (.table i)
    | .pollConnection => some (.accept i)
    | .rxLookup | .rxRegister _ => some (.global (proc i))
    | _ => none
  | listen i _ _ .top | listen i _ _ (.deliver _) => some (.state i)
  | close i .begin | close i .guardDrop => some (.state i)
  | close i .socket => some (.accept i)
  | «open» i .subscribe | «open» i (.acceptFailed _) => some (.state i)
  | unsubscribe i _ => some (.state i)
  | init p => some (.global p)
  | cleanup i _ => some (.pool i)
  | finish i _ => some (.table i)
  | _ => none

/-- The mutexes that the thread has there apart from that one, the C pool's aside. -/
def outer : NodePlace → List Mutex
  | send i _ _ _ .inC | send i _ _ _ .leaving => [.send i]
  | accept i p =>
    match p with
    | .isReceiving | .acceptConn | .rxLookup | .rxCreate | .rxRegister _ | .accepting | .polled _ =>
      [.accept i]
    | _ => []
  | _ => []

/-- The instance that the thread has a reference to. -/
def ref : NodePlace → Option Nat
  | send i _ _ _ _ | accept i _ | listen i _ _ _ | close i _ | «open» i _ | unsubscribe i _ |
    release i _ => some i
  | init _ | cleanup _ _ | finish _ _ => none

def sends : NodePlace → Bool
  | send _ _ _ _ _ => true
  | _ => false

end NodePlace

/-- A thread: its place, and whether it still waits for the mutex there. -/
structure NodeThread where
  place : NodePlace
  waiting : Bool
  deriving DecidableEq

/-! ## The nodes -/

/-- The instances, their threads and the connections. `proc`: the process of an instance; `d`: the C
pools, the calls of `cspcl_send_bundle` and of `cspcl_recv_bundle_from_conn`, and the connections
(an instance's pool is the one in `d`); `conns`: its listeners so far; `locks`: the holders of the
mutexes, except for a pool that a send has; `refs`: the threads with a reference to the instance;
`owners`: the other references, those of its streams among them. -/
structure Nodes where
  proc : Nat → Nat
  d : World
  recv : Nat → Receiver Inbound.Bundle
  table : Nat → ListenerTable
  conns : Nat → Nat
  inst : Nat → Instance
  globals : Nat → Globals
  locks : Mutex → Option Nat
  thread : Nat → Option NodeThread
  refs : Nat → List Nat
  owners : Nat → Nat

/-- What an application calls on an instance. -/
inductive NodeCall where
  | sendBundle (bundle : Bundle) (addr port : UInt8)
  | closeRxSocket
  | inbound
  | dropStream (id : Nat)
  | dropCspcl

/-- What the clock, the scheduler and libcsp answer; a thread looks at what it needs. -/
structure NodeEnv where
  /-- `Instant::now`, and the same in milliseconds since the receiver's epoch. -/
  now : Nat
  nowMs : Nat
  /-- The `cancelled` flag of a send. -/
  cancelled : Bool
  timedOut : Bool
  /-- `woken_by_reset`. -/
  reset : Bool
  /-- The thread that `spawn` starts. -/
  spawned : Option Nat
  rx : RxEnv
  /-- The connection that `csp_accept` gives, with its source. -/
  accepted : Option (Conn × UInt8 × UInt8)
  /-- The step in `cspcl_send_bundle` or `cspcl_recv_bundle_from_conn`. -/
  c : DeliveryOp
  /-- The variables of the process after `cspcl_init`. -/
  globals : Globals

/-- What a thread in C looks at. -/
def NodeEnv.inC (c : DeliveryOp) : NodeEnv :=
  ⟨0, 0, false, false, false, none, ⟨none, cspErrNone, cspErrNone⟩, none, c, .zero⟩

/-- A step; `t`: the thread that takes it. -/
inductive NodesOp where
  | call (t i : Nat) (k : NodeCall)
  | init (t p : Nat)
  /-- It takes the mutex that it waits for; `ok`: what the pool's lock returns. -/
  | lock (t : Nat) (ok : Bool)
  | run (t : Nat) (env : NodeEnv)
  /-- An accept thread or a listener panics. -/
  | panic (t : Nat)
  | cloneCspcl (i : Nat)
  /-- An open stream is polled. -/
  | poll (i id : Nat)
  | loseFrag (c : Conn) (j : Nat)
  | loseAck (c : Conn) (j : Nat)

namespace NodesOp

/-- The thread that takes the step. -/
def thread : NodesOp → Option Nat
  | call t _ _ | init t _ | lock t _ | run t _ | panic t => some t
  | cloneCspcl _ | poll _ _ | loseFrag _ _ | loseAck _ _ => none

end NodesOp

/-- The steps of thread `t` in `cspcl_send_bundle`, past the lock. The mutex that it has it can
unlock. -/
def DeliveryOp.sendBy (t : Nat) : DeliveryOp → Bool
  | .get u _ | .queue u | .sfpSend u _ | .read u _ | .invalidate u | .unlock u true => u == t
  | _ => false

/-- The steps of thread `t` in `cspcl_recv_bundle_from_conn`. -/
def DeliveryOp.recvBy (t : Nat) : DeliveryOp → Bool
  | .consume u | .sfpRecvFails u _ | .reassemble u _ | .ack u _ => u == t
  | _ => false

namespace Nodes

/-- The instances `inst`, each with one owner. -/
def new (proc : Nat → Nat) (inst : Nat → Instance) (maxAgeEnv : Nat → Option CString)
    (globals : Nat → Globals) (now : Nat → Nat) : Nodes where
  proc := proc
  d := .new (fun i => (inst i).initialized) fun i => (true, maxAgeEnv i)
  recv i := .new (now i)
  table _ := ⟨[], fun _ => .new (0, 0) 0⟩
  conns _ := 0
  inst := inst
  globals := globals
  locks _ := none
  thread _ := none
  refs _ := []
  owners _ := 1

/-- Who holds the mutex. -/
def holder (s : Nodes) : Mutex → Option Nat
  | .pool i => (s.locks (.pool i)).or (s.d.tx.holder i)
  | m => s.locks m

/-- The mutex that a thread is about to take. -/
def wants (s : Nodes) (t : Nat) : Option Mutex :=
  match s.thread t with
  | none => none
  | some th =>
    match th.place, s.d.tx.send t with
    -- In C.
    | .send _ _ _ _ .inC, .locking k => some (.pool k.inst)
    | _, _ => if th.waiting then th.place.mutex s.proc else none

/-- The thread is in a send. -/
def sends (s : Nodes) (t : Nat) : Bool := (s.thread t).any fun th => th.place.sends

/-- The thread `t` gets to `p`; it releases the mutexes that `p` is not inside of. -/
def goto (s : Nodes) (t : Nat) (p : NodePlace) : Nodes :=
  { s with
    thread := Function.update s.thread t (some ⟨p, (p.mutex s.proc).isSome⟩)
    locks := fun m => if s.locks m = some t ∧ m ∉ p.outer then none else s.locks m }

/-- The thread `t` ends. -/
def exit (s : Nodes) (t : Nat) : Nodes :=
  { s with
    thread := Function.update s.thread t none
    locks := fun m => if s.locks m = some t then none else s.locks m }

def setRecv (s : Nodes) (i : Nat) (r : Receiver Inbound.Bundle) : Nodes :=
  { s with recv := Function.update s.recv i r }

def setTable (s : Nodes) (i : Nat) (t : ListenerTable) : Nodes :=
  { s with table := Function.update s.table i t }

/-- The shared state of a listener. -/
def setListener (s : Nodes) (i l : Nat) (x : Listener) : Nodes :=
  s.setTable i { s.table i with state := Function.update (s.table i).state l x }

def setInst (s : Nodes) (i : Nat) (c : Instance) : Nodes :=
  { s with inst := Function.update s.inst i c }

/-- A thread gets a reference to the instance. -/
def addRef (s : Nodes) (t i : Nat) : Nodes :=
  { s with refs := Function.update s.refs i (t :: s.refs i) }

def dropRef (s : Nodes) (t i : Nat) : Nodes :=
  { s with refs := Function.update s.refs i ((s.refs i).erase t) }

def setOwners (s : Nodes) (i n : Nat) : Nodes :=
  { s with owners := Function.update s.owners i n }

/-- A step in C, or of the connections. -/
def inC (s : Nodes) (op : DeliveryOp) : Option Nodes := (s.d.step op).map fun d => { s with d }

/-- A new thread `r` with a reference to the instance. -/
def spawn (s : Nodes) (r i : Nat) (p : NodePlace) : Option Nodes :=
  if s.thread r = none then some ((s.addRef r i).goto r p) else none

/-- The connection was opened by a send to the address and port of the instance. -/
def leadsTo (s : Nodes) (c : Conn) (i : Nat) : Bool :=
  s.d.tx.attempts.any fun x =>
    x.conn = c && x.call.addr = (s.inst i).localAddr && x.call.port = (s.inst i).cspPort

/-- The thread has dropped its reference. -/
def afterRelease (s : Nodes) (t i : Nat) : Option Nat → Nodes
  | some l => s.goto t (.finish i l)
  | none => s.exit t

/-- The stream gets the reference of the thread that opened it. -/
def opened (s : Nodes) (t i : Nat) : Nodes :=
  ((s.dropRef t i).setOwners i (s.owners i + 1)).exit t

/-- What `recv_bundle_from_conn` returns, once it does. -/
def recvResult (s : Nodes) (t : Nat) : DeliveryOp → Option (Except CspclError Bundle)
  | .ack _ _ =>
    match s.d.rx.recv t with
    | .acking _ _ _ data => some (.ok data)
    | _ => none
  | .sfpRecvFails _ ret => some (recvFromConnTimeout maxBundleSize (.fail ret))
  | .reassemble _ a =>
    match recvFromConnTimeout maxBundleSize (.data (s.d.tx.attempts[a]?.map (·.call.bundle))) with
    | .ok _ => none
    | .error err => some (.error err)
  | _ => none

/-- What a listener does with it. -/
def received (s : Nodes) (t i l : Nat) (c : Conn) (env : NodeEnv) :
    Except CspclError Bundle → Nodes
  | .ok data =>
    let x := (s.table i).state l
    (s.setListener i l { x with lastActiveMs := env.nowMs }).goto t
      (.listen i l c (.deliver (.ok ⟨data, x.key.1, x.key.2⟩)))
  | .error .timeout =>
    let idle := inboundIdleTimeoutMs ≤ env.nowMs - ((s.table i).state l).lastActiveMs
    s.goto t (.listen i l c (if env.reset || idle then .closing else .top))
  | .error err => s.goto t (.listen i l c (.deliver (.error (.fromRaw err))))

def nextSend (s : Nodes) (t i : Nat) (bundle : Bundle) (addr port : UInt8) (env : NodeEnv) :
    SendAt → Option Nodes
  | .turn =>
    if env.cancelled then some (s.goto t (.send i bundle addr port .leaving))
    else (s.inC (.send t i bundle addr port)).map fun s =>
      s.goto t (.send i bundle addr port (if s.d.tx.send t = .idle then .leaving else .inC))
  | .inC =>
    if env.c.sendBy t then
      (s.inC env.c).map fun s =>
        if s.d.tx.send t = .idle then s.goto t (.send i bundle addr port .leaving) else s
    else none
  | .leaving => some (s.goto t (.release i none))

def nextAccept (s : Nodes) (t i : Nat) (env : NodeEnv) : AcceptAt → Option Nodes
  | .decide =>
    let (on, r) := (s.recv i).decideAccept
    some ((s.setRecv i r).goto t (if on then .accept i .waitForSlot else .release i none))
  | .waitForSlot =>
    let (may, table) := (s.table i).mayAccept
    some ((s.setTable i table).goto t (.accept i
      (if may then .pollConnection else if env.timedOut then .decide else .slotFreed)))
  | .slotFreed => some (s.goto t (.accept i .waitForSlot))
  | .pollConnection =>
    -- The next place is inside of the section.
    some (s.goto t (.accept i .isReceiving))
  | .isReceiving =>
    some (s.goto t (.accept i
      (if (s.recv i).isReceiving then .acceptConn else .polled (.error .timeout))))
  | .acceptConn =>
    some (s.goto t (.accept i
      (if !(s.inst i).initialized then .polled (.error .notInitialized)
       else if (s.inst i).rxSocket.isSome then .accepting else .rxLookup)))
  | .rxLookup =>
    match Instance.rxLookup (s.globals (s.proc i)) (s.inst i) with
    | some k => some ((s.setInst i ((s.inst i).setRxSocket k)).goto t (.accept i .accepting))
    | none => some (s.goto t (.accept i .rxCreate))
  | .rxCreate =>
    match (Instance.rxCreate (s.inst i) env.rx).1 with
    | .ok k => some ((s.setInst i ((s.inst i).setRxSocket k)).goto t (.accept i (.rxRegister k)))
    | .error err => some (s.goto t (.accept i (.polled (.error (.fromRaw err)))))
  | .rxRegister k =>
    let g := Instance.rxRegister (s.globals (s.proc i)) (s.inst i) k
    some ({ s with globals := Function.update s.globals (s.proc i) g }.goto t
      (.accept i .accepting))
  | .accepting =>
    match env.accepted with
    | none => some (s.goto t (.accept i (.polled (.error .timeout))))
    | some (c, key) =>
      if s.leadsTo c i then
        (s.inC (.acceptConn c)).map fun s => s.goto t (.accept i (.polled (.ok (c, key))))
      else none
  | .polled r =>
    some (s.goto t (.accept i
      (match r with
       | .ok (c, key) => .register c key
       | .error .timeout => .decide
       | .error e => .deliver e)))
  | .register c key =>
    let l := s.conns i
    let table := (s.table i).register l (.new key env.nowMs)
    some ({ s.setTable i table with conns := Function.update s.conns i (l + 1) }.goto t
      (.accept i (.spawn c l)))
  | .spawn c l =>
    match env.spawned with
    | some r => (s.spawn r i (.listen i l c .top)).map fun s => s.goto t (.accept i (.supersede l))
    | none => some (s.goto t (.accept i (.dropConn c l)))
  | .supersede l => some ((s.setTable i ((s.table i).supersede l)).goto t (.accept i .decide))
  | .dropConn c l => (s.inC (.closeConn c)).map fun s => s.goto t (.accept i (.dropRunning l))
  | .dropRunning l =>
    some ((s.setListener i l { (s.table i).state l with running := false }).goto t
      (.accept i (.deliver .spawn)))
  | .deliver e => some ((s.setRecv i ((s.recv i).deliver (.error e))).goto t (.accept i .pause))
  | .pause =>
    some (s.goto t (.accept i
      (if (s.recv i).isReceiving && !env.timedOut then .backoff else .decide)))
  | .backoff => some (s.goto t (.accept i .pause))
  | .unwind => some ((s.setRecv i ((s.recv i).acceptGuardDrop env.now)).goto t (.release i none))

def nextListen (s : Nodes) (t i l : Nat) (c : Conn) (env : NodeEnv) : ListenAt → Option Nodes
  | .top =>
    some (s.goto t (.listen i l c
      (match (s.recv i).stoppedAt with
       | none => .evicted
       | some stoppedAt => if stopGrace ≤ env.now - stoppedAt then .closing else .stopped)))
  | .stopped => some (s.goto t (.listen i l c .top))
  | .evicted =>
    if ((s.table i).state l).evicted then some (s.goto t (.listen i l c .closing))
    else (s.inC (.recvFromConn t c maxBundleSize)).map fun s => s.goto t (.listen i l c .reading)
  | .reading =>
    if env.c.recvBy t then
      (s.inC env.c).map fun s' =>
        match s.recvResult t env.c with
        | some r => s'.received t i l c env r
        | none => s'
    else none
  | .deliver item =>
    some ((s.setRecv i ((s.recv i).deliver item)).goto t (.listen i l c
      (match item with
       | .ok _ => .top
       | .error _ => .closing)))
  | .closing => (s.inC (.closeConn c)).map fun s => s.goto t (.release i (some l))

def nextClose (s : Nodes) (t i : Nat) (env : NodeEnv) : CloseAt → Nodes
  | .begin => (s.setRecv i ((s.recv i).beginClose env.now)).goto t (.close i .socket)
  | .socket => (s.setInst i (s.inst i).closeRxSocket).goto t (.close i .guardDrop)
  | .guardDrop => (s.setRecv i (s.recv i).closeGuardDrop).goto t (.release i none)

def nextOpen (s : Nodes) (t i : Nat) (env : NodeEnv) : OpenAt → Option Nodes
  | .subscribe =>
    if (s.recv i).closing > 0 then some (s.goto t (.open i .closing))
    else
      let (id, startAccept, r) := (s.recv i).subscribe
      let s := s.setRecv i r
      some (if startAccept then s.goto t (.open i (.spawn id)) else s.opened t i)
  | .closing => some (s.goto t (.open i .subscribe))
  | .spawn id =>
    match env.spawned with
    | some r => (s.spawn r i (.accept i .decide)).map fun s => s.opened t i
    | none => some (s.goto t (.open i (.acceptFailed id)))
  | .acceptFailed id =>
    let r := (s.recv i).acceptFailed id env.now
    -- The error goes into its own channel, outside of the lock.
    some ((s.setRecv i (r.setChan id ((r.chan id).sendOrDrop (.error .spawn)))).opened t i)

/-- What the thread `t` does at its place. -/
def next (s : Nodes) (t : Nat) (env : NodeEnv) : NodePlace → Option Nodes
  | .send i bundle addr port p => s.nextSend t i bundle addr port env p
  | .accept i p => s.nextAccept t i env p
  | .listen i l c p => s.nextListen t i l c env p
  | .close i p => some (s.nextClose t i env p)
  | .open i p => s.nextOpen t i env p
  | .unsubscribe i id =>
    some ((s.setRecv i ((s.recv i).unsubscribe id env.now)).goto t (.release i none))
  | .init p => some ({ s with globals := Function.update s.globals p env.globals }.exit t)
  | .release i l =>
    let s := s.dropRef t i
    some (if s.refs i = [] ∧ s.owners i = 0 then s.goto t (.cleanup i l) else s.afterRelease t i l)
  | .cleanup i l =>
    -- It closes the pool's connections, too. At their other ends nothing more arrives.
    some ((s.setInst i { (s.inst i).closeRxSocket with initialized := false }).afterRelease t i l)
  | .finish i l =>
    some ((s.setListener i l { (s.table i).state l with running := false }).exit t)

/-- The application calls the instance from thread `t`. -/
def begin (s : Nodes) (t i : Nat) : NodeCall → Nodes
  | .sendBundle bundle addr port =>
    -- An empty bundle is refused at once.
    if bundle = [] then s else (s.addRef t i).goto t (.send i bundle addr port .turn)
  | .closeRxSocket => (s.addRef t i).goto t (.close i .begin)
  | .inbound => ((s.setOwners i (s.owners i - 1)).addRef t i).goto t (.open i .subscribe)
  | .dropStream id => ((s.setOwners i (s.owners i - 1)).addRef t i).goto t (.unsubscribe i id)
  | .dropCspcl => ((s.setOwners i (s.owners i - 1)).addRef t i).goto t (.release i none)

def step (s : Nodes) : NodesOp → Option Nodes
  | .call t i k => if s.thread t = none ∧ 0 < s.owners i then some (s.begin t i k) else none
  | .init t p => if s.thread t = none then some (s.goto t (.init p)) else none
  | .lock t ok =>
    match s.thread t, s.wants t with
    | some th, some m =>
      if s.holder m ≠ none then none
      else if th.place.sends && !th.waiting then
        -- `cspcl_send_bundle` takes the pool, or returns.
        (s.inC (.lock t ok)).map fun s =>
          match th.place with
          | .send i bundle addr port _ =>
            if s.d.tx.send t = .idle then s.goto t (.send i bundle addr port .leaving) else s
          | _ => s
      else
        some { s with
          thread := Function.update s.thread t (some { th with waiting := false })
          locks := Function.update s.locks m (some t) }
    | _, _ => none
  | .run t env =>
    match s.thread t, s.wants t with
    | some th, none => s.next t env th.place
    | _, _ => none
  | .panic t =>
    match s.thread t with
    | some ⟨.accept i p, _⟩ =>
      match p with
      -- In `spawn_listener` it would drop the connection, too.
      | .polled _ | .register _ _ | .spawn _ _ | .supersede _ | .dropConn _ _ | .dropRunning _ |
        .unwind => none
      | _ => some (s.goto t (.accept i .unwind))
    | some ⟨.listen i l c p, _⟩ =>
      match p with
      | .reading | .closing => none
      | _ => some (s.goto t (.listen i l c .closing))
    | _ => none
  | .cloneCspcl i => if 0 < s.owners i then some (s.setOwners i (s.owners i + 1)) else none
  | .poll i id => some (s.setRecv i ((s.recv i).pollNext id false).2)
  | .loseFrag c j => s.inC (.loseFrag c j)
  | .loseAck c j => s.inC (.loseAck c j)

end Nodes

/-- All interleavings of any number of instances and threads. -/
def nodesSys : Lts Nodes NodesOp where
  init s := ∃ proc inst maxAgeEnv globals now,
    (∀ i, (inst i).initialized = true) ∧ s = .new proc inst maxAgeEnv globals now
  step := Nodes.step

end Cspcl
