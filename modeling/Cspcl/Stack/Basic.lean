import Cspcl.Rx.Basic

/-!
# Instances and the CSP stack of the process (`src/cspcl.c`)

`cspcl_init`, `cspcl_cleanup` and the functions of the receive socket, as pure functions of the
instance (`Instance`: `cspcl_t`), the process-wide variables (`Globals`) and what the calls to
libcsp return (`InitEnv`, `RxEnv`). Each returns the calls that it made (`StackCall`), in order.

* `Instance.initStack`: what `cspcl_init` does under the global lock.
* `Instance.rxLookup`, `rxCreate`, `rxRegister`: the lock sections of `cspcl_open_rx_socket` and
  the code between them; `openRxSocket` runs them in sequence.
-/

namespace Cspcl

/-- `enum csp_iface_type`. -/
inductive IfaceType where
  | zmqhub
  | can
  | loopback
  deriving DecidableEq, Repr

/-- The identity of an interface behind a `csp_iface_t *`. -/
abbrev Iface := Nat

/-- The identity of a socket behind a `csp_socket_t *`. -/
abbrev Socket := Nat

/-- `cspcl_t`. -/
structure Instance where
  initialized : Bool
  localAddr : UInt8
  rxSocket : Option Socket
  cspPort : UInt8
  ifaceType : IfaceType
  zmqhubAddr : CString
  canIface : CString
  connPool : ConnPool
  rx : RxTable
  activeIface : Option Iface

/-- What the caller sets in a `cspcl_t` before `cspcl_init`. -/
structure InstanceConf where
  localAddr : UInt8
  cspPort : UInt8
  ifaceType : IfaceType
  zmqhubAddr : CString
  canIface : CString

/-- A zeroed `cspcl_t` with its configuration. -/
def Instance.new (conf : InstanceConf) : Instance where
  initialized := false
  localAddr := conf.localAddr
  rxSocket := none
  cspPort := conf.cspPort
  ifaceType := conf.ifaceType
  zmqhubAddr := conf.zmqhubAddr
  canIface := conf.canIface
  connPool := ConnPool.zero
  rx := RxTable.zero
  activeIface := none

/-- The static variables of `cspcl.c`. -/
structure Globals where
  stackInitialized : Bool
  routerStarted : Bool
  globalAddr : UInt8
  globalIfaceType : IfaceType
  globalIface : Option Iface
  globalRxSocket : Option Socket
  globalRxPort : UInt8

/-- The values at the start of the process. -/
def Globals.zero : Globals := ⟨false, false, 0, .loopback, none, none, 0⟩

/-- The fields of `csp_conf_t` that `cspcl_init` sets. -/
structure CspConf where
  address : UInt8
  hostname : String
  model : String
  revision : String
  connMax : Nat
  connQueueLength : Nat
  fifoLength : Nat
  portMaxBind : Nat
  rdpMaxWindow : Nat
  buffers : Nat
  bufferDataSize : Nat
  deriving DecidableEq, Repr

/-- A call and what it returned. `loopback` is not one: it marks that the loopback interface,
which needs no call, is taken. -/
inductive StackCall where
  | cspInit (conf : CspConf) (ret : CspErr)
  | zmqhubInit (addr : UInt8) (host : CString) (ret : CspErr)
  | canOpen (device : CString) (ret : CspErr)
  | loopback
  | rtableSet (iface : Iface)
  | routeStartTask (ret : CspErr)
  | socket (r : Option Socket)
  | bind (s : Socket) (port : UInt8) (ret : CspErr)
  | listen (s : Socket) (ret : CspErr)
  | closeSocket (s : Socket)
  | conn (call : Call)
  deriving DecidableEq, Repr

/-- What the calls of `cspcl_open_rx_socket` return. -/
structure RxEnv where
  socket : Option Socket
  bind : CspErr
  listen : CspErr
  deriving Repr

/-- What the calls of `cspcl_init` return. `iface` is the code of the interface's initialization,
`newIface` the interface that it gives; `poolLock`: the pool mutex was taken in the cleanup. -/
structure InitEnv where
  mutex : Bool
  maxAgeEnv : Option CString
  cspInit : CspErr
  iface : CspErr
  newIface : Option Iface
  routeStart : CspErr
  poolLock : Bool
  rx : RxEnv
  deriving Repr

/-- An environment in which every call succeeds. -/
def goodEnv : InitEnv :=
  ⟨true, none, cspErrNone, cspErrNone, none, cspErrNone, true, ⟨some 7, 0, 0⟩⟩

namespace Instance

/-- The configuration that `cspcl_init` passes to `csp_init`. -/
def cspConf (c : Instance) : CspConf where
  address := c.localAddr
  hostname := "ud3tn"
  model := "csp-cla"
  revision := "1.0"
  connMax := connPoolSize + rxConnTableSize + 4
  connQueueLength := 100
  fifoLength := 25
  portMaxBind := 31
  rdpMaxWindow := 20
  buffers := 100
  bufferDataSize := 256

/-- The initialization of the interface that the instance selects; `socketcan`: cspcl was compiled
with `CSP_HAVE_LIBSOCKETCAN`. -/
def openIface (socketcan : Bool) (c : Instance) (env : InitEnv) :
    Except CspclError (Option Iface) × List StackCall :=
  match c.ifaceType with
  | .zmqhub =>
    (if env.iface ≠ cspErrNone then .error .cspZmqhubInit else .ok env.newIface,
      [.zmqhubInit c.localAddr c.zmqhubAddr env.iface])
  | .can =>
    if !socketcan then (.error .cspCanNotSupported, [])
    else
      (if env.iface ≠ cspErrNone then .error .cspCanInit else .ok env.newIface,
        [.canOpen c.canIface env.iface])
  | .loopback => (.ok none, [.loopback])

/-- The branch of `cspcl_init` that starts the stack: `csp_init`, the interface, the router task.
Each failure leaves what the steps before it did. -/
def startStack (socketcan : Bool) (g : Globals) (c : Instance) (env : InitEnv) :
    Globals × Instance × CspclError × List StackCall :=
  let confCall := StackCall.cspInit c.cspConf env.cspInit
  if env.cspInit ≠ cspErrNone then (g, c, .cspStackInit, [confCall])
  else
    match openIface socketcan c env with
    | (.error e, io) => (g, c, e, confCall :: io)
    | (.ok i, io) =>
      let c := { c with activeIface := i }
      let g := { g with
        globalAddr := c.localAddr, globalIfaceType := c.ifaceType, globalIface := i }
      let calls := confCall :: io ++ (i.map .rtableSet).toList ++ [.routeStartTask env.routeStart]
      if env.routeStart ≠ cspErrNone then (g, c, .cspRouter, calls)
      else ({ g with routerStarted := true, stackInitialized := true }, c, .ok, calls)

/-- The branch of `cspcl_init` for a stack that runs already. -/
def joinStack (g : Globals) (c : Instance) : Instance × CspclError :=
  if c.localAddr ≠ g.globalAddr ∨ c.ifaceType ≠ g.globalIfaceType then (c, .cspinit)
  else ({ c with activeIface := g.globalIface }, .ok)

/-- `cspcl_release_conn_pool`. -/
def releaseConnPool (c : Instance) (lock : Bool) : Instance × List StackCall :=
  ({ c with connPool := (c.connPool.cleanup lock).1 }, (c.connPool.cleanup lock).2.map .conn)

/-- The section of `cspcl_init` under the global lock. -/
def enterStack (socketcan : Bool) (g : Globals) (c : Instance) (env : InitEnv) :
    Globals × Instance × CspclError × List StackCall :=
  if !g.stackInitialized then startStack socketcan g c env
  else (g, (joinStack g c).1, (joinStack g c).2, [])

/-- The instance with a new pool and an empty receive table. -/
def reset (c : Instance) (pool : ConnPool) : Instance :=
  { c with connPool := pool, rx := RxTable.zero }

/-- The part of `cspcl_init` of an instance that is not initialized, up to `initialized = true`. -/
def initStack (socketcan : Bool) (g : Globals) (c : Instance) (env : InitEnv) :
    Globals × Instance × CspclError × List StackCall :=
  match ConnPool.init env.mutex env.maxAgeEnv with
  | (pool, .ok) =>
    match enterStack socketcan g (c.reset pool) env with
    | (g, c, .ok, calls) => (g, { c with initialized := true }, .ok, calls)
    | (g, c, err, calls) =>
      let (c, closed) := c.releaseConnPool env.poolLock
      (g, c, err, calls ++ closed)
  | (pool, err) => (g, { c with connPool := pool }, err, [])

/-! ## The receive socket -/

/-- The first lock section of `cspcl_open_rx_socket`: the process-wide socket, if there is one and
it is bound to the instance's port. -/
def rxLookup (g : Globals) (c : Instance) : Option Socket :=
  match g.globalRxSocket with
  | some s => if g.globalRxPort = c.cspPort then some s else none
  | none => none

/-- The code between the lock sections: a new socket, bound to the instance's port. -/
def rxCreate (c : Instance) (env : RxEnv) : Except CspclError Socket × List StackCall :=
  match env.socket with
  | none => (.error .noMemory, [.socket none])
  | some s =>
    if env.bind ≠ cspErrNone then
      (.error .cspRecv, [.socket (some s), .bind s c.cspPort env.bind, .closeSocket s])
    else if env.listen ≠ cspErrNone then
      -- The port stays bound: `csp_close` of a server socket does not release it.
      (.error .cspRecv,
        [.socket (some s), .bind s c.cspPort env.bind, .listen s env.listen, .closeSocket s])
    else (.ok s, [.socket (some s), .bind s c.cspPort env.bind, .listen s env.listen])

/-- The second lock section: the new socket becomes the process-wide one. -/
def rxRegister (g : Globals) (c : Instance) (s : Socket) : Globals :=
  { g with globalRxSocket := some s, globalRxPort := c.cspPort }

/-- `rx_socket = s`. -/
def setRxSocket (c : Instance) (s : Socket) : Instance := { c with rxSocket := some s }

/-- `cspcl_open_rx_socket`, by a caller that nobody interrupts. -/
def openRxSocket (g : Globals) (c : Instance) (env : RxEnv) :
    Globals × Instance × CspclError × List StackCall :=
  if !c.initialized then (g, c, .invalidParam, [])
  else
    match c.rxSocket, rxLookup g c with
    | some _, _ => (g, c, .ok, [])
    | none, some s => (g, c.setRxSocket s, .ok, [])
    | none, none =>
      match rxCreate c env with
      | (.error e, calls) => (g, c, e, calls)
      | (.ok s, calls) => (rxRegister g c s, c.setRxSocket s, .ok, calls)

/-- `cspcl_close_rx_socket`: the socket itself stays open. -/
def closeRxSocket (c : Instance) : Instance := { c with rxSocket := none }

/-- `cspcl_cleanup`. -/
def cleanup (c : Instance) (lock : Bool) : Instance × List StackCall :=
  let (c, closed) := c.closeRxSocket.releaseConnPool lock
  ({ c with rx := c.rx.clear, initialized := false },
    closed ++ c.rx.openConns.map fun k => .conn (.close k))

/-- `cspcl_init`, by a caller that nobody interrupts. -/
def init (socketcan : Bool) (g : Globals) (c : Instance) (env : InitEnv) :
    Globals × Instance × CspclError × List StackCall :=
  match if !c.initialized then initStack socketcan g c env else (g, c, .ok, []) with
  | (g, c, .ok, calls) =>
    match openRxSocket g c env.rx with
    | (g, c, .ok, calls') => (g, c, .ok, calls ++ calls')
    | (g, c, err, calls') =>
      let (c, closed) := c.cleanup env.poolLock
      (g, c, err, calls ++ (calls' ++ closed))
  | r => r

end Instance

end Cspcl
