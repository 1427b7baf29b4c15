import Mathlib.Data.UInt
import Cspcl.Config
import Cspcl.Lib.CString
import Cspcl.Lib.Table

/-!
# The outbound connection pool (`src/cspcl.c`)

The functions of the pool, as pure functions of the pool and of what their calls return
(`GetEnv`, `SendEnv`): the clock, the connection that `csp_connect` gives, the code of
`csp_sfp_send`, whether `csp_read` got a packet. Each returns the calls that it made to libcsp
(`Call`), in order. The pool mutex is not here: all of these run while it is held
(`connPoolInit` aside).

A `csp_conn_t *` is the identity of a connection (`Conn`): each connection that libcsp opens has
its own, even if libcsp gives the memory of a closed connection to a new one. The pool never
compares two connections, it only tests for `NULL` (`none`).
-/

namespace Cspcl

/-- The identity of a connection behind a `csp_conn_t *`. -/
abbrev Conn := Nat

/-- A bundle: its bytes. -/
abbrev Bundle := List UInt8

/-- `cspcl_conn_pool_entry_t`. -/
structure PoolEntry where
  used : Bool
  destAddr : UInt8
  destPort : UInt8
  conn : Option Conn
  lastUsed : UInt32
  connectedAt : Int
  deriving DecidableEq, Repr

/-- `cspcl_conn_pool_stats_t`. -/
structure PoolStats where
  hits : UInt32
  misses : UInt32
  evictions : UInt32
  connectFailures : UInt32
  invalidations : UInt32
  deriving DecidableEq, Repr

/-- `cspcl_conn_pool_t`, without its mutex. -/
structure ConnPool where
  initialized : Bool
  entries : Fin connPoolSize → PoolEntry
  tick : UInt32
  maxConnAgeMs : UInt32
  stats : PoolStats

/-- A call to libcsp and what it returned. `adopt` is not one: it marks the point where a
connection that the caller opened becomes the pool's (`cspcl_conn_pool_add`). -/
inductive Call where
  | connect (addr port : UInt8) (r : Option Conn)
  | adopt (c : Conn)
  | close (c : Conn)
  | sfpSend (c : Conn) (bundle : Bundle) (ret : CspErr)
  | read (c : Conn) (packet : Bool)
  deriving DecidableEq, Repr

namespace ConnPool

/-- All bytes zero (`memset`). -/
def zero : ConnPool where
  initialized := false
  entries _ := ⟨false, 0, 0, none, 0, 0⟩
  tick := 0
  maxConnAgeMs := 0
  stats := ⟨0, 0, 0, 0, 0⟩

/-- `tick++`. -/
def bump (p : ConnPool) : ConnPool := { p with tick := p.tick + 1 }

/-- `conn = NULL` and `used = false` in slot `i`: what every path that closes an entry does. -/
def clear (p : ConnPool) (i : Fin connPoolSize) : ConnPool :=
  { p with entries := Function.update p.entries i { p.entries i with used := false, conn := none } }

/-- A new connection in slot `i`, used at the current tick. -/
def store (p : ConnPool) (i : Fin connPoolSize) (addr port : UInt8) (c : Conn) (now : Int) :
    ConnPool :=
  { p with entries := Function.update p.entries i ⟨true, addr, port, some c, p.tick, now⟩ }

/-- `stats.evictions++`. -/
def countEviction (p : ConnPool) : ConnPool :=
  { p with stats := { p.stats with evictions := p.stats.evictions + 1 } }

/-- `stats.invalidations++`. -/
def countInvalidation (p : ConnPool) : ConnPool :=
  { p with stats := { p.stats with invalidations := p.stats.invalidations + 1 } }

/-- `csp_close` of slot `i`'s connection, unless it is `NULL`. -/
def closeCalls (p : ConnPool) (i : Fin connPoolSize) : List Call :=
  match (p.entries i).conn with
  | some c => [.close c]
  | none => []

/-- The eviction of the least recently used entry, of which `cspcl_pool_find_free_or_evict_locked`
and `cspcl_pool_get_or_create_locked` each have a copy: close it, mark its slot unused, count. -/
def evictLru (p : ConnPool) : ConnPool × Fin connPoolSize × List Call :=
  let lru := Table.leastIdx fun i => (p.entries i).lastUsed.toNat
  ((p.clear lru).countEviction, lru, p.closeCalls lru)

/-- The first unused slot. -/
def firstFree (p : ConnPool) : Option (Fin connPoolSize) := Fin.find? fun i => !(p.entries i).used

/-- `cspcl_pool_find_free_or_evict_locked`. -/
def findFreeOrEvictLocked (p : ConnPool) : ConnPool × Fin connPoolSize × List Call :=
  match p.firstFree with
  | some i => (p, i, [])
  | none => p.evictLru

/-- `cspcl_conn_pool_add` with a connection that is not `NULL`; `lock`: the mutex was taken. -/
def add (p : ConnPool) (addr port : UInt8) (c : Conn) (lock : Bool) (now : Int) :
    ConnPool × CspclError × List Call :=
  if !p.initialized then (p, .notInitialized, [])
  else if !lock then (p, .connection, [])
  else
    let (p, slot, calls) := p.bump.findFreeOrEvictLocked
    (p.store slot addr port c now, .ok, calls ++ [.adopt c])

/-! ## `cspcl_pool_get_or_create_locked` -/

/-- What the calls of `cspcl_pool_get_or_create_locked` return: the clock at the age check and
after the connect, and the new connection. -/
structure GetEnv where
  ageNow : Int
  connNow : Int
  connect : Option Conn
  deriving Repr

/-- `(uint32_t) x`. -/
def toU32 (x : Int) : UInt32 := UInt32.ofNat (x % 2 ^ 32).toNat

/-- The age check of a cached entry, when ageing is on. -/
def tooOld (p : ConnPool) (e : PoolEntry) (now : Int) : Bool :=
  0 < p.maxConnAgeMs && p.maxConnAgeMs / 1000 < toU32 (now - e.connectedAt)

/-- How the scan of the table ends: at a cached connection, at one that is too old, or at the end
of the table. `free` is `free_slot`, which an expired entry sets to its own slot if no unused slot
came before it. -/
inductive Lookup where
  | hit (i : Fin connPoolSize) (c : Conn)
  | expired (i : Fin connPoolSize) (c : Conn) (free : Fin connPoolSize)
  | miss (free : Option (Fin connPoolSize))

/-- The scan over the slots `is`, with the `free_slot` found so far. -/
def lookupFrom (p : ConnPool) (addr port : UInt8) (now : Int) (free : Option (Fin connPoolSize)) :
    List (Fin connPoolSize) → Lookup
  | [] => .miss free
  | i :: is =>
    let e := p.entries i
    if !e.used then p.lookupFrom addr port now (free.or (some i)) is
    else if e.destAddr = addr ∧ e.destPort = port then
      match e.conn with
      | some c => if p.tooOld e now then .expired i c (free.getD i) else .hit i c
      | none => p.lookupFrom addr port now free is
    else p.lookupFrom addr port now free is

/-- A cache hit in slot `i`. -/
def touch (p : ConnPool) (i : Fin connPoolSize) : ConnPool :=
  { p with
    entries := Function.update p.entries i { p.entries i with lastUsed := p.tick }
    stats := { p.stats with hits := p.stats.hits + 1 } }

/-- `csp_connect` and, if it gave a connection, the new entry in `slot`. -/
def connectInto (p : ConnPool) (slot : Fin connPoolSize) (addr port : UInt8) (env : GetEnv) :
    ConnPool × Option Conn × List Call :=
  match env.connect with
  | none =>
    ({ p with stats := { p.stats with connectFailures := p.stats.connectFailures + 1 } }, none,
      [.connect addr port none])
  | some c =>
    let p := p.store slot addr port c env.connNow
    ({ p with stats := { p.stats with misses := p.stats.misses + 1 } }, some c,
      [.connect addr port (some c)])

/-- `cspcl_pool_get_or_create_locked`. -/
def getOrCreateLocked (p : ConnPool) (addr port : UInt8) (env : GetEnv) :
    ConnPool × Option Conn × List Call :=
  let p := p.bump
  match p.lookupFrom addr port env.ageNow none (List.finRange connPoolSize) with
  | .hit i c => (p.touch i, some c, [])
  | .expired i c free =>
    let (p, r, calls) := (p.clear i).countInvalidation.connectInto free addr port env
    (p, r, .close c :: calls)
  | .miss (some free) => p.connectInto free addr port env
  | .miss none =>
    -- The entry is closed before `csp_connect`, so that libcsp has a free connection slot.
    let (p, lru, evicted) := p.evictLru
    let (p, r, calls) := p.connectInto lru addr port env
    (p, r, evicted ++ calls)

/-- The first used entry of a destination. -/
def findDest (p : ConnPool) (addr port : UInt8) : Option (Fin connPoolSize) :=
  Fin.find? fun i => (p.entries i).used && (p.entries i).destAddr == addr &&
    (p.entries i).destPort == port

/-- `cspcl_pool_invalidate_locked`. -/
def invalidateLocked (p : ConnPool) (addr port : UInt8) : ConnPool × List Call :=
  match p.findDest addr port with
  | some i => ((p.clear i).countInvalidation, p.closeCalls i)
  | none => (p, [])

/-! ## Initialization and cleanup -/

/-- The value of `CSPCL_MAX_CONN_AGE_MS`, if it is a number of the whole string in the range of
`uint32_t`; `0` (no ageing) otherwise. -/
def maxAgeOfEnv (v : Option CString) : UInt32 :=
  match v with
  | none => 0
  | some s =>
    match CString.strtol s with
    | (x, []) => if 0 ≤ x ∧ x ≤ 4294967295 then UInt32.ofNat x.toNat else 0
    | _ => 0

/-- `cspcl_conn_pool_init`; `mutex`: the mutex could be created. -/
def init (mutex : Bool) (maxAgeEnv : Option CString) : ConnPool × CspclError :=
  if !mutex then (zero, .noMemory)
  else ({ zero with maxConnAgeMs := maxAgeOfEnv maxAgeEnv, initialized := true }, .ok)

/-- `cspcl_conn_pool_add` while it holds the mutex. -/
def addLocked (p : ConnPool) (addr port : UInt8) (c : Conn) (now : Int) : ConnPool × List Call :=
  let (p, slot, calls) := p.bump.findFreeOrEvictLocked
  (p.store slot addr port c now, calls ++ [.adopt c])

/-- `cspcl_conn_pool_cleanup` while it holds the mutex. -/
def cleanupLocked (p : ConnPool) : ConnPool × List Call :=
  ({ p with
      initialized := false
      entries := fun i => { p.entries i with used := false, conn := none } },
    (List.finRange connPoolSize).flatMap fun i => if (p.entries i).used then p.closeCalls i else [])

/-- `cspcl_conn_pool_cleanup`. -/
def cleanup (p : ConnPool) (lock : Bool) : ConnPool × List Call :=
  if !p.initialized || !lock then (p, [])
  else
    ({ p with
        initialized := false
        entries := fun i => { p.entries i with used := false, conn := none } },
      (List.finRange connPoolSize).flatMap fun i =>
        if (p.entries i).used then p.closeCalls i else [])

end ConnPool

/-! ## `cspcl_send_bundle` -/

/-- What the calls of one attempt return. -/
structure SendEnv extends ConnPool.GetEnv where
  sfpSend : CspErr
  ack : Bool
  deriving Repr

/-- `cspcl_wait_ack`: any packet counts as the ack. -/
def waitAck (c : Conn) (packet : Bool) : CspErr × List Call :=
  (if packet then cspErrNone else cspErrTimedout, [.read c packet])

/-- `cspcl_send_and_confirm`. -/
def sendAndConfirm (c : Conn) (bundle : Bundle) (env : SendEnv) : CspErr × List Call :=
  if env.sfpSend ≠ cspErrNone then (env.sfpSend, [.sfpSend c bundle env.sfpSend])
  else
    let (ret, calls) := waitAck c env.ack
    (ret, .sfpSend c bundle env.sfpSend :: calls)

/-- One pass of the retry loop: `none` if it got no connection, else the code of the attempt. An
entry whose attempt failed is invalidated. -/
def sendAttempt (p : ConnPool) (bundle : Bundle) (addr port : UInt8) (env : SendEnv) :
    ConnPool × Option CspErr × List Call :=
  match p.getOrCreateLocked addr port env.toGetEnv with
  | (p, none, calls) => (p, none, calls)
  | (p, some c, calls) =>
    let (ret, io) := sendAndConfirm c bundle env
    if ret = cspErrNone then (p, some ret, calls ++ io)
    else
      let (p, closed) := p.invalidateLocked addr port
      (p, some ret, calls ++ io ++ closed)

/-- The code that `cspcl_send_bundle` makes of the last attempt's `ret`. -/
def sendResult (ret : CspErr) : CspclError :=
  if ret = cspErrTimedout then .timeout else if ret ≠ cspErrNone then .cspSend else .ok

/-- `cspcl_send_bundle` while it holds the mutex. -/
def sendLocked (p : ConnPool) (bundle : Bundle) (addr port : UInt8) (first retry : SendEnv) :
    ConnPool × CspclError × List Call :=
  match sendAttempt p bundle addr port first with
  | (p, none, calls) => (p, .connection, calls)
  | (p, some ret, calls) =>
    if ret = cspErrNone then (p, .ok, calls)
    else
      match sendAttempt p bundle addr port retry with
      -- No connection for the retry: the first attempt's failure is reported.
      | (p, none, calls') => (p, sendResult ret, calls ++ calls')
      | (p, some ret', calls') => (p, sendResult ret', calls ++ calls')

/-- `cspcl_send_bundle` of an instance with the flag `initialized`; `lock`: the mutex was
taken. -/
def sendBundle (initialized : Bool) (p : ConnPool) (bundle : Bundle) (addr port : UInt8)
    (lock : Bool) (first retry : SendEnv) : ConnPool × CspclError × List Call :=
  if bundle.length = 0 then (p, .invalidParam, [])
  else if !initialized then (p, .notInitialized, [])
  else if maxBundleSize < bundle.length then (p, .bundleTooLarge, [])
  else if !p.initialized then (p, .notInitialized, [])
  else if !lock then (p, .connection, [])
  else
    match sendAttempt p bundle addr port first with
    | (p, none, calls) => (p, .connection, calls)
    | (p, some ret, calls) =>
      if ret = cspErrNone then (p, .ok, calls)
      else
        match sendAttempt p bundle addr port retry with
        -- No connection for the retry: the first attempt's failure is reported.
        | (p, none, calls') => (p, sendResult ret, calls ++ calls')
        | (p, some ret', calls') => (p, sendResult ret', calls ++ calls')

end Cspcl
