import Mathlib.Logic.Function.Iterate
import Cspcl.Receive.Source

/-!
# The dispatcher of hardy (`rust-bindings/hardy-cspcl/src/`)

`Cla::new` as far as it makes the table of peers (`lib.rs`), and the loop of
`Dispatcher::start_dispatch_inbound_bundle` with its `Backoff` (`dispatcher.rs`), which is not
cancelled here. `CspAddress` is that of the bindings (`cspcl/src/address.rs`).

A node id is a value of another crate: a type `ι`.
-/

namespace Cspcl.Hardy

open Inbound Receive

/-- `CspAddress`. -/
structure CspAddress where
  addr : UInt8
  port : UInt8
  deriving DecidableEq, Repr

/-- `From<CspAddress> for Bytes`. -/
def CspAddress.toBytes (a : CspAddress) : List UInt8 := [a.addr, a.port]

/-- `ClaAddress` of hardy; the dispatcher makes private ones. -/
inductive ClaAddress where
  | privateAddr (raw : List UInt8)
  deriving DecidableEq, Repr

/-- `PeerConfig`. -/
structure PeerConfig (ι : Type) where
  nodeId : ι
  addr : UInt8
  port : UInt8
  deriving Repr

variable {ι : Type}

/-- `csp_to_endpoint.insert` for a peer. The table is what `HashMap::get` returns. -/
def insertPeer (table : CspAddress → Option ι) (peer : PeerConfig ι) : CspAddress → Option ι :=
  Function.update table ⟨peer.addr, peer.port⟩ (some peer.nodeId)

/-- The table that `Cla::new` makes. -/
def cspToEndpoint (peers : List (PeerConfig ι)) : CspAddress → Option ι :=
  peers.foldl insertPeer fun _ => none

/-- The arguments of a call of `sink.dispatch`. -/
structure Dispatch (ι : Type) where
  bundle : List UInt8
  peerNode : Option ι
  peerAddr : Option ClaAddress
  deriving DecidableEq, Repr

/-- The call that the dispatcher makes for a bundle. -/
def dispatchCall (table : CspAddress → Option ι) (bundle : Inbound.Bundle) : Dispatch ι :=
  let cspPeerAddr : CspAddress := ⟨bundle.srcAddr, bundle.srcPort⟩
  ⟨bundle.data, table cspPeerAddr, some (.privateAddr cspPeerAddr.toBytes)⟩

/-- `REOPEN_DELAY`: 500 ms. -/
def reopenDelay : Nat := 500 * 10 ^ 6

/-- `MAX_REOPEN_DELAY`: 30 s. -/
def maxReopenDelay : Nat := 30 * 10 ^ 9

/-- `Backoff`. -/
structure Backoff where
  delay : Nat

namespace Backoff

/-- `Backoff::new`. -/
def new : Backoff := ⟨reopenDelay⟩

/-- `Backoff::wait`. -/
def wait (b : Backoff) (transport : Feed) : Backoff × Feed :=
  (⟨min (b.delay * 2) maxReopenDelay⟩, transport.sleep b.delay)

end Backoff

/-- The variables of the dispatcher's task, and the calls of `sink.dispatch` so far. -/
structure Dispatcher (ι : Type) where
  transport : Feed
  inbound : Option Nat
  openedAt : Nat
  backoff : Backoff
  calls : List (Dispatch ι)

namespace Dispatcher

/-- The start of the task. -/
def start (now : Nat) : Dispatcher ι := ⟨.start now, none, now, .new, []⟩

/-- `inbound = stream`, which drops the value before it. -/
def setInbound (s : Dispatcher ι) (stream : Option Nat) : Dispatcher ι :=
  { s with transport := s.transport.drop s.inbound, inbound := stream }

/-- `backoff.wait(&cancel_token)`. -/
def wait (s : Dispatcher ι) : Dispatcher ι :=
  { s with
    backoff := (s.backoff.wait s.transport).1, transport := (s.backoff.wait s.transport).2 }

/-- The delay starts over if the stream was not a quick failure. -/
def resetBackoff (s : Dispatcher ι) : Dispatcher ι :=
  if s.transport.now - s.openedAt > s.backoff.delay then { s with backoff := .new } else s

/-- The rest of a pass from `stream.try_next()` on. -/
def pollStream (table : CspAddress → Option ι) (s : Dispatcher ι) (script : Script Inbound.Bundle)
    (k : Nat) : Dispatcher ι :=
  let (nextBundle, transport) := s.transport.poll script k
  let s := { s with transport }
  match nextBundle with
  | .pending => s
  | .ready (.ok bundle) => { s with calls := s.calls ++ [dispatchCall table bundle] }
  | .ended => (s.setInbound none).resetBackoff.wait
  | .ready (.error _) => s

/-- One pass of the loop. -/
def pass (table : CspAddress → Option ι) (script : Script Inbound.Bundle) (s : Dispatcher ι) :
    Dispatcher ι :=
  match s.inbound with
  | some k => s.pollStream table script k
  | none =>
    let (opened, transport) := s.transport.openStream script
    let s := { s with transport }
    match opened with
    | some k =>
      ({ s with openedAt := s.transport.now }.setInbound (some k)).pollStream table script k
    | none => s.wait

end Dispatcher

/-- The dispatcher for the peers after `n` passes. -/
def dispatcher (peers : List (PeerConfig ι)) (script : Script Inbound.Bundle) (now n : Nat) :
    Dispatcher ι :=
  (Dispatcher.pass (cspToEndpoint peers) script)^[n] (.start now)

end Cspcl.Hardy
