import Mathlib.Logic.Function.Basic
import Cspcl.Lib.Chan

/-!
# The receiver's state and its streams

`ReceiverState` of `rust-bindings/cspcl/src/inbound.rs` with the channels of its streams, and one
function for each lock section of `Receiver`: `deliver`, `subscribe` (up to the unlock before the
spawn), `acceptFailed`, `unsubscribe`, `beginClose`, `CloseGuard::drop`, `AcceptGuard::drop` and
the decision at the top of `accept_loop`.

The code is generic in the bundles here (it moves them and never looks into them). The channel of
a stream is named by the stream's id, so a pair of an id and a sender of the source is the id.
-/

namespace Cspcl.Inbound

/-- `Error` of the Rust bindings. -/
inductive Error where
  | invalidParam
  | noMemory
  | bundleTooLarge
  | cspSend
  | cspRecv
  | timeout
  | sfp
  | notInitialized
  | connection
  | cspInit
  | cspStackInit
  | cspZmqhubInit
  | cspCanInit
  | cspCanNotSupported
  | cspRouter
  | poolFull
  | unknownError (code : Int)
  | parseAddress
  | cancelled
  | spawn
  deriving DecidableEq, Repr

/-- `Bundle` of the Rust bindings. -/
structure Bundle where
  data : List UInt8
  srcAddr : UInt8
  srcPort : UInt8
  deriving DecidableEq, Repr

/-- `Result<Bundle>`: what a stream yields. -/
abbrev Item (β : Type) := Except Error β

/-- The bundles among the items. -/
def bundles {β : Type} (l : List (Item β)) : List β := l.filterMap Except.toOption

/-- `ReceiverState`, with the channels of the streams. Times are in the unit of `Instant`. -/
structure Receiver (β : Type) where
  nextId : Nat
  /-- The senders of the open streams, oldest first. -/
  subscribers : List Nat
  pending : List β
  acceptRunning : Bool
  stoppedAt : Option Nat
  closing : Nat
  chan : Nat → Chan (Item β)

namespace Receiver

variable {β : Type}

/-- `ReceiverState::new`. -/
def new (now : Nat) : Receiver β where
  nextId := 0
  subscribers := []
  pending := []
  acceptRunning := false
  stoppedAt := some now
  closing := 0
  chan _ := .new

def isReceiving (r : Receiver β) : Bool := r.stoppedAt.isNone

/-- The grace period starts when receiving goes from on to off, not again while it stays off. -/
def setReceiving (r : Receiver β) (on : Bool) (now : Nat) : Receiver β :=
  { r with stoppedAt := if on then none else r.stoppedAt.or (some now) }

def setChan (r : Receiver β) (id : Nat) (c : Chan (Item β)) : Receiver β :=
  { r with chan := Function.update r.chan id c }

/-- An item that no stream takes: a bundle is kept for the next one, an error is dropped. -/
def keep (r : Receiver β) : Item β → Receiver β
  | .ok bundle => { r with pending := r.pending ++ [bundle] }
  | .error _ => r

/-- `ReceiverState::deliver`. -/
def deliver (r : Receiver β) (item : Item β) : Receiver β :=
  match r.subscribers.getLast? with
  | some id =>
    match (r.chan id).send item with
    | some c => r.setChan id c
    | none => r.keep item
  | none => r.keep item

/-- The first lock section of `subscribe`: the new stream's id, whether the caller has to start
the accept thread, and the state. The caller waits for `closing = 0` before it. -/
def subscribe (r : Receiver β) : Nat × Bool × Receiver β :=
  let id := r.nextId
  let startAccept := !r.acceptRunning
  let chan := (r.pending.map Except.ok).foldl Chan.sendOrDrop Chan.new
  let r := { r with nextId := id + 1, acceptRunning := true, pending := [],
                    subscribers := r.subscribers ++ [id] }.setChan id chan
  (id, startAccept, if r.isReceiving then r else { r with stoppedAt := none })

/-- `while let Ok(item) = rx.try_recv()`, with what is done with each bundle. -/
def drain (r : Receiver β) (id : Nat) (f : Receiver β → β → Receiver β) : Receiver β :=
  (bundles (r.chan id).queue).foldl f (r.setChan id (r.chan id).drained)

/-- `Receiver::accept_failed`. -/
def acceptFailed (r : Receiver β) (id now : Nat) : Receiver β :=
  let others := r.subscribers.filter (· ≠ id)
  let r := { r with acceptRunning := false, subscribers := [] }
  let r := others.foldl (fun r i => r.setChan i ((r.chan i).sendOrDrop (.error .spawn))) r
  (r.setReceiving false now).drain id fun r bundle => r.keep (.ok bundle)

/-- `Receiver::unsubscribe`. -/
def unsubscribe (r : Receiver β) (id now : Nat) : Receiver β :=
  let r := { r with subscribers := r.subscribers.filter (· ≠ id) }.setChan id (r.chan id).close
  let r := r.drain id fun r bundle => r.deliver (.ok bundle)
  if r.subscribers.isEmpty && r.isReceiving then r.setReceiving false now else r

/-- `Receiver::begin_close`. -/
def beginClose (r : Receiver β) (now : Nat) : Receiver β :=
  { r.setReceiving false now with subscribers := [], closing := r.closing + 1 }

/-- `CloseGuard::drop`. -/
def closeGuardDrop (r : Receiver β) : Receiver β := { r with closing := r.closing - 1 }

/-- `AcceptGuard::drop` of an armed guard. -/
def acceptGuardDrop (r : Receiver β) (now : Nat) : Receiver β :=
  { r with acceptRunning := false, subscribers := [] }.setReceiving false now

/-- The top of `accept_loop`: whether the accept thread goes on. -/
def decideAccept (r : Receiver β) : Bool × Receiver β :=
  if r.isReceiving then (true, r) else (false, { r with acceptRunning := false })

/-- `InboundStream::poll_next`: what the stream yields. `opening`: the call of `subscribe` that
opened the stream still holds a sender. -/
def pollNext (r : Receiver β) (id : Nat) (opening : Bool) : Poll (Item β) × Receiver β :=
  let (poll, c) := (r.chan id).poll (opening || r.subscribers.contains id)
  (poll, r.setChan id c)

end Receiver

end Cspcl.Inbound
