import Cspcl.Nodes.State

/-!
# `send_bundle_async`

Any number of `send_bundle_async` futures over the nodes. A future is polled, awaited or dropped; its
blocking task waits in tokio's queue, runs `send_bundle_unless_cancelled` on a thread and drops its
`Arc<Cspcl>`. Everything else of the nodes goes on meanwhile; a plain `send_bundle` has no flag.

* `AsyncSend`: a future with its `cancelled` flag and its task.
* `AsyncNodes`, `asyncSys`: any interleaving.
-/

namespace Cspcl

open Inbound (Error)

/-- `JoinError`: the task panicked, or the runtime shut down before it ran. -/
inductive JoinError where
  | panic
  | cancelled
  deriving DecidableEq, Repr

/-- `flatten_join`; `none`: it resumes the panic. -/
def flattenJoin {α : Type} : Except JoinError (Except Error α) → Option (Except Error α)
  | .ok r => some r
  | .error .panic => none
  | .error .cancelled => some (.error .cancelled)

/-- `send_bundle_raw`, with its error mapped by `Error::from_raw`. -/
def sendRawResult (err : CspclError) : Except Error Unit :=
  if err = .ok then .ok () else .error (.fromRaw err)

/-- What became of the future. -/
inductive FutureAt where
  /-- Not polled yet. -/
  | created
  | awaiting
  | ready (r : Except Error Unit)
  | panicked
  | dropped
  deriving DecidableEq

/-- Where the blocking task is. -/
inductive TaskAt where
  | unspawned
  | queued
  /-- In `send_bundle_unless_cancelled`, on thread `t`; `r`: what `send_raw` returned. -/
  | sending (t : Nat) (r : Option (Except Error Unit))
  /-- It drops its `Arc<Cspcl>`. -/
  | dropping (t : Nat) (j : Except JoinError (Except Error Unit))
  | done (j : Except JoinError (Except Error Unit))
  deriving DecidableEq

/-- A call of `send_bundle_async` on instance `inst`. `cancelled`: its flag; `call`: the number of its
call of `cspcl_send_bundle`, once it made one. -/
structure AsyncSend where
  inst : Nat
  bundle : Bundle
  addr : UInt8
  port : UInt8
  future : FutureAt
  cancelled : Bool
  task : TaskAt
  call : Option Nat

/-- The nodes and the futures. `worker`: the future whose task the thread runs; `held`: how many
references to the instance the tasks have; `shutdown`: the runtime shuts down. -/
structure AsyncNodes where
  nodes : Nodes
  send : Nat → Option AsyncSend
  worker : Nat → Option Nat
  held : Nat → Nat
  shutdown : Bool

inductive AsyncOp where
  | create (f i : Nat) (bundle : Bundle) (addr port : UInt8)
  /-- The future is polled for the first time. -/
  | poll (f : Nat)
  /-- Thread `t` starts the task. `panics`: in its first log line. -/
  | start (f t : Nat) (panics : Bool)
  | run (op : NodesOp)
  /-- The task returns. `panics`: in its last log line. -/
  | finish (f : Nat) (panics : Bool)
  | done (f : Nat)
  | shutdown
  /-- The runtime drops a task that it did not start, on thread `t`. -/
  | drain (f t : Nat)
  /-- The future gets the result of its task. -/
  | resolve (f : Nat)
  | drop (f : Nat)

/-- The call uses up a reference that its caller has. -/
def NodeCall.takesRef : NodeCall → Bool
  | .inbound | .dropStream _ | .dropCspcl => true
  | .sendBundle _ _ _ | .closeRxSocket => false

/-- Thread `t`, which runs the task, took a step from `n` to `n'`. -/
def AsyncSend.after (x : AsyncSend) (t : Nat) (n n' : Nodes) : AsyncSend :=
  match x.task, n'.thread t with
  | .sending _ none, some ⟨.send _ _ _ _ p, _⟩ =>
    -- Only this thread's step can have begun a call.
    let call := if n.d.tx.started < n'.d.tx.started then some n.d.tx.started else x.call
    let r :=
      match call with
      | none => .error .cancelled
      | some _ => (n'.d.tx.sent.getLast?.map fun y => sendRawResult y.err).getD (.ok ())
    { x with call, task := .sending t (if p = .leaving then some r else none) }
  | _, _ => x

namespace AsyncNodes

def new (n : Nodes) : AsyncNodes := ⟨n, fun _ => none, fun _ => none, fun _ => 0, false⟩

def setSend (s : AsyncNodes) (f : Nat) (x : AsyncSend) : AsyncNodes :=
  { s with send := Function.update s.send f (some x) }

def setWorker (s : AsyncNodes) (t : Nat) (f : Option Nat) : AsyncNodes :=
  { s with worker := Function.update s.worker t f }

def setHeld (s : AsyncNodes) (i n : Nat) : AsyncNodes :=
  { s with held := Function.update s.held i n }

/-- The flag that a send on thread `t` looks at. -/
def flag (s : AsyncNodes) (t : Nat) : Bool :=
  ((s.worker t).bind s.send).any fun x => x.cancelled

/-- The threads of the tasks start nothing else, and nobody uses up the tasks' references. -/
def allowed (s : AsyncNodes) : NodesOp → Bool
  | .call t i k => (s.worker t).isNone && (!k.takesRef || s.held i < s.nodes.owners i)
  | .init t _ => (s.worker t).isNone
  | .run t env =>
    env.cancelled == s.flag t && (env.spawned.all fun r => (s.worker r).isNone)
  | _ => true

/-- The step of a node, seen by the task that takes it. -/
def ran (s : AsyncNodes) (op : NodesOp) (n : Nodes) : AsyncNodes :=
  let s' := { s with nodes := n }
  match op.thread with
  | none => s'
  | some t =>
    match s.worker t with
    | none => s'
    | some f => { s' with send := Function.update s.send f ((s.send f).map (·.after t s.nodes n)) }

/-- Thread `t` drops the reference of the task of `x`. -/
def dropArc (s : AsyncNodes) (t : Nat) (x : AsyncSend) : Option AsyncNodes :=
  (s.nodes.step (.call t x.inst .dropCspcl)).map fun n =>
    { s with nodes := n }.setHeld x.inst (s.held x.inst - 1)

def step (s : AsyncNodes) : AsyncOp → Option AsyncNodes
  | .create f i bundle addr port =>
    match s.send f with
    | none => some (s.setSend f ⟨i, bundle, addr, port, .created, false, .unspawned, none⟩)
    | some _ => none
  | .poll f =>
    match s.send f with
    | some x =>
      if x.future = .created ∧ s.held x.inst < s.nodes.owners x.inst then
        (s.nodes.step (.cloneCspcl x.inst)).map fun n =>
          ({ s with nodes := n }.setHeld x.inst (s.held x.inst + 1)).setSend f
            { x with future := .awaiting, task := .queued }
      else none
    | none => none
  | .start f t panics =>
    match s.send f with
    | some x =>
      -- An empty bundle is not logged.
      if x.task = .queued ∧ s.worker t = none ∧ (panics → x.bundle ≠ []) then
        if panics then
          (s.dropArc t x).map fun s =>
            (s.setWorker t (some f)).setSend f { x with task := .dropping t (.error .panic) }
        else
          (s.nodes.step (.call t x.inst (.sendBundle x.bundle x.addr x.port))).map fun n =>
            ({ s with nodes := n }.setWorker t (some f)).setSend f
              { x with
                task := .sending t (if x.bundle = [] then some (.error .invalidParam) else none) }
      else none
    | none => none
  | .run op => if s.allowed op then (s.nodes.step op).map (s.ran op) else none
  | .finish f panics =>
    match s.send f with
    | some x =>
      match x.task with
      | .sending t (some r) =>
        if panics → x.bundle ≠ [] then
          (s.dropArc t x).map fun s =>
            s.setSend f { x with task := .dropping t (if panics then .error .panic else .ok r) }
        else none
      | _ => none
    | none => none
  | .done f =>
    match s.send f with
    | some x =>
      match x.task with
      | .dropping t j =>
        if s.nodes.thread t = none then
          some ((s.setWorker t none).setSend f { x with task := .done j })
        else none
      | _ => none
    | none => none
  | .shutdown => some { s with shutdown := true }
  | .drain f t =>
    match s.send f with
    | some x =>
      if s.shutdown ∧ x.task = .queued ∧ s.worker t = none then
        (s.dropArc t x).map fun s => s.setSend f { x with task := .done (.error .cancelled) }
      else none
    | none => none
  | .resolve f =>
    match s.send f with
    | some x =>
      match x.future, x.task with
      | .awaiting, .done j =>
        -- The locals of the future go, `CancelOnDrop` among them.
        some (s.setSend f { x with
          cancelled := true
          future := match flattenJoin j with
            | some r => .ready r
            | none => .panicked })
      | _, _ => none
    | none => none
  | .drop f =>
    match s.send f with
    | some x =>
      match x.future with
      | .created => some (s.setSend f { x with future := .dropped })
      | .awaiting => some (s.setSend f { x with future := .dropped, cancelled := true })
      | _ => none
    | none => none

end AsyncNodes

/-- Any interleaving of the futures, their tasks and the nodes. -/
def asyncSys : Lts AsyncNodes AsyncOp where
  init s := ∃ n, nodesSys.init n ∧ s = .new n
  step := AsyncNodes.step

end Cspcl
