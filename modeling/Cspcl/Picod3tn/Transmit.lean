import Cspcl.Delivery.Codes
import Cspcl.Nodes.Futures
import Cspcl.Picod3tn.Addr

/-!
# The TX task of picod3tn (`picod3tn/src/tasks/cla/cspcl.rs` of the integration patch)

`tx_task` takes bundle after bundle that the spool assigned to the CSPCL, and forwards or defers it:
`transmit` and `CspclLink::send` on any run of the nodes and of other futures.

* `FailureKind.of`, `SendError.ofError`: what a failed send means.
* `TxTask`, `txSys`: the task.
* `transmit_honest`: what becomes of its bundles.
-/

namespace Cspcl.Picod3tn

open Inbound (Error)
open RustStr

/-- `FailureKind`. -/
inductive FailureKind where
  | retryable
  | permanent
  | cancelled
  deriving DecidableEq, Repr

/-- `check_size`. -/
def checkSize (len : Nat) : Except FailureKind Unit :=
  if maxBundleSize < len then .error .permanent else .ok ()

/-- `FailureKind::of`. -/
def FailureKind.of : Error → FailureKind
  | .bundleTooLarge | .invalidParam => .permanent
  | .cancelled | .notInitialized => .cancelled
  | _ => .retryable

/-- `SendError`. -/
inductive SendError where
  | retryable (e : Error)
  | permanent (e : Error)
  | cancelled
  deriving DecidableEq, Repr

namespace SendError

/-- `SendError::kind`. -/
def kind : SendError → FailureKind
  | retryable _ => .retryable
  | permanent _ => .permanent
  | cancelled => .cancelled

/-- `SendError::from`. -/
def ofError (e : Error) : SendError :=
  match FailureKind.of e with
  | .retryable => .retryable e
  | .permanent => .permanent e
  | .cancelled => .cancelled

theorem kind_ofError (e : Error) : (ofError e).kind = .of e := by
  unfold ofError
  split <;> rename_i h <;> exact h.symm

end SendError

/-- `CLA_TX_ERROR_DEFER_DURATION_SECONDS`. -/
def claTxErrorDeferDurationSeconds : Nat := 1

/-- A bundle that the spool offers, with the link address that it is to be sent to. -/
structure TransmitBundle where
  addr : Option RustStr
  bundle : Bundle

/-- What the task does with it: `forwarded()` or `defer(..)`. -/
inductive Fate where
  | forwarded
  | deferred (seconds : Nat)
  deriving DecidableEq, Repr

/-- The end of `transmit`, and whether it breaks the loop. -/
def transmitted : Except SendError Unit → Fate × Bool
  | .ok _ => (.forwarded, false)
  | .error e =>
    match e.kind with
    | .retryable => (.deferred claTxErrorDeferDurationSeconds, false)
    | .permanent => (.forwarded, false)
    | .cancelled => (.deferred claTxErrorDeferDurationSeconds, true)

/-- Where `tx_task` is. -/
inductive TxAt where
  /-- In `spool.transmit`. -/
  | waiting
  /-- In `link.send`, with the future `f` of `send_bundle_async`. -/
  | sending (f : Nat) (h : TransmitBundle) (addr : CspclAddr)
  | ended
  | panicked

/-- A bundle that the task is done with. `future`: that of its send, if it got to one. -/
structure Resolved where
  handle : TransmitBundle
  fate : Fate
  future : Option Nat

/-- `tx_task`, and what it did with the bundles. -/
structure TxTask where
  async : AsyncNodes
  pc : TxAt
  log : List Resolved

inductive TxOp where
  /-- The spool offers a bundle; `f`: the future of its send, if it gets to one. -/
  | offer (h : TransmitBundle) (f : Nat)
  /-- The future of the send is ready. -/
  | answer
  | run (op : AsyncOp)

namespace TxTask

def resolve (s : TxTask) (h : TransmitBundle) (f : Option Nat) (res : Fate × Bool) : TxTask :=
  { s with log := s.log ++ [⟨h, res.1, f⟩], pc := if res.2 then .ended else .waiting }

/-- The task of the link that has the instance `i`. -/
def step (i : Nat) (s : TxTask) : TxOp → Option TxTask
  | .offer h f =>
    match s.pc with
    | .waiting =>
      match h.addr.map CspclAddr.fromStr with
      | some (.ok addr) =>
        match checkSize h.bundle.length with
        | .error _ => some (s.resolve h none (transmitted (.error (.permanent .bundleTooLarge))))
        | .ok _ =>
          ((s.async.step (.create f i h.bundle addr.addr addr.port)).bind (·.step (.poll f))).map
            fun async => { s with async, pc := .sending f h addr }
      | some (.error _) | none =>
        some (s.resolve h none (.deferred claTxErrorDeferDurationSeconds, false))
    | _ => none
  | .answer =>
    match s.pc with
    | .sending f h _ =>
      match s.async.send f with
      | some x =>
        match x.future with
        | .ready r => some (s.resolve h (some f) (transmitted (r.mapError .ofError)))
        | .panicked => some { s with pc := .panicked }
        | _ => none
      | none => none
    | _ => none
  | .run op => (s.async.step op).map fun async => { s with async }

end TxTask

/-- The TX task of a link, with everything else that goes on. -/
def txSys (i : Nat) : Lts TxTask TxOp where
  init s := ∃ async, asyncSys.init async ∧ s = ⟨async, .waiting, []⟩
  step := TxTask.step i

/-- The bundle is to go to `addr`. -/
def TransmitBundle.To (h : TransmitBundle) (addr : CspclAddr) : Prop :=
  h.addr.map CspclAddr.fromStr = some (.ok addr)

/-- The future `f` sends the bundle to `addr`. -/
def TransmitBundle.SentBy (h : TransmitBundle) (i : Nat) (addr : CspclAddr) (f : Nat)
    (s : AsyncNodes) (x : AsyncSend) : Prop :=
  s.send f = some x ∧ x.sendCall = fun k => ⟨k, i, h.bundle, addr.addr, addr.port⟩

/-- Its call has returned `err`. -/
def TransmitBundle.Got (h : TransmitBundle) (i : Nat) (addr : CspclAddr) (f : Nat)
    (s : AsyncNodes) (err : CspclError) : Prop :=
  ∃ x k, h.SentBy i addr f s x ∧ x.call = some k ∧
    ∃ y ∈ s.nodes.d.tx.sent, y.call = x.sendCall k ∧ y.err = err

/-- The task was right to do so with the bundle. -/
def Resolved.Right (r : Resolved) (i : Nat) (s : AsyncNodes) : Prop :=
  match r.fate with
  | .forwarded => ∃ addr, r.handle.To addr ∧
    (r.handle.bundle = [] ∨ maxBundleSize < r.handle.bundle.length ∨
      ∃ f, r.future = some f ∧ r.handle.Got i addr f s .ok)
  | .deferred seconds => seconds = claTxErrorDeferDurationSeconds ∧
    ((∀ addr, ¬ r.handle.To addr) ∨ ∃ addr, r.handle.To addr ∧
      r.handle.bundle.length ≤ maxBundleSize ∧ (s.shutdown = true ∨
        ∃ f err, r.future = some f ∧ r.handle.Got i addr f s err ∧ err.ofTransport = true ∧
          err ≠ .ok))

structure TxTask.Inv (s : TxTask) (i : Nat) : Prop where
  reach : asyncSys.Reach s.async
  sending : ∀ f h addr, s.pc = .sending f h addr → h.To addr ∧ h.bundle.length ≤ maxBundleSize ∧
    (∃ x, h.SentBy i addr f s.async x) ∧ ∀ r ∈ s.log, r.future ≠ some f
  log : ∀ r ∈ s.log, r.Right i s.async
  futures : ∀ r ∈ s.log, ∀ f, r.future = some f → ∃ x, s.async.send f = some x
  once : s.log.Pairwise fun r r' => ∀ f, r.future = some f → r'.future ≠ some f
  ended : s.pc = .ended → s.async.shutdown = true

section Grows

variable {s s' : AsyncNodes} {h : TransmitBundle} {addr : CspclAddr} {i f : Nat} {r : Resolved}
  {err : CspclError} {x : AsyncSend}

theorem TransmitBundle.SentBy.grows (hx : h.SentBy i addr f s x) (hg : s.Grows s') :
    ∃ x', h.SentBy i addr f s' x' ∧ ∀ k, x.call = some k → x'.call = some k := by
  obtain ⟨x', hx', hargs, hcall⟩ := hg.send f x hx.1
  exact ⟨x', ⟨hx', hargs.trans hx.2⟩, hcall⟩

theorem TransmitBundle.Got.grows (hx : h.Got i addr f s err) (hg : s.Grows s') :
    h.Got i addr f s' err := by
  obtain ⟨x, k, hx, hk, y, hy, hyk, herr⟩ := hx
  obtain ⟨x', hx', hcall⟩ := hx.grows hg
  refine ⟨x', k, hx', hcall k hk, y, hg.sent y hy, hyk.trans ?_, herr⟩
  rw [hx.2, hx'.2]

theorem Resolved.Right.grows (hr : r.Right i s) (hg : s.Grows s') : r.Right i s' := by
  unfold Right at hr ⊢
  split at hr
  · obtain ⟨addr, hto, hwhy⟩ := hr
    refine ⟨addr, hto, ?_⟩
    rcases hwhy with hempty | hlarge | ⟨f, hf, hgot⟩
    · exact .inl hempty
    · exact .inr (.inl hlarge)
    · exact .inr (.inr ⟨f, hf, hgot.grows hg⟩)
  · refine ⟨hr.1, hr.2.imp_right ?_⟩
    rintro ⟨addr, hto, hle, hwhy⟩
    refine ⟨addr, hto, hle, ?_⟩
    rcases hwhy with hsh | ⟨f, err, hf, hgot, herr⟩
    · exact .inl (hg.shutdown hsh)
    · exact .inr ⟨f, err, hf, hgot.grows hg, herr⟩

end Grows

/-- In every run, the instances stay alive. -/
theorem nodes_live : nodesSys.Inductive fun n => n.d.Live where
  init n hn := by
    obtain ⟨proc, inst, maxAgeEnv, globals, now, hinst, rfl⟩ := hn
    exact World.live_new hinst fun _ => rfl
  step n op n' h hs := by
    rcases (Nodes.step_moves hs).d with hd | ⟨dop, hd, -⟩
    · exact hd ▸ h
    · exact h.step hd

theorem kind_fromRaw {err : CspclError} (h : err.ofTransport = true) (hne : err ≠ .ok) :
    FailureKind.of (.fromRaw err) = .retryable := by
  cases err with
  | ok => exact absurd rfl hne
  | connection | timeout | cspSend => rfl
  | _ => cases h

theorem sendRawResult_eq {err : CspclError} {r : Except Error Unit} (h : r = sendRawResult err) :
    r = .ok () ∧ err = .ok ∨ r = .error (.fromRaw err) ∧ err ≠ .ok := by
  unfold sendRawResult at h
  split at h
  · rename_i hok
    exact .inl ⟨h, hok⟩
  · rename_i hne
    exact .inr ⟨h, hne⟩

section Answer

variable {s : AsyncNodes} {h : TransmitBundle} {addr : CspclAddr} {i f : Nat} {x : AsyncSend}
  {r : Except Error Unit}

theorem transmitted_error {e : Error} :
    transmitted ((Except.error e : Except Error Unit).mapError .ofError) =
      match FailureKind.of e with
      | .retryable => (.deferred claTxErrorDeferDurationSeconds, false)
      | .permanent => (.forwarded, false)
      | .cancelled => (.deferred claTxErrorDeferDurationSeconds, true) := by
  simp only [Except.mapError, transmitted, SendError.kind_ofError]

/-- The call of the send has returned. -/
theorem right_of_sent {k : Nat} {y : Sent} (hs : asyncSys.Reach s) (hto : h.To addr)
    (hle : h.bundle.length ≤ maxBundleSize) (hx : h.SentBy i addr f s x) (hk : x.call = some k)
    (hy : y ∈ s.nodes.d.tx.sent) (hcall : y.call = x.sendCall k) (hr : r = sendRawResult y.err) :
    (⟨h, (transmitted (r.mapError .ofError)).1, some f⟩ : Resolved).Right i s ∧
      (transmitted (r.mapError .ofError)).2 = false := by
  have hgot : h.Got i addr f s y.err := ⟨x, k, hx, hk, y, hy, hcall, rfl⟩
  rcases sendRawResult_eq hr with ⟨rfl, hok⟩ | ⟨rfl, hne⟩
  · exact ⟨⟨addr, hto, .inr (.inr ⟨f, rfl, hok ▸ hgot⟩)⟩, rfl⟩
  · obtain ⟨n, hn, rfl⟩ := async_nodes.reach hs
    have hcoded : y.Coded := (nodes_live.reach hn).coded y hy
    have hb : y.call.bundle = h.bundle := by rw [hcall, hx.2]
    unfold Sent.Coded at hcoded
    rw [hb] at hcoded
    rw [transmitted_error]
    split at hcoded
    · rename_i hempty
      rw [hcoded]
      exact ⟨⟨addr, hto, .inl (List.length_eq_zero_iff.mp hempty)⟩, rfl⟩
    · rw [if_neg (Nat.not_lt.mpr hle)] at hcoded
      rw [kind_fromRaw hcoded hne]
      exact ⟨⟨rfl, .inr ⟨addr, hto, hle, .inr ⟨f, y.err, rfl, hgot, hcoded, hne⟩⟩⟩, rfl⟩

/-- The future of the send is ready. -/
theorem right_of_ready (hs : asyncSys.Reach s) (hto : h.To addr)
    (hle : h.bundle.length ≤ maxBundleSize) (hx : h.SentBy i addr f s x) (hr : x.future = .ready r) :
    (⟨h, (transmitted (r.mapError .ofError)).1, some f⟩ : Resolved).Right i s ∧
      ((transmitted (r.mapError .ofError)).2 = true → s.shutdown = true) := by
  have hb : x.bundle = h.bundle := congrArg SendCall.bundle (congrFun hx.2 0)
  rcases ((asyncSys_inv.reach hs).fits f x hx.1).returned hr with hret | ⟨rfl, -, hsh⟩
  · cases hc : x.call with
    | none =>
      rcases (AsyncSend.returned_none hc).mp hret with ⟨rfl, hempty⟩ | ⟨-, hdropped⟩
      · exact ⟨⟨addr, hto, .inl (hb.symm.trans hempty)⟩, nofun⟩
      · rw [hr] at hdropped
        cases hdropped
    | some k =>
      obtain ⟨y, hy, hcall, hres⟩ := (AsyncSend.returned_some hc).mp hret
      obtain ⟨hright, hgoes⟩ := right_of_sent hs hto hle hx hc hy hcall hres
      refine ⟨hright, fun hbreak => ?_⟩
      rw [hgoes] at hbreak
      cases hbreak
  · exact ⟨⟨rfl, .inr ⟨addr, hto, hle, .inl hsh⟩⟩, fun _ => hsh⟩

end Answer

namespace TxTask.Inv

variable {s s' : TxTask} {i f : Nat} {h : TransmitBundle} {o : Option Nat} {res : Fate × Bool}

theorem resolve (hinv : s.Inv i) (hright : (⟨h, res.1, o⟩ : Resolved).Right i s.async)
    (hsend : ∀ f, o = some f → (∃ x, s.async.send f = some x) ∧ ∀ r ∈ s.log, r.future ≠ some f)
    (hbreak : res.2 = true → s.async.shutdown = true) : (s.resolve h o res).Inv i where
  reach := hinv.reach
  sending g h' addr hpc := by
    simp only [TxTask.resolve] at hpc
    split at hpc <;> cases hpc
  log r hr := by
    rcases List.mem_append.mp hr with hr | hr
    · exact hinv.log r hr
    · obtain rfl := List.mem_singleton.mp hr
      exact hright
  futures r hr g hg := by
    rcases List.mem_append.mp hr with hr | hr
    · exact hinv.futures r hr g hg
    · obtain rfl := List.mem_singleton.mp hr
      exact (hsend g hg).1
  once := by
    refine List.pairwise_append.mpr ⟨hinv.once, List.pairwise_singleton .., ?_⟩
    intro r hr r' hr' g hg hg'
    obtain rfl := List.mem_singleton.mp hr'
    exact (hsend g hg').2 r hr hg
  ended hpc := by
    simp only [TxTask.resolve] at hpc
    split at hpc
    · rename_i hb
      exact hbreak hb
    · cases hpc

/-- The rest goes on. -/
theorem grows {async : AsyncNodes} (hinv : s.Inv i) (hr : asyncSys.Reach async)
    (hg : s.async.Grows async) : ({ s with async } : TxTask).Inv i where
  reach := hr
  sending f h addr hpc := by
    obtain ⟨hto, hle, ⟨x, hx⟩, hnew⟩ := hinv.sending f h addr hpc
    obtain ⟨x', hx', -⟩ := hx.grows hg
    exact ⟨hto, hle, ⟨x', hx'⟩, hnew⟩
  log r hr := (hinv.log r hr).grows hg
  futures r hr f hf := by
    obtain ⟨x, hx⟩ := hinv.futures r hr f hf
    obtain ⟨x', hx', -⟩ := hg.send f x hx
    exact ⟨x', hx'⟩
  once := hinv.once
  ended hpc := hg.shutdown (hinv.ended hpc)

theorem step {op : TxOp} (hinv : s.Inv i) (hs : s.step i op = some s') : s'.Inv i := by
  cases op with
  | offer h f =>
    simp only [TxTask.step] at hs
    split at hs
    · split at hs
      · rename_i addr hto
        split at hs
        · rename_i e hsize
          obtain rfl := Option.some.inj hs
          have hlarge : maxBundleSize < h.bundle.length := by
            unfold checkSize at hsize
            split at hsize
            · assumption
            · cases hsize
          exact hinv.resolve ⟨addr, hto, .inr (.inl hlarge)⟩ (by simp) (by rintro ⟨⟩)
        · rename_i hsize
          have hle : h.bundle.length ≤ maxBundleSize := by
            unfold checkSize at hsize
            split at hsize
            · cases hsize
            · omega
          obtain ⟨a, ha, rfl⟩ := Option.map_eq_some_iff.mp hs
          obtain ⟨b, hb, hpoll⟩ := Option.bind_eq_some_iff.mp ha
          have hrb : asyncSys.Reach b := hinv.reach.step (a := .create ..) hb
          have hgb := (asyncSys_inv.reach hinv.reach).step_grows hb
          have hga := (asyncSys_inv.reach hrb).step_grows hpoll
          have hnone : s.async.send f = none ∧ h.SentBy i addr f b
              ⟨i, h.bundle, addr.addr, addr.port, .created, false, .unspawned, none⟩ := by
            simp only [AsyncNodes.step] at hb
            split at hb
            · rename_i hnone
              obtain rfl := Option.some.inj hb
              exact ⟨hnone, Function.update_self .., rfl⟩
            · cases hb
          obtain ⟨x, hx, -⟩ := hnone.2.grows hga
          have hgrown := hinv.grows (hrb.step (a := .poll f) hpoll) (hgb.trans hga)
          refine { hgrown with sending := fun g h' addr' hpc => ?_, ended := (by simp) }
          cases hpc
          refine ⟨hto, hle, ⟨x, hx⟩, fun r hr hf => ?_⟩
          obtain ⟨x, hx⟩ := hinv.futures r hr f hf
          rw [hnone.1] at hx
          cases hx
      · rename_i hto
        obtain rfl := Option.some.inj hs
        refine hinv.resolve ⟨rfl, .inl fun addr hok => ?_⟩ (by simp) (by simp)
        cases hto.symm.trans hok
      · rename_i hto
        obtain rfl := Option.some.inj hs
        refine hinv.resolve ⟨rfl, .inl fun addr hok => ?_⟩ (by simp) (by simp)
        cases hto.symm.trans hok
    · cases hs
  | answer =>
    simp only [TxTask.step] at hs
    split at hs
    · rename_i f h addr hpc
      obtain ⟨hto, hle, ⟨x, hx⟩, hnew⟩ := hinv.sending f h addr hpc
      rw [hx.1] at hs
      split at hs
      · rename_i y hy
        obtain rfl := Option.some.inj hy
        split at hs
        · rename_i r hr
          obtain rfl := Option.some.inj hs
          obtain ⟨hright, hbreak⟩ := right_of_ready hinv.reach hto hle hx hr
          refine hinv.resolve hright (fun g hg => ?_) hbreak
          obtain rfl := Option.some.inj hg
          exact ⟨⟨x, hx.1⟩, hnew⟩
        · obtain rfl := Option.some.inj hs
          exact { hinv with sending := (by simp), ended := (by simp) }
        · cases hs
      · cases hs
    · cases hs
  | run op =>
    obtain ⟨a, ha, rfl⟩ := Option.map_eq_some_iff.mp hs
    exact hinv.grows (hinv.reach.step (a := op) ha) ((asyncSys_inv.reach hinv.reach).step_grows ha)

end TxTask.Inv

theorem txSys_inv (i : Nat) : (txSys i).Inductive (TxTask.Inv · i) where
  init s hs := by
    obtain ⟨async, ha, rfl⟩ := hs
    exact ⟨.init ha, nofun, nofun, nofun, .nil, nofun⟩
  step s op s' h hs := h.step hs

/-- The number of its call of `cspcl_send_bundle`. -/
def Resolved.call (r : Resolved) (s : AsyncNodes) : Option Nat :=
  (r.future.bind s.send).bind (·.call)

/-- What the task did with the bundles was right; `a` tells which bundles were received. -/
structure TxTask.Honest (s : TxTask) (i : Nat) (a : Traffic) : Prop where
  /-- A bundle that was forwarded has arrived because of its own send, unless it can never be sent. -/
  forwarded : ∀ r ∈ s.log, r.fate = .forwarded → ∃ addr, r.handle.To addr ∧
    (r.handle.bundle = [] ∨ maxBundleSize < r.handle.bundle.length ∨
      ∃ (k n : Nat) (q : Receipt) (x : Cspcl.Received), r.call s.async = some k ∧
      a.receipts[n]? = some q ∧ s.async.nodes.d.rx.received[n]? = some x ∧
      s.async.nodes.d.causedBy k x = true ∧ q.bundle.data = r.handle.bundle ∧
      s.async.nodes.IsAt q.inst addr.addr addr.port)
  /-- One that was deferred has no address to go to, or could not be sent this time. -/
  deferred : ∀ r ∈ s.log, ∀ seconds, r.fate = .deferred seconds →
    seconds = claTxErrorDeferDurationSeconds ∧
    ((∀ addr, ¬ r.handle.To addr) ∨ ∃ addr, r.handle.To addr ∧
      r.handle.bundle.length ≤ maxBundleSize ∧ (s.async.shutdown = true ∨
        ∃ k, r.call s.async = some k ∧ ∃ y ∈ s.async.nodes.d.tx.sent,
          y.call = ⟨k, i, r.handle.bundle, addr.addr, addr.port⟩ ∧ y.err.ofTransport = true ∧
          y.err ≠ .ok))
  /-- No two of them rest on one call. -/
  one : s.log.Pairwise fun r r' => ∀ k, r.call s.async = some k → r'.call s.async ≠ some k
  ended : s.pc = .ended → s.async.shutdown = true

theorem Resolved.call_eq {r : Resolved} {s : AsyncNodes} {i f : Nat} {addr : CspclAddr}
    {err : CspclError} (hf : r.future = some f) (hgot : r.handle.Got i addr f s err) :
    ∃ k, r.call s = some k ∧ ∃ y ∈ s.nodes.d.tx.sent,
      y.call = ⟨k, i, r.handle.bundle, addr.addr, addr.port⟩ ∧ y.err = err := by
  obtain ⟨x, k, hx, hk, y, hy, hcall, herr⟩ := hgot
  refine ⟨k, ?_, y, hy, hcall.trans (congrFun hx.2 k), herr⟩
  rw [Resolved.call, hf, Option.bind_some, hx.1, Option.bind_some, hk]

theorem transmit_honest {i : Nat} {s : TxTask} (hs : (txSys i).Reach s) :
    ∃ a, trafficSys.Reach a ∧ Shows s.async.nodes a ∧ s.Honest i a := by
  have h := (txSys_inv i).reach hs
  obtain ⟨n, hn, hnodes⟩ := async_nodes.reach h.reach
  obtain ⟨a, ha, hshows, he⟩ := end_to_end (hnodes ▸ hn)
  refine ⟨a, ha, hshows, fun r hr hfate => ?_, fun r hr seconds hfate => ?_, ?_, h.ended⟩
  · have hright := h.log r hr
    unfold Resolved.Right at hright
    rw [hfate] at hright
    obtain ⟨addr, hto, hwhy⟩ := hright
    refine ⟨addr, hto, hwhy.imp_right (Or.imp_right ?_)⟩
    rintro ⟨f, hf, hgot⟩
    obtain ⟨k, hk, y, hy, hcall, herr⟩ := Resolved.call_eq hf hgot
    obtain ⟨m, q, x, z, hq, hx, hz, hzcall, hdata, hat⟩ := he.delivered y hy herr
    rw [hcall] at hdata hat
    have hcaused : s.async.nodes.d.causedBy k x = true :=
      World.causedBy_iff.mpr ⟨z, hz, by rw [hzcall, hcall]⟩
    exact ⟨k, m, q, x, hk, hq, hx, hcaused, hdata, hat⟩
  · have hright := h.log r hr
    unfold Resolved.Right at hright
    rw [hfate] at hright
    refine ⟨hright.1, hright.2.imp_right ?_⟩
    rintro ⟨addr, hto, hle, hwhy⟩
    refine ⟨addr, hto, hle, hwhy.imp_right ?_⟩
    rintro ⟨f, err, hf, hgot, herr, hne⟩
    obtain ⟨k, hk, y, hy, hcall, rfl⟩ := Resolved.call_eq hf hgot
    exact ⟨k, hk, y, hy, hcall, herr, hne⟩
  · refine h.once.imp fun {r r'} hne k hk hk' => ?_
    obtain ⟨x, hx, hxk⟩ := Option.bind_eq_some_iff.mp hk
    obtain ⟨f, hf, hx⟩ := Option.bind_eq_some_iff.mp hx
    obtain ⟨x', hx', hxk'⟩ := Option.bind_eq_some_iff.mp hk'
    obtain ⟨g, hg, hx'⟩ := Option.bind_eq_some_iff.mp hx'
    obtain rfl := (asyncSys_inv.reach h.reach).one f g x x' k hx hx' hxk hxk'
    exact hne f hf hg

namespace Spooled

open Cspcl.Crossing

/-- A bundle of one byte for the node with the address `2`. -/
def handle : TransmitBundle := ⟨some ['2', ':', '1', '0'], [1]⟩

/-- The spool offers a bundle without an address and then this one, whose send goes as in `awaits`. -/
def transmits : List TxOp :=
  [.offer ⟨none, []⟩ 0, .offer handle 0] ++ (awaits.drop 2).map TxOp.run ++ [.answer]

end Spooled

open Spooled Cspcl.Crossing in
theorem transmit_honest_crossing : ∃ s a, (txSys 0).exec ⟨.new start, .waiting, []⟩ transmits =
    some s ∧ s.log.map (·.fate) = [.deferred 1, .forwarded] ∧ s.Honest 0 a := by
  have h : ((txSys 0).exec ⟨.new start, .waiting, []⟩ transmits).map (fun s => s.log.map (·.fate)) =
      some [.deferred 1, .forwarded] := by
    decide +kernel
  obtain ⟨s, hs, hlog⟩ := Option.map_eq_some_iff.mp h
  have hreach : (txSys 0).Reach s :=
    .of_exec ⟨_, ⟨start, ⟨_, _, _, _, _, fun _ => rfl, rfl⟩, rfl⟩, rfl⟩ hs
  obtain ⟨a, -, -, ha⟩ := transmit_honest hreach
  exact ⟨s, a, hs, hlog, ha⟩

end Cspcl.Picod3tn
