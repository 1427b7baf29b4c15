import Cspcl.Hardy.Dispatcher
import Cspcl.Receive.GateStreams

/-!
# The CLA of hardy

`Cla` of `rust-bindings/hardy-cspcl/src/lib.rs` over its `Transport` (`Gate`): any number of
dispatchers (`dispatcher.rs`) that its user starts, with the threads that open their streams, and
any number of calls of `cleanup`, which cancels the dispatchers and then closes.

* `TaskPlace`: where a dispatcher's task is. Each `select!` looks at the token first (`checked`: it
  was not cancelled), and then at what it waits for.
* `ClaState`, `claSys`: any interleaving. The delays of `Backoff` are those of `Dispatcher`; here a
  pause takes any time.
* `ClaInv`: which open is whose, and which bundles were dispatched.
-/

namespace Cspcl.Hardy

open Inbound Receive

/-- What a `select!` of a dispatcher waits for, besides the token. `o`: the open whose answer or
stream it is. -/
inductive Awaits where
  /-- `transport.inbound_stream()`, which was not polled yet. -/
  | stream
  | answer (o : Nat)
  /-- `stream.try_next()`. -/
  | item (o : Nat)
  /-- `tokio::time::sleep` in `Backoff::wait`. -/
  | sleep
  deriving DecidableEq, Repr

/-- Where the task of a dispatcher is. -/
inductive TaskPlace where
  | unstarted
  /-- About to look at the token. -/
  | select (a : Awaits)
  /-- The token was not cancelled. -/
  | checked (a : Awaits)
  /-- In `sink.dispatch`. -/
  | dispatching (o : Nat)
  | ended
  deriving DecidableEq, Repr

namespace TaskPlace

/-- The open that is the task's. -/
def request : TaskPlace → Option Nat
  | select (.answer o) | checked (.answer o) | select (.item o) | checked (.item o) |
    dispatching o => some o
  | _ => none

/-- The open whose stream the task has. -/
def streaming : TaskPlace → Option Nat
  | select (.item o) | checked (.item o) | dispatching o => some o
  | _ => none

end TaskPlace

variable {ι : Type}

/-- A call of `sink.dispatch` by a task, for a bundle of the stream of the open `request`. -/
structure SinkCall (ι : Type) where
  task : Nat
  request : Nat
  delivery : Delivery
  call : Dispatch ι
  deriving DecidableEq

/-- The call that the task `d` makes for a bundle of the open `o`. -/
def sinkCall (table : CspAddress → Option ι) (d o : Nat) (x : Delivery) : SinkCall ι :=
  ⟨d, o, x, dispatchCall table x.bundle⟩

/-- A `Cla`. `requests`: how many opens were asked for; `cleanups`: the calls of `cleanup` that have
cancelled. -/
structure ClaState (ι : Type) where
  gate : Gate
  registered : Bool
  cancelled : Bool
  cleanups : Nat → Bool
  task : Nat → TaskPlace
  requests : Nat
  calls : List (SinkCall ι)

/-- A step. `k`: a call of `cleanup`; `d`: a dispatcher. -/
inductive ClaOp where
  /-- A step of the opening threads, of `transport.cleanup`, or of the streams. -/
  | gate (op : GateOp)
  /-- `on_register`. -/
  | register
  /-- `start_dispatcher`. -/
  | start (d : Nat)
  /-- `cancel_dispatcher.cancel()`. -/
  | cancel (k : Nat)
  /-- A `select!` looks at the token. -/
  | check (d now : Nat)
  /-- It looks at what it waits for. `ok`: the thread that opens has started, or the pause is
  over. -/
  | poll (d : Nat) (ok : Bool) (now : Nat)
  /-- `sink.dispatch` returns. -/
  | dispatched (d : Nat)

namespace ClaState

/-- `Cla::new`. -/
def new (now : Nat) : ClaState ι where
  gate := .new now
  registered := false
  cancelled := false
  cleanups _ := false
  task _ := .unstarted
  requests := 0
  calls := []

def setTask (s : ClaState ι) (d : Nat) (p : TaskPlace) : ClaState ι :=
  { s with task := Function.update s.task d p }

/-- A step of the gate. -/
def run (s : ClaState ι) (op : GateOp) : Option (ClaState ι) :=
  (s.gate.step op).map fun gate => { s with gate }

/-- The steps that are not a dispatcher's. A call of `cleanup` has cancelled before it closes. -/
def allows (s : ClaState ι) : GateOp → Bool
  | .start _ | .poll _ | .drop _ _ => false
  | .shutLock k => s.cleanups k
  | _ => true

/-- The task leaves its loop, and drops what it has. -/
def leave (s : ClaState ι) (d now : Nat) (p : TaskPlace) : Option (ClaState ι) :=
  match p.request with
  | some o => (s.setTask d .ended).run (.drop o now)
  | none => some (s.setTask d .ended)

def step (table : CspAddress → Option ι) (s : ClaState ι) : ClaOp → Option (ClaState ι)
  | .gate op => if s.allows op then s.run op else none
  | .register => some { s with registered := true }
  | .start d =>
    if s.registered ∧ s.task d = .unstarted then some (s.setTask d (.select .stream)) else none
  | .cancel k => some { s with cancelled := true, cleanups := Function.update s.cleanups k true }
  | .check d now =>
    match s.task d with
    | .select a =>
      if s.cancelled then s.leave d now (.select a) else some (s.setTask d (.checked a))
    | _ => none
  | .poll d ok now =>
    match s.task d with
    | .checked .stream =>
      if ok then
        { s.setTask d (.checked (.answer s.requests)) with requests := s.requests + 1 }.run
          (.start s.requests)
      else some (s.setTask d (.select .sleep))
    | .checked (.answer o) =>
      some (s.setTask d
        (match s.gate.answer o with
         | some .stream => .select (.item o)
         | some .closed => .ended
         | some .failed => .select .sleep
         | none => .select (.answer o)))
    | .checked (.item o) =>
      match s.gate.next o with
      | .ready (.ok x) =>
        { s.setTask d (.dispatching o) with
          calls := s.calls ++ [sinkCall table d o x] }.run (.poll o)
      -- An error is logged.
      | .ready (.error _) | .pending => (s.setTask d (.select (.item o))).run (.poll o)
      -- The poll leaves an empty stream as it is.
      | .ended => (s.setTask d (.select .sleep)).run (.drop o now)
    | .checked .sleep => some (s.setTask d (.select (if ok then .stream else .sleep)))
    | _ => none
  | .dispatched d =>
    match s.task d with
    | .dispatching o => some (s.setTask d (.select (.item o)))
    | _ => none

end ClaState

/-- All interleavings of a new CLA with the peers. -/
def claSys (peers : List (PeerConfig ι)) : Lts (ClaState ι) ClaOp where
  init s := ∃ now, s = .new now
  step := ClaState.step (cspToEndpoint peers)

/-! ## The invariant -/

/-- Which open is whose. -/
structure TaskInv (g : Gate) (task : Nat → TaskPlace) (requests : Nat) : Prop where
  fresh : ∀ o, requests ≤ o → g.opener o = .idle ∧ g.gone o = false
  lt_requests : ∀ d o, (task d).request = some o → o < requests
  inj : ∀ d d' o, (task d).request = some o → (task d').request = some o → d = d'
  kept : ∀ d o, (task d).request = some o → g.gone o = false
  streamed : ∀ d o, (task d).streaming = some o → g.answer o = some .stream
  /-- An open that has no task was dropped, or opened no stream. -/
  asked : ∀ o, o < requests → g.gone o = true ∨ (∃ d, (task d).request = some o) ∨
    g.answer o = some .closed ∨ g.answer o = some .failed

variable {g g' : Gate} {task : Nat → TaskPlace} {requests d o now : Nat} {p : TaskPlace}

namespace TaskInv

/-- A step of the gate that starts no open and drops none. -/
theorem gateStep {op : GateOp} (h : TaskInv g task requests) (hg : GateInv g)
    (hs : g.step op = some g') (hstart : ∀ o, op ≠ .start o) (hdrop : op.drops = none) :
    TaskInv g' task requests := by
  have hf := gate_frame hg hs
  have hgone : ∀ o, g'.gone o = g.gone o := fun o => hf.gone o (by rw [hdrop]; nofun)
  exact {
    h with
    fresh := fun o ho => ⟨hf.idle o (h.fresh o ho).1 (hstart o), (hgone o).trans (h.fresh o ho).2⟩
    kept := fun d o hd => (hgone o).trans (h.kept d o hd)
    streamed := fun d o hd => hf.answer o _ (h.streamed d o hd)
    asked := fun o ho => by
      rw [hgone]
      exact (h.asked o ho).imp_right (Or.imp_right (Or.imp (hf.answer o _) (hf.answer o _))) }

/-- A task moves, and keeps its open. -/
theorem moves (h : TaskInv g task requests) (hreq : p.request = (task d).request)
    (hst : ∀ o, p.streaming = some o → g.answer o = some .stream) :
    TaskInv g (Function.update task d p) requests := by
  have hr : ∀ d', (Function.update task d p d').request = (task d').request := fun d' => by
    by_cases hd : d' = d
    · rw [hd, Function.update_self, hreq]
    · rw [Function.update_of_ne hd]
  refine ⟨h.fresh, fun d' o hd => ?_, fun d₁ d₂ o h₁ h₂ => ?_, fun d' o hd => ?_,
    fun d' o hd => ?_, fun o ho => ?_⟩
  · exact h.lt_requests d' o ((hr d').symm.trans hd)
  · exact h.inj d₁ d₂ o ((hr d₁).symm.trans h₁) ((hr d₂).symm.trans h₂)
  · exact h.kept d' o ((hr d').symm.trans hd)
  · by_cases hdd : d' = d
    · rw [hdd, Function.update_self] at hd
      exact hst o hd
    · rw [Function.update_of_ne hdd] at hd
      exact h.streamed d' o hd
  · simp only [hr]
    exact h.asked o ho

/-- A task has no open any more, which its requester has dropped or which gave it no stream. -/
theorem leaves (h : TaskInv g task requests) (hd : (task d).request = some o)
    (hp : p.request = none) (hst : p.streaming = none)
    (hidle : ∀ o, requests ≤ o → g.opener o = .idle → g'.opener o = .idle)
    (hgone : ∀ o', o' ≠ o → g'.gone o' = g.gone o')
    (hans : ∀ o a, g.answer o = some a → g'.answer o = some a)
    (ho : g'.gone o = true ∨ g'.answer o = some .closed ∨ g'.answer o = some .failed) :
    TaskInv g' (Function.update task d p) requests := by
  have hr : ∀ d' o', (Function.update task d p d').request = some o' →
      d' ≠ d ∧ (task d').request = some o' := fun d' o' hd' => by
    by_cases hdd : d' = d
    · rw [hdd, Function.update_self, hp] at hd'
      cases hd'
    · rw [Function.update_of_ne hdd] at hd'
      exact ⟨hdd, hd'⟩
  have hlt := h.lt_requests d o hd
  refine ⟨fun o' ho' => ?_, fun d' o' hd' => ?_, fun d₁ d₂ o' h₁ h₂ => ?_, fun d' o' hd' => ?_,
    fun d' o' hd' => ?_, fun o' ho' => ?_⟩
  · have hold := h.fresh o' ho'
    exact ⟨hidle o' ho' hold.1, (hgone o' (by omega)).trans hold.2⟩
  · exact h.lt_requests d' o' (hr d' o' hd').2
  · exact h.inj d₁ d₂ o' (hr d₁ o' h₁).2 (hr d₂ o' h₂).2
  · obtain ⟨hdd, hd'⟩ := hr d' o' hd'
    have hne : o' ≠ o := by
      rintro rfl
      exact hdd (h.inj d' d o' hd' hd)
    exact (hgone o' hne).trans (h.kept d' o' hd')
  · by_cases hdd : d' = d
    · rw [hdd, Function.update_self, hst] at hd'
      cases hd'
    · rw [Function.update_of_ne hdd] at hd'
      exact hans o' _ (h.streamed d' o' hd')
  · by_cases hoo : o' = o
    · subst hoo
      exact ho.imp_right .inr
    · rcases h.asked o' ho' with hg | ⟨d', hd'⟩ | ha
      · exact .inl ((hgone o' hoo).trans hg)
      · have hdd : d' ≠ d := by
          rintro rfl
          rw [hd] at hd'
          exact hoo (Option.some.inj hd').symm
        refine .inr (.inl ⟨d', ?_⟩)
        rwa [Function.update_of_ne hdd]
      · exact .inr (.inr (ha.imp (hans o' _) (hans o' _)))

/-- A task asks for a stream. -/
theorem asks (h : TaskInv g task requests) (hg : GateInv g) (hd : (task d).request = none)
    (hs : g.step (.start requests) = some g') :
    TaskInv g' (Function.update task d (.checked (.answer requests))) (requests + 1) := by
  have hf := gate_frame hg hs
  have hgone : ∀ o, g'.gone o = g.gone o := fun o => hf.gone o nofun
  have hself : (Function.update task d (.checked (.answer requests)) d).request =
      some requests := by
    rw [Function.update_self]
    rfl
  have hr : ∀ d' o, (Function.update task d (.checked (.answer requests)) d').request = some o →
      d' = d ∧ o = requests ∨ (task d').request = some o := fun d' o hd' => by
    by_cases hdd : d' = d
    · rw [hdd, hself] at hd'
      exact .inl ⟨hdd, (Option.some.inj hd').symm⟩
    · rw [Function.update_of_ne hdd] at hd'
      exact .inr hd'
  have hlt : ∀ d', (task d').request ≠ some requests := fun d' hd' =>
    Nat.lt_irrefl _ (h.lt_requests d' _ hd')
  refine ⟨fun o ho => ?_, fun d' o hd' => ?_, fun d₁ d₂ o h₁ h₂ => ?_, fun d' o hd' => ?_,
    fun d' o hd' => ?_, fun o ho => ?_⟩
  · have hold := h.fresh o (by omega)
    exact ⟨hf.idle o hold.1 (by rintro ⟨⟩; omega), (hgone o).trans hold.2⟩
  · rcases hr d' o hd' with ⟨-, rfl⟩ | hd'
    · omega
    · have := h.lt_requests d' o hd'
      omega
  · rcases hr d₁ o h₁ with ⟨rfl, rfl⟩ | h₁'
    · rcases hr d₂ _ h₂ with ⟨rfl, -⟩ | h₂'
      · rfl
      · exact absurd h₂' (hlt d₂)
    · rcases hr d₂ o h₂ with ⟨rfl, rfl⟩ | h₂'
      · exact absurd h₁' (hlt d₁)
      · exact h.inj d₁ d₂ o h₁' h₂'
  · rw [hgone]
    rcases hr d' o hd' with ⟨-, rfl⟩ | hd'
    · exact (h.fresh _ (Nat.le_refl _)).2
    · exact h.kept d' o hd'
  · by_cases hdd : d' = d
    · rw [hdd, Function.update_self] at hd'
      cases hd'
    · rw [Function.update_of_ne hdd] at hd'
      exact hf.answer o _ (h.streamed d' o hd')
  · rw [hgone]
    by_cases hoo : o = requests
    · exact .inr (.inl ⟨d, hoo ▸ hself⟩)
    · rcases h.asked o (by omega) with hg | ⟨d', hd'⟩ | ha
      · exact .inl hg
      · have hdd : d' ≠ d := by
          rintro rfl
          rw [hd] at hd'
          cases hd'
        refine .inr (.inl ⟨d', ?_⟩)
        rwa [Function.update_of_ne hdd]
      · exact .inr (.inr (ha.imp (hf.answer o _) (hf.answer o _)))

end TaskInv

/-- The bundles of the stream of the open `o` that were dispatched. -/
def ClaState.dispatched (s : ClaState ι) (o : Nat) : List Delivery :=
  (s.calls.filter (·.request = o)).map SinkCall.delivery

structure ClaInv (table : CspAddress → Option ι) (s : ClaState ι) : Prop where
  gate : gateSys.Reach s.gate
  tasks : TaskInv s.gate s.task s.requests
  cleanups : ∀ k, s.gate.closer k ≠ .idle → s.cleanups k = true
  cancelled : ∀ k, s.cleanups k = true → s.cancelled = true
  /-- What a stream gave its task was dispatched. -/
  given : ∀ o, s.dispatched o = s.gate.given o
  call : ∀ c ∈ s.calls, c.call = dispatchCall table c.delivery.bundle

namespace ClaInv

variable {table : CspAddress → Option ι} {s s' : ClaState ι}

/-- A task moves, without a step of the gate. -/
theorem setTask (h : ClaInv table s) (ht : TaskInv s.gate (Function.update s.task d p) s.requests) :
    ClaInv table (s.setTask d p) :=
  ⟨h.gate, ht, h.cleanups, h.cancelled, h.given, h.call⟩

/-- A step of the gate that takes no item from a stream. -/
theorem run {v : ClaState ι} {op : GateOp} (h : ClaInv table s) (hs : v.run op = some s')
    (hgate : v.gate = s.gate) (hcalls : v.calls = s.calls) (hcl : v.cleanups = s.cleanups)
    (hca : v.cancelled = s.cancelled) (hpoll : ∀ o, op ≠ .poll o)
    (hlock : ∀ k, op = .shutLock k → s.cleanups k = true)
    (ht : ∀ g', s.gate.step op = some g' → TaskInv g' v.task v.requests) : ClaInv table s' := by
  obtain ⟨g', hg', rfl⟩ := Option.map_eq_some_iff.mp hs
  rw [hgate] at hg'
  refine ⟨h.gate.step (a := op) hg', ht g' hg', fun k hk => ?_, fun k hk => ?_, fun o => ?_, ?_⟩
  · show v.cleanups k = true
    rw [hcl]
    rcases Gate.step_closer hg' hk with hk | rfl
    · exact h.cleanups k hk
    · exact hlock k rfl
  · show v.cancelled = true
    rw [hca]
    have hk' : v.cleanups k = true := hk
    rw [hcl] at hk'
    exact h.cancelled k hk'
  · have hd : ClaState.dispatched { v with gate := g' } o = s.dispatched o := by
      unfold ClaState.dispatched
      rw [← hcalls]
    rw [hd, h.given o]
    exact (Gate.given_step h.gate hg' (hpoll o)).symm
  · show ∀ c ∈ v.calls, _
    rw [hcalls]
    exact h.call

/-- A task polls its stream, and dispatches what it gets. -/
theorem poll {l : List Delivery} (h : ClaInv table s)
    (ht : s.task d = .checked (.item o)) (hp : p.request = some o) (hst : p.streaming = some o)
    (hl : s.gate.taken o = l)
    (hs : ClaState.run { s.setTask d p with
      calls := s.calls ++ l.map (sinkCall table d o) } (.poll o) =
        some s') : ClaInv table s' := by
  have hinv := gateSys_inv.reach h.gate
  obtain ⟨g', hg', rfl⟩ := Option.map_eq_some_iff.mp hs
  have hg : s.gate.step (.poll o) = some g' := hg'
  have hreq : p.request = (s.task d).request := by rw [hp, ht]; rfl
  have hans := h.tasks.streamed d o (by rw [ht]; rfl)
  refine ⟨h.gate.step (a := .poll o) hg, ?_, fun k hk => ?_, h.cancelled, fun o' => ?_, ?_⟩
  · refine (h.tasks.gateStep hinv hg nofun rfl).moves hreq fun o' ho' => ?_
    rw [hst] at ho'
    cases ho'
    exact (gate_frame hinv hg).answer o _ hans
  · exact h.cleanups k ((Gate.step_closer hg hk).resolve_right nofun)
  · show ((s.calls ++ l.map (sinkCall table d o)).filter
      (·.request = o')).map SinkCall.delivery = g'.given o'
    rw [List.filter_append, List.map_append]
    show s.dispatched o' ++ _ = _
    rw [h.given o']
    by_cases hoo : o' = o
    · subst hoo
      rw [Gate.given_poll hg, hl]
      congr 1
      rw [List.filter_eq_self.mpr (by simp [sinkCall]), List.map_map]
      exact List.map_id' l
    · rw [Gate.given_step h.gate hg (by rintro ⟨⟩; exact hoo rfl), List.filter_eq_nil_iff.mpr]
      · exact List.append_nil _
      · intro c hc
        obtain ⟨x, -, rfl⟩ := List.mem_map.mp hc
        exact fun hc => hoo (of_decide_eq_true hc).symm
  · intro c hc
    rcases List.mem_append.mp hc with hc | hc
    · exact h.call c hc
    · obtain ⟨x, -, rfl⟩ := List.mem_map.mp hc
      rfl

theorem leave (h : ClaInv table s) (hr : p.request = (s.task d).request)
    (hs : s.leave d now p = some s') : ClaInv table s' := by
  have hinv := gateSys_inv.reach h.gate
  unfold ClaState.leave at hs
  split at hs
  · rename_i o ho
    refine h.run (v := s.setTask d .ended) hs rfl rfl rfl rfl nofun nofun fun g' hg' => ?_
    have hf := gate_frame hinv hg'
    exact h.tasks.leaves (hr.symm.trans ho) rfl rfl (fun o _ ho => hf.idle o ho nofun)
      (fun o' hne => hf.gone o' fun he => hne (Option.some.inj he).symm) hf.answer
      (.inl (Gate.gone_drop hg'))
  · rename_i hn
    obtain rfl := Option.some.inj hs
    exact h.setTask (h.tasks.moves (hn.symm.trans hr) nofun)

theorem step {op : ClaOp} (h : ClaInv table s) (hs : s.step table op = some s') :
    ClaInv table s' := by
  have hinv := gateSys_inv.reach h.gate
  cases op with
  | gate op =>
    simp only [ClaState.step] at hs
    split at hs
    · rename_i hallow
      refine h.run hs rfl rfl rfl rfl (by rintro o rfl; cases hallow)
        (by rintro k rfl; exact hallow) fun g' hg' => ?_
      refine h.tasks.gateStep hinv hg' (by rintro o rfl; cases hallow) ?_
      cases op <;> first | rfl | cases hallow
    · cases hs
  | register =>
    obtain rfl := Option.some.inj hs
    exact ⟨h.gate, h.tasks, h.cleanups, h.cancelled, h.given, h.call⟩
  | start d =>
    simp only [ClaState.step] at hs
    split at hs
    · rename_i hd
      obtain rfl := Option.some.inj hs
      exact h.setTask (h.tasks.moves (by rw [hd.2]; rfl) (by rintro _ ⟨⟩))
    · cases hs
  | cancel k =>
    obtain rfl := Option.some.inj hs
    refine ⟨h.gate, h.tasks, fun k' hk' => ?_, fun _ _ => rfl, h.given, h.call⟩
    dsimp only
    by_cases hkk : k' = k
    · rw [hkk, Function.update_self]
    · rw [Function.update_of_ne hkk]
      exact h.cleanups k' hk'
  | check d now =>
    simp only [ClaState.step] at hs
    split at hs
    · rename_i a ha
      split at hs
      · exact h.leave (by rw [ha]) hs
      · obtain rfl := Option.some.inj hs
        refine h.setTask (h.tasks.moves (by rw [ha]; cases a <;> rfl) fun o ho => ?_)
        refine h.tasks.streamed d o ?_
        rw [ha]
        cases a <;> exact ho
    · cases hs
  | poll d ok now =>
    simp only [ClaState.step] at hs
    split at hs
    · rename_i hd
      split at hs
      · exact h.run hs rfl rfl rfl rfl (by simp) (by simp) fun g' hg' =>
          h.tasks.asks hinv (by rw [hd]; rfl) hg'
      · obtain rfl := Option.some.inj hs
        exact h.setTask (h.tasks.moves (by rw [hd]; rfl) (by rintro _ ⟨⟩))
    · rename_i o hd
      obtain rfl := Option.some.inj hs
      -- What the open's thread answered.
      have hleaves : ∀ p : TaskPlace, p.request = none → p.streaming = none →
          (s.gate.answer o = some .closed ∨ s.gate.answer o = some .failed) →
          ClaInv table (s.setTask d p) := fun p hp hst ha =>
        h.setTask (h.tasks.leaves (by rw [hd]; rfl) hp hst (fun _ _ ho => ho) (fun _ _ => rfl)
          (fun _ _ ha => ha) (.inr ha))
      split
      · rename_i ha
        refine h.setTask (h.tasks.moves (by rw [hd]; rfl) fun o' ho' => ?_)
        cases ho'
        exact ha
      · rename_i ha
        exact hleaves _ rfl rfl (.inl ha)
      · rename_i ha
        exact hleaves _ rfl rfl (.inr ha)
      · exact h.setTask (h.tasks.moves (by rw [hd]; rfl) (by rintro _ ⟨⟩))
    · rename_i o hd
      split at hs
      · rename_i x hx
        exact h.poll (l := [x]) hd rfl rfl (by rw [Gate.taken, hx]) hs
      · rename_i e hx
        refine h.poll (l := []) (p := .select (.item o)) hd rfl rfl (by rw [Gate.taken, hx]) ?_
        rw [List.map_nil, List.append_nil]
        exact hs
      · rename_i hx
        refine h.poll (l := []) (p := .select (.item o)) hd rfl rfl (by rw [Gate.taken, hx]) ?_
        rw [List.map_nil, List.append_nil]
        exact hs
      · refine h.run hs rfl rfl rfl rfl (by simp) (by simp) fun g' hg' => ?_
        have hf := gate_frame hinv hg'
        exact h.tasks.leaves (by rw [hd]; rfl) rfl rfl (fun o _ ho => hf.idle o ho (by simp))
          (fun o' hne => hf.gone o' fun he => hne (Option.some.inj he).symm) hf.answer
          (.inl (Gate.gone_drop hg'))
    · rename_i hd
      obtain rfl := Option.some.inj hs
      refine h.setTask (h.tasks.moves (by rw [hd]; split <;> rfl) ?_)
      split <;> rintro _ ⟨⟩
    · cases hs
  | dispatched d =>
    simp only [ClaState.step] at hs
    split at hs
    · rename_i o hd
      obtain rfl := Option.some.inj hs
      refine h.setTask (h.tasks.moves (by rw [hd]; rfl) fun o' ho' => ?_)
      exact h.tasks.streamed d o' (by rw [hd]; exact ho')
    · cases hs

end ClaInv

theorem claSys_inv (peers : List (PeerConfig ι)) :
    (claSys peers).Inductive (ClaInv (cspToEndpoint peers)) where
  init s hs := by
    obtain ⟨now, rfl⟩ := hs
    exact ⟨.init ⟨now, rfl⟩, ⟨fun _ _ => ⟨rfl, rfl⟩, nofun, nofun, nofun, nofun, nofun⟩,
      fun k hk => absurd rfl hk, nofun, fun _ => rfl, nofun⟩
  step _ _ _ h hs := h.step hs

end Cspcl.Hardy
