import Cspcl.Nodes.Async
import Cspcl.Nodes.Others
import Cspcl.Nodes.SendSteps

/-!
# The invariant of the futures

* `AsyncSend.Fits`: of one future, with its task and its call of `cspcl_send_bundle`.
* `AsyncInv`, `asyncSys_inv`: of all of them.
-/

namespace Cspcl

open Inbound (Error)

/-- The thread that runs the task. -/
def TaskAt.thread : TaskAt → Option Nat
  | .sending t _ | .dropping t _ => some t
  | .unspawned | .queued | .done _ => none

/-- How the task ends, once that is settled. -/
def TaskAt.outcome : TaskAt → Option (Except JoinError (Except Error Unit))
  | .sending _ (some r) => some (.ok r)
  | .dropping _ j | .done j => some j
  | .unspawned | .queued | .sending _ none => none

/-- What the future gave its caller: a result, or a panic (`none`). -/
def FutureAt.gave : FutureAt → Option (Option (Except Error Unit))
  | .ready r => some (some r)
  | .panicked => some none
  | .created | .awaiting | .dropped => none

namespace AsyncSend

/-- Its call number `k` of `cspcl_send_bundle`. -/
def sendCall (x : AsyncSend) (k : Nat) : SendCall := ⟨k, x.inst, x.bundle, x.addr, x.port⟩

/-- `send_raw` is right to return `r`. -/
def Returned (x : AsyncSend) (n : Nodes) (r : Except Error Unit) : Prop :=
  match x.call with
  | none => r = .error .invalidParam ∧ x.bundle = [] ∨ r = .error .cancelled ∧ x.future = .dropped
  | some k => ∃ y ∈ n.d.tx.sent, y.call = x.sendCall k ∧ r = sendRawResult y.err

def Joined (x : AsyncSend) (s : AsyncNodes) : Except JoinError (Except Error Unit) → Prop
  | .ok r => x.Returned s.nodes r
  | .error .cancelled => x.call = none ∧ s.shutdown = true
  | .error .panic => True

/-- Thread `t` is in `send_raw` for it. -/
def Sends (x : AsyncSend) (n : Nodes) (t : Nat) : Prop :=
  match x.call with
  | none => n.InSend t x.inst x.bundle x.addr x.port .turn
  | some k => n.InSend t x.inst x.bundle x.addr x.port .inC ∧
    (n.d.tx.send t).call = some (x.sendCall k)

theorem returned_none {x : AsyncSend} {n : Nodes} {r : Except Error Unit} (h : x.call = none) :
    x.Returned n r ↔
      r = .error .invalidParam ∧ x.bundle = [] ∨ r = .error .cancelled ∧ x.future = .dropped := by
  unfold Returned
  rw [h]

theorem returned_some {x : AsyncSend} {n : Nodes} {r : Except Error Unit} {k : Nat}
    (h : x.call = some k) :
    x.Returned n r ↔ ∃ y ∈ n.d.tx.sent, y.call = x.sendCall k ∧ r = sendRawResult y.err := by
  unfold Returned
  rw [h]

theorem sends_none {x : AsyncSend} {n : Nodes} {t : Nat} (h : x.call = none) :
    x.Sends n t ↔ n.InSend t x.inst x.bundle x.addr x.port .turn := by
  unfold Sends
  rw [h]

theorem sends_some {x : AsyncSend} {n : Nodes} {t k : Nat} (h : x.call = some k) :
    x.Sends n t ↔ n.InSend t x.inst x.bundle x.addr x.port .inC ∧
      (n.d.tx.send t).call = some (x.sendCall k) := by
  unfold Sends
  rw [h]

structure Fits (x : AsyncSend) (s : AsyncNodes) (f : Nat) : Prop where
  waits : x.task = .unspawned ∨ x.task = .queued → x.call = none
  worker : ∀ t, x.task.thread = some t → s.worker t = some f
  sends : ∀ t, x.task = .sending t none → x.Sends s.nodes t
  joined : ∀ j, x.task.outcome = some j → x.Joined s j
  created : x.future = .created → x.task = .unspawned
  cancelled : x.cancelled = true → x.future ≠ .created ∧ x.future ≠ .awaiting
  dropped : x.future = .dropped → x.task = .unspawned ∨ x.cancelled = true
  gave : ∀ r, x.future.gave = some r → ∃ j, x.task = .done j ∧ flattenJoin j = r

end AsyncSend

structure AsyncInv (s : AsyncNodes) : Prop where
  nodes : s.nodes.Inv
  fits : ∀ f x, s.send f = some x → x.Fits s f
  begun : ∀ f x k, s.send f = some x → x.call = some k → k < s.nodes.d.tx.started
  workers : ∀ f t, s.worker t = some f → ∃ x, s.send f = some x ∧ x.task.thread = some t
  /-- Each call of `cspcl_send_bundle` is of one future at most. -/
  one : ∀ f g x y k, s.send f = some x → s.send g = some y → x.call = some k → y.call = some k →
    f = g

/-- The nodes take a step, of a thread that runs the task of the future `o` or none, or no step. -/
def AsyncNodes.Turns (s s' : AsyncNodes) (o : Option Nat) : Prop :=
  s'.nodes = s.nodes ∨ ∃ op, s.nodes.step op = some s'.nodes ∧
    ∀ t, op.thread = some t → s.worker t = none ∨ s.worker t = o

/-- The calls that have begun and those that have returned stay so. -/
theorem Nodes.step_logs {n n' : Nodes} {op : NodesOp} (hs : n.step op = some n') :
    n.d.tx.started ≤ n'.d.tx.started ∧ ∀ y ∈ n.d.tx.sent, y ∈ n'.d.tx.sent := by
  rcases (Nodes.step_moves hs).d with hd | ⟨dop, hd, -⟩
  · rw [hd]
    exact ⟨le_refl _, fun y hy => hy⟩
  · obtain ⟨hn, l, hsent⟩ := World.step_logs hd
    exact ⟨hn, fun y hy => hsent ▸ List.mem_append_left l hy⟩

namespace AsyncInv

variable {s s' : AsyncNodes} {x x' : AsyncSend} {f g t i : Nat} {o : Option Nat}

theorem turns_logs (h : s.Turns s' o) : s.nodes.d.tx.started ≤ s'.nodes.d.tx.started ∧
    ∀ y ∈ s.nodes.d.tx.sent, y ∈ s'.nodes.d.tx.sent := by
  rcases h with h | ⟨op, hs, -⟩
  · rw [h]
    exact ⟨le_refl _, fun y hy => hy⟩
  · exact Nodes.step_logs hs

theorem turns_sends (h : s.Turns s' o) (hg : some g ≠ o) (hw : s.worker t = some g)
    (hx : x.Sends s.nodes t) : x.Sends s'.nodes t := by
  rcases h with h | ⟨op, hs, hop⟩
  · rw [h]
    exact hx
  · have ht : op.thread ≠ some t := by
      intro ht
      rcases hop t ht with h | h
      · rw [h] at hw
        cases hw
      · exact hg (hw.symm.trans h)
    have hm := Nodes.step_moves hs
    have hsend : s'.nodes.d.tx.send t = s.nodes.d.tx.send t := by
      rcases hm.d with hd | ⟨dop, hd, hdop⟩
      · rw [hd]
      · exact World.step_send hd fun hu => ht (hdop t hu)
    have hin : ∀ p, s.nodes.InSend t x.inst x.bundle x.addr x.port p →
        s'.nodes.InSend t x.inst x.bundle x.addr x.port p :=
      fun p ⟨w, hp⟩ => ⟨w, hm.thread t _ ht hp⟩
    cases hc : x.call with
    | none => exact (AsyncSend.sends_none hc).mpr (hin _ ((AsyncSend.sends_none hc).mp hx))
    | some k =>
      obtain ⟨hp, hk⟩ := (AsyncSend.sends_some hc).mp hx
      exact (AsyncSend.sends_some hc).mpr ⟨hin _ hp, hsend ▸ hk⟩

theorem Returned.mono {r : Except Error Unit} (h : x.Returned s.nodes r)
    (hsent : ∀ y ∈ s.nodes.d.tx.sent, y ∈ s'.nodes.d.tx.sent) : x.Returned s'.nodes r := by
  cases hc : x.call with
  | none => exact (AsyncSend.returned_none hc).mpr ((AsyncSend.returned_none hc).mp h)
  | some k =>
    obtain ⟨y, hy, hk⟩ := (AsyncSend.returned_some hc).mp h
    exact (AsyncSend.returned_some hc).mpr ⟨y, hsent y hy, hk⟩

theorem Joined.mono {j : Except JoinError (Except Error Unit)} (h : x.Joined s j)
    (hsent : ∀ y ∈ s.nodes.d.tx.sent, y ∈ s'.nodes.d.tx.sent)
    (hsh : s.shutdown = true → s'.shutdown = true) : x.Joined s' j := by
  cases j with
  | ok r => exact Returned.mono h hsent
  | error e =>
    cases e with
    | panic => trivial
    | cancelled => exact ⟨h.1, hsh h.2⟩

/-- Only a dropped future is told that its send was skipped. -/
theorem Joined.future {j : Except JoinError (Except Error Unit)} (h : x.Joined s j)
    (hcall : x'.call = x.call) (hk : x'.sendCall = x.sendCall) (hb : x'.bundle = x.bundle)
    (hz : x.future = .dropped → x'.future = .dropped) : x'.Joined s j := by
  cases j with
  | ok r =>
    cases hc : x.call with
    | none =>
      have h := (AsyncSend.returned_none hc).mp h
      refine (AsyncSend.returned_none (hcall.trans hc)).mpr ?_
      rw [hb]
      exact h.imp_right fun h => ⟨h.1, hz h.2⟩
    | some k =>
      refine (AsyncSend.returned_some (hcall.trans hc)).mpr ?_
      rw [hk]
      exact (AsyncSend.returned_some hc).mp h
  | error e =>
    cases e with
    | panic => trivial
    | cancelled => exact ⟨hcall.trans h.1, h.2⟩

/-- The steps of the others. -/
theorem Fits.mono (h : x.Fits s g) (hn : s.Turns s' o) (hg : some g ≠ o)
    (hw : ∀ t, s.worker t = some g → s'.worker t = some g)
    (hsh : s.shutdown = true → s'.shutdown = true) : x.Fits s' g :=
  { h with
    worker := fun t ht => hw t (h.worker t ht)
    sends := fun t ht => turns_sends hn hg (h.worker t (by rw [ht]; rfl)) (h.sends t ht)
    joined := fun j hj => Joined.mono (h.joined j hj) (turns_logs hn).2 hsh }

theorem turns_inv (h : AsyncInv s) (hn : s.Turns s' o) : s'.nodes.Inv := by
  rcases hn with hn | ⟨op, hs, -⟩
  · rw [hn]
    exact h.nodes
  · exact h.nodes.step hs

theorem thread_of_worker (h : AsyncInv s) (hx : s.send f = some x) (hw : s.worker t = some f) :
    x.task.thread = some t := by
  obtain ⟨y, hy, ht⟩ := h.workers f t hw
  rw [hx, Option.some.injEq] at hy
  rwa [hy]

/-- The future `f` gets to `x`. -/
theorem update (h : AsyncInv s) (hn : s.Turns s' (some f))
    (hsend : s'.send = Function.update s.send f (some x))
    (hw : ∀ t g, g ≠ f → (s'.worker t = some g ↔ s.worker t = some g))
    (hself : ∀ t, s'.worker t = some f → x.task.thread = some t)
    (hsh : s.shutdown = true → s'.shutdown = true) (hfit : x.Fits s' f)
    (hcall : ∀ k, x.call = some k → (∃ y, s.send f = some y ∧ y.call = some k) ∨
      k = s.nodes.d.tx.started ∧ k < s'.nodes.d.tx.started) : AsyncInv s' := by
  have hlog := (turns_logs hn).1
  have hother : ∀ g y, g ≠ f → s'.send g = some y → s.send g = some y := by
    intro g y hg hy
    rwa [hsend, Function.update_of_ne hg] at hy
  have heq : ∀ y, s'.send f = some y → y = x := by
    intro y hy
    rw [hsend, Function.update_self] at hy
    exact (Option.some.inj hy).symm
  have hold : ∀ g y k, g ≠ f → s'.send g = some y → y.call = some k → x.call ≠ some k := by
    intro g y k hg hy hk hx
    rcases hcall k hx with ⟨z, hz, hzk⟩ | ⟨rfl, -⟩
    · exact hg (h.one g f y z k (hother g y hg hy) hz hk hzk)
    · exact lt_irrefl _ (h.begun g y _ (hother g y hg hy) hk)
  refine ⟨turns_inv h hn, fun g y hy => ?_, fun g y k hy hk => ?_, fun g t ht => ?_,
    fun g g' y y' k hy hy' hk hk' => ?_⟩
  · by_cases hg : g = f
    · subst hg
      rw [heq y hy]
      exact hfit
    · exact Fits.mono (h.fits g y (hother g y hg hy)) hn (fun he => hg (Option.some.inj he))
        (fun t ht => (hw t g hg).mpr ht) hsh
  · by_cases hg : g = f
    · subst hg
      rw [heq y hy] at hk
      rcases hcall k hk with ⟨z, hz, hzk⟩ | ⟨-, hlt⟩
      · exact (h.begun g z k hz hzk).trans_le hlog
      · exact hlt
    · exact (h.begun g y k (hother g y hg hy) hk).trans_le hlog
  · by_cases hg : g = f
    · subst hg
      exact ⟨x, hsend ▸ Function.update_self .., hself t ht⟩
    · obtain ⟨y, hy, hyt⟩ := h.workers g t ((hw t g hg).mp ht)
      exact ⟨y, by rw [hsend, Function.update_of_ne hg, hy], hyt⟩
  · by_cases hg : g = f
    · by_cases hg' : g' = f
      · rw [hg, hg']
      · subst hg
        rw [heq y hy] at hk
        exact absurd hk (hold g' y' k hg' hy' hk')
    · by_cases hg' : g' = f
      · subst hg'
        rw [heq y' hy'] at hk'
        exact absurd hk' (hold g y k hg hy hk)
      · exact h.one g g' y y' k (hother g y hg hy) (hother g' y' hg' hy') hk hk'

/-- No future gets on. -/
theorem rest (h : AsyncInv s) (hn : s.Turns s' none) (hsend : s'.send = s.send)
    (hw : s'.worker = s.worker) (hsh : s.shutdown = true → s'.shutdown = true) : AsyncInv s' where
  nodes := turns_inv h hn
  fits g y hy := Fits.mono (h.fits g y (hsend ▸ hy)) hn nofun (fun _ ht => hw ▸ ht) hsh
  workers g t ht := by
    rw [hw] at ht
    rw [hsend]
    exact h.workers g t ht
  begun g y k hy hk := (h.begun g y k (hsend ▸ hy) hk).trans_le (turns_logs hn).1
  one g g' y y' k hy hy' := h.one g g' y y' k (hsend ▸ hy) (hsend ▸ hy')

/-! ## The steps of a future -/

/-- The call of the future is as before. -/
theorem same_call (hx : s.send f = some x) (hc : x'.call = x.call) (k : Nat)
    (hk : x'.call = some k) : (∃ y, s.send f = some y ∧ y.call = some k) ∨
      k = s.nodes.d.tx.started ∧ k < s'.nodes.d.tx.started :=
  .inl ⟨x, hx, hc ▸ hk⟩

/-- The task of the future gets on. -/
theorem Fits.task (h : x.Fits s f) (hf : x'.future = x.future) (hc : x'.cancelled = x.cancelled)
    (hx : x.task = .queued ∨ ∃ t, x.task.thread = some t)
    (hwaits : x'.task ≠ .unspawned ∧ x'.task ≠ .queued)
    (hworker : ∀ t, x'.task.thread = some t → s'.worker t = some f)
    (hsends : ∀ t, x'.task = .sending t none → x'.Sends s'.nodes t)
    (hjoined : ∀ j, x'.task.outcome = some j → x'.Joined s' j) : x'.Fits s' f := by
  have hun : x.task ≠ .unspawned := by
    intro hu
    rw [hu] at hx
    rcases hx with hx | ⟨t, hx⟩ <;> cases hx
  refine ⟨?_, hworker, hsends, hjoined, fun hd => ?_, fun hd => ?_, fun hd => ?_, fun r hr => ?_⟩
  · rintro (hu | hq)
    · exact absurd hu hwaits.1
    · exact absurd hq hwaits.2
  · exact absurd (h.created (hf ▸ hd)) hun
  · rw [hf]
    exact h.cancelled (hc ▸ hd)
  · rcases h.dropped (hf ▸ hd) with hu | hd
    · exact absurd hu hun
    · exact .inr (hc ▸ hd)
  · obtain ⟨j, hj, -⟩ := h.gave r (hf ▸ hr)
    rw [hj] at hx
    rcases hx with hx | ⟨t, hx⟩ <;> cases hx

theorem turns_dropArc {s₁ : AsyncNodes} (hs : s.dropArc t x = some s₁)
    (hw : s.worker t = none ∨ s.worker t = o) :
    s.Turns s₁ o ∧ s₁.send = s.send ∧ s₁.worker = s.worker ∧ s₁.shutdown = s.shutdown := by
  obtain ⟨n, hn, rfl⟩ := Option.map_eq_some_iff.mp hs
  refine ⟨.inr ⟨_, hn, fun u hu => ?_⟩, rfl, rfl, rfl⟩
  obtain rfl := Option.some.inj hu
  exact hw

theorem create {bundle : Bundle} {addr port : UInt8} (h : AsyncInv s)
    (hs : s.step (.create f i bundle addr port) = some s') : AsyncInv s' := by
  simp only [AsyncNodes.step] at hs
  split at hs
  · rename_i hnone
    obtain rfl := Option.some.inj hs
    refine h.update (.inl rfl) rfl (fun _ _ _ => Iff.rfl) (fun t ht => ?_) id ?_ nofun
    · obtain ⟨y, hy, -⟩ := h.workers f t ht
      rw [hnone] at hy
      cases hy
    exact ⟨fun _ => rfl, nofun, nofun, nofun, fun _ => rfl, nofun, nofun, nofun⟩
  · cases hs

theorem poll (h : AsyncInv s) (hs : s.step (.poll f) = some s') : AsyncInv s' := by
  simp only [AsyncNodes.step] at hs
  split at hs
  · rename_i x hx
    split at hs
    · rename_i hc
      obtain ⟨n, hn, rfl⟩ := Option.map_eq_some_iff.mp hs
      have hfit := h.fits f x hx
      refine h.update (.inr ⟨_, hn, nofun⟩) rfl (fun _ _ _ => Iff.rfl) (fun t ht => ?_) id ?_
        (same_call hx rfl)
      · have ht := h.thread_of_worker hx ht
        rw [hfit.created hc.1] at ht
        cases ht
      exact ⟨fun _ => hfit.waits (.inl (hfit.created hc.1)), nofun, nofun, nofun, nofun,
        fun hx => absurd hc.1 (hfit.cancelled hx).1, nofun, nofun⟩
    · cases hs
  · cases hs

theorem start {panics : Bool} (h : AsyncInv s) (hs : s.step (.start f t panics) = some s') :
    AsyncInv s' := by
  simp only [AsyncNodes.step] at hs
  split at hs
  · rename_i x hx
    have hfit := h.fits f x hx
    split at hs
    · rename_i hc
      obtain ⟨hq, hw, -⟩ := hc
      have hold : ∀ u g, g ≠ f →
          (Function.update s.worker t (some f) u = some g ↔ s.worker u = some g) := by
        intro u g hg
        by_cases hut : u = t
        · subst hut
          rw [Function.update_self, hw]
          exact ⟨fun he => absurd (Option.some.inj he).symm hg, nofun⟩
        · rw [Function.update_of_ne hut]
      have hself : ∀ u, Function.update s.worker t (some f) u = some f → u = t := by
        intro u hu
        by_contra hut
        rw [Function.update_of_ne hut] at hu
        have hu := h.thread_of_worker hx hu
        rw [hq] at hu
        cases hu
      split at hs
      · obtain ⟨s₁, hs₁, rfl⟩ := Option.map_eq_some_iff.mp hs
        obtain ⟨hn, hsend, hworker, hsh⟩ := turns_dropArc (o := some f) hs₁ (.inl hw)
        refine h.update hn (congrArg (Function.update · f _) hsend) (fun u g hg => ?_)
          (fun u hu => congrArg some (hself u ?_).symm) (fun hd => hsh.trans hd) ?_
          (same_call hx rfl)
        · show Function.update s₁.worker t (some f) u = some g ↔ _
          rw [hworker]
          exact hold u g hg
        · rw [← hworker]
          exact hu
        · refine Fits.task hfit rfl rfl (.inl hq) ⟨nofun, nofun⟩ (fun u hu => ?_) nofun fun j hj => ?_
          · obtain rfl := Option.some.inj hu
            exact Function.update_self ..
          · obtain rfl := Option.some.inj hj
            trivial
      · obtain ⟨n, hn, rfl⟩ := Option.map_eq_some_iff.mp hs
        have hnone : x.call = none := hfit.waits (.inr hq)
        refine h.update (.inr ⟨_, hn, fun u hu => ?_⟩) rfl hold
          (fun u hu => congrArg some (hself u hu).symm) id ?_ (same_call hx rfl)
        · obtain rfl := Option.some.inj hu
          exact .inl hw
        · refine Fits.task hfit rfl rfl (.inl hq) ⟨nofun, nofun⟩ (fun u hu => ?_) (fun u hu => ?_)
            fun j hj => ?_
          · obtain rfl := Option.some.inj hu
            exact Function.update_self ..
          · obtain ⟨rfl, hb⟩ := TaskAt.sending.inj hu
            have hb : x.bundle ≠ [] := fun he => by
              rw [if_pos he] at hb
              cases hb
            simp only [Nodes.step] at hn
            split at hn
            · obtain rfl := Option.some.inj hn
              refine (AsyncSend.sends_none hnone).mpr ?_
              simp only [Nodes.begin, if_neg hb]
              exact Nodes.inSend_goto
            · cases hn
          · by_cases hb : x.bundle = []
            · rw [if_pos hb] at hj
              obtain rfl := Option.some.inj hj
              exact (AsyncSend.returned_none hnone).mpr (.inl ⟨rfl, hb⟩)
            · rw [if_neg hb] at hj
              cases hj
    · cases hs
  · cases hs

theorem finish {panics : Bool} (h : AsyncInv s) (hs : s.step (.finish f panics) = some s') :
    AsyncInv s' := by
  simp only [AsyncNodes.step] at hs
  split at hs
  · rename_i x hx
    have hfit := h.fits f x hx
    split at hs
    · rename_i t r htask
      split at hs
      · obtain ⟨s₁, hs₁, rfl⟩ := Option.map_eq_some_iff.mp hs
        have hthread : x.task.thread = some t := by rw [htask]; rfl
        have hw := hfit.worker t hthread
        obtain ⟨hn, hsend, hworker, hsh⟩ := turns_dropArc (o := some f) hs₁ (.inr hw)
        refine h.update hn (congrArg (Function.update · f _) hsend) (fun u g _ => ?_) (fun u hu => ?_)
          (fun hd => hsh.trans hd) ?_ (same_call hx rfl)
        · show s₁.worker u = some g ↔ _
          rw [hworker]
        · exact (h.thread_of_worker hx ((congrFun hworker u).symm.trans hu)).symm.trans hthread ▸ rfl
        · refine Fits.task hfit rfl rfl (.inr ⟨t, hthread⟩) ⟨nofun, nofun⟩ (fun u hu => ?_) nofun
            fun j hj => ?_
          · obtain rfl := Option.some.inj hu
            exact (congrFun hworker t).trans hw
          · obtain rfl := Option.some.inj hj
            split
            · trivial
            · have hr : x.Joined s (.ok r) := hfit.joined _ (by rw [htask]; rfl)
              exact Joined.mono (x := x) hr (turns_logs hn).2 fun hd => hsh.trans hd
      · cases hs
    · cases hs
  · cases hs

theorem done (h : AsyncInv s) (hs : s.step (.done f) = some s') : AsyncInv s' := by
  simp only [AsyncNodes.step] at hs
  split at hs
  · rename_i x hx
    have hfit := h.fits f x hx
    split at hs
    · rename_i t j htask
      split at hs
      · obtain rfl := Option.some.inj hs
        have hthread : x.task.thread = some t := by rw [htask]; rfl
        have hw := hfit.worker t hthread
        refine h.update (.inl rfl) rfl (fun u g hg => ?_) (fun u hu => ?_) id ?_ (same_call hx rfl)
        · show Function.update s.worker t none u = some g ↔ _
          by_cases hut : u = t
          · subst hut
            rw [Function.update_self, hw]
            exact ⟨nofun, fun he => absurd (Option.some.inj he).symm hg⟩
          · rw [Function.update_of_ne hut]
        · by_cases hut : u = t
          · subst hut
            cases (Function.update_self ..).symm.trans hu
          · have hu := h.thread_of_worker hx ((Function.update_of_ne hut ..).symm.trans hu)
            exact absurd (Option.some.inj (hu.symm.trans hthread)) hut
        · refine Fits.task hfit rfl rfl (.inr ⟨t, hthread⟩) ⟨nofun, nofun⟩ nofun nofun
            fun k hk => ?_
          obtain rfl := Option.some.inj hk
          have hj : x.Joined s j := hfit.joined _ (by rw [htask]; rfl)
          exact Joined.mono (x := x) hj (fun _ hy => hy) id
      · cases hs
    · cases hs
  · cases hs

theorem drain (h : AsyncInv s) (hs : s.step (.drain f t) = some s') : AsyncInv s' := by
  simp only [AsyncNodes.step] at hs
  split at hs
  · rename_i x hx
    have hfit := h.fits f x hx
    split at hs
    · rename_i hc
      obtain ⟨hshut, hq, hw⟩ := hc
      obtain ⟨s₁, hs₁, rfl⟩ := Option.map_eq_some_iff.mp hs
      obtain ⟨hn, hsend, hworker, hsh⟩ := turns_dropArc (o := some f) hs₁ (.inl hw)
      refine h.update hn (congrArg (Function.update · f _) hsend) (fun u g _ => ?_) (fun u hu => ?_)
        (fun hd => hsh.trans hd) ?_ (same_call hx rfl)
      · show s₁.worker u = some g ↔ _
        rw [hworker]
      · have hu := h.thread_of_worker hx ((congrFun hworker u).symm.trans hu)
        rw [hq] at hu
        cases hu
      · refine Fits.task hfit rfl rfl (.inl hq) ⟨nofun, nofun⟩ nofun nofun fun j hj => ?_
        obtain rfl := Option.some.inj hj
        exact ⟨hfit.waits (.inr hq), hsh.trans hshut⟩
    · cases hs
  · cases hs

theorem resolve (h : AsyncInv s) (hs : s.step (.resolve f) = some s') : AsyncInv s' := by
  simp only [AsyncNodes.step] at hs
  split at hs
  · rename_i x hx
    have hfit := h.fits f x hx
    split at hs
    · rename_i j hfuture htask
      obtain rfl := Option.some.inj hs
      refine h.update (.inl rfl) rfl (fun _ _ _ => Iff.rfl) (fun _ => h.thread_of_worker (x := x) hx) id ?_
        (same_call hx rfl)
      refine ⟨hfit.waits, hfit.worker, hfit.sends, fun k hk => ?_, fun hc => ?_, fun _ => ?_,
        fun hd => ?_, fun r hr => ⟨j, htask, ?_⟩⟩
      · exact Joined.future (hfit.joined k hk) rfl rfl rfl fun hd => by rw [hfuture] at hd; cases hd
      · dsimp only at hc
        split at hc <;> cases hc
      · dsimp only
        split <;> exact ⟨nofun, nofun⟩
      · dsimp only at hd
        split at hd <;> cases hd
      · dsimp only at hr
        split at hr
        · rename_i r' hj
          exact hj.trans (Option.some.inj hr)
        · rename_i hj
          exact hj.trans (Option.some.inj hr)
    · cases hs
  · cases hs

theorem drop (h : AsyncInv s) (hs : s.step (.drop f) = some s') : AsyncInv s' := by
  simp only [AsyncNodes.step] at hs
  split at hs
  · rename_i x hx
    have hfit := h.fits f x hx
    split at hs
    · rename_i hfuture
      obtain rfl := Option.some.inj hs
      have htask := hfit.created hfuture
      refine h.update (.inl rfl) rfl (fun _ _ _ => Iff.rfl) (fun _ => h.thread_of_worker (x := x) hx) id ?_
        (same_call hx rfl)
      refine ⟨hfit.waits, hfit.worker, hfit.sends, fun j hj => ?_, nofun, fun _ => ⟨nofun, nofun⟩,
        fun _ => .inl htask, nofun⟩
      exact Joined.future (hfit.joined j hj) rfl rfl rfl fun _ => rfl
    · rename_i hfuture
      obtain rfl := Option.some.inj hs
      refine h.update (.inl rfl) rfl (fun _ _ _ => Iff.rfl) (fun _ => h.thread_of_worker (x := x) hx) id ?_
        (same_call hx rfl)
      refine ⟨hfit.waits, hfit.worker, hfit.sends, fun j hj => ?_, nofun, fun _ => ⟨nofun, nofun⟩,
        fun _ => .inr rfl, nofun⟩
      exact Joined.future (hfit.joined j hj) rfl rfl rfl fun _ => rfl
    · cases hs
  · cases hs

/-! ## The steps of the nodes -/

/-- A task that waits for its turn, or is in C, is not the one of a future with a result. -/
theorem dropped_of_cancelled (hfit : x.Fits s f) (ht : x.task = .sending t none)
    (hc : x.cancelled = true) : x.future = .dropped := by
  have hnot : ∀ r, x.future.gave ≠ some r := fun r hr => by
    obtain ⟨j, hj, -⟩ := hfit.gave r hr
    rw [ht] at hj
    cases hj
  obtain ⟨h₁, h₂⟩ := hfit.cancelled hc
  cases hf : x.future with
  | created => exact absurd hf h₁
  | awaiting => exact absurd hf h₂
  | ready r => exact absurd (by rw [hf]; rfl) (hnot (some r))
  | panicked => exact absurd (by rw [hf]; rfl) (hnot none)
  | dropped => rfl

theorem ne_idle {pc : SendPc} {k : SendCall} (h : pc.call = some k) : pc ≠ .idle := by
  rintro rfl
  cases h

/-- What a step of its thread does to a task in `send_raw`. -/
structure After (x x' : AsyncSend) (s : AsyncNodes) (n : Nodes) (t : Nat) : Prop where
  args : x'.sendCall = x.sendCall
  future : x'.future = x.future
  cancelled : x'.cancelled = x.cancelled
  task : ∃ r, x'.task = .sending t r
  sends : x'.task = .sending t none → x'.Sends n t
  returned : ∀ r, x'.task = .sending t (some r) → x'.Returned n r
  call : x'.call = x.call ∨ x.call = none ∧ x.cancelled = false ∧
    x'.call = some s.nodes.d.tx.started ∧ s.nodes.d.tx.started < n.d.tx.started

/-- `AsyncSend.after`, with what it depends on. -/
theorem after_eq {n : Nodes} {p : SendAt} {u : Nat} (ht : x.task = .sending u none)
    (hp : n.InSend t x.inst x.bundle x.addr x.port p) :
    ∃ c r, x.after t s.nodes n = { x with call := c, task := .sending t (if p = .leaving then some r else none) } ∧
      c = (if s.nodes.d.tx.started < n.d.tx.started then some s.nodes.d.tx.started else x.call) ∧
      (c = none → r = .error .cancelled) ∧
      ∀ k y l, c = some k → n.d.tx.sent = l ++ [y] → r = sendRawResult y.err := by
  obtain ⟨w, hp⟩ := hp
  unfold AsyncSend.after
  simp only [ht, hp]
  refine ⟨_, _, rfl, rfl, fun hc => ?_, fun k y l hc hsent => ?_⟩
  · rw [hc]
  · rw [hc, hsent, List.getLast?_concat]
    rfl

theorem after_spec {op : NodesOp} {n : Nodes} (hinv : s.nodes.Inv) (hfit : x.Fits s f)
    (ht : x.task = .sending t none) (hs : s.nodes.step op = some n) (ho : op.thread = some t)
    (hflag : ∀ env, op = .run t env → env.cancelled = x.cancelled) :
    After x (x.after t s.nodes n) s n t := by
  have hsends := hfit.sends t ht
  cases hc : x.call with
  | none =>
    have hin := (AsyncSend.sends_none hc).mp hsends
    cases Nodes.send_step hinv hin hs ho with
    | locks hd hp =>
      obtain ⟨c, r, heq, hcall, -, -⟩ := after_eq (s := s) ht hp
      rw [hd, if_neg (lt_irrefl _), hc] at hcall
      subst hcall
      rw [heq]
      exact ⟨rfl, rfl, rfl, ⟨_, rfl⟩, fun _ => (AsyncSend.sends_none rfl).mpr hp, nofun, .inl hc.symm⟩
    | cancelled hop hcancel hd hp =>
      obtain ⟨c, r, heq, hcall, hr, -⟩ := after_eq (s := s) ht hp
      have hdrop := dropped_of_cancelled hfit ht ((hflag _ hop).symm.trans hcancel)
      rw [hd, if_neg (lt_irrefl _), hc] at hcall
      subst hcall
      rw [heq]
      refine ⟨rfl, rfl, rfl, ⟨_, rfl⟩, nofun, fun r' hr' => ?_, .inl hc.symm⟩
      obtain rfl := Option.some.inj (TaskAt.sending.inj hr').2
      exact (AsyncSend.returned_none rfl).mpr (.inr ⟨hr rfl, hdrop⟩)
    | enters hop hcancel hd hp =>
      obtain ⟨hn, hcases⟩ := World.step_enters hd
      have hfalse : x.cancelled = false := (hflag _ hop).symm.trans hcancel
      rcases hcases with ⟨hlock, -⟩ | ⟨hidle, err, hsent, -⟩
      · have hgo := congrArg SendPc.call hlock
        rw [if_neg (ne_idle hgo)] at hp
        obtain ⟨c, r, heq, hcall, -, -⟩ := after_eq (s := s) ht hp
        rw [if_pos (by omega)] at hcall
        subst hcall
        rw [heq]
        exact ⟨rfl, rfl, rfl, ⟨_, rfl⟩, fun _ => (AsyncSend.sends_some rfl).mpr ⟨hp, hgo⟩, nofun,
          .inr ⟨hc, hfalse, rfl, by omega⟩⟩
      · rw [if_pos hidle] at hp
        obtain ⟨c, r, heq, hcall, -, hr⟩ := after_eq (s := s) ht hp
        rw [if_pos (by omega)] at hcall
        subst hcall
        rw [heq]
        refine ⟨rfl, rfl, rfl, ⟨_, rfl⟩, nofun, fun r' hr' => ?_, .inr ⟨hc, hfalse, rfl, by omega⟩⟩
        obtain rfl := Option.some.inj (TaskAt.sending.inj hr').2
        refine (AsyncSend.returned_some rfl).mpr ⟨_, ?_, rfl, hr _ _ _ rfl hsent⟩
        exact hsent ▸ List.mem_append_right _ (List.mem_singleton.mpr rfl)
  | some k =>
    obtain ⟨hin, hk⟩ := (AsyncSend.sends_some hc).mp hsends
    cases Nodes.send_step hinv hin hs ho with
    | inside hd hsender hp =>
      obtain ⟨hn, hcases⟩ := World.step_inside hd hsender hk
      rcases hcases with ⟨hgo, -⟩ | ⟨hidle, err, ack, hsent, -⟩
      · rw [if_neg (ne_idle hgo)] at hp
        obtain ⟨c, r, heq, hcall, -, -⟩ := after_eq (s := s) ht hp
        rw [if_neg (by omega), hc] at hcall
        subst hcall
        rw [heq]
        exact ⟨rfl, rfl, rfl, ⟨_, rfl⟩, fun _ => (AsyncSend.sends_some rfl).mpr ⟨hp, hgo⟩, nofun,
          .inl hc.symm⟩
      · rw [if_pos hidle] at hp
        obtain ⟨c, r, heq, hcall, -, hr⟩ := after_eq (s := s) ht hp
        rw [if_neg (by omega), hc] at hcall
        subst hcall
        rw [heq]
        refine ⟨rfl, rfl, rfl, ⟨_, rfl⟩, nofun, fun r' hr' => ?_, .inl hc.symm⟩
        obtain rfl := Option.some.inj (TaskAt.sending.inj hr').2
        refine (AsyncSend.returned_some rfl).mpr ⟨_, ?_, rfl, hr _ _ _ rfl hsent⟩
        exact hsent ▸ List.mem_append_right _ (List.mem_singleton.mpr rfl)

/-- The task that the step is seen by. -/
theorem ran_of_worker {op : NodesOp} {n : Nodes} (ho : op.thread = some t)
    (hw : s.worker t = some f) (hx : s.send f = some x) :
    s.ran op n = { s with
      nodes := n
      send := Function.update s.send f (some (x.after t s.nodes n)) } := by
  simp only [AsyncNodes.ran, ho, hw, hx, Option.map_some]

theorem ran_of_free {op : NodesOp} {n : Nodes} (h : ∀ t, op.thread = some t → s.worker t = none) :
    s.ran op n = { s with nodes := n } := by
  unfold AsyncNodes.ran
  split
  · rfl
  · rename_i t ho
    rw [h t ho]

theorem flag_of_allowed {op : NodesOp} (ha : s.allowed op = true) (hw : s.worker t = some f)
    (hx : s.send f = some x) (env : NodeEnv) (hop : op = .run t env) :
    env.cancelled = x.cancelled := by
  subst hop
  simp only [AsyncNodes.allowed, AsyncNodes.flag, hw, hx, Option.bind_some, Option.any_some,
    Bool.and_eq_true, beq_iff_eq] at ha
  exact ha.1

/-- Whom a step of the nodes concerns: no future, or the one whose task takes it. -/
theorem ran_cases {op : NodesOp} {n : Nodes} (h : AsyncInv s) (ha : s.allowed op = true)
    (hn : s.nodes.step op = some n) :
    (∀ t, op.thread = some t → s.worker t = none) ∨
      ∃ t f x, op.thread = some t ∧ s.worker t = some f ∧ s.send f = some x ∧
        x.task.thread = some t ∧ (x.task = .sending t none ∧ After x (x.after t s.nodes n) s n t ∨
          x.task ≠ .sending t none ∧ x.after t s.nodes n = x) := by
  by_cases hfree : ∀ t, op.thread = some t → s.worker t = none
  · exact .inl hfree
  simp only [not_forall] at hfree
  obtain ⟨t, ho, hfree⟩ := hfree
  obtain ⟨f, hw⟩ := Option.ne_none_iff_exists'.mp hfree
  obtain ⟨x, hx, hxt⟩ := h.workers f t hw
  refine .inr ⟨t, f, x, ho, hw, hx, hxt, ?_⟩
  by_cases htask : x.task = .sending t none
  · exact .inl ⟨htask,
      after_spec h.nodes (h.fits f x hx) htask hn ho (flag_of_allowed ha hw hx)⟩
  · -- The result is settled.
    refine .inr ⟨htask, ?_⟩
    unfold AsyncSend.after
    split
    · rename_i u _ _ _ _ _ _ htask' _
      rw [htask'] at hxt
      obtain rfl := Option.some.inj hxt
      exact absurd htask' htask
    · rfl

theorem run {op : NodesOp} (h : AsyncInv s) (hs : s.step (.run op) = some s') : AsyncInv s' := by
  simp only [AsyncNodes.step] at hs
  split at hs
  · rename_i hallowed
    obtain ⟨n, hn, rfl⟩ := Option.map_eq_some_iff.mp hs
    rcases h.ran_cases hallowed hn with hfree | ⟨t, f, x, ho, hw, hx, hxt, hafter⟩
    · rw [ran_of_free hfree]
      exact h.rest (.inr ⟨op, hn, fun t ht => .inl (hfree t ht)⟩) rfl rfl id
    have hfit := h.fits f x hx
    have hturns : s.Turns (s.ran op n) (some f) := by
      rw [ran_of_worker ho hw hx]
      refine .inr ⟨op, hn, fun u hu => ?_⟩
      obtain rfl := Option.some.inj (ho.symm.trans hu)
      exact .inr hw
    rw [ran_of_worker ho hw hx] at hturns ⊢
    rcases hafter with ⟨htask, ha⟩ | ⟨htask, hsame⟩
    · obtain ⟨r, hr⟩ := ha.task
      refine h.update hturns rfl (fun _ _ _ => Iff.rfl) (fun u hu => ?_) id ?_ fun k hk => ?_
      · rw [hr]
        exact hxt.symm.trans (h.thread_of_worker hx hu)
      · refine Fits.task hfit ha.future ha.cancelled (.inr ⟨t, hxt⟩) ?_ (fun u hu => ?_)
          (fun u hu => ?_) fun j hj => ?_
        · rw [hr]
          exact ⟨nofun, nofun⟩
        · rw [hr] at hu
          obtain rfl := Option.some.inj hu
          exact hw
        · obtain ⟨rfl, -⟩ := TaskAt.sending.inj (hr.symm.trans hu)
          exact ha.sends hu
        · cases r with
          | none =>
            rw [hr] at hj
            cases hj
          | some r =>
            rw [hr] at hj
            obtain rfl := Option.some.inj hj
            exact ha.returned r hr
      · rcases ha.call with hc | ⟨-, -, hc, hlt⟩
        · exact .inl ⟨x, hx, hc ▸ hk⟩
        · obtain rfl := Option.some.inj (hk.symm.trans hc)
          exact .inr ⟨rfl, hlt⟩
    · rw [hsame] at hturns ⊢
      refine h.update hturns rfl (fun _ _ _ => Iff.rfl) (fun _ => h.thread_of_worker hx) id ?_
        (same_call hx rfl)
      have hthread : ∀ u, x.task = .sending u none → u = t := fun u hu => by
        rw [hu] at hxt
        exact Option.some.inj hxt
      exact { hfit with
        sends := fun u hu => absurd (hthread u hu ▸ hu) htask
        joined := fun j hj => Joined.mono (hfit.joined j hj) (turns_logs hturns).2 id }
  · cases hs

theorem step {op : AsyncOp} (h : AsyncInv s) (hs : s.step op = some s') : AsyncInv s' := by
  cases op with
  | create f i bundle addr port => exact h.create hs
  | poll f => exact h.poll hs
  | start f t panics => exact h.start hs
  | run op => exact h.run hs
  | finish f panics => exact h.finish hs
  | done f => exact h.done hs
  | shutdown =>
    obtain rfl := Option.some.inj hs
    exact h.rest (.inl rfl) rfl rfl fun _ => rfl
  | drain f t => exact h.drain hs
  | resolve f => exact h.resolve hs
  | drop f => exact h.drop hs

end AsyncInv

theorem asyncSys_inv : asyncSys.Inductive AsyncInv where
  init s hs := by
    obtain ⟨n, hn, rfl⟩ := hs
    have hsend : ∀ f, (AsyncNodes.new n).send f = none := fun _ => rfl
    have hworker : ∀ t, (AsyncNodes.new n).worker t = none := fun _ => rfl
    refine ⟨nodesSys_inv.init n hn, fun f x hx => ?_, fun f x k hx => ?_, fun f t ht => ?_,
      fun f g x y k hx => ?_⟩
    · rw [hsend] at hx
      cases hx
    · rw [hsend] at hx
      cases hx
    · rw [hworker] at ht
      cases ht
    · rw [hsend] at hx
      cases hx
  step s op s' h hs := h.step hs

end Cspcl
