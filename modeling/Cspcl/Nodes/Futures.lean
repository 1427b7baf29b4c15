import Cspcl.Nodes.AsyncInv
import Cspcl.Nodes.EndToEnd

/-!
# What a `send_bundle_async` future tells

Its result is the one of its own call of `cspcl_send_bundle`, or says that there was none; a future
that was dropped before its send's turn makes none.

* `async_nodes`: the futures are users of the nodes like others.
* `AsyncSend.Leads`, `async_later`: what becomes of a future.
* `async_honest`: what it tells.
-/

namespace Cspcl

open Inbound (Error)

/-- What a step does to a future: it makes at most one call, which a set flag prevents, and what it
gave its caller, or that it was dropped, stays. -/
structure AsyncSend.Leads (x x' : AsyncSend) : Prop where
  args : x'.sendCall = x.sendCall
  future : x'.future = x.future ∨ x.future = .created ∨ x.future = .awaiting
  call : x'.call = x.call ∨ x.call = none ∧ x.cancelled = false ∧ x.task ≠ .unspawned

namespace AsyncNodes

variable {s s' : AsyncNodes} {x y : AsyncSend} {f g t : Nat}

theorem leads_setSend {s₁ : AsyncNodes} (hsend : s₁.send = s.send) (hx : s.send f = some x)
    (hg : ∀ z, s.send g = some z → z.Leads y) :
    ∃ x', (s₁.setSend g y).send f = some x' ∧ x.Leads x' := by
  by_cases hfg : f = g
  · subst hfg
    exact ⟨y, Function.update_self .., hg x hx⟩
  · refine ⟨x, (Function.update_of_ne hfg ..).trans ((congrFun hsend f).trans hx), rfl, .inl rfl,
      .inl rfl⟩

theorem dropArc_send {s₁ : AsyncNodes} (hs : s.dropArc t y = some s₁) : s₁.send = s.send := by
  obtain ⟨n, hn, rfl⟩ := Option.map_eq_some_iff.mp hs
  rfl

/-- Only the task of the future gets on. -/
theorem leads_task {k : TaskAt} (hy : s.send g = some y) {z : AsyncSend} (hz : s.send g = some z) :
    z.Leads { y with task := k } := by
  obtain rfl := Option.some.inj (hy.symm.trans hz)
  exact ⟨rfl, .inl rfl, .inl rfl⟩

theorem step_leads {op : AsyncOp} (h : AsyncInv s) (hs : s.step op = some s')
    (hx : s.send f = some x) : ∃ x', s'.send f = some x' ∧ x.Leads x' := by
  cases op with
  | create g i bundle addr port =>
    simp only [step] at hs
    split at hs
    · rename_i hnone
      obtain rfl := Option.some.inj hs
      refine leads_setSend rfl hx fun z hz => ?_
      rw [hnone] at hz
      cases hz
    · cases hs
  | poll g =>
    simp only [step] at hs
    split at hs
    · rename_i y hy
      split at hs
      · rename_i hc
        obtain ⟨n, hn, rfl⟩ := Option.map_eq_some_iff.mp hs
        refine leads_setSend rfl hx fun z hz => ?_
        obtain rfl := Option.some.inj (hy.symm.trans hz)
        exact ⟨rfl, .inr (.inl hc.1), .inl rfl⟩
      · cases hs
    · cases hs
  | start g t panics =>
    simp only [step] at hs
    split at hs
    · rename_i y hy
      split at hs
      · split at hs
        · obtain ⟨s₁, hs₁, rfl⟩ := Option.map_eq_some_iff.mp hs
          exact leads_setSend (dropArc_send hs₁ :) hx fun z => leads_task hy
        · obtain ⟨n, hn, rfl⟩ := Option.map_eq_some_iff.mp hs
          exact leads_setSend rfl hx fun z => leads_task hy
      · cases hs
    · cases hs
  | run op =>
    simp only [step] at hs
    split at hs
    · rename_i hallowed
      obtain ⟨n, hn, rfl⟩ := Option.map_eq_some_iff.mp hs
      rcases h.ran_cases hallowed hn with hfree | ⟨t, g, y, ho, hw, hy, hyt, hafter⟩
      · rw [AsyncInv.ran_of_free hfree]
        exact ⟨x, hx, rfl, .inl rfl, .inl rfl⟩
      · rw [AsyncInv.ran_of_worker ho hw hy]
        refine leads_setSend (g := g) rfl hx fun z hz => ?_
        obtain rfl := Option.some.inj (hy.symm.trans hz)
        rcases hafter with ⟨htask, ha⟩ | ⟨-, hsame⟩
        · refine ⟨ha.args, .inl ha.future, ha.call.imp_right fun hc => ⟨hc.1, hc.2.1, ?_⟩⟩
          rw [htask]
          simp
        · rw [hsame]
          exact ⟨rfl, .inl rfl, .inl rfl⟩
    · cases hs
  | finish g panics =>
    simp only [step] at hs
    split at hs
    · rename_i y hy
      split at hs
      · split at hs
        · obtain ⟨s₁, hs₁, rfl⟩ := Option.map_eq_some_iff.mp hs
          exact leads_setSend (dropArc_send hs₁) hx fun z => leads_task hy
        · cases hs
      · cases hs
    · cases hs
  | done g =>
    simp only [step] at hs
    split at hs
    · rename_i y hy
      split at hs
      · split at hs
        · obtain rfl := Option.some.inj hs
          exact leads_setSend rfl hx fun z => leads_task hy
        · cases hs
      · cases hs
    · cases hs
  | shutdown =>
    obtain rfl := Option.some.inj hs
    exact ⟨x, hx, rfl, .inl rfl, .inl rfl⟩
  | drain g t =>
    simp only [step] at hs
    split at hs
    · rename_i y hy
      split at hs
      · obtain ⟨s₁, hs₁, rfl⟩ := Option.map_eq_some_iff.mp hs
        exact leads_setSend (dropArc_send hs₁) hx fun z => leads_task hy
      · cases hs
    · cases hs
  | resolve g =>
    simp only [step] at hs
    split at hs
    · rename_i y hy
      split at hs
      · rename_i hf _
        obtain rfl := Option.some.inj hs
        refine leads_setSend rfl hx fun z hz => ?_
        obtain rfl := Option.some.inj (hy.symm.trans hz)
        exact ⟨rfl, .inr (.inr hf), .inl rfl⟩
      · cases hs
    · cases hs
  | drop g =>
    simp only [step] at hs
    split at hs
    · rename_i y hy
      split at hs
      · rename_i hf
        obtain rfl := Option.some.inj hs
        refine leads_setSend rfl hx fun z hz => ?_
        obtain rfl := Option.some.inj (hy.symm.trans hz)
        exact ⟨rfl, .inr (.inl hf), .inl rfl⟩
      · rename_i hf
        obtain rfl := Option.some.inj hs
        refine leads_setSend rfl hx fun z hz => ?_
        obtain rfl := Option.some.inj (hy.symm.trans hz)
        exact ⟨rfl, .inr (.inr hf), .inl rfl⟩
      · cases hs
    · cases hs

/-- The nodes take a step or none; the runtime stays shut down. -/
structure Frame (s s' : AsyncNodes) : Prop where
  nodes : s'.nodes = s.nodes ∨ ∃ op, s.nodes.step op = some s'.nodes
  shutdown : s.shutdown = true → s'.shutdown = true

theorem Frame.dropArc {s₁ : AsyncNodes} (hs : s.dropArc t y = some s₁) : s.Frame s₁ := by
  obtain ⟨n, hn, rfl⟩ := Option.map_eq_some_iff.mp hs
  exact ⟨.inr ⟨_, hn⟩, id⟩

theorem step_frame {op : AsyncOp} (hs : s.step op = some s') : s.Frame s' := by
  cases op with
  | run op =>
    simp only [step] at hs
    split at hs
    · obtain ⟨n, hn, rfl⟩ := Option.map_eq_some_iff.mp hs
      unfold ran
      dsimp only
      split
      · exact ⟨.inr ⟨op, hn⟩, id⟩
      · split <;> exact ⟨.inr ⟨op, hn⟩, id⟩
    · cases hs
  | shutdown =>
    obtain rfl := Option.some.inj hs
    exact ⟨.inl rfl, fun _ => rfl⟩
  | create f i bundle addr port =>
    simp only [step] at hs
    split at hs
    · obtain rfl := Option.some.inj hs
      exact ⟨.inl rfl, id⟩
    · cases hs
  | poll f =>
    simp only [step] at hs
    split at hs
    · split at hs
      · obtain ⟨n, hn, rfl⟩ := Option.map_eq_some_iff.mp hs
        exact ⟨.inr ⟨_, hn⟩, id⟩
      · cases hs
    · cases hs
  | start f t panics =>
    simp only [step] at hs
    split at hs
    · split at hs
      · split at hs
        · obtain ⟨s₁, hs₁, rfl⟩ := Option.map_eq_some_iff.mp hs
          exact ⟨(Frame.dropArc hs₁).nodes, (Frame.dropArc hs₁).shutdown⟩
        · obtain ⟨n, hn, rfl⟩ := Option.map_eq_some_iff.mp hs
          exact ⟨.inr ⟨_, hn⟩, id⟩
      · cases hs
    · cases hs
  | finish f panics =>
    simp only [step] at hs
    split at hs
    · split at hs
      · split at hs
        · obtain ⟨s₁, hs₁, rfl⟩ := Option.map_eq_some_iff.mp hs
          exact ⟨(Frame.dropArc hs₁).nodes, (Frame.dropArc hs₁).shutdown⟩
        · cases hs
      · cases hs
    · cases hs
  | drain f t =>
    simp only [step] at hs
    split at hs
    · split at hs
      · obtain ⟨s₁, hs₁, rfl⟩ := Option.map_eq_some_iff.mp hs
        exact ⟨(Frame.dropArc hs₁).nodes, (Frame.dropArc hs₁).shutdown⟩
      · cases hs
    · cases hs
  | done f | resolve f | drop f =>
    simp only [step] at hs
    repeat' split at hs
    all_goals first
      | cases hs; done
      | obtain rfl := Option.some.inj hs
        exact ⟨.inl rfl, id⟩

end AsyncNodes

/-- What stays, in every step. -/
structure AsyncNodes.Grows (s s' : AsyncNodes) : Prop where
  sent : ∀ y ∈ s.nodes.d.tx.sent, y ∈ s'.nodes.d.tx.sent
  shutdown : s.shutdown = true → s'.shutdown = true
  send : ∀ f x, s.send f = some x → ∃ x', s'.send f = some x' ∧ x'.sendCall = x.sendCall ∧
    ∀ k, x.call = some k → x'.call = some k

theorem AsyncNodes.Grows.trans {s t u : AsyncNodes} (h : s.Grows t) (h' : t.Grows u) :
    s.Grows u where
  sent y hy := h'.sent y (h.sent y hy)
  shutdown hs := h'.shutdown (h.shutdown hs)
  send f x hx := by
    obtain ⟨y, hy, hargs, hcall⟩ := h.send f x hx
    obtain ⟨z, hz, hargs', hcall'⟩ := h'.send f y hy
    exact ⟨z, hz, hargs'.trans hargs, fun k hk => hcall' k (hcall k hk)⟩

theorem AsyncInv.step_grows {s s' : AsyncNodes} {op : AsyncOp} (h : AsyncInv s)
    (hs : s.step op = some s') : s.Grows s' where
  sent y hy := by
    rcases (AsyncNodes.step_frame hs).nodes with hn | ⟨nop, hn⟩
    · exact hn ▸ hy
    · exact (Nodes.step_logs hn).2 y hy
  shutdown hsh := (AsyncNodes.step_frame hs).shutdown hsh
  send f x hx := by
    obtain ⟨x', hx', hleads⟩ := AsyncNodes.step_leads h hs hx
    refine ⟨x', hx', hleads.args, fun k hk => ?_⟩
    rcases hleads.call with hc | ⟨hc, -⟩
    · exact hc.trans hk
    · rw [hc] at hk
      cases hk

/-- The futures are users of the nodes like others. -/
theorem async_nodes : asyncSys.Simulation nodesSys fun s n => s.nodes = n where
  init s hs := by
    obtain ⟨n, hn, rfl⟩ := hs
    exact ⟨n, hn, rfl⟩
  step s op s' n _ h hs := by
    subst h
    rcases (AsyncNodes.step_frame hs).nodes with hn | ⟨nop, hn⟩
    · exact .inl hn
    · exact .inr ⟨nop, _, hn, rfl⟩

/-- What later steps leave of a future. -/
structure AsyncSend.Later (x x' : AsyncSend) : Prop where
  args : x'.sendCall = x.sendCall
  /-- It does not change what it gave its caller. -/
  gave : ∀ r, x.future.gave = some r → x'.future = x.future
  dropped : x.future = .dropped → x'.future = .dropped
  /-- Its call of `cspcl_send_bundle` is its only one. -/
  call : ∀ k, x.call = some k → x'.call = some k
  /-- A future that was dropped before its send's turn makes none. -/
  skipped : x.future = .dropped → x.call = none → x'.call = none

theorem AsyncSend.Leads.later {x x' : AsyncSend} {s : AsyncNodes} {f : Nat} (h : x.Leads x')
    (hfit : x.Fits s f) : x.Later x' where
  args := h.args
  gave r hr := by
    rcases h.future with hf | hf | hf
    · exact hf
    · rw [hf] at hr
      cases hr
    · rw [hf] at hr
      cases hr
  dropped hd := by
    rcases h.future with hf | hf | hf
    · exact hf.trans hd
    · rw [hd] at hf
      cases hf
    · rw [hd] at hf
      cases hf
  call k hk := by
    rcases h.call with hc | ⟨hc, -⟩
    · exact hc.trans hk
    · rw [hc] at hk
      cases hk
  skipped hd hc := by
    rcases h.call with h' | ⟨-, hfalse, htask⟩
    · exact h'.trans hc
    · rcases hfit.dropped hd with hu | htrue
      · exact absurd hu htask
      · rw [hfalse] at htrue
        cases htrue

theorem AsyncSend.Later.trans {x y z : AsyncSend} (h : x.Later y) (h' : y.Later z) : x.Later z where
  args := h'.args.trans h.args
  gave r hr := (h'.gave r ((h.gave r hr).symm ▸ hr)).trans (h.gave r hr)
  dropped hd := h'.dropped (h.dropped hd)
  call k hk := h'.call k (h.call k hk)
  skipped hd hc := h'.skipped (h.dropped hd) (h.skipped hd hc)

/-- In every run: a call once made is the only one, a result once given stays, and a future dropped
before its send's turn never sends. -/
theorem async_later {s s' : AsyncNodes} {l : List AsyncOp} {f : Nat} {x : AsyncSend}
    (hs : asyncSys.Reach s) (hr : asyncSys.Run s l s') (hx : s.send f = some x) :
    ∃ x', s'.send f = some x' ∧ x.Later x' := by
  induction hr generalizing x with
  | nil s => exact ⟨x, hx, rfl, fun _ _ => rfl, id, fun _ => id, fun _ => id⟩
  | cons hstep _ ih =>
    have hinv := asyncSys_inv.reach hs
    obtain ⟨y, hy, hxy⟩ := AsyncNodes.step_leads hinv hstep hx
    obtain ⟨z, hz, hyz⟩ := ih (hs.step hstep) hy
    exact ⟨z, hz, (hxy.later (hinv.fits _ _ hx)).trans hyz⟩

namespace Crossing

/-- A future is dropped while its task is queued, -/
def drops : List AsyncOp := [.create 0 0 [1] 2 10, .poll 0, .drop 0]

/-- and the task runs. -/
def skips : List AsyncOp :=
  .start 0 3 false :: [.run (.lock 3 true), .run (.run 3 { env with cancelled := true })] ++
    List.replicate 2 (.run (.run 3 { env with cancelled := true })) ++
    [.finish 0 false, .run (.run 3 { env with cancelled := true }), .done 0]

end Crossing

open Crossing in
theorem async_later_crossing : ∃ s s' x x', asyncSys.exec (.new start) drops = some s ∧
    asyncSys.exec s skips = some s' ∧ s.send 0 = some x ∧ x.future = .dropped ∧
    s'.send 0 = some x' ∧ x'.task = .done (.ok (.error .cancelled)) ∧ x'.call = none := by
  have h : ((asyncSys.exec (.new start) drops).bind fun s => s.send 0).map
      (fun x => (x.future, x.call)) = some (.dropped, none) := by
    decide +kernel
  obtain ⟨x, hx, hf⟩ := Option.map_eq_some_iff.mp h
  obtain ⟨s, hs, hx⟩ := Option.bind_eq_some_iff.mp hx
  obtain ⟨hf, hc⟩ := Prod.mk.inj hf
  have h' : (((asyncSys.exec (.new start) drops).bind fun s => asyncSys.exec s skips).bind
      fun s => s.send 0).map (·.task) = some (.done (.ok (.error .cancelled))) := by
    decide +kernel
  rw [hs, Option.bind_some] at h'
  obtain ⟨x', hx', ht⟩ := Option.map_eq_some_iff.mp h'
  obtain ⟨s', hs', hx'⟩ := Option.bind_eq_some_iff.mp hx'
  have hreach : asyncSys.Reach s :=
    .of_exec ⟨start, ⟨_, _, _, _, _, fun _ => rfl, rfl⟩, rfl⟩ hs
  obtain ⟨y, hy, hlater⟩ := async_later hreach (Lts.run_iff_exec.mpr hs') hx
  obtain rfl := Option.some.inj (hx'.symm.trans hy)
  exact ⟨s, s', x, x', hs, hs', hx, hf, hx', ht, hlater.skipped hf hc⟩

/-- What the result of a future says; `a` tells which bundles were received. -/
structure AsyncSend.Honest (x : AsyncSend) (s : AsyncNodes) (a : Traffic) : Prop where
  ok : x.future = .ready (.ok ()) → ∃ r ∈ a.receipts, r.bundle.data = x.bundle ∧
    s.nodes.IsAt r.inst x.addr x.port
  /-- A future that is awaited to the end is `Cancelled` by the shutdown of the runtime alone, before
  its bundle was sent. Any other error is the one of its call. -/
  error : ∀ e, x.future = .ready (.error e) →
    e = .cancelled ∧ x.call = none ∧ s.shutdown = true ∨
    e = .invalidParam ∧ x.call = none ∧ x.bundle = [] ∨
    ∃ k, ∃ y ∈ s.nodes.d.tx.sent, x.call = some k ∧ y.call = x.sendCall k ∧ y.err ≠ .ok ∧
      e = .fromRaw y.err
  /-- Its call is of no other future. -/
  one : ∀ f g y k, s.send f = some x → s.send g = some y → x.call = some k → y.call = some k → f = g

/-- What a future gave its caller is what its task returned. -/
theorem AsyncSend.Fits.returned {x : AsyncSend} {s : AsyncNodes} {f : Nat}
    {r : Except Error Unit} (h : x.Fits s f) (hr : x.future = .ready r) :
    x.Returned s.nodes r ∨ r = .error .cancelled ∧ x.call = none ∧ s.shutdown = true := by
  obtain ⟨j, hj, hgave⟩ := h.gave (some r) (by rw [hr]; rfl)
  have hjoin := h.joined j (by rw [hj]; rfl)
  cases j with
  | ok r' =>
    obtain rfl := Option.some.inj hgave
    exact .inl hjoin
  | error e =>
    cases e with
    | panic => cases hgave
    | cancelled =>
      obtain rfl := Option.some.inj hgave
      exact .inr ⟨rfl, hjoin⟩

theorem async_honest {s : AsyncNodes} (hs : asyncSys.Reach s) :
    ∃ a, trafficSys.Reach a ∧ Shows s.nodes a ∧ ∀ f x, s.send f = some x → x.Honest s a := by
  obtain ⟨n, hn, rfl⟩ := async_nodes.reach hs
  obtain ⟨a, ha, hshows, he⟩ := end_to_end hn
  have hinv := asyncSys_inv.reach hs
  refine ⟨a, ha, hshows, fun f x hx => ⟨fun hok => ?_, fun e he => ?_,
    fun f g y k hf hg => hinv.one f g x y k hf hg⟩⟩
  · rcases (hinv.fits f x hx).returned hok with hr | ⟨hr, -⟩
    · cases hc : x.call with
      | none =>
        rcases (AsyncSend.returned_none hc).mp hr with ⟨h, -⟩ | ⟨h, -⟩ <;> cases h
      | some k =>
        obtain ⟨y, hy, hcall, hres⟩ := (AsyncSend.returned_some hc).mp hr
        have herr : y.err = .ok := by
          unfold sendRawResult at hres
          by_contra hne
          rw [if_neg hne] at hres
          cases hres
        obtain ⟨m, r, -, -, hr, -, -, -, hdata, hat⟩ := he.delivered y hy herr
        rw [hcall] at hdata hat
        exact ⟨r, List.mem_of_getElem? hr, hdata, hat⟩
    · cases hr
  · rcases (hinv.fits f x hx).returned he with hr | ⟨hr, hsh⟩
    · cases hc : x.call with
      | none =>
        rcases (AsyncSend.returned_none hc).mp hr with ⟨h, hb⟩ | ⟨-, hd⟩
        · exact .inr (.inl ⟨Except.error.inj h, rfl, hb⟩)
        · rw [he] at hd
          cases hd
      | some k =>
        obtain ⟨y, hy, hcall, hres⟩ := (AsyncSend.returned_some hc).mp hr
        unfold sendRawResult at hres
        split at hres
        · cases hres
        · rename_i hne
          exact .inr (.inr ⟨k, y, hy, rfl, hcall, hne, Except.error.inj hres⟩)
    · exact .inl ⟨Except.error.inj hr, hsh⟩

namespace Crossing

/-- As `arrives`, with the bundle of node `0` sent by a future. -/
def awaits : List AsyncOp :=
  let back : List NodesOp := [.run 3 env, .run 3 env]
  [.create 0 0 [1] 2 10, .poll 0] ++ (opens 0 0 ++ opens 1 10).map AsyncOp.run ++
    .start 0 3 false :: ((sends 0 0 2 0).tail ++ sends 1 10 1 1 ++ accepts 0 2 1 ++
      accepts 10 1 0 ++ arrives.drop run.length ++ back).map AsyncOp.run ++
    [.finish 0 false, .run (.run 3 env), .done 0, .resolve 0]

end Crossing

open Crossing in
theorem async_honest_crossing : ∃ s x a, asyncSys.exec (.new start) awaits = some s ∧
    s.send 0 = some x ∧ x.future = .ready (.ok ()) ∧ x.Honest s a := by
  have h : ((asyncSys.exec (.new start) awaits).bind fun s => s.send 0).map (·.future) =
      some (.ready (.ok ())) := by
    decide +kernel
  obtain ⟨x, hx, hf⟩ := Option.map_eq_some_iff.mp h
  obtain ⟨s, hs, hx⟩ := Option.bind_eq_some_iff.mp hx
  have hreach : asyncSys.Reach s :=
    .of_exec ⟨start, ⟨_, _, _, _, _, fun _ => rfl, rfl⟩, rfl⟩ hs
  obtain ⟨a, -, -, ha⟩ := async_honest hreach
  exact ⟨s, x, a, hs, hx, hf, ha 0 x hx⟩

end Cspcl
