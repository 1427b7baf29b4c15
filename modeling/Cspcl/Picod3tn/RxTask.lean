import Cspcl.Receive.Serving

/-!
# The RX task of picod3tn

`rx_task` of `picod3tn/src/tasks/cla/cspcl.rs`, which `picod3tn-integration/picod3tn-cla-cspcl.patch`
adds: the one receive loop of its link (`Link`), whose bundles it parses and puts into the spool.
`FullBundle::parse` is a parameter; `spool.put` takes any time and may find a bundle too large.

* `RxTask`, `rxSys`: any interleaving with the threads of the link and its shutdown.
* `OneLoop`: the loop is the one requester behind the gate (`Serving`), or was dropped.
* `rx_task_in_order`: the statement.
-/

namespace Cspcl.Picod3tn

open Inbound Receive

/-- What became of a received bundle; `β`: parsed bundles. -/
inductive RxFate (β : Type) where
  | invalid
  | put (bundle : β)
  /-- `PutError::TooLarge`. -/
  | tooLarge (bundle : β)
  deriving DecidableEq, Repr

/-- Where the task is. -/
inductive RxAt (β : Type) where
  /-- In `incoming.next()`. -/
  | waiting
  | received (x : Delivery)
  /-- In `spool.put`. -/
  | putting (x : Delivery) (bundle : β)
  /-- It returned `Ok(())`. -/
  | ended
  /-- The runtime dropped it, and its stream. -/
  | dropped
  deriving DecidableEq, Repr

variable {β : Type}

/-- The bundle that the task has. -/
def RxAt.holds : RxAt β → List Delivery
  | received x | putting x _ => [x]
  | _ => []

/-- The task with its link; `log`: the bundles that it is through with. -/
structure RxTask (β : Type) where
  link : Link
  pc : RxAt β
  log : List (Delivery × RxFate β)

inductive RxOp where
  /-- A step of the link, of its shutdown, or of the stream that the task polls. -/
  | link (op : Receive.LinkOp)
  | parse
  | put (tooLarge : Bool)
  | drop (now : Nat)

/-- The loop whose step it is. -/
def loopOf : Receive.LinkOp → Option Nat
  | .gate _ | .flag _ => none
  | .open l _ | .answered l | .next l | .dropEnded l _ | .check l | .wake l | .pollEnded l |
    .drop l _ => some l

namespace RxTask

def new (now : Nat) : RxTask β := ⟨.new now, .waiting, []⟩

/-- The task polls its own stream, and no other loop runs. -/
def allows (s : RxTask β) (op : Receive.LinkOp) : Bool :=
  match s.pc, op with
  | _, .gate _ | _, .flag _ => true
  | _, .drop _ _ => false
  | .waiting, op => loopOf op == some 0
  | _, _ => false

/-- The task after a poll of its stream. -/
def resume (s : RxTask β) (link : Link) : RxAt β :=
  match (link.yielded 0)[(s.link.yielded 0).length]? with
  | some (some x) => .received x
  | some none => .ended
  | none => s.pc

def step (parse : List UInt8 → Option β) (s : RxTask β) : RxOp → Option (RxTask β)
  | .link op =>
    if s.allows op then
      (s.link.step op).map fun link => { s with link, pc := s.resume link }
    else none
  | .parse =>
    match s.pc with
    | .received x =>
      match parse x.bundle.data with
      | some bundle => some { s with pc := .putting x bundle }
      | none => some { s with pc := .waiting, log := s.log ++ [(x, .invalid)] }
    | _ => none
  | .put tooLarge =>
    match s.pc with
    | .putting x bundle =>
      some { s with
        pc := .waiting
        log := s.log ++ [(x, if tooLarge then .tooLarge bundle else .put bundle)] }
    | _ => none
  | .drop now =>
    match s.pc with
    | .ended | .dropped => none
    | _ => (s.link.step (.drop 0 now)).map fun link => { s with link, pc := .dropped }

end RxTask

/-- All interleavings, on a new link. -/
def rxSys (parse : List UInt8 → Option β) : Lts (RxTask β) RxOp where
  init s := ∃ now, s = .new now
  step := RxTask.step parse

/-! ## The link -/

/-- A step of the link is one of its gate, or leaves it as it is. -/
theorem link_gate : Receive.linkSys.Simulation gateSys fun s g => s.gate = g where
  init s hs := by
    obtain ⟨now, rfl⟩ := hs
    exact ⟨_, ⟨now, rfl⟩, rfl⟩
  step s op s' g _ hg hs := by
    subst hg
    have hrun : ∀ {v : Link} {gop : GateOp}, v.run gop = some s' → v.gate = s.gate →
        s'.gate = s.gate ∨ ∃ k g', gateSys.step s.gate k = some g' ∧ s'.gate = g' := by
      intro v gop hv hvg
      obtain ⟨g', hg', rfl⟩ := Option.map_eq_some_iff.mp hv
      exact .inr ⟨gop, g', hvg ▸ hg', rfl⟩
    cases op with
    | gate op =>
      simp only [Receive.linkSys, Link.step] at hs
      split at hs
      · exact hrun hs rfl
      · cases hs
    | «open» l ok =>
      simp only [Receive.linkSys, Link.step] at hs
      split at hs
      · split at hs
        · exact hrun hs rfl
        · obtain rfl := Option.some.inj hs
          exact .inl rfl
      · cases hs
    | answered l =>
      simp only [Receive.linkSys, Link.step] at hs
      split at hs
      · split at hs
        all_goals cases hs
        all_goals exact .inl rfl
      · cases hs
    | next l =>
      simp only [Receive.linkSys, Link.step] at hs
      split at hs
      · split at hs <;> exact hrun hs rfl
      · cases hs
    | dropEnded l now =>
      simp only [Receive.linkSys, Link.step] at hs
      split at hs
      · exact hrun hs rfl
      · cases hs
    | check l | wake l =>
      simp only [Receive.linkSys, Link.step] at hs
      split at hs
      · obtain rfl := Option.some.inj hs
        split <;> exact .inl rfl
      · cases hs
    | pollEnded l | flag k =>
      simp only [Receive.linkSys, Link.step] at hs
      split at hs
      · obtain rfl := Option.some.inj hs
        exact .inl rfl
      · cases hs
    | drop l now =>
      simp only [Receive.linkSys, Link.step] at hs
      split at hs
      · cases hs
      · exact hrun hs rfl
      · exact hrun hs rfl
      · exact hrun hs rfl
      · obtain rfl := Option.some.inj hs
        exact .inl rfl

/-- The bundles that the first loop has yielded. -/
def got (s : Link) : List Delivery := (s.yielded 0).filterMap id

/-- The other loops do not run, and the first one is served, or was dropped. -/
structure OneLoop (s : Link) : Prop where
  others : ∀ l, l ≠ 0 → s.loop l = .top
  served : Serving s.gate (s.loop 0).request (got s) ∨
    s.loop 0 = .dropped ∧ got s <+: s.gate.w.delivered
  finished : ∀ o, s.loop 0 = .finished o → s.gate.Drained o
  flagged : s.shutdown = true → s.gate.closed = true
  ended : s.loop 0 = .ended → s.gate.closed = true

namespace OneLoop

variable {s s' v : Link} {g : Gate} {st : LoopState}

theorem got_prefix (h : OneLoop s) : got s <+: s.gate.w.delivered := by
  rcases h.served with hs | ⟨-, hp⟩
  · obtain ⟨q, hq⟩ := hs.order
    rw [← hq.all, List.append_assoc]
    exact List.prefix_append ..
  · exact hp

/-- The loop moves. -/
theorem moved {p : LoopState} (h : OneLoop s) (hl : v.loop = Function.update s.loop 0 p)
    (hs : Serving v.gate p.request (got v) ∨ p = .dropped ∧ got v <+: v.gate.w.delivered)
    (hf : ∀ o, p = .finished o → v.gate.Drained o)
    (hsh : v.shutdown = true → v.gate.closed = true) (he : p = .ended → v.gate.closed = true) :
    OneLoop v := by
  have h0 : v.loop 0 = p := by rw [hl, Function.update_self]
  refine ⟨fun l hne => ?_, by rwa [h0], by rwa [h0], hsh, by rwa [h0]⟩
  rw [hl, Function.update_of_ne hne]
  exact h.others l hne

theorem got_yield_none : got (s.yield 0 none st) = got s := by
  simp [got, Link.yield]

theorem got_yield_some {x : Delivery} : got (s.yield 0 (some x) st) = got s ++ [x] := by
  simp [got, Link.yield]

/-- A step of the gate that is not the loop's. -/
theorem gateStep {op : GateOp} (h : OneLoop s) (hi : LinkInv s) (hg : GateStreams s.gate)
    (hst : s.gate.w.Starts) (hs : s.gate.step op = some g) (hallow : s.allows op = true) :
    OneLoop { s with gate := g } := by
  refine ⟨h.others, h.served.imp (fun hserv => ?_) fun he =>
    ⟨he.1, he.2.trans (Gate.delivered_prefix hs)⟩, fun o ho => ?_,
    fun hsh => Gate.closed_step hs (h.flagged hsh), fun he => Gate.closed_step hs (h.ended he)⟩
  · have hnext := hserv.step hg hst hs (by rintro o rfl; cases hallow) (hi.kept 0)
      (by rintro o now rfl; cases hallow)
    have hgives : s.gate.gives op = [] := by
      cases op <;> first | rfl | cases hallow
    rw [hgives, List.append_nil] at hnext
    exact hnext
  · have ha := hi.streamed 0 o (.inr ho)
    exact (h.finished o ho).step hi.gate hs (hi.gate.not_opens ha) (by rintro now rfl; cases hallow)

theorem serving (h : OneLoop s) (hd : s.loop 0 ≠ .dropped) :
    Serving s.gate (s.loop 0).request (got s) :=
  h.served.resolve_right fun he => hd he.1

/-- A poll of the loop's stream. -/
theorem poll {o : Nat} {l : List Delivery} {f : LoopState} (h : OneLoop s) (hi : LinkInv s)
    (hg : GateStreams s.gate) (hst : s.gate.w.Starts) (ht : s.loop 0 = .streaming o)
    (hf : f.request = some o) (hd : ∀ p, f = .finished p → s.gate.Drained o)
    (hl : s.gate.taken o = l) (hv : v.run (.poll o) = some s')
    (hgate : v.gate = s.gate) (hloop : v.loop = Function.update s.loop 0 f)
    (hgot : got v = got s ++ l) (hsh : v.shutdown = s.shutdown) : OneLoop s' := by
  obtain ⟨g, hg', rfl⟩ := Option.map_eq_some_iff.mp hv
  rw [hgate] at hg'
  have ha := hi.streamed 0 o (.inl ht)
  have hserv := h.serving (by rw [ht]; nofun)
  have hgone := hi.kept 0
  rw [ht] at hserv hgone
  have hnext := hserv.step hg hst hg' nofun hgone nofun
  have hgives : s.gate.gives (.poll o) = l := hl
  rw [hgives, ← hgot] at hnext
  refine h.moved hloop (.inl (hf ▸ hnext)) (fun p hp => ?_) (fun hs => ?_) ?_
  · obtain rfl : o = p := Option.some.inj (hf.symm.trans (by rw [hp]; rfl))
    exact (hd o hp).step hi.gate hg' (hi.gate.not_opens ha) nofun
  · exact Gate.closed_step hg' (h.flagged (hsh ▸ hs))
  · rintro rfl
    cases hf

/-- The loop drops its stream, and stays without one. -/
theorem dropStream {o now : Nat} (h : OneLoop s) (hi : LinkInv s) (hg : GateStreams s.gate)
    (hst : s.gate.w.Starts) (ht : s.loop 0 = .finished o)
    (hs : (s.setLoop 0 .checking).run (.drop o now) = some s') : OneLoop s' := by
  obtain ⟨g, hg', rfl⟩ := Option.map_eq_some_iff.mp hs
  have ha := hi.streamed 0 o (.inr ht)
  have hserv := h.serving (by rw [ht]; simp)
  have hgone := hi.kept 0
  rw [ht] at hserv hgone
  have hnext := hserv.step hg hst hg' (by simp) hgone
    (by rintro _ _ ⟨⟩; exact h.finished o ht)
  simp only [Gate.gives, List.append_nil] at hnext
  have hnot := (hg.step hg').inv.not_opens ((gate_frame hg.inv hg').answer o _ ha)
  refine h.moved (v := { s.setLoop 0 .checking with gate := g }) rfl
    (.inl (hnext.release (fun id hid => ?_) hnot)) (by simp)
    (fun hsh => Gate.closed_step hg' (h.flagged hsh)) (by simp)
  rw [Gate.stream_step hg'] at hid
  exact Gate.not_kept_drop hg' ha hid

theorem step {op : Receive.LinkOp} (h : OneLoop s) (hi : LinkInv s) (hg : GateStreams s.gate)
    (hst : s.gate.w.Starts) (hfl : Flagged s.gate)
    (hop : ∀ l, loopOf op = some l → l = 0) (hs : s.step op = some s') : OneLoop s' := by
  -- The loop moves without a step of the gate.
  have hmove : ∀ {st}, s.loop 0 ≠ .dropped → st.request = (s.loop 0).request →
      (∀ o, st ≠ .finished o) → st ≠ .ended → OneLoop (s.setLoop 0 st) := fun hd hr hf he =>
    h.moved rfl (.inl (hr ▸ h.serving hd)) (fun o hst => absurd hst (hf o)) h.flagged
      fun hst => absurd hst he
  have hend : s.gate.closed = true → Serving s.gate none (got s) →
      OneLoop (s.yield 0 none .ended) := fun hc hserv =>
    h.moved rfl (.inl (by rw [got_yield_none]; exact hserv)) (by simp) h.flagged fun _ => hc
  have hidle : s.loop 0 ≠ .dropped → (s.loop 0).request = none →
      Serving s.gate none (got s) := fun hd hr => hr ▸ h.serving hd
  -- An open that got no stream.
  have hrelease : ∀ {o a}, s.loop 0 = .opening o → s.gate.answer o = some a → a ≠ .stream →
      Serving s.gate none (got s) := fun {o a} ht ha hne => by
    have hserv := h.serving (by rw [ht]; simp)
    rw [ht] at hserv
    refine hserv.release (fun id hid => ?_) (hi.gate.not_opens ha)
    rcases hg.kept o id (hi.kept 0 o (by rw [ht]; rfl)) hid with hsub | hans
    · rw [(hi.gate.subscribed o id hsub).2.1] at ha
      cases ha
    · rw [ha] at hans
      exact absurd (Option.some.inj hans) hne
  cases op with
  | gate op =>
    simp only [Link.step] at hs
    split at hs
    · rename_i hallow
      obtain ⟨g, hg', rfl⟩ := Option.map_eq_some_iff.mp hs
      exact h.gateStep hi hg hst hg' hallow
    · cases hs
  | flag k =>
    simp only [Link.step] at hs
    split at hs
    · rename_i hk
      obtain rfl := Option.some.inj hs
      exact ⟨h.others, h.served, h.finished, fun _ => hi.gate.marked k (by rw [hk]; rfl), h.ended⟩
    · cases hs
  | «open» l ok =>
    obtain rfl := hop l rfl
    simp only [Link.step] at hs
    split at hs
    · rename_i ht
      split at hs
      · obtain ⟨g, hg', rfl⟩ := Option.map_eq_some_iff.mp hs
        have hserv := h.serving (by rw [ht]; simp)
        rw [ht] at hserv
        exact h.moved (p := .opening s.requests) rfl (.inl (hserv.asks hg')) (by simp)
          (fun hsh => Gate.closed_step hg' (h.flagged hsh)) (by simp)
      · obtain rfl := Option.some.inj hs
        exact hmove (by rw [ht]; simp) (by rw [ht]; rfl) (by simp) (by simp)
    · cases hs
  | answered l =>
    obtain rfl := hop l rfl
    simp only [Link.step] at hs
    split at hs
    · rename_i o ht
      split at hs
      · obtain rfl := Option.some.inj hs
        exact hmove (by rw [ht]; simp) (by rw [ht]; rfl) (by simp) (by simp)
      · rename_i ha
        obtain rfl := Option.some.inj hs
        exact hend (hfl o ha) (hrelease ht ha (by simp))
      · rename_i ha
        obtain rfl := Option.some.inj hs
        exact h.moved (p := .backoff) rfl (.inl (hrelease ht ha (by simp))) (by simp) h.flagged (by simp)
      · cases hs
    · cases hs
  | next l =>
    obtain rfl := hop l rfl
    simp only [Link.step] at hs
    split at hs
    · rename_i o ht
      have hsame : s.loop = Function.update s.loop 0 (.streaming o) := by
        rw [← ht, Function.update_eq_self]
      split at hs
      · rename_i x hx
        exact h.poll (l := [x]) (f := .streaming o) hi hg hst ht rfl (by simp)
          (by rw [Gate.taken, hx]) hs rfl rfl got_yield_some rfl
      · rename_i e hx
        exact h.poll (l := []) (f := .streaming o) hi hg hst ht rfl (by simp)
          (by rw [Gate.taken, hx]) hs rfl hsame (List.append_nil _).symm rfl
      · rename_i hx
        exact h.poll (l := []) (f := .streaming o) hi hg hst ht rfl (by simp)
          (by rw [Gate.taken, hx]) hs rfl hsame (List.append_nil _).symm rfl
      · rename_i hx
        have hdrained := hi.gate.drained
          ⟨hi.streamed 0 o (.inl ht), hi.kept 0 o (by rw [ht]; rfl)⟩ hx
        exact h.poll (l := []) (f := .finished o) hi hg hst ht rfl (fun _ _ => hdrained)
          (by rw [Gate.taken, hx]) hs rfl rfl (List.append_nil _).symm rfl
    · cases hs
  | dropEnded l now =>
    obtain rfl := hop l rfl
    simp only [Link.step] at hs
    split at hs
    · rename_i o ht
      exact h.dropStream hi hg hst ht hs
    · cases hs
  | check l | wake l =>
    obtain rfl := hop l rfl
    simp only [Link.step] at hs
    split at hs
    · rename_i ht
      obtain rfl := Option.some.inj hs
      split
      · rename_i hsh
        exact hend (h.flagged hsh) (hidle (by rw [ht]; simp) (by rw [ht]; rfl))
      · exact hmove (by rw [ht]; simp) (by rw [ht]; rfl) (by simp) (by simp)
    · cases hs
  | pollEnded l =>
    obtain rfl := hop l rfl
    simp only [Link.step] at hs
    split at hs
    · rename_i ht
      obtain rfl := Option.some.inj hs
      exact hend (h.ended ht) (hidle (by rw [ht]; simp) (by rw [ht]; rfl))
    · cases hs
  | drop l now =>
    obtain rfl := hop l rfl
    have hdrop : ∀ {o}, (s.setLoop 0 .dropped).run (.drop o now) = some s' → OneLoop s' :=
      fun {o} hr => by
        obtain ⟨g, hg', rfl⟩ := Option.map_eq_some_iff.mp hr
        exact h.moved (p := .dropped) rfl
          (.inr ⟨rfl, h.got_prefix.trans (Gate.delivered_prefix hg')⟩) (by simp)
          (fun hsh => Gate.closed_step hg' (h.flagged hsh)) (by simp)
    simp only [Link.step] at hs
    split at hs
    · cases hs
    · exact hdrop hs
    · exact hdrop hs
    · exact hdrop hs
    · obtain rfl := Option.some.inj hs
      exact h.moved (p := .dropped) rfl (.inr ⟨rfl, h.got_prefix⟩) (by simp) h.flagged (by simp)

end OneLoop

/-- What a step of the link yields to the task. -/
inductive Yields (s s' : Link) (op : Receive.LinkOp) : Prop
  | nothing : s'.yielded 0 = s.yielded 0 → ((s'.loop 0).isOver = true → (s.loop 0).isOver = true) →
    (s.loop 0 = .ended → s'.loop 0 = .ended) → Yields s s' op
  | bundle (x : Delivery) : loopOf op = some 0 → s'.yielded 0 = s.yielded 0 ++ [some x] →
    (s'.loop 0).isOver = false → Yields s s' op
  | last : loopOf op = some 0 → s'.yielded 0 = s.yielded 0 ++ [none] →
    s'.loop 0 = .ended → Yields s s' op

theorem link_yields {s s' : Link} {op : Receive.LinkOp} (hop : ∀ l, loopOf op = some l → l = 0)
    (hdrop : ∀ l now, op ≠ .drop l now) (hs : s.step op = some s') : Yields s s' op := by
  have hmove : ∀ {v : Link} {p}, v.yielded = s.yielded → v.loop = Function.update s.loop 0 p →
      p.isOver = false → s.loop 0 ≠ .ended → Yields s v op := fun {v p} hy hl ho hne => by
    refine .nothing (by rw [hy]) (fun hov => ?_) fun h => absurd h hne
    rw [hl, Function.update_self, ho] at hov
    cases hov
  have hrun : ∀ {v : Link} {gop}, v.run gop = some s' →
      s'.yielded = v.yielded ∧ s'.loop = v.loop := fun {v gop} hr => by
    obtain ⟨g, -, rfl⟩ := Option.map_eq_some_iff.mp hr
    exact ⟨rfl, rfl⟩
  have hend : loopOf op = some 0 → Yields s (s.yield 0 none .ended) op := fun ho =>
    .last ho (by simp [Link.yield]) (by simp [Link.yield, Link.setLoop])
  cases op with
  | gate op =>
    simp only [Link.step] at hs
    split at hs
    · obtain ⟨hy, hl⟩ := hrun hs
      exact .nothing (by rw [hy]) (by rw [hl]; exact id) (by rw [hl]; exact id)
    · cases hs
  | flag k =>
    simp only [Link.step] at hs
    split at hs
    · obtain rfl := Option.some.inj hs
      exact .nothing rfl id id
    · cases hs
  | «open» l ok =>
    obtain rfl := hop l rfl
    simp only [Link.step] at hs
    split at hs
    · rename_i ht
      have hne : s.loop 0 ≠ .ended := by rw [ht]; simp
      split at hs
      · obtain ⟨hy, hl⟩ := hrun hs
        exact hmove hy hl rfl hne
      · obtain rfl := Option.some.inj hs
        exact hmove (p := .backoff) rfl rfl rfl hne
    · cases hs
  | answered l =>
    obtain rfl := hop l rfl
    simp only [Link.step] at hs
    split at hs
    · rename_i o ht
      have hne : s.loop 0 ≠ .ended := by rw [ht]; simp
      split at hs
      · obtain rfl := Option.some.inj hs
        exact hmove (p := .streaming o) rfl rfl rfl hne
      · obtain rfl := Option.some.inj hs
        exact hend rfl
      · obtain rfl := Option.some.inj hs
        exact hmove (p := .backoff) rfl rfl rfl hne
      · cases hs
    · cases hs
  | next l =>
    obtain rfl := hop l rfl
    simp only [Link.step] at hs
    split at hs
    · rename_i o ht
      have hne : s.loop 0 ≠ .ended := by rw [ht]; simp
      have hsame : s.loop = Function.update s.loop 0 (.streaming o) := by
        rw [← ht, Function.update_eq_self]
      split at hs
      · rename_i x hx
        obtain ⟨hy, hl⟩ := hrun hs
        refine .bundle x rfl (by rw [hy]; simp [Link.yield]) ?_
        rw [hl]
        show (Function.update s.loop 0 (.streaming o) 0).isOver = false
        rw [Function.update_self]
        rfl
      · obtain ⟨hy, hl⟩ := hrun hs
        exact hmove hy (hl.trans hsame) rfl hne
      · obtain ⟨hy, hl⟩ := hrun hs
        exact hmove hy (hl.trans hsame) rfl hne
      · obtain ⟨hy, hl⟩ := hrun hs
        exact hmove hy hl rfl hne
    · cases hs
  | dropEnded l now =>
    obtain rfl := hop l rfl
    simp only [Link.step] at hs
    split at hs
    · rename_i o ht
      obtain ⟨hy, hl⟩ := hrun hs
      exact hmove hy hl rfl (by rw [ht]; simp)
    · cases hs
  | check l =>
    obtain rfl := hop l rfl
    simp only [Link.step] at hs
    split at hs
    · rename_i ht
      obtain rfl := Option.some.inj hs
      split
      · exact hend rfl
      · exact hmove (p := .backoff) rfl rfl rfl (by rw [ht]; simp)
    · cases hs
  | wake l =>
    obtain rfl := hop l rfl
    simp only [Link.step] at hs
    split at hs
    · rename_i ht
      obtain rfl := Option.some.inj hs
      split
      · exact hend rfl
      · exact hmove (p := .top) rfl rfl rfl (by rw [ht]; simp)
    · cases hs
  | pollEnded l =>
    obtain rfl := hop l rfl
    simp only [Link.step] at hs
    split at hs
    · obtain rfl := Option.some.inj hs
      exact hend rfl
    · cases hs
  | drop l now => exact absurd rfl (hdrop l now)

/-! ## The task -/

/-- What was parsed. -/
def RxFate.bundle : RxFate β → Option β
  | invalid => none
  | put b | tooLarge b => some b

/-- The bundles that it is through with. -/
def RxTask.through (s : RxTask β) : List Delivery := s.log.map Prod.fst

structure RxInv (parse : List UInt8 → Option β) (s : RxTask β) : Prop where
  reach : Receive.linkSys.Reach s.link
  one : OneLoop s.link
  /-- A bundle is lost with the task only. -/
  log : ∃ lost, s.through ++ s.pc.holds ++ lost = got s.link ∧ (s.pc ≠ .dropped → lost = [])
  fate : ∀ e ∈ s.log, e.2.bundle = parse e.1.bundle.data
  parsed : ∀ x b, s.pc = .putting x b → parse x.bundle.data = some b
  isOver : (s.link.loop 0).isOver = true → s.pc = .ended ∨ s.pc = .dropped
  ended : s.pc = .ended → s.link.loop 0 = .ended

namespace RxInv

variable {parse : List UInt8 → Option β} {s s' : RxTask β}

theorem link_inv (h : RxInv parse s) :
    LinkInv s.link ∧ GateStreams s.link.gate ∧ s.link.gate.w.Starts ∧ Flagged s.link.gate := by
  obtain ⟨g, hg, rfl⟩ := link_gate.reach h.reach
  exact ⟨Receive.linkSys_inv.reach h.reach, (gate_starts.reach hg).1, (gate_starts.reach hg).2,
    gate_flagged.reach hg⟩

theorem eq_got (h : RxInv parse s) (hd : s.pc ≠ .dropped) :
    s.through ++ s.pc.holds = got s.link := by
  obtain ⟨lost, hlog, hnone⟩ := h.log
  rw [hnone hd, List.append_nil] at hlog
  exact hlog

theorem allows_loop {op : Receive.LinkOp} (ha : s.allows op = true) :
    (∀ l, loopOf op = some l → l = 0) ∧ (∀ l now, op ≠ .drop l now) ∧
      (loopOf op = some 0 → s.pc = .waiting) := by
  cases op with
  | gate _ | flag _ => exact ⟨nofun, nofun, nofun⟩
  | drop l now => simp [RxTask.allows] at ha
  | _ =>
    cases hpc : s.pc with
    | waiting =>
      simp only [RxTask.allows, hpc, beq_iff_eq] at ha
      refine ⟨fun l hl => ?_, nofun, fun _ => rfl⟩
      exact Option.some.inj (hl.symm.trans ha)
    | _ => simp [RxTask.allows, hpc] at ha

/-- The task polls, or the link does something else. -/
theorem stepLink {op : Receive.LinkOp} (h : RxInv parse s) (hs : s.step parse (.link op) = some s') :
    RxInv parse s' := by
  simp only [RxTask.step] at hs
  split at hs
  · rename_i ha
    obtain ⟨link, hl, rfl⟩ := Option.map_eq_some_iff.mp hs
    obtain ⟨hop, hdrop, hwait⟩ := allows_loop ha
    obtain ⟨hi, hg, hst, hfl⟩ := h.link_inv
    have hreach := h.reach.step hl
    have hone := h.one.step hi hg hst hfl hop hl
    have hy := link_yields hop hdrop hl
    cases hy with
    | nothing hsame hover hend =>
      have hpc : s.resume link = s.pc := by simp [RxTask.resume, hsame]
      have hgot : got link = got s.link := by simp only [got, hsame]
      refine ⟨hreach, hone, ?_, h.fate, ?_, fun ho => ?_, fun he => ?_⟩
      · show ∃ lost, s.through ++ (s.resume link).holds ++ lost = got link ∧
          (s.resume link ≠ .dropped → lost = [])
        rw [hpc, hgot]
        exact h.log
      · simpa only [hpc] using h.parsed
      · simpa only [hpc] using h.isOver (hover ho)
      · exact hend (h.ended (hpc ▸ he))
    | bundle x hself hnew hrun =>
      have hpc : s.resume link = .received x := by simp [RxTask.resume, hnew]
      have hgot : got link = got s.link ++ [x] := by simp [got, hnew]
      have hw := hwait hself
      have hlog := h.eq_got (by rw [hw]; nofun)
      rw [hw] at hlog
      refine ⟨hreach, hone, ⟨[], ?_, fun _ => rfl⟩, h.fate, ?_, fun ho => ?_, fun he => ?_⟩
      · rw [hgot, ← hlog]
        simp [RxTask.through, hpc, RxAt.holds]
      · rw [hpc]
        nofun
      · rw [hrun] at ho
        cases ho
      · rw [hpc] at he
        cases he
    | last hself hnew hend =>
      have hpc : s.resume link = .ended := by simp [RxTask.resume, hnew]
      have hgot : got link = got s.link := by simp [got, hnew]
      have hw := hwait hself
      have hlog := h.eq_got (by rw [hw]; nofun)
      rw [hw] at hlog
      refine ⟨hreach, hone, ⟨[], ?_, fun _ => rfl⟩, h.fate, ?_, fun _ => .inl hpc, fun _ => hend⟩
      · rw [hgot, ← hlog]
        simp [RxTask.through, hpc, RxAt.holds]
      · rw [hpc]
        nofun
  · cases hs

theorem parse_step (h : RxInv parse s) (hs : s.step parse .parse = some s') :
    RxInv parse s' := by
  simp only [RxTask.step] at hs
  split at hs
  · rename_i x hpc
    have hover : (s.link.loop 0).isOver = true → False := fun ho => by
      rcases h.isOver ho with hp | hp <;> rw [hpc] at hp <;> cases hp
    have hlog := h.eq_got (by rw [hpc]; nofun)
    rw [hpc] at hlog
    split at hs
    · rename_i b hb
      obtain rfl := Option.some.inj hs
      refine ⟨h.reach, h.one, ⟨[], ?_, fun _ => rfl⟩, h.fate, ?_, fun ho => (hover ho).elim, nofun⟩
      · rw [List.append_nil]
        exact hlog
      · rintro y c ⟨⟩
        exact hb
    · rename_i hb
      obtain rfl := Option.some.inj hs
      refine ⟨h.reach, h.one, ⟨[], ?_, fun _ => rfl⟩, fun e he => ?_, nofun,
        fun ho => (hover ho).elim, nofun⟩
      · rw [← hlog]
        simp [RxTask.through, RxAt.holds]
      · rcases List.mem_append.mp he with he | he
        · exact h.fate e he
        · obtain rfl := List.mem_singleton.mp he
          exact hb.symm
  · cases hs

theorem put_step {tooLarge : Bool} (h : RxInv parse s) (hs : s.step parse (.put tooLarge) = some s') :
    RxInv parse s' := by
  simp only [RxTask.step] at hs
  split at hs
  · rename_i x b hpc
    obtain rfl := Option.some.inj hs
    have hlog := h.eq_got (by rw [hpc]; nofun)
    rw [hpc] at hlog
    refine ⟨h.reach, h.one, ⟨[], ?_, fun _ => rfl⟩, fun e he => ?_, nofun, fun ho => ?_, nofun⟩
    · rw [← hlog]
      simp [RxTask.through, RxAt.holds]
    · rcases List.mem_append.mp he with he | he
      · exact h.fate e he
      · obtain rfl := List.mem_singleton.mp he
        have hb := h.parsed x b hpc
        cases tooLarge <;> exact hb.symm
    · rcases h.isOver ho with hp | hp <;> rw [hpc] at hp <;> cases hp
  · cases hs

theorem drop_step {now : Nat} (h : RxInv parse s) (hs : s.step parse (.drop now) = some s') :
    RxInv parse s' := by
  obtain ⟨hi, hg, hst, hfl⟩ := h.link_inv
  have hdrop : ∀ {link : Link}, s.pc ≠ .dropped → s.link.step (.drop 0 now) = some link →
      RxInv parse { s with link, pc := .dropped } := fun {link} hpc hl => by
    have hreach : Receive.linkSys.Reach link := h.reach.step (a := .drop 0 now) hl
    refine ⟨hreach, h.one.step hi hg hst hfl (by rintro l ⟨⟩; rfl) hl,
      ⟨s.pc.holds, ?_, fun hd => absurd rfl hd⟩, h.fate, nofun, fun _ => .inr rfl, nofun⟩
    have hgot : got link = got s.link := by
      simp only [Link.step] at hl
      split at hl
      · cases hl
      · obtain ⟨g, -, rfl⟩ := Option.map_eq_some_iff.mp hl
        rfl
      · obtain ⟨g, -, rfl⟩ := Option.map_eq_some_iff.mp hl
        rfl
      · obtain ⟨g, -, rfl⟩ := Option.map_eq_some_iff.mp hl
        rfl
      · obtain rfl := Option.some.inj hl
        rfl
    rw [hgot, ← h.eq_got hpc]
    simp [RxTask.through, RxAt.holds]
  simp only [RxTask.step] at hs
  split at hs
  · cases hs
  · cases hs
  · rename_i hpc
    obtain ⟨link, hl, rfl⟩ := Option.map_eq_some_iff.mp hs
    exact hdrop hpc hl

end RxInv

theorem rxSys_inv (parse : List UInt8 → Option β) : (rxSys parse).Inductive (RxInv parse) where
  init s hs := by
    obtain ⟨now, rfl⟩ := hs
    refine ⟨.init ⟨now, rfl⟩, ⟨fun _ _ => rfl, .inl ⟨⟨[], ?_, ?_, ?_, fun _ => rfl, rfl⟩, ?_, ?_⟩,
      nofun, nofun, nofun⟩, ⟨[], rfl, fun _ => rfl⟩, nofun, nofun, nofun, nofun⟩
    · rintro i j (hi | hi) <;> cases hi
    · rintro i hi
      cases hi
    · rintro i (hi | hi) <;> cases hi
    · rintro i (hi | hi) <;> cases hi
    · rintro o ho
      cases ho
  step s op s' h hs := by
    cases op with
    | link op => exact h.stepLink hs
    | parse => exact h.parse_step hs
    | put tooLarge => exact h.put_step hs
    | drop now => exact h.drop_step hs

variable {parse : List UInt8 → Option β} {s : RxTask β}

/-- In every reachable state: what became of a bundle is what its bytes say, and the task has gone
through the bundles in the order of their delivery. Unless the runtime drops the task, those that it
has not got wait in their order; it ends only when a shutdown has begun. -/
theorem rx_task_in_order (hs : (rxSys parse).Reach s) :
    (∀ e ∈ s.log, e.2.bundle = parse e.1.bundle.data) ∧
    s.through ++ s.pc.holds <+: s.link.gate.w.delivered ∧
    (s.pc ≠ .dropped → ∃ q, InOrder s.link.gate.w (s.through ++ s.pc.holds) q) ∧
    (s.pc = .ended → s.link.gate.closed = true) := by
  have h := (rxSys_inv parse).reach hs
  refine ⟨h.fate, ?_, fun hd => ?_, fun he => h.one.ended (h.ended he)⟩
  · obtain ⟨lost, hlog, -⟩ := h.log
    exact (List.prefix_append _ lost).trans (hlog ▸ h.one.got_prefix)
  · rw [h.eq_got hd]
    refine (h.one.serving fun hl => ?_).order
    rcases h.isOver (by rw [hl]; rfl) with he | he
    · rw [h.ended he] at hl
      cases hl
    · exact hd he

/-- The parser takes every nonempty bundle as it is; the second bundle is empty. -/
def rxParse : List UInt8 → Option (List UInt8)
  | [] => none
  | data => some data

/-- Three bundles arrive, and a call of `shutdown` returns; the task puts the first, cannot parse the
second, and has not got the third. -/
def rxRun : List RxOp :=
  [.link (.open 0 true), .link (.gate (.openLock 0)), .link (.gate (.openSubscribe 0 1)),
    .link (.gate (.stream 1 (.spawned 0))), .link (.gate (.openSend 0 1)),
    .link (.gate (.openUnlock 0)), .link (.answered 0),
    .link (.gate (.stream 1 (.deliver (.ok ⟨[7], 2, 40⟩)))),
    .link (.gate (.stream 1 (.deliver (.ok ⟨[], 3, 40⟩)))), .link (.next 0), .parse,
    .link (.gate (.stream 1 (.deliver (.ok ⟨[9], 2, 41⟩)))), .put false, .link (.next 0), .parse]

theorem rx_task_in_order_two : ∃ s, (rxSys rxParse).exec (.new 0) rxRun = some s ∧
    s.log = [(⟨0, [7], 2, 40⟩, .put [7]), (⟨1, [], 3, 40⟩, .invalid)] ∧
    ∃ q, InOrder s.link.gate.w s.through q := by
  have hrun : ((rxSys rxParse).exec (.new 0) rxRun).map (fun s => (s.pc, s.log)) =
      some (.waiting, [(⟨0, [7], 2, 40⟩, .put [7]), (⟨1, [], 3, 40⟩, .invalid)]) := by
    decide +kernel
  obtain ⟨s, hs, heq⟩ := Option.map_eq_some_iff.mp hrun
  obtain ⟨hpc, hlog⟩ := Prod.mk.inj heq
  obtain ⟨-, -, hq, -⟩ := rx_task_in_order (.of_exec ⟨0, rfl⟩ hs)
  obtain ⟨q, hq⟩ := hq (by rw [hpc]; nofun)
  rw [hpc] at hq
  exact ⟨s, hs, hlog, q, by simpa [RxAt.holds] using hq⟩

end Cspcl.Picod3tn
