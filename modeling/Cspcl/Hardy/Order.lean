import Cspcl.Hardy.Unregister
import Cspcl.Receive.Serving

/-!
# The order in which a CLA of hardy dispatches

A CLA with one dispatcher, as `hardy-cspcl-server` starts it, dispatches the bundles in the order in
which its listeners delivered them: its dispatcher is the one requester behind its gate
(`Serving`).

* `OrderInv`: the dispatcher is served, or it has ended.
* `dispatched_in_order`: the statement.
-/

namespace Cspcl.Hardy

open Inbound Receive

variable {ι : Type} {peers : List (PeerConfig ι)} {s s' : ClaState ι}

/-- No dispatcher but the first is started. -/
def ClaOp.first : ClaOp → Bool
  | .start d => d == 0
  | _ => true

/-- A CLA with one dispatcher. -/
def oneSys (peers : List (PeerConfig ι)) : Lts (ClaState ι) ClaOp :=
  (claSys peers).guard fun _ op => op.first = true

/-- The bundles that were dispatched. -/
def ClaState.sent (s : ClaState ι) : List Delivery := s.calls.map SinkCall.delivery

/-- The dispatcher gets the bundles in order, or it has ended. -/
structure OrderInv (s : ClaState ι) : Prop where
  others : ∀ d, d ≠ 0 → s.task d = .unstarted
  sent : Serving s.gate (s.task 0).request s.sent ∨
    s.task 0 = .ended ∧ s.sent <+: s.gate.w.delivered

namespace OrderInv

theorem of_ended (h : ∀ d, d ≠ 0 → s.task d = .unstarted) (he : s.task 0 = .ended)
    (hp : s.sent <+: s.gate.w.delivered) : OrderInv s := ⟨h, .inr ⟨he, hp⟩⟩

/-- So far they were dispatched in order. -/
theorem sent_prefix (h : OrderInv s) : s.sent <+: s.gate.w.delivered := by
  rcases h.sent with hs | ⟨-, hp⟩
  · obtain ⟨q, hq⟩ := hs.order
    rw [← hq.all, List.append_assoc]
    exact List.prefix_append ..
  · exact hp

/-- The dispatchers that do not run do nothing. -/
theorem own_step {table : CspAddress → Option ι} {op : ClaOp} {d : Nat} (h : OrderInv s)
    (hone : op.first = true) (hd : op.task = some d) (hs : s.step table op = some s') :
    d = 0 ∧ s.task 0 ≠ .ended := by
  have hd0 : d = 0 := by
    by_contra hne
    have hun := h.others d hne
    cases op with
    | start d' =>
      cases hd
      exact hne (by simpa [ClaOp.first] using hone)
    | check d' now | poll d' ok now | dispatched d' =>
      cases hd
      simp [ClaState.step, hun] at hs
    | _ => cases hd
  subst hd0
  refine ⟨rfl, fun hend => ?_⟩
  cases op with
  | start d' | check d' now | poll d' ok now | dispatched d' =>
    cases hd
    simp [ClaState.step, hend] at hs
  | _ => cases hd

/-- The dispatcher moves. -/
theorem moved {v : ClaState ι} {p : TaskPlace} (h : OrderInv s)
    (ht : v.task = Function.update s.task 0 p)
    (hp : Serving v.gate p.request v.sent ∨ p = .ended ∧ v.sent <+: v.gate.w.delivered) :
    OrderInv v := by
  refine ⟨fun d hd => ?_, ?_⟩
  · rw [ht, Function.update_of_ne hd]
    exact h.others d hd
  · rw [ht, Function.update_self]
    exact hp

theorem poll {table : CspAddress → Option ι} {ok : Bool} {now : Nat} (h : OrderInv s)
    (hc : ClaInv table s) (hg : GateStreams s.gate) (hst : s.gate.w.Starts)
    (hserv : Serving s.gate (s.task 0).request s.sent)
    (hs : s.step table (.poll 0 ok now) = some s') : OrderInv s' := by
  have hgone : ∀ o, (s.task 0).request = some o → s.gate.gone o = false := hc.tasks.kept 0
  simp only [ClaState.step] at hs
  split at hs
  · rename_i ht
    rw [ht] at hserv
    split at hs
    · obtain ⟨g, hg', rfl⟩ := Option.map_eq_some_iff.mp hs
      exact h.moved (p := .checked (.answer s.requests)) rfl (.inl (hserv.asks hg'))
    · obtain rfl := Option.some.inj hs
      exact h.moved (p := .select .sleep) rfl (.inl hserv)
  · rename_i o ht
    rw [ht] at hserv
    have hgo := hgone o (by rw [ht]; rfl)
    obtain rfl := Option.some.inj hs
    refine h.moved rfl ?_
    show Serving s.gate _ s.sent ∨ _
    split
    · exact .inl hserv
    · exact .inr ⟨rfl, h.sent_prefix⟩
    · rename_i ha
      refine .inl (hserv.release (fun id hid => ?_) (hg.inv.not_opens ha))
      rcases hg.kept o id hgo hid with hsub | hans
      · rw [(hg.inv.subscribed o id hsub).2.1] at ha
        cases ha
      · rw [ha] at hans
        cases hans
    · exact .inl hserv
  · rename_i o ht
    rw [ht] at hserv hgone
    split at hs
    · rename_i x hx
      obtain ⟨g, hg', rfl⟩ := Option.map_eq_some_iff.mp hs
      have hnext := hserv.step hg hst hg' (by simp) hgone (by simp)
      refine h.moved (p := .dispatching o) rfl (.inl ?_)
      have hsent : ClaState.sent { s with calls := s.calls ++ [sinkCall table 0 o x] } =
          s.sent ++ s.gate.gives (.poll o) := by
        simp only [Gate.gives, Gate.taken, hx]
        exact List.map_append
      exact hsent ▸ hnext
    · rename_i e hx
      obtain ⟨g, hg', rfl⟩ := Option.map_eq_some_iff.mp hs
      have hnext := hserv.step hg hst hg' (by simp) hgone (by simp)
      simp only [Gate.gives, Gate.taken, hx, List.append_nil] at hnext
      exact h.moved (p := .select (.item o)) rfl (.inl hnext)
    · rename_i hx
      obtain ⟨g, hg', rfl⟩ := Option.map_eq_some_iff.mp hs
      have hnext := hserv.step hg hst hg' (by simp) hgone (by simp)
      simp only [Gate.gives, Gate.taken, hx, List.append_nil] at hnext
      exact h.moved (p := .select (.item o)) rfl (.inl hnext)
    · rename_i hx
      obtain ⟨g, hg', rfl⟩ := Option.map_eq_some_iff.mp hs
      have ha := hc.tasks.streamed 0 o (by rw [ht]; rfl)
      have hnext := hserv.step hg hst hg' (by simp) hgone
        (by rintro _ _ ⟨⟩; exact hg.inv.drained ⟨ha, hgone o rfl⟩ hx)
      simp only [Gate.gives, List.append_nil] at hnext
      have hnot := (hg.step hg').inv.not_opens ((gate_frame hg.inv hg').answer o _ ha)
      refine h.moved (p := .select .sleep) rfl (.inl (hnext.release (fun id hid => ?_) hnot))
      rw [Gate.stream_step hg'] at hid
      exact Gate.not_kept_drop hg' ha hid
  · rename_i ht
    rw [ht] at hserv
    obtain rfl := Option.some.inj hs
    cases ok <;> exact h.moved rfl (.inl hserv)
  · cases hs

theorem step {table : CspAddress → Option ι} {op : ClaOp} (h : OrderInv s) (hc : ClaInv table s)
    (hg : GateStreams s.gate) (hst : s.gate.w.Starts) (hone : op.first = true)
    (hs : s.step table op = some s') : OrderInv s' := by
  have hown : ∀ {d}, op.task = some d → d = 0 ∧ Serving s.gate (s.task 0).request s.sent :=
    fun {d} hd => by
      obtain ⟨hd0, hend⟩ := h.own_step hone hd hs
      exact ⟨hd0, h.sent.resolve_right fun he => hend he.1⟩
  cases op with
  | gate op =>
    simp only [ClaState.step] at hs
    split at hs
    · rename_i hallow
      obtain ⟨g, hg', rfl⟩ := Option.map_eq_some_iff.mp hs
      refine ⟨h.others, h.sent.imp (fun hserv => ?_) fun he =>
        ⟨he.1, he.2.trans (Gate.delivered_prefix hg')⟩⟩
      have hnext := hserv.step hg hst hg' (by rintro o rfl; cases hallow) (hc.tasks.kept 0)
        (by rintro o now rfl; cases hallow)
      have hgives : s.gate.gives op = [] := by
        cases op <;> first | rfl | cases hallow
      rw [hgives, List.append_nil] at hnext
      exact hnext
    · cases hs
  | register | cancel k =>
    obtain rfl := Option.some.inj hs
    exact ⟨h.others, h.sent⟩
  | start d =>
    obtain ⟨rfl, hserv⟩ := hown rfl
    simp only [ClaState.step] at hs
    split at hs
    · rename_i ht
      obtain rfl := Option.some.inj hs
      rw [ht.2] at hserv
      exact h.moved (p := .select .stream) rfl (.inl hserv)
    · cases hs
  | check d now =>
    obtain ⟨rfl, hserv⟩ := hown rfl
    simp only [ClaState.step] at hs
    split at hs
    · rename_i a ha
      split at hs
      · unfold ClaState.leave at hs
        split at hs
        · obtain ⟨g, hg', rfl⟩ := Option.map_eq_some_iff.mp hs
          exact h.moved (p := .ended) rfl
            (.inr ⟨rfl, h.sent_prefix.trans (Gate.delivered_prefix hg')⟩)
        · obtain rfl := Option.some.inj hs
          exact h.moved (p := .ended) rfl (.inr ⟨rfl, h.sent_prefix⟩)
      · obtain rfl := Option.some.inj hs
        rw [ha] at hserv
        cases a <;> exact h.moved rfl (.inl hserv)
    · cases hs
  | poll d ok now =>
    obtain ⟨rfl, hserv⟩ := hown rfl
    exact h.poll hc hg hst hserv hs
  | dispatched d =>
    obtain ⟨rfl, hserv⟩ := hown rfl
    simp only [ClaState.step] at hs
    split at hs
    · rename_i o ht
      obtain rfl := Option.some.inj hs
      rw [ht] at hserv
      exact h.moved (p := .select (.item o)) rfl (.inl hserv)
    · cases hs

end OrderInv

theorem oneSys_inv (peers : List (PeerConfig ι)) :
    (oneSys peers).Inductive fun s => ClaInv (cspToEndpoint peers) s ∧ OrderInv s := by
  refine (claSys_inv peers).guard.given ?_ fun s op s' hc h hs => ?_
  · rintro s ⟨now, rfl⟩
    refine ⟨fun _ _ => rfl, .inl ⟨⟨[], ⟨?_, ?_, ?_, fun _ => rfl, rfl⟩⟩, ?_, ?_⟩⟩
    · rintro i j (hi | hi) <;> cases hi
    · rintro i hi
      cases hi
    · rintro i (hi | hi) <;> cases hi
    · rintro i (hi | hi) <;> cases hi
    · rintro o ho
      cases ho
  · obtain ⟨hone, hs⟩ := Lts.guard_step.mp hs
    obtain ⟨hg, hst⟩ := gate_starts.reach hc.gate
    exact h.step hc hg hst hone hs

/-- In every reachable state: what was dispatched are the first deliveries, and until the dispatcher
has ended the others wait in their order. -/
theorem dispatched_in_order (hs : (oneSys peers).Reach s) : s.sent <+: s.gate.w.delivered ∧
    (s.task 0 ≠ .ended → ∃ q, InOrder s.gate.w s.sent q) := by
  obtain ⟨-, h⟩ := (oneSys_inv peers).reach hs
  exact ⟨h.sent_prefix, fun hend => (h.sent.resolve_right fun he => hend he.1).order⟩

/-- The stream of the first open ends by a panic of its accept thread; the second bundle comes
meanwhile, and is dispatched from the stream of the second open. -/
def reopenRun : List ClaOp :=
  dispatchRun ++ [.gate (.stream 0 (.panic 0)), .gate (.stream 0 (.deliver (.ok ⟨[8], 5, 20⟩))),
    .dispatched 0, .check 0 0, .poll 0 true 0, .check 0 0, .poll 0 true 0, .check 0 0,
    .poll 0 true 0, .gate (.openLock 1), .gate (.openSubscribe 1 0),
    .gate (.stream 0 (.spawned 1)), .gate (.openSend 1 0), .poll 0 true 0, .check 0 0,
    .poll 0 true 0]

theorem dispatched_in_order_reopened : ∃ s,
    (oneSys [(⟨9, 5, 20⟩ : PeerConfig Nat)]).exec (.new 0) reopenRun = some s ∧
    s.sent = [⟨0, ⟨[7], 5, 20⟩⟩, ⟨1, ⟨[8], 5, 20⟩⟩] ∧ s.sent <+: s.gate.w.delivered := by
  have hsent : ((oneSys [(⟨9, 5, 20⟩ : PeerConfig Nat)]).exec (.new 0) reopenRun).map
      ClaState.sent = some [⟨0, ⟨[7], 5, 20⟩⟩, ⟨1, ⟨[8], 5, 20⟩⟩] := by
    decide +kernel
  obtain ⟨s, hs, hsent⟩ := Option.map_eq_some_iff.mp hsent
  exact ⟨s, hs, hsent, (dispatched_in_order (.of_exec ⟨0, rfl⟩ hs)).1⟩

end Cspcl.Hardy
