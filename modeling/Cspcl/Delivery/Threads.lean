import Cspcl.Delivery.Honesty

/-!
# Whom a step concerns

A step is one of a thread in `cspcl_send_bundle`, of one in a receive call, or of neither
(`DeliveryOp.sender`, `DeliveryOp.receiver`). It moves no other thread.

* `step_tx`: what it does to the senders and their ends of the connections. `step_call`: a thread
  changes its call only when it makes one.
* `Locked`: who has the mutex of a pool is past its lock.
* `step_recv`: a step of another thread does not move a receiver.
-/

namespace Cspcl

namespace DeliveryOp

/-- The thread in `cspcl_send_bundle` that takes the step. -/
def sender : DeliveryOp → Option Nat
  | .send t _ _ _ _ | .lock t _ | .get t _ | .queue t | .sfpSend t _ | .read t _ | .invalidate t |
    .unlock t _ => some t
  | _ => none

/-- The thread in a receive call that takes the step. -/
def receiver : DeliveryOp → Option Nat
  | .recvBundle r _ _ | .accept r _ | .poll r | .recvFromConn r _ _ | .consume r |
    .sfpRecvFails r _ | .reassemble r _ | .ack r _ => some r
  | _ => none

end DeliveryOp

namespace World

variable {w w' : World} {op : DeliveryOp} {t r u : Nat}

/-! ## Senders -/

/-- What a step of thread `t`, which gets to `pc`, does to the mutexes of the pools. -/
inductive HolderMoves (s s' : Tx) (op : DeliveryOp) (t : Nat) (pc : SendPc) : Prop
  | same : s'.holder = s.holder → pc.holding = (s.send t).holding → HolderMoves s s' op t pc
  | takes (k : SendCall) : s'.holder = Function.update s.holder k.inst (some t) →
      (s.send t).holding = none → pc.holding = some k → HolderMoves s s' op t pc
  | frees (k : SendCall) : s'.holder = Function.update s.holder k.inst none →
      (s.send t).holding = some k → pc.holding = none → HolderMoves s s' op t pc
  /-- It fails to unlock. -/
  | keeps : op = .unlock t false → HolderMoves s s' op t pc

/-- A step of thread `t`, which gets to `pc`. -/
structure SendMoves (w w' : World) (op : DeliveryOp) (t : Nat) (pc : SendPc) : Prop where
  send : w'.tx.send = Function.update w.tx.send t pc
  call : ∀ k, pc.call = some k → (w.tx.send t).call = some k ∨
    op = .send t k.inst k.bundle k.addr k.port ∧ k.bundle.length ≤ maxBundleSize
  holder : HolderMoves w.tx w'.tx op t pc
  /-- What it closes is logged. -/
  calls : ∃ i l, w'.tx.calls = Function.update w.tx.calls i (w.tx.calls i ++ l) ∧
    ∀ c, (w'.link c).txOpen = false → (w.link c).txOpen = false ∨ Call.close c ∈ l
  attempts : ∀ y ∈ w'.tx.attempts, y ∈ w.tx.attempts ∨ (w.tx.send t).call = some y.call

/-- A step that calls nothing in libcsp. -/
theorem SendMoves.quiet {pc : SendPc} (hsend : w'.tx.send = Function.update w.tx.send t pc)
    (hcall : ∀ k, pc.call = some k → (w.tx.send t).call = some k ∨
      op = .send t k.inst k.bundle k.addr k.port ∧ k.bundle.length ≤ maxBundleSize)
    (hholder : HolderMoves w.tx w'.tx op t pc) (hcalls : w'.tx.calls = w.tx.calls)
    (hlink : ∀ c, (w'.link c).txOpen = (w.link c).txOpen)
    (hat : w'.tx.attempts = w.tx.attempts) : SendMoves w w' op t pc where
  send := hsend
  call := hcall
  holder := hholder
  calls := by
    refine ⟨0, [], ?_, fun c hc => .inl ?_⟩
    · rw [hcalls, List.append_nil, Function.update_eq_self]
    · rw [← hlink, hc]
  attempts y hy := .inl (hat ▸ hy)

/-- What the functions of the pool close, they log. -/
theorem txOpen_setTx {s : Tx} {l : List Call} {c : Conn}
    (h : ((w.setTx s l).link c).txOpen = false) :
    (w.link c).txOpen = false ∨ Call.close c ∈ l := by
  unfold setTx at h
  dsimp only at h
  split at h
  · exact .inr ‹_›
  · exact .inl h

theorem txOpen_setRx {s : Rx × List Conn} {c : Conn} :
    ((w.setRx s).link c).txOpen = (w.link c).txOpen := by
  unfold setRx
  dsimp only
  split <;> rfl

theorem txOpen_setLink {l : Link} {c d : Conn} (h : l.txOpen = (w.link c).txOpen) :
    ((w.setLink c l).link d).txOpen = (w.link d).txOpen := by
  rw [link_setLink]
  split
  · rename_i hd
    rw [hd, h]
  · rfl

theorem refuse_eq_none {i : Bool} {p : ConnPool} {bundle : Bundle}
    (h : Tx.refuse i p bundle = none) : bundle.length ≤ maxBundleSize := by
  unfold Tx.refuse at h
  grind

theorem step_tx (hs : w.step op = some w') :
    (op.sender = none ∧ w'.tx = w.tx ∧ ∀ c, (w'.link c).txOpen = (w.link c).txOpen) ∨
      ∃ t pc, op.sender = some t ∧ SendMoves w w' op t pc := by
  cases op with
  | send t i bundle addr port =>
    right
    simp only [World.step] at hs
    split at hs
    · rename_i hpc
      obtain rfl := Option.some.inj hs
      unfold Tx.begin
      dsimp only
      split
      · refine ⟨t, .idle, rfl, .quiet rfl ?_ (.same rfl ?_) rfl (fun _ => rfl) rfl⟩
        · rintro k ⟨⟩
        · rw [hpc]
      · rename_i hfit
        refine ⟨t, .locking _, rfl, .quiet rfl ?_ (.same rfl ?_) rfl (fun _ => rfl) rfl⟩
        · rintro k ⟨⟩
          exact .inr ⟨rfl, refuse_eq_none hfit⟩
        · rw [hpc]
          rfl
    · cases hs
  | lock t ok =>
    right
    simp only [World.step] at hs
    split at hs
    · rename_i k hpc
      split at hs
      · obtain rfl := Option.some.inj hs
        refine ⟨t, .idle, rfl, .quiet rfl ?_ (.same rfl ?_) rfl (fun _ => rfl) rfl⟩
        · rintro k ⟨⟩
        · rw [hpc]
          rfl
      split at hs
      · obtain rfl := Option.some.inj hs
        refine ⟨t, .getting k 0 cspErrTimedout, rfl,
          .quiet rfl ?_ (.takes k rfl ?_ rfl) rfl (fun _ => rfl) rfl⟩
        · rw [hpc]
          exact fun _ hk => .inl hk
        · rw [hpc]
          rfl
      · cases hs
    · cases hs
  | get t env =>
    right
    simp only [World.step] at hs
    split at hs
    · rename_i k n ret hpc
      split at hs
      · obtain rfl := Option.some.inj hs
        have hcall : (w.tx.send t).call = some k := by rw [hpc]; rfl
        have hhold : (w.tx.send t).holding = some k := by rw [hpc]; rfl
        have hclose : ∀ s c, ((w.setTx s ((w.tx.pool k.inst).getOrCreateLocked k.addr k.port
            env).2.2).link c).txOpen = false → _ := fun _ _ hc => txOpen_setTx hc
        unfold Tx.get
        dsimp only
        split
        · exact ⟨t, _, rfl, rfl, fun _ hk => .inl (hcall.trans hk), .same rfl hhold.symm,
            ⟨k.inst, _, rfl, hclose _⟩, fun y hy => .inl hy⟩
        · refine ⟨t, _, rfl, rfl, fun _ hk => .inl (hcall.trans hk), .same rfl hhold.symm,
            ⟨k.inst, _, rfl, hclose _⟩, fun y hy => ?_⟩
          rcases List.mem_append.mp hy with hy | hy
          · exact .inl hy
          · obtain rfl := List.mem_singleton.mp hy
            exact .inr hcall
      · cases hs
    · cases hs
  | queue t =>
    right
    simp only [World.step] at hs
    split at hs
    · rename_i a x j hpc
      split at hs
      · obtain rfl := Option.some.inj hs
        refine ⟨t, .sending a x (j + 1), rfl, .quiet rfl ?_ (.same rfl ?_) rfl ?_ rfl⟩
        · rw [hpc]
          exact fun _ hk => .inl hk
        · rw [hpc]
          rfl
        · intro c
          apply txOpen_setLink
          unfold Link.queue
          split <;> rfl
      · cases hs
    · cases hs
  | sfpSend t ret =>
    right
    simp only [World.step] at hs
    split at hs
    · rename_i a x j hpc
      split at hs
      · cases hs
      · obtain rfl := Option.some.inj hs
        refine ⟨t, _, rfl, rfl, ?_, .same rfl ?_, ⟨x.call.inst, _, rfl, fun c hc => .inl hc⟩,
          fun y hy => .inl hy⟩
        · rw [hpc]
          split <;> exact fun _ hk => .inl hk
        · rw [hpc]
          split <;> rfl
    · cases hs
  | read t packet =>
    right
    simp only [World.step] at hs
    split at hs
    · rename_i a x hpc
      have hcall : (w.tx.send t).call = some x.call := by rw [hpc]; rfl
      have hhold : (w.tx.send t).holding = some x.call := by rw [hpc]; rfl
      split at hs
      · obtain rfl := Option.some.inj hs
        exact ⟨t, _, rfl, rfl, fun _ hk => .inl (hcall.trans hk), .same rfl hhold.symm,
          ⟨x.call.inst, _, rfl, fun c hc => .inl hc⟩, fun y hy => .inl hy⟩
      split at hs
      · obtain rfl := Option.some.inj hs
        refine ⟨t, _, rfl, rfl, fun _ hk => .inl (hcall.trans hk), .same rfl hhold.symm,
          ⟨x.call.inst, _, rfl, fun c hc => .inl ?_⟩, fun y hy => .inl hy⟩
        rw [txOpen_setLink (by rfl)] at hc
        exact hc
      · cases hs
    · cases hs
  | invalidate t =>
    right
    simp only [World.step] at hs
    split at hs
    · rename_i a x ret hpc
      obtain rfl := Option.some.inj hs
      refine ⟨t, _, rfl, rfl, ?_, .same rfl ?_,
        ⟨x.call.inst, _, rfl, fun c hc => txOpen_setTx hc⟩, fun y hy => .inl hy⟩
      · rw [hpc]
        split <;> exact fun _ hk => .inl hk
      · rw [hpc]
        split <;> rfl
    · cases hs
  | unlock t ok =>
    right
    simp only [World.step] at hs
    split at hs
    · rename_i k err ack hpc
      obtain rfl := Option.some.inj hs
      have hhold : (w.tx.send t).holding = some k := by rw [hpc]; rfl
      cases ok with
      | true =>
        refine ⟨t, .idle, rfl, .quiet rfl ?_ (.frees k rfl hhold rfl) rfl (fun _ => rfl) rfl⟩
        rintro k ⟨⟩
      | false =>
        refine ⟨t, .idle, rfl, .quiet rfl ?_ (.keeps rfl) rfl (fun _ => rfl) rfl⟩
        rintro k ⟨⟩
    · cases hs
  | consume r =>
    left
    simp only [World.step] at hs
    split at hs
    · split at hs
      · obtain rfl := Option.some.inj hs
        exact ⟨rfl, rfl, fun _ => txOpen_setLink rfl⟩
      · cases hs
    · cases hs
  | ack r sent =>
    left
    simp only [World.step] at hs
    split at hs
    · obtain rfl := Option.some.inj hs
      split
      · refine ⟨rfl, rfl, fun d => txOpen_setLink ?_⟩
        unfold Link.ack
        split <;> rfl
      · exact ⟨rfl, rfl, fun _ => rfl⟩
    · cases hs
  | loseFrag c j | loseAck c j =>
    left
    obtain rfl := Option.some.inj hs
    exact ⟨rfl, rfl, fun _ => txOpen_setLink rfl⟩
  | _ =>
    left
    refine ⟨rfl, ?_⟩
    simp only [World.step] at hs
    repeat' split at hs
    all_goals first
      | exact Option.some.inj hs ▸ ⟨rfl, fun _ => rfl⟩
      | exact Option.some.inj hs ▸ ⟨rfl, fun _ => txOpen_setRx⟩
      | cases hs

theorem step_send (hs : w.step op = some w') (hu : op.sender ≠ some u) :
    w'.tx.send u = w.tx.send u := by
  rcases step_tx hs with ⟨-, htx, -⟩ | ⟨t, pc, ht, hm⟩
  · rw [htx]
  · have hut : u ≠ t := fun h => hu (h ▸ ht)
    rw [hm.send, Function.update_of_ne hut]

theorem step_call {k : SendCall} (hs : w.step op = some w')
    (hk : (w'.tx.send t).call = some k) : (w.tx.send t).call = some k ∨
      op = .send t k.inst k.bundle k.addr k.port ∧ k.bundle.length ≤ maxBundleSize := by
  rcases step_tx hs with ⟨-, htx, -⟩ | ⟨u, pc, -, hm⟩
  · rw [htx] at hk
    exact .inl hk
  · by_cases htu : t = u
    · subst htu
      rw [hm.send, Function.update_self] at hk
      exact hm.call k hk
    · rw [hm.send, Function.update_of_ne htu] at hk
      exact .inl hk

/-- Who has the mutex of a pool is past its lock. -/
def Locked (w : World) : Prop :=
  ∀ i u, w.tx.holder i = some u → ∃ k, (w.tx.send u).holding = some k ∧ k.inst = i

theorem Locked.step (h : w.Locked) (hs : w.step op = some w')
    (hop : ∀ t, op ≠ .unlock t false) : w'.Locked := by
  intro i u hi
  rcases step_tx hs with ⟨-, htx, -⟩ | ⟨t, pc, -, hm⟩
  · rw [htx] at hi ⊢
    exact h i u hi
  rw [hm.send, Function.update_apply]
  cases hm.holder with
  | same hh hpc =>
    rw [hh] at hi
    obtain ⟨k, hk, rfl⟩ := h i u hi
    split
    · rename_i hut
      exact ⟨k, by rw [hpc, ← hut, hk], rfl⟩
    · exact ⟨k, hk, rfl⟩
  | takes k hh hnone hpc =>
    rw [hh, Function.update_apply] at hi
    split at hi
    · rename_i hik
      obtain rfl := Option.some.inj hi
      exact ⟨k, by rw [if_pos rfl, hpc], hik.symm⟩
    · obtain ⟨k', hk', rfl⟩ := h i u hi
      -- It is not the thread that takes the mutex, which had none.
      have hut : u ≠ t := by
        rintro rfl
        rw [hnone] at hk'
        cases hk'
      rw [if_neg hut]
      exact ⟨k', hk', rfl⟩
  | frees k hh hk hpc =>
    rw [hh, Function.update_apply] at hi
    split at hi
    · cases hi
    · rename_i hik
      obtain ⟨k', hk', rfl⟩ := h i u hi
      split
      · rename_i hut
        subst hut
        obtain rfl := Option.some.inj (hk.symm.trans hk')
        exact absurd rfl hik
      · exact ⟨k', hk', rfl⟩
  | keeps hop' => exact absurd hop' (hop t)

/-! ## Receivers -/

theorem sfpRecvDone_recv {s : Rx} {m a : Nat} {site : RecvSite} {c : Conn} {res : SfpRecv}
    (hu : u ≠ r) : (s.sfpRecvDone r m site c a res).1.recv u = s.recv u := by
  unfold Rx.sfpRecvDone
  split
  · exact Function.update_of_ne hu ..
  · exact recvFailed_calms.recv u hu

theorem step_recv (hs : w.step op = some w') (hu : op.receiver ≠ some u) :
    w'.rx.recv u = w.rx.recv u := by
  have hne : ∀ r, op.receiver = some r → u ≠ r := fun r hr h => hu (h ▸ hr)
  cases op with
  | recvBundle r i maxLen =>
    simp only [World.step] at hs
    split at hs
    · obtain rfl := Option.some.inj hs
      exact Function.update_of_ne (hne r rfl) ..
    · cases hs
  | accept r res =>
    simp only [World.step] at hs
    split at hs
    · split at hs
      · split at hs
        · obtain rfl := Option.some.inj hs
          exact (acceptDone_calms _).recv u (hne r rfl)
        · cases hs
      · obtain rfl := Option.some.inj hs
        exact (acceptDone_calms _).recv u (hne r rfl)
    · cases hs
  | poll r =>
    simp only [World.step] at hs
    split at hs
    · obtain rfl := Option.some.inj hs
      exact poll_calms.recv u (hne r rfl)
    · cases hs
  | recvFromConn r c maxLen =>
    simp only [World.step] at hs
    split at hs
    · split at hs
      · obtain rfl := Option.some.inj hs
        exact Function.update_of_ne (hne r rfl) ..
      · cases hs
    · cases hs
  | consume r =>
    simp only [World.step] at hs
    split at hs
    · split at hs
      · obtain rfl := Option.some.inj hs
        exact Function.update_of_ne (hne r rfl) ..
      · cases hs
    · cases hs
  | sfpRecvFails r ret =>
    simp only [World.step] at hs
    split at hs
    · split at hs
      · cases hs
      · obtain rfl := Option.some.inj hs
        exact sfpRecvDone_recv (hne r rfl)
    · cases hs
  | reassemble r a =>
    simp only [World.step] at hs
    split at hs
    · split at hs
      · split at hs
        · obtain rfl := Option.some.inj hs
          exact sfpRecvDone_recv (hne r rfl)
        · cases hs
      · cases hs
    · cases hs
  | ack r sent =>
    simp only [World.step] at hs
    split at hs
    · rename_i site c a data _
      obtain rfl := Option.some.inj hs
      have hfin : (w.rx.finish r site c a data).recv u = w.rx.recv u := by
        unfold Rx.finish
        cases site <;> exact Function.update_of_ne (hne r rfl) ..
      split <;> exact hfin
    · cases hs
  | _ =>
    simp only [World.step] at hs
    repeat' split at hs
    all_goals first
      | exact Option.some.inj hs ▸ rfl
      | cases hs

end World

end Cspcl
