import Cspcl.Delivery.Threads

/-!
# What a call of `cspcl_send_bundle` returns

`Tx.sent` logs the calls that have returned. A call enters it once, with what it returned
(`step_enters`, `step_inside`); nothing else changes the log, and the calls that have begun are
numbered (`step_logs`).
-/

namespace Cspcl.World

variable {w w' : World} {op : DeliveryOp} {t u i : Nat} {k : SendCall} {bundle : Bundle}
  {addr port : UInt8}

theorem idle_of_call {pc : SendPc} (h : pc.call = none) : pc = .idle := by
  cases pc <;> cases h
  rfl

theorem call_of_update {s s' : Tx} {pc : SendPc} (h : s'.send = Function.update s.send t pc)
    (hk : pc.call = some k) : (s'.send t).call = some k := by
  rw [h, Function.update_self, hk]

variable {s : Tx}

theorem call_get {n : Nat} {ret : CspErr} {env : ConnPool.GetEnv} :
    ((s.get t k n ret env).send t).call = some k ∧ (s.get t k n ret env).sent = s.sent ∧
      (s.get t k n ret env).started = s.started := by
  unfold Tx.get
  dsimp only
  split
  · exact ⟨call_of_update (s := s) rfl rfl, rfl, rfl⟩
  · exact ⟨call_of_update (s := s) rfl rfl, rfl, rfl⟩

theorem call_sfpSent {a : Nat} {x : Attempt} {ret : CspErr} :
    ((s.sfpSent t a x ret).send t).call = some x.call := by
  refine call_of_update (s := s) rfl ?_
  split <;> rfl

theorem call_readDone {a : Nat} {x : Attempt} {p : Option Nat} :
    ((s.readDone t a x p).send t).call = some x.call := by
  unfold Tx.readDone
  dsimp only
  split
  · exact call_of_update (s := s) rfl rfl
  · exact call_of_update (s := s) rfl rfl

theorem readDone_sent {a : Nat} {x : Attempt} {packet : Option Nat} :
    (s.readDone t a x packet).sent = s.sent ∧ (s.readDone t a x packet).started = s.started := by
  unfold Tx.readDone
  dsimp only
  split <;> exact ⟨rfl, rfl⟩

theorem call_invalidate {x : Attempt} {ret : CspErr} :
    ((s.invalidate t x ret).send t).call = some x.call := by
  refine call_of_update (s := s) rfl ?_
  split <;> rfl

/-- The call begins, with the next number; it is refused at once or goes on. -/
theorem step_enters (hs : w.step (.send t i bundle addr port) = some w') :
    w'.tx.started = w.tx.started + 1 ∧
      (w'.tx.send t = .locking ⟨w.tx.started, i, bundle, addr, port⟩ ∧ w'.tx.sent = w.tx.sent ∧
        Tx.refuse (w.initialized i) (w.tx.pool i) bundle = none ∨
        w'.tx.send t = .idle ∧ ∃ err, w'.tx.sent =
          w.tx.sent ++ [⟨⟨w.tx.started, i, bundle, addr, port⟩, err, none⟩] ∧
          Tx.refuse (w.initialized i) (w.tx.pool i) bundle = some err) := by
  simp only [World.step] at hs
  split at hs
  · obtain rfl := Option.some.inj hs
    unfold Tx.begin
    dsimp only
    split
    · rename_i err hrefuse
      exact ⟨rfl, .inr ⟨Function.update_self .., err, rfl, hrefuse⟩⟩
    · rename_i hrefuse
      exact ⟨rfl, .inl ⟨Function.update_self .., rfl, hrefuse⟩⟩
  · cases hs

/-- A call goes on, or returns and is logged. -/
theorem step_inside (hs : w.step op = some w') (ho : op.sender = some t)
    (hk : (w.tx.send t).call = some k) :
    w'.tx.started = w.tx.started ∧ ((w'.tx.send t).call = some k ∧ w'.tx.sent = w.tx.sent ∨
      w'.tx.send t = .idle ∧ ∃ err ack, w'.tx.sent = w.tx.sent ++ [⟨k, err, ack⟩] ∧
        (err = .connection ∨ w.tx.send t = .unlocking k err ack)) := by
  cases op with
  | send u i bundle addr port =>
    obtain rfl := Option.some.inj ho
    simp only [World.step] at hs
    split at hs
    · rename_i hpc
      rw [hpc] at hk
      cases hk
    · cases hs
  | lock u ok =>
    obtain rfl := Option.some.inj ho
    simp only [World.step] at hs
    split at hs
    · rename_i l hpc
      obtain rfl : l = k := by simpa [hpc, SendPc.call] using hk
      split at hs
      · obtain rfl := Option.some.inj hs
        exact ⟨rfl, .inr ⟨Function.update_self .., _, _, rfl, .inl rfl⟩⟩
      · split at hs
        · obtain rfl := Option.some.inj hs
          exact ⟨rfl, .inl ⟨call_of_update (s := w.tx) rfl rfl, rfl⟩⟩
        · cases hs
    · cases hs
  | get u env =>
    obtain rfl := Option.some.inj ho
    simp only [World.step] at hs
    split at hs
    · rename_i l n ret hpc
      obtain rfl : l = k := by simpa [hpc, SendPc.call] using hk
      split at hs
      · obtain rfl := Option.some.inj hs
        exact ⟨call_get.2.2, .inl ⟨call_get.1, call_get.2.1⟩⟩
      · cases hs
    · cases hs
  | queue u =>
    obtain rfl := Option.some.inj ho
    simp only [World.step] at hs
    split at hs
    · rename_i a x j hpc
      split at hs
      · obtain rfl := Option.some.inj hs
        rw [hpc] at hk
        exact ⟨rfl, .inl ⟨call_of_update (s := w.tx) rfl hk, rfl⟩⟩
      · cases hs
    · cases hs
  | sfpSend u ret =>
    obtain rfl := Option.some.inj ho
    simp only [World.step] at hs
    split at hs
    · rename_i a x j hpc
      rw [hpc] at hk
      split at hs
      · cases hs
      · obtain rfl := Option.some.inj hs
        exact ⟨rfl, .inl ⟨call_sfpSent.trans hk, rfl⟩⟩
    · cases hs
  | read u packet =>
    obtain rfl := Option.some.inj ho
    simp only [World.step] at hs
    split at hs
    · rename_i a x hpc
      rw [hpc] at hk
      split at hs
      · obtain rfl := Option.some.inj hs
        have hcall := (call_readDone (s := w.tx) (t := u) (a := a) (p := none)).trans hk
        exact ⟨readDone_sent.2, .inl ⟨hcall, readDone_sent.1⟩⟩
      · split at hs
        · rename_i b rest _
          obtain rfl := Option.some.inj hs
          have hcall := (call_readDone (s := w.tx) (t := u) (a := a) (p := some b)).trans hk
          exact ⟨readDone_sent.2, .inl ⟨hcall, readDone_sent.1⟩⟩
        · cases hs
    · cases hs
  | invalidate u =>
    obtain rfl := Option.some.inj ho
    simp only [World.step] at hs
    split at hs
    · rename_i a x ret hpc
      rw [hpc] at hk
      obtain rfl := Option.some.inj hs
      exact ⟨rfl, .inl ⟨call_invalidate.trans hk, rfl⟩⟩
    · cases hs
  | unlock u ok =>
    obtain rfl := Option.some.inj ho
    simp only [World.step] at hs
    split at hs
    · rename_i l err ack hpc
      obtain rfl : l = k := by simpa [hpc, SendPc.call] using hk
      obtain rfl := Option.some.inj hs
      refine ⟨?_, .inr ⟨?_, err, ack, ?_, .inr hpc⟩⟩
      · split <;> rfl
      · exact Function.update_self ..
      · split <;> rfl
    · cases hs
  | _ => cases ho

/-- What is logged is the call that returns. -/
theorem step_sent (hs : w.step op = some w') : w.tx.started ≤ w'.tx.started ∧
    (w'.tx.sent = w.tx.sent ∨ ∃ k err ack, w'.tx.sent = w.tx.sent ++ [⟨k, err, ack⟩] ∧
      (Tx.refuse (w.initialized k.inst) (w.tx.pool k.inst) k.bundle = some err ∨
        ∃ t, (w.tx.send t).call = some k ∧
          (err = .connection ∨ w.tx.send t = .unlocking k err ack))) := by
  rcases step_tx hs with ⟨-, htx, -⟩ | ⟨t, pc, ho, -⟩
  · rw [htx]
    exact ⟨le_refl _, .inl rfl⟩
  by_cases hsend : ∃ i bundle addr port, op = .send t i bundle addr port
  · obtain ⟨i, bundle, addr, port, rfl⟩ := hsend
    obtain ⟨hn, h⟩ := step_enters hs
    refine ⟨by omega, ?_⟩
    rcases h with ⟨-, hsent, -⟩ | ⟨-, err, hsent, hrefuse⟩
    · exact .inl hsent
    · exact .inr ⟨_, err, none, hsent, .inl hrefuse⟩
  · obtain ⟨k, hk⟩ : ∃ k, (w.tx.send t).call = some k := by
      by_contra hnone
      have hidle := idle_of_call (Option.eq_none_iff_forall_ne_some.mpr fun k hk => hnone ⟨k, hk⟩)
      cases op with
      | send u i bundle addr port =>
        obtain rfl := Option.some.inj ho
        exact hsend ⟨_, _, _, _, rfl⟩
      | lock | get | queue | sfpSend | read | invalidate | unlock =>
        obtain rfl := Option.some.inj ho
        simp only [World.step, hidle] at hs
        cases hs
      | _ => cases ho
    obtain ⟨hn, h⟩ := step_inside hs ho hk
    refine ⟨hn.ge, ?_⟩
    rcases h with ⟨-, hsent⟩ | ⟨-, err, ack, hsent, herr⟩
    · exact .inl hsent
    · exact .inr ⟨k, err, ack, hsent, .inr ⟨t, hk, herr⟩⟩

/-- Calls are numbered in turn, and what has returned stays so. -/
theorem step_logs (hs : w.step op = some w') :
    w.tx.started ≤ w'.tx.started ∧ ∃ l, w'.tx.sent = w.tx.sent ++ l := by
  obtain ⟨hn, h⟩ := step_sent hs
  refine ⟨hn, ?_⟩
  rcases h with hsent | ⟨k, err, ack, hsent, -⟩
  · exact ⟨[], by rw [hsent, List.append_nil]⟩
  · exact ⟨_, hsent⟩

end Cspcl.World
