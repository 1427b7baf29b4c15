import Cspcl.Delivery.Returns

/-!
# Which errors `cspcl_send_bundle` returns

On instances that are alive, an empty bundle is an `INVALID_PARAM`, one over `CSPCL_MAX_BUNDLE_SIZE`
a `BUNDLE_TOO_LARGE`, and any other is sent: what it returns then is about the transport.

* `World.Live`: the invariant, as the instances stay alive.
-/

namespace Cspcl

/-- What `cspcl_send_bundle` can return past its checks. -/
def CspclError.ofTransport : CspclError → Bool
  | .ok | .connection | .timeout | .cspSend => true
  | _ => false

/-- The call returned what its bundle deserves. -/
def Sent.Coded (y : Sent) : Prop :=
  if y.call.bundle.length = 0 then y.err = .invalidParam
  else if maxBundleSize < y.call.bundle.length then y.err = .bundleTooLarge
  else y.err.ofTransport = true

theorem ofTransport_sendResult {ret : CspErr} : (sendResult ret).ofTransport = true := by
  unfold sendResult
  split
  · rfl
  · split <;> rfl

namespace World

structure Live (w : World) : Prop where
  initialized : ∀ i, w.initialized i = true
  pool : ∀ i, (w.tx.pool i).initialized = true
  fits : ∀ t k, (w.tx.send t).call = some k →
    k.bundle.length ≠ 0 ∧ k.bundle.length ≤ maxBundleSize
  unlocking : ∀ t k err ack, w.tx.send t = .unlocking k err ack → err.ofTransport = true
  coded : ∀ y ∈ w.tx.sent, y.Coded

variable {w w' : World} {op : DeliveryOp} {t u i : Nat} {k k' : SendCall} {err : CspclError}
  {ack : Option AckRead}

theorem initialized_update {pool : Nat → ConnPool} {p : ConnPool} {j : Nat}
    (hp : p.initialized = (pool i).initialized) :
    (Function.update pool i p j).initialized = (pool j).initialized := by
  rw [Function.update_apply]
  split
  · rename_i hj
    rw [hp, hj]
  · rfl

theorem initialized_get {s : Tx} {n : Nat} {ret : CspErr} {env : ConnPool.GetEnv} :
    ((s.get t k n ret env).pool i).initialized = (s.pool i).initialized := by
  unfold Tx.get
  dsimp only
  split <;> exact initialized_update (ConnPool.initialized_getOrCreateLocked ..)

theorem initialized_readDone {s : Tx} {a : Nat} {x : Attempt} {packet : Option Nat} :
    ((s.readDone t a x packet).pool i).initialized = (s.pool i).initialized := by
  unfold Tx.readDone
  dsimp only
  split <;> exact initialized_update rfl

/-- No step ends an instance or its pool. -/
theorem step_initialized (hs : w.step op = some w') : w'.initialized = w.initialized ∧
    ∀ i, (w'.tx.pool i).initialized = (w.tx.pool i).initialized := by
  cases op with
  | get u env =>
    simp only [World.step] at hs
    repeat' split at hs
    all_goals cases hs
    exact ⟨rfl, fun i => initialized_get⟩
  | sfpSend u ret =>
    simp only [World.step] at hs
    repeat' split at hs
    all_goals cases hs
    exact ⟨rfl, fun i => initialized_update rfl⟩
  | read u packet =>
    simp only [World.step] at hs
    repeat' split at hs
    all_goals cases hs
    all_goals
      refine ⟨rfl, fun i => ?_⟩
      dsimp only [World.setLink]
      exact initialized_readDone
  | invalidate u =>
    simp only [World.step] at hs
    split at hs
    all_goals cases hs
    exact ⟨rfl, fun i => initialized_update ConnPool.initialized_invalidateLocked⟩
  | send u i bundle addr port =>
    simp only [World.step] at hs
    split at hs
    all_goals cases hs
    refine ⟨rfl, fun j => ?_⟩
    unfold Tx.begin
    dsimp only
    split <;> rfl
  | unlock u ok =>
    simp only [World.step] at hs
    split at hs
    all_goals cases hs
    refine ⟨rfl, fun j => ?_⟩
    cases ok <;> rfl
  | lock | queue | recvBundle | accept | poll | recvFromConn | consume | sfpRecvFails |
    reassemble | ack | acceptConn | closeConn | loseFrag | loseAck =>
    simp only [World.step] at hs
    repeat' split at hs
    all_goals cases hs
    all_goals exact ⟨rfl, fun _ => rfl⟩

theorem unlocking_get {s : Tx} {n : Nat} {ret : CspErr} {env : ConnPool.GetEnv}
    (h : (s.get t k n ret env).send t = .unlocking k' err ack) : err.ofTransport = true := by
  unfold Tx.get at h
  dsimp only at h
  split at h
  · cases (Function.update_self ..).symm.trans h
    split
    · rfl
    · exact ofTransport_sendResult
  · cases (Function.update_self ..).symm.trans h

theorem unlocking_readDone {s : Tx} {a : Nat} {x : Attempt} {packet : Option Nat}
    (h : (s.readDone t a x packet).send t = .unlocking k err ack) : err.ofTransport = true := by
  unfold Tx.readDone at h
  dsimp only at h
  split at h
  · cases (Function.update_self ..).symm.trans h
    exact ofTransport_sendResult
  · cases (Function.update_self ..).symm.trans h

/-- Past the loop of `cspcl_send_bundle`, its result is settled. -/
theorem step_unlocking (hs : w.step op = some w') (ht : w'.tx.send t = .unlocking k err ack) :
    w.tx.send t = .unlocking k err ack ∨ err.ofTransport = true := by
  by_cases ho : op.sender = some t
  · right
    cases op with
    | get u env =>
      obtain rfl := Option.some.inj ho
      simp only [World.step] at hs
      repeat' split at hs
      all_goals cases hs
      exact unlocking_get ht
    | read u packet =>
      obtain rfl := Option.some.inj ho
      simp only [World.step] at hs
      repeat' split at hs
      all_goals cases hs
      all_goals
        dsimp only [World.setLink] at ht
        exact unlocking_readDone ht
    | invalidate u =>
      obtain rfl := Option.some.inj ho
      simp only [World.step] at hs
      split at hs
      all_goals cases hs
      have ht := (Function.update_self ..).symm.trans ht
      split at ht
      · cases ht
      · cases ht
        exact ofTransport_sendResult
    | sfpSend u ret =>
      obtain rfl := Option.some.inj ho
      simp only [World.step] at hs
      repeat' split at hs
      all_goals cases hs
      have ht := (Function.update_self ..).symm.trans ht
      split at ht <;> cases ht
    | send u i bundle addr port =>
      obtain rfl := Option.some.inj ho
      obtain ⟨-, ⟨hlock, -⟩ | ⟨hidle, -⟩⟩ := step_enters hs
      · rw [hlock] at ht
        cases ht
      · rw [hidle] at ht
        cases ht
    | lock | queue =>
      obtain rfl := Option.some.inj ho
      simp only [World.step] at hs
      repeat' split at hs
      all_goals cases hs
      all_goals cases (Function.update_self ..).symm.trans ht
    | unlock u ok =>
      obtain rfl := Option.some.inj ho
      simp only [World.step] at hs
      split at hs
      all_goals cases hs
      cases (Function.update_self ..).symm.trans ht
    | _ => cases ho
  · exact .inl ((step_send hs ho).symm.trans ht)

theorem bundle_of_refuse {initialized : Bool} {p : ConnPool} {bundle : Bundle}
    (h : Tx.refuse initialized p bundle = none) :
    bundle.length ≠ 0 ∧ bundle.length ≤ maxBundleSize := by
  unfold Tx.refuse at h
  grind

theorem coded_of_refuse (h : w.Live)
    (hr : Tx.refuse (w.initialized k.inst) (w.tx.pool k.inst) k.bundle = some err) :
    (⟨k, err, ack⟩ : Sent).Coded := by
  unfold Tx.refuse at hr
  rw [h.initialized, h.pool] at hr
  unfold Sent.Coded
  grind

theorem Live.step (h : w.Live) (hs : w.step op = some w') : w'.Live := by
  obtain ⟨hi, hp⟩ := step_initialized hs
  refine ⟨fun i => ?_, fun i => ?_, fun t k hk => ?_, fun t k err ack ht => ?_, fun y hy => ?_⟩
  · rw [hi, h.initialized]
  · rw [hp, h.pool]
  · rcases step_call hs hk with hk' | ⟨rfl, -⟩
    · exact h.fits t k hk'
    · obtain ⟨-, ⟨-, -, hrefuse⟩ | ⟨hidle, -⟩⟩ := step_enters hs
      · exact bundle_of_refuse hrefuse
      · rw [hidle] at hk
        cases hk
  · rcases step_unlocking hs ht with ht' | herr
    · exact h.unlocking t k err ack ht'
    · exact herr
  · obtain ⟨-, hsent | ⟨k, err, ack, hsent, hwhy⟩⟩ := step_sent hs
    · exact h.coded y (hsent ▸ hy)
    · rw [hsent, List.mem_append, List.mem_singleton] at hy
      rcases hy with hy | rfl
      · exact h.coded y hy
      · rcases hwhy with hrefuse | ⟨t, hk, herr⟩
        · exact coded_of_refuse h hrefuse
        · obtain ⟨hne, hle⟩ := h.fits t k hk
          unfold Sent.Coded
          rw [if_neg hne, if_neg (Nat.not_lt.mpr hle)]
          rcases herr with rfl | ht
          · rfl
          · exact h.unlocking t k err ack ht

theorem live_new {initialized : Nat → Bool} {pool : Nat → Bool × Option CString}
    (hi : ∀ i, initialized i = true) (hp : ∀ i, (pool i).1 = true) : (new initialized pool).Live where
  initialized := hi
  pool i := by
    simp only [new, ConnPool.init, hp i]
    rfl
  fits := nofun
  unlocking := nofun
  coded := nofun

end World

end Cspcl
