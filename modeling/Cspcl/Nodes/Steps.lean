import Cspcl.Nodes.Places

/-!
# The steps of the nodes

One lemma for each kind of place, and `nodesSys_inv`: the invariant of `Cspcl/Nodes/Places.lean`
holds in every reachable state.
-/

namespace Cspcl

namespace Nodes

variable {s s₁ s' : Nodes} {t u r i l : Nat} {c : Conn} {p q : NodePlace} {w : Bool}
  {op : DeliveryOp} {m : Mutex} {th : NodeThread}

/-! ## Mutexes -/

/-- A thread that waits for a mutex outside of C waits for that of its place. -/
theorem Inv.waits_of_wants (h : s.Inv) (ht : s.thread t = some th) (hm : s.wants t = some m)
    (hc : (th.place.sends && !th.waiting) = false) :
    th.waiting = true ∧ th.place.mutex s.proc = some m := by
  unfold wants at hm
  rw [ht] at hm
  dsimp only at hm
  split at hm
  · rename_i i bundle addr port k hplace hpc
    obtain ⟨_, _, _, hth⟩ := (h.fits t).call k (by rw [hpc]; rfl)
    rw [ht, Option.some.injEq] at hth
    subst hth
    cases hc
  · split at hm
    · exact ⟨‹_›, hm⟩
    · cases hm

/-- In C it waits for the pool of its instance. -/
theorem inC_of_wants (ht : s.thread t = some th) (hm : s.wants t = some m)
    (hc : (th.place.sends && !th.waiting) = true) :
    ∃ i bundle addr port, th = ⟨.send i bundle addr port .inC, false⟩ := by
  obtain ⟨q, w⟩ := th
  simp only [Bool.and_eq_true, Bool.not_eq_true'] at hc
  obtain ⟨-, rfl⟩ := hc
  unfold wants at hm
  rw [ht] at hm
  dsimp only at hm
  split at hm
  · exact ⟨_, _, _, _, rfl⟩
  · cases hm

theorem locks_of_holder (hm : s.holder m = none) : s.locks m = none := by
  cases m with
  | pool i => exact (Option.or_eq_none_iff.mp hm).1
  | _ => exact hm

theorem Inv.lock (h : s.Inv) (ht : s.thread t = some th) (hw : th.waiting = true)
    (hmutex : th.place.mutex s.proc = some m) (hfree : s.locks m = none) :
    Inv { s with
      thread := Function.update s.thread t (some { th with waiting := false })
      locks := Function.update s.locks m (some t) } := by
  refine h.keeps (t := t) ⟨rfl, ?_, ?_, fun _ _ => rfl, fun _ _ => rfl, fun _ _ _ hi => hi,
    fun _ hi => hi⟩ h.sound ?_ ?_
  · intro u hu
    exact Function.update_of_ne hu ..
  · intro u hu m'
    simp only [Function.update_apply]
    split
    · rename_i hm'
      rw [hm', hfree]
      simp [hu.symm]
    · exact .rfl
  · simp only [Function.update_self]
    refine ⟨fun m' => ?_, fun k hk => ?_, ?_, ?_, ?_⟩
    · have hold := (h.fits t).locks m'
      simp only [ht, Option.some.injEq, exists_eq_left', NodeThread.held, hw, if_true,
        List.append_nil] at hold
      simp only [Function.update_apply, Option.some.injEq, exists_eq_left', NodeThread.held,
        hmutex, Option.toList_some, List.mem_append]
      split
      · rename_i hm'
        simp [hm']
      · rename_i hm'
        simpa [hm'] using hold
    · obtain ⟨_, _, _, hth⟩ := (h.fits t).call k hk
      rw [ht, Option.some.injEq] at hth
      rw [hth] at hw
      cases hw
    · rcases (h.fits t).reads with hi | ⟨i, l, c, hth, -⟩
      · exact .inl hi
      · rw [ht, Option.some.injEq] at hth
        rw [hth] at hw
        cases hw
    · rintro x i ⟨⟩ hi
      exact (h.fits t).ref th i ht hi
    · intro i l w hx
      simp only [Option.some.injEq, NodeThread.mk.injEq] at hx
      refine (h.fits t).gone i l th.waiting ?_
      rw [ht, ← hx.1]
  · intro i l w hx
    simp only [Function.update_self, Option.some.injEq, NodeThread.mk.injEq] at hx
    refine .inr ⟨th.waiting, ?_⟩
    rw [ht, ← hx.1]

/-! ## Sends -/

/-- `cspcl_send_bundle` goes on, or returns. -/
theorem Inv.inSend {bundle : Bundle} {addr port : UInt8} (h : s.Inv)
    (hq : s.At t (.send i bundle addr port .inC)) (hsend : op.sender = some t)
    (hrecv : op.receiver = none) (hop : ∀ t, op ≠ .unlock t false)
    (hnew : ∀ u i bundle addr port, op ≠ .send u i bundle addr port) (hs : s.inC op = some s') :
    (if s'.d.tx.send t = .idle then s'.goto t (.send i bundle addr port .leaving) else s').Inv := by
  obtain ⟨d, hd, rfl⟩ := Option.map_eq_some_iff.mp hs
  obtain ⟨w, ht⟩ := hq.thread
  have hk : s.Keeps { s with d } t := by
    apply keeps_inC hd
    · intro u hu
      exact Option.some.inj (hu.symm.trans hsend)
    · rw [hrecv]
      nofun
  have hsound : d.Sound := h.sound.step hd hop
  have hidle : d.rx.recv t = .idle := by
    rw [World.step_recv hd (by rw [hrecv]; nofun)]
    rcases (h.fits t).reads with hi | ⟨i, l, c, hth, -⟩
    · exact hi
    · simp only [ht, Option.some.injEq, NodeThread.mk.injEq] at hth
      cases hth.1
  have hcall : ∀ k, (d.tx.send t).call = some k → (s.d.tx.send t).call = some k := by
    intro k hk
    rcases World.step_call hd hk with hk | ⟨hk, -⟩
    · exact hk
    · exact absurd hk (hnew _ _ _ _ _)
  split
  · rename_i hret
    apply h.goto hk hsound
    · intro m hm
      exact hq.locks m (List.mem_append_left _ hm)
    · intro k hk
      rw [show ({ s with d } : Nodes).d = d from rfl] at hret hk
      rw [hret] at hk
      cases hk
    · exact .inl hidle
    · intro j hj
      exact (h.fits t).ref _ j ht hj
    · intro j l hc
      cases hc
  · apply h.keeps hk hsound
    · exact ⟨(h.fits t).locks, fun k hk => (h.fits t).call k (hcall k hk), .inl hidle,
        (h.fits t).ref, (h.fits t).gone⟩
    · intro j l w' hc
      exact .inr ⟨w', hc⟩

/-- `cspcl_send_bundle` is called. -/
theorem Inv.sendTurn {bundle : Bundle} {addr port : UInt8} (h : s.Inv)
    (hq : s.At t (.send i bundle addr port .turn))
    (hs : s.inC (.send t i bundle addr port) = some s') :
    (s'.goto t (.send i bundle addr port
      (if s'.d.tx.send t = .idle then .leaving else .inC))).Inv := by
  obtain ⟨d, hd, rfl⟩ := Option.map_eq_some_iff.mp hs
  obtain ⟨w, ht⟩ := hq.thread
  have hk : s.Keeps { s with d } t := by
    apply keeps_inC hd
    · rintro u ⟨⟩
      rfl
    · nofun
  have hsound : d.Sound := h.sound.step hd nofun
  apply h.goto hk hsound
  · intro m hm
    apply hq.locks m
    split at hm <;> exact hm
  · intro k hk
    refine ⟨bundle, addr, port, ?_⟩
    rcases World.step_call hd hk with hold | ⟨hnew, -⟩
    · rw [h.call_none ht rfl] at hold
      cases hold
    · rw [if_neg]
      · simp only [DeliveryOp.send.injEq] at hnew
        rw [hnew.2.1]
      · intro hidle
        rw [hidle] at hk
        cases hk
  · left
    rw [show ({ s with d } : Nodes).d = d from rfl, World.step_recv hd nofun]
    exact h.recv_idle ht rfl
  · intro j hj
    apply (h.fits t).ref _ j ht
    split at hj <;> exact hj
  · intro j l hc
    cases hc

/-! ## Receive calls -/

/-- A call of `cspcl_recv_bundle_from_conn` goes on, or returns. -/
theorem reads_step {d : World} (hr : (s.d.rx.recv t).Reads c) (hop : op.recvBy t = true)
    (hd : s.d.step op = some d) :
    (s.recvResult t op = none ∧ (d.rx.recv t).Reads c) ∨
      (∃ res, s.recvResult t op = some res) ∧ d.rx.recv t = .idle := by
  cases op with
  | consume u =>
    obtain rfl : u = t := by simpa [DeliveryOp.recvBy] using hop
    left
    refine ⟨rfl, ?_⟩
    rcases hr with ⟨got, hr⟩ | ⟨a, data, hr⟩
    · simp only [World.step, hr] at hd
      split at hd
      · obtain rfl := Option.some.inj hd
        exact .inl ⟨_, Function.update_self ..⟩
      · cases hd
    · simp only [World.step, hr] at hd
      cases hd
  | sfpRecvFails u ret =>
    obtain rfl : u = t := by simpa [DeliveryOp.recvBy] using hop
    right
    refine ⟨⟨_, rfl⟩, ?_⟩
    rcases hr with ⟨got, hr⟩ | ⟨a, data, hr⟩
    · simp only [World.step, hr] at hd
      split at hd
      · cases hd
      · obtain rfl := Option.some.inj hd
        exact Function.update_self ..
    · simp only [World.step, hr] at hd
      cases hd
  | reassemble u a =>
    obtain rfl : u = t := by simpa [DeliveryOp.recvBy] using hop
    rcases hr with ⟨got, hr⟩ | ⟨b, data, hr⟩
    · simp only [World.step, hr] at hd
      split at hd
      · rename_i x hx
        split at hd
        · obtain rfl := Option.some.inj hd
          simp only [recvResult, hx, Option.map_some, World.setRx, Rx.sfpRecvDone]
          cases hres : recvFromConnTimeout maxBundleSize (.data (some x.call.bundle)) with
          | ok data => exact .inl ⟨rfl, .inr ⟨a, data, Function.update_self ..⟩⟩
          | error err => exact .inr ⟨⟨_, rfl⟩, Function.update_self ..⟩
        · cases hd
      · cases hd
    · simp only [World.step, hr] at hd
      cases hd
  | ack u sent =>
    obtain rfl : u = t := by simpa [DeliveryOp.recvBy] using hop
    right
    rcases hr with ⟨got, hr⟩ | ⟨a, data, hr⟩
    · simp only [World.step, hr] at hd
      cases hd
    · simp only [World.step, hr] at hd
      obtain rfl := Option.some.inj hd
      refine ⟨⟨.ok data, by simp only [recvResult, hr]⟩, ?_⟩
      cases sent <;> exact Function.update_self ..
  | _ => cases hop

theorem not_reads_idle {d : World} (hr : s.d.rx.recv t = .idle) (hop : op.recvBy t = true) :
    s.d.step op ≠ some d := by
  intro hd
  cases op with
  | consume u | sfpRecvFails u ret | reassemble u a | ack u sent =>
    obtain rfl : u = t := by simpa [DeliveryOp.recvBy] using hop
    simp only [World.step, hr] at hd
    cases hd
  | _ => cases hop

theorem recvBy_spec (hop : op.recvBy t = true) : op.sender = none ∧ op.receiver = some t := by
  cases op with
  | consume u | sfpRecvFails u ret | reassemble u a | ack u sent =>
    obtain rfl : u = t := by simpa [DeliveryOp.recvBy] using hop
    exact ⟨rfl, rfl⟩
  | _ => cases hop

theorem sendBy_spec (hop : op.sendBy t = true) : op.sender = some t ∧ op.receiver = none ∧
    (∀ t, op ≠ .unlock t false) ∧ ∀ u i bundle addr port, op ≠ .send u i bundle addr port := by
  cases op with
  | unlock u ok =>
    cases ok with
    | true =>
      obtain rfl : u = t := by simpa [DeliveryOp.sendBy] using hop
      exact ⟨rfl, rfl, nofun, nofun⟩
    | false => cases hop
  | get u env | queue u | sfpSend u ret | read u packet | invalidate u =>
    obtain rfl : u = t := by simpa [DeliveryOp.sendBy] using hop
    exact ⟨rfl, rfl, nofun, nofun⟩
  | _ => cases hop

/-- `cspcl_recv_bundle_from_conn` is called. -/
theorem Inv.recvTop (h : s.Inv) (hq : s.At t (.listen i l c .evicted))
    (hs : s.inC (.recvFromConn t c maxBundleSize) = some s') :
    (s'.goto t (.listen i l c .reading)).Inv := by
  obtain ⟨d, hd, rfl⟩ := Option.map_eq_some_iff.mp hs
  obtain ⟨w, ht⟩ := hq.thread
  have hk : s.Keeps { s with d } t := by
    apply keeps_inC hd
    · nofun
    · rintro u ⟨⟩
      rfl
  apply h.goto hk (h.sound.step hd nofun)
  · nofun
  · intro k hk
    rw [show ({ s with d } : Nodes).d = d from rfl, World.step_send hd nofun,
      h.call_none ht rfl] at hk
    cases hk
  · refine .inr ⟨i, l, c, rfl, .inl ⟨[], ?_⟩⟩
    simp only [World.step, h.recv_idle ht rfl] at hd
    split at hd
    · obtain rfl := Option.some.inj hd
      exact Function.update_self ..
    · cases hd
  · exact fun j hj => (h.fits t).ref _ j ht hj
  · rintro j w' ⟨⟩

/-- A read goes on. -/
theorem Inv.recvOn {d : World} (h : s.Inv) (hq : s.At t (.listen i l c .reading))
    (hop : op.recvBy t = true) (hd : s.d.step op = some d) (hres : s.recvResult t op = none) :
    Inv { s with d } := by
  obtain ⟨w, ht⟩ := hq.thread
  obtain ⟨hsend, hrecv⟩ := recvBy_spec hop
  have hk : s.Keeps { s with d } t := by
    apply keeps_inC hd
    · rw [hsend]
      nofun
    · intro u hu
      exact Option.some.inj (hu.symm.trans hrecv)
  have hsd : d.tx.send t = s.d.tx.send t := World.step_send hd (by rw [hsend]; nofun)
  apply h.keeps hk
  · apply h.sound.step hd
    rintro u rfl
    cases hsend
  · refine ⟨(h.fits t).locks, fun k hk => (h.fits t).call k (hsd ▸ hk), ?_, (h.fits t).ref,
      (h.fits t).gone⟩
    rcases (h.fits t).reads with hi | ⟨i', l', c', hth, hr⟩
    · exact absurd hd (not_reads_idle hi hop)
    · rcases reads_step hr hop hd with ⟨-, hr⟩ | ⟨⟨res, hres'⟩, -⟩
      · exact .inr ⟨i', l', c', hth, hr⟩
      · rw [hres] at hres'
        cases hres'
  · intro j l w' hc
    exact .inr ⟨w', hc⟩

/-- What a listener does with what its read returned. -/
theorem received_eq (s : Nodes) (t i l : Nat) (c : Conn) (env : NodeEnv)
    (res : Except CspclError Bundle) :
    ∃ s₁ p, s.received t i l c env res = s₁.goto t (.listen i l c p) ∧ s.Alike s₁ := by
  unfold received
  split
  · exact ⟨_, _, rfl, rfl, rfl, rfl, rfl, rfl, rfl, rfl, id⟩
  · exact ⟨s, _, rfl, .refl s⟩
  · exact ⟨s, _, rfl, .refl s⟩

/-- A read is over. -/
theorem Inv.recvDone {d : World} {res : Except CspclError Bundle} {env : NodeEnv} (h : s.Inv)
    (hq : s.At t (.listen i l c .reading)) (hop : op.recvBy t = true) (hd : s.d.step op = some d)
    (hres : s.recvResult t op = some res) :
    (({ s with d } : Nodes).received t i l c env res).Inv := by
  obtain ⟨w, ht⟩ := hq.thread
  obtain ⟨hsend, hrecv⟩ := recvBy_spec hop
  have hk : s.Keeps { s with d } t := by
    apply keeps_inC hd
    · rw [hsend]
      nofun
    · intro u hu
      exact Option.some.inj (hu.symm.trans hrecv)
  have hsd : d.tx.send t = s.d.tx.send t := World.step_send hd (by rw [hsend]; nofun)
  have hsound : d.Sound := by
    apply h.sound.step hd
    rintro u rfl
    cases hsend
  have hidle : d.rx.recv t = .idle := by
    rcases (h.fits t).reads with hi | ⟨i', l', c', hth, hr⟩
    · exact absurd hd (not_reads_idle hi hop)
    · rcases reads_step hr hop hd with ⟨hnone, -⟩ | ⟨-, hr⟩
      · rw [hres] at hnone
        cases hnone
      · exact hr
  obtain ⟨s₁, p, heq, ha⟩ := received_eq { s with d } t i l c env res
  rw [heq]
  apply h.goto (hk.trans (ha.keeps t)) (ha.sound hsound)
  · nofun
  · intro k hk
    rw [ha.send, show ({ s with d } : Nodes).d = d from rfl, hsd] at hk
    obtain ⟨_, _, _, hth⟩ := (h.fits t).call k hk
    simp only [ht, Option.some.injEq, NodeThread.mk.injEq] at hth
    cases hth.1
  · rw [ha.recv]
    exact .inl hidle
  · intro j hj
    rw [ha.refs]
    exact (h.fits t).ref _ j ht hj
  · nofun

/-! ## The other places -/

theorem outer_accept (i : Nat) (a : AcceptAt) :
    (NodePlace.accept i a).outer = [] ∨ (NodePlace.accept i a).outer = [.accept i] := by
  cases a with
  | isReceiving | acceptConn | rxLookup | rxCreate | rxRegister k | accepting | polled res =>
    exact .inr rfl
  | _ => exact .inl rfl

/-- The accept thread stays inside of `Cspcl::accept` only if it has that mutex. -/
theorem leads_accept {proc : Nat → Nat} {a b : AcceptAt}
    (hb : (NodePlace.accept i b).outer = [] ∨ Mutex.accept i ∈
      (NodePlace.accept i a).outer ++ ((NodePlace.accept i a).mutex proc).toList) :
    Leads proc (.accept i a) (.accept i b) where
  outer m hm := by
    rcases hb with hb | ha
    · rw [hb] at hm
      cases hm
    · rcases outer_accept i b with hb | hb
      · rw [hb] at hm
        cases hm
      · rw [hb] at hm
        rw [List.mem_singleton.mp hm]
        exact ha
  ref _ hi := hi
  stays := nofun

theorem leads_listen {proc : Nat → Nat} {a b : ListenAt} :
    Leads proc (.listen i l c a) (.listen i l c b) := ⟨nofun, fun _ hi => hi, nofun⟩

/-- A thread is about to drop its reference. -/
theorem leads_release {proc : Nat → Nat} {o : Option Nat} (hq : q.ref = some i) :
    Leads proc q (.release i o) := ⟨nofun, fun _ hi => hq.trans hi, nofun⟩

theorem Inv.not_gone_of_at (h : s.Inv) (hq : s.At t q) (hi : q.ref = some i) : ¬ s.Gone i := by
  obtain ⟨w, ht⟩ := hq.thread
  have hmem := (h.fits t).ref _ i ht hi
  intro hg
  rw [hg.1] at hmem
  cases hmem

theorem Inv.nextAccept {a : AcceptAt} {env : NodeEnv} (h : s.Inv) (hq : s.At t (.accept i a))
    (hs : s.nextAccept t i env a = some s') : s'.Inv := by
  cases a with
  | decide =>
    simp only [Nodes.nextAccept] at hs
    obtain rfl := Option.some.inj hs
    refine h.goOn hq rfl ⟨rfl, rfl, rfl, rfl, rfl, rfl, rfl, id⟩ ?_
    split
    · exact leads_accept (.inl rfl)
    · exact leads_release rfl
  | waitForSlot =>
    obtain rfl := Option.some.inj hs
    refine h.goOn hq rfl ⟨rfl, rfl, rfl, rfl, rfl, rfl, rfl, id⟩ ?_
    apply leads_accept
    left
    dsimp only
    split
    · rfl
    · split <;> rfl
  | pollConnection =>
    obtain rfl := Option.some.inj hs
    exact h.goOn hq rfl (.refl s) (leads_accept (.inr List.mem_cons_self))
  | isReceiving | acceptConn =>
    obtain rfl := Option.some.inj hs
    exact h.goOn hq rfl (.refl s) (leads_accept (.inr List.mem_cons_self))
  | rxLookup =>
    simp only [Nodes.nextAccept] at hs
    split at hs
    · obtain rfl := Option.some.inj hs
      exact h.goOn hq rfl ⟨rfl, rfl, rfl, rfl, rfl, rfl, rfl, id⟩
        (leads_accept (.inr List.mem_cons_self))
    · obtain rfl := Option.some.inj hs
      exact h.goOn hq rfl (.refl s) (leads_accept (.inr List.mem_cons_self))
  | rxCreate =>
    simp only [Nodes.nextAccept] at hs
    split at hs
    · obtain rfl := Option.some.inj hs
      exact h.goOn hq rfl ⟨rfl, rfl, rfl, rfl, rfl, rfl, rfl, id⟩
        (leads_accept (.inr List.mem_cons_self))
    · obtain rfl := Option.some.inj hs
      exact h.goOn hq rfl (.refl s) (leads_accept (.inr List.mem_cons_self))
  | rxRegister k =>
    obtain rfl := Option.some.inj hs
    exact h.goOn hq rfl ⟨rfl, rfl, rfl, rfl, rfl, rfl, rfl, id⟩
      (leads_accept (.inr List.mem_cons_self))
  | accepting =>
    simp only [Nodes.nextAccept] at hs
    split at hs
    · obtain rfl := Option.some.inj hs
      exact h.goOn hq rfl (.refl s) (leads_accept (.inr List.mem_cons_self))
    · split at hs
      · obtain ⟨s₁, hs₁, rfl⟩ := Option.map_eq_some_iff.mp hs
        obtain ⟨d, hd, rfl⟩ := Option.map_eq_some_iff.mp hs₁
        exact h.goOn hq rfl (alike_inC hd rfl rfl) (leads_accept (.inr List.mem_cons_self))
      · cases hs
  | polled res =>
    obtain rfl := Option.some.inj hs
    exact h.goOn hq rfl (.refl s) (leads_accept (.inr List.mem_cons_self))
  | register c key =>
    obtain rfl := Option.some.inj hs
    exact h.goOn hq rfl ⟨rfl, rfl, rfl, rfl, rfl, rfl, rfl, id⟩ (leads_accept (.inl rfl))
  | spawn c l =>
    simp only [Nodes.nextAccept] at hs
    split at hs
    · obtain ⟨s₁, hs₁, rfl⟩ := Option.map_eq_some_iff.mp hs
      have h₁ := h.spawn hs₁ (h.not_gone_of_at hq rfl) rfl rfl
      exact h₁.goOn (hq.spawn hs₁) rfl (.refl s₁) (leads_accept (.inl rfl))
    · obtain rfl := Option.some.inj hs
      exact h.goOn hq rfl (.refl s) (leads_accept (.inl rfl))
  | supersede l =>
    obtain rfl := Option.some.inj hs
    exact h.goOn hq rfl ⟨rfl, rfl, rfl, rfl, rfl, rfl, rfl, id⟩ (leads_accept (.inl rfl))
  | dropConn c l =>
    obtain ⟨s₁, hs₁, rfl⟩ := Option.map_eq_some_iff.mp hs
    obtain ⟨d, hd, rfl⟩ := Option.map_eq_some_iff.mp hs₁
    exact h.goOn hq rfl (alike_inC hd rfl rfl) (leads_accept (.inl rfl))
  | dropRunning l | deliver e =>
    obtain rfl := Option.some.inj hs
    exact h.goOn hq rfl ⟨rfl, rfl, rfl, rfl, rfl, rfl, rfl, id⟩ (leads_accept (.inl rfl))
  | slotFreed | backoff =>
    obtain rfl := Option.some.inj hs
    exact h.goOn hq rfl (.refl s) (leads_accept (.inl rfl))
  | pause =>
    obtain rfl := Option.some.inj hs
    apply h.goOn hq rfl (.refl s)
    apply leads_accept
    left
    split <;> rfl
  | unwind =>
    obtain rfl := Option.some.inj hs
    exact h.goOn hq rfl ⟨rfl, rfl, rfl, rfl, rfl, rfl, rfl, id⟩ (leads_release rfl)

theorem Inv.nextListen {a : ListenAt} {env : NodeEnv} (h : s.Inv) (hq : s.At t (.listen i l c a))
    (hs : s.nextListen t i l c env a = some s') : s'.Inv := by
  cases a with
  | top | stopped =>
    obtain rfl := Option.some.inj hs
    exact h.goOn hq rfl (.refl s) leads_listen
  | evicted =>
    simp only [Nodes.nextListen] at hs
    split at hs
    · obtain rfl := Option.some.inj hs
      exact h.goOn hq rfl (.refl s) leads_listen
    · obtain ⟨s₁, hs₁, rfl⟩ := Option.map_eq_some_iff.mp hs
      exact h.recvTop hq hs₁
  | reading =>
    simp only [Nodes.nextListen] at hs
    split at hs
    · rename_i hop
      obtain ⟨s₁, hs₁, rfl⟩ := Option.map_eq_some_iff.mp hs
      obtain ⟨d, hd, rfl⟩ := Option.map_eq_some_iff.mp hs₁
      split
      · rename_i res hres
        exact h.recvDone hq hop hd hres
      · rename_i hres
        exact h.recvOn hq hop hd hres
    · cases hs
  | deliver item =>
    obtain rfl := Option.some.inj hs
    exact h.goOn hq rfl ⟨rfl, rfl, rfl, rfl, rfl, rfl, rfl, id⟩ leads_listen
  | closing =>
    obtain ⟨s₁, hs₁, rfl⟩ := Option.map_eq_some_iff.mp hs
    obtain ⟨d, hd, rfl⟩ := Option.map_eq_some_iff.mp hs₁
    exact h.goOn hq rfl (alike_inC hd rfl rfl) (leads_release rfl)

theorem Inv.nextSend {a : SendAt} {bundle : Bundle} {addr port : UInt8} {env : NodeEnv}
    (h : s.Inv) (hq : s.At t (.send i bundle addr port a))
    (hs : s.nextSend t i bundle addr port env a = some s') : s'.Inv := by
  cases a with
  | turn =>
    simp only [Nodes.nextSend] at hs
    split at hs
    · obtain rfl := Option.some.inj hs
      exact h.goOn hq rfl (.refl s) ⟨fun _ hm => hm, fun _ hi => hi, nofun⟩
    · obtain ⟨s₁, hs₁, rfl⟩ := Option.map_eq_some_iff.mp hs
      exact h.sendTurn hq hs₁
  | inC =>
    simp only [Nodes.nextSend] at hs
    split at hs
    · rename_i hop
      obtain ⟨hsend, hrecv, hunlock, hnew⟩ := sendBy_spec hop
      obtain ⟨s₁, hs₁, rfl⟩ := Option.map_eq_some_iff.mp hs
      exact h.inSend hq hsend hrecv hunlock hnew hs₁
    · cases hs
  | leaving =>
    obtain rfl := Option.some.inj hs
    exact h.goOn hq rfl (.refl s) (leads_release rfl)

theorem Inv.nextClose {a : CloseAt} {env : NodeEnv} (h : s.Inv) (hq : s.At t (.close i a)) :
    (s.nextClose t i env a).Inv := by
  cases a with
  | begin | socket =>
    exact h.goOn hq rfl ⟨rfl, rfl, rfl, rfl, rfl, rfl, rfl, id⟩ ⟨nofun, fun _ hi => hi, nofun⟩
  | guardDrop => exact h.goOn hq rfl ⟨rfl, rfl, rfl, rfl, rfl, rfl, rfl, id⟩ (leads_release rfl)

/-- The thread that opened a stream gives it its reference. -/
theorem Inv.opened (h : s.Inv) (hq : s.At t q) (hin : q.inC = false) (hi : q.ref = some i)
    (ha : s.Alike s₁) : (s₁.opened t i).Inv := by
  obtain ⟨w, ht⟩ := hq.thread
  have hgone : ¬ s₁.Gone i := by
    unfold Gone
    rw [ha.refs, ha.owners]
    exact h.not_gone_of_at hq hi
  have hk : s₁.Keeps ((s₁.setOwners i (s₁.owners i + 1)).dropRef t i) t :=
    (keeps_setOwners hgone).trans keeps_dropRef
  refine h.exit ((ha.keeps t).trans hk) (ha.sound h.sound) ?_ ?_
  · show (s₁.d.tx.send t).call = none
    rw [ha.send]
    exact h.call_none ht hin
  · show s₁.d.rx.recv t = .idle
    rw [ha.recv]
    exact h.recv_idle ht hin

theorem Inv.nextOpen {a : OpenAt} {env : NodeEnv} (h : s.Inv) (hq : s.At t (.open i a))
    (hs : s.nextOpen t i env a = some s') : s'.Inv := by
  have hleads : ∀ b, Leads s.proc (.open i a) (.open i b) := fun _ =>
    ⟨nofun, fun _ hi => hi, nofun⟩
  cases a with
  | subscribe =>
    simp only [Nodes.nextOpen] at hs
    split at hs
    · obtain rfl := Option.some.inj hs
      exact h.goOn hq rfl (.refl s) (hleads _)
    · obtain rfl := Option.some.inj hs
      split
      · exact h.goOn hq rfl ⟨rfl, rfl, rfl, rfl, rfl, rfl, rfl, id⟩ (hleads _)
      · exact h.opened hq rfl rfl ⟨rfl, rfl, rfl, rfl, rfl, rfl, rfl, id⟩
  | closing =>
    obtain rfl := Option.some.inj hs
    exact h.goOn hq rfl (.refl s) (hleads _)
  | spawn n =>
    simp only [Nodes.nextOpen] at hs
    split at hs
    · obtain ⟨s₁, hs₁, rfl⟩ := Option.map_eq_some_iff.mp hs
      have h₁ := h.spawn hs₁ (h.not_gone_of_at hq rfl) rfl rfl
      exact h₁.opened (hq.spawn hs₁) rfl rfl (.refl s₁)
    · obtain rfl := Option.some.inj hs
      exact h.goOn hq rfl (.refl s) (hleads _)
  | acceptFailed n =>
    obtain rfl := Option.some.inj hs
    exact h.opened hq rfl rfl ⟨rfl, rfl, rfl, rfl, rfl, rfl, rfl, id⟩

/-! ## The end of a thread, and of an instance -/

theorem Inv.ends (h : s.Inv) (hq : s.At t q) (hin : q.inC = false) (ha : s.Alike s₁) :
    (s₁.exit t).Inv := by
  obtain ⟨w, ht⟩ := hq.thread
  refine h.exit (ha.keeps t) (ha.sound h.sound) ?_ ?_
  · rw [ha.send]
    exact h.call_none ht hin
  · rw [ha.recv]
    exact h.recv_idle ht hin

/-- Past its reference, a thread ends or marks its task as finished. -/
theorem Inv.afterRelease {o : Option Nat} (h : s.Inv) (ht : s.thread t = some ⟨q, w⟩)
    (hin : q.inC = false) (hk : s.Keeps s₁ t) (hd : s₁.d = s.d) :
    (s₁.afterRelease t i o).Inv := by
  cases o with
  | none =>
    refine h.exit hk (hd ▸ h.sound) ?_ ?_
    · rw [hd]
      exact h.call_none ht hin
    · rw [hd]
      exact h.recv_idle ht hin
  | some l =>
    refine h.goto hk (hd ▸ h.sound) nofun ?_ ?_ nofun nofun
    · intro k hk
      rw [hd, h.call_none ht hin] at hk
      cases hk
    · rw [hd]
      exact .inl (h.recv_idle ht hin)

theorem Inv.release {o : Option Nat} {env : NodeEnv} (h : s.Inv) (hq : s.At t (.release i o))
    (hs : s.next t env (.release i o) = some s') : s'.Inv := by
  obtain ⟨w, ht⟩ := hq.thread
  simp only [next] at hs
  obtain rfl := Option.some.inj hs
  split
  · rename_i hgone
    refine h.goto (keeps_dropRef (i := i)) h.sound nofun ?_ ?_ nofun ?_
    · intro k hk
      rw [show (s.dropRef t i).d = s.d from rfl, h.call_none ht rfl] at hk
      cases hk
    · exact .inl (h.recv_idle ht rfl)
    · rintro j l ⟨⟩
      exact ⟨(h.fits t).ref _ i ht rfl, hgone⟩
  · exact h.afterRelease ht rfl keeps_dropRef rfl

theorem Inv.next {env : NodeEnv} (h : s.Inv) (hq : s.At t q) (hs : s.next t env q = some s') :
    s'.Inv := by
  obtain ⟨w, ht⟩ := hq.thread
  cases q with
  | send i bundle addr port a => exact h.nextSend hq hs
  | accept i a => exact h.nextAccept hq hs
  | listen i l c a => exact h.nextListen hq hs
  | close i a =>
    obtain rfl := Option.some.inj hs
    exact h.nextClose hq
  | «open» i a => exact h.nextOpen hq hs
  | unsubscribe i n =>
    obtain rfl := Option.some.inj hs
    exact h.goOn hq rfl ⟨rfl, rfl, rfl, rfl, rfl, rfl, rfl, id⟩ (leads_release rfl)
  | init p =>
    obtain rfl := Option.some.inj hs
    exact h.ends hq rfl ⟨rfl, rfl, rfl, rfl, rfl, rfl, rfl, id⟩
  | release i o => exact h.release hq hs
  | cleanup i o =>
    obtain rfl := Option.some.inj hs
    refine h.afterRelease ht rfl ?_ rfl
    apply Alike.keeps
    exact ⟨rfl, rfl, rfl, rfl, rfl, rfl, rfl, id⟩
  | finish i l =>
    obtain rfl := Option.some.inj hs
    exact h.ends hq rfl ⟨rfl, rfl, rfl, rfl, rfl, rfl, rfl, id⟩

/-! ## All steps -/

theorem Inv.begin {k : NodeCall} (h : s.Inv) (ht : s.thread t = none) (hi : 0 < s.owners i) :
    (s.begin t i k).Inv := by
  have hgone : ¬ s.Gone i := fun hg => by
    rw [hg.2] at hi
    cases hi
  cases k with
  | sendBundle bundle addr port =>
    simp only [Nodes.begin]
    split
    · exact h
    · have hb := h.begins (n := s.owners i) (p := .send i bundle addr port .turn) ht hgone rfl rfl
      rw [setOwners_self] at hb
      exact hb
  | closeRxSocket =>
    have hb := h.begins (n := s.owners i) (p := .close i .begin) ht hgone rfl rfl
    rw [setOwners_self] at hb
    exact hb
  | inbound | dropStream n | dropCspcl => exact h.begins ht hgone rfl rfl

theorem Inv.inits (h : s.Inv) (ht : s.thread t = none) (n : Nat) : (s.goto t (.init n)).Inv := by
  obtain ⟨hcall, hrecv⟩ := h.quiet ht
  refine h.goto ((Alike.refl s).keeps t) h.sound nofun ?_ (.inl hrecv) nofun nofun
  intro k hk
  rw [hcall] at hk
  cases hk

/-- A thread panics outside of C. -/
theorem Inv.panics (h : s.Inv) (ht : s.thread t = some ⟨q, w⟩) (hin : q.inC = false)
    (hout : p.outer = []) (href : p.ref = q.ref) (hc : ∀ i l, p ≠ .cleanup i l) :
    (s.goto t p).Inv := by
  refine h.goto ((Alike.refl s).keeps t) h.sound ?_ ?_ (.inl (h.recv_idle ht hin)) ?_ ?_
  · rw [hout]
    nofun
  · intro k hk
    rw [h.call_none ht hin] at hk
    cases hk
  · exact fun j hj => (h.fits t).ref _ j ht (href ▸ hj)
  · exact fun j l hp => absurd hp (hc j l)

theorem Inv.step {op : NodesOp} (h : s.Inv) (hs : s.step op = some s') : s'.Inv := by
  cases op with
  | call t i k =>
    simp only [Nodes.step] at hs
    split at hs
    · rename_i hcond
      obtain rfl := Option.some.inj hs
      exact h.begin hcond.1 hcond.2
    · cases hs
  | init t n =>
    simp only [Nodes.step] at hs
    split at hs
    · rename_i ht
      obtain rfl := Option.some.inj hs
      exact h.inits ht n
    · cases hs
  | lock t ok =>
    simp only [Nodes.step] at hs
    split at hs
    · rename_i th m ht hm
      split at hs
      · cases hs
      rename_i hfree
      simp only [not_not] at hfree
      split at hs
      · -- In C, `cspcl_send_bundle` takes the pool.
        rename_i hc
        obtain ⟨i, bundle, addr, port, rfl⟩ := inC_of_wants ht hm hc
        obtain ⟨s₁, hs₁, rfl⟩ := Option.map_eq_some_iff.mp hs
        exact h.inSend (h.at ht nofun) rfl rfl (by nofun) (by nofun) hs₁
      · rename_i hc
        obtain rfl := Option.some.inj hs
        obtain ⟨hw, hmutex⟩ := h.waits_of_wants ht hm (by simpa using hc)
        exact h.lock ht hw hmutex (locks_of_holder hfree)
    · cases hs
  | run t env =>
    simp only [Nodes.step] at hs
    split at hs
    · rename_i th ht hm
      exact h.next (h.at ht (mutex_of_wants ht hm)) hs
    · cases hs
  | panic t =>
    simp only [Nodes.step] at hs
    split at hs
    · rename_i i a w ht
      split at hs
      all_goals cases hs
      exact h.panics ht rfl rfl rfl nofun
    · rename_i i l c a w ht
      split at hs
      all_goals cases hs
      rename_i hreading _
      refine h.panics ht ?_ rfl rfl nofun
      cases a with
      | reading => exact absurd rfl hreading
      | _ => rfl
    · cases hs
  | cloneCspcl i =>
    simp only [Nodes.step] at hs
    split at hs
    · rename_i hi
      obtain rfl := Option.some.inj hs
      refine h.unseen (fun t => keeps_setOwners fun hg => ?_) h.sound
      rw [hg.2] at hi
      cases hi
    · cases hs
  | poll i n =>
    obtain rfl := Option.some.inj hs
    exact h.alike ⟨rfl, rfl, rfl, rfl, rfl, rfl, rfl, id⟩
  | loseFrag c j | loseAck c j =>
    simp only [Nodes.step] at hs
    obtain ⟨d, hd, rfl⟩ := Option.map_eq_some_iff.mp hs
    exact h.alike (alike_inC hd rfl rfl)

end Nodes

open Nodes in
theorem nodesSys_inv : nodesSys.Inductive Nodes.Inv where
  init s hs := by
    obtain ⟨proc, inst, maxAgeEnv, globals, now, -, rfl⟩ := hs
    refine ⟨fun t => ⟨fun m => ?_, nofun, .inl rfl, nofun, nofun⟩, nofun, ?_, ?_, ?_⟩
    · constructor
      · nofun
      · rintro ⟨x, hx, -⟩
        cases hx
    · exact World.inv_inductive.init _ ⟨_, _, rfl⟩
    · exact World.ends_inductive.init _ ⟨_, _, rfl⟩
    · nofun
  step _ _ _ h hs := h.step hs

end Cspcl
