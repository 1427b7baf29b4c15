import Cspcl.Delivery.Packets

/-!
# Delivery honesty

`Reported`: what the results of `cspcl_send_bundle` say is true, before and after it returns. With
the invariants of the senders and of the packets it is kept by every step (`Inv.step`), and
`delivery_honest` reads it off every reachable world.
-/

namespace Cspcl

theorem sendResult_eq_ok {ret : CspErr} : sendResult ret = .ok ↔ ret = cspErrNone := by
  unfold sendResult
  constructor
  · intro h
    split at h
    · cases h
    · split at h
      · cases h
      · rename_i hne
        exact not_not.mp hne
  · rintro rfl
    rfl

theorem Tx.begin_of_refused {s : Tx} {i : Bool} {t : Nat} {k : SendCall} {err : CspclError}
    (h : refuse i (s.pool k.inst) k.bundle = some err) :
    s.begin i t k = Tx.finish { s with started := s.started + 1 } t k err none := by
  unfold Tx.begin
  dsimp only
  rw [h]

theorem Tx.begin_of_accepted {s : Tx} {i : Bool} {t : Nat} {k : SendCall}
    (h : refuse i (s.pool k.inst) k.bundle = none) :
    s.begin i t k = Tx.goto { s with started := s.started + 1 } t (.locking k) := by
  unfold Tx.begin
  dsimp only
  rw [h]

namespace World

variable {w w' : World} {t r : Nat} {k : SendCall} {ack : Option AckRead} {pc : SendPc}

theorem Delivered.mono (hg : w.tx.Grows w'.tx) (hr : ∀ q ∈ w.rx.received, q ∈ w'.rx.received)
    (h : w.Delivered k ack) : w'.Delivered k ack := by
  obtain ⟨a, x, q, hack, hx, hk, hq, hrest⟩ := h
  exact ⟨a, x, q, hack, hg a x hx, hk, hr q hq, hrest⟩

/-- What a thread is about to report is true. -/
def Good (w : World) : SendPc → Prop
  | .getting _ n ret => n = 0 ∨ ret ≠ cspErrNone
  | .failed _ _ ret => ret ≠ cspErrNone
  | .unlocking k err ack => err = .ok → w.Delivered k ack
  | .idle | .locking _ | .sending _ _ _ | .waiting _ _ => True

theorem Good.mono (hd : ∀ k ack, w.Delivered k ack → w'.Delivered k ack)
    (h : w.Good pc) : w'.Good pc := by
  cases pc with
  | unlocking k err ack => exact fun he => hd k ack (h he)
  | _ => exact h

/-- What `cspcl_send_bundle` reports is true. -/
structure Reported (w : World) : Prop where
  good : ∀ t, w.Good (w.tx.send t)
  sent : ∀ s ∈ w.tx.sent, s.err = .ok → w.Delivered s.call s.ack

/-- The invariant of the system. -/
structure Inv (w : World) : Prop where
  tx : w.tx.TxInv
  packets : w.Packets
  reported : w.Reported

/-! ## Steps of a sender -/

/-- Thread `t` goes to `pc` in `cspcl_send_bundle`: the receivers are not touched, acks are lost at
most. -/
structure Moves (w w' : World) (t : Nat) (pc : SendPc) : Prop where
  send : w'.tx.send = Function.update w.tx.send t pc
  rx : w'.rx = w.rx
  fwd : ∀ c, (w'.link c).fwd = (w.link c).fwd
  back : ∀ c, (w'.link c).back.Sublist (w.link c).back
  grows : w.tx.Grows w'.tx
  fresh : ∀ a x, pc = .sending a x 0 → w.tx.attempts.length ≤ a

theorem Moves.calms (h : w.Moves w' t pc) (htk : w'.tx.taken = w.tx.taken) : w.Calms w' where
  grows := h.grows
  send u a x hu := by
    rw [h.send, Function.update_apply] at hu
    split at hu
    · exact .inr (h.fresh a x hu)
    · exact .inl hu
  taken := htk
  recv u := by
    rw [h.rx]
    exact .inl rfl
  received := by rw [h.rx]
  fwd c := by rw [h.fwd]
  back := h.back

theorem Moves.delivered (h : w.Moves w' t pc) :
    ∀ k ack, w.Delivered k ack → w'.Delivered k ack := by
  intro k ack hd
  apply hd.mono h.grows
  rw [h.rx]
  exact fun q hq => hq

/-- What `t` is about to report, or has just reported, is true. -/
theorem Reported.move (h : w.Reported) (hm : w.Moves w' t pc) (hgood : w'.Good pc)
    (hsent : ∀ s ∈ w'.tx.sent, s ∈ w.tx.sent ∨ (s.err = .ok → w'.Delivered s.call s.ack)) :
    w'.Reported where
  good u := by
    rw [hm.send, Function.update_apply]
    split
    · exact hgood
    · exact (h.good u).mono hm.delivered
  sent s hs he := by
    rcases hsent s hs with hs | hs
    · exact hm.delivered _ _ (h.sent s hs he)
    · exact hs he

/-- A step of a sender that takes no ack and does not return. -/
theorem Inv.move (h : w.Inv) (hm : w.Moves w' t pc) (htx : w'.tx.TxInv)
    (htk : w'.tx.taken = w.tx.taken) (hst : w'.tx.sent = w.tx.sent) (hgood : w'.Good pc) :
    w'.Inv := by
  refine ⟨htx, h.packets.calm (hm.calms htk), h.reported.move hm hgood ?_⟩
  rw [hst]
  exact fun s hs => .inl hs

/-- `cspcl_send_bundle` returns. -/
theorem Inv.finish {s : Tx} {err : CspclError} (h : w.Inv) (hsend : s.send = w.tx.send)
    (hat : s.attempts = w.tx.attempts) (htk : s.taken = w.tx.taken) (hst : s.sent = w.tx.sent)
    (htx : (s.finish t k err ack).TxInv) (hd : err = .ok → w.Delivered k ack) :
    { w with tx := s.finish t k err ack }.Inv := by
  have hm : w.Moves { w with tx := s.finish t k err ack } t .idle := by
    refine ⟨?_, rfl, fun _ => rfl, fun _ => .refl _, ?_, nofun⟩
    · show Function.update s.send t .idle = _
      rw [hsend]
    · intro a x hx
      show s.attempts[a]? = some x
      rw [hat]
      exact hx
  refine ⟨htx, h.packets.calm (hm.calms htk), h.reported.move hm trivial ?_⟩
  show ∀ x ∈ s.sent ++ [_], _
  rw [hst]
  intro x hx
  rcases List.mem_append.mp hx with hx | hx
  · exact .inl hx
  · rw [List.mem_singleton.mp hx]
    exact .inr fun he => hm.delivered _ _ (hd he)

/-- The links after a function of a pool, which closes connections. -/
theorem setTx_link (s : Tx) (calls : List Call) (c : Conn) :
    ((w.setTx s calls).link c).fwd = (w.link c).fwd ∧
      ((w.setTx s calls).link c).back.Sublist (w.link c).back := by
  unfold setTx
  dsimp only
  split
  · exact ⟨rfl, List.nil_sublist _⟩
  · exact ⟨rfl, .refl _⟩

/-- Only the sending sides change. -/
theorem moves_tx {s : Tx} (hsend : s.send = Function.update w.tx.send t pc) (hg : w.tx.Grows s)
    (hfresh : ∀ a x, pc = .sending a x 0 → w.tx.attempts.length ≤ a) :
    w.Moves { w with tx := s } t pc :=
  ⟨hsend, rfl, fun _ => rfl, fun _ => .refl _, hg, hfresh⟩

theorem moves_setTx {s : Tx} (calls : List Call) (hsend : s.send = Function.update w.tx.send t pc)
    (hg : w.tx.Grows s) (hfresh : ∀ a x, pc = .sending a x 0 → w.tx.attempts.length ≤ a) :
    w.Moves (w.setTx s calls) t pc :=
  ⟨hsend, rfl, fun c => (setTx_link s calls c).1, fun c => (setTx_link s calls c).2, hg, hfresh⟩

theorem Inv.begin (h : w.Inv) (hpc : w.tx.send t = .idle) (hid : k.id = w.tx.started)
    (initialized : Bool) : { w with tx := w.tx.begin initialized t k }.Inv := by
  have htx := h.tx.begin initialized hpc hid
  cases he : Tx.refuse initialized (w.tx.pool k.inst) k.bundle with
  | some err =>
    rw [Tx.begin_of_refused he] at htx ⊢
    refine h.finish rfl rfl rfl rfl htx ?_
    rintro rfl
    -- A refusal is no success.
    unfold Tx.refuse at he
    split_ifs at he <;> cases he
  | none =>
    rw [Tx.begin_of_accepted he] at htx ⊢
    exact h.move (moves_tx rfl (fun _ _ hx => hx) nofun) htx rfl rfl trivial

theorem Inv.get {n : Nat} {ret : CspErr} {env : ConnPool.GetEnv} (h : w.Inv)
    (hpc : w.tx.send t = .getting k n ret)
    (hnew : env.connect = none ∨ env.connect = some w.tx.next) :
    (w.setTx (w.tx.get t k n ret env)
      ((w.tx.pool k.inst).getOrCreateLocked k.addr k.port env).2.2).Inv := by
  have htx := h.tx.get hpc env hnew
  have hgood : n = 0 ∨ ret ≠ cspErrNone := by
    have := h.reported.good t
    rwa [hpc] at this
  unfold Tx.get at htx ⊢
  dsimp only at htx ⊢
  split
  · rename_i he
    rw [he] at htx
    refine h.move (moves_setTx _ rfl (fun _ _ hx => hx) nofun) htx rfl rfl ?_
    intro hok
    split at hok
    · cases hok
    · exact absurd (sendResult_eq_ok.mp hok) (hgood.resolve_left ‹_›)
  · rename_i c he
    rw [he] at htx
    refine h.move (moves_setTx _ rfl (fun _ _ hx => getElem?_concat hx) ?_) htx rfl rfl trivial
    intro a x ha
    cases ha
    exact le_refl _

theorem Inv.queue {a j : Nat} {x : Attempt} (h : w.Inv) (hpc : w.tx.send t = .sending a x j) :
    ({ w with tx := w.tx.goto t (.sending a x (j + 1)) }.setLink x.conn
      ((w.link x.conn).queue ⟨a, j⟩)).Inv := by
  have hcur : (w.tx.send t).current = some (a, x) := by rw [hpc]; rfl
  have hx := (h.tx.conns.current t a x hcur).1
  have htx : (w.tx.goto t (.sending a x (j + 1))).TxInv :=
    h.tx.goto hpc ⟨rfl, rfl, rfl, le_refl _, nofun⟩
  have hm : w.Moves { w with tx := w.tx.goto t (.sending a x (j + 1)) } t (.sending a x (j + 1)) :=
    moves_tx rfl (fun _ _ hx => hx) nofun
  have hmid := h.move hm htx rfl rfl trivial
  refine ⟨htx, hmid.packets.queue ⟨x, hx, rfl⟩ ?_ ?_, ⟨hmid.reported.good, hmid.reported.sent⟩⟩
  · rintro rfl
    exact h.packets.queued t a x hpc
  · -- Another thread is in another attempt; this one has queued a fragment.
    intro u y hu
    have hu : (w.tx.goto t (.sending a x (j + 1))).send u = .sending a y 0 := hu
    rw [Tx.send_goto] at hu
    split at hu
    · cases hu
    · rename_i hut
      have hcur' : (w.tx.send u).current = some (a, y) := by rw [hu]; rfl
      obtain rfl : x = y := Option.some.inj (hx.symm.trans (h.tx.conns.current u a y hcur').1)
      exact Tx.inst_ne h.tx.calls hut (SendPc.holding_of_current hcur')
        (SendPc.holding_of_current hcur) rfl

theorem Inv.sfpSent {a j : Nat} {x : Attempt} (h : w.Inv) (hpc : w.tx.send t = .sending a x j)
    (ret : CspErr) : { w with tx := w.tx.sfpSent t a x ret }.Inv := by
  have htx := h.tx.sfpSent hpc ret
  refine h.move (moves_tx rfl (fun _ _ hx => hx) ?_) htx rfl rfl ?_
  · intro b y hb
    split at hb <;> cases hb
  · split
    · trivial
    · assumption

theorem Inv.readNone {a : Nat} {x : Attempt} (h : w.Inv) (hpc : w.tx.send t = .waiting a x) :
    { w with tx := w.tx.readDone t a x none }.Inv := by
  have hm : w.Moves { w with tx := w.tx.readDone t a x none } t
      (.failed a x (waitAck x.conn false).1) := moves_tx rfl (fun _ _ hx => hx) nofun
  apply h.move hm (h.tx.readNone hpc) rfl rfl
  show cspErrTimedout ≠ cspErrNone
  decide

/-- The packet that `csp_read` gives is the ack of the attempt, whose bundle was received. -/
theorem Inv.readSome {a b : Nat} {x : Attempt} {rest : List Nat} (h : w.Inv)
    (hpc : w.tx.send t = .waiting a x) (hb : (w.link x.conn).back = b :: rest) :
    ({ w with tx := w.tx.readDone t a x (some b) }.setLink x.conn
      { w.link x.conn with back := rest }).Inv := by
  have hcur : (w.tx.send t).current = some (a, x) := by rw [hpc]; rfl
  have hx := (h.tx.conns.current t a x hcur).1
  have hmem : b ∈ (w.link x.conn).back := by rw [hb]; exact List.mem_cons_self ..
  obtain ⟨⟨y, hy, hyc⟩, hrec⟩ := h.packets.back x.conn b hmem
  have hnew : b ∉ w.tx.taken := by
    intro hm
    have := h.packets.acks.place (.back x.conn) .taken b hmem hm
    cases this
  obtain rfl : b = a := h.tx.ack_own hcur hy hyc hnew
  obtain rfl : x = y := Option.some.inj (hx.symm.trans hy)
  have htx := h.tx.readSome hpc
  have hsend : (w.tx.readDone t b x (some b)).send = Function.update w.tx.send t
      (.unlocking x.call (sendResult (waitAck x.conn true).1) (some ⟨b, b⟩)) := rfl
  have hpk := h.packets.read (s := w.tx.readDone t b x (some b)) hb rfl rfl (by
    intro u a y hu
    rw [hsend, Function.update_apply] at hu
    split at hu
    · cases hu
    · exact hu)
  have hm : w.Moves ({ w with tx := w.tx.readDone t b x (some b) }.setLink x.conn
      { w.link x.conn with back := rest }) t
      (.unlocking x.call (sendResult (waitAck x.conn true).1) (some ⟨b, b⟩)) := by
    refine ⟨hsend, rfl, fun c => ?_, fun c => ?_, fun _ _ hx => hx, nofun⟩
    · rw [link_setLink]
      split
      · rw [‹c = x.conn›]
      · rfl
    · rw [link_setLink]
      split
      · rw [‹c = x.conn›, hb]
        exact List.sublist_cons_self ..
      · exact .refl _
  refine ⟨htx, hpk, h.reported.move hm ?_ fun s hs => .inl hs⟩
  intro _
  -- The attempt was received.
  obtain ⟨q, hq, hqa⟩ := List.mem_map.mp hrec
  obtain ⟨z, hz, hzc, hzb⟩ := h.packets.received q hq
  rw [hqa] at hz
  obtain rfl : x = z := Option.some.inj (hx.symm.trans hz)
  exact ⟨b, x, q, rfl, hx, rfl, hq, hqa, hzc.symm, hzb.symm⟩

theorem Inv.invalidate {a : Nat} {x : Attempt} {ret : CspErr} (h : w.Inv)
    (hpc : w.tx.send t = .failed a x ret) (calls : List Call) :
    (w.setTx (w.tx.invalidate t x ret) calls).Inv := by
  have hret : ret ≠ cspErrNone := by
    have := h.reported.good t
    rwa [hpc] at this
  refine h.move (moves_setTx _ rfl (fun _ _ hx => hx) ?_) (h.tx.invalidate hpc) rfl rfl ?_
  · intro b y hb
    split at hb <;> cases hb
  · split
    · exact .inr hret
    · exact fun hok => absurd (sendResult_eq_ok.mp hok) hret

theorem Inv.unlock {err : CspclError} (h : w.Inv) (hpc : w.tx.send t = .unlocking k err ack)
    (ok : Bool) :
    { w with tx := (if ok then w.tx.setHolder k.inst none else w.tx).finish t k err ack }.Inv := by
  have htx := h.tx.unlock hpc ok
  have hgood := h.reported.good t
  rw [hpc] at hgood
  cases ok
  · exact h.finish rfl rfl rfl rfl htx hgood
  · exact h.finish rfl rfl rfl rfl htx hgood

/-! ## Steps of a receiver and of the network -/

theorem Reported.same (h : w.Reported) (htx : w'.tx = w.tx)
    (hr : ∀ q ∈ w.rx.received, q ∈ w'.rx.received) : w'.Reported := by
  have hd : ∀ k ack, w.Delivered k ack → w'.Delivered k ack := fun k ack hd =>
    hd.mono (by rw [htx]; exact fun _ _ hx => hx) hr
  refine ⟨fun t => ?_, fun s hs he => ?_⟩
  · rw [htx]
    exact (h.good t).mono hd
  · rw [htx] at hs
    exact hd _ _ (h.sent s hs he)

/-- The receiver `r` does not hold packets any more, and returns no bundle. -/
structure Rx.Calms (s s' : Rx) (r : Nat) : Prop where
  recv : ∀ u, u ≠ r → s'.recv u = s.recv u
  calm : (s'.recv r).Calm
  received : s'.received = s.received

theorem rx_calms {s s' : Rx} {pc : RecvPc} (hpc : pc.Calm)
    (hr : s'.recv = Function.update s.recv r pc) (hrec : s'.received = s.received) :
    Rx.Calms s s' r := by
  refine ⟨fun u hu => ?_, ?_, hrec⟩
  · rw [hr, Function.update_of_ne hu]
  · rw [hr, Function.update_self]
    exact hpc

theorem dropSlot_calms {s : Rx} {i m start n : Nat} : Rx.Calms s (s.dropSlot r i m start n).1 r :=
  rx_calms (show (RecvPc.scanning i m start (n + 1)).Calm from trivial) rfl rfl

theorem acceptDone_calms {s : Rx} {i m live : Nat}
    (res : Except CspclError (Conn × UInt8 × UInt8)) :
    Rx.Calms s (s.acceptDone r i m live res).1 r := by
  unfold Rx.acceptDone
  split
  · refine rx_calms ?_ rfl rfl
    trivial
  · split
    · refine rx_calms ?_ rfl rfl
      trivial
    · refine rx_calms ?_ rfl rfl
      trivial

theorem poll_calms {s : Rx} {i m start n : Nat} : Rx.Calms s (s.poll r i m start n).1 r := by
  unfold Rx.poll
  split
  · dsimp only
    split
    · refine rx_calms ?_ rfl rfl
      trivial
    · split
      · refine rx_calms ?_ rfl rfl
        rfl
      · exact dropSlot_calms
  · refine rx_calms ?_ rfl rfl
    trivial

theorem recvFailed_calms {s : Rx} {m : Nat} {site : RecvSite} {err : CspclError} :
    Rx.Calms s (s.recvFailed r m site err).1 r := by
  unfold Rx.recvFailed
  split
  · refine rx_calms ?_ rfl rfl
    trivial
  · split
    · refine rx_calms ?_ rfl rfl
      trivial
    · exact dropSlot_calms

/-- A step of a receiver, or of the network, that loses packets at most. -/
theorem Inv.calm (h : w.Inv) (htx : w'.tx = w.tx) (hrecv : ∀ r, w'.rx.recv r = w.rx.recv r ∨
    (w'.rx.recv r).Calm) (hreceived : w'.rx.received = w.rx.received)
    (hlink : ∀ c, (w'.link c).fwd.Sublist (w.link c).fwd ∧
      (w'.link c).back.Sublist (w.link c).back) : w'.Inv where
  tx := by
    rw [htx]
    exact h.tx
  packets := by
    apply h.packets.calm
    refine ⟨?_, ?_, ?_, hrecv, hreceived, fun c => (hlink c).1, fun c => (hlink c).2⟩
    · rw [htx]
      exact fun _ _ hx => hx
    · rw [htx]
      exact fun _ _ _ hu => .inl hu
    · rw [htx]
  reported := by
    apply h.reported.same htx
    rw [hreceived]
    exact fun q hq => hq

theorem Inv.setRx {s : Rx × List Conn} (h : w.Inv) (hs : Rx.Calms w.rx s.1 r) :
    (w.setRx s).Inv := by
  refine h.calm rfl (fun u => ?_) hs.received fun c => ?_
  · by_cases hur : u = r
    · subst hur
      exact .inr hs.calm
    · exact .inl (hs.recv u hur)
  · unfold World.setRx
    dsimp only
    split
    · exact ⟨List.nil_sublist _, .refl _⟩
    · exact ⟨.refl _, .refl _⟩

theorem Inv.goto {pc : RecvPc} (h : w.Inv) (hpc : pc.Calm) :
    { w with rx := w.rx.goto r pc }.Inv := by
  have hs : Rx.Calms w.rx (w.rx.goto r pc) r := rx_calms hpc rfl rfl
  refine h.calm rfl (fun u => ?_) rfl fun _ => ⟨.refl _, .refl _⟩
  by_cases hur : u = r
  · subst hur
    exact .inr hs.calm
  · exact .inl (hs.recv u hur)

theorem Inv.reassemble {site : RecvSite} {m a : Nat} {c : Conn} {got : List Frag} {x : Attempt}
    (h : w.Inv) (hpc : w.rx.recv r = .reading site m c got) (hx : w.tx.attempts[a]? = some x)
    (hgot : ((List.range (frags x.call.bundle)).all fun j => ⟨a, j⟩ ∈ got) = true) :
    (w.setRx (w.rx.sfpRecvDone r m site c a (.data (some x.call.bundle)))).Inv := by
  unfold Rx.sfpRecvDone
  split
  · rename_i data he
    have hdata : data = x.call.bundle := by
      unfold recvFromConnTimeout at he
      dsimp only at he
      split_ifs at he
      exact (Except.ok.inj he).symm
    -- The bundle is not empty, so its first fragment was read.
    have hfirst : ⟨a, 0⟩ ∈ got := by
      have hne := (h.tx.calls.attempts x (List.mem_of_getElem? hx)).2.1
      have := List.all_eq_true.mp hgot 0 (List.mem_range.mpr (frags_pos hne))
      simpa using this
    have hpk := h.packets.reassemble hpc hx hfirst
    have hlink : (w.setRx (w.rx.goto r (.acking site c a data), [])) =
        { w with rx := w.rx.goto r (.acking site c a x.call.bundle) } := by
      subst hdata
      unfold World.setRx
      congr 1
    rw [hlink]
    exact ⟨h.tx, hpk, h.reported.same rfl fun q hq => hq⟩
  · exact h.setRx recvFailed_calms

theorem Inv.sendAck {site : RecvSite} {a : Nat} {c : Conn} {data : Bundle} (h : w.Inv)
    (hpc : w.rx.recv r = .acking site c a data) (sent : Bool) :
    (if sent then { w with rx := w.rx.finish r site c a data }.setLink c ((w.link c).ack a)
      else { w with rx := w.rx.finish r site c a data }).Inv := by
  obtain ⟨hpk, hon, hrec, hnew⟩ := h.packets.finish hpc
  have hkeep : ∀ q ∈ w.rx.received, q ∈ (w.rx.finish r site c a data).received := by
    intro q hq
    unfold Rx.finish
    cases site <;> exact List.mem_append_left _ hq
  split
  · exact ⟨h.tx, hpk.ack hon hrec hnew, h.reported.same rfl hkeep⟩
  · exact ⟨h.tx, hpk, h.reported.same rfl hkeep⟩

/-- Packets of one connection are lost. -/
theorem Inv.lose {c : Conn} {l : Link} (h : w.Inv) (hf : l.fwd.Sublist (w.link c).fwd)
    (hb : l.back.Sublist (w.link c).back) : (w.setLink c l).Inv := by
  refine h.calm rfl (fun _ => .inl rfl) rfl fun d => ?_
  rw [link_setLink]
  split
  · rename_i hd
    rw [hd]
    exact ⟨hf, hb⟩
  · exact ⟨.refl _, .refl _⟩

/-! ## All steps -/

theorem Inv.step {op : DeliveryOp} (h : w.Inv) (hs : w.step op = some w') : w'.Inv := by
  cases op with
  | send t i bundle addr port =>
    simp only [World.step] at hs
    split at hs <;> cases hs
    exact h.begin ‹_› rfl _
  | lock t ok =>
    simp only [World.step] at hs
    split at hs <;> try cases hs
    rename_i k hpc
    split at hs
    · cases hs
      refine h.finish (s := w.tx) rfl rfl rfl rfl ?_ nofun
      exact h.tx.finish k (by rw [hpc]; rfl) fun _ _ _ _ => rfl
    · split at hs <;> cases hs
      exact h.move (moves_tx rfl (fun _ _ hx => hx) nofun) (h.tx.lock hpc ‹_›) rfl rfl (.inl rfl)
  | get t env =>
    simp only [World.step] at hs
    split at hs <;> try cases hs
    split at hs <;> cases hs
    exact h.get ‹_› ‹_›
  | queue t =>
    simp only [World.step] at hs
    split at hs <;> try cases hs
    split at hs <;> cases hs
    exact h.queue ‹_›
  | sfpSend t ret =>
    simp only [World.step] at hs
    split at hs <;> try cases hs
    split at hs <;> cases hs
    exact h.sfpSent ‹_› ret
  | read t packet =>
    simp only [World.step] at hs
    split at hs <;> try cases hs
    split at hs
    · cases hs
      exact h.readNone ‹_›
    · split at hs <;> cases hs
      exact h.readSome ‹_› ‹_›
  | invalidate t =>
    simp only [World.step] at hs
    split at hs <;> cases hs
    exact h.invalidate ‹_› _
  | unlock t ok =>
    simp only [World.step] at hs
    split at hs <;> cases hs
    exact h.unlock ‹_› ok
  | recvBundle r i maxLen =>
    simp only [World.step] at hs
    split at hs <;> cases hs
    apply h.goto
    split <;> trivial
  | accept r res =>
    simp only [World.step] at hs
    split at hs <;> try cases hs
    split at hs
    · split at hs <;> cases hs
      exact h.setRx (acceptDone_calms _)
    · cases hs
      exact h.setRx (acceptDone_calms _)
  | poll r =>
    simp only [World.step] at hs
    split at hs <;> cases hs
    exact h.setRx poll_calms
  | recvFromConn r c maxLen =>
    simp only [World.step] at hs
    split at hs <;> try cases hs
    split at hs <;> cases hs
    exact h.goto rfl
  | consume r =>
    simp only [World.step] at hs
    split at hs <;> try cases hs
    split at hs <;> cases hs
    exact ⟨h.tx, h.packets.consume ‹_› ‹_›, h.reported.same rfl fun q hq => hq⟩
  | sfpRecvFails r ret =>
    simp only [World.step] at hs
    split at hs <;> try cases hs
    split at hs <;> cases hs
    exact h.setRx recvFailed_calms
  | reassemble r a =>
    simp only [World.step] at hs
    split at hs <;> try cases hs
    split at hs <;> try cases hs
    split at hs <;> cases hs
    exact h.reassemble ‹_› ‹_› ‹_›
  | ack r sent =>
    simp only [World.step] at hs
    split at hs <;> cases hs
    exact h.sendAck ‹_› sent
  | acceptConn c =>
    simp only [World.step] at hs
    split at hs <;> cases hs
    exact h.calm rfl (fun _ => .inl rfl) rfl fun _ => ⟨.refl _, .refl _⟩
  | closeConn c =>
    simp only [World.step] at hs
    split at hs <;> cases hs
    refine h.calm rfl (fun _ => .inl rfl) rfl fun d => ?_
    unfold World.setRx
    dsimp only
    split
    · exact ⟨List.nil_sublist _, .refl _⟩
    · exact ⟨.refl _, .refl _⟩
  | loseFrag c j =>
    cases hs
    exact h.lose (List.eraseIdx_sublist ..) (.refl _)
  | loseAck c j =>
    cases hs
    exact h.lose (.refl _) (List.eraseIdx_sublist ..)

theorem new_owns {initialized : Nat → Bool} {pool : Nat → Bool × Option CString} (i : Nat) :
    ((World.new initialized pool).tx.pool i).Owns [] := by
  show (ConnPool.init (pool i).1 (pool i).2).1.Owns []
  unfold ConnPool.init
  split
  · exact ⟨by simp [ConnPool.zero], by simp [ConnPool.zero], Ledger.ok_nil,
      by simp [ConnPool.zero, Ledger.live]⟩
  · exact ⟨by simp [ConnPool.zero], by simp [ConnPool.zero], Ledger.ok_nil,
      by simp [ConnPool.zero, Ledger.live]⟩

theorem inv_inductive : deliverySys.Inductive World.Inv where
  init := by
    rintro _ ⟨initialized, pool, rfl⟩
    refine ⟨⟨⟨new_owns, ?_, ?_⟩, ?_, ?_⟩, ?_, ?_⟩
    · exact fun _ _ hc => absurd hc List.not_mem_nil
    · exact fun _ _ _ hc => absurd hc List.not_mem_nil
    · exact ⟨nofun, nofun, nofun, nofun, nofun, nofun, List.nodup_nil⟩
    · refine ⟨nofun, nofun, ?_⟩
      intro i c a y _ hy
      simp [World.new] at hy
    · refine ⟨nofun, fun _ => trivial, nofun, ?_, nofun, nofun, ?_, nofun⟩
      · apply Apart.nil.shrink
        intro p
        cases p <;> exact .refl _
      · apply Apart.nil.shrink
        intro p
        cases p <;> exact .refl _
    · exact ⟨fun _ => trivial, nofun⟩
  step _ _ _ h hs := h.step hs

theorem causedBy_iff {id : Nat} {q : Received} : w.causedBy id q = true ↔
    ∃ x, w.tx.attempts[q.attempt]? = some x ∧ x.call.id = id := by
  unfold causedBy
  rw [Option.any_eq_true_iff_get]
  constructor
  · rintro ⟨hs, h⟩
    exact ⟨_, (Option.some_get hs).symm, by simpa using h⟩
  · rintro ⟨x, hx, h⟩
    simp [hx, h]

/-- A call makes at most two attempts, and each is received at most once. -/
theorem Inv.received_le (h : w.Inv) (id : Nat) :
    (w.rx.received.filter (w.causedBy id)).length ≤ 2 := by
  -- The pass that a received attempt was made in.
  let pass : Received → Nat := fun q => ((w.tx.attempts[q.attempt]?).map Attempt.n).getD 0
  have hpass : ∀ q ∈ w.rx.received.filter (w.causedBy id), ∃ x,
      w.tx.attempts[q.attempt]? = some x ∧ x.call.id = id ∧ pass q = x.n := by
    intro q hq
    obtain ⟨x, hx, hid⟩ := causedBy_iff.mp (List.mem_filter.mp hq).2
    refine ⟨x, hx, hid, ?_⟩
    show ((w.tx.attempts[q.attempt]?).map Attempt.n).getD 0 = x.n
    rw [hx]
    rfl
  have hattempts := h.packets.first.nodup .received
  have hinj : ∀ q ∈ w.rx.received.filter (w.causedBy id),
      ∀ q' ∈ w.rx.received.filter (w.causedBy id), pass q = pass q' → q = q' := by
    intro q hq q' hq' he
    obtain ⟨x, hx, hid, hn⟩ := hpass q hq
    obtain ⟨y, hy, hid', hn'⟩ := hpass q' hq'
    obtain ⟨hlt, -⟩ := List.getElem?_eq_some_iff.mp hx
    have hsame : q.attempt = q'.attempt := by
      refine (List.getElem?_inj (l := w.tx.attempts.map fun y => (y.call.id, y.n))
        (by rwa [List.length_map]) h.tx.calls.nodup).mp ?_
      rw [List.getElem?_map, List.getElem?_map, hx, hy, Option.map_some, Option.map_some, hid, hid',
        ← hn, ← hn', he]
    exact List.inj_on_of_nodup_map hattempts (List.mem_filter.mp hq).1 (List.mem_filter.mp hq').1
      hsame
  have hnodup : ((w.rx.received.filter (w.causedBy id)).map pass).Nodup :=
    (hattempts.of_map.filter _).map_on hinj
  have hsub : (w.rx.received.filter (w.causedBy id)).map pass ⊆ List.range 2 := by
    intro n hn
    obtain ⟨q, hq, rfl⟩ := List.mem_map.mp hn
    obtain ⟨x, hx, -, hn⟩ := hpass q hq
    rw [hn, List.mem_range]
    exact (h.tx.calls.attempts x (List.mem_of_getElem? hx)).2.2
  have hle := (List.subperm_of_subset hnodup hsub).length_le
  rwa [List.length_map, List.length_range] at hle

/-- In every interleaving of senders, receivers and the network: a send that returned `CSPCL_OK`
was received, by the other end of the connection that it used and for this very call, and at most
two receive calls return `CSPCL_OK` because of one send. -/
theorem delivery_honest (h : deliverySys.Reach w) : w.Honest := by
  have hi := inv_inductive.reach h
  exact ⟨hi.reported.sent, hi.packets.first.nodup .received, hi.received_le⟩

/-- A bundle that is received twice: the ack of the first attempt is lost, the connection is
closed, and the retry on a new connection is acknowledged. -/
def lostAckRun : List DeliveryOp :=
  [.send 0 0 [1, 2] 5 10, .lock 0 true, .get 0 ⟨0, 0, some 0⟩, .queue 0, .sfpSend 0 0,
    .recvBundle 7 1 100, .accept 7 (.ok (0, 1, 10))] ++ List.replicate 8 (.poll 7) ++
  [.consume 7, .reassemble 7 0, .ack 7 true, .loseAck 0 0, .read 0 false, .invalidate 0,
    .get 0 ⟨0, 0, some 1⟩, .queue 0, .sfpSend 0 0, .acceptConn 1, .recvFromConn 8 1 100, .consume 8,
    .reassemble 8 1, .ack 8 true, .read 0 true, .unlock 0 true]

theorem delivery_honest_lost_ack :
    ∃ w, deliverySys.exec (.new (fun _ => true) fun _ => (true, none)) lostAckRun = some w ∧
    w.Honest ∧ w.tx.sent.map Sent.err = [.ok] ∧
    w.rx.received = [⟨0, 0, [1, 2]⟩, ⟨1, 1, [1, 2]⟩] := by
  obtain ⟨w, hw⟩ : ∃ w, deliverySys.exec (.new (fun _ => true) fun _ => (true, none)) lostAckRun =
      some w := ⟨_, rfl⟩
  have hf : (deliverySys.exec (.new (fun _ => true) fun _ => (true, none)) lostAckRun).map
      (fun w => (w.tx.sent.map Sent.err, w.rx.received)) =
      some ([.ok], [⟨0, 0, [1, 2]⟩, ⟨1, 1, [1, 2]⟩]) := by decide +kernel
  rw [hw, Option.map_some, Option.some.injEq, Prod.mk.injEq] at hf
  exact ⟨w, hw, delivery_honest (.of_exec ⟨_, _, rfl⟩ hw), hf.1, hf.2⟩

end World
end Cspcl
