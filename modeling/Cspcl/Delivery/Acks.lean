import Cspcl.Delivery.Threads

/-!
# A listener that has a whole bundle acknowledges it

* `Ends`: a sender's end of a connection is closed only by a call of its pool, and the bundles of
  the sends fit in a listener's buffer.
* `Inv.txOpen`: while a thread waits for an ack, its end of the connection is open.
* `Inv.reassembles`: a listener that reads a connection on which a bundle has arrived gets to its
  ack by steps of its own only.
* `Sound`: what the steps keep, for the models that contain this one.
-/

namespace Cspcl

open Ledger

namespace World

/-- The sending ends of the connections, and the bundles. -/
structure Ends (w : World) : Prop where
  closed : ∀ c, (w.link c).txOpen = false → ∃ i, Call.close c ∈ w.tx.calls i
  call : ∀ t k, (w.tx.send t).call = some k → k.bundle.length ≤ maxBundleSize
  attempt : ∀ y ∈ w.tx.attempts, y.call.bundle.length ≤ maxBundleSize

variable {w w' : World} {t r a : Nat} {x : Attempt} {c : Conn}

theorem Ends.step {op : DeliveryOp} (h : w.Ends) (hs : w.step op = some w') : w'.Ends := by
  rcases step_tx hs with ⟨-, htx, hlink⟩ | ⟨t, pc, -, hm⟩
  · refine ⟨fun c hc => ?_, ?_, ?_⟩
    · rw [hlink] at hc
      rw [htx]
      exact h.closed c hc
    · rw [htx]
      exact h.call
    · rw [htx]
      exact h.attempt
  obtain ⟨i, l, hcalls, hlink⟩ := hm.calls
  refine ⟨fun c hc => ?_, fun u k hk => ?_, fun y hy => ?_⟩
  · rcases hlink c hc with hc | hc
    · obtain ⟨j, hj⟩ := h.closed c hc
      refine ⟨j, ?_⟩
      rw [hcalls, Function.update_apply]
      split
      · rename_i hji
        exact List.mem_append_left _ (hji ▸ hj)
      · exact hj
    · refine ⟨i, ?_⟩
      rw [hcalls, Function.update_self]
      exact List.mem_append_right _ hc
  · rcases step_call hs hk with hk | ⟨-, hfit⟩
    · exact h.call u k hk
    · exact hfit
  · rcases hm.attempts y hy with hy | hy
    · exact h.attempt y hy
    · exact h.call t _ hy

theorem ends_inductive : deliverySys.Inductive Ends where
  init w hw := by
    obtain ⟨initialized, pool, rfl⟩ := hw
    refine ⟨fun c hc => ?_, fun t k hk => ?_, fun y hy => ?_⟩
    · cases hc
    · cases hk
    · cases hy
  step _ _ _ h hs := h.step hs

/-- While a thread is in an attempt, its end of the connection is open. -/
theorem Inv.txOpen (h : w.Inv) (he : w.Ends) (ht : (w.tx.send t).current = some (a, x)) :
    (w.link x.conn).txOpen = true := by
  by_contra hc
  obtain ⟨i, hi⟩ := he.closed x.conn (by simpa using hc)
  have hhas := (h.tx.conns.current t a x ht).2.has
  have hrel : Act.release x.conn ∈ acts (w.tx.calls i) := List.mem_map.mpr ⟨_, hi, rfl⟩
  have hin := (h.tx.pools.owns i).ok.incoming_of_release hrel
  have hin' := (h.tx.pools.owns x.call.inst).incoming_of_has hhas
  -- The pool that closed it is the one that has it.
  obtain rfl := h.tx.pools.apart i x.call.inst x.conn hin hin'
  rcases (h.tx.pools.owns x.call.inst).ok.live_or_released hin with ⟨-, h0⟩ | ⟨hl, -⟩
  · exact List.count_eq_zero.mp h0 hrel
  · exact hl (((h.tx.pools.owns x.call.inst).live x.conn).mpr hhas)

/-- A receive call reads what has arrived. -/
theorem consumes {got fwd : List Frag} {m : Nat} (hrecv : w.rx.recv r = .reading .direct m c got)
    (hfwd : (w.link c).fwd = fwd) :
    ∃ w', deliverySys.Run w (List.replicate fwd.length (.consume r)) w' ∧ w'.tx = w.tx ∧
      w'.rx.recv r = .reading .direct m c (got ++ fwd) := by
  induction fwd generalizing w got with
  | nil => exact ⟨w, .nil w, rfl, by rw [hrecv, List.append_nil]⟩
  | cons f rest ih =>
    let w₁ := { w with rx := w.rx.goto r (.reading .direct m c (got ++ [f])) }.setLink c
      { w.link c with fwd := rest }
    have hs : w.step (.consume r) = some w₁ := by
      simp only [World.step, hrecv, hfwd]
      rfl
    have hrecv₁ : w₁.rx.recv r = .reading .direct m c (got ++ [f]) := by
      simp [w₁, setLink, Rx.goto]
    obtain ⟨w', hr, htx, hrecv'⟩ := ih hrecv₁ (by simp [w₁, setLink])
    refine ⟨w', .cons hs hr, htx, ?_⟩
    rw [hrecv', List.append_assoc]
    rfl

/-- The bundle of an attempt fits in a listener's buffer. -/
theorem Inv.recv_ok (h : w.Inv) (he : w.Ends) (hx : w.tx.attempts[a]? = some x) :
    recvFromConnTimeout maxBundleSize (.data (some x.call.bundle)) = .ok x.call.bundle := by
  have hmem := List.mem_of_getElem? hx
  have hne := (h.tx.calls.attempts x hmem).2.1
  have hle := he.attempt x hmem
  simp [recvFromConnTimeout, hne, Nat.not_lt.mpr hle]

/-- A listener that reads a connection on which the bundle of the attempt that waits has arrived
gets to its ack by itself. -/
theorem Inv.reassembles {got : List Frag} (h : w.Inv) (he : w.Ends)
    (ht : w.tx.send t = .waiting a x)
    (hrecv : w.rx.recv r = .reading .direct maxBundleSize x.conn got)
    (hall : ∀ j < frags x.call.bundle, ⟨a, j⟩ ∈ got ++ (w.link x.conn).fwd) :
    ∃ ops w', deliverySys.Run w ops w' ∧ (∀ op ∈ ops, op = .consume r ∨ op = .reassemble r a) ∧
      w'.tx = w.tx ∧ w'.rx.recv r = .acking .direct x.conn a x.call.bundle := by
  obtain ⟨w₁, hr, htx, hrecv₁⟩ := consumes hrecv rfl
  have hx : w.tx.attempts[a]? = some x := (h.tx.conns.current t a x (by rw [ht]; rfl)).1
  have hgot : (List.range (frags x.call.bundle)).all
      (fun j => (⟨a, j⟩ : Frag) ∈ got ++ (w.link x.conn).fwd) = true := by
    rw [List.all_eq_true]
    exact fun j hj => decide_eq_true (hall j (List.mem_range.mp hj))
  have hok := h.recv_ok he hx
  have hs : deliverySys.step w₁ (.reassemble r a) =
      some (w₁.setRx (w₁.rx.goto r (.acking .direct x.conn a x.call.bundle), [])) := by
    show w₁.step (.reassemble r a) = _
    simp only [World.step, hrecv₁, htx, hx, hgot, Rx.sfpRecvDone, hok, if_true]
  refine ⟨_, _, hr.append (.single hs), ?_, htx, ?_⟩
  · intro op hop
    rcases List.mem_append.mp hop with hop | hop
    · exact .inl (List.eq_of_mem_replicate hop)
    · exact .inr (List.mem_singleton.mp hop)
  · exact Function.update_self ..

/-- What the steps keep of the calls, the connections and the mutexes. -/
structure Sound (w : World) : Prop where
  inv : w.Inv
  ends : w.Ends
  locked : w.Locked

theorem Sound.step {op : DeliveryOp} (h : w.Sound) (hs : w.step op = some w')
    (hop : ∀ t, op ≠ .unlock t false) : w'.Sound :=
  ⟨h.inv.step hs, h.ends.step hs, h.locked.step hs hop⟩

end World

end Cspcl
