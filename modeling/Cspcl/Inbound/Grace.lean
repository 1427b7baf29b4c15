import Cspcl.Inbound.WakeUps
import Cspcl.Lib.Switch

/-!
# The grace period of a stop

`graceSys` runs timed calls of `set_receiving`, in any order, and the loops of `wait_while_stopped`
of any listeners, which take a turn when they call it and whenever they wake up. The clock readings
do not decrease. The trace has the calls, from the stop at which the receiver was made, and what the
loops return.

* `grace_simulates`: the streams (`streamSys`) call `set_receiving` as such a schedule does.
* `quick_resubscribe_keeps`: a loop that returns `false` has seen a stop that lasts since
  `STOP_GRACE`, so none does if receiving is on again before.
-/

namespace Cspcl.Inbound

open Switch

variable {β : Type}

/-- `grace_left`. -/
def graceLeft (stoppedAt now : Nat) : Option Nat :=
  (if now - stoppedAt ≤ stopGrace then some (stopGrace - (now - stoppedAt)) else none).filter
    (· ≠ 0)

/-- A turn of the loop of `wait_while_stopped`: what it returns, if it does not wait again. -/
def Receiver.stoppedTurn (r : Receiver β) (now : Nat) : Option Bool :=
  match r.stoppedAt with
  | none => some true
  | some stoppedAt => if (graceLeft stoppedAt now).isNone then some false else none

/-- A receiver, the last clock reading, and what happened. The other events are the returns of
`wait_while_stopped`: the listener, and whether it keeps its connection. -/
structure GraceWorld (β : Type) where
  recv : Receiver β
  clock : Nat
  trace : List (Timed (Nat × Bool))

/-- A step, with the clock reading that it takes. -/
inductive GraceOp where
  | setReceiving (on : Bool) (now : Nat)
  /-- Listener `c` calls `wait_while_stopped`, or wakes up in it: on time, late or for no
  reason. -/
  | turn (c now : Nat)

namespace GraceWorld

/-- A new receiver: it is stopped. -/
def new (now : Nat) : GraceWorld β := ⟨.new now, now, [(now, .set false)]⟩

def step (s : GraceWorld β) : GraceOp → Option (GraceWorld β)
  | .setReceiving on now =>
    if s.clock ≤ now then
      some ⟨s.recv.setReceiving on now, now, s.trace ++ [(now, .set on)]⟩
    else none
  | .turn c now =>
    if s.clock ≤ now then
      some ⟨s.recv, now, s.trace ++
        ((s.recv.stoppedTurn now).map fun kept => (now, Event.other (c, kept))).toList⟩
    else none

end GraceWorld

/-- All schedules, from a new receiver. -/
def graceSys (β : Type) : Lts (GraceWorld β) GraceOp where
  init s := ∃ now, s = .new now
  step := GraceWorld.step

/-- A listener that gives up its connection has seen a stop of at least `STOP_GRACE`, one that keeps
it has seen that receiving is on, and none gives up during a stop that is shorter. -/
structure GraceKept (trace : List (Timed (Nat × Bool))) : Prop where
  closed : ∀ pre now c post, trace = pre ++ (now, .other (c, false)) :: post →
    ∃ t, IsOffFrom pre t ∧ t + stopGrace ≤ now
  kept : ∀ pre now c post, trace = pre ++ (now, .other (c, true)) :: post → IsOn pre
  quick : ∀ a t₀ b t₁ d, trace = a ++ (t₀, .set false) :: (b ++ (t₁, .set true) :: d) →
    IsOn a ∨ a = [] → t₁ < t₀ + stopGrace → ∀ now c, (now, .other (c, false)) ∉ b

theorem graceLeft_eq_none {stoppedAt now : Nat} :
    graceLeft stoppedAt now = none ↔ stoppedAt + stopGrace ≤ now := by
  unfold graceLeft stopGrace
  split
  · rw [Option.filter_some]
    split <;> simp_all <;> omega
  · simp
    omega

/-- A turn that returns: receiving is on, or the grace is over. -/
theorem Receiver.stoppedTurn_eq_some {r : Receiver β} {now : Nat} {kept : Bool} :
    r.stoppedTurn now = some kept ↔ if kept then r.stoppedAt = none
      else ∃ t, r.stoppedAt = some t ∧ t + stopGrace ≤ now := by
  unfold Receiver.stoppedTurn
  cases h : r.stoppedAt with
  | none => cases kept <;> simp
  | some t => cases kept <;> simp [graceLeft_eq_none]

/-! ## Runs -/

/-- The receiver's stop time is the one of the trace, which is in the order of time; and each return
in the trace was right when it was made. -/
structure GraceInv (s : GraceWorld β) : Prop where
  stopped : offSince s.trace = s.recv.stoppedAt
  first : ∃ t rest, s.trace = (t, .set false) :: rest
  sorted : s.trace.Pairwise fun a b => a.1 ≤ b.1
  past : ∀ e ∈ s.trace, e.1 ≤ s.clock
  returned : ∀ pre now c kept post, s.trace = pre ++ (now, .other (c, kept)) :: post →
    if kept then offSince pre = none else ∃ t, offSince pre = some t ∧ t + stopGrace ≤ now

namespace GraceInv

variable {s : GraceWorld β}

/-- An event is added to the trace. -/
theorem concat (h : GraceInv s) {now : Nat} (hnow : s.clock ≤ now) {e : Event (Nat × Bool)}
    {r : Receiver β} (hr : Switch.next s.recv.stoppedAt (now, e) = r.stoppedAt)
    (hret : ∀ c kept, e = .other (c, kept) → if kept then offSince s.trace = none
      else ∃ t, offSince s.trace = some t ∧ t + stopGrace ≤ now) :
    GraceInv ⟨r, now, s.trace ++ [(now, e)]⟩ := by
  obtain ⟨t, rest, ht⟩ := h.first
  refine ⟨?_, ⟨t, rest ++ [(now, e)], by simp [ht]⟩, ?_, fun e' he' => ?_, ?_⟩
  · rw [offSince_concat, h.stopped, hr]
  · refine List.pairwise_append.mpr ⟨h.sorted, List.pairwise_singleton .., fun a ha b hb => ?_⟩
    obtain rfl := List.mem_singleton.mp hb
    exact (h.past a ha).trans hnow
  · rcases List.mem_append.mp he' with he' | he'
    · exact (h.past e' he').trans hnow
    · obtain rfl := List.mem_singleton.mp he'
      exact le_rfl
  · intro pre now' c kept post heq
    rcases List.eq_nil_or_concat post with rfl | ⟨post, last, rfl⟩
    · obtain ⟨rfl, hlast⟩ := List.append_inj' heq rfl
      cases hlast
      exact hret c kept rfl
    · rw [List.concat_eq_append, ← List.cons_append, ← List.append_assoc] at heq
      obtain ⟨htr, -⟩ := List.append_inj' heq rfl
      exact h.returned pre now' c kept post htr

theorem step (h : GraceInv s) {op : GraceOp} {s' : GraceWorld β} (hs : s.step op = some s') :
    GraceInv s' := by
  cases op with
  | setReceiving on now =>
    simp only [GraceWorld.step] at hs
    split at hs
    · rename_i hnow
      obtain rfl := Option.some.inj hs
      refine h.concat hnow ?_ (by simp)
      cases on <;> rfl
    · cases hs
  | turn c now =>
    simp only [GraceWorld.step] at hs
    split at hs
    · rename_i hnow
      obtain rfl := Option.some.inj hs
      cases ht : s.recv.stoppedTurn now with
      | none =>
        rw [Option.map_none, Option.toList_none, List.append_nil]
        exact ⟨h.stopped, h.first, h.sorted, fun e he => (h.past e he).trans hnow, h.returned⟩
      | some kept =>
        rw [Option.map_some, Option.toList_some]
        refine h.concat hnow rfl fun c' kept' heq => ?_
        cases heq
        rw [h.stopped]
        exact Receiver.stoppedTurn_eq_some.mp ht
    · cases hs

end GraceInv

theorem graceInv_inductive : (graceSys β).Inductive GraceInv where
  init s hs := by
    obtain ⟨now, rfl⟩ := hs
    refine ⟨rfl, ⟨now, [], rfl⟩, List.pairwise_singleton .., by simp [GraceWorld.new], ?_⟩
    intro pre now' c kept post heq
    cases pre with
    | nil => cases (List.cons.inj heq).1
    | cons e pre => exact absurd (List.cons.inj heq).2.symm (by simp)
  step _ _ _ h hs := h.step hs

/-! ## The calls of the streams -/

/-- A run of the streams whose clock readings do not decrease stops and resumes receiving as a
schedule of `graceSys` does. -/
theorem grace_simulates {w w' : World} {l : List (Nat × Op)} {s : GraceWorld β}
    (hr : streamSys.Run w l w') (hst : StreamsInv w) (hs : s.recv.stoppedAt = w.recv.stoppedAt)
    (hsorted : l.Pairwise fun a b => a.1 ≤ b.1) (hnow : ∀ a ∈ l, s.clock ≤ a.1) :
    ∃ ops s', (graceSys β).Run s ops s' ∧ s'.recv.stoppedAt = w'.recv.stoppedAt := by
  induction hr generalizing s with
  | nil w => exact ⟨[], s, .nil s, hs⟩
  | @cons w w₁ w' a l hw _ ih =>
    obtain ⟨now, op⟩ := a
    obtain ⟨hle, hsorted⟩ := List.pairwise_cons.mp hsorted
    have hclock := hnow _ List.mem_cons_self
    obtain heq | ⟨on, heq⟩ : w₁.recv.stoppedAt = w.recv.stoppedAt ∨
        ∃ on, w₁.recv.stoppedAt = (w.recv.setReceiving on now).stoppedAt :=
      (World.step_switch hst hw).2.imp_right fun h =>
        h.elim (fun h => ⟨true, h.2⟩) fun h => ⟨false, h.2⟩
    · exact ih (hst.step hw) (hs.trans heq.symm) hsorted
        fun a ha => hnow a (List.mem_cons_of_mem _ ha)
    · have hstep : s.step (.setReceiving on now) =
          some ⟨s.recv.setReceiving on now, now, s.trace ++ [(now, .set on)]⟩ := if_pos hclock
      have hs' : (s.recv.setReceiving on now).stoppedAt = w₁.recv.stoppedAt := by
        rw [heq, Receiver.setReceiving, Receiver.setReceiving, hs]
      obtain ⟨ops, s', hrun, hst'⟩ :=
        ih (s := ⟨_, now, s.trace ++ [(now, .set on)]⟩) (hst.step hw) hs' hsorted hle
      exact ⟨.setReceiving on now :: ops, s', .cons hstep hrun, hst'⟩

/-- In a trace in the order of time, what comes after an event is not before it. -/
theorem le_of_sorted {l m : List (Timed (Nat × Bool))} {e : Timed (Nat × Bool)}
    (h : (l ++ e :: m).Pairwise fun a b => a.1 ≤ b.1) : ∀ e' ∈ e :: m, e.1 ≤ e'.1 := by
  intro e' he'
  rcases List.mem_cons.mp he' with rfl | he'
  · exact le_rfl
  · exact (List.pairwise_cons.mp (List.pairwise_append.mp h).2.1).1 e' he'

/-- For any timed calls of `set_receiving` and any wake-ups: `wait_while_stopped` returns `false`
only after a stop of `STOP_GRACE` that lasts, and `true` only while receiving; so a stop that ends
sooner costs no connection. -/
theorem quick_resubscribe_keeps {s : GraceWorld β} (hs : (graceSys β).Reach s) :
    GraceKept s.trace := by
  have h := graceInv_inductive.reach hs
  refine ⟨fun pre now c post htr => ?_, fun pre now c post htr => ?_, ?_⟩
  · obtain ⟨t, ht, hle⟩ := h.returned pre now c false post htr
    exact ⟨t, offSince_some ht, hle⟩
  · refine (offSince_none (h.returned pre now c true post htr)).resolve_right fun hno => ?_
    obtain ⟨t, rest, hfirst⟩ := h.first
    rw [hfirst] at htr
    cases pre with
    | nil => cases (List.cons.inj htr).1
    | cons e pre =>
      obtain ⟨rfl, -⟩ := List.cons.inj htr
      exact hno (t, .set false) List.mem_cons_self rfl
  · intro a t₀ b t₁ d htr hon hlt now c hmem
    obtain ⟨b₁, b₂, rfl⟩ := List.append_of_mem hmem
    have hoff : offSince a = none := by
      rcases hon with hon | rfl
      · exact hon.offSince
      · rfl
    have hsorted := h.sorted
    obtain ⟨t, ht, hle⟩ := h.returned (a ++ (t₀, .set false) :: b₁) now c false
      (b₂ ++ (t₁, .set true) :: d) (by rw [htr]; simp)
    rw [htr] at hsorted
    have hfrom := le_of_sorted hsorted
    have hpast : t₀ ≤ t := le_offSince hoff (fun e he => hfrom e (by
      rcases List.mem_cons.mp he with rfl | he
      · exact List.mem_cons_self
      · exact List.mem_cons_of_mem _ (by simp [he]))) ht
    have hnow : now ≤ t₁ := by
      have hrest := (List.pairwise_cons.mp (List.pairwise_append.mp hsorted).2.1).2
      rw [List.append_assoc, List.cons_append] at hrest
      exact le_of_sorted hrest (t₁, .set true) (by simp)
    omega

/-- A stop of half the grace, with a second stop during it; then one that lasts. -/
def stopTwice : List GraceOp :=
  [.setReceiving true 5, .setReceiving false 10, .turn 0 10, .setReceiving false 300000000,
    .turn 0 400000000, .setReceiving true 500000010, .turn 0 500000020,
    .setReceiving false 600000000, .turn 0 700000000, .turn 0 1600000000]

/-- The listener keeps its connection over the first stop and gives it up after the second. -/
theorem quick_resubscribe_keeps_twice :
    ∃ s, (graceSys Nat).exec (.new 0) stopTwice = some s ∧
      (500000020, .other (0, true)) ∈ s.trace ∧ (1600000000, .other (0, false)) ∈ s.trace ∧
      GraceKept s.trace := by
  obtain ⟨s, hs⟩ : ∃ s, (graceSys Nat).exec (.new 0) stopTwice = some s := ⟨_, rfl⟩
  have htr : ((graceSys Nat).exec (.new 0) stopTwice).map
      (fun s => decide ((500000020, .other (0, true)) ∈ s.trace ∧
        (1600000000, .other (0, false)) ∈ s.trace)) = some true := by decide +kernel
  rw [hs, Option.map_some, Option.some.injEq, decide_eq_true_eq] at htr
  exact ⟨s, hs, htr.1, htr.2, quick_resubscribe_keeps (.of_exec ⟨0, rfl⟩ hs)⟩

end Cspcl.Inbound
