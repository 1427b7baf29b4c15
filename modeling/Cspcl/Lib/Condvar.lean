import Mathlib.Logic.Function.Basic

/-!
# Condition variables

Threads that wait on a condition variable, seen between the critical sections of its mutex. A
thread waits because it found its wait condition true; a notification is remembered until the
thread runs again (`Wait`). Threads that wait for the same condition are one family `ι → Wait`; a
condition variable may serve several families, each with its own condition.

* `notifyAll`: what `notify_all` does to a family.
* `NoLost p c`: a thread of `c` that was not notified has a true wait condition, so it does not
  sleep for want of a wake-up. It is kept by a section that notifies (`NoLost.notifyAll`), by one
  that does not make the condition false (`NoLost.mono`), and by one that makes it false while
  nobody waits (`NoLost.of_out`).
-/

/-- A thread and a condition variable. -/
inductive Wait where
  | out
  | waiting (notified : Bool)
  deriving DecidableEq, Repr

namespace Wait

def notify : Wait → Wait
  | out => out
  | waiting _ => waiting true

@[simp] theorem notify_ne_sleeping (w : Wait) : w.notify ≠ waiting false := by
  cases w <;> simp [notify]

@[simp] theorem notify_eq_out {w : Wait} : w.notify = out ↔ w = out := by
  cases w <;> simp [notify]

end Wait

namespace Condvar

variable {ι : Type} {p q : Prop} {c : ι → Wait} {i : ι}

/-- Every thread of the family is notified. -/
def notifyAll (c : ι → Wait) : ι → Wait := fun i => (c i).notify

/-- `notify_all`, if `b`. -/
def notifyIf (b : Bool) (c : ι → Wait) : ι → Wait := bif b then notifyAll c else c

theorem notifyIf_eq_out {b : Bool} : notifyIf b c i = .out ↔ c i = .out := by
  cases b
  · exact Iff.rfl
  · exact Wait.notify_eq_out

/-- A thread that waits without having been notified has a true wait condition `p`. -/
def NoLost (p : Prop) (c : ι → Wait) : Prop := ∀ i, c i = .waiting false → p

theorem noLost_out : NoLost p fun _ : ι => .out := fun _ h => by cases h

theorem NoLost.notifyAll : NoLost p (notifyAll c) := fun _ h => absurd h (Wait.notify_ne_sleeping _)

theorem NoLost.mono (h : NoLost p c) (hpq : p → q) : NoLost q c := fun i hi => hpq (h i hi)

/-- The condition may become false while nobody waits. -/
theorem NoLost.of_out (h : ∀ i, c i = .out) : NoLost p c := fun i hi => by
  rw [h i] at hi
  cases hi

/-- A section that notifies if it makes the condition false. -/
theorem NoLost.notifyIf {b : Bool} (h : NoLost p c) (hb : b = false → p → q) :
    NoLost q (Condvar.notifyIf b c) := by
  cases b with
  | false => exact h.mono (hb rfl)
  | true => exact NoLost.notifyAll

section Update

variable [DecidableEq ι]

/-- A thread begins to wait, or waits again, because the condition is true. -/
theorem NoLost.wait (h : NoLost p c) (hp : p) (w : Wait) : NoLost p (Function.update c i w) := by
  intro j hj
  by_cases hji : j = i
  · exact hp
  · exact h j (by simpa [hji] using hj)

/-- A thread stops waiting. -/
theorem NoLost.leave (h : NoLost p c) : NoLost p (Function.update c i .out) := by
  intro j hj
  by_cases hji : j = i
  · subst hji
    simp at hj
  · exact h j (by simpa [hji] using hj)

end Update

end Condvar
