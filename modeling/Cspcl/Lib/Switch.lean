import Mathlib.Data.List.Induction

/-!
# A switch and its history

A trace of timed events of which some set a switch on or off. `offSince` follows it: the time at
which the switch went off, if it is off now. Setting a switch off that is off already changes
nothing.

* `offSince_some`, `offSince_none`: what `offSince` says of the trace.
* `le_offSince`: in a trace in the order of time, the switch has been off since a moment after the
  last one at which it was on.
-/

namespace Switch

/-- The switch is set, or something else happens. -/
inductive Event (α : Type) where
  | set (on : Bool)
  | other (a : α)
  deriving DecidableEq, Repr

/-- An event and its time. -/
abbrev Timed (α : Type) := Nat × Event α

variable {α : Type}

/-- The effect of an event on the time since which the switch is off. -/
def next (off : Option Nat) (e : Timed α) : Option Nat :=
  match e.2 with
  | .set true => none
  | .set false => off.or (some e.1)
  | .other _ => off

/-- The time since which the switch is off, if it is. -/
def offSince (trace : List (Timed α)) : Option Nat := trace.foldl next none

/-- The switch was set on, and not off after that. -/
def IsOn (trace : List (Timed α)) : Prop :=
  ∃ a t b, trace = a ++ (t, .set true) :: b ∧ ∀ e ∈ b, e.2 ≠ .set false

/-- The switch was set off at `t`, and not on after that. -/
def IsOffFrom (trace : List (Timed α)) (t : Nat) : Prop :=
  ∃ a b, trace = a ++ (t, .set false) :: b ∧ ∀ e ∈ b, e.2 ≠ .set true

variable {trace l m : List (Timed α)} {e : Timed α} {t t₀ : Nat}

theorem offSince_concat (trace : List (Timed α)) (e : Timed α) :
    offSince (trace ++ [e]) = next (offSince trace) e := by
  rw [offSince, List.foldl_append]
  rfl

/-- After a moment at which the switch is on, only what follows counts. -/
theorem offSince_append (h : offSince l = none) (m : List (Timed α)) :
    offSince (l ++ m) = offSince m := by
  unfold offSince at h ⊢
  rw [List.foldl_append, h]

theorem IsOn.append (h : IsOn l) (hm : ∀ e ∈ m, e.2 ≠ .set false) : IsOn (l ++ m) := by
  obtain ⟨a, t, b, rfl, hb⟩ := h
  refine ⟨a, t, b ++ m, by simp, fun e he => ?_⟩
  exact (List.mem_append.mp he).elim (hb e) (hm e)

theorem IsOffFrom.append (h : IsOffFrom l t) (hm : ∀ e ∈ m, e.2 ≠ .set true) :
    IsOffFrom (l ++ m) t := by
  obtain ⟨a, b, rfl, hb⟩ := h
  refine ⟨a, b ++ m, by simp, fun e he => ?_⟩
  exact (List.mem_append.mp he).elim (hb e) (hm e)

/-- The switch is off since a moment at which it was set off, and has not been set on since. -/
theorem offSince_some (h : offSince trace = some t) : IsOffFrom trace t := by
  induction trace using List.reverseRecOn generalizing t with
  | nil => cases h
  | append_singleton trace e ih =>
    rw [offSince_concat] at h
    obtain ⟨te, ev⟩ := e
    cases ev with
    | other a => exact (ih h).append (by simp)
    | set on =>
      cases on with
      | true => cases h
      | false =>
        cases ho : offSince trace with
        | some t' =>
          rw [ho] at h
          cases h
          exact (ih ho).append (by simp)
        | none =>
          rw [ho] at h
          cases h
          exact ⟨trace, [], rfl, by simp⟩

/-- The switch is not off: it was never set, or is on. -/
theorem offSince_none (h : offSince trace = none) : IsOn trace ∨ ∀ e ∈ trace, e.2 ≠ .set false := by
  induction trace using List.reverseRecOn with
  | nil => exact .inr (by simp)
  | append_singleton trace e ih =>
    rw [offSince_concat] at h
    obtain ⟨te, ev⟩ := e
    cases ev with
    | other a =>
      refine (ih h).imp (fun hon => hon.append (by simp)) fun hno e he => ?_
      rcases List.mem_append.mp he with he | he
      · exact hno e he
      · obtain rfl := List.mem_singleton.mp he
        simp
    | set on =>
      cases on with
      | true => exact .inl ⟨trace, te, [], rfl, by simp⟩
      | false =>
        cases ho : offSince trace with
        | some t' =>
          rw [ho] at h
          cases h
        | none =>
          rw [ho] at h
          cases h

/-- A switch that is on is not off. -/
theorem IsOn.offSince (h : IsOn trace) : offSince trace = none := by
  obtain ⟨a, t, b, rfl, hb⟩ := h
  have hon : Switch.offSince (a ++ [(t, .set true)]) = none := offSince_concat a _
  rw [List.append_cons, offSince_append hon]
  induction b using List.reverseRecOn with
  | nil => rfl
  | append_singleton b e ih =>
    rw [offSince_concat, ih fun e he => hb e (List.mem_append_left _ he)]
    have he := hb e (by simp)
    obtain ⟨te, ev⟩ := e
    cases ev with
    | other a => rfl
    | set on =>
      cases on with
      | true => rfl
      | false => exact absurd rfl he

/-- If the switch was on before `t₀`, what it is off since is not before `t₀`. -/
theorem le_offSince (hon : offSince l = none) (hm : ∀ e ∈ m, t₀ ≤ e.1)
    (h : offSince (l ++ m) = some t) : t₀ ≤ t := by
  rw [offSince_append hon] at h
  obtain ⟨a, b, rfl, -⟩ := offSince_some h
  exact hm (t, .set false) (by simp)

end Switch
