import Cspcl.Lib.Lts

/-!
# Forward simulations

A system `S` is simulated by a more abstract one `A` if a relation between their states holds
initially and each step of `S` is a step of `A`, or none. What `A` keeps then holds of every run of
`S`, as far as the relation shows it.

* `Lts.Simulation.reach`: every reachable state shows a reachable state of the abstract system.
-/

namespace Lts

variable {σ ι α κ : Type}

/-- Each step of `S` is a step of `A`, or leaves what it shows of `A` as it is. -/
structure Simulation (S : Lts σ ι) (A : Lts α κ) (R : σ → α → Prop) : Prop where
  init : ∀ s, S.init s → ∃ a, A.init a ∧ R s a
  step : ∀ s i s' a, A.Reach a → R s a → S.step s i = some s' →
    R s' a ∨ ∃ k a', A.step a k = some a' ∧ R s' a'

namespace Simulation

variable {S : Lts σ ι} {A : Lts α κ} {R : σ → α → Prop} {s t : σ} {a : α} {l : List ι}

/-- What a run of `S` shows is a run of `A`. -/
theorem run (h : S.Simulation A R) (hr : S.Run s l t) (ha : A.Reach a) (hR : R s a) :
    ∃ l' a', A.Run a l' a' ∧ R t a' := by
  induction hr generalizing a with
  | nil s => exact ⟨[], a, .nil a, hR⟩
  | cons hs _ ih =>
    rcases h.step _ _ _ a ha hR hs with hR' | ⟨k, a₁, hk, hR'⟩
    · exact ih ha hR'
    · obtain ⟨l', a', hrun, hR''⟩ := ih (ha.step hk) hR'
      exact ⟨k :: l', a', .cons hk hrun, hR''⟩

theorem reach (h : S.Simulation A R) (hs : S.Reach s) : ∃ a, A.Reach a ∧ R s a := by
  obtain ⟨s₀, l, hi, hr⟩ := hs
  obtain ⟨a, ha, hR⟩ := h.init s₀ hi
  obtain ⟨l', a', hrun, hR'⟩ := h.run hr (.init ha) hR
  exact ⟨a', (Reach.init ha).run hrun, hR'⟩

end Simulation

end Lts
