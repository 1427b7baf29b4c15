import Mathlib.Logic.Basic

/-!
# Binary semaphores and their owners

A binary semaphore is available or not. `Owned owns avail`: each one that is not available has
exactly one owner, the task that will release it, if it can.

* `Owned.take`: a task takes an available semaphore; `Owned.release`: its owner releases it.
-/

namespace Sem

/-- A semaphore is available iff it has no owner, and no semaphore has two. -/
structure Owned {τ σ : Type} (owns : τ → σ → Prop) (avail : σ → Bool) : Prop where
  free : ∀ {x a}, owns a x → avail x = false
  held : ∀ {x}, avail x = false → ∃ a, owns a x
  unique : ∀ {x a b}, owns a x → owns b x → a = b

namespace Owned

variable {τ σ : Type} {owns owns' : τ → σ → Prop} {avail avail' : σ → Bool}
  {a b : τ} {x y : σ}

theorem congr (h : Owned owns avail) (ho : ∀ b y, owns' b y ↔ owns b y)
    (ha : ∀ y, avail' y = avail y) : Owned owns' avail' where
  free h' := by rw [ha]; exact h.free ((ho _ _).mp h')
  held hy := by
    obtain ⟨b, hb⟩ := h.held (ha _ ▸ hy)
    exact ⟨b, (ho _ _).mpr hb⟩
  unique h1 h2 := h.unique ((ho _ _).mp h1) ((ho _ _).mp h2)

variable [DecidableEq σ]

/-- The task `a` takes the semaphore `x`; the other tasks own what they owned. -/
theorem take (h : Owned owns avail) (hx : avail x = true)
    (hb : ∀ b, b ≠ a → ∀ y, owns' b y ↔ owns b y) (ha : ∀ y, owns' a y ↔ owns a y ∨ y = x)
    (hav : ∀ y, avail' y = if y = x then false else avail y) : Owned owns' avail' := by
  have hnone : ∀ d, ¬ owns d x := fun d hd => by simp [h.free hd] at hx
  have ho : ∀ b y, owns' b y ↔ owns b y ∨ (b = a ∧ y = x) := fun b y => by
    by_cases hba : b = a
    · subst hba; simpa using ha y
    · simpa [hba] using hb b hba y
  refine ⟨fun {y b} h' => ?_, fun {y} hy => ?_, fun {y b c} h1 h2 => ?_⟩
  · rw [hav]
    split
    · rfl
    · rename_i hne
      rcases (ho b y).mp h' with h' | ⟨-, rfl⟩
      · exact h.free h'
      · exact absurd rfl hne
  · by_cases hyx : y = x
    · exact ⟨a, (ho a y).mpr (.inr ⟨rfl, hyx⟩)⟩
    · obtain ⟨b, hb⟩ := h.held (x := y) (by simpa [hav, hyx] using hy)
      exact ⟨b, (ho b y).mpr (.inl hb)⟩
  · rcases (ho b y).mp h1 with h1 | ⟨rfl, rfl⟩
    · rcases (ho c y).mp h2 with h2 | ⟨rfl, rfl⟩
      · exact h.unique h1 h2
      · exact absurd h1 (hnone _)
    · rcases (ho c y).mp h2 with h2 | ⟨rfl, -⟩
      · exact absurd h2 (hnone _)
      · rfl

/-- The owner `a` of the semaphore `x` releases it; the other tasks own what they owned. -/
theorem release (h : Owned owns avail) (hx : owns a x)
    (hb : ∀ b, b ≠ a → ∀ y, owns' b y ↔ owns b y) (ha : ∀ y, owns' a y ↔ owns a y ∧ y ≠ x)
    (hav : ∀ y, avail' y = if y = x then true else avail y) : Owned owns' avail' := by
  have ho : ∀ b y, owns' b y ↔ owns b y ∧ y ≠ x := fun b y => by
    by_cases hba : b = a
    · subst hba; exact ha y
    · rw [hb b hba y]
      refine ⟨fun h' => ⟨h', ?_⟩, And.left⟩
      rintro rfl
      exact hba (h.unique h' hx)
  refine ⟨fun {y b} h' => ?_, fun {y} hy => ?_, fun h1 h2 =>
    h.unique ((ho _ _).mp h1).1 ((ho _ _).mp h2).1⟩
  · obtain ⟨h', hne⟩ := (ho b y).mp h'
    rw [hav, if_neg hne]
    exact h.free h'
  · have hne : y ≠ x := by rintro rfl; simp [hav] at hy
    obtain ⟨b, hb⟩ := h.held (x := y) (by simpa [hav, hne] using hy)
    exact ⟨b, (ho b y).mpr ⟨hb, hne⟩⟩

end Owned

end Sem
