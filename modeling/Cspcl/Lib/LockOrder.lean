import Mathlib.Data.Nat.Notation
import Mathlib.Logic.Relation

/-!
# Who waits for whom

Threads `τ` and mutexes `μ` at one moment: who holds a mutex, and which one a thread is about to
take (`Locks`). A thread is blocked by the holder of the mutex that it wants (`Blocks`), and waits,
in the end, for everybody at the end of a chain of such threads.

* `Closed P`: who holds a mutex in `P` wants none but those in `P`. A thread that wants mutexes in
  `P` only waits for their holders only (`Closed.holder`).
* `Ordered rank`: mutexes are taken in the order of their ranks. Then nobody waits for itself
  (`Ordered.acyclic`), and behind each thread stands one that is not blocked
  (`Ordered.exists_free`).
-/

/-- The holders of the mutexes, and the mutex that each thread is about to take. -/
structure Locks (τ μ : Type) where
  holder : μ → Option τ
  wants : τ → Option μ

namespace Locks

variable {τ μ : Type} {L : Locks τ μ} {P : μ → Prop} {rank : μ → ℕ} {t t' : τ} {m m' : μ} {n : ℕ}

/-- Thread `t` waits for a mutex that `t'` holds. -/
def Blocks (L : Locks τ μ) (t t' : τ) : Prop := ∃ m, L.wants t = some m ∧ L.holder m = some t'

/-- Who holds a mutex in `P` wants none outside of `P`. -/
def Closed (L : Locks τ μ) (P : μ → Prop) : Prop :=
  ∀ m t m', P m → L.holder m = some t → L.wants t = some m' → P m'

/-- A thread wants only mutexes of higher ranks than those that it holds. -/
def Ordered (L : Locks τ μ) (rank : μ → ℕ) : Prop :=
  ∀ m t m', L.holder m = some t → L.wants t = some m' → rank m < rank m'

theorem Closed.holder (h : L.Closed P) (hw : ∀ m, L.wants t = some m → P m)
    (hb : Relation.TransGen L.Blocks t t') : ∃ m, P m ∧ L.holder m = some t' := by
  induction hb with
  | single hb =>
    obtain ⟨m, hm, hh⟩ := hb
    exact ⟨m, hw m hm, hh⟩
  | tail _ hb ih =>
    obtain ⟨m, hP, hh⟩ := ih
    obtain ⟨m', hm', hh'⟩ := hb
    exact ⟨m', h m _ m' hP hh hm', hh'⟩

/-- Along a chain the wanted mutexes get higher ranks. -/
theorem Ordered.lt (h : L.Ordered rank) (hw : L.wants t = some m)
    (hb : Relation.TransGen L.Blocks t t') (hw' : L.wants t' = some m') : rank m < rank m' := by
  induction hb generalizing m' with
  | single hb =>
    obtain ⟨m₁, hm₁, hh⟩ := hb
    obtain rfl := Option.some.inj (hw.symm.trans hm₁)
    exact h m _ m' hh hw'
  | tail _ hb ih =>
    obtain ⟨m₁, hm₁, hh⟩ := hb
    exact Nat.lt_trans (ih hm₁) (h m₁ _ m' hh hw')

theorem Ordered.acyclic (h : L.Ordered rank) : ¬ Relation.TransGen L.Blocks t t := by
  intro hb
  obtain ⟨u, ⟨m, hm, -⟩, -⟩ := Relation.TransGen.head'_iff.mp hb
  exact Nat.lt_irrefl _ (h.lt hm hb hm)

/-- Whoever waits, waits in the end for a thread that is not blocked. -/
theorem Ordered.exists_free (h : L.Ordered rank) (hn : ∀ m, rank m ≤ n) (t : τ) :
    ∃ t', Relation.ReflTransGen L.Blocks t t' ∧ ∀ u, ¬ L.Blocks t' u := by
  by_cases hb : ∃ u, L.Blocks t u
  · obtain ⟨u, m, hm, hu⟩ := hb
    -- By induction on the ranks above that of the mutex it wants.
    obtain ⟨k, hk⟩ : ∃ k, n - rank m = k := ⟨_, rfl⟩
    induction k using Nat.strongRecOn generalizing t m u with
    | ind k ih =>
      by_cases hb : ∃ v, L.Blocks u v
      · obtain ⟨v, m', hm', hv⟩ := hb
        have hlt := h m u m' hu hm'
        have hle := hn m'
        obtain ⟨w, hw, hfree⟩ := ih (n - rank m') (by omega) u v m' hm' hv rfl
        exact ⟨w, .head ⟨m, hm, hu⟩ hw, hfree⟩
      · exact ⟨u, .single ⟨m, hm, hu⟩, fun v hv => hb ⟨v, hv⟩⟩
  · exact ⟨t, .refl, fun u hu => hb ⟨u, hu⟩⟩

end Locks
