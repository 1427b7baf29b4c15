import Mathlib.Algebra.GroupWithZero.Nat

/-!
# Delays that double

A backoff waits after each failure, twice as long as the time before, up to a cap; some failures
start it over.

* `delay first cap j`: the delay with `j` failures before it. `delay_succ`: doubling and capping it
  gives the next one.
* `row resets n`: how many of the failures before the `n`-th are counted. `resets k c`: the `k`-th
  failure, with `c` counted before it, starts the row over.
* `CountsFrom L i j`: `j` is the number of failures before the `i`-th from the last one on for
  which `L` holds. `countsFrom_iff`: the row is that number.
-/

namespace Backoff

/-- The delay with `j` failures before it. -/
def delay (first cap j : Nat) : Nat := min (first * 2 ^ j) cap

/-- The failures before the `n`-th that count for its delay. -/
def row (resets : Nat → Nat → Bool) : Nat → Nat
  | 0 => 0
  | n + 1 => if resets n (row resets n) then 1 else row resets n + 1

/-- The `k`-th failure starts the row over. -/
def StartsOver (resets : Nat → Nat → Bool) (k : Nat) : Prop := resets k (row resets k) = true

/-- The number of failures before the `n`-th, from the last one on that has `L`, or from the first
one on. -/
def Since (L : Nat → Prop) (n j : Nat) : Prop :=
  (∃ k, k < n ∧ L k ∧ (∀ m, k < m → m < n → ¬ L m) ∧ j = n - k) ∨
    ((∀ m, m < n → ¬ L m) ∧ j = n)

/-- The same, where the `n`-th itself may be the last one that has `L`. -/
def CountsFrom (L : Nat → Prop) (n j : Nat) : Prop :=
  (∃ k, k ≤ n ∧ L k ∧ (∀ m, k < m → m ≤ n → ¬ L m) ∧ j = n - k) ∨
    ((∀ m, m ≤ n → ¬ L m) ∧ j = n)

variable {first cap n m j j' : Nat} {resets resets' : Nat → Nat → Bool} {L : Nat → Prop}

theorem delay_zero (h : first ≤ cap) : delay first cap 0 = first := by
  rw [delay, Nat.pow_zero, Nat.mul_one, Nat.min_eq_left h]

theorem delay_succ : min (delay first cap j * 2) cap = delay first cap (j + 1) := by
  rw [delay, delay, Nat.pow_succ, ← Nat.mul_assoc]
  omega

/-- Only the failures before it count. -/
theorem row_congr (h : ∀ k c, k < n → resets k c = resets' k c) :
    row resets n = row resets' n := by
  induction n with
  | zero => rfl
  | succ n ih =>
    rw [row, row, ih fun k c hk => h k c (by omega), h n _ (by omega)]

theorem since_row (n : Nat) : Since (StartsOver resets) n (row resets n) := by
  induction n with
  | zero => exact .inr ⟨fun m hm => absurd hm (Nat.not_lt_zero m), rfl⟩
  | succ n ih =>
    rw [row]
    split
    · rename_i h
      refine .inl ⟨n, by omega, h, fun m hm hm' => by omega, by omega⟩
    · rename_i h
      have hlast : ∀ {k}, (∀ m, k < m → m < n → ¬ StartsOver resets m) →
          ∀ m, k < m → m < n + 1 → ¬ StartsOver resets m := by
        intro k hk m hm hm'
        by_cases he : m = n
        · rw [he]
          exact h
        · exact hk m hm (by omega)
      rcases ih with ⟨k, hkn, hk, hlt, hj⟩ | ⟨hall, hj⟩
      · exact .inl ⟨k, by omega, hk, hlast hlt, by omega⟩
      · refine .inr ⟨fun m hm => ?_, by omega⟩
        by_cases he : m = n
        · rw [he]
          exact h
        · exact hall m (by omega)

theorem Since.unique (h : Since L n j) (h' : Since L n j') : j = j' := by
  rcases h with ⟨k, hkn, hk, hlt, rfl⟩ | ⟨hall, rfl⟩
  · rcases h' with ⟨k', hkn', hk', hlt', rfl⟩ | ⟨hall', -⟩
    · have h1 : ¬ k < k' := fun hlt'' => hlt k' hlt'' hkn' hk'
      have h2 : ¬ k' < k := fun hlt'' => hlt' k hlt'' hkn hk
      omega
    · exact absurd hk (hall' k hkn)
  · rcases h' with ⟨k', hkn', hk', -, -⟩ | ⟨-, rfl⟩
    · exact absurd hk' (hall k' hkn')
    · rfl

theorem countsFrom_of_pos (h : L n) : CountsFrom L n j ↔ j = 0 := by
  constructor
  · rintro (⟨k, hkn, -, hlt, rfl⟩ | ⟨hall, -⟩)
    · have : ¬ k < n := fun hk => hlt n hk (Nat.le_refl n) h
      omega
    · exact absurd h (hall n (Nat.le_refl n))
  · rintro rfl
    exact .inl ⟨n, Nat.le_refl n, h, fun m hm hm' => by omega, by omega⟩

theorem countsFrom_of_neg (h : ¬ L n) : CountsFrom L n j ↔ Since L n j := by
  have hne : ∀ {m}, L m → m ≠ n := fun hm he => h (he ▸ hm)
  constructor
  · rintro (⟨k, hkn, hk, hlt, hj⟩ | ⟨hall, hj⟩)
    · have := hne hk
      exact .inl ⟨k, by omega, hk, fun m hm hm' => hlt m hm (by omega), hj⟩
    · exact .inr ⟨fun m hm => hall m (by omega), hj⟩
  · rintro (⟨k, hkn, hk, hlt, hj⟩ | ⟨hall, hj⟩)
    · refine .inl ⟨k, by omega, hk, fun m hm hm' hL => ?_, hj⟩
      have := hne hL
      exact hlt m hm (by omega) hL
    · refine .inr ⟨fun m hm hL => ?_, hj⟩
      have := hne hL
      exact hall m (by omega) hL

/-- What a failure counts: nothing if it starts the row over, and else the row before it. -/
theorem countsFrom_iff : CountsFrom (StartsOver resets) n j ↔
    j = if resets n (row resets n) then 0 else row resets n := by
  by_cases h : resets n (row resets n) = true
  · have hs : StartsOver resets n := h
    rw [countsFrom_of_pos hs, if_pos h]
  · have hs : ¬ StartsOver resets n := h
    rw [countsFrom_of_neg hs, if_neg h]
    exact ⟨fun hj => hj.unique (since_row n), fun hj => hj ▸ since_row n⟩

end Backoff
