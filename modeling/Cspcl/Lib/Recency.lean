import Mathlib.Data.List.Basic
import Mathlib.Order.Basic
import Mathlib.Logic.Function.Basic

/-!
# Stamps and the order of uses

A table keeps handles in slots, each with a stamp: the value that a counter had when the handle was
last used. Beside it stands the history of all uses, the newest first. `Stamped` says that the
stamps order the handles as the history does, so that the slot with the least stamp holds the
handle whose latest use lies furthest back (`Stamped.least`). It is kept by a use under a larger
counter (`Stamped.use`) and by emptying a slot (`Stamped.remove`).
-/

namespace Recency

variable {ι H : Type} [DecidableEq ι] [DecidableEq H]

/-- The handle of a slot, with the stamp of its last use. -/
abbrev Slots (ι H : Type) := ι → Option (H × Nat)

/-- The stamps are at most `tick`, each handle is in one slot and was used, and a handle with a
smaller stamp than another was last used before it. -/
structure Stamped (t : Slots ι H) (tick : Nat) (hist : List H) : Prop where
  seen : ∀ i c a, t i = some (c, a) → c ∈ hist
  le : ∀ i c a, t i = some (c, a) → a ≤ tick
  inj : ∀ i j c a b, t i = some (c, a) → t j = some (c, b) → i = j
  order : ∀ i j c d a b, t i = some (c, a) → t j = some (d, b) → i ≠ j →
    a < b ∧ hist.idxOf d < hist.idxOf c ∨ b < a ∧ hist.idxOf c < hist.idxOf d

/-- `d` was used longer ago than every other handle of the table. -/
def Oldest (t : Slots ι H) (hist : List H) (d : H) : Prop :=
  ∀ i c a, t i = some (c, a) → c ≠ d → hist.idxOf c < hist.idxOf d

variable {t : Slots ι H} {tick tick' : Nat} {hist : List H} {i : ι} {c d : H} {a : Nat}

omit [DecidableEq ι] in
theorem stamped_empty (tick : Nat) (hist : List H) (h : ∀ i, t i = none) :
    Stamped t tick hist := by
  constructor <;> intro i <;> simp [h i]

omit [DecidableEq ι] in
theorem Stamped.mono (h : Stamped t tick hist) (hle : tick ≤ tick') : Stamped t tick' hist :=
  ⟨h.seen, fun i c a hi => Nat.le_trans (h.le i c a hi) hle, h.inj, h.order⟩

/-- Emptying a slot. -/
theorem Stamped.remove (h : Stamped t tick hist) (i : ι) :
    Stamped (Function.update t i none) tick hist := by
  have hold : ∀ {j x}, Function.update t i none j = some x → t j = some x := by
    intro j x hj
    rw [Function.update_apply] at hj
    split at hj
    · cases hj
    · exact hj
  exact ⟨fun j c a hj => h.seen j c a (hold hj), fun j c a hj => h.le j c a (hold hj),
    fun j k c a b hj hk => h.inj j k c a b (hold hj) (hold hk),
    fun j k c d a b hj hk => h.order j k c d a b (hold hj) (hold hk)⟩

/-- A use of `c`, which is in slot `i` or in no other slot, under a counter that was increased. -/
theorem Stamped.use (h : Stamped t tick hist) (hlt : tick < tick')
    (hc : ∀ j a, t j = some (c, a) → j = i) :
    Stamped (Function.update t i (some (c, tick'))) tick' (c :: hist) := by
  have hcases : ∀ {j d a}, Function.update t i (some (c, tick')) j = some (d, a) →
      (j = i ∧ d = c ∧ a = tick') ∨ (j ≠ i ∧ t j = some (d, a) ∧ d ≠ c) := by
    intro j d a hj
    rw [Function.update_apply] at hj
    split at hj
    · obtain ⟨rfl, rfl⟩ := Prod.mk.inj (Option.some.inj hj)
      exact .inl ⟨‹_›, rfl, rfl⟩
    · rename_i hne
      refine .inr ⟨hne, hj, ?_⟩
      rintro rfl
      exact hne (hc j a hj)
  -- The used handle is the newest one; the others keep their order.
  have hidx : ∀ {d}, d ≠ c → (c :: hist).idxOf d = hist.idxOf d + 1 := by
    intro d hd
    exact List.idxOf_cons_ne _ hd.symm
  constructor
  · intro j d a hj
    rcases hcases hj with ⟨-, rfl, -⟩ | ⟨-, hj', -⟩
    · exact List.mem_cons_self
    · exact List.mem_cons_of_mem _ (h.seen j d a hj')
  · intro j d a hj
    rcases hcases hj with ⟨-, -, rfl⟩ | ⟨-, hj', -⟩
    · exact Nat.le_refl _
    · exact Nat.le_of_lt (Nat.lt_of_le_of_lt (h.le j d a hj') hlt)
  · intro j k d a b hj hk
    rcases hcases hj with ⟨rfl, rfl, -⟩ | ⟨-, hj', hd⟩
    · rcases hcases hk with ⟨rfl, -, -⟩ | ⟨-, -, hd⟩
      · rfl
      · exact absurd rfl hd
    · rcases hcases hk with ⟨-, rfl, -⟩ | ⟨-, hk', -⟩
      · exact absurd rfl hd
      · exact h.inj j k d a b hj' hk'
  · intro j k d e a b hj hk hne
    rcases hcases hj with ⟨rfl, rfl, rfl⟩ | ⟨-, hj', hd⟩
    · rcases hcases hk with ⟨rfl, -, -⟩ | ⟨-, hk', he⟩
      · exact absurd rfl hne
      · right
        refine ⟨Nat.lt_of_le_of_lt (h.le k e b hk') hlt, ?_⟩
        rw [List.idxOf_cons_self, hidx he]
        exact Nat.succ_pos _
    · rcases hcases hk with ⟨rfl, rfl, rfl⟩ | ⟨-, hk', he⟩
      · left
        refine ⟨Nat.lt_of_le_of_lt (h.le j d a hj') hlt, ?_⟩
        rw [List.idxOf_cons_self, hidx hd]
        exact Nat.succ_pos _
      · rw [hidx hd, hidx he]
        rcases h.order j k d e a b hj' hk' hne with ⟨h₁, h₂⟩ | ⟨h₁, h₂⟩
        · exact .inl ⟨h₁, Nat.succ_lt_succ h₂⟩
        · exact .inr ⟨h₁, Nat.succ_lt_succ h₂⟩

omit [DecidableEq ι] in
/-- The slot with the least stamp holds the handle whose latest use lies furthest back. -/
theorem Stamped.least (h : Stamped t tick hist) (hi : t i = some (d, a))
    (hmin : ∀ j c b, t j = some (c, b) → a ≤ b) : Oldest t hist d := by
  intro j c b hj hne
  have hji : i ≠ j := by
    rintro rfl
    rw [hi] at hj
    cases hj
    exact hne rfl
  rcases h.order i j d c a b hi hj hji with ⟨-, hlt⟩ | ⟨hlt, -⟩
  · exact hlt
  · exact absurd (hmin j c b hj) (Nat.not_le.mpr hlt)

end Recency
