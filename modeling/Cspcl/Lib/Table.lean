import Mathlib.Algebra.GroupWithZero.Nat
import Mathlib.Data.List.FinRange
import Mathlib.Data.Fintype.Basic
import Mathlib.Logic.Function.Basic
import Mathlib.Data.Fin.Basic

/-!
# Scans of a table of fixed size

A table with `n` slots is a function from `Fin n`. The loops of a C program over such a table are
folds over its indices in ascending order:

* `Fin.find?` (Batteries) is the loop that stops at the first slot with a property.
* `leastIdx key` is the loop that looks for a least key: it starts at slot 0 and moves to a later
  slot only if its key is smaller. `leastIdx_le`: no slot has a smaller key.
-/

namespace Table

variable {n : Nat} {κ : Type} [LinearOrder κ]

/-- One pass for a least key: `best` is the slot found so far. -/
def leastIdxFrom (key : Fin n → κ) (best : Fin n) : List (Fin n) → Fin n
  | [] => best
  | i :: is => leastIdxFrom key (if key i < key best then i else best) is

/-- The slot with a least key, the first of them. -/
def leastIdx [NeZero n] (key : Fin n → κ) : Fin n :=
  leastIdxFrom key 0 (List.finRange n)

theorem leastIdxFrom_le (key : Fin n → κ) (best : Fin n) (is : List (Fin n)) :
    key (leastIdxFrom key best is) ≤ key best ∧
      ∀ i ∈ is, key (leastIdxFrom key best is) ≤ key i := by
  induction is generalizing best with
  | nil => simp [leastIdxFrom]
  | cons i is ih =>
    obtain ⟨hb, hi⟩ := ih (if key i < key best then i else best)
    simp only [leastIdxFrom, List.mem_cons, forall_eq_or_imp]
    refine ⟨hb.trans ?_, hb.trans ?_, hi⟩
    · split
      · exact le_of_lt ‹_›
      · exact le_refl _
    · split
      · exact le_refl _
      · exact not_lt.mp ‹_›

theorem leastIdx_le [NeZero n] (key : Fin n → κ) (i : Fin n) : key (leastIdx key) ≤ key i :=
  (leastIdxFrom_le key 0 _).2 i (List.mem_finRange i)

end Table
