import Mathlib.Data.List.Basic

/-!
# Copying in pieces

A loop that moves a list to a sink. Each pass offers the next elements, at most `chunk` of them,
and the sink takes as many as it likes.

* `copy`: the loop, with a bound on its passes. `copy_fuel`: the length of the list is enough.
* `copy_append`: nothing is lost or reordered; `copy_done`: a sink that always takes something gets
  all.

The other way round, `fill` is a loop that moves elements from a source until it has as many as it
wants. `fill_full`: they are the first ones of the source, in order; `fill_ends`: it ends;
`fill_done`: it fails only if the source does.
-/

namespace Pieces

variable {α : Type}

/-- How many of `n` elements a pass offers. -/
def offer (chunk n : Nat) : Nat := if chunk < n then chunk else n

/-- What is left and what the sink has, when the loop ends: nothing is left, or a pass moved
nothing. `take k n` is the answer to pass `k`, which offers `n` elements; `fuel` bounds the
passes. -/
def copy (take : Nat → Nat → Int) (chunk : Nat) : Nat → Nat → List α → List α → List α × List α
  | 0, _, rest, out => (rest, out)
  | fuel + 1, k, rest, out =>
    if rest.isEmpty then (rest, out)
    else
      let n := take k (offer chunk rest.length)
      if n ≤ 0 then (rest, out)
      else copy take chunk fuel (k + 1) (rest.drop n.toNat) (out ++ rest.take n.toNat)

variable {take : Nat → Nat → Int} {chunk fuel fuel' k : Nat} {rest out : List α}

theorem copy_append (take : Nat → Nat → Int) (chunk fuel k : Nat) (rest out : List α) :
    (copy take chunk fuel k rest out).2 ++ (copy take chunk fuel k rest out).1 = out ++ rest := by
  induction fuel generalizing k rest out with
  | zero => rfl
  | succ fuel ih =>
    simp only [copy]
    split
    · rfl
    split
    · rfl
    · rw [ih, List.append_assoc, List.take_append_drop]

/-- A pass that moves something leaves less. -/
theorem length_drop_le {n : Int} (hn : ¬ n ≤ 0) (hr : ¬ rest.isEmpty = true)
    (hf : rest.length ≤ fuel + 1) : (rest.drop n.toNat).length ≤ fuel := by
  rw [List.length_drop]
  have hpos : 0 < n.toNat := by omega
  have hlen : 0 < rest.length :=
    List.length_pos_iff.mpr fun h => hr (by rw [h]; rfl)
  omega

/-- The bound on the passes does not matter. -/
theorem copy_fuel (hf : rest.length ≤ fuel) (hf' : rest.length ≤ fuel') :
    copy take chunk fuel k rest out = copy take chunk fuel' k rest out := by
  induction fuel generalizing fuel' k rest out with
  | zero =>
    obtain rfl := List.length_eq_zero_iff.mp (Nat.le_zero.mp hf)
    cases fuel' <;> rfl
  | succ fuel ih =>
    cases fuel' with
    | zero =>
      obtain rfl := List.length_eq_zero_iff.mp (Nat.le_zero.mp hf')
      rfl
    | succ fuel' =>
      simp only [copy]
      split
      · rfl
      rename_i hr
      split
      · rfl
      rename_i hn
      exact ih (length_drop_le hn hr hf) (length_drop_le hn hr hf')

/-- If each pass takes something of what it is offered, all is copied. -/
theorem copy_done (ht : ∀ k n, 0 < n → 1 ≤ take k n) (hc : 0 < chunk) (hf : rest.length ≤ fuel) :
    copy take chunk fuel k rest out = ([], out ++ rest) := by
  have hleft : (copy take chunk fuel k rest out).1 = [] := by
    induction fuel generalizing k rest out with
    | zero => exact List.length_eq_zero_iff.mp (Nat.le_zero.mp hf)
    | succ fuel ih =>
      simp only [copy]
      split
      · rename_i hr
        exact List.isEmpty_iff.mp hr
      rename_i hr
      have hoffer : 0 < offer chunk rest.length := by
        have : 0 < rest.length := List.length_pos_iff.mpr fun h => hr (by rw [h]; rfl)
        unfold offer
        split <;> omega
      have hpos := ht k _ hoffer
      rw [if_neg (by omega)]
      exact ih (length_drop_le (by omega) hr hf)
  have happ := copy_append take chunk fuel k rest out
  rw [hleft, List.append_nil] at happ
  exact Prod.ext hleft happ

/-! ## From a source -/

/-- How a loop that fills a buffer stands. -/
inductive Fill (α : Type) where
  | full (buffer : List α)
  /-- The source gave nothing. -/
  | failed
  /-- The bound on the passes was reached. -/
  | unfinished

/-- A buffer with `remaining` elements to come. `give k` is how many elements the source is ready to
give in pass `k`; it gives no more than it has or was asked for. -/
def fill (give : Nat → Int) (chunk : Nat) : Nat → Nat → Nat → List α → List α → Fill α
  | 0, _, _, _, _ => .unfinished
  | fuel + 1, k, remaining, source, buffer =>
    if remaining = 0 then .full buffer
    else
      let n := min (give k) (min (offer chunk remaining) source.length)
      if n ≤ 0 then .failed
      else
        fill give chunk fuel (k + 1) (remaining - n.toNat) (source.drop n.toNat)
          (buffer ++ source.take n.toNat)

variable {give : Nat → Int} {remaining : Nat} {source buffer b : List α}

theorem offer_le (chunk n : Nat) : offer chunk n ≤ n := by
  unfold offer
  split <;> omega

/-- Each pass that goes on leaves less to come. -/
theorem fill_ends (h : remaining < fuel) :
    fill give chunk fuel k remaining source buffer ≠ .unfinished := by
  induction fuel generalizing k remaining source buffer with
  | zero => exact absurd h (Nat.not_lt_zero _)
  | succ fuel ih =>
    rw [fill]
    split
    · nofun
    dsimp only
    split
    · nofun
    · exact ih (by omega)

/-- A full buffer has got the first elements of the source. -/
theorem fill_full (h : fill give chunk fuel k remaining source buffer = .full b) :
    b = buffer ++ source.take remaining ∧ remaining ≤ source.length := by
  induction fuel generalizing k remaining source buffer with
  | zero => cases h
  | succ fuel ih =>
    rw [fill] at h
    split at h
    · rename_i hr
      obtain rfl := Fill.full.inj h
      rw [hr, List.take_zero, List.append_nil]
      exact ⟨rfl, Nat.zero_le _⟩
    dsimp only at h
    split at h
    · cases h
    · have hle := offer_le chunk remaining
      generalize hn :
        (min (give k) (min (offer chunk remaining : Int) source.length)).toNat = n at h
      obtain ⟨hb, hrest⟩ := ih h
      rw [List.length_drop] at hrest
      have hnr : n ≤ remaining := by omega
      have hns : n ≤ source.length := by omega
      refine ⟨?_, by omega⟩
      rw [hb, List.append_assoc]
      congr 1
      conv => rhs; rw [← Nat.add_sub_cancel' hnr, List.take_add]

/-- A source that has enough and always gives something fills the buffer. -/
theorem fill_done (hg : ∀ k, 0 < give k) (hc : 0 < chunk) (hr : remaining ≤ source.length)
    (hf : remaining < fuel) :
    fill give chunk fuel k remaining source buffer = .full (buffer ++ source.take remaining) := by
  have hne : fill give chunk fuel k remaining source buffer ≠ .failed := by
    induction fuel generalizing k remaining source buffer with
    | zero => exact absurd hf (Nat.not_lt_zero _)
    | succ fuel ih =>
      rw [fill]
      split
      · nofun
      dsimp only
      have hpos := hg k
      have hoffer : 0 < offer chunk remaining := by
        unfold offer
        split <;> omega
      rw [if_neg (by omega)]
      have hle := offer_le chunk remaining
      exact ih (by rw [List.length_drop]; omega) (by omega)
  have hends : fill give chunk fuel k remaining source buffer ≠ .unfinished := fill_ends hf
  cases h : fill give chunk fuel k remaining source buffer with
  | full b => rw [(fill_full h).1]
  | failed => exact absurd h hne
  | unfinished => exact absurd h hends

end Pieces
