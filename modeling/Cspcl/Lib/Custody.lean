import Mathlib.Data.List.Nodup
import Mathlib.Data.List.Perm.Basic
import Mathlib.Data.List.Count

/-!
# Tokens in places

Tokens that move between places (queues, buffers, logs). `Custody holds all`: each token of `all`
is in exactly one place, once, and no place holds another token.

* `Custody.put`: a new token comes into a place.
* `Custody.move`: some tokens of one place move to another.
* `Apart holds`: the same for tokens that can be lost: none is in two places, or in one twice.
-/

variable {π τ : Type} [DecidableEq τ]

/-- Each token of `all` is in exactly one place, once, and no place holds another token. -/
structure Custody (holds : π → List τ) (all : List τ) : Prop where
  held : ∀ t ∈ all, ∃ p, (holds p).count t = 1 ∧ ∀ q, q ≠ p → t ∉ holds q
  known : ∀ p, ∀ t ∈ holds p, t ∈ all

namespace Custody

variable {holds holds' : π → List τ} {all l : List τ} {p q : π} {t : τ}

theorem nil : Custody (fun _ : π => ([] : List τ)) [] where
  held _ h := nomatch h
  known _ _ h := nomatch h

theorem nodup (h : Custody holds all) (p : π) : (holds p).Nodup := by
  refine List.nodup_iff_count_le_one.mpr fun t => ?_
  by_cases ht : t ∈ holds p
  · obtain ⟨q, h1, h0⟩ := h.held t (h.known p t ht)
    obtain rfl : p = q := by_contra fun hne => h0 p hne ht
    exact Nat.le_of_eq h1
  · rw [List.count_eq_zero_of_not_mem ht]
    exact Nat.zero_le 1

/-- A new token comes into the place `p`. -/
theorem put (h : Custody holds all) (ht : t ∉ all) (hp : (holds' p).Perm (holds p ++ [t]))
    (hr : ∀ r, r ≠ p → holds' r = holds r) : Custody holds' (all ++ [t]) where
  held u hu := by
    by_cases hut : u = t
    · subst hut
      have h0 : ∀ r, u ∉ holds r := fun r hm => ht (h.known r u hm)
      refine ⟨p, ?_, fun q hq => hr q hq ▸ h0 q⟩
      rw [hp.count_eq, List.count_append, List.count_eq_zero_of_not_mem (h0 p)]
      simp
    · have hua : u ∈ all := by simpa [hut] using hu
      obtain ⟨r, h1, h0⟩ := h.held u hua
      have hpu : (holds' p).count u = (holds p).count u := by
        rw [hp.count_eq, List.count_append]
        simp [Ne.symm hut]
      refine ⟨r, ?_, fun q hq hm => h0 q hq ?_⟩
      · by_cases hrp : r = p
        · rw [hrp, hpu, ← hrp, h1]
        · rw [hr r hrp, h1]
      · by_cases hqp : q = p
        · subst hqp
          simpa [hut] using hp.mem_iff.mp hm
        · exact hr q hqp ▸ hm
  known r u hu := by
    by_cases hrp : r = p
    · subst hrp
      rcases List.mem_append.mp (hp.mem_iff.mp hu) with hm | hm
      · exact List.mem_append_left _ (h.known r u hm)
      · exact List.mem_append_right _ hm
    · exact List.mem_append_left _ (h.known r u (hr r hrp ▸ hu))

/-- The tokens `l` move from the place `p` to the place `q`. -/
theorem move (h : Custody holds all) (hpq : p ≠ q) (hp : (holds p).Perm (holds' p ++ l))
    (hq : (holds' q).Perm (holds q ++ l)) (hr : ∀ r, r ≠ p → r ≠ q → holds' r = holds r) :
    Custody holds' all where
  held t ht := by
    have hcp : (holds p).count t = (holds' p).count t + l.count t := by
      rw [hp.count_eq, List.count_append]
    have hcq : (holds' q).count t = (holds q).count t + l.count t := by
      rw [hq.count_eq, List.count_append]
    obtain ⟨r, h1, h0⟩ := h.held t ht
    have hz : ∀ s, s ≠ r → (holds s).count t = 0 := fun s hs =>
      List.count_eq_zero_of_not_mem (h0 s hs)
    by_cases hl : t ∈ l
    · -- The token is among those that move: its place was `p` and is now `q`.
      have hrp : p = r := by_contra fun hne => by
        have := List.count_pos_iff.mpr hl
        have := hz p hne
        omega
      subst hrp
      have hl1 := List.count_pos_iff.mpr hl
      refine ⟨q, by have := hz q hpq.symm; omega, fun s hs hm => ?_⟩
      have hs1 := List.count_pos_iff.mpr hm
      by_cases hsp : s = p
      · subst hsp
        omega
      · rw [hr s hsp hs, hz s hsp] at hs1
        omega
    · have hl0 := List.count_eq_zero_of_not_mem hl
      have hsame : ∀ s, (holds' s).count t = (holds s).count t := fun s => by
        by_cases hsp : s = p
        · subst hsp; omega
        · by_cases hsq : s = q
          · subst hsq; omega
          · rw [hr s hsp hsq]
      refine ⟨r, hsame r ▸ h1, fun s hs hm => ?_⟩
      have := List.count_pos_iff.mpr hm
      rw [hsame s, hz s hs] at this
      omega
  known r t ht := by
    by_cases hrq : r = q
    · subst hrq
      rcases List.mem_append.mp (hq.mem_iff.mp ht) with hm | hm
      · exact h.known r t hm
      · exact h.known p t (hp.mem_iff.mpr (List.mem_append_right _ hm))
    · by_cases hrp : r = p
      · subst hrp
        exact h.known r t (hp.mem_iff.mpr (List.mem_append_left _ ht))
      · exact h.known r t (hr r hrp hrq ▸ ht)

end Custody

omit [DecidableEq τ]

/-- No token is in two places, and no place holds one twice. -/
structure Apart (holds : π → List τ) : Prop where
  nodup : ∀ p, (holds p).Nodup
  place : ∀ p q t, t ∈ holds p → t ∈ holds q → p = q

namespace Apart

variable {holds holds' : π → List τ} {l : List τ} {p q : π} {t : τ}

theorem nil : Apart (fun _ : π => ([] : List τ)) where
  nodup _ := List.nodup_nil
  place _ _ _ h := nomatch h

/-- Tokens are lost. -/
theorem shrink (h : Apart holds) (hs : ∀ p, (holds' p).Sublist (holds p)) : Apart holds' where
  nodup p := (h.nodup p).sublist (hs p)
  place p q t hp hq := h.place p q t ((hs p).subset hp) ((hs q).subset hq)

/-- The tokens `l`, which are nowhere else, come into the place `p`. -/
theorem bring (h : Apart holds) (hp : (holds' p).Perm (l ++ holds p)) (hl : l.Nodup)
    (hlp : ∀ t ∈ l, t ∉ holds p)
    (hr : ∀ r, r ≠ p → (holds' r).Sublist (holds r) ∧ ∀ t ∈ l, t ∉ holds' r) : Apart holds' where
  nodup r := by
    by_cases hrp : r = p
    · rw [hrp, hp.nodup_iff]
      exact hl.append (h.nodup p) hlp
    · exact (h.nodup r).sublist (hr r hrp).1
  place r s u hu hv := by
    -- Away from `p` the tokens are where they were; at `p` they are, or are new ones.
    have hat : ∀ x, u ∈ holds' x → u ∉ l → u ∈ holds x := by
      intro x hx hul
      by_cases hxp : x = p
      · rw [hxp] at hx ⊢
        exact (List.mem_append.mp (hp.mem_iff.mp hx)).resolve_left hul
      · exact (hr x hxp).1.subset hx
    by_cases hul : u ∈ l
    · have hall : ∀ x, u ∈ holds' x → x = p := by
        intro x hx
        by_contra hxp
        exact (hr x hxp).2 u hul hx
      rw [hall r hu, hall s hv]
    · exact h.place r s u (hat r hu hul) (hat s hv hul)

/-- The new tokens `l` come into the place `p`. -/
theorem put (h : Apart holds) (hl : l.Nodup) (hnew : ∀ t ∈ l, ∀ r, t ∉ holds r)
    (hp : (holds' p).Perm (holds p ++ l)) (hr : ∀ r, r ≠ p → holds' r = holds r) :
    Apart holds' := by
  apply h.bring (hp.trans List.perm_append_comm) hl fun t ht => hnew t ht p
  intro r hrp
  rw [hr r hrp]
  exact ⟨.refl _, fun t ht => hnew t ht r⟩

/-- The tokens `l` move from the place `q` to the place `p`. -/
theorem move (h : Apart holds) (hqp : q ≠ p) (hq : holds q = l ++ holds' q)
    (hp : (holds' p).Perm (holds p ++ l)) (hr : ∀ r, r ≠ q → r ≠ p → holds' r = holds r) :
    Apart holds' := by
  have hnodup : (l ++ holds' q).Nodup := hq ▸ h.nodup q
  have hlq : ∀ t ∈ l, t ∈ holds q := fun t ht => hq ▸ List.mem_append_left _ ht
  have hnot : ∀ r, r ≠ q → ∀ t ∈ l, t ∉ holds r :=
    fun r hrq t ht hm => hrq (h.place r q t hm (hlq t ht))
  apply h.bring (hp.trans List.perm_append_comm) hnodup.of_append_left (hnot p hqp.symm)
  intro r hrp
  by_cases hrq : r = q
  · rw [hrq, hq]
    exact ⟨List.sublist_append_right .., fun t ht hm => List.disjoint_of_nodup_append hnodup ht hm⟩
  · rw [hr r hrq hrp]
    exact ⟨.refl _, hnot r hrq⟩

/-- A move brings no token that was nowhere. -/
theorem mem_of_move {r : π} (hq : holds q = l ++ holds' q) (hp : (holds' p).Perm (holds p ++ l))
    (hr : ∀ r, r ≠ q → r ≠ p → holds' r = holds r) (ht : t ∈ holds' r) : ∃ s, t ∈ holds s := by
  by_cases hrq : r = q
  · refine ⟨q, ?_⟩
    rw [hq]
    exact List.mem_append_right _ (hrq ▸ ht)
  · by_cases hrp : r = p
    · rw [hrp] at ht
      rcases List.mem_append.mp (hp.mem_iff.mp ht) with hm | hm
      · exact ⟨p, hm⟩
      · refine ⟨q, ?_⟩
        rw [hq]
        exact List.mem_append_left _ hm
    · exact ⟨r, hr r hrq hrp ▸ ht⟩

end Apart
