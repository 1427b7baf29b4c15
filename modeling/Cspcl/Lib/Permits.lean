import Mathlib.Data.List.Nodup
import Mathlib.Data.List.Perm.Subperm
import Cspcl.Lib.Lts

/-!
# Permits

Parties of which some may make one more entry each in a log: an entry takes the permit of its
party, and no step gives one out.

* `Spent`: the entries that a step, or a run, adds to the log are made with permits; `Spent.append`
  composes two of them, `Spent.length_le` bounds the entries by the permits.
* `Lts.Run.spent`: what each step does, a run does.
-/

variable {κ ε : Type}

/-- The entries `new` took the permits of their parties, and no permit was given out. `may`, `may'`:
who has one before and after them. -/
structure Spent (party : ε → κ) (may may' : κ → Prop) (new : List ε) : Prop where
  nodup : (new.map party).Nodup
  had : ∀ e ∈ new, may (party e)
  left : ∀ k, may' k → may k ∧ k ∉ new.map party

namespace Spent

variable {party : ε → κ} {may may' may'' : κ → Prop} {new l : List ε} {e : ε}

theorem nil (h : ∀ k, may' k → may k) : Spent party may may' [] :=
  ⟨List.nodup_nil, by simp, fun k hk => ⟨h k hk, List.not_mem_nil⟩⟩

theorem single (he : may (party e)) (h : ∀ k, may' k → may k ∧ k ≠ party e) :
    Spent party may may' [e] :=
  ⟨List.nodup_singleton _, by simpa using he, fun k hk => by simpa using h k hk⟩

theorem append (h : Spent party may may' new) (h' : Spent party may' may'' l) :
    Spent party may may'' (new ++ l) where
  nodup := by
    rw [List.map_append]
    refine h.nodup.append h'.nodup fun k hk hk' => ?_
    -- A party of the later entries still had its permit.
    obtain ⟨e, he, rfl⟩ := List.mem_map.mp hk'
    exact (h.left _ (h'.had e he)).2 hk
  had e he := by
    rcases List.mem_append.mp he with he | he
    · exact h.had e he
    · exact (h.left _ (h'.had e he)).1
  left k hk := by
    obtain ⟨hk', hl⟩ := h'.left k hk
    obtain ⟨hm, hn⟩ := h.left k hk'
    exact ⟨hm, by simpa [hl] using hn⟩

/-- There are no more entries than permits. -/
theorem length_le {holders : List κ} (h : Spent party may may' new)
    (hm : ∀ k, may k → k ∈ holders) : new.length ≤ holders.length := by
  have hsub : new.map party ⊆ holders := fun k hk => by
    obtain ⟨e, he, rfl⟩ := List.mem_map.mp hk
    exact hm _ (h.had e he)
  simpa using (h.nodup.subperm hsub).length_le

end Spent

/-- If each step adds the entries of a `Spent` to the log, a run does. -/
theorem Lts.Run.spent {σ ι : Type} {S : Lts σ ι} {s t : σ} {l : List ι} (hr : S.Run s l t)
    (log : σ → List ε) (may : σ → κ → Prop) {party : ε → κ}
    (hstep : ∀ s a s', S.step s a = some s' →
      ∃ new, log s' = log s ++ new ∧ Spent party (may s) (may s') new) :
    ∃ new, log t = log s ++ new ∧ Spent party (may s) (may t) new := by
  induction hr with
  | nil s => exact ⟨[], (List.append_nil _).symm, .nil fun _ => id⟩
  | cons hs _ ih =>
    obtain ⟨new, hnew, hsp⟩ := hstep _ _ _ hs
    obtain ⟨new', hnew', hsp'⟩ := ih
    exact ⟨new ++ new', by rw [hnew', hnew, List.append_assoc], hsp.append hsp'⟩
