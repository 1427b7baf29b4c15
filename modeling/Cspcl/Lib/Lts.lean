import Mathlib.Data.List.Basic

/-!
# Labelled transition systems

A system is a set of initial states and the step that each label takes from a state (`none`: the
label is not enabled there). Everything that the environment chooses (which thread moves, what a
call returns, what the clock reads) is in the label, so a step is a function and a run can be
evaluated.

* `Lts.Run`: a run and its labels; `Lts.exec`: the run of a list of labels.
* `Lts.Reach`: the reachable states; `Lts.Inductive`: an inductive invariant. `Inductive.reach`
  is the run lemma: what one step keeps holds of every reachable state. `Inductive.given` proves
  a second invariant with the help of a first one.
* `Lts.guard ok`: the same system, with the runs whose steps all meet `ok`.
-/

/-- A labelled transition system: its initial states, and the step of each label. -/
structure Lts (σ ι : Type) where
  init : σ → Prop
  step : σ → ι → Option σ

namespace Lts

variable {σ ι : Type}

/-- The run of the labels `l` from `s`. -/
inductive Run (S : Lts σ ι) : σ → List ι → σ → Prop
  | nil (s : σ) : Run S s [] s
  | cons {s s' t : σ} {a : ι} {l : List ι} :
    S.step s a = some s' → Run S s' l t → Run S s (a :: l) t

/-- The state after the labels `l`, if each is enabled when it is taken. -/
def exec (S : Lts σ ι) (s : σ) : List ι → Option σ
  | [] => some s
  | a :: l => (S.step s a).bind fun s' => S.exec s' l

/-- The states that a run from an initial state reaches. -/
def Reach (S : Lts σ ι) (s : σ) : Prop := ∃ s₀ l, S.init s₀ ∧ S.Run s₀ l s

/-- An inductive invariant: it holds initially and each step keeps it. -/
structure Inductive (S : Lts σ ι) (I : σ → Prop) : Prop where
  init : ∀ s, S.init s → I s
  step : ∀ s a s', I s → S.step s a = some s' → I s'

/-- The runs whose steps all meet `ok`, a condition on the label and the state before the step. -/
def guard (S : Lts σ ι) (ok : σ → ι → Prop) [∀ s a, Decidable (ok s a)] : Lts σ ι where
  init := S.init
  step s a := if ok s a then S.step s a else none

variable {S : Lts σ ι} {I J : σ → Prop} {s s' t : σ} {l l' : List ι}

theorem Run.append (h : S.Run s l s') (h' : S.Run s' l' t) : S.Run s (l ++ l') t := by
  induction h with
  | nil => exact h'
  | cons hs _ ih => exact .cons hs (ih h')

theorem Run.single {a : ι} (h : S.step s a = some s') : S.Run s [a] s' := .cons h (.nil _)

theorem run_iff_exec : S.Run s l t ↔ S.exec s l = some t := by
  constructor
  · intro h
    induction h with
    | nil => rfl
    | cons hs _ ih => simpa [exec, hs] using ih
  · intro h
    induction l generalizing s with
    | nil => cases h; exact .nil _
    | cons a l ih =>
      obtain ⟨s', hs, h⟩ := Option.bind_eq_some_iff.mp h
      exact .cons hs (ih h)

theorem Reach.init (h : S.init s) : S.Reach s := ⟨s, [], h, .nil s⟩

/-- A run that was evaluated. -/
theorem Reach.of_exec (hi : S.init s) (h : S.exec s l = some t) : S.Reach t :=
  ⟨s, l, hi, run_iff_exec.mpr h⟩

theorem Reach.run (h : S.Reach s) (hr : S.Run s l t) : S.Reach t := by
  obtain ⟨s₀, l₀, hi, h₀⟩ := h
  exact ⟨s₀, l₀ ++ l, hi, h₀.append hr⟩

theorem Reach.step {a : ι} (h : S.Reach s) (hs : S.step s a = some s') : S.Reach s' :=
  h.run (.single hs)

/-- What a step keeps, a run keeps. -/
theorem Inductive.run (h : S.Inductive I) (hr : S.Run s l t) (hs : I s) : I t := by
  induction hr with
  | nil => exact hs
  | cons hst _ ih => exact ih (h.step _ _ _ hs hst)

theorem Inductive.reach (h : S.Inductive I) (hs : S.Reach s) : I s := by
  obtain ⟨s₀, l, hi, hr⟩ := hs
  exact h.run hr (h.init _ hi)

/-- What no step can bring about, no run can. -/
theorem Inductive.run_back {P : σ → Prop} (hJ : S.Inductive J)
    (hstep : ∀ s a s', J s → S.step s a = some s' → P s' → P s) (hr : S.Run s l t) (hj : J s) :
    P t → P s := by
  induction hr with
  | nil => exact id
  | cons hs _ ih => exact fun ht => hstep _ _ _ hj hs (ih (hJ.step _ _ _ hj hs) ht)

/-- An invariant whose steps may use the invariant `J`. -/
theorem Inductive.given (hJ : S.Inductive J) (hi : ∀ s, S.init s → I s)
    (hs : ∀ s a s', J s → I s → S.step s a = some s' → I s') : S.Inductive fun s => J s ∧ I s where
  init s h := ⟨hJ.init s h, hi s h⟩
  step s a s' h hst := ⟨hJ.step s a s' h.1 hst, hs s a s' h.1 h.2 hst⟩

section Guard

variable {ok : σ → ι → Prop} [∀ s a, Decidable (ok s a)]

theorem guard_step {a : ι} :
    (S.guard ok).step s a = some s' ↔ ok s a ∧ S.step s a = some s' := by
  by_cases h : ok s a <;> simp [guard, h]

/-- A run whose steps meet `ok` is a run. -/
theorem Run.of_guard (h : (S.guard ok).Run s l t) : S.Run s l t := by
  induction h with
  | nil => exact .nil _
  | cons hs _ ih => exact .cons (guard_step.mp hs).2 ih

/-- An inductive invariant of the whole system is one of the guarded system. -/
theorem Inductive.guard (h : S.Inductive I) : (S.guard ok).Inductive I where
  init := h.init
  step s a s' hi hs := h.step s a s' hi (guard_step.mp hs).2

/-- If a step keeps `P` exactly where it meets `ok`, a run keeps `P` exactly if all its steps meet
`ok`: once lost, `P` does not come back. -/
theorem Inductive.run_guard_iff {P : σ → Prop} (hJ : S.Inductive J)
    (hstep : ∀ s a s', J s → S.step s a = some s' → (P s' ↔ P s ∧ ok s a))
    (hr : S.Run s l t) (hj : J s) (hP : P s) : P t ↔ (S.guard ok).Run s l t := by
  induction hr with
  | nil => exact ⟨fun _ => .nil _, fun _ => hP⟩
  | @cons s s₁ t a l hs hr ih =>
    have hj₁ := hJ.step _ _ _ hj hs
    have hback : P t → P s₁ :=
      hJ.run_back (fun s a s' hj hs hP => ((hstep s a s' hj hs).mp hP).1) hr hj₁
    constructor
    · intro ht
      have hok := ((hstep _ _ _ hj hs).mp (hback ht)).2
      exact .cons (guard_step.mpr ⟨hok, hs⟩) ((ih hj₁ (hback ht)).mp ht)
    · intro hg
      cases hg with
      | cons hs' hg =>
        obtain ⟨hok, hs'⟩ := guard_step.mp hs'
        obtain rfl := Option.some.inj (hs.symm.trans hs')
        exact (ih hj₁ ((hstep _ _ _ hj hs).mpr ⟨hP, hok⟩)).mpr hg

/-- If a step keeps `P` exactly where it meets `ok`, then `P` holds in every state of a run exactly
if all its steps meet `ok`. Unlike in `run_guard_iff`, `P` may come back after it was lost. -/
theorem Inductive.along_guard_iff {P : σ → Prop} (hJ : S.Inductive J)
    (hstep : ∀ s a s', J s → P s → S.step s a = some s' → (P s' ↔ ok s a))
    (hr : S.Run s l t) (hj : J s) (hP : P s) :
    (∀ l₁ l₂ u, l = l₁ ++ l₂ → S.Run s l₁ u → P u) ↔ (S.guard ok).Run s l t := by
  induction hr with
  | nil s =>
    refine ⟨fun _ => .nil _, fun _ l₁ l₂ u hl hu => ?_⟩
    obtain ⟨rfl, -⟩ := List.nil_eq_append_iff.mp hl
    cases hu
    exact hP
  | @cons s s₁ t a l hs hr ih =>
    have hj₁ := hJ.step _ _ _ hj hs
    constructor
    · intro h
      have hP₁ := h [a] l s₁ rfl (.single hs)
      refine .cons (guard_step.mpr ⟨(hstep _ _ _ hj hP hs).mp hP₁, hs⟩) ((ih hj₁ hP₁).mp ?_)
      intro l₁ l₂ u hl hu
      exact h (a :: l₁) l₂ u (by rw [hl]; rfl) (.cons hs hu)
    · intro hg l₁ l₂ u hl hu
      cases hg with
      | cons hs' hg =>
        obtain ⟨hok, hs'⟩ := guard_step.mp hs'
        obtain rfl := Option.some.inj (hs.symm.trans hs')
        have hP₁ := (hstep _ _ _ hj hP hs).mpr hok
        cases hu with
        | nil => exact hP
        | cons hs'' hu =>
          obtain ⟨rfl, rfl⟩ := List.cons_eq_cons.mp hl
          obtain rfl := Option.some.inj (hs.symm.trans hs'')
          exact (ih hj₁ hP₁).mpr hg _ _ _ rfl hu

end Guard

end Lts
