import Mathlib.Data.List.Induction
import Mathlib.Data.List.Perm.Basic
import Mathlib.Data.List.FinRange
import Mathlib.Data.List.Nodup
import Mathlib.Logic.Function.Basic

/-!
# Ledgers of owned handles

A component that owns handles (connections, files, locks) acts on them: it acquires a handle from
outside, is refused one, adopts one that somebody else acquired, uses one, and releases one. A
**ledger** is the list of these acts in the order in which they happened.

* `live t`: the handles acquired or adopted and not released yet.
* `Ok cap t`: the discipline. An acquired or adopted handle is new, a used or released one is
  live, and the component asks for a handle (`acquire`, `refuse`) only while fewer than `cap` are
  live.
* What the discipline gives: a handle that came in is live or was released exactly once
  (`Ok.live_or_released`), nothing is used after its release (`Ok.use_live`), a request is made
  only below the bound (`Ok.request_lt`).
* `Holds conn cap t`: a table whose slots hold the live handles. A use, a release and a new handle
  that takes a slot keep it (`Holds.use`, `Holds.release`, `Holds.replace`).
-/

namespace Ledger

/-- One act of the component on its handles. -/
inductive Act (H : Type) where
  /-- A request that gave the handle `h`. -/
  | acquire (h : H)
  /-- A request that gave nothing. -/
  | refuse
  /-- The handle `h` is handed over by its former owner. -/
  | adopt (h : H)
  | release (h : H)
  | use (h : H)
  deriving DecidableEq

variable {H : Type}

/-- The handle that comes in. -/
def Act.incoming : Act H → Option H
  | .acquire h | .adopt h => some h
  | _ => none

/-- A request to the outside. -/
def Act.request : Act H → Bool
  | .acquire _ | .refuse => true
  | _ => false

/-- The handles that ever came in. -/
def incoming (t : List (Act H)) : List H := t.filterMap Act.incoming

variable [DecidableEq H]

/-- What one act does to the live handles. -/
def liveStep (l : List H) : Act H → List H
  | .acquire h | .adopt h => h :: l
  | .release h => l.erase h
  | .refuse | .use _ => l

/-- The live handles after the acts `t`. -/
def live (t : List (Act H)) : List H := t.foldl liveStep []

/-- The act `a` is allowed after `t`. -/
def Allowed (cap : Nat) (t : List (Act H)) : Act H → Prop
  | .acquire h => h ∉ incoming t ∧ (live t).length < cap
  | .refuse => (live t).length < cap
  | .adopt h => h ∉ incoming t
  | .release h | .use h => h ∈ live t

/-- Each act is allowed when it happens. -/
def Ok (cap : Nat) (t : List (Act H)) : Prop :=
  ∀ ⦃pre a post⦄, t = pre ++ a :: post → Allowed cap pre a

variable {cap : Nat} {t u : List (Act H)} {a : Act H} {h : H}

theorem live_snoc : live (t ++ [a]) = liveStep (live t) a := by simp [live]

omit [DecidableEq H] in
theorem incoming_append : incoming (t ++ u) = incoming t ++ incoming u := by simp [incoming]

theorem ok_nil : Ok cap ([] : List (Act H)) := fun _ _ _ h => by simp at h

theorem ok_snoc : Ok cap (t ++ [a]) ↔ Ok cap t ∧ Allowed cap t a := by
  constructor
  · exact fun hk => ⟨fun pre b post h => hk (h ▸ List.append_assoc pre _ _), hk rfl⟩
  · rintro ⟨hk, ha⟩ pre b post h
    rcases List.eq_nil_or_concat post with rfl | ⟨post, c, rfl⟩
    · obtain ⟨rfl, hb⟩ := List.append_inj' h rfl
      cases hb
      exact ha
    · rw [List.concat_eq_append, ← List.cons_append, ← List.append_assoc] at h
      exact hk (List.append_inj_left' h rfl)

/-- Nothing is used unless it is live. -/
theorem Ok.use_live (hk : Ok cap (t ++ .use h :: u)) : h ∈ live t := hk rfl

/-- A request is made only while fewer than `cap` handles are live. -/
theorem Ok.request_lt (hk : Ok cap (t ++ a :: u)) (ha : a.request = true) :
    (live t).length < cap := by
  have hal : Allowed cap t a := hk rfl
  cases a with
  | acquire h => exact hal.2
  | refuse => exact hal
  | adopt h | release h | use h => cases ha

theorem Ok.nodup_live (hk : Ok cap t) : (live t).Nodup ∧ ∀ h ∈ live t, h ∈ incoming t := by
  induction t using List.reverseRecOn with
  | nil => simp [live]
  | append_singleton t a ih =>
    obtain ⟨hk, ha⟩ := ok_snoc.mp hk
    obtain ⟨hn, hi⟩ := ih hk
    rw [live_snoc, incoming_append]
    cases a with
    | acquire h =>
      refine ⟨List.nodup_cons.mpr ⟨fun hm => ha.1 (hi h hm), hn⟩, fun x hx => ?_⟩
      rcases List.mem_cons.mp hx with rfl | hx
      · simp [incoming, Act.incoming]
      · exact List.mem_append_left _ (hi x hx)
    | adopt h =>
      refine ⟨List.nodup_cons.mpr ⟨fun hm => ha (hi h hm), hn⟩, fun x hx => ?_⟩
      rcases List.mem_cons.mp hx with rfl | hx
      · simp [incoming, Act.incoming]
      · exact List.mem_append_left _ (hi x hx)
    | release h =>
      exact ⟨hn.erase h, fun x hx => List.mem_append_left _ (hi x (List.mem_of_mem_erase hx))⟩
    | refuse | use h => exact ⟨hn, fun x hx => List.mem_append_left _ (hi x hx)⟩

/-- A handle that came in is live and was never released, or was released exactly once. -/
theorem Ok.live_or_released (hk : Ok cap t) (hi : h ∈ incoming t) :
    (h ∈ live t ∧ t.count (.release h) = 0) ∨ (h ∉ live t ∧ t.count (.release h) = 1) := by
  -- A handle that did not come in yet was not released either; both halves go by induction on `t`.
  suffices key : (h ∈ incoming t → (h ∈ live t ∧ t.count (.release h) = 0) ∨
      (h ∉ live t ∧ t.count (.release h) = 1)) ∧ (h ∉ incoming t → t.count (.release h) = 0) from
    key.1 hi
  clear hi
  induction t using List.reverseRecOn with
  | nil => simp [incoming]
  | append_singleton t a ih =>
    obtain ⟨hk, ha⟩ := ok_snoc.mp hk
    obtain ⟨hn, hsub⟩ := hk.nodup_live
    replace ih := ih hk
    rw [live_snoc, incoming_append, List.count_append]
    cases a with
    | acquire x | adopt x =>
      by_cases hx : h = x
      · subst hx
        have h0 := ih.2 (by first | exact ha.1 | exact ha)
        simp [incoming, Act.incoming, liveStep, h0]
      · simpa [incoming, Act.incoming, liveStep, hx, Ne.symm hx] using ih
    | release x =>
      by_cases hx : x = h
      · subst hx
        have hin := hsub x ha
        have h0 : t.count (.release x) = 0 := by
          rcases ih.1 hin with ⟨-, h0⟩ | ⟨hl, -⟩
          · exact h0
          · exact absurd ha hl
        have hne : x ∉ (live t).erase x := by simp [hn.mem_erase_iff]
        simp [incoming, Act.incoming, liveStep, h0, hne] at hin ⊢
        exact hin
      · simpa [incoming, Act.incoming, liveStep, hx, List.mem_erase_of_ne (Ne.symm hx)] using ih
    | refuse | use x => simpa [incoming, Act.incoming, liveStep] using ih

/-- What is released came in before. -/
theorem Ok.incoming_of_release (hk : Ok cap t) (hr : .release h ∈ t) : h ∈ incoming t := by
  obtain ⟨pre, post, rfl⟩ := List.append_of_mem hr
  have hpre : Ok cap pre := fun a b c hab => hk (by rw [hab, List.append_assoc, List.cons_append])
  rw [incoming_append]
  exact List.mem_append_left _ (hpre.nodup_live.2 h (hk rfl))

/-- What comes in is new each time. -/
theorem Ok.nodup_incoming (hk : Ok cap t) : (incoming t).Nodup := by
  induction t using List.reverseRecOn with
  | nil => exact List.nodup_nil
  | append_singleton t a ih =>
    obtain ⟨hk', ha⟩ := ok_snoc.mp hk
    have hnew : ∀ h, h ∉ incoming t → (incoming t ++ [h]).Nodup := by
      intro h hni
      rw [List.nodup_append]
      refine ⟨ih hk', List.nodup_singleton h, fun x hx y hy => ?_⟩
      rw [List.mem_singleton.mp hy]
      exact fun e => hni (e ▸ hx)
    rw [incoming_append]
    cases a with
    | acquire h => exact hnew h ha.1
    | adopt h => exact hnew h ha
    | refuse | release h | use h => exact (List.append_nil (incoming t)).symm ▸ ih hk'

/-! ## Tables of handles -/

/-- The slots of a table hold the live handles of the ledger, each in one slot. -/
structure Holds {ι : Type} (conn : ι → Option H) (cap : Nat) (t : List (Act H)) : Prop where
  inj : ∀ i j h, conn i = some h → conn j = some h → i = j
  ok : Ok cap t
  live : ∀ h, h ∈ live t ↔ ∃ i, conn i = some h

variable {ι : Type} {conn : ι → Option H} {i : ι}

theorem holds_empty (cap : Nat) : Holds (fun _ : ι => (none : Option H)) cap [] :=
  ⟨by simp, ok_nil, by simp [live]⟩

theorem Holds.use (hh : Holds conn cap t) (hi : conn i = some h) :
    Holds conn cap (t ++ [.use h]) where
  inj := hh.inj
  ok := ok_snoc.mpr ⟨hh.ok, (hh.live h).mpr ⟨i, hi⟩⟩
  live x := by rw [live_snoc]; exact hh.live x

section Update

variable [DecidableEq ι]

/-- The handle of slot `i` is released. -/
theorem Holds.release (hh : Holds conn cap t) (hi : conn i = some h) :
    Holds (Function.update conn i none) cap (t ++ [.release h]) := by
  have hold : ∀ {j x}, Function.update conn i none j = some x → j ≠ i ∧ conn j = some x := by
    intro j x hj
    rw [Function.update_apply] at hj
    split at hj
    · cases hj
    · exact ⟨‹_›, hj⟩
  refine ⟨fun j k x hj hk => hh.inj j k x (hold hj).2 (hold hk).2,
    ok_snoc.mpr ⟨hh.ok, (hh.live h).mpr ⟨i, hi⟩⟩, fun x => ?_⟩
  rw [live_snoc, liveStep, hh.ok.nodup_live.1.mem_erase_iff, hh.live]
  constructor
  · rintro ⟨hne, j, hj⟩
    refine ⟨j, ?_⟩
    rw [Function.update_of_ne, hj]
    rintro rfl
    exact hne (Option.some_inj.mp (hj.symm.trans hi))
  · rintro ⟨j, hj⟩
    obtain ⟨hne, hj⟩ := hold hj
    exact ⟨fun he => hne (hh.inj j i h (he ▸ hj) hi), j, hj⟩

/-- A new handle comes in and takes slot `i`, whose old one is released. -/
theorem Holds.replace (hh : Holds conn cap t) (hnew : h ∉ incoming t) (i : ι) :
    Holds (Function.update conn i (some h)) cap
      (t ++ .adopt h :: (conn i).toList.map .release) := by
  have hfresh : ∀ j, conn j ≠ some h := fun j hj =>
    hnew (hh.ok.nodup_live.2 h ((hh.live h).mpr ⟨j, hj⟩))
  have hin : Ok cap (t ++ [.adopt h]) := ok_snoc.mpr ⟨hh.ok, hnew⟩
  have hinj : ∀ j k x, Function.update conn i (some h) j = some x →
      Function.update conn i (some h) k = some x → j = k := by
    intro j k x hj hk
    rw [Function.update_apply] at hj hk
    split at hj <;> split at hk
    · subst_vars; rfl
    · cases hj; exact absurd hk (hfresh k)
    · cases hk; exact absurd hj (hfresh j)
    · exact hh.inj j k x hj hk
  cases hi : conn i with
  | none =>
    refine ⟨hinj, by simpa using hin, fun x => ?_⟩
    simp only [Option.toList_none, List.map_nil]
    rw [live_snoc, liveStep, List.mem_cons, hh.live]
    constructor
    · rintro (rfl | ⟨j, hj⟩)
      · exact ⟨i, by rw [Function.update_self]⟩
      · refine ⟨j, ?_⟩
        rw [Function.update_of_ne, hj]
        rintro rfl
        rw [hi] at hj
        cases hj
    · rintro ⟨j, hj⟩
      rw [Function.update_apply] at hj
      split at hj
      · exact .inl (Option.some_inj.mp hj).symm
      · exact .inr ⟨j, hj⟩
  | some old =>
    have hlive : old ∈ Ledger.live (t ++ [.adopt h]) := by
      rw [live_snoc]
      exact List.mem_cons_of_mem _ ((hh.live old).mpr ⟨i, hi⟩)
    have hlist : t ++ Act.adopt h :: (some old).toList.map .release =
        t ++ [.adopt h] ++ [.release old] := by simp
    rw [hlist]
    refine ⟨hinj, ok_snoc.mpr ⟨hin, hlive⟩, fun x => ?_⟩
    rw [live_snoc, liveStep, hin.nodup_live.1.mem_erase_iff, live_snoc, liveStep, List.mem_cons,
      hh.live]
    constructor
    · rintro ⟨hne, rfl | ⟨j, hj⟩⟩
      · exact ⟨i, by rw [Function.update_self]⟩
      · refine ⟨j, ?_⟩
        rw [Function.update_of_ne, hj]
        rintro rfl
        exact hne (Option.some_inj.mp (hj.symm.trans hi))
    · rintro ⟨j, hj⟩
      rw [Function.update_apply] at hj
      split at hj
      · obtain rfl := Option.some_inj.mp hj
        exact ⟨fun he => hfresh i (he ▸ hi), .inl rfl⟩
      · rename_i hne
        exact ⟨fun he => hne (hh.inj j i old (he ▸ hj) hi), .inr ⟨j, hj⟩⟩

/-- All handles are released, in the order of the slots `is`. -/
theorem Holds.releaseAll (hh : Holds conn cap t) {is : List ι} (hn : is.Nodup)
    (hall : ∀ i h, conn i = some h → i ∈ is) :
    Holds (fun _ : ι => (none : Option H)) cap (t ++ (is.filterMap conn).map .release) := by
  induction is generalizing conn t with
  | nil =>
    have hnone : conn = fun _ => none := by
      funext i
      refine Option.eq_none_iff_forall_ne_some.mpr fun h hi => ?_
      exact absurd (hall i h hi) List.not_mem_nil
    rw [hnone] at hh
    simpa using hh
  | cons i is ih =>
    obtain ⟨hni, hn⟩ := List.nodup_cons.mp hn
    cases hi : conn i with
    | none =>
      rw [List.filterMap_cons_none hi]
      refine ih hh hn fun j h hj => ?_
      refine (List.mem_cons.mp (hall j h hj)).resolve_left ?_
      rintro rfl
      rw [hi] at hj
      cases hj
    | some x =>
      have hrest : is.filterMap (Function.update conn i none) = is.filterMap conn := by
        refine List.filterMap_congr fun j hj => ?_
        rw [Function.update_of_ne]
        rintro rfl
        exact hni hj
      have := ih (hh.release hi) hn fun j h hj => ?_
      · rw [hrest, List.append_assoc] at this
        rw [List.filterMap_cons_some hi]
        exact this
      · rw [Function.update_apply] at hj
        split at hj
        · cases hj
        · exact (List.mem_cons.mp (hall j h hj)).resolve_left ‹_›

end Update

/-- No more handles are live than the table has slots. -/
theorem Holds.live_length_le {n : Nat} {conn : Fin n → Option H} (hh : Holds conn cap t) :
    (Ledger.live t).length ≤ n := by
  have hsub : Ledger.live t ⊆ (List.finRange n).filterMap conn := by
    intro h hm
    obtain ⟨i, hi⟩ := (hh.live h).mp hm
    exact List.mem_filterMap.mpr ⟨i, List.mem_finRange i, hi⟩
  have hle := (List.subperm_of_subset hh.ok.nodup_live.1 hsub).length_le
  have hlen := List.length_filterMap_le conn (List.finRange n)
  rw [List.length_finRange] at hlen
  exact Nat.le_trans hle hlen

end Ledger
