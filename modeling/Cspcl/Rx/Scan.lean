import Cspcl.Rx.Budget

/-!
# The loop over the receive table

What the loop of `cspcl_recv_bundle` comes to, in terms of what the read of each slot gives
(`RxTable.outcome`): the first slot with a bundle that fits ends it (`scan_ready`), and without one
every connection is read and the result is a timeout (`scan_none`).
-/

namespace Cspcl

/-- What a read came to. -/
def RxCall.gave (maxLen : Nat) : RxCall → Option (Except CspclError Bundle)
  | .sfpRecv _ _ read => some (recvFromConnTimeout maxLen read)
  | _ => none

/-- A read among the calls came to `o`. -/
def ReadGave (maxLen : Nat) (calls : List RxCall) (o : Except CspclError Bundle) : Prop :=
  ∃ k ∈ calls, k.gave maxLen = some o

instance (maxLen : Nat) (calls : List RxCall) (o : Except CspclError Bundle) :
    Decidable (ReadGave maxLen calls o) :=
  inferInstanceAs (Decidable (∃ k ∈ calls, _))

theorem readGave_append {maxLen : Nat} {l m : List RxCall} {o : Except CspclError Bundle} :
    ReadGave maxLen (l ++ m) o ↔ ReadGave maxLen l o ∨ ReadGave maxLen m o := by
  simp only [ReadGave, List.mem_append, or_and_right, exists_or]

theorem readGave_cons {maxLen : Nat} {k : RxCall} {l : List RxCall}
    {o : Except CspclError Bundle} :
    ReadGave maxLen (k :: l) o ↔ k.gave maxLen = some o ∨ ReadGave maxLen l o :=
  List.exists_mem_cons_iff ..

theorem readGave_nil {maxLen : Nat} {o : Except CspclError Bundle} : ¬ ReadGave maxLen [] o := by
  simp [ReadGave]

namespace RxTable

/-- What the read of a slot comes to, if it has a connection to read. -/
def outcome (t : RxTable) (maxLen : Nat) (reads : Fin rxConnTableSize → SfpRecv)
    (i : Fin rxConnTableSize) : Option (Except CspclError Bundle) :=
  if (t.entries i).used then (t.entries i).conn.map fun _ => recvFromConnTimeout maxLen (reads i)
  else none

/-- The slot has a connection with a bundle that fits into the buffer. -/
def Ready (t : RxTable) (maxLen : Nat) (reads : Fin rxConnTableSize → SfpRecv)
    (i : Fin rxConnTableSize) : Prop :=
  ∃ data, t.outcome maxLen reads i = some (.ok data)

variable {t : RxTable} {maxLen : Nat} {reads : Fin rxConnTableSize → SfpRecv}
  {i j : Fin rxConnTableSize} {rt : UInt32} {start n : Nat} {ns : List Nat}

theorem outcome_congr {t' : RxTable} (h : t'.entries i = t.entries i) :
    t'.outcome maxLen reads i = t.outcome maxLen reads i := by
  unfold outcome
  rw [h]

theorem ready_congr {t' : RxTable} (h : t'.entries i = t.entries i) :
    t'.Ready maxLen reads i ↔ t.Ready maxLen reads i := by
  unfold Ready
  rw [outcome_congr h]

/-- The loop comes to each slot once. -/
theorem slotAt_ne (h : slotAt start n ∉ ns.map (slotAt start)) :
    ∀ m ∈ ns, slotAt start m ≠ slotAt start n :=
  fun _ hm he => h (he ▸ List.mem_map_of_mem hm)

/-- A step of the loop at a slot with a bundle. -/
theorem scan_cons_ready (rt : UInt32) (ns : List Nat)
    (h : t.Ready maxLen reads (slotAt start n)) :
    ∃ c data, (t.entries (slotAt start n)).conn = some c ∧
      t.scan maxLen rt reads start (n :: ns) = ⟨t.touch (slotAt start n),
        .ok (data, (t.entries (slotAt start n)).srcAddr, (t.entries (slotAt start n)).srcPort),
        [.sfpRecv c rt (reads (slotAt start n)), .sendAck c]⟩ := by
  obtain ⟨data, h⟩ := h
  unfold outcome at h
  split at h
  · rename_i hu
    obtain ⟨c, hc, hr⟩ := Option.map_eq_some_iff.mp h
    refine ⟨c, data, hc, ?_⟩
    simp [scan, hu, recvFromEntry, hc, hr]
  · cases h

/-- A step of the loop at another slot: it reads the connection if there is one, and goes on. -/
theorem scan_cons_not_ready (rt : UInt32) (ns : List Nat)
    (h : ¬ t.Ready maxLen reads (slotAt start n)) :
    ∃ (t' : RxTable) (new : List RxCall), t'.tick = t.tick ∧
      (∀ j, j ≠ slotAt start n → t'.entries j = t.entries j) ∧
      (∀ j c, (t'.entries j).conn = some c → (t.entries j).conn = some c) ∧
      t.scan maxLen rt reads start (n :: ns) = ⟨(t'.scan maxLen rt reads start ns).table,
        (t'.scan maxLen rt reads start ns).res,
        new ++ (t'.scan maxLen rt reads start ns).calls⟩ ∧
      (∀ c, .sendAck c ∉ new) ∧
      ∀ o, ReadGave maxLen new o ↔ t.outcome maxLen reads (slotAt start n) = some o := by
  unfold Ready outcome at h
  unfold outcome
  cases hu : (t.entries (slotAt start n)).used with
  | false =>
    refine ⟨t, [], rfl, fun _ _ => rfl, fun _ _ hc => hc, by simp [scan, hu], by simp, fun o => ?_⟩
    exact iff_of_false readGave_nil (by simp)
  | true =>
    rw [hu] at h
    have hdrop : ∀ j, j ≠ slotAt start n → (t.drop (slotAt start n)).entries j = t.entries j :=
      fun j hj => by rw [entries_drop, if_neg hj]
    have hconn : ∀ j c, ((t.drop (slotAt start n)).entries j).conn = some c →
        (t.entries j).conn = some c := by
      intro j c hc
      rw [entries_drop] at hc
      split at hc
      · cases hc
      · exact hc
    cases hc : (t.entries (slotAt start n)).conn with
    | none =>
      refine ⟨t.drop _, [], rfl, hdrop, hconn, by simp [scan, hu, recvFromEntry, hc], by simp,
        fun o => ?_⟩
      exact iff_of_false readGave_nil (by simp)
    | some c =>
      rw [hc] at h
      cases hr : recvFromConnTimeout maxLen (reads (slotAt start n)) with
      | ok data => exact absurd ⟨data, by simp [hr]⟩ h
      | error err =>
        simp only [if_true, Option.map_some, Option.some.injEq]
        rw [← hr]
        by_cases he : err = .timeout
        · refine ⟨t, [.sfpRecv c rt (reads (slotAt start n))], rfl, fun _ _ => rfl,
            fun _ _ hc => hc, ?_, by simp, fun o => by simp [ReadGave, RxCall.gave]⟩
          simp [scan, hu, recvFromEntry, hc, hr, he]
        · refine ⟨t.drop _, [.sfpRecv c rt (reads (slotAt start n)), .close c], rfl, hdrop,
            hconn, ?_, by simp, fun o => by simp [ReadGave, RxCall.gave]⟩
          simp [scan, hu, recvFromEntry, hc, hr, he]

/-- The loop over slots of which one has a bundle: it ends at the first of them, whose connection it
acknowledges. The other slots that have one are left as they are. -/
theorem scan_ready (rt : UInt32) (hn : (ns.map (slotAt start)).Nodup)
    (h : ∃ n ∈ ns, t.Ready maxLen reads (slotAt start n)) :
    ∃ pre n post data, ns = pre ++ n :: post ∧
      (∀ m ∈ pre, ¬ t.Ready maxLen reads (slotAt start m)) ∧
      (∃ c, (t.entries (slotAt start n)).conn = some c ∧
        .sendAck c ∈ (t.scan maxLen rt reads start ns).calls) ∧
      (t.scan maxLen rt reads start ns).res = .ok (data,
        (t.entries (slotAt start n)).srcAddr, (t.entries (slotAt start n)).srcPort) ∧
      (t.scan maxLen rt reads start ns).table.tick = t.tick + 1 ∧
      ∀ j, t.Ready maxLen reads j → j ≠ slotAt start n →
        (t.scan maxLen rt reads start ns).table.entries j = t.entries j := by
  induction ns generalizing t with
  | nil =>
    obtain ⟨n, hm, -⟩ := h
    cases hm
  | cons n ns ih =>
    rw [List.map_cons, List.nodup_cons] at hn
    by_cases hr : t.Ready maxLen reads (slotAt start n)
    · obtain ⟨c, data, hc, hs⟩ := scan_cons_ready rt ns hr
      rw [hs]
      refine ⟨[], n, ns, data, rfl, by simp, ⟨c, hc, by simp⟩, rfl, rfl, fun j _ hj => ?_⟩
      exact Function.update_of_ne hj ..
    · obtain ⟨t', new, htick, hsame, -, hs, -, -⟩ := scan_cons_not_ready rt ns hr
      have hready : ∀ j, j ≠ slotAt start n → (t'.Ready maxLen reads j ↔ t.Ready maxLen reads j) :=
        fun j hj => ready_congr (hsame j hj)
      have hne := slotAt_ne hn.1
      obtain ⟨m, hm, hmr⟩ := h
      have hm : m ∈ ns := (List.mem_cons.mp hm).resolve_left fun he => hr (he ▸ hmr)
      obtain ⟨pre, k, post, data, rfl, hpre, ⟨c, hc, hack⟩, hres, htk, hent⟩ :=
        ih (t := t') hn.2 ⟨m, hm, (hready _ (hne m hm)).mpr hmr⟩
      have hkn := hne k (by simp)
      rw [hs]
      refine ⟨n :: pre, k, post, data, rfl, fun m hm => ?_,
        ⟨c, hsame _ hkn ▸ hc, List.mem_append_right _ hack⟩, ?_, htk.trans (by rw [htick]),
        fun j hj hjk => ?_⟩
      · rcases List.mem_cons.mp hm with rfl | hm
        · exact hr
        · exact (hready _ (hne m (by simp [hm]))).not.mp (hpre m hm)
      · rw [← hsame _ hkn]
        exact hres
      · have hjn : j ≠ slotAt start n := by
          rintro rfl
          exact hr hj
        rw [← hsame j hjn]
        exact hent j ((hready j hjn).mpr hj) hjk

/-- The loop over slots without a bundle: it reads what there is to read, and acknowledges
nothing. -/
theorem scan_none (rt : UInt32) (hn : (ns.map (slotAt start)).Nodup)
    (h : ∀ n ∈ ns, ¬ t.Ready maxLen reads (slotAt start n)) :
    (t.scan maxLen rt reads start ns).res = .error .timeout ∧
      (∀ c, .sendAck c ∉ (t.scan maxLen rt reads start ns).calls) ∧
      ∀ o, ReadGave maxLen (t.scan maxLen rt reads start ns).calls o ↔
        ∃ n ∈ ns, t.outcome maxLen reads (slotAt start n) = some o := by
  induction ns generalizing t with
  | nil => exact ⟨rfl, by simp [scan], fun o => iff_of_false readGave_nil (by simp)⟩
  | cons n ns ih =>
    rw [List.map_cons, List.nodup_cons] at hn
    obtain ⟨t', new, -, hsame, -, hs, hack, hread⟩ :=
      scan_cons_not_ready rt ns (h n List.mem_cons_self)
    have hne := slotAt_ne hn.1
    obtain ⟨hres, hacks, hreads⟩ := ih (t := t') hn.2 fun m hm =>
      (ready_congr (hsame _ (hne m hm))).not.mpr (h m (List.mem_cons_of_mem _ hm))
    rw [hs]
    refine ⟨hres, fun c hm => ?_, fun o => ?_⟩
    · exact (List.mem_append.mp hm).elim (hack c) (hacks c)
    · rw [readGave_append, hread, hreads, List.exists_mem_cons_iff]
      refine or_congr_right (exists_congr fun m => and_congr_right fun hm => ?_)
      rw [outcome_congr (hsame _ (hne m hm))]

/-- The loop brings no connection into the table. -/
theorem scan_conn (t : RxTable) (ns : List Nat) {c : Conn}
    (h : ((t.scan maxLen rt reads start ns).table.entries j).conn = some c) :
    (t.entries j).conn = some c := by
  induction ns generalizing t with
  | nil => exact h
  | cons n ns ih =>
    by_cases hr : t.Ready maxLen reads (slotAt start n)
    · obtain ⟨d, data, -, hs⟩ := scan_cons_ready rt ns hr
      rw [hs] at h
      simp only [touch, Function.update_apply] at h
      split at h
      · rename_i hj
        rw [hj]
        exact h
      · exact h
    · obtain ⟨t', new, -, -, hconn, hs, -, -⟩ := scan_cons_not_ready rt ns hr
      rw [hs] at h
      exact hconn j c (ih t' h)

end RxTable

end Cspcl
