import Mathlib.Data.List.Nodup
import Mathlib.Data.List.Perm.Subperm
import Cspcl.Rx.Recv

/-!
# The time that one `cspcl_recv_bundle` waits

The timeouts that the call hands to `csp_accept` and `csp_sfp_recv` add up to at most what its
caller asked for, plus 50 ms for each read (`recv_budget_iff`), with one exception: half of a
timeout of 1 ms is 0, which `cspcl_accept_conn` takes for a whole second.
-/

namespace Cspcl

/-- The timeout handed to `csp_accept` or `csp_sfp_recv`. -/
def RxCall.waitMs : RxCall → Nat
  | .accept timeout _ => timeout.toNat
  | .sfpRecv _ timeout _ => timeout.toNat
  | _ => 0

/-- A read of a connection. -/
def RxCall.isRead : RxCall → Bool
  | .sfpRecv .. => true
  | _ => false

/-- The timeouts of all calls. -/
def waitSum (calls : List RxCall) : Nat := (calls.map RxCall.waitMs).sum

/-- The number of reads. -/
def readCount (calls : List RxCall) : Nat := calls.countP RxCall.isRead

variable {calls calls' : List RxCall} {t : RxTable} {g : Globals} {c : Instance}

@[simp] theorem waitSum_append : waitSum (calls ++ calls') = waitSum calls + waitSum calls' := by
  simp [waitSum]

@[simp] theorem readCount_append :
    readCount (calls ++ calls') = readCount calls + readCount calls' := by
  simp [readCount]

@[simp] theorem waitSum_stack (l : List StackCall) : waitSum (l.map .stack) = 0 := by
  induction l with
  | nil => rfl
  | cons a l ih => simpa [waitSum, RxCall.waitMs] using ih

@[simp] theorem readCount_stack (l : List StackCall) : readCount (l.map .stack) = 0 := by
  simp [readCount, RxCall.isRead]

@[simp] theorem waitSum_close (l : List Conn) : waitSum (l.map .close) = 0 := by
  induction l with
  | nil => rfl
  | cons a l ih => simpa [waitSum, RxCall.waitMs] using ih

@[simp] theorem readCount_close (l : List Conn) : readCount (l.map .close) = 0 := by
  simp [readCount, RxCall.isRead]

namespace RxTable

/-- A read of an entry. -/
theorem waits_recvFromEntry (maxLen : Nat) (e : RxEntry) (timeoutMs : UInt32) (read : SfpRecv) :
    waitSum (recvFromEntry maxLen e timeoutMs read).2 =
        readCount (recvFromEntry maxLen e timeoutMs read).2 * timeoutMs.toNat ∧
      readCount (recvFromEntry maxLen e timeoutMs read).2 ≤ 1 := by
  unfold recvFromEntry
  cases e.conn with
  | none => simp [waitSum, readCount]
  | some c => simp only; split <;>
    simp [waitSum, readCount, RxCall.waitMs, RxCall.isRead, List.countP_cons]

/-- The number of steps of the loop whose slot is used. -/
def usedSteps (t : RxTable) (start : Nat) (ns : List Nat) : Nat :=
  ns.countP fun n => (t.entries (slotAt start n)).used

theorem usedSteps_drop (t : RxTable) (i : Fin rxConnTableSize) (start : Nat) (ns : List Nat) :
    (t.drop i).usedSteps start ns ≤ t.usedSteps start ns := by
  refine List.countP_mono_left fun n _ hu => ?_
  simp only [drop, Function.update_apply] at hu
  split at hu
  · cases hu
  · exact hu

/-- The loop reads each used slot at most once, always with the same timeout. -/
theorem waits_scan (maxLen : Nat) (rt : UInt32) (reads : Fin rxConnTableSize → SfpRecv)
    (start : Nat) (t : RxTable) (ns : List Nat) :
    waitSum (t.scan maxLen rt reads start ns).calls =
        readCount (t.scan maxLen rt reads start ns).calls * rt.toNat ∧
      readCount (t.scan maxLen rt reads start ns).calls ≤ t.usedSteps start ns := by
  induction ns generalizing t with
  | nil => simp [scan, waitSum, readCount]
  | cons n ns ih =>
    have hcons : t.usedSteps start (n :: ns) =
        t.usedSteps start ns + if (t.entries (slotAt start n)).used then 1 else 0 := by
      simp [usedSteps, List.countP_cons]
    obtain ⟨hw, hr⟩ := waits_recvFromEntry maxLen (t.entries (slotAt start n)) rt
      (reads (slotAt start n))
    simp only [scan]
    split
    · obtain ⟨hs, hle⟩ := ih t
      exact ⟨hs, hle.trans (by rw [hcons]; exact Nat.le_add_right _ _)⟩
    · rename_i hu
      have hu : (t.entries (slotAt start n)).used = true := by simpa using hu
      rw [if_pos hu] at hcons
      rcases he : recvFromEntry maxLen (t.entries (slotAt start n)) rt (reads (slotAt start n)) with
        ⟨res, calls⟩
      rw [he] at hw hr
      simp only at hw hr
      cases res with
      | ok data => exact ⟨hw, by rw [hcons]; exact hr.trans (Nat.le_add_left _ _)⟩
      | error err =>
        simp only
        split
        · obtain ⟨hs, hle⟩ := ih t
          simp only [waitSum_append, readCount_append, hw, hs, Nat.add_mul, true_and]
          omega
        · obtain ⟨hs, hle⟩ := ih (t.drop (slotAt start n))
          have hd := usedSteps_drop t (slotAt start n) start ns
          simp only [waitSum_append, readCount_append, waitSum_close, readCount_close, hw, hs,
            Nat.add_mul, Nat.zero_add, true_and]
          omega

/-- The steps of the loop visit each slot once. -/
theorem usedSteps_le_live (t : RxTable) (start : Nat) :
    t.usedSteps start (List.range rxConnTableSize) ≤ t.live := by
  have hsub : ((List.range rxConnTableSize).map (slotAt start)).Subperm
      (List.finRange rxConnTableSize) :=
    List.subperm_of_subset (nodup_slotAt start) fun i _ => List.mem_finRange i
  have hmap : t.usedSteps start (List.range rxConnTableSize) =
      ((List.range rxConnTableSize).map (slotAt start)).countP fun i => (t.entries i).used := by
    rw [List.countP_map]
    rfl
  rw [hmap]
  exact hsub.countP_le _

theorem live_le (t : RxTable) : t.live ≤ rxConnTableSize := by
  have hle := List.countP_le_length (p := fun i => (t.entries i).used)
    (l := List.finRange rxConnTableSize)
  rwa [List.length_finRange] at hle

theorem toNat_live (t : RxTable) : (UInt32.ofNat t.live).toNat = t.live := by
  have h := t.live_le
  rw [UInt32.toNat_ofNat']
  simp only [rxConnTableSize] at h
  omega

theorem live_pos : 0 < t.live ↔ ∃ i, (t.entries i).used = true := by
  simp [live, List.countP_pos_iff]

/-! ## The split of the timeout -/

/-- The accept timeout is at most the whole, and 0 only for half of 1 ms. -/
theorem acceptTimeoutMs_spec {timeoutMs : UInt32} (h0 : timeoutMs ≠ 0) (live : Nat) :
    (acceptTimeoutMs timeoutMs live).toNat ≤ timeoutMs.toNat ∧
      (acceptTimeoutMs timeoutMs live = 0 ↔ timeoutMs = 1 ∧ 0 < live) := by
  have hpos : timeoutMs.toNat ≠ 0 := fun h => h0 (UInt32.toNat_inj.mp h)
  have hhalf : (timeoutMs / 2).toNat = timeoutMs.toNat / 2 := UInt32.toNat_div ..
  have hone : timeoutMs = 1 ↔ timeoutMs.toNat = 1 := UInt32.toNat_inj.symm
  have hzero : ∀ x : UInt32, x = 0 ↔ x.toNat = 0 := fun x => UInt32.toNat_inj.symm
  unfold acceptTimeoutMs
  rw [hone, hzero]
  split
  · split
    · rw [hhalf]
      omega
    · rename_i hge
      have hpoll : rxAcceptPollMs.toNat = 100 := rfl
      rw [UInt32.lt_iff_toNat_lt, hhalf, hpoll] at hge
      rw [hpoll]
      omega
  · omega

/-- The read timeout: an equal part of the rest, at least 50 ms. -/
theorem readTimeoutMs_toNat {timeoutMs acceptMs : UInt32} (live : UInt32)
    (h : acceptMs.toNat ≤ timeoutMs.toNat) :
    (readTimeoutMs timeoutMs acceptMs live).toNat =
      max 50 ((timeoutMs.toNat - acceptMs.toNat) / live.toNat) := by
  have hread : ((timeoutMs - acceptMs) / live).toNat =
      (timeoutMs.toNat - acceptMs.toNat) / live.toNat := by
    rw [UInt32.toNat_div, UInt32.toNat_sub_of_le _ _ (UInt32.le_iff_toNat_le.mpr h)]
  have hmin : minReadMs.toNat = 50 := rfl
  unfold readTimeoutMs
  simp only
  split
  · rename_i hlt
    rw [UInt32.lt_iff_toNat_lt, hread, hmin] at hlt
    rw [hmin]
    omega
  · rename_i hge
    rw [UInt32.lt_iff_toNat_lt, hread, hmin] at hge
    rw [hread]
    omega

end RxTable

open RxTable

/-- Within the split of a timeout that is not 1 ms: what is left after the accept is enough for the
reads, apart from 50 ms for each. -/
theorem reads_le {T A live r : Nat} (hA : A ≤ T) (hr : r ≤ live) :
    A + r * max 50 ((T - A) / live) ≤ T + 50 * r := by
  have hmax : r * max 50 ((T - A) / live) ≤ r * 50 + r * ((T - A) / live) := by
    rw [← Nat.mul_add]
    exact Nat.mul_le_mul_left r (max_le (Nat.le_add_right _ _) (Nat.le_add_left _ _))
  have hshare : r * ((T - A) / live) ≤ T - A :=
    (Nat.mul_le_mul_right _ hr).trans (Nat.mul_div_le (T - A) live)
  omega

/-- The waits of the loop after an accept timeout `acceptMs`. -/
theorem waits_poll (maxLen : Nat) {timeoutMs acceptMs : UInt32}
    (h : acceptMs.toNat ≤ timeoutMs.toNat) (reads : Fin rxConnTableSize → SfpRecv) (t : RxTable) :
    50 * readCount (t.poll maxLen timeoutMs acceptMs reads).calls ≤
        waitSum (t.poll maxLen timeoutMs acceptMs reads).calls ∧
      acceptMs.toNat + waitSum (t.poll maxLen timeoutMs acceptMs reads).calls ≤
        timeoutMs.toNat + 50 * readCount (t.poll maxLen timeoutMs acceptMs reads).calls := by
  unfold RxTable.poll
  split
  · simpa [waitSum, readCount] using h
  · obtain ⟨hw, hr⟩ := waits_scan maxLen
      (readTimeoutMs timeoutMs acceptMs (UInt32.ofNat t.live)) reads
      (t.tick.toNat % rxConnTableSize) t (List.range rxConnTableSize)
    replace hr := hr.trans (usedSteps_le_live t _)
    have hrt := readTimeoutMs_toNat (UInt32.ofNat t.live) h
    rw [toNat_live] at hrt
    have hsplit : ∀ calls, waitSum (.split timeoutMs acceptMs (UInt32.ofNat t.live) :: calls) =
        waitSum calls ∧
        readCount (.split timeoutMs acceptMs (UInt32.ofNat t.live) :: calls) = readCount calls := by
      intro calls
      simp [waitSum, readCount, RxCall.waitMs, RxCall.isRead]
    simp only [hsplit, hw, hrt]
    refine ⟨?_, reads_le h hr⟩
    rw [Nat.mul_comm]
    exact Nat.mul_le_mul_left _ (Nat.le_max_left _ _)

/-- The loop computes no read timeout. -/
theorem split_notMem_scan (maxLen : Nat) (rt : UInt32) (reads : Fin rxConnTableSize → SfpRecv)
    (start : Nat) (t : RxTable) (ns : List Nat) (a b n : UInt32) :
    .split a b n ∉ (t.scan maxLen rt reads start ns).calls := by
  induction ns generalizing t with
  | nil => simp [scan]
  | cons k ns ih =>
    have he : .split a b n ∉ (recvFromEntry maxLen (t.entries (slotAt start k)) rt
        (reads (slotAt start k))).2 := by
      unfold recvFromEntry
      cases (t.entries (slotAt start k)).conn with
      | none => simp
      | some c => simp only; split <;> simp
    simp only [scan]
    split
    · exact ih t
    · rcases hr : recvFromEntry maxLen (t.entries (slotAt start k)) rt (reads (slotAt start k)) with
        ⟨res, calls⟩
      rw [hr] at he
      cases res with
      | ok data => exact he
      | error err =>
        simp only
        split
        · simp [he, ih t]
        · simp [he, ih (t.drop (slotAt start k))]

/-- Where the call computes its read timeout, the accept timeout is within the whole and the count
is positive. -/
theorem split_poll (maxLen : Nat) {timeoutMs acceptMs : UInt32}
    (h : acceptMs.toNat ≤ timeoutMs.toNat) (reads : Fin rxConnTableSize → SfpRecv) (t : RxTable)
    {a b n : UInt32} (hm : .split a b n ∈ (t.poll maxLen timeoutMs acceptMs reads).calls) :
    b ≤ a ∧ n ≠ 0 := by
  unfold RxTable.poll at hm
  split at hm
  · cases hm
  · rename_i hlive
    rcases List.mem_cons.mp hm with hm | hm
    · cases hm
      refine ⟨UInt32.le_iff_toNat_le.mpr h, fun h0 => hlive ?_⟩
      have := congrArg UInt32.toNat h0
      rwa [toNat_live] at this
    · exact absurd hm (split_notMem_scan _ _ _ _ _ _ _ _ _)

theorem callerTimeoutMs_spec (timeoutMs : UInt32) :
    callerTimeoutMs timeoutMs ≠ 0 ∧ (callerTimeoutMs timeoutMs = 1 ↔ timeoutMs = 1) := by
  unfold callerTimeoutMs
  split
  · subst_vars
    decide
  · exact ⟨‹_›, Iff.rfl⟩

/-- The waits of `cspcl_recv_bundle`: unless it calls `csp_accept` with the second that stands for
half of 1 ms, they are within what the caller asked for and 50 ms for each read. Its computations
do not underflow and do not divide by zero. -/
theorem recv_budget_iff (g : Globals) (c : Instance) (maxLen : Nat) (timeoutMs : UInt32)
    (env : RecvEnv) :
    (waitSum (recvBundle g c maxLen timeoutMs env).calls ≤
        (callerTimeoutMs timeoutMs).toNat +
          50 * readCount (recvBundle g c maxLen timeoutMs env).calls ↔
      ¬ (timeoutMs = 1 ∧ c.initialized = true ∧ socketOpens g c env.rx = true ∧
        ∃ i, (c.rx.entries i).used = true)) ∧
    ∀ a b n, .split a b n ∈ (recvBundle g c maxLen timeoutMs env).calls → b ≤ a ∧ n ≠ 0 := by
  by_cases hi : c.initialized = true
  swap
  · unfold recvBundle
    simp [hi, waitSum, readCount]
  obtain ⟨hne, hone⟩ := callerTimeoutMs_spec timeoutMs
  obtain ⟨hle, hzero⟩ := acceptTimeoutMs_spec hne c.rx.live
  rw [hone, live_pos] at hzero
  obtain ⟨-, -, stack, ⟨hno, -, -, hcalls⟩ | ⟨hopen, r, hr, -, -, hcalls⟩⟩ :=
    recvBundle_cases g hi maxLen timeoutMs env
  · -- No socket: nothing is waited for.
    rw [hcalls]
    refine ⟨by simp [hno], fun a b n hm => ?_⟩
    simp at hm
  · generalize callerTimeoutMs timeoutMs = T at *
    generalize acceptTimeoutMs T c.rx.live = A at *
    obtain ⟨hmin, hmax⟩ := waits_poll maxLen hle env.reads (c.rx.withAccepted env.accept).1
    have hsum : waitSum (recvBundle g c maxLen timeoutMs env).calls =
        (realAcceptMs A).toNat + waitSum r.calls := by
      rw [hcalls, waitSum_append, waitSum_stack, Nat.zero_add]
      show _ + waitSum _ = _
      rw [waitSum_append, waitSum_close, Nat.zero_add]
      rfl
    have hcount : readCount (recvBundle g c maxLen timeoutMs env).calls = readCount r.calls := by
      rw [hcalls, readCount_append, readCount_stack, Nat.zero_add]
      show readCount (_ ++ _) = _
      rw [readCount_append, readCount_close, Nat.zero_add]
    rw [← hr] at hmin hmax
    constructor
    · have hA : A = 0 ↔ timeoutMs = 1 ∧ c.initialized = true ∧ socketOpens g c env.rx = true ∧
          ∃ i, (c.rx.entries i).used = true := by
        rw [hzero]
        simp [hi, hopen]
      rw [← hA, hsum, hcount]
      by_cases h0 : A = 0
      · -- The whole is 1 ms, and `csp_accept` gets 1000.
        have hT : T.toNat = 1 := by
          rw [hone.mpr (hzero.mp h0).1]
          rfl
        have hms : (realAcceptMs A).toNat = 1000 := by
          rw [h0]
          rfl
        rw [hms, hT]
        simp only [h0, not_true, iff_false]
        omega
      · have hms : realAcceptMs A = A := by
          have hpos : 0 < A := by
            rw [UInt32.lt_iff_toNat_lt]
            exact Nat.pos_of_ne_zero fun h => h0 (UInt32.toNat_inj.mp h)
          exact if_pos hpos
        rw [hms]
        simp only [h0, not_false_eq_true, iff_true]
        exact hmax
    · intro a b n hm
      rw [hcalls, hr] at hm
      rcases List.mem_append.mp hm with hm | hm
      · simp at hm
      rcases List.mem_cons.mp hm with hm | hm
      · cases hm
      rcases List.mem_append.mp hm with hm | hm
      · simp at hm
      · exact split_poll maxLen hle env.reads _ hm

/-- An environment in which nothing comes in. -/
def idleEnv : RecvEnv := ⟨⟨none, 0, 0⟩, none, fun _ => .fail cspErrTimedout⟩

/-- A new instance that accepted one connection. -/
def oneLive : RecvResult :=
  let r := Instance.init false Globals.zero (Instance.new ⟨1, 10, .loopback, [], []⟩) goodEnv
  recvBundle r.1 r.2.1 rxBufferSize 0 { idleEnv with accept := some (0, 5, 10) }

/-- With one live connection, a call with a timeout of 1 ms waits for a second and 50 ms. -/
theorem recv_budget_one_ms :
    waitSum (recvBundle oneLive.globals oneLive.inst rxBufferSize 1 idleEnv).calls = 1050 ∧
      readCount (recvBundle oneLive.globals oneLive.inst rxBufferSize 1 idleEnv).calls = 1 ∧
      ¬ waitSum (recvBundle oneLive.globals oneLive.inst rxBufferSize 1 idleEnv).calls ≤
        (callerTimeoutMs 1).toNat +
          50 * readCount
            (recvBundle oneLive.globals oneLive.inst rxBufferSize 1 idleEnv).calls := by
  have hw :
      waitSum (recvBundle oneLive.globals oneLive.inst rxBufferSize 1 idleEnv).calls = 1050 := by
    decide +kernel
  have hr :
      readCount (recvBundle oneLive.globals oneLive.inst rxBufferSize 1 idleEnv).calls = 1 := by
    decide +kernel
  rw [hw, hr]
  exact ⟨rfl, rfl, by decide⟩

end Cspcl
