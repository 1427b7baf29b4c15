import Cspcl.Lib.Ledger
import Cspcl.Lib.Lts
import Cspcl.Pool.Lemmas

/-!
# Who owns the pool's connections

The pool's calls to libcsp are a ledger (`Cspcl.Lib.Ledger`) of its connections: `csp_connect`
acquires one, `cspcl_conn_pool_add` adopts one, `csp_close` releases one, `csp_sfp_send` and
`csp_read` use one. `Owns p t` ties the table to the ledger `t`: the live connections are those in
the table, each in one slot. Every function of the pool keeps it (`Owns.getOrCreateLocked`,
`Owns.sendAttempt`, `Owns.cleanup`, ...). The runs are in `Cspcl.Pool.Runs`.
-/

namespace Cspcl

open Ledger

/-- What a call does to the pool's connections. -/
def Call.act : Call → Act Conn
  | .connect _ _ none => .refuse
  | .connect _ _ (some c) => .acquire c
  | .adopt c => .adopt c
  | .close c => .release c
  | .sfpSend c _ _ => .use c
  | .read c _ => .use c

/-- The ledger of a list of calls. -/
def acts (t : List Call) : List (Act Conn) := t.map Call.act

@[simp] theorem acts_nil : acts [] = [] := rfl

@[simp] theorem acts_cons (a : Call) (t : List Call) : acts (a :: t) = a.act :: acts t := rfl

@[simp] theorem acts_append (t u : List Call) : acts (t ++ u) = acts t ++ acts u :=
  List.map_append ..

namespace ConnPool

/-- The table holds the live connections of the ledger, each in one slot. -/
structure Owns (p : ConnPool) (t : List (Act Conn)) : Prop where
  used_iff : ∀ i, (p.entries i).used = true ↔ (p.entries i).conn ≠ none
  inj : ∀ i j c, (p.entries i).conn = some c → (p.entries j).conn = some c → i = j
  ok : Ok connPoolSize t
  live : ∀ c, c ∈ live t ↔ ∃ i, (p.entries i).conn = some c

variable {p p' : ConnPool} {t : List (Act Conn)} {i : Fin connPoolSize} {addr port : UInt8}
  {c : Conn} {now : Int}

theorem Owns.usedConn (h : p.Owns t) : p.UsedConn := fun i => (h.used_iff i).mp

/-- Only `used` and `conn` matter. -/
theorem Owns.same (h : p.Owns t) (hu : ∀ i, (p'.entries i).used = (p.entries i).used)
    (hc : ∀ i, (p'.entries i).conn = (p.entries i).conn) : p'.Owns t where
  used_iff i := by rw [hu, hc]; exact h.used_iff i
  inj i j c := by rw [hc, hc]; exact h.inj i j c
  ok := h.ok
  live c := by simp only [hc]; exact h.live c

theorem Owns.bump (h : p.Owns t) : p.bump.Owns t := h.same (fun _ => rfl) fun _ => rfl

theorem Owns.countEviction (h : p.Owns t) : p.countEviction.Owns t :=
  h.same (fun _ => rfl) fun _ => rfl

theorem Owns.countInvalidation (h : p.Owns t) : p.countInvalidation.Owns t :=
  h.same (fun _ => rfl) fun _ => rfl

theorem Owns.touch (h : p.Owns t) : (p.touch i).Owns t := by
  refine h.same (fun j => ?_) fun j => ?_ <;> rw [entries_touch] <;> split <;> simp_all

/-- While a slot is empty, fewer connections are live than the table has slots. -/
theorem Owns.live_lt (h : p.Owns t) (hi : (p.entries i).conn = none) :
    (Ledger.live t).length < connPoolSize := by
  have hsub :
      Ledger.live t ⊆ (List.finRange connPoolSize).filterMap fun j => (p.entries j).conn := by
    intro c hc
    obtain ⟨j, hj⟩ := (h.live c).mp hc
    exact List.mem_filterMap.mpr ⟨j, List.mem_finRange j, hj⟩
  have hle := (List.subperm_of_subset h.ok.nodup_live.1 hsub).length_le
  have hlt : ((List.finRange connPoolSize).filterMap fun j => (p.entries j).conn).length <
      (List.finRange connPoolSize).length :=
    List.length_filterMap_lt_length_iff_exists.mpr ⟨i, List.mem_finRange i, hi⟩
  rw [List.length_finRange] at hlt
  omega

/-- Closing slot `i`. -/
theorem Owns.clear (h : p.Owns t) : (p.clear i).Owns (t ++ acts (p.closeCalls i)) := by
  cases hc : (p.entries i).conn with
  | none =>
    have hu : (p.entries i).used = false := by
      rw [← Bool.not_eq_true, h.used_iff]; simp [hc]
    rw [closeCalls, hc, acts_nil, List.append_nil]
    refine h.same (fun j => ?_) fun j => ?_ <;> rw [entries_clear] <;> split <;> simp_all
  | some c =>
    have hcl : acts (p.closeCalls i) = [.release c] := by simp [closeCalls, hc, Call.act]
    have hlive : c ∈ Ledger.live t := (h.live c).mpr ⟨i, hc⟩
    rw [hcl]
    refine ⟨fun j => ?_, fun j k d => ?_, ok_snoc.mpr ⟨h.ok, hlive⟩, fun d => ?_⟩
    · rw [entries_clear]; split
      · simp
      · exact h.used_iff j
    · rw [entries_clear, entries_clear]
      split <;> split <;> intro hj hk
      · cases hj
      · cases hj
      · cases hk
      · exact h.inj j k d hj hk
    · rw [live_snoc, liveStep, h.ok.nodup_live.1.mem_erase_iff, h.live]
      constructor
      · rintro ⟨hne, j, hj⟩
        refine ⟨j, ?_⟩
        rw [entries_clear, if_neg]
        · exact hj
        · rintro rfl; exact hne (Option.some_inj.mp (hj.symm.trans hc))
      · rintro ⟨j, hj⟩
        rw [entries_clear] at hj
        split at hj
        · simp at hj
        · rename_i hne
          exact ⟨fun he => hne (h.inj j i c (he ▸ hj) hc), j, hj⟩

/-- A new connection in an empty slot; `a` is the act that brought it in. -/
theorem Owns.store {a : Act Conn} (addr port : UInt8) (now : Int) (h : p.Owns t)
    (hi : (p.entries i).conn = none) (hin : a = .acquire c ∨ a = .adopt c) (hnew : c ∉ incoming t) :
    (p.store i addr port c now).Owns (t ++ [a]) := by
  have hal : Allowed connPoolSize t a := by
    rcases hin with rfl | rfl
    · exact ⟨hnew, h.live_lt hi⟩
    · exact hnew
  have hst : liveStep (Ledger.live t) a = c :: Ledger.live t := by rcases hin with rfl | rfl <;> rfl
  have hold : ∀ j, (p.entries j).conn ≠ some c := fun j hj =>
    hnew (h.ok.nodup_live.2 c ((h.live c).mpr ⟨j, hj⟩))
  refine ⟨fun j => ?_, fun j k d => ?_, ok_snoc.mpr ⟨h.ok, hal⟩, fun d => ?_⟩
  · rw [entries_store]; split
    · simp
    · exact h.used_iff j
  · rw [entries_store, entries_store]
    split <;> split
    · rintro - -; simp_all
    · rintro hc hk; cases hc; exact absurd hk (hold k)
    · rintro hj hc; cases hc; exact absurd hj (hold j)
    · exact h.inj j k d
  · rw [live_snoc, hst, List.mem_cons, h.live]
    constructor
    · rintro (rfl | ⟨j, hj⟩)
      · exact ⟨i, by rw [entries_store, if_pos rfl]⟩
      · refine ⟨j, ?_⟩
        rw [entries_store, if_neg]
        · exact hj
        · rintro rfl; rw [hi] at hj; cases hj
    · rintro ⟨j, hj⟩
      rw [entries_store] at hj
      split at hj
      · exact .inl (Option.some_inj.mp hj).symm
      · exact .inr ⟨j, hj⟩

/-- A use of a connection of the table. -/
theorem Owns.use (h : p.Owns t) (hc : (p.entries i).conn = some c) : p.Owns (t ++ [.use c]) where
  used_iff := h.used_iff
  inj := h.inj
  ok := ok_snoc.mpr ⟨h.ok, (h.live c).mpr ⟨i, hc⟩⟩
  live d := by rw [live_snoc]; exact h.live d

/-- An unused slot is empty. -/
theorem Owns.conn_of_unused (h : p.Owns t) (hi : (p.entries i).used = false) :
    (p.entries i).conn = none := by
  by_contra hc
  rw [(h.used_iff i).mpr hc] at hi
  cases hi

theorem Owns.firstFree (h : p.Owns t) (hi : p.firstFree = some i) : (p.entries i).conn = none :=
  h.conn_of_unused (firstFree_eq_some.mp hi).1

theorem incoming_closeCalls : incoming (acts (p.closeCalls i)) = [] := by
  unfold closeCalls; split <;> rfl

theorem incoming_findFreeOrEvictLocked :
    incoming (acts p.findFreeOrEvictLocked.2.2) = [] := by
  rcases findFreeOrEvictLocked_cases (p := p) with ⟨i, -, he⟩ | ⟨-, he⟩ <;> rw [he]
  · rfl
  · exact incoming_closeCalls

/-- The slot that `findFreeOrEvictLocked` gives is empty, and the evicted connection is closed. -/
theorem Owns.findFreeOrEvictLocked (h : p.Owns t) :
    p.findFreeOrEvictLocked.1.Owns (t ++ acts p.findFreeOrEvictLocked.2.2) ∧
      (p.findFreeOrEvictLocked.1.entries p.findFreeOrEvictLocked.2.1).conn = none := by
  rcases findFreeOrEvictLocked_cases (p := p) with ⟨i, hi, he⟩ | ⟨-, he⟩
  · rw [he]; simpa using ⟨h, h.firstFree hi⟩
  · rw [he]; exact ⟨h.clear.countEviction, by simp [evictLru, entries_clear]⟩

/-- `csp_connect` for an empty slot. -/
theorem Owns.connectInto {env : GetEnv} (addr port : UInt8) (h : p.Owns t)
    (hi : (p.entries i).conn = none) (hnew : ∀ c, env.connect = some c → c ∉ incoming t) :
    (p.connectInto i addr port env).1.Owns (t ++ acts (p.connectInto i addr port env).2.2) := by
  unfold ConnPool.connectInto
  cases hc : env.connect with
  | none =>
    have hr : p.Owns (t ++ [.refuse]) :=
      ⟨h.used_iff, h.inj, ok_snoc.mpr ⟨h.ok, h.live_lt hi⟩,
        fun d => by rw [live_snoc]; exact h.live d⟩
    exact hr.same (fun _ => rfl) fun _ => rfl
  | some c =>
    have hstore := h.store addr port env.connNow hi (.inl rfl) (hnew c hc)
    exact hstore.same (fun _ => rfl) fun _ => rfl

/-- `cspcl_pool_get_or_create_locked`, whose new connection is not known yet. -/
theorem Owns.getOrCreateLocked {env : GetEnv} (addr port : UInt8) (h : p.Owns t)
    (hnew : ∀ c, env.connect = some c → c ∉ incoming t) :
    (p.getOrCreateLocked addr port env).1.Owns
      (t ++ acts (p.getOrCreateLocked addr port env).2.2) := by
  rcases getOrCreateLocked_cases addr port h.usedConn env with
    ⟨i, c, -, -, -, he⟩ | ⟨i, c, f, r, -, hc, -, hff, rfl, he⟩ | ⟨q, r, -, rfl, rfl, he⟩ <;> rw [he]
  · simpa using h.bump.touch
  · have hcl : acts (p.bump.closeCalls i) = [.release c] := by simp [closeCalls, hc, Call.act]
    have hq : (p.bump.clear i).countInvalidation.Owns (t ++ [.release c]) :=
      (hcl ▸ h.bump.clear).countInvalidation
    have hf : ((p.bump.clear i).countInvalidation.entries f).conn = none :=
      hq.conn_of_unused (firstFree_eq_some.mp hff).1
    have := hq.connectInto addr port hf fun d hd => by
      simpa [incoming, Act.incoming] using hnew d hd
    simpa [Call.act] using this
  · obtain ⟨hq, hs⟩ := h.bump.findFreeOrEvictLocked
    have := hq.connectInto addr port hs fun d hd => by
      rw [incoming_append, incoming_findFreeOrEvictLocked, List.append_nil]; exact hnew d hd
    simpa using this

/-- The only connection that comes in is the new one. -/
theorem incoming_getOrCreateLocked (addr port : UInt8) (env : GetEnv) (hu : p.UsedConn)
    (hc : c ∈ incoming (acts (p.getOrCreateLocked addr port env).2.2)) : env.connect = some c := by
  have hconn : ∀ q i, c ∈ incoming (acts (ConnPool.connectInto q i addr port env).2.2) →
      env.connect = some c := fun q i h => by
    unfold ConnPool.connectInto at h
    cases hd : env.connect <;> simp_all [incoming, Act.incoming, Call.act]
  rcases getOrCreateLocked_cases addr port hu env with
    ⟨i, d, -, -, -, he⟩ | ⟨i, d, f, r, -, -, -, -, rfl, he⟩ | ⟨q, r, -, rfl, rfl, he⟩ <;>
    rw [he] at hc
  · simp [incoming] at hc
  · exact hconn _ f (by simpa [incoming, Act.incoming, Call.act] using hc)
  · rw [acts_append, incoming_append, List.mem_append] at hc
    exact hconn _ _ (hc.resolve_left (by rw [incoming_findFreeOrEvictLocked]; simp))

/-- `cspcl_pool_invalidate_locked`. -/
theorem Owns.invalidateLocked (addr port : UInt8) (h : p.Owns t) :
    (p.invalidateLocked addr port).1.Owns (t ++ acts (p.invalidateLocked addr port).2) := by
  unfold ConnPool.invalidateLocked
  split
  · exact h.clear.countInvalidation
  · simpa using h

theorem Owns.addLocked (addr port : UInt8) (now : Int) (h : p.Owns t) (hnew : c ∉ incoming t) :
    (p.addLocked addr port c now).1.Owns (t ++ acts (p.addLocked addr port c now).2) := by
  obtain ⟨hq, hs⟩ := h.bump.findFreeOrEvictLocked
  have hin : c ∉ incoming (t ++ acts p.bump.findFreeOrEvictLocked.2.2) := by
    rwa [incoming_append, incoming_findFreeOrEvictLocked, List.append_nil]
  unfold ConnPool.addLocked
  simpa [Call.act] using hq.store addr port now hs (.inr rfl) hin

/-- `cspcl_conn_pool_add` of a connection that is not known yet. -/
theorem Owns.add {lock : Bool} (h : p.Owns t) (hnew : c ∉ incoming t) :
    (p.add addr port c lock now).1.Owns (t ++ acts (p.add addr port c lock now).2.2) := by
  unfold ConnPool.add
  split
  · simpa using h
  split
  · simpa using h
  · exact h.addLocked addr port now hnew

/-- Closing the slots `is`, one after the other. -/
theorem Owns.clearAll {is : List (Fin connPoolSize)} (h : p.Owns t) (hn : is.Nodup) :
    (is.foldl ConnPool.clear p).Owns (t ++ acts (is.flatMap p.closeCalls)) ∧
      ∀ j, (is.foldl ConnPool.clear p).entries j =
        if j ∈ is then { p.entries j with used := false, conn := none } else p.entries j := by
  induction is generalizing p t with
  | nil => simpa using h
  | cons i is ih =>
    obtain ⟨hi, hn⟩ := List.nodup_cons.mp hn
    obtain ⟨hown, hent⟩ := ih h.clear hn (p := p.clear i)
    -- The slots still to be closed are as they were.
    have hcl : is.flatMap (p.clear i).closeCalls = is.flatMap p.closeCalls :=
      List.flatMap_congr fun j hj => by
        have hne : j ≠ i := fun e => hi (e ▸ hj)
        simp [closeCalls, entries_clear, hne]
    refine ⟨by simpa [hcl] using hown, fun j => ?_⟩
    rw [List.foldl_cons, hent, entries_clear]
    by_cases hji : j = i
    · subst hji; simp
    · simp [hji]

theorem Owns.cleanupLocked (h : p.Owns t) :
    p.cleanupLocked.1.Owns (t ++ acts p.cleanupLocked.2) := by
  obtain ⟨hown, hent⟩ := h.clearAll (List.nodup_finRange connPoolSize)
  have hcl : p.cleanupLocked.2 = (List.finRange connPoolSize).flatMap p.closeCalls :=
    List.flatMap_congr fun i _ => by
      cases hu : (p.entries i).used
      · simp [closeCalls, h.conn_of_unused hu]
      · simp
  rw [hcl]
  refine hown.same (fun j => ?_) fun j => ?_ <;> rw [hent, if_pos (List.mem_finRange j)] <;> rfl

/-- `cspcl_conn_pool_cleanup`. -/
theorem Owns.cleanup {lock : Bool} (h : p.Owns t) :
    (p.cleanup lock).1.Owns (t ++ acts (p.cleanup lock).2) := by
  unfold ConnPool.cleanup
  split
  · simpa using h
  exact h.cleanupLocked

end ConnPool

open ConnPool

variable {p : ConnPool} {t : List (Act Conn)} {addr port : UInt8} {c : Conn} {bundle : Bundle}

/-- `cspcl_send_and_confirm` uses only the connection it is given. -/
theorem ConnPool.Owns.sendAndConfirm {i : Fin connPoolSize} (bundle : Bundle) (env : SendEnv)
    (h : p.Owns t)
    (hc : (p.entries i).conn = some c) : p.Owns (t ++ acts (sendAndConfirm c bundle env).2) := by
  unfold Cspcl.sendAndConfirm waitAck
  split
  · simpa [Call.act] using h.use hc
  · simpa [Call.act] using (h.use hc).use hc

theorem incoming_sendAndConfirm {env : SendEnv} :
    incoming (acts (sendAndConfirm c bundle env).2) = [] := by
  unfold sendAndConfirm waitAck; split <;> rfl

theorem ConnPool.Owns.sendAttempt {env : SendEnv} (bundle : Bundle) (addr port : UInt8)
    (h : p.Owns t)
    (hnew : ∀ c, env.connect = some c → c ∉ incoming t) :
    (sendAttempt p bundle addr port env).1.Owns
      (t ++ acts (sendAttempt p bundle addr port env).2.2) := by
  have hg := h.getOrCreateLocked addr port hnew
  unfold Cspcl.sendAttempt
  rcases hr : p.getOrCreateLocked addr port env.toGetEnv with ⟨p', r, calls⟩
  rw [hr] at hg
  cases r with
  | none => exact hg
  | some c =>
    obtain ⟨i, -, hi⟩ := serves_getOrCreateLocked h.usedConn env.toGetEnv (c := c) (by rw [hr])
    rw [hr] at hi
    have hs := hg.sendAndConfirm bundle env hi
    simp only
    split
    · simpa using hs
    · simpa using hs.invalidateLocked addr port

theorem incoming_sendAttempt (bundle : Bundle) (addr port : UInt8) (env : SendEnv)
    (hu : p.UsedConn)
    (hc : c ∈ incoming (acts (sendAttempt p bundle addr port env).2.2)) : env.connect = some c := by
  have hg := incoming_getOrCreateLocked addr port env.toGetEnv (c := c) hu
  unfold sendAttempt at hc
  rcases hr : p.getOrCreateLocked addr port env.toGetEnv with ⟨p', r, calls⟩
  rw [hr] at hg hc
  cases r with
  | none => exact hg hc
  | some d =>
    have hinv : incoming (acts (p'.invalidateLocked addr port).2) = [] := by
      unfold invalidateLocked
      split
      · exact incoming_closeCalls
      · rfl
    simp only at hc
    split at hc <;> simp only [acts_append, incoming_append, incoming_sendAndConfirm, hinv,
      List.append_nil] at hc <;> exact hg hc

theorem initialized_sendAttempt (p : ConnPool) (bundle : Bundle) (addr port : UInt8)
    (env : SendEnv) :
    (sendAttempt p bundle addr port env).1.initialized = p.initialized := by
  have hg := initialized_getOrCreateLocked p addr port env.toGetEnv
  unfold sendAttempt
  rcases hr : p.getOrCreateLocked addr port env.toGetEnv with ⟨p', r, calls⟩
  rw [hr] at hg
  cases r with
  | none => exact hg
  | some d => simp only; split <;> simpa using hg

/-- `cspcl_send_bundle` is refused and touches nothing, or it takes the mutex. -/
theorem sendBundle_locked (initialized : Bool) (p : ConnPool) (bundle : Bundle)
    (addr port : UInt8) (lock : Bool) (first retry : SendEnv) :
    (∃ err, sendBundle initialized p bundle addr port lock first retry = (p, err, [])) ∨
      sendBundle initialized p bundle addr port lock first retry =
        sendLocked p bundle addr port first retry := by
  unfold sendBundle
  iterate 5 (split; · exact .inl ⟨_, rfl⟩)
  exact .inr rfl

/-- The two attempts get connections that are not known yet. -/
theorem ConnPool.Owns.sendLocked {first retry : SendEnv} (bundle : Bundle) (addr port : UInt8)
    (h : p.Owns t) (hf : ∀ c, first.connect = some c → c ∉ incoming t)
    (hr : ∀ c, retry.connect = some c → c ∉ incoming t ∧ first.connect ≠ some c) :
    (Cspcl.sendLocked p bundle addr port first retry).1.Owns
      (t ++ acts (Cspcl.sendLocked p bundle addr port first retry).2.2) := by
  have h₁ := h.sendAttempt bundle addr port hf
  have hin := fun c => incoming_sendAttempt bundle addr port first (c := c) h.usedConn
  unfold Cspcl.sendLocked
  rcases he : Cspcl.sendAttempt p bundle addr port first with ⟨p₁, r₁, calls₁⟩
  rw [he] at h₁ hin
  have h₂ := h₁.sendAttempt bundle addr port (fun c (hc : retry.connect = some c) => by
      rw [incoming_append, List.mem_append]
      exact not_or.mpr ⟨(hr c hc).1, fun hi => (hr c hc).2 (hin c hi)⟩)
  rcases he₂ : Cspcl.sendAttempt p₁ bundle addr port retry with ⟨p₂, r₂, calls₂⟩
  rw [he₂] at h₂
  cases r₁ with
  | none => exact h₁
  | some ret =>
    simp only
    split
    · exact h₁
    · rw [he₂]
      cases r₂ <;> simpa using h₂

theorem initialized_sendLocked (p : ConnPool) (bundle : Bundle) (addr port : UInt8)
    (first retry : SendEnv) :
    (sendLocked p bundle addr port first retry).1.initialized = p.initialized := by
  have h₁ := initialized_sendAttempt p bundle addr port first
  unfold sendLocked
  rcases he : sendAttempt p bundle addr port first with ⟨p₁, r₁, calls₁⟩
  rw [he] at h₁
  have h₂ := initialized_sendAttempt p₁ bundle addr port retry
  rcases he₂ : sendAttempt p₁ bundle addr port retry with ⟨p₂, r₂, calls₂⟩
  rw [he₂] at h₂
  cases r₁ with
  | none => exact h₁
  | some ret =>
    simp only
    split
    · exact h₁
    · rw [he₂]
      cases r₂ <;> exact h₂.trans h₁

/-- `cspcl_send_bundle`, whose two attempts get connections that are not known yet. -/
theorem ConnPool.Owns.sendBundle {first retry : SendEnv} (initialized : Bool) (bundle : Bundle)
    (addr port : UInt8) (lock : Bool) (h : p.Owns t)
    (hf : ∀ c, first.connect = some c → c ∉ incoming t)
    (hr : ∀ c, retry.connect = some c → c ∉ incoming t ∧ first.connect ≠ some c) :
    (Cspcl.sendBundle initialized p bundle addr port lock first retry).1.Owns
      (t ++ acts (Cspcl.sendBundle initialized p bundle addr port lock first retry).2.2) := by
  rcases sendBundle_locked initialized p bundle addr port lock first retry with ⟨err, he⟩ | he
  · rw [he]
    simpa using h
  · rw [he]
    exact h.sendLocked bundle addr port hf hr

theorem initialized_sendBundle {initialized lock : Bool} {first retry : SendEnv} :
    (sendBundle initialized p bundle addr port lock first retry).1.initialized =
      p.initialized := by
  rcases sendBundle_locked initialized p bundle addr port lock first retry with ⟨err, he⟩ | he
  · rw [he]
  · rw [he]
    exact initialized_sendLocked p bundle addr port first retry

/-- `cspcl_send_bundle` does nothing on a pool that is not initialized. -/
theorem sendBundle_of_not_initialized {initialized lock : Bool} {first retry : SendEnv}
    (h : p.initialized = false) :
    (sendBundle initialized p bundle addr port lock first retry).1 = p := by
  unfold sendBundle
  simp only [h, Bool.not_false, ↓reduceIte]
  iterate 3 (split; · rfl)
  rfl

end Cspcl
