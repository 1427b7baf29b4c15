import Cspcl.Delivery.World
import Cspcl.Pool.Owner

/-!
# What the senders keep

Three invariants of the sending sides, and the functions that keep them:

* `PoolsInv`: no connection is in two pools.
* `CallsInv`: a thread past its lock holds the mutex of its instance, and a call makes each of its
  two passes at most once.
* `ConnsInv`: the connection of the attempt under way is the one that serves its destination, and
  of the attempts on a pooled connection, all but the one under way had their ack read
  (`settled`).

`ack_own` is what they are for: the packet that an attempt reads is no late ack.
-/

namespace Cspcl

open Ledger

namespace SendPc

/-- The call that the thread is in. -/
def call : SendPc → Option SendCall
  | .idle => none
  | .locking k | .getting k _ _ | .unlocking k _ _ => some k
  | .sending _ x _ | .waiting _ x | .failed _ x _ => some x.call

/-- The call, if it has taken the mutex. -/
def holding : SendPc → Option SendCall
  | .idle | .locking _ => none
  | .getting k _ _ | .unlocking k _ _ => some k
  | .sending _ x _ | .waiting _ x | .failed _ x _ => some x.call

/-- The attempt under way. -/
def current : SendPc → Option (Nat × Attempt)
  | .idle | .locking _ | .getting _ _ _ | .unlocking _ _ _ => none
  | .sending a x _ | .waiting a x | .failed a x _ => some (a, x)

/-- How many passes of the loop the call has begun, at most. -/
def passes : SendPc → Nat
  | .idle | .locking _ => 0
  | .getting _ n _ => n
  | .sending _ x _ | .waiting _ x | .failed _ x _ => x.n + 1
  | .unlocking _ _ _ => 2

theorem call_of_holding {pc : SendPc} {k : SendCall} (h : pc.holding = some k) :
    pc.call = some k := by
  cases pc with
  | idle | locking k => cases h
  | _ => exact h

theorem holding_of_current {pc : SendPc} {a : Nat} {x : Attempt} (h : pc.current = some (a, x)) :
    pc.holding = some x.call := by
  cases pc <;> cases h <;> rfl

end SendPc

namespace ConnPool

variable {p : ConnPool} {t : List (Act Conn)} {addr port : UInt8} {c d : Conn}

/-- The connection is in the first entry of the destination. -/
def Serves (p : ConnPool) (addr port : UInt8) (c : Conn) : Prop :=
  ∃ i, p.findDest addr port = some i ∧ (p.entries i).conn = some c

theorem Serves.has (h : p.Serves addr port c) : p.Has c := by
  obtain ⟨i, -, hi⟩ := h
  exact ⟨i, hi⟩

theorem Owns.incoming_of_has (h : p.Owns t) (hc : p.Has c) : c ∈ incoming t :=
  h.ok.nodup_live.2 c ((h.live c).mpr hc)

/-- `cspcl_pool_invalidate_locked` drops the connection that serves the destination. -/
theorem Owns.has_of_invalidateLocked (h : p.Owns t) (hs : p.Serves addr port c)
    (hd : (p.invalidateLocked addr port).1.Has d) : p.Has d ∧ d ≠ c := by
  obtain ⟨i, hf, hi⟩ := hs
  obtain ⟨j, hj⟩ := hd
  have he : (p.invalidateLocked addr port).1.entries = (p.clear i).entries := by
    unfold ConnPool.invalidateLocked
    rw [hf]
    rfl
  rw [he, entries_clear] at hj
  split at hj
  · cases hj
  · rename_i hji
    refine ⟨⟨j, hj⟩, ?_⟩
    intro hdc
    exact hji (h.inj j i c (hdc ▸ hj) hi)

theorem incoming_invalidateLocked : incoming (acts (p.invalidateLocked addr port).2) = [] := by
  unfold invalidateLocked
  split
  · exact incoming_closeCalls
  · rfl

end ConnPool

/-- The list of attempts only grows. -/
theorem getElem?_concat {α : Type} {l : List α} {a : Nat} {x y : α} (h : l[a]? = some x) :
    (l ++ [y])[a]? = some x := by
  obtain ⟨ha, -⟩ := List.getElem?_eq_some_iff.mp h
  rwa [List.getElem?_append_left ha]

namespace Tx

variable {s s' : Tx} {t u i : Nat} {a b : Nat} {x y : Attempt} {k : SendCall} {c : Conn}
  {pc : SendPc}

theorem send_goto : (s.goto t pc).send u = if u = t then pc else s.send u := by
  simp [goto, Function.update_apply]

theorem send_finish {err : CspclError} {ack : Option AckRead} :
    (s.finish t k err ack).send u = if u = t then .idle else s.send u := send_goto

/-! ## The pools -/

/-- Each pool owns its connections, and no two pools own the same. -/
structure PoolsInv (s : Tx) : Prop where
  owns : ∀ i, (s.pool i).Owns (acts (s.calls i))
  known : ∀ i, ∀ c ∈ incoming (acts (s.calls i)), c < s.next
  apart : ∀ i j c, c ∈ incoming (acts (s.calls i)) → c ∈ incoming (acts (s.calls j)) → i = j

theorem PoolsInv.lt_of_has (h : s.PoolsInv) (hc : (s.pool i).Has c) : c < s.next :=
  h.known i c ((h.owns i).incoming_of_has hc)

theorem PoolsInv.eq_of_has {j : Nat} (h : s.PoolsInv) (hi : (s.pool i).Has c)
    (hj : (s.pool j).Has c) : i = j :=
  h.apart i j c ((h.owns i).incoming_of_has hi) ((h.owns j).incoming_of_has hj)

theorem PoolsInv.same (h : s.PoolsInv) (hp : s'.pool = s.pool) (hc : s'.calls = s.calls)
    (hn : s'.next = s.next) : s'.PoolsInv where
  owns := by rw [hp, hc]; exact h.owns
  known := by rw [hc, hn]; exact h.known
  apart := by rw [hc]; exact h.apart

/-- A function of pool `i`, into which at most the next connection comes. -/
theorem PoolsInv.setPool (h : s.PoolsInv) (i : Nat) {p : ConnPool} {calls : List Call}
    (hpool : s'.pool = Function.update s.pool i p)
    (hcalls : s'.calls = Function.update s.calls i (s.calls i ++ calls))
    (hnext : s.next ≤ s'.next) (hown : p.Owns (acts (s.calls i ++ calls)))
    (hin : ∀ c ∈ incoming (acts calls), c = s.next ∧ s.next < s'.next) : s'.PoolsInv := by
  -- The connections of a pool are its old ones, and the next one if it is pool `i`.
  have hcases : ∀ j c, c ∈ incoming (acts (s'.calls j)) →
      c ∈ incoming (acts (s.calls j)) ∨ j = i ∧ c = s.next ∧ s.next < s'.next := by
    intro j c hc
    rw [hcalls, Function.update_apply] at hc
    split at hc
    · rename_i hji
      rw [acts_append, incoming_append, List.mem_append] at hc
      rcases hc with hc | hc
      · exact .inl (hji ▸ hc)
      · exact .inr ⟨hji, hin c hc⟩
    · exact .inl hc
  refine ⟨fun j => ?_, fun j c hc => ?_, fun j l c hj hl => ?_⟩
  · rw [hpool, hcalls, Function.update_apply, Function.update_apply]
    split
    · exact hown
    · exact h.owns j
  · rcases hcases j c hc with hc | ⟨-, rfl, hlt⟩
    · exact lt_of_lt_of_le (h.known j c hc) hnext
    · exact hlt
  · rcases hcases j c hj with hj | ⟨rfl, hcj, -⟩
    · rcases hcases l c hl with hl | ⟨rfl, rfl, -⟩
      · exact h.apart j l c hj hl
      · exact absurd (h.known j _ hj) (lt_irrefl _)
    · rcases hcases l c hl with hl | ⟨rfl, -⟩
      · exact absurd (hcj ▸ h.known l c hl) (lt_irrefl _)
      · rfl

/-! ## The calls -/

/-- The threads, their calls and the attempts of these. -/
structure CallsInv (s : Tx) : Prop where
  /-- Past the lock, a thread holds the mutex of its instance. -/
  holder : ∀ t k, (s.send t).holding = some k → s.holder k.inst = some t
  begun : ∀ t k, (s.send t).call = some k → k.id < s.started ∧ k.bundle.length ≠ 0
  inj : ∀ t u k l, (s.send t).call = some k → (s.send u).call = some l → k.id = l.id → t = u
  passes : ∀ t k, (s.send t).call = some k → ∀ y ∈ s.attempts, y.call.id = k.id →
    y.n < (s.send t).passes
  turn : ∀ t k n ret, s.send t = .getting k n ret → n < 2
  attempts : ∀ y ∈ s.attempts, y.call.id < s.started ∧ y.call.bundle.length ≠ 0 ∧ y.n < 2
  /-- A call makes each pass once. -/
  nodup : (s.attempts.map fun y => (y.call.id, y.n)).Nodup

/-- Thread `t` goes on in its call, or ends it. -/
theorem CallsInv.goOn (h : s.CallsInv) (t : Nat) (hsend : ∀ u, u ≠ t → s'.send u = s.send u)
    (hcall : ∀ k, (s'.send t).call = some k →
      (s.send t).call = some k ∧ (s.send t).passes ≤ (s'.send t).passes)
    (hhold : ∀ u k, (s'.send u).holding = some k → s'.holder k.inst = some u)
    (hturn : ∀ k n ret, s'.send t = .getting k n ret → n < 2) (hst : s'.started = s.started)
    (hat : s'.attempts = s.attempts) : s'.CallsInv := by
  have hold : ∀ u k, (s'.send u).call = some k →
      (s.send u).call = some k ∧ (s.send u).passes ≤ (s'.send u).passes := by
    intro u k hk
    by_cases hut : u = t
    · subst hut
      exact hcall k hk
    · rw [hsend u hut] at hk ⊢
      exact ⟨hk, le_refl _⟩
  refine ⟨hhold, fun u k hk => ?_, fun u v k l hk hl => ?_, fun u k hk y hy hid => ?_,
    fun u k n ret hu => ?_, ?_, ?_⟩
  · rw [hst]
    exact h.begun u k (hold u k hk).1
  · exact h.inj u v k l (hold u k hk).1 (hold v l hl).1
  · rw [hat] at hy
    exact lt_of_lt_of_le (h.passes u k (hold u k hk).1 y hy hid) (hold u k hk).2
  · by_cases hut : u = t
    · exact hturn k n ret (hut ▸ hu)
    · exact h.turn u k n ret (hsend u hut ▸ hu)
  · rw [hat, hst]
    exact h.attempts
  · rw [hat]
    exact h.nodup

/-- The mutexes are as they were. -/
theorem CallsInv.holder_goto (h : s.CallsInv)
    (hk : ∀ k, pc.holding = some k → (s.send t).holding = some k) :
    ∀ u k, ((s.goto t pc).send u).holding = some k → s.holder k.inst = some u := by
  intro u k hu
  rw [send_goto] at hu
  split at hu
  · rename_i hut
    rw [hut]
    exact h.holder t k (hk k hu)
  · exact h.holder u k hu

/-- Thread `t` goes on with the mutex, in a pass it has begun or in the next one. -/
theorem CallsInv.goto (h : s.CallsInv) (hcall : pc.call = (s.send t).call)
    (hhold : pc.holding = (s.send t).holding) (hpass : (s.send t).passes ≤ pc.passes)
    (hturn : ∀ k n ret, pc = .getting k n ret → n < 2) : (s.goto t pc).CallsInv := by
  have hpc : (s.goto t pc).send t = pc := by rw [send_goto, if_pos rfl]
  apply h.goOn t
  · intro u hut
    rw [send_goto, if_neg hut]
  · rw [hpc, hcall]
    exact fun k hk => ⟨hk, hpass⟩
  · exact h.holder_goto fun k hk => hhold ▸ hk
  · rw [hpc]
    exact hturn
  · rfl
  · rfl

/-- The pools and the acks that were read do not matter. -/
theorem CallsInv.same (h : s.CallsInv) (hsend : s'.send = s.send) (hh : s'.holder = s.holder)
    (hst : s'.started = s.started) (hat : s'.attempts = s.attempts) : s'.CallsInv := by
  apply h.goOn 0
  · intro u _
    rw [hsend]
  · rw [hsend]
    exact fun k hk => ⟨hk, le_refl _⟩
  · rw [hsend, hh]
    exact h.holder
  · rw [hsend]
    exact h.turn 0
  · exact hst
  · exact hat

/-- `cspcl_send_bundle` returns: without the mutex, or giving it back. -/
theorem CallsInv.finish {h' : Nat → Option Nat} {err : CspclError} {ack : Option AckRead}
    (h : s.CallsInv) (k : SendCall)
    (hh : ∀ u l, u ≠ t → (s.send u).holding = some l → h' l.inst = s.holder l.inst) :
    (Tx.finish { s with holder := h' } t k err ack).CallsInv := by
  apply h.goOn t
  · intro u hut
    rw [send_finish, if_neg hut]
  · intro l hl
    rw [send_finish, if_pos rfl] at hl
    cases hl
  · intro u l hl
    rw [send_finish] at hl
    split at hl
    · cases hl
    · rename_i hut
      exact (hh u l hut hl).trans (h.holder u l hl)
  · intro l n ret hl
    rw [send_finish, if_pos rfl] at hl
    cases hl
  · rfl
  · rfl

/-- A new call, refused or not. -/
theorem CallsInv.begin (h : s.CallsInv) (initialized : Bool) (hid : k.id = s.started) :
    (s.begin initialized t k).CallsInv := by
  -- Counting the call changes nothing for the others.
  have hcount : CallsInv { s with started := s.started + 1 } :=
    { h with
      begun := fun u l hl => ⟨Nat.lt_succ_of_lt (h.begun u l hl).1, (h.begun u l hl).2⟩
      attempts := fun y hy => ⟨Nat.lt_succ_of_lt (h.attempts y hy).1, (h.attempts y hy).2⟩ }
  unfold Tx.begin
  dsimp only
  split
  · exact hcount.finish k fun _ _ _ _ => rfl
  rename_i hr
  have hne : k.bundle.length ≠ 0 := by
    intro h0
    simp [refuse, h0] at hr
  -- No call has the new number.
  have hnew : ∀ u l, (s.send u).call = some l → l.id ≠ k.id := by
    intro u l hl he
    have := (h.begun u l hl).1
    omega
  have hcases : ∀ u l, ((Tx.goto { s with started := s.started + 1 } t (.locking k)).send u).call =
      some l → u = t ∧ l = k ∨ u ≠ t ∧ (s.send u).call = some l := by
    intro u l hl
    rw [send_goto] at hl
    split at hl
    · exact .inl ⟨‹_›, (Option.some.inj hl).symm⟩
    · exact .inr ⟨‹_›, hl⟩
  refine ⟨?_, fun u l hl => ?_, fun u v l m hl hm he => ?_, fun u l hl y hy hy' => ?_,
    fun u l n ret hu => ?_, hcount.attempts, h.nodup⟩
  · apply hcount.holder_goto
    intro l hl
    cases hl
  · rcases hcases u l hl with ⟨-, rfl⟩ | ⟨-, hl⟩
    · exact ⟨by show l.id < s.started + 1; omega, hne⟩
    · exact hcount.begun u l hl
  · rcases hcases u l hl with ⟨hu, rfl⟩ | ⟨-, hl'⟩
    · rcases hcases v m hm with ⟨hv, -⟩ | ⟨-, hm'⟩
      · rw [hu, hv]
      · exact absurd he.symm (hnew v m hm')
    · rcases hcases v m hm with ⟨-, rfl⟩ | ⟨-, hm'⟩
      · exact absurd he (hnew u l hl')
      · exact h.inj u v l m hl' hm' he
  · rcases hcases u l hl with ⟨-, rfl⟩ | ⟨hut, hl⟩
    · have := (h.attempts y hy).1
      omega
    · rw [send_goto, if_neg hut]
      exact h.passes u l hl y hy hy'
  · rw [send_goto] at hu
    split at hu
    · cases hu
    · exact h.turn u l n ret hu

/-- The mutex is taken. -/
theorem CallsInv.lock (h : s.CallsInv) (hpc : s.send t = .locking k)
    (hfree : s.holder k.inst = none) :
    ((s.setHolder k.inst (some t)).goto t (.getting k 0 cspErrTimedout)).CallsInv := by
  have hself : ((s.setHolder k.inst (some t)).goto t (.getting k 0 cspErrTimedout)).send t =
      .getting k 0 cspErrTimedout := by rw [send_goto, if_pos rfl]
  apply h.goOn t
  · intro u hut
    rw [send_goto, if_neg hut]
    rfl
  · rw [hself, hpc]
    exact fun l hl => ⟨hl, le_refl _⟩
  · intro u l hl
    show Function.update s.holder k.inst (some t) l.inst = some u
    rw [send_goto] at hl
    rw [Function.update_apply]
    split at hl
    · cases hl
      rw [if_pos rfl, ‹u = t›]
    · -- Another holder has another mutex: this one was free.
      have hu := h.holder u l hl
      rw [if_neg, hu]
      intro he
      rw [he, hfree] at hu
      cases hu
  · rw [hself]
    rintro l n ret he
    cases he
    decide
  · rfl
  · rfl

/-- A new attempt of the pass that thread `t` is in. -/
theorem CallsInv.attempt {n : Nat} {ret : CspErr} (h : s.CallsInv)
    (hpc : s.send t = .getting k n ret) :
    CallsInv { s.goto t (.sending s.attempts.length ⟨k, n, c⟩ 0) with
      attempts := s.attempts ++ [⟨k, n, c⟩] } := by
  have hk : (s.send t).call = some k := by rw [hpc]; rfl
  have hn := h.turn t k n ret hpc
  have hcases : ∀ y ∈ s.attempts ++ [⟨k, n, c⟩], y ∈ s.attempts ∨ y = ⟨k, n, c⟩ := by
    intro y hy
    exact (List.mem_append.mp hy).imp_right List.mem_singleton.mp
  have hcall : ∀ u l, ((s.goto t (.sending s.attempts.length ⟨k, n, c⟩ 0)).send u).call = some l →
      (s.send u).call = some l := by
    intro u l hl
    rw [send_goto] at hl
    split at hl
    · rename_i hut
      rw [hut, hk]
      exact hl
    · exact hl
  refine ⟨?_, fun u l hl => h.begun u l (hcall u l hl), fun u v l m hl hm =>
    h.inj u v l m (hcall u l hl) (hcall v m hm), fun u l hl y hy hid => ?_, fun u l m ret hu => ?_,
    fun y hy => ?_, ?_⟩
  · apply h.holder_goto
    intro l hl
    rw [hpc]
    exact hl
  · show y.n < ((s.goto t (.sending s.attempts.length ⟨k, n, c⟩ 0)).send u).passes
    have hl' := hcall u l hl
    rw [send_goto]
    rcases hcases y hy with hy | rfl
    · have hlt := h.passes u l hl' y hy hid
      split
      · rename_i hut
        subst hut
        rw [hpc] at hlt
        show y.n < n + 1
        exact Nat.lt_succ_of_lt hlt
      · exact hlt
    · -- The new attempt is of the call of `t`.
      have hut : u = t := h.inj u t l k hl' hk hid.symm
      rw [if_pos hut]
      exact Nat.lt_succ_self n
  · rw [send_goto] at hu
    split at hu
    · cases hu
    · exact h.turn u l m ret hu
  · rcases hcases y hy with hy | rfl
    · exact h.attempts y hy
    · obtain ⟨h1, h2⟩ := h.begun t k hk
      exact ⟨h1, h2, hn⟩
  · rw [List.map_append, List.map_singleton]
    refine List.nodup_append.mpr ⟨h.nodup, List.nodup_singleton _, ?_⟩
    intro p hp q hq hpq
    rw [List.mem_singleton.mp hq] at hpq
    obtain ⟨y, hy, rfl⟩ := List.mem_map.mp hp
    simp only [Prod.mk.injEq] at hpq
    have hlt := h.passes t k hk y hy hpq.1
    rw [hpc] at hlt
    have : y.n < n := hlt
    omega

/-! ## The connections -/

/-- The attempt under way is on the connection that serves its destination. An attempt on a pooled
connection had its ack read, or is the one under way. -/
structure ConnsInv (s : Tx) : Prop where
  current : ∀ t a x, (s.send t).current = some (a, x) →
    s.attempts[a]? = some x ∧ (s.pool x.call.inst).Serves x.call.addr x.call.port x.conn
  lt : ∀ y ∈ s.attempts, y.conn < s.next
  settled : ∀ i c a y, (s.pool i).Has c → s.attempts[a]? = some y → y.conn = c →
    a ∈ s.taken ∨ ∃ t, (s.send t).current = some (a, y)

/-- Nothing but the place of a thread in its attempt, if it is in one, changes. -/
theorem ConnsInv.same (h : s.ConnsInv) (hs : ∀ u, (s'.send u).current = (s.send u).current)
    (hp : s'.pool = s.pool) (hat : s'.attempts = s.attempts) (htk : s'.taken = s.taken)
    (hn : s'.next = s.next) : s'.ConnsInv where
  current u a x hu := by
    rw [hat, hp]
    exact h.current u a x (hs u ▸ hu)
  lt := by rw [hat, hn]; exact h.lt
  settled i c a y := by
    simp only [hp, hat, htk, hs]
    exact h.settled i c a y

theorem ConnsInv.goto (h : s.ConnsInv) (hc : pc.current = (s.send t).current) :
    (s.goto t pc).ConnsInv := by
  apply h.same
  · intro u
    rw [send_goto]
    split
    · rw [hc, ‹u = t›]
    · rfl
  all_goals rfl

/-- Two threads past their lock have different pools. -/
theorem inst_ne {l : SendCall} (hc : s.CallsInv) (hut : u ≠ t) (hu : (s.send u).holding = some l)
    (ht : (s.send t).holding = some k) : l.inst ≠ k.inst := by
  intro he
  have h₁ := hc.holder u l hu
  have h₂ := hc.holder t k ht
  rw [he, h₂] at h₁
  exact hut (Option.some.inj h₁).symm

/-- The thread with the mutex changes its pool, and leaves its attempt. -/
theorem ConnsInv.leave {p : ConnPool} (h : s.ConnsInv) (hc : s.CallsInv) (t : Nat)
    (hk : (s.send t).holding = some k) (hsend : s'.send = Function.update s.send t pc)
    (hpc : pc.current = none) (hpool : s'.pool = Function.update s.pool k.inst p)
    (hat : s'.attempts = s.attempts) (hn : s.next ≤ s'.next) (htk : ∀ b ∈ s.taken, b ∈ s'.taken)
    (hhas : ∀ i d a y, (s'.pool i).Has d → s.attempts[a]? = some y → y.conn = d →
      (s.pool i).Has d ∧ ((s.send t).current = some (a, y) → a ∈ s'.taken)) :
    s'.ConnsInv where
  current u a x hu := by
    rw [hsend, Function.update_apply] at hu
    split at hu
    · rw [hpc] at hu
      cases hu
    · rename_i hut
      obtain ⟨h₁, h₂⟩ := h.current u a x hu
      have hne := inst_ne hc hut (SendPc.holding_of_current hu) hk
      rw [hat, hpool, Function.update_of_ne hne]
      exact ⟨h₁, h₂⟩
  lt y hy := by
    rw [hat] at hy
    exact lt_of_lt_of_le (h.lt y hy) hn
  settled i d a y hd hy hyd := by
    rw [hat] at hy
    obtain ⟨hold, hcur⟩ := hhas i d a y hd hy hyd
    rcases h.settled i d a y hold hy hyd with ha | ⟨u, hu⟩
    · exact .inl (htk a ha)
    · by_cases hut : u = t
      · exact .inl (hcur (hut ▸ hu))
      · refine .inr ⟨u, ?_⟩
        rw [hsend, Function.update_of_ne hut]
        exact hu

/-- A new attempt, on the connection that serves its destination. -/
theorem ConnsInv.attempt {n : Nat} (h : s.ConnsInv) (hpc : (s.send t).current = none)
    (hserves : (s.pool k.inst).Serves k.addr k.port c) (hlt : c < s.next) :
    ConnsInv { s.goto t (.sending s.attempts.length ⟨k, n, c⟩ 0) with
      attempts := s.attempts ++ [⟨k, n, c⟩] } where
  current u a x hu := by
    rw [send_goto] at hu
    split at hu
    · cases hu
      exact ⟨List.getElem?_concat_length, hserves⟩
    · obtain ⟨h₁, h₂⟩ := h.current u a x hu
      exact ⟨getElem?_concat h₁, h₂⟩
  lt y hy := by
    rcases List.mem_append.mp hy with hy | hy
    · exact h.lt y hy
    · rw [List.mem_singleton.mp hy]
      exact hlt
  settled i d a y hd hy hyd := by
    by_cases ha : a < s.attempts.length
    · have hy' : s.attempts[a]? = some y := by
        rwa [List.getElem?_append_left ha] at hy
      refine (h.settled i d a y hd hy' hyd).imp_right ?_
      rintro ⟨u, hu⟩
      refine ⟨u, ?_⟩
      rw [send_goto, if_neg]
      · exact hu
      · rintro rfl
        rw [hpc] at hu
        cases hu
    · obtain ⟨hlen, -⟩ := List.getElem?_eq_some_iff.mp hy
      rw [List.length_append, List.length_singleton] at hlen
      obtain rfl : a = s.attempts.length := by omega
      obtain rfl : ⟨k, n, c⟩ = y := by simpa using hy
      refine .inr ⟨t, ?_⟩
      rw [send_goto, if_pos rfl]
      rfl

/-- What the three say together. -/
structure TxInv (s : Tx) : Prop where
  pools : s.PoolsInv
  calls : s.CallsInv
  conns : s.ConnsInv

theorem TxInv.pass_lt (h : s.TxInv) (ht : (s.send t).current = some (a, x)) : x.n < 2 :=
  (h.calls.attempts x (List.mem_of_getElem? (h.conns.current t a x ht).1)).2.2

/-- The ack on the connection of the attempt under way, if it was not read before, is its own. -/
theorem TxInv.ack_own (h : s.TxInv) (ht : (s.send t).current = some (a, x))
    (hb : s.attempts[b]? = some y) (hy : y.conn = x.conn) (hnew : b ∉ s.taken) : b = a := by
  have hhas := (h.conns.current t a x ht).2.has
  obtain ⟨u, hu⟩ := (h.conns.settled _ _ b y hhas hb hy).resolve_left hnew
  -- The thread `u` that it is the current attempt of has the same connection, so the same pool.
  have hhas' := (h.conns.current u b y hu).2.has
  have hinst : y.call.inst = x.call.inst := h.pools.eq_of_has (hy ▸ hhas') hhas
  have hut : u = t := by
    by_contra hut
    exact inst_ne h.calls hut (SendPc.holding_of_current hu) (SendPc.holding_of_current ht) hinst
  rw [hut, ht] at hu
  exact (congrArg Prod.fst (Option.some.inj hu)).symm

/-! ## Each function keeps them -/

/-- A thread that goes from `pc` to `pc'` stays in its call and in its attempt, if it is in one. -/
structure Stays (pc pc' : SendPc) : Prop where
  call : pc'.call = pc.call
  holding : pc'.holding = pc.holding
  current : pc'.current = pc.current
  passes : pc.passes ≤ pc'.passes
  turn : ∀ k n ret, pc' = .getting k n ret → n < 2

theorem TxInv.goto {pc' : SendPc} (h : s.TxInv) (hpc : s.send t = pc) (hs : Stays pc pc') :
    (s.goto t pc').TxInv := by
  subst hpc
  exact ⟨h.pools.same rfl rfl rfl, h.calls.goto hs.call hs.holding hs.passes hs.turn,
    h.conns.goto hs.current⟩

theorem TxInv.finish {h' : Nat → Option Nat} {err : CspclError} {ack : Option AckRead}
    (h : s.TxInv) (k : SendCall) (hcur : (s.send t).current = none)
    (hh : ∀ u l, u ≠ t → (s.send u).holding = some l → h' l.inst = s.holder l.inst) :
    (Tx.finish { s with holder := h' } t k err ack).TxInv where
  pools := h.pools.same rfl rfl rfl
  calls := h.calls.finish k hh
  conns := by
    apply h.conns.same
    · intro u
      rw [send_finish]
      split
      · rw [‹u = t›, hcur]
        rfl
      · rfl
    all_goals rfl

theorem TxInv.begin (h : s.TxInv) (initialized : Bool) (hpc : s.send t = .idle)
    (hid : k.id = s.started) : (s.begin initialized t k).TxInv where
  pools := by
    unfold Tx.begin
    dsimp only
    split <;> exact h.pools.same rfl rfl rfl
  calls := h.calls.begin initialized hid
  conns := by
    have hsend : ∀ pc, pc.current = none → ∀ u,
        (Function.update s.send t pc u).current = (s.send u).current := by
      intro pc hcur u
      rw [Function.update_apply]
      split
      · rw [‹u = t›, hpc, hcur]
        rfl
      · rfl
    unfold Tx.begin
    dsimp only
    split <;> exact h.conns.same (hsend _ rfl) rfl rfl rfl rfl

theorem TxInv.lock (h : s.TxInv) (hpc : s.send t = .locking k) (hfree : s.holder k.inst = none) :
    ((s.setHolder k.inst (some t)).goto t (.getting k 0 cspErrTimedout)).TxInv where
  pools := h.pools.same rfl rfl rfl
  calls := h.calls.lock hpc hfree
  conns := by
    apply ConnsInv.goto (s := s.setHolder k.inst (some t))
    · exact h.conns.same (fun _ => rfl) rfl rfl rfl rfl
    · show _ = (s.send t).current
      rw [hpc]
      rfl

/-- Thread `t` gives the mutex back. -/
theorem TxInv.unlock {err : CspclError} {ack : Option AckRead} (h : s.TxInv)
    (hpc : s.send t = .unlocking k err ack) (ok : Bool) :
    ((if ok then s.setHolder k.inst none else s).finish t k err ack).TxInv := by
  have hcur : (s.send t).current = none := by rw [hpc]; rfl
  cases ok
  · exact h.finish k hcur fun _ _ _ _ => rfl
  · apply h.finish k hcur
    intro u l hut hl
    exact Function.update_of_ne (inst_ne h.calls hut hl (by rw [hpc]; rfl)) ..

/-- Calls of libcsp that only use the connections. -/
theorem TxInv.log (h : s.TxInv) (i : Nat) (calls : List Call)
    (hown : (s.pool i).Owns (acts (s.calls i) ++ acts calls))
    (hin : incoming (acts calls) = []) : (s.setPool i (s.pool i) calls).TxInv where
  pools := by
    have hnew : ∀ c ∈ incoming (acts calls), c = s.next ∧ s.next < s.next := by
      rw [hin]
      exact fun c hc => absurd hc List.not_mem_nil
    exact h.pools.setPool i rfl rfl (le_refl _) (by rwa [acts_append]) hnew
  calls := h.calls.same rfl rfl rfl rfl
  conns := h.conns.same (fun _ => rfl) (Function.update_eq_self ..) rfl rfl rfl

/-- The pool of instance `k.inst` once `cspcl_pool_get_or_create_locked` has run. -/
theorem TxInv.setConnect {n : Nat} {ret : CspErr} (h : s.TxInv) (hpc : s.send t = .getting k n ret)
    (env : ConnPool.GetEnv) (hnew : env.connect = none ∨ env.connect = some s.next) :
    TxInv { s.setPool k.inst ((s.pool k.inst).getOrCreateLocked k.addr k.port env).1
        ((s.pool k.inst).getOrCreateLocked k.addr k.port env).2.2 with
      next := s.next + env.connect.toList.length } := by
  have hown := h.pools.owns k.inst
  have hle : s.next ≤ s.next + env.connect.toList.length := Nat.le_add_right ..
  have hfresh : ∀ c, env.connect = some c → c = s.next ∧
      s.next < s.next + env.connect.toList.length := by
    intro c hc
    rw [hc] at hnew ⊢
    exact ⟨by simpa using hnew, Nat.lt_succ_self _⟩
  refine ⟨?_, h.calls.same rfl rfl rfl rfl, ?_⟩
  · refine h.pools.setPool k.inst rfl rfl hle ?_ ?_
    · rw [acts_append]
      apply hown.getOrCreateLocked
      intro c hc hin
      exact (h.pools.known k.inst c hin).ne (hfresh c hc).1
    · intro c hc
      exact hfresh c (ConnPool.incoming_getOrCreateLocked k.addr k.port env hown.usedConn hc)
  · refine h.conns.leave h.calls t (congrArg SendPc.holding hpc)
      (Function.update_eq_self t s.send).symm (congrArg SendPc.current hpc) rfl rfl hle
      (fun b hb => hb) ?_
    intro i d b y hd hb hyd
    refine ⟨?_, ?_⟩
    · by_cases hi : i = k.inst
      · subst hi
        have hd' : ((s.pool k.inst).getOrCreateLocked k.addr k.port env).1.Has d := by
          rw [← Function.update_self k.inst
            ((s.pool k.inst).getOrCreateLocked k.addr k.port env).1 s.pool]
          exact hd
        -- The new connection has no attempts yet.
        refine (ConnPool.has_of_getOrCreateLocked hown.usedConn hd').resolve_right ?_
        intro hc
        exact (hyd ▸ h.conns.lt y (List.mem_of_getElem? hb)).ne (hfresh d hc).1
      · rw [← Function.update_of_ne hi
          ((s.pool k.inst).getOrCreateLocked k.addr k.port env).1 s.pool]
        exact hd
    · intro hcur
      rw [hpc] at hcur
      cases hcur

theorem TxInv.get {n : Nat} {ret : CspErr} (h : s.TxInv) (hpc : s.send t = .getting k n ret)
    (env : ConnPool.GetEnv) (hnew : env.connect = none ∨ env.connect = some s.next) :
    (s.get t k n ret env).TxInv := by
  have hset := h.setConnect hpc env hnew
  have hserves : ∀ c, ((s.pool k.inst).getOrCreateLocked k.addr k.port env).2.1 = some c →
      ((s.pool k.inst).getOrCreateLocked k.addr k.port env).1.Serves k.addr k.port c :=
    fun _ hc => ConnPool.serves_getOrCreateLocked (h.pools.owns k.inst).usedConn env hc
  unfold Tx.get
  dsimp only
  split
  · exact hset.goto hpc ⟨rfl, rfl, rfl, (h.calls.turn t k n ret hpc).le, nofun⟩
  · rename_i c hc
    have hs : ConnPool.Serves
        (Function.update s.pool k.inst ((s.pool k.inst).getOrCreateLocked k.addr k.port env).1
          k.inst) k.addr k.port c := by
      rw [Function.update_self]
      exact hserves c hc
    exact ⟨hset.pools.same rfl rfl rfl, hset.calls.attempt hpc,
      hset.conns.attempt (congrArg SendPc.current hpc) hs (hset.pools.lt_of_has hs.has)⟩

theorem TxInv.sfpSent (h : s.TxInv) {j : Nat} (hpc : s.send t = .sending a x j) (ret : CspErr) :
    (s.sfpSent t a x ret).TxInv := by
  obtain ⟨-, i, -, hi⟩ := h.conns.current t a x (by rw [hpc]; rfl)
  have hlog := h.log x.call.inst [.sfpSend x.conn x.call.bundle ret]
    ((h.pools.owns x.call.inst).use hi) rfl
  unfold Tx.sfpSent
  split
  · exact hlog.goto hpc ⟨rfl, rfl, rfl, le_refl _, nofun⟩
  · exact hlog.goto hpc ⟨rfl, rfl, rfl, le_refl _, nofun⟩

/-- `csp_read` times out. -/
theorem TxInv.readNone (h : s.TxInv) (hpc : s.send t = .waiting a x) :
    (s.readDone t a x none).TxInv := by
  obtain ⟨-, i, -, hi⟩ := h.conns.current t a x (by rw [hpc]; rfl)
  have hlog := h.log x.call.inst (waitAck x.conn false).2
    ((h.pools.owns x.call.inst).use hi) rfl
  exact hlog.goto hpc ⟨rfl, rfl, rfl, le_refl _, nofun⟩

/-- `csp_read` gives the attempt its own ack. -/
theorem TxInv.readSome (h : s.TxInv) (hpc : s.send t = .waiting a x) :
    (s.readDone t a x (some a)).TxInv := by
  have hcur : (s.send t).current = some (a, x) := by rw [hpc]; rfl
  have hn := h.pass_lt hcur
  obtain ⟨-, i, -, hi⟩ := h.conns.current t a x hcur
  have hlog := h.log x.call.inst (waitAck x.conn true).2
    ((h.pools.owns x.call.inst).use hi) rfl
  refine ⟨hlog.pools.same rfl rfl rfl, ?_, ?_⟩
  · have hgo : (Tx.goto _ t (.unlocking x.call (sendResult (waitAck x.conn true).1)
        (some ⟨a, a⟩))).CallsInv :=
      hlog.calls.goto (congrArg SendPc.call hpc).symm (congrArg SendPc.holding hpc).symm
        ((congrArg SendPc.passes hpc).trans_le hn) nofun
    exact hgo.same rfl rfl rfl rfl
  · refine h.conns.leave h.calls t (congrArg SendPc.holding hpc) rfl rfl rfl rfl (le_refl _)
      (fun b hb => List.mem_append_left _ hb) ?_
    intro j d b y hd _ _
    have hpool : (s.readDone t a x (some a)).pool = s.pool := Function.update_eq_self ..
    rw [hpool] at hd
    refine ⟨hd, ?_⟩
    intro hb
    rw [hcur] at hb
    cases hb
    exact List.mem_append_right _ (List.mem_singleton_self a)

theorem TxInv.invalidate (h : s.TxInv) {ret : CspErr} (hpc : s.send t = .failed a x ret) :
    (s.invalidate t x ret).TxInv := by
  have hcur : (s.send t).current = some (a, x) := by rw [hpc]; rfl
  have hn := h.pass_lt hcur
  obtain ⟨-, hserves⟩ := h.conns.current t a x hcur
  have hown := h.pools.owns x.call.inst
  refine ⟨?_, ?_, ?_⟩
  · refine h.pools.setPool x.call.inst rfl rfl (le_refl _) ?_ ?_
    · rw [acts_append]
      exact hown.invalidateLocked x.call.addr x.call.port
    · rw [ConnPool.incoming_invalidateLocked]
      exact fun c hc => absurd hc List.not_mem_nil
  · apply CallsInv.goto (s := s.setPool x.call.inst _ _) (h.calls.same rfl rfl rfl rfl)
    · show _ = (s.send t).call
      rw [hpc]
      split <;> rfl
    · show _ = (s.send t).holding
      rw [hpc]
      split <;> rfl
    · show (s.send t).passes ≤ _
      rw [hpc]
      split
      · exact le_refl _
      · exact hn
    · intro k n r hk
      split at hk
      · cases hk
        assumption
      · cases hk
  · have hnone : SendPc.current (if x.n + 1 < 2 then .getting x.call (x.n + 1) ret
        else .unlocking x.call (sendResult ret) none) = none := by
      split <;> rfl
    refine h.conns.leave h.calls t (congrArg SendPc.holding hpc) rfl hnone rfl rfl (le_refl _)
      (fun b hb => hb) ?_
    intro i d b y hd hb hyd
    by_cases hi : i = x.call.inst
    · subst hi
      have hd' : ((s.pool x.call.inst).invalidateLocked x.call.addr x.call.port).1.Has d := by
        rw [← Function.update_self x.call.inst
          ((s.pool x.call.inst).invalidateLocked x.call.addr x.call.port).1 s.pool]
        exact hd
      obtain ⟨hd', hne⟩ := hown.has_of_invalidateLocked hserves hd'
      refine ⟨hd', ?_⟩
      intro hbc
      rw [hcur] at hbc
      cases hbc
      exact absurd hyd.symm hne
    · have hd' : (s.pool i).Has d := by
        rw [← Function.update_of_ne hi
          ((s.pool x.call.inst).invalidateLocked x.call.addr x.call.port).1 s.pool]
        exact hd
      refine ⟨hd', ?_⟩
      intro hbc
      rw [hcur] at hbc
      cases hbc
      exact absurd (h.pools.eq_of_has hd' (hyd ▸ hserves.has)) hi

end Tx
end Cspcl
