import Cspcl.Lib.Permits
import Cspcl.Inbound.Kept
import Cspcl.Inbound.ListenerRuns
import Cspcl.Inbound.Grace

/-!
# What listeners receive after a stop

`stopSys` runs the streams (`streamSys`), the table of connections (`listenerSys`) and the loops of
`listen` of all its listeners together, in any order. The accept thread that is in the body of its
loop takes the steps of the table's accept thread. A listener looks at whether receiving is on, and
at its eviction, and starts its read, in separate steps.

`stop_bounds_received`: while receiving is stopped, a listener receives at most the bundle of a read
that it was already going to start, so few bundles come into `pending` from the listeners.
-/

namespace Cspcl.Inbound

/-- `idle_expired`. -/
def idleExpired (lastActiveMs nowMs : Nat) : Bool := inboundIdleTimeoutMs ≤ nowMs - lastActiveMs

/-- Where a listener is in `listen`. -/
inductive ListenPc where
  /-- Its thread was not started. -/
  | out
  /-- In `wait_while_stopped`. -/
  | waiting
  /-- `wait_while_stopped` returned `true`. -/
  | kept
  /-- In `recv_bundle_from_conn`. -/
  | reading
  /-- The read returned a bundle, which its sender has seen acknowledged. -/
  | received (bundle : Bundle)
  | delivering (item : Item Bundle)
  /-- It has left the loop. -/
  | left
  deriving DecidableEq

namespace ListenPc

/-- In the loop. -/
def inLoop : ListenPc → Bool
  | out | left => false
  | _ => true

/-- It can receive a bundle before it looks again at whether receiving is on. -/
def mayReceive : ListenPc → Bool
  | kept | reading => true
  | _ => false

/-- It can pass a bundle to `deliver` before that. -/
def mayDeliver : ListenPc → Bool
  | kept | reading | received _ | delivering (.ok _) => true
  | _ => false

end ListenPc

/-- The streams, the connections with their table, and the listeners; and what they did so far. -/
structure StopWorld where
  w : World
  conns : ListenerWorld
  pc : Nat → ListenPc
  /-- The bundles that the listeners received. -/
  received : List (Nat × Bundle)
  /-- The listeners that passed the bundles to `deliver`. -/
  handedBy : List Nat

/-- A step of a thread; `c`: the listener. -/
inductive StopOp where
  /-- A step of the streams that no listener takes, and no accept thread in its loop's body. -/
  | stream (now : Nat) (op : Op)
  /-- The accept thread `id` ends the body of its loop. -/
  | endBody (id : Nat) (failure : Option Error)
  | panic (id now : Nat)
  /-- A step in the body. -/
  | accept (id : Nat) (op : ListenerOp)
  /-- The thread of the registered listener is started. -/
  | spawned (id : Nat)
  | waitWhileStopped (c now : Nat)
  | isEvicted (c : Nat)
  /-- What the read returned, and whether it was `woken_by_reset`. -/
  | recvBundle (c : Nat) (r : Item Bundle) (reset : Bool) (nowMs : Nat)
  | storeLastActive (c nowMs : Nat)
  | deliver (c : Nat)
  | exit (c : Nat)
  | closeConn (c : Nat)
  | dropGuard (c : Nat)

namespace StopWorld

/-- A new receiver. -/
def new (now : Nat) : StopWorld where
  w := .new now
  conns := .new
  pc _ := .out
  received := []
  handedBy := []

/-- Receiving is stopped. -/
def off (s : StopWorld) : Bool := !s.w.recv.isReceiving

def goto (s : StopWorld) (c : Nat) (p : ListenPc) : StopWorld :=
  { s with pc := Function.update s.pc c p }

/-- A step of the streams. -/
def onStreams (s : StopWorld) (now : Nat) (op : Op) : Option StopWorld :=
  (s.w.step (now, op)).map fun w => { s with w }

/-- A step of the table, or of the accept thread or a listener at it. -/
def onConns (s : StopWorld) (op : ListenerOp) : Option StopWorld :=
  (s.conns.step op).map fun conns => { s with conns }

/-- The steps of the streams that are taken in `stream`. -/
def free : Op → Bool
  | .deliver _ | .iterate .. | .panic _ => false
  | _ => true

/-- The steps of the accept thread before it starts the listener and after that. -/
def inBody : ListenerOp → Bool
  | .waitForSlot | .pollConnection _ | .register _ | .spawnFailed | .supersede => true
  | _ => false

def step (s : StopWorld) : StopOp → Option StopWorld
  | .stream now op => if free op then s.onStreams now op else none
  | .endBody id failure =>
    if s.conns.accept = .top then s.onStreams 0 (.iterate id failure) else none
  | .panic id now => (s.onConns .replaced).bind fun s => s.onStreams now (.panic id)
  | .accept id op => if s.w.thread id = .busy ∧ inBody op then s.onConns op else none
  | .spawned id =>
    match s.conns.accept with
    | .registered c =>
      if s.w.thread id = .busy then (s.onConns .spawned).map fun s => s.goto c .waiting else none
    | _ => none
  | .waitWhileStopped c now =>
    if s.pc c = .waiting then
      match s.w.recv.stoppedTurn now with
      | none => some s
      | some keep => some (s.goto c (if keep then .kept else .left))
    else none
  | .isEvicted c =>
    if s.pc c = .kept then
      some (s.goto c (if (s.conns.table.state c).evicted then .left else .reading))
    else none
  | .recvBundle c r reset nowMs =>
    if s.pc c = .reading then
      match r with
      | .ok bundle =>
        some { s.goto c (.received bundle) with received := s.received ++ [(c, bundle)] }
      | .error .timeout =>
        let idle := idleExpired (s.conns.table.state c).lastActiveMs nowMs
        some (s.goto c (if reset || idle then .left else .waiting))
      | .error e => some (s.goto c (.delivering (.error e)))
    else none
  | .storeLastActive c nowMs =>
    match s.pc c with
    | .received bundle => (s.goto c (.delivering (.ok bundle))).onConns (.received c nowMs)
    | _ => none
  | .deliver c =>
    match s.pc c with
    | .delivering (.ok bundle) =>
      some { s.goto c .waiting with
        w := s.w.deliver (.ok bundle), handedBy := s.handedBy ++ [c] }
    | .delivering (.error e) => some { s.goto c .left with w := s.w.deliver (.error e) }
    | _ => none
  | .exit c => if s.pc c = .left then s.onConns (.exit c) else none
  | .closeConn c => s.onConns (.closeConn c)
  | .dropGuard c => s.onConns (.dropGuard c)

end StopWorld

/-- All interleavings, from a new receiver. -/
def stopSys : Lts StopWorld StopOp where
  init s := ∃ now, s = .new now
  step := StopWorld.step

/-- What the listeners do from `s` to `t`. -/
structure StopBound (s t : StopWorld) : Prop where
  /-- Each listener receives at most one bundle, and only if it was running. -/
  received : ∃ new, t.received = s.received ++ new ∧ (new.map Prod.fst).Nodup ∧
    (∀ e ∈ new, s.conns.phase e.1 = .running) ∧
    new.length ≤ maxInboundConns + maxExtraInboundConns
  /-- The pending bundles that listeners passed to `deliver` since. -/
  pending : (t.w.recv.pending.filter fun d => s.w.delivered.length ≤ d.seq).length ≤
    maxInboundConns + maxExtraInboundConns

/-! ## The streams and the connections -/

/-- Only a bundle that a listener delivers is a new delivery. -/
theorem World.delivered_step {w w' : World} {now : Nat} {op : Op}
    (hs : w.step (now, op) = some w') (hop : ∀ b, op ≠ .deliver (.ok b)) :
    w'.delivered = w.delivered := by
  cases op with
  | deliver item =>
    obtain rfl := Option.some.inj hs
    cases item with
    | ok b => exact absurd rfl (hop b)
    | error e => rfl
  | pollNext id =>
    obtain ⟨-, ⟨item, rest, -, rfl⟩ | ⟨-, rfl⟩⟩ := World.pollNext_cases hs <;> rfl
  | beginClose =>
    obtain rfl := Option.some.inj hs
    rfl
  | iterate id failure =>
    simp only [World.step] at hs
    split at hs
    · split at hs <;> (obtain rfl := Option.some.inj hs; rfl)
    · cases hs
  | subscribe =>
    simp only [World.step] at hs
    split at hs
    · cases hs
    · obtain rfl := Option.some.inj hs
      rfl
  | spawned id | spawnFailed id | acceptFailed id | sendSpawnError id | unsubscribe id
  | closeGuardDrop | decide id | panic id =>
    simp only [World.step] at hs
    split at hs
    · obtain rfl := Option.some.inj hs
      rfl
    · cases hs

/-- A listener runs until it exits. -/
theorem ListenerWorld.running_step {s s' : ListenerWorld} {op : ListenerOp} {c : Nat}
    (hp : PhaseInv s) (hs : s.step op = some s') (hop : op ≠ .exit c)
    (hr : s.phase c = .running) : s'.phase c = .running := by
  obtain ⟨ha, hacc, hreg, hf, -⟩ := hp
  cases op <;> simp only [ListenerWorld.step] at hs
  case pollConnection key =>
    split at hs
    · split at hs <;> cases hs <;> grind
    · cases hs
  case replaced =>
    split at hs <;> first | cases hs; done | cases hs; grind [AcceptPc.accepting]
  all_goals
    split at hs
    · cases hs
      grind [AcceptPc.accepting]
    · cases hs

/-! ## The invariant -/

/-- A listener in its loop runs, and each delivery was made by one. -/
structure StopInv (s : StopWorld) : Prop where
  streams : StreamsInv s.w
  queues : QueuesInv s.w
  kept : KeptInv s.w
  phases : PhaseInv s.conns
  table : TableInv s.conns
  running : ∀ c, (s.pc c).inLoop = true → s.conns.phase c = .running
  handed : s.handedBy.length = s.w.delivered.length

variable {s s' t : StopWorld} {op : StopOp} {c : Nat} {p : ListenPc}

namespace StopInv

theorem onStreams {now : Nat} {sop : Op} (h : StopInv s) (hs : s.onStreams now sop = some s')
    (hop : ∀ b, sop ≠ .deliver (.ok b)) : StopInv s' := by
  obtain ⟨w, hw, rfl⟩ := Option.map_eq_some_iff.mp hs
  exact {
    h with
    streams := h.streams.step hw
    queues := h.queues.step h.streams hw
    kept := h.kept.step h.streams h.queues hw
    handed := h.handed.trans (congrArg _ (World.delivered_step hw hop)).symm }

theorem onConns {cop : ListenerOp} (h : StopInv s) (hs : s.onConns cop = some s')
    (hop : ∀ c, cop = .exit c → (s.pc c).inLoop = false) : StopInv s' := by
  obtain ⟨conns, hc, rfl⟩ := Option.map_eq_some_iff.mp hs
  refine { h with phases := h.phases.step hc, table := h.table.step h.phases hc, running := ?_ }
  intro c hl
  refine ListenerWorld.running_step h.phases hc (fun he => ?_) (h.running c hl)
  rw [hop c he] at hl
  cases hl

/-- A listener moves, and receives something or not. -/
theorem goto (received : List (Nat × Bundle)) (h : StopInv s)
    (hc : p.inLoop = true → s.conns.phase c = .running) :
    StopInv { s.goto c p with received } := by
  refine { h with running := fun i hi => ?_ }
  simp only [StopWorld.goto] at hi
  rcases eq_or_ne i c with rfl | hne
  · exact hc (by simpa using hi)
  · exact h.running i (by simpa [hne] using hi)

/-- A listener delivers an item. -/
theorem deliver {item : Item Bundle} {handedBy : List Nat} (h : StopInv s)
    (hn : handedBy.length = (s.w.deliver item).delivered.length)
    (hc : p.inLoop = true → s.conns.phase c = .running) :
    StopInv { s.goto c p with w := s.w.deliver item, handedBy } := by
  have hw : s.w.step (0, .deliver item) = some (s.w.deliver item) := rfl
  exact {
    h.goto s.received hc with
    streams := h.streams.step hw
    queues := h.queues.step h.streams hw
    kept := h.kept.step h.streams h.queues hw
    handed := hn }

theorem step (h : StopInv s) (hs : s.step op = some s') : StopInv s' := by
  cases op <;> simp only [StopWorld.step] at hs
  case stream now op =>
    split at hs
    · rename_i hf
      refine h.onStreams hs ?_
      rintro b rfl
      cases hf
    · cases hs
  case endBody id failure =>
    split at hs
    · exact h.onStreams hs (by simp)
    · cases hs
  case panic id now =>
    obtain ⟨s₁, h₁, hs⟩ := Option.bind_eq_some_iff.mp hs
    exact (h.onConns h₁ (by simp)).onStreams hs (by simp)
  case accept id cop =>
    split at hs
    · rename_i hb
      refine h.onConns hs ?_
      rintro c rfl
      cases hb.2
    · cases hs
  case spawned id =>
    split at hs
    · rename_i c hacc
      split at hs
      · obtain ⟨s₁, h₁, rfl⟩ := Option.map_eq_some_iff.mp hs
        refine (h.onConns h₁ (by simp)).goto s₁.received fun _ => ?_
        obtain ⟨conns, hc, rfl⟩ := Option.map_eq_some_iff.mp h₁
        simp only [ListenerWorld.step, hacc, Option.some.injEq] at hc
        simp [← hc]
      · cases hs
    · cases hs
  case waitWhileStopped c now =>
    split at hs
    · rename_i hp
      have hr := h.running c (by simp [hp, ListenPc.inLoop])
      split at hs <;> obtain rfl := Option.some.inj hs
      · exact h
      · exact h.goto s.received fun _ => hr
    · cases hs
  case isEvicted c =>
    split at hs
    · rename_i hp
      obtain rfl := Option.some.inj hs
      exact h.goto s.received fun _ => h.running c (by simp [hp, ListenPc.inLoop])
    · cases hs
  case recvBundle c r reset nowMs =>
    split at hs
    · rename_i hp
      have hr := h.running c (by simp [hp, ListenPc.inLoop])
      split at hs <;> obtain rfl := Option.some.inj hs <;> exact h.goto _ fun _ => hr
    · cases hs
  case storeLastActive c nowMs =>
    split at hs
    · rename_i bundle hp
      have hr := h.running c (by simp [hp, ListenPc.inLoop])
      exact (h.goto s.received fun _ => hr).onConns hs (by simp)
    · cases hs
  case deliver c =>
    split at hs
    · rename_i bundle hp
      obtain rfl := Option.some.inj hs
      refine h.deliver ?_ fun _ => h.running c (by simp [hp, ListenPc.inLoop])
      simp [World.deliver, h.handed]
    · obtain rfl := Option.some.inj hs
      exact h.deliver h.handed (by simp [ListenPc.inLoop])
    · cases hs
  case exit c =>
    split at hs
    · rename_i hp
      refine h.onConns hs fun c' he => ?_
      obtain rfl := ListenerOp.exit.inj he
      rw [hp]
      rfl
    · cases hs
  case closeConn c => exact h.onConns hs (by simp)
  case dropGuard c => exact h.onConns hs (by simp)

end StopInv

theorem stopInv_inductive : stopSys.Inductive StopInv where
  init s hs := by
    obtain ⟨now, rfl⟩ := hs
    obtain ⟨⟨hst, hqu⟩, hk⟩ := keptInv_inductive.init (.new now) ⟨now, rfl⟩
    obtain ⟨hp, ht⟩ := tableInv_inductive.init .new rfl
    exact ⟨hst, hqu, hk, hp, ht, by simp [StopWorld.new, ListenPc.inLoop], rfl⟩
  step _ _ _ h hs := h.step hs

/-! ## While receiving is stopped -/

/-- Who may receive or deliver something after the listener `c` moved. -/
theorem of_moved {f : ListenPc → Bool} (hp : s'.pc = Function.update s.pc c p) {i : Nat}
    (hi : f (s'.pc i) = true) : i = c ∧ f p = true ∨ i ≠ c ∧ f (s.pc i) = true := by
  rw [hp] at hi
  rcases eq_or_ne i c with rfl | hne
  · exact .inl ⟨rfl, by simpa using hi⟩
  · exact .inr ⟨hne, by simpa [hne] using hi⟩

/-- No listener gets past `wait_while_stopped`, and nothing is received or delivered. -/
structure StandsStill (s s' : StopWorld) : Prop where
  received : s'.received = s.received
  handedBy : s'.handedBy = s.handedBy
  mayReceive : ∀ c, (s'.pc c).mayReceive = true → (s.pc c).mayReceive = true
  mayDeliver : ∀ c, (s'.pc c).mayDeliver = true → (s.pc c).mayDeliver = true

namespace StandsStill

theorem of_pc (hr : s'.received = s.received) (hh : s'.handedBy = s.handedBy)
    (hp : s'.pc = s.pc) : StandsStill s s' :=
  ⟨hr, hh, fun _ => hp ▸ id, fun _ => hp ▸ id⟩

theorem onStreams {now : Nat} {sop : Op} (hs : s.onStreams now sop = some s') :
    StandsStill s s' := by
  obtain ⟨w, -, rfl⟩ := Option.map_eq_some_iff.mp hs
  exact .of_pc rfl rfl rfl

theorem onConns {cop : ListenerOp} (hs : s.onConns cop = some s') : StandsStill s s' := by
  obtain ⟨conns, -, rfl⟩ := Option.map_eq_some_iff.mp hs
  exact .of_pc rfl rfl rfl

theorem trans (h : StandsStill s s') (h' : StandsStill s' t) : StandsStill s t :=
  ⟨h'.received.trans h.received, h'.handedBy.trans h.handedBy,
    fun c hc => h.mayReceive c (h'.mayReceive c hc),
    fun c hc => h.mayDeliver c (h'.mayDeliver c hc)⟩

theorem goto (w : World) (hr : p.mayReceive = true → (s.pc c).mayReceive = true)
    (hd : p.mayDeliver = true → (s.pc c).mayDeliver = true) :
    StandsStill s { s.goto c p with w } := by
  refine ⟨rfl, rfl, fun i hi => ?_, fun i hi => ?_⟩
  · obtain ⟨rfl, hf⟩ | ⟨-, hi⟩ := of_moved (p := p) rfl hi
    · exact hr hf
    · exact hi
  · obtain ⟨rfl, hf⟩ | ⟨-, hi⟩ := of_moved (p := p) rfl hi
    · exact hd hf
    · exact hi

end StandsStill

/-- What a step does to the listeners while receiving is stopped. -/
theorem StopWorld.step_off (hoff : s.off = true) (hs : s.step op = some s') :
    StandsStill s s' ∨
    (∃ c b, s.pc c = .reading ∧ s'.pc = Function.update s.pc c (.received b) ∧
      s'.received = s.received ++ [(c, b)] ∧ s'.handedBy = s.handedBy) ∨
    ∃ c b, s.pc c = .delivering (.ok b) ∧ s'.pc = Function.update s.pc c .waiting ∧
      s'.received = s.received ∧ s'.handedBy = s.handedBy ++ [c] := by
  cases op <;> simp only [StopWorld.step] at hs
  case stream now op =>
    split at hs
    · exact .inl (.onStreams hs)
    · cases hs
  case endBody id failure =>
    split at hs
    · exact .inl (.onStreams hs)
    · cases hs
  case panic id now =>
    obtain ⟨s₁, h₁, hs⟩ := Option.bind_eq_some_iff.mp hs
    exact .inl ((StandsStill.onConns h₁).trans (.onStreams hs))
  case accept id cop =>
    split at hs
    · exact .inl (.onConns hs)
    · cases hs
  case spawned id =>
    split at hs
    · split at hs
      · obtain ⟨s₁, h₁, rfl⟩ := Option.map_eq_some_iff.mp hs
        exact .inl ((StandsStill.onConns h₁).trans
          (.goto s₁.w (by simp [ListenPc.mayReceive]) (by simp [ListenPc.mayDeliver])))
      · cases hs
    · cases hs
  case waitWhileStopped c now =>
    split at hs
    · split at hs
      · obtain rfl := Option.some.inj hs
        exact .inl (.of_pc rfl rfl rfl)
      · rename_i keep hturn
        obtain rfl := Option.some.inj hs
        -- Receiving is stopped, so it does not return `true`.
        have hkeep : keep = false := by
          cases keep with
          | false => rfl
          | true =>
            have hon := Receiver.stoppedTurn_eq_some.mp hturn
            simp only [if_true] at hon
            simp [StopWorld.off, Receiver.isReceiving, hon] at hoff
        subst hkeep
        exact .inl (.goto s.w (by simp [ListenPc.mayReceive]) (by simp [ListenPc.mayDeliver]))
    · cases hs
  case isEvicted c =>
    split at hs
    · rename_i hp
      obtain rfl := Option.some.inj hs
      exact .inl (.goto s.w (by simp [hp, ListenPc.mayReceive]) (by simp [hp, ListenPc.mayDeliver]))
    · cases hs
  case recvBundle c r reset nowMs =>
    split at hs
    · rename_i hp
      split at hs <;> obtain rfl := Option.some.inj hs
      · rename_i bundle
        exact .inr (.inl ⟨c, bundle, hp, rfl, rfl, rfl⟩)
      · exact .inl (.goto s.w (by simp [hp, ListenPc.mayReceive])
          (by simp [hp, ListenPc.mayDeliver]))
      · exact .inl (.goto s.w (by simp [hp, ListenPc.mayReceive])
          (by simp [hp, ListenPc.mayDeliver]))
    · cases hs
  case storeLastActive c nowMs =>
    split at hs
    · rename_i bundle hp
      have hgo : StandsStill s (s.goto c (.delivering (.ok bundle))) :=
        .goto s.w (by simp [ListenPc.mayReceive]) (by simp [hp, ListenPc.mayDeliver])
      exact .inl (hgo.trans (.onConns hs))
    · cases hs
  case deliver c =>
    split at hs
    · rename_i bundle hp
      obtain rfl := Option.some.inj hs
      exact .inr (.inr ⟨c, bundle, hp, rfl, rfl, rfl⟩)
    · obtain rfl := Option.some.inj hs
      exact .inl (.goto _ (by simp [ListenPc.mayReceive]) (by simp [ListenPc.mayDeliver]))
    · cases hs
  case exit c =>
    split at hs
    · exact .inl (.onConns hs)
    · cases hs
  case closeConn c => exact .inl (.onConns hs)
  case dropGuard c => exact .inl (.onConns hs)

/-- The runs that take no step while receiving is on. -/
def offSys : Lts StopWorld StopOp := stopSys.guard fun s _ => s.off = true

/-- Each bundle that is received uses up a read that was going to start. -/
theorem received_run {l : List StopOp} (hr : offSys.Run s l t) :
    ∃ new, t.received = s.received ++ new ∧
      Spent Prod.fst (fun c => (s.pc c).mayReceive = true) (fun c => (t.pc c).mayReceive = true)
        new := by
  refine hr.spent StopWorld.received (fun s c => (s.pc c).mayReceive = true) fun s op s' hs => ?_
  obtain ⟨hoff, hs⟩ := Lts.guard_step.mp hs
  obtain h | ⟨c, b, hc, hp, hrec, -⟩ | ⟨c, b, -, hp, hrec, -⟩ := StopWorld.step_off hoff hs
  · exact ⟨[], by simp [h.received], .nil h.mayReceive⟩
  · refine ⟨[(c, b)], hrec, .single (by simp [hc, ListenPc.mayReceive]) fun i hi => ?_⟩
    obtain ⟨-, hf⟩ | ⟨hne, hi⟩ := of_moved hp hi
    · cases hf
    · exact ⟨hi, hne⟩
  · refine ⟨[], by simp [hrec], .nil fun i hi => ?_⟩
    obtain ⟨-, hf⟩ | ⟨-, hi⟩ := of_moved hp hi
    · cases hf
    · exact hi

/-- Each bundle that is passed to `deliver` is that of such a read, or was received before. -/
theorem handedBy_run {l : List StopOp} (hr : offSys.Run s l t) :
    ∃ new, t.handedBy = s.handedBy ++ new ∧
      Spent id (fun c => (s.pc c).mayDeliver = true) (fun c => (t.pc c).mayDeliver = true) new := by
  refine hr.spent StopWorld.handedBy (fun s c => (s.pc c).mayDeliver = true) fun s op s' hs => ?_
  obtain ⟨hoff, hs⟩ := Lts.guard_step.mp hs
  obtain h | ⟨c, b, hc, hp, -, hh⟩ | ⟨c, b, hc, hp, -, hh⟩ := StopWorld.step_off hoff hs
  · exact ⟨[], by simp [h.handedBy], .nil h.mayDeliver⟩
  · refine ⟨[], by simp [hh], .nil fun i hi => ?_⟩
    obtain ⟨rfl, -⟩ | ⟨-, hi⟩ := of_moved hp hi
    · simp [hc, ListenPc.mayDeliver]
    · exact hi
  · refine ⟨[c], hh, .single (by simp [hc, ListenPc.mayDeliver]) fun i hi => ?_⟩
    obtain ⟨-, hf⟩ | ⟨hne, hi⟩ := of_moved hp hi
    · cases hf
    · exact ⟨hi, hne⟩

theorem ListenPc.inLoop_of_mayDeliver (h : p.mayDeliver = true) : p.inLoop = true := by
  cases p <;> first | rfl | cases h

theorem ListenPc.mayDeliver_of_mayReceive (h : p.mayReceive = true) : p.mayDeliver = true := by
  cases p <;> first | rfl | cases h

/-- A listener in its loop has its place in the table. -/
theorem StopInv.mem_live (h : StopInv s) (hc : (s.pc c).inLoop = true) :
    c ∈ s.conns.table.live := by
  rw [h.table.mem_live_iff, h.running c hc]
  rfl

/-- Since there were `n` deliveries, at most the later ones have come into `pending`. -/
theorem KeptInv.pending_since {w : World} (h : KeptInv w) (n : Nat) :
    (w.recv.pending.filter fun d => n ≤ d.seq).length ≤ w.delivered.length - n := by
  have hmem : ∀ d ∈ w.recv.pending, d ∈ w.delivered := h.custody.known .pending
  have hinj := List.inj_on_of_nodup_map (h.numbered ▸ List.nodup_range)
  have hnd : ((w.recv.pending.filter fun d => n ≤ d.seq).map Delivery.seq).Nodup :=
    ((h.custody.nodup .pending).filter _).map_on fun d hd e he =>
      hinj (hmem d (List.mem_filter.mp hd).1) (hmem e (List.mem_filter.mp he).1)
  have hsub : ((w.recv.pending.filter fun d => n ≤ d.seq).map Delivery.seq) ⊆
      List.range' n (w.delivered.length - n) := fun k hk => by
    obtain ⟨d, hd, rfl⟩ := List.mem_map.mp hk
    obtain ⟨hp, hn⟩ := List.mem_filter.mp hd
    have hlt : d.seq ∈ List.range w.delivered.length :=
      h.numbered ▸ List.mem_map_of_mem (hmem d hp)
    have hn := of_decide_eq_true hn
    rw [List.mem_range] at hlt
    rw [List.mem_range'_1]
    omega
  simpa using (hnd.subperm hsub).length_le

/-- From any state in which receiving is stopped and until it is turned on again: each listener that
was running receives at most one more bundle, the others none. -/
theorem stop_bounds_received {l : List StopOp} (hs : stopSys.Reach s) (hr : offSys.Run s l t) :
    StopBound s t := by
  have h := stopInv_inductive.reach hs
  have ht := stopInv_inductive.guard.run hr h
  constructor
  · obtain ⟨new, hnew, hsp⟩ := received_run hr
    have hloop : ∀ c, (s.pc c).mayReceive = true → (s.pc c).inLoop = true := fun c hc =>
      ListenPc.inLoop_of_mayDeliver (ListenPc.mayDeliver_of_mayReceive hc)
    exact ⟨new, hnew, hsp.nodup, fun e he => h.running _ (hloop _ (hsp.had e he)),
      (hsp.length_le fun c hc => h.mem_live (hloop c hc)).trans h.table.bound⟩
  · obtain ⟨new, hnew, hsp⟩ := handedBy_run hr
    have hlen := (hsp.length_le fun c hc =>
      h.mem_live (ListenPc.inLoop_of_mayDeliver hc)).trans h.table.bound
    have hsince := ht.kept.pending_since s.w.delivered.length
    have hdel : t.w.delivered.length = s.w.delivered.length + new.length := by
      rw [← ht.handed, hnew, List.length_append, h.handed]
    omega

/-- A stream is opened, a connection is accepted and its listener starts a read; a second connection
is accepted before the last stream is dropped. -/
def stopWhileReading : List StopOp :=
  [.stream 0 .subscribe, .stream 0 (.spawned 0), .stream 0 (.decide 0), .accept 0 .waitForSlot,
    .accept 0 (.pollConnection (some (5, 20))), .accept 0 (.register 1), .spawned 0,
    .accept 0 .supersede, .endBody 0 none, .waitWhileStopped 0 2, .isEvicted 0,
    .stream 2 (.decide 0), .accept 0 .waitForSlot, .accept 0 (.pollConnection (some (6, 20))),
    .accept 0 (.register 3), .stream 4 (.unsubscribe 0)]

/-- The second listener is started after the stop, and the first one's read returns a bundle. -/
def afterStop : List StopOp :=
  [.spawned 0, .waitWhileStopped 1 5, .recvBundle 0 (.ok ⟨[7], 5, 20⟩) false 6,
    .storeLastActive 0 6, .deliver 0, .waitWhileStopped 0 7, .accept 0 .supersede]

theorem stop_bounds_received_reading : ∃ s t, stopSys.exec (.new 0) stopWhileReading = some s ∧
    offSys.exec s afterStop = some t ∧ t.received = [(0, ⟨[7], 5, 20⟩)] ∧
    t.w.recv.pending = [⟨0, ⟨[7], 5, 20⟩⟩] ∧ StopBound s t := by
  obtain ⟨s, hs⟩ : ∃ s, stopSys.exec (.new 0) stopWhileReading = some s := ⟨_, rfl⟩
  have hrun : ((stopSys.exec (.new 0) stopWhileReading).bind fun s => offSys.exec s afterStop).map
      (fun t => (t.received, t.w.recv.pending)) =
        some ([(0, ⟨[7], 5, 20⟩)], [⟨0, ⟨[7], 5, 20⟩⟩]) := by decide +kernel
  rw [hs, Option.bind_some] at hrun
  obtain ⟨t, ht, hval⟩ := Option.map_eq_some_iff.mp hrun
  simp only [Prod.mk.injEq] at hval
  exact ⟨s, t, hs, ht, hval.1, hval.2,
    stop_bounds_received (.of_exec ⟨0, rfl⟩ hs) (Lts.run_iff_exec.mpr ht)⟩

end Cspcl.Inbound
