import Cspcl.Inbound.ListenerRuns
import Cspcl.Nodes.Refine

/-!
# The listeners of the nodes

What the accept thread and the listeners of an instance do among all the threads of the nodes, as
steps of `listenerSys`.

* `ListenerRole`: what a thread has to do with the listeners of the instance, read off its place.
* `ShowsListeners`: what the listeners, their table and the accept thread of an instance show of a state of
  `listenerSys`.
* `ShowsListeners.Step`: a step of them shows as one of `listenerSys`, or not at all.
-/

namespace Cspcl

open Inbound (AcceptPc ConnPhase ListenerTable ListenerWorld ListenerOp listenerSys PhaseInv TableInv
  Receiver)

/-! ## What the lock sections leave of `accept_running` -/

namespace Inbound.Receiver

variable {β : Type} {r : Receiver β} {id now : Nat}

@[simp] theorem acceptRunning_setChan {c : Chan (Item β)} :
    (r.setChan id c).acceptRunning = r.acceptRunning := rfl

@[simp] theorem acceptRunning_setReceiving {on : Bool} :
    (r.setReceiving on now).acceptRunning = r.acceptRunning := rfl

@[simp] theorem acceptRunning_deliver {item : Item β} :
    (r.deliver item).acceptRunning = r.acceptRunning := by
  unfold deliver
  split
  · split
    · rfl
    · exact acceptRunning_keep
  · exact acceptRunning_keep

theorem acceptRunning_foldl {α : Type} {f : Receiver β → α → Receiver β}
    (hf : ∀ r x, (f r x).acceptRunning = r.acceptRunning) (l : List α) (r : Receiver β) :
    (l.foldl f r).acceptRunning = r.acceptRunning := by
  induction l generalizing r with
  | nil => rfl
  | cons x l ih => rw [List.foldl_cons, ih, hf]

@[simp] theorem acceptRunning_unsubscribe :
    (r.unsubscribe id now).acceptRunning = r.acceptRunning := by
  unfold unsubscribe drain
  dsimp only
  split
  · exact acceptRunning_foldl (fun _ _ => acceptRunning_deliver) _ _
  · exact acceptRunning_foldl (fun _ _ => acceptRunning_deliver) _ _

@[simp] theorem acceptRunning_acceptFailed : (r.acceptFailed id now).acceptRunning = false := by
  unfold acceptFailed drain
  refine (acceptRunning_foldl (fun _ _ => acceptRunning_keep) _ _).trans ?_
  simp only [acceptRunning_setChan, acceptRunning_setReceiving]
  rw [acceptRunning_foldl fun _ _ => acceptRunning_setChan]

@[simp] theorem acceptRunning_subscribe : r.subscribe.2.2.acceptRunning = true := by
  rw [subscribe_spec]

end Inbound.Receiver

/-! ## Roles -/

/-- What a thread has to do with the listeners of an instance. -/
inductive ListenerRole where
  | away
  /-- It starts the accept thread. -/
  | opens
  /-- The accept thread, with no connection, and from `wait_for_slot` until it has one. -/
  | top
  | slot
  | accepted (key : UInt8 × UInt8)
  | registered (l : Nat)
  /-- It drops the task of the listener that it could not start. -/
  | drops (l : Nat)
  | dropped (l : Nat)
  | started (l : Nat)
  /-- The listener; then its task is dropped, first the connection. -/
  | running (l : Nat)
  | dropping (l : Nat)
  | closed (l : Nat)
  deriving DecidableEq

namespace ListenerRole

/-- It is the accept thread, or starts it. -/
def active : ListenerRole → Bool
  | away | running _ | dropping _ | closed _ => false
  | _ => true

/-- Where the accept thread is, when `n` connections have been registered. -/
def pc (n : Nat) : ListenerRole → AcceptPc
  | slot => .slot
  | accepted key => .accepted n key
  | registered l => .registered l
  | drops l | dropped l => .failed l
  | started l => .started l
  | _ => .top

/-- The thread has a connection that is open: that of the listener, or the next one. -/
def holds (n : Nat) : ListenerRole → Option Nat
  | accepted _ => some n
  | registered l | drops l | running l | dropping l => some l
  | _ => none

/-- The accept thread is between `register` and the end of `supersede`. -/
def registering : ListenerRole → Bool
  | registered _ | drops _ | dropped _ | started _ => true
  | _ => false

/-- The listener whose task the thread has, and the phase of the task. -/
def own : ListenerRole → Option (Nat × ConnPhase)
  | running l => some (l, .running)
  | drops l | dropping l => some (l, .dropping)
  | dropped l | closed l => some (l, .closed)
  | _ => none

end ListenerRole

namespace AcceptAt

def role : AcceptAt → ListenerRole
  | pollConnection | isReceiving | acceptConn | rxLookup | rxCreate | rxRegister _ | accepting =>
    .slot
  | polled (.ok (_, key)) | register _ key => .accepted key
  | spawn _ l => .registered l
  | supersede l => .started l
  | dropConn _ l => .drops l
  | dropRunning l => .dropped l
  | _ => .top

end AcceptAt

/-- What the thread has to do with the listeners of instance `i`. -/
def NodePlace.role (i : Nat) : NodePlace → ListenerRole
  | accept j p => if j = i then p.role else .away
  | «open» j (.spawn _) | «open» j (.acceptFailed _) => if j = i then .opens else .away
  | listen j l _ .closing => if j = i then .dropping l else .away
  | listen j l _ _ => if j = i then .running l else .away
  | release j (some l) | cleanup j (some l) | finish j l => if j = i then .closed l else .away
  | _ => .away

/-- What there is of the listeners of an instance. -/
structure Listeners where
  role : Nat → ListenerRole
  table : ListenerTable
  conns : Nat
  acceptRunning : Bool

/-- Those of instance `i`. -/
def Nodes.listeners (s : Nodes) (i : Nat) : Listeners where
  role t := match s.thread t with
    | some th => th.place.role i
    | none => .away
  table := s.table i
  conns := s.conns i
  acceptRunning := (s.recv i).acceptRunning

/-- The tasks of the listeners are in their phases, each with one thread. -/
structure TaskOwners (role : Nat → ListenerRole) (phase : Nat → ConnPhase) : Prop where
  phase : ∀ t l ph, (role t).own = some (l, ph) → phase l = ph
  one : ∀ t u l ph ph', (role t).own = some (l, ph) → (role u).own = some (l, ph') → t = u

/-- The listeners `v` show the state `a`. -/
structure ShowsListeners (v : Listeners) (a : ListenerWorld) : Prop where
  table : v.table = a.table
  accepted : a.accepted = v.conns + a.accept.accepting.toList.length
  accept : ∀ t, (v.role t).active = true → a.accept = (v.role t).pc v.conns
  idle : (∀ t, (v.role t).active = false) → a.accept = .top
  running : v.acceptRunning = true ↔ ∃ t, (v.role t).active = true
  unique : ∀ t u, (v.role t).active = true → (v.role u).active = true → t = u
  owns : TaskOwners v.role a.phase

/-! ## Changes of one role -/

theorem ListenerRole.own_phase {ρ : ListenerRole} {l : Nat} {ph : ConnPhase} (h : ρ.own = some (l, ph)) :
    ph = .running ∨ ph = .dropping ∨ ph = .closed := by
  cases ρ <;> simp only [own, Option.some.injEq, Prod.mk.injEq, reduceCtorEq] at h <;>
    simp [← h.2]

/-- Without its task, a thread that starts the accept thread or is it is in no listener's way. -/
theorem ListenerRole.own_failed {ρ : ListenerRole} {l n : Nat} (h : ρ.pc n = .failed l) :
    ∃ ph, ρ.own = some (l, ph) := by
  cases ρ <;> simp only [pc, AcceptPc.failed.injEq, reduceCtorEq] at h
  · exact ⟨.dropping, by rw [h]; rfl⟩
  · exact ⟨.closed, by rw [h]; rfl⟩

namespace TaskOwners

variable {role : Nat → ListenerRole} {phase phase' : Nat → ConnPhase} {t : Nat} {ρ : ListenerRole}

/-- In its other phases, a listener's task is not with a thread. -/
theorem free {l : Nat} (h : TaskOwners role phase) (hr : phase l ≠ .running)
    (hd : phase l ≠ .dropping) (hc : phase l ≠ .closed) (u : Nat) (ph : ConnPhase) :
    (role u).own ≠ some (l, ph) := by
  intro hu
  have hph := h.phase u l ph hu
  rcases ListenerRole.own_phase hu with rfl | rfl | rfl
  · exact hr hph
  · exact hd hph
  · exact hc hph

theorem only {l : Nat} {ph : ConnPhase} (h : TaskOwners role phase)
    (ht : (role t).own = some (l, ph)) (u : Nat) (ph' : ConnPhase) (hu : u ≠ t) :
    (role u).own ≠ some (l, ph') := fun hu' => hu (h.one u t l ph' ph hu' ht)

/-- Only the phase of a listener `l` changes, whose task no other thread has. -/
theorem others {l : Nat} (h : TaskOwners role phase)
    (ho : ∀ u ph, u ≠ t → (role u).own ≠ some (l, ph)) (hk : ∀ l', l' ≠ l → phase' l' = phase l')
    (u l' : Nat) (ph : ConnPhase) (hut : u ≠ t) (hu : (role u).own = some (l', ph)) :
    phase' l' = ph := by
  have hne : l' ≠ l := fun he => ho u ph hut (he ▸ hu)
  rw [hk l' hne]
  exact h.phase u l' ph hu

/-- A thread that has no task afterwards. -/
theorem none (h : TaskOwners role phase) (hρ : ρ.own = none)
    (hk : ∀ u l ph, u ≠ t → (role u).own = some (l, ph) → phase' l = ph) :
    TaskOwners (Function.update role t ρ) phase' := by
  have hold : ∀ u x, (Function.update role t ρ u).own = Option.some x →
      u ≠ t ∧ (role u).own = Option.some x := by
    intro u x hu
    by_cases hut : u = t
    · rw [hut, Function.update_self, hρ] at hu
      cases hu
    · rw [Function.update_of_ne hut] at hu
      exact ⟨hut, hu⟩
  refine ⟨fun u l ph hu => ?_, fun u v l ph ph' hu hv => ?_⟩
  · obtain ⟨hut, hu⟩ := hold u _ hu
    exact hk u l ph hut hu
  · exact h.one u v l ph ph' (hold u _ hu).2 (hold v _ hv).2

/-- The thread has the task of a listener that no other thread has. -/
theorem some {l : Nat} {ph : ConnPhase} (h : TaskOwners role phase) (hρ : ρ.own = some (l, ph))
    (hl : phase' l = ph) (ho : ∀ u ph', u ≠ t → (role u).own ≠ Option.some (l, ph'))
    (hk : ∀ l', l' ≠ l → phase' l' = phase l') : TaskOwners (Function.update role t ρ) phase' where
  phase u l' ph' hu := by
    by_cases hut : u = t
    · rw [hut, Function.update_self, hρ] at hu
      cases hu
      exact hl
    · rw [Function.update_of_ne hut] at hu
      exact h.others ho hk u l' ph' hut hu
  one u v l' ph₁ ph₂ hu hv := by
    by_cases hut : u = t
    · by_cases hvt : v = t
      · rw [hut, hvt]
      · rw [hut, Function.update_self, hρ] at hu
        rw [Function.update_of_ne hvt] at hv
        cases hu
        exact absurd hv (ho v ph₂ hvt)
    · rw [Function.update_of_ne hut] at hu
      by_cases hvt : v = t
      · rw [hvt, Function.update_self, hρ] at hv
        cases hv
        exact absurd hu (ho u ph₁ hut)
      · rw [Function.update_of_ne hvt] at hv
        exact h.one u v l' ph₁ ph₂ hu hv

end TaskOwners

/-! ## What the listeners do -/

namespace ShowsListeners

variable {v : Listeners} {a b : ListenerWorld} {t r n : Nat} {ρ σ : ListenerRole}

/-- A step of the accept thread, which stays the accept thread. -/
theorem acts (h : ShowsListeners v a) (ht : v.role t = σ) (h₀ : σ.active = true)
    (hρ : ρ.active = true) (haccept : b.accept = ρ.pc n)
    (hacc : b.accepted = n + b.accept.accepting.toList.length)
    (howns : TaskOwners (Function.update v.role t ρ) b.phase) :
    ShowsListeners ⟨Function.update v.role t ρ, b.table, n, v.acceptRunning⟩ b := by
  have hact : ∀ u, (Function.update v.role t ρ u).active = (v.role u).active := fun u => by
    by_cases hu : u = t
    · rw [hu, Function.update_self, hρ, ht, h₀]
    · rw [Function.update_of_ne hu]
  refine ⟨rfl, hacc, fun u hu => ?_, fun hn => ?_, ?_, fun u w hu hw => ?_, howns⟩
  · dsimp only at hu ⊢
    rw [hact] at hu
    rw [h.unique u t hu (ht ▸ h₀), Function.update_self]
    exact haccept
  · have := hn t
    rw [hact, ht, h₀] at this
    cases this
  · simp only [hact]
    exact h.running
  · dsimp only at hu hw
    rw [hact] at hu hw
    exact h.unique u w hu hw

/-- A step of a thread that is not the accept thread. -/
theorem listens (h : ShowsListeners v a) (ht : v.role t = σ) (h₀ : σ.active = false)
    (hρ : ρ.active = false) (haccept : b.accept = a.accept) (hacc : b.accepted = a.accepted)
    (howns : TaskOwners (Function.update v.role t ρ) b.phase) :
    ShowsListeners ⟨Function.update v.role t ρ, b.table, v.conns, v.acceptRunning⟩ b := by
  have hact : ∀ u, (Function.update v.role t ρ u).active = (v.role u).active := fun u => by
    by_cases hu : u = t
    · rw [hu, Function.update_self, hρ, ht, h₀]
    · rw [Function.update_of_ne hu]
  refine ⟨rfl, by rw [hacc, haccept]; exact h.accepted, fun u hu => ?_, fun hn => ?_, ?_,
    fun u w hu hw => ?_, howns⟩
  · dsimp only at hu ⊢
    rw [hact] at hu
    have hut : u ≠ t := by
      rintro rfl
      rw [ht, h₀] at hu
      cases hu
    rw [Function.update_of_ne hut, haccept]
    exact h.accept u hu
  · rw [haccept]
    exact h.idle fun u => (hact u).symm.trans (hn u)
  · simp only [hact]
    exact h.running
  · dsimp only at hu hw
    rw [hact] at hu hw
    exact h.unique u w hu hw

/-- The only active thread becomes another one, or none; the accept thread has no connection. -/
theorem hands {role : Nat → ListenerRole} {running : Bool} (h : ShowsListeners v a)
    (htop : a.accept = .top) (howns : TaskOwners role a.phase)
    (hone : ∀ u w, (role u).active = true → (role w).active = true → u = w)
    (hpc : ∀ u, (role u).active = true → (role u).pc v.conns = .top)
    (hrun : running = true ↔ ∃ u, (role u).active = true) :
    ShowsListeners ⟨role, v.table, v.conns, running⟩ a :=
  ⟨h.table, h.accepted, fun u hu => htop.trans (hpc u hu).symm, fun _ => htop, hrun, hone, howns⟩

/-- It shows as a step of `listenerSys`, or not at all. -/
def Step (v : Listeners) (a : ListenerWorld) : Prop :=
  ShowsListeners v a ∨ ∃ k b, a.step k = some b ∧ ShowsListeners v b

theorem accept_at (h : ShowsListeners v a) (ht : v.role t = ρ) (hρ : ρ.active = true) :
    a.accept = ρ.pc v.conns := by
  have := h.accept t (ht ▸ hρ)
  rwa [ht] at this

theorem waits (h : ShowsListeners v a) (ht : v.role t = .top) :
    Step ⟨Function.update v.role t (if v.table.mayAccept.1 then .slot else .top),
      v.table.mayAccept.2, v.conns, v.acceptRunning⟩ a := by
  have hacc : a.accept = .top := h.accept_at ht rfl
  have hn := h.accepted
  rw [hacc] at hn
  have hown := h.owns.none (t := t) (ρ := if v.table.mayAccept.1 then .slot else .top)
    (by split <;> rfl) fun u l ph _ => h.owns.phase u l ph
  let b : ListenerWorld :=
    { a with table := a.table.mayAccept.2, accept := if a.table.mayAccept.1 then .slot else .top }
  have hb : a.step .waitForSlot = some b := if_pos hacc
  refine .inr ⟨_, _, hb, ?_⟩
  rw [show v.table.mayAccept.2 = b.table by rw [h.table]]
  refine h.acts ht rfl ?_ ?_ ?_ hown
  · split <;> rfl
  · rw [h.table]
    dsimp only [b]
    split <;> rfl
  · dsimp only [b]
    split <;> exact hn

/-- It goes on without a connection. -/
theorem gives (h : ShowsListeners v a) (ht : v.role t = .slot) :
    Step { v with role := Function.update v.role t .top } a := by
  have hacc : a.accept = .slot := h.accept_at ht rfl
  have hn := h.accepted
  rw [hacc] at hn
  let b : ListenerWorld := { a with accept := .top }
  have hb : a.step (.pollConnection none) = some b := if_pos hacc
  refine .inr ⟨_, _, hb, ?_⟩
  rw [show v.table = b.table from h.table]
  exact h.acts ht rfl rfl rfl hn (h.owns.none rfl fun u l ph _ => h.owns.phase u l ph)

/-- The accept thread goes on with a connection whose task no thread has, and without one
itself. -/
theorem moves {l : Nat} (h : ShowsListeners v a) (ht : v.role t = σ) (h₀ : σ.active = true)
    (hρ : ρ.active = true) (hown : ρ.own = none)
    (hl : a.phase l ≠ .running ∧ a.phase l ≠ .dropping ∧ a.phase l ≠ .closed)
    (hphase : ∀ l', l' ≠ l → b.phase l' = a.phase l') (haccept : b.accept = ρ.pc n)
    (hacc : b.accepted = n + b.accept.accepting.toList.length) :
    ShowsListeners ⟨Function.update v.role t ρ, b.table, n, v.acceptRunning⟩ b :=
  h.acts ht h₀ hρ haccept hacc
    (h.owns.none hown (h.owns.others (fun u ph _ => h.owns.free hl.1 hl.2.1 hl.2.2 u ph) hphase))

theorem gets {key : UInt8 × UInt8} (h : ShowsListeners v a) (hp : PhaseInv a)
    (ht : v.role t = .slot) : Step { v with role := Function.update v.role t (.accepted key) } a := by
  have hacc : a.accept = .slot := h.accept_at ht rfl
  have hn : a.accepted = v.conns := by
    have hn := h.accepted
    rwa [hacc] at hn
  have hnew : a.phase a.accepted = .absent := (hp.absent_iff _).mpr (Nat.le_refl _)
  let b : ListenerWorld := { a.setPhase a.accepted .accepted with
    accept := .accepted a.accepted key, accepted := a.accepted + 1 }
  have hb : a.step (.pollConnection (some key)) = some b := if_pos hacc
  refine .inr ⟨_, _, hb, ?_⟩
  rw [show v.table = b.table from h.table]
  refine h.moves (l := a.accepted) ht rfl rfl rfl ?_ (fun l hl => Function.update_of_ne hl ..) ?_ ?_
  · simp [hnew]
  · exact congrArg (AcceptPc.accepted · key) hn
  · exact congrArg (· + 1) hn

theorem registers {key : UInt8 × UInt8} {nowMs : Nat} (h : ShowsListeners v a) (hp : PhaseInv a)
    (ht : v.role t = .accepted key) :
    Step ⟨Function.update v.role t (.registered v.conns),
      v.table.register v.conns (.new key nowMs), v.conns + 1, v.acceptRunning⟩ a := by
  have hacc : a.accept = .accepted v.conns key := h.accept_at ht rfl
  have hn : a.accepted = v.conns + 1 := by
    have hn := h.accepted
    rwa [hacc] at hn
  have hphase : a.phase v.conns = .accepted :=
    (hp.accepted_iff _).mpr (by rw [hacc]; rfl)
  let b : ListenerWorld := { a.setPhase v.conns .registered with
    table := a.table.register v.conns (.new key nowMs), accept := .registered v.conns }
  have hb : a.step (.register nowMs) = some b := by
    simp only [ListenerWorld.step, hacc]
    rfl
  refine .inr ⟨_, _, hb, ?_⟩
  rw [show v.table.register v.conns (.new key nowMs) = b.table by rw [h.table]]
  refine h.moves (l := v.conns) ht rfl rfl rfl ?_ (fun l hl => Function.update_of_ne hl ..) rfl hn
  simp [hphase]

/-- The listener starts in the thread `r`. -/
theorem spawns {l : Nat} (h : ShowsListeners v a) (hp : PhaseInv a) (ht : v.role t = .registered l)
    (hr : v.role r = .away) :
    Step { v with
      role := Function.update (Function.update v.role r (.running l)) t (.started l) } a := by
  have hacc : a.accept = .registered l := h.accept_at ht rfl
  have hn := h.accepted
  rw [hacc] at hn
  have hphase : a.phase l = .registered := (hp.registered_iff l).mpr hacc
  have hfree : ∀ u ph, (v.role u).own ≠ some (l, ph) :=
    h.owns.free (by rw [hphase]; nofun) (by rw [hphase]; nofun) (by rw [hphase]; nofun)
  let b : ListenerWorld := { a.setPhase l .running with accept := .started l }
  have hb : a.step .spawned = some b := by
    simp only [ListenerWorld.step, hacc]
    rfl
  have htr : r ≠ t := by
    rintro rfl
    rw [ht] at hr
    cases hr
  refine .inr ⟨_, _, hb, ?_⟩
  rw [Function.update_comm htr, show v.table = b.table from h.table]
  -- First it goes on, then the new thread starts.
  have h₁ := h.moves (l := l) (ρ := .started l) (b := b) ht rfl rfl rfl (by simp [hphase])
    (fun l' hl => Function.update_of_ne hl ..) rfl hn
  refine h₁.listens (t := r) (σ := .away) ?_ rfl rfl rfl rfl ?_
  · dsimp only
    rw [Function.update_of_ne htr, hr]
  · refine h₁.owns.some rfl (Function.update_self ..) (fun u ph hu hown => ?_) fun _ _ => rfl
    dsimp only at hown
    by_cases hut : u = t
    · rw [hut, Function.update_self] at hown
      cases hown
    · rw [Function.update_of_ne hut] at hown
      exact hfree u ph hown

theorem fails {l : Nat} (h : ShowsListeners v a) (hp : PhaseInv a)
    (ht : v.role t = .registered l) : Step { v with role := Function.update v.role t (.drops l) } a := by
  have hacc : a.accept = .registered l := h.accept_at ht rfl
  have hn := h.accepted
  rw [hacc] at hn
  have hphase : a.phase l = .registered := (hp.registered_iff l).mpr hacc
  let b : ListenerWorld := { a.setPhase l .dropping with accept := .failed l }
  have hb : a.step .spawnFailed = some b := by
    simp only [ListenerWorld.step, hacc]
    rfl
  refine .inr ⟨_, _, hb, ?_⟩
  rw [show v.table = b.table from h.table]
  refine h.acts ht rfl rfl rfl hn (h.owns.some rfl (Function.update_self ..) (fun u ph _ => ?_)
    fun l' hl => Function.update_of_ne hl ..)
  exact h.owns.free (by rw [hphase]; simp) (by rw [hphase]; simp) (by rw [hphase]; simp) u ph

theorem supersedes {l : Nat} (h : ShowsListeners v a) (ht : v.role t = .started l) :
    Step { v with role := Function.update v.role t .top, table := v.table.supersede l } a := by
  have hacc : a.accept = .started l := h.accept_at ht rfl
  have hn := h.accepted
  rw [hacc] at hn
  let b : ListenerWorld := { a with table := a.table.supersede l, accept := .top }
  have hb : a.step .supersede = some b := by
    simp only [ListenerWorld.step, hacc]
    rfl
  refine .inr ⟨_, _, hb, ?_⟩
  rw [show v.table.supersede l = b.table by rw [h.table]]
  exact h.acts ht rfl rfl rfl hn (h.owns.none rfl fun u l ph _ => h.owns.phase u l ph)

/-- The phase of the task that the thread has goes from `ph` to `ph'`. -/
theorem tasks {l : Nat} {ph ph' : ConnPhase} (h : ShowsListeners v a)
    (ht : v.role t = σ) (h₀ : σ.own = some (l, ph)) (hρ : ρ.own = some (l, ph'))
    (hact : ρ.active = σ.active) (hpc : ρ.pc v.conns = σ.pc v.conns) (hb : b.phase l = ph')
    (hbk : ∀ l', l' ≠ l → b.phase l' = a.phase l') (haccept : b.accept = a.accept)
    (hacc : b.accepted = a.accepted) :
    ShowsListeners { v with role := Function.update v.role t ρ, table := b.table } b := by
  have hown : TaskOwners (Function.update v.role t ρ) b.phase :=
    h.owns.some hρ hb (h.owns.only (ht ▸ h₀)) hbk
  cases hact₀ : σ.active with
  | true =>
    refine h.acts ht hact₀ (hact.trans hact₀) ?_ ?_ hown
    · rw [haccept, hpc]
      exact h.accept_at ht hact₀
    · rw [hacc, haccept]
      exact h.accepted
  | false => exact h.listens ht hact₀ (hact.trans hact₀) haccept hacc hown

/-- The connection is closed. -/
theorem closes {l : Nat} (h : ShowsListeners v a)
    (ht : v.role t = .drops l ∧ ρ = .dropped l ∨ v.role t = .dropping l ∧ ρ = .closed l) :
    Step { v with role := Function.update v.role t ρ } a := by
  have hphase : a.phase l = .dropping := by
    refine h.owns.phase t l _ ?_
    rcases ht with ⟨ht, -⟩ | ⟨ht, -⟩ <;> rw [ht] <;> rfl
  let b : ListenerWorld := a.setPhase l .closed
  have hb : a.step (.closeConn l) = some b := if_pos hphase
  refine .inr ⟨_, _, hb, ?_⟩
  rw [show v.table = b.table from h.table]
  have hself : b.phase l = .closed := Function.update_self ..
  have hother : ∀ l', l' ≠ l → b.phase l' = a.phase l' := fun l' hl => Function.update_of_ne hl ..
  rcases ht with ⟨ht, rfl⟩ | ⟨ht, rfl⟩
  · exact h.tasks ht rfl rfl rfl rfl hself hother rfl rfl
  · exact h.tasks ht rfl rfl rfl rfl hself hother rfl rfl

theorem exits {l : Nat} (h : ShowsListeners v a) (ht : v.role t = .running l) :
    Step { v with role := Function.update v.role t (.dropping l) } a := by
  have hphase : a.phase l = .running := h.owns.phase t l _ (by rw [ht]; rfl)
  let b : ListenerWorld := a.setPhase l .dropping
  have hb : a.step (.exit l) = some b := if_pos hphase
  refine .inr ⟨_, _, hb, ?_⟩
  rw [show v.table = b.table from h.table]
  exact h.tasks ht rfl rfl rfl rfl (Function.update_self ..) (fun l' hl => Function.update_of_ne hl ..)
    rfl rfl

/-- The listener notes that it received a bundle. -/
theorem receives {l : Nat} (nowMs : Nat) (h : ShowsListeners v a) (ht : v.role t = .running l) :
    Step { v with table := { v.table with
      state := Function.update v.table.state l { v.table.state l with lastActiveMs := nowMs } } }
      a := by
  have hphase : a.phase l = .running := h.owns.phase t l _ (by rw [ht]; rfl)
  let b : ListenerWorld := a.setState l { a.table.state l with lastActiveMs := nowMs }
  have hb : a.step (.received l nowMs) = some b := if_pos hphase
  refine .inr ⟨_, _, hb, ?_⟩
  rw [h.table]
  exact ⟨rfl, h.accepted, h.accept, h.idle, h.running, h.unique, h.owns⟩

/-- The guard of a listener's task is dropped, by the listener or by the accept thread. -/
theorem drops {l : Nat} (h : ShowsListeners v a)
    (ht : v.role t = .dropped l ∧ ρ = .top ∨ v.role t = .closed l ∧ ρ = .away) :
    Step { v with
      role := Function.update v.role t ρ
      table := { v.table with
        state := Function.update v.table.state l { v.table.state l with running := false } } } a := by
  have hown₀ : (v.role t).own = some (l, .closed) := by
    rcases ht with ⟨ht, -⟩ | ⟨ht, -⟩ <;> rw [ht] <;> rfl
  have hphase : a.phase l = .closed := h.owns.phase t l _ hown₀
  let b : ListenerWorld :=
    { (a.setPhase l .finished).setState l { a.table.state l with running := false } with
      accept := if a.accept = .failed l then .top else a.accept }
  have hb : a.step (.dropGuard l) = some b := if_pos hphase
  have hown : TaskOwners (Function.update v.role t ρ) b.phase := by
    refine h.owns.none ?_ (h.owns.others (h.owns.only hown₀) fun l' hl =>
      Function.update_of_ne hl ..)
    rcases ht with ⟨-, rfl⟩ | ⟨-, rfl⟩ <;> rfl
  refine .inr ⟨_, _, hb, ?_⟩
  rw [h.table]
  rcases ht with ⟨ht, rfl⟩ | ⟨ht, rfl⟩
  · have hacc : a.accept = .failed l := h.accept_at ht rfl
    have htop : b.accept = .top := if_pos hacc
    have hn := h.accepted
    rw [hacc] at hn
    refine h.acts ht rfl rfl htop ?_ hown
    rw [htop]
    exact hn
  · -- The accept thread has another task, if any.
    have hne : a.accept ≠ .failed l := by
      intro hacc
      by_cases hall : ∀ u, (v.role u).active = false
      · rw [h.idle hall] at hacc
        cases hacc
      · simp only [not_forall, Bool.not_eq_false] at hall
        obtain ⟨u, hu⟩ := hall
        obtain ⟨ph, hu'⟩ := ListenerRole.own_failed ((h.accept u hu).symm.trans hacc)
        rw [h.owns.one u t l _ _ hu' hown₀, ht] at hu
        cases hu
    exact h.listens (b := b) ht rfl rfl (if_neg hne) rfl hown

/-- A call of `subscribe` claims the accept thread. -/
theorem claims (h : ShowsListeners v a) (hr : v.acceptRunning = false) :
    ShowsListeners { v with role := Function.update v.role t .opens, acceptRunning := true } a := by
  have hnone : ∀ u, (v.role u).active = false := fun u => by
    by_contra hu
    rw [h.running.mpr ⟨u, by simpa using hu⟩] at hr
    cases hr
  have honly : ∀ u, (Function.update v.role t .opens u).active = true → u = t := fun u hu => by
    by_contra hut
    rw [Function.update_of_ne hut, hnone] at hu
    cases hu
  refine h.hands (h.idle hnone) (h.owns.none rfl fun u l ph _ => h.owns.phase u l ph)
    (fun u w hu hw => (honly u hu).trans (honly w hw).symm) (fun u hu => ?_)
    ⟨fun _ => ⟨t, by rw [Function.update_self]; rfl⟩, fun _ => rfl⟩
  rw [honly u hu, Function.update_self]
  rfl

/-- It starts the accept thread, `r`. -/
theorem starts (h : ShowsListeners v a) (ht : v.role t = .opens) (hr : v.role r = .away) :
    ShowsListeners { v with
      role := Function.update (Function.update v.role r .top) t .away } a := by
  have hact : (v.role t).active = true := ht ▸ rfl
  have hrt : r ≠ t := by
    rintro rfl
    rw [ht] at hr
    cases hr
  have hself : Function.update (Function.update v.role r .top) t .away r = .top := by
    rw [Function.update_of_ne hrt, Function.update_self]
  have honly : ∀ u, (Function.update (Function.update v.role r .top) t .away u).active = true →
      u = r := fun u hu => by
    by_contra hur
    by_cases hut : u = t
    · rw [hut, Function.update_self] at hu
      cases hu
    · rw [Function.update_of_ne hut, Function.update_of_ne hur] at hu
      exact hut (h.unique u t hu hact)
  have hown : TaskOwners (Function.update (Function.update v.role r .top) t .away) a.phase := by
    have h₁ := h.owns.none (t := r) (ρ := .top) rfl fun u l ph _ => h.owns.phase u l ph
    exact h₁.none rfl fun u l ph _ => h₁.phase u l ph
  refine h.hands (h.accept_at ht rfl) hown (fun u w hu hw => (honly u hu).trans (honly w hw).symm)
    (fun u hu => ?_) ⟨fun _ => ⟨r, by rw [hself]; rfl⟩, fun _ => h.running.mpr ⟨t, hact⟩⟩
  rw [honly u hu, hself]
  rfl

/-- The accept thread stops, or could not be started. -/
theorem stops (h : ShowsListeners v a) (ht : v.role t = .top ∨ v.role t = .opens) :
    ShowsListeners { v with role := Function.update v.role t .away, acceptRunning := false } a := by
  have hact : (v.role t).active = true := by rcases ht with ht | ht <;> rw [ht] <;> rfl
  have htop : a.accept = .top := by rcases ht with ht | ht <;> exact h.accept_at ht rfl
  have hnone : ∀ u, (Function.update v.role t .away u).active = false := fun u => by
    by_cases hut : u = t
    · rw [hut, Function.update_self]
      rfl
    · rw [Function.update_of_ne hut]
      by_contra hu
      exact hut (h.unique u t (by simpa using hu) hact)
  refine h.hands htop (h.owns.none rfl fun u l ph _ => h.owns.phase u l ph) (fun u w hu => ?_)
    (fun u hu => ?_) ⟨nofun, ?_⟩
  · rw [hnone] at hu
    cases hu
  · rw [hnone] at hu
    cases hu
  · rintro ⟨u, hu⟩
    rw [hnone] at hu
    cases hu

end ShowsListeners

end Cspcl
