import Cspcl.Nodes.Listeners

/-!
# The connections of an instance

`csp_conf.conn_max` has to cover the pool and the inbound connections of an instance.

* `listeners_refine`: the listeners of each instance, among all the threads of the nodes with their
  mutexes, are simulated by `listenerSys`.
* `conns_covered`: the instance's connections in every reachable state.
-/

namespace Cspcl

open Inbound (ListenerWorld listenerSys PhaseInv TableInv tableInv_inductive)

namespace Nodes

variable {s s₁ s' : Nodes} {t u r i j l : Nat} {p q : NodePlace} {w : Bool} {c : Conn}

theorem listeners_role : (s.listeners i).role t =
    match s.thread t with
    | some th => th.place.role i
    | none => .away := rfl

theorem role_at (ht : s.thread t = some ⟨q, w⟩) : (s.listeners i).role t = q.role i := by
  rw [listeners_role, ht]

theorem role_none (ht : s.thread t = none) : (s.listeners i).role t = .away := by
  rw [listeners_role, ht]

theorem listeners_goto : (s.goto t p).listeners i =
    { s.listeners i with role := Function.update (s.listeners i).role t (p.role i) } := by
  have hrole : ((s.goto t p).listeners i).role =
      Function.update (s.listeners i).role t (p.role i) := by
    funext u
    by_cases hu : u = t <;> simp [listeners_role, goto, hu]
  rw [← hrole]
  rfl

theorem listeners_exit : (s.exit t).listeners i =
    { s.listeners i with role := Function.update (s.listeners i).role t .away } := by
  have hrole : ((s.exit t).listeners i).role = Function.update (s.listeners i).role t .away := by
    funext u
    by_cases hu : u = t <;> simp [listeners_role, exit, hu]
  rw [← hrole]
  rfl

/-- A part of a step that moves no thread and changes nothing of the listeners of instance `i`. -/
theorem listeners_congr (ht : s₁.thread = s.thread) (htable : s₁.table i = s.table i)
    (hconns : s₁.conns i = s.conns i)
    (hrun : (s₁.recv i).acceptRunning = (s.recv i).acceptRunning) :
    s₁.listeners i = s.listeners i := by
  have hrole : (s₁.listeners i).role = (s.listeners i).role := by
    funext u
    rw [listeners_role, listeners_role, ht]
  unfold listeners at hrole ⊢
  rw [htable, hconns, hrun]
  simp only [Listeners.mk.injEq, and_self, and_true]
  exact hrole

/-- A lock section of the receiver that leaves `accept_running`. -/
theorem listeners_setRecv {x : Inbound.Receiver Inbound.Bundle}
    (hx : x.acceptRunning = (s.recv j).acceptRunning) :
    (s.setRecv j x).listeners i = s.listeners i := by
  refine listeners_congr rfl rfl rfl ?_
  simp only [setRecv, Function.update_apply]
  split
  · rename_i hij
    rw [hx, hij]
  · rfl

/-- A thread gets to a place with the same role. -/
theorem listeners_stays (ht : s.thread t = some ⟨q, w⟩) (hs : s₁.listeners i = s.listeners i)
    (hp : p.role i = q.role i) : (s₁.goto t p).listeners i = s.listeners i := by
  rw [listeners_goto, hs, hp, ← role_at ht, Function.update_eq_self]

theorem listeners_ends (ht : s.thread t = some ⟨q, w⟩) (hs : s₁.listeners i = s.listeners i)
    (hq : q.role i = .away) : (s₁.exit t).listeners i = s.listeners i := by
  rw [listeners_exit, hs, ← hq, ← role_at ht, Function.update_eq_self]

theorem listeners_enters (ht : s.thread t = none) (hs : s₁.listeners i = s.listeners i)
    (hp : p.role i = .away) : (s₁.goto t p).listeners i = s.listeners i := by
  rw [listeners_goto, hs, hp, ← role_none ht, Function.update_eq_self]

/-! ## The other instances -/

theorem role_accept (hij : j ≠ i) (p : AcceptAt) : NodePlace.role i (.accept j p) = .away :=
  if_neg hij

theorem role_listen (hij : j ≠ i) (p : ListenAt) : NodePlace.role i (.listen j l c p) = .away := by
  cases p <;> exact if_neg hij

theorem listeners_setTable {x : Inbound.ListenerTable} (hij : j ≠ i) :
    (s.setTable j x).listeners i = s.listeners i :=
  listeners_congr rfl (Function.update_of_ne hij.symm ..) rfl rfl

theorem listeners_setRecv_ne {x : Inbound.Receiver Inbound.Bundle} (hij : j ≠ i) :
    (s.setRecv j x).listeners i = s.listeners i := by
  refine listeners_congr rfl rfl rfl ?_
  show ((Function.update s.recv j x) i).acceptRunning = _
  rw [Function.update_of_ne hij.symm]

theorem listeners_inC {op : DeliveryOp} (hs : s.inC op = some s₁) :
    s₁.listeners i = s.listeners i ∧ s₁.thread = s.thread := by
  obtain ⟨d, -, rfl⟩ := Option.map_eq_some_iff.mp hs
  exact ⟨rfl, rfl⟩

/-! ## The instance itself -/

theorem listeners_setTable_self {x : Inbound.ListenerTable} :
    (s.setTable i x).listeners i = { s.listeners i with table := x } := by
  unfold listeners setTable
  simp only [Function.update_self]

theorem listeners_setRecv_self {x : Inbound.Receiver Inbound.Bundle} :
    (s.setRecv i x).listeners i = { s.listeners i with acceptRunning := x.acceptRunning } := by
  unfold listeners setRecv
  simp only [Function.update_self]

variable {env : NodeEnv}

theorem nextAccept_apart {p : AcceptAt} (hij : j ≠ i)
    (ht : s.thread t = some ⟨.accept j p, w⟩) (hs : s.nextAccept t j env p = some s') :
    s'.listeners i = s.listeners i := by
  have hstay : ∀ (s₁ : Nodes) q, s₁.listeners i = s.listeners i → q.role i = .away →
      (s₁.goto t q).listeners i = s.listeners i := fun s₁ q h₁ hq =>
    listeners_stays ht h₁ (hq.trans (role_accept hij p).symm)
  have hrole := role_accept hij
  cases p with
  | decide =>
    obtain rfl := Option.some.inj hs
    refine hstay _ _ (listeners_setRecv_ne hij) ?_
    split
    · exact hrole _
    · rfl
  | waitForSlot | supersede l | dropRunning l =>
    obtain rfl := Option.some.inj hs
    exact hstay _ _ (listeners_setTable hij) (hrole _)
  | slotFreed | pollConnection | isReceiving | acceptConn | polled res | pause | backoff =>
    obtain rfl := Option.some.inj hs
    exact hstay _ _ rfl (hrole _)
  | rxLookup | rxCreate =>
    simp only [Nodes.nextAccept] at hs
    split at hs
    · obtain rfl := Option.some.inj hs
      exact hstay _ _ rfl (hrole _)
    · obtain rfl := Option.some.inj hs
      exact hstay _ _ rfl (hrole _)
  | rxRegister k =>
    obtain rfl := Option.some.inj hs
    exact hstay _ _ rfl (hrole _)
  | accepting =>
    simp only [Nodes.nextAccept] at hs
    split at hs
    · obtain rfl := Option.some.inj hs
      exact hstay _ _ rfl (hrole _)
    · split at hs
      · obtain ⟨s₁, hs₁, rfl⟩ := Option.map_eq_some_iff.mp hs
        exact hstay _ _ (listeners_inC hs₁).1 (hrole _)
      · cases hs
  | register c key =>
    obtain rfl := Option.some.inj hs
    exact hstay _ _ (listeners_congr rfl (Function.update_of_ne hij.symm ..)
      (Function.update_of_ne hij.symm ..) rfl) (hrole _)
  | spawn c l =>
    simp only [Nodes.nextAccept] at hs
    split at hs
    · obtain ⟨s₁, hs₁, rfl⟩ := Option.map_eq_some_iff.mp hs
      unfold Nodes.spawn at hs₁
      split at hs₁
      · rename_i hr
        obtain rfl := Option.some.inj hs₁
        exact hstay _ _ (listeners_enters hr rfl (role_listen hij _)) (hrole _)
      · cases hs₁
    · obtain rfl := Option.some.inj hs
      exact hstay _ _ rfl (hrole _)
  | dropConn c l =>
    obtain ⟨s₁, hs₁, rfl⟩ := Option.map_eq_some_iff.mp hs
    exact hstay _ _ (listeners_inC hs₁).1 (hrole _)
  | deliver e =>
    obtain rfl := Option.some.inj hs
    exact hstay _ _ (listeners_setRecv_ne hij) (hrole _)
  | unwind =>
    obtain rfl := Option.some.inj hs
    exact hstay _ _ (listeners_setRecv_ne hij) rfl

end Nodes

namespace ShowsListeners

open Nodes

variable {s s₁ s' : Nodes} {a : ListenerWorld} {t u r i j l : Nat} {p q : NodePlace} {w : Bool}
  {c : Conn} {env : NodeEnv}

theorem same (h : ShowsListeners (s.listeners i) a) (hs : s'.listeners i = s.listeners i) :
    Step (s'.listeners i) a := .inl (hs ▸ h)

/-! ## The accept thread -/

theorem nextAccept {p : AcceptAt} (h : ShowsListeners (s.listeners i) a) (hp : PhaseInv a)
    (ht : s.thread t = some ⟨.accept i p, w⟩) (hs : s.nextAccept t i env p = some s') :
    Step (s'.listeners i) a := by
  have hself : ∀ p, NodePlace.role i (.accept i p) = p.role := fun p => if_pos rfl
  have hrole : (s.listeners i).role t = p.role := (role_at ht).trans (hself p)
  have hstay : ∀ (s₁ : Nodes) p', s₁.listeners i = s.listeners i → p'.role = p.role →
      Step ((s₁.goto t (.accept i p')).listeners i) a := fun s₁ p' h₁ hp' =>
    h.same (listeners_stays ht h₁ (by rw [hself, hself, hp']))
  -- From a slot, it goes on without a connection.
  have hgives : ∀ (s₁ : Nodes) p', s₁.listeners i = s.listeners i → p.role = .slot →
      p'.role = .top → Step ((s₁.goto t (.accept i p')).listeners i) a := by
    intro s₁ p' h₁ hp₀ hp'
    rw [listeners_goto, h₁, hself, hp']
    exact h.gives (hrole.trans hp₀)
  cases p with
  | decide =>
    simp only [Nodes.nextAccept, Inbound.Receiver.decideAccept] at hs
    split at hs
    · obtain rfl := Option.some.inj hs
      exact hstay _ _ (listeners_setRecv rfl) rfl
    · obtain rfl := Option.some.inj hs
      dsimp only
      rw [if_neg Bool.false_ne_true, listeners_goto, listeners_setRecv_self]
      exact .inl (h.stops (.inl hrole))
  | waitForSlot =>
    have hs' : s' = (s.setTable i (s.table i).mayAccept.2).goto t (.accept i
        (if (s.table i).mayAccept.1 then .pollConnection
         else if env.timedOut then .decide else .slotFreed)) := (Option.some.inj hs).symm
    have hnext : AcceptAt.role (if (s.table i).mayAccept.1 then .pollConnection
        else if env.timedOut then .decide else .slotFreed) =
        if (s.listeners i).table.mayAccept.1 then .slot else .top := by
      show _ = if (s.table i).mayAccept.1 then _ else _
      split
      · rfl
      · split <;> rfl
    rw [hs', listeners_goto, listeners_setTable_self, hself, hnext]
    exact h.waits hrole
  | slotFreed | pollConnection | backoff =>
    obtain rfl := Option.some.inj hs
    exact hstay _ _ rfl rfl
  | isReceiving =>
    simp only [Nodes.nextAccept] at hs
    obtain rfl := Option.some.inj hs
    split
    · exact hstay _ _ rfl rfl
    · exact hgives _ _ rfl rfl rfl
  | acceptConn =>
    simp only [Nodes.nextAccept] at hs
    obtain rfl := Option.some.inj hs
    split
    · exact hgives _ _ rfl rfl rfl
    · split <;> exact hstay _ _ rfl rfl
  | rxLookup =>
    simp only [Nodes.nextAccept] at hs
    split at hs
    · obtain rfl := Option.some.inj hs
      exact hstay _ _ rfl rfl
    · obtain rfl := Option.some.inj hs
      exact hstay _ _ rfl rfl
  | rxCreate =>
    simp only [Nodes.nextAccept] at hs
    split at hs
    · obtain rfl := Option.some.inj hs
      exact hstay _ _ rfl rfl
    · obtain rfl := Option.some.inj hs
      exact hgives _ _ rfl rfl rfl
  | rxRegister k =>
    obtain rfl := Option.some.inj hs
    exact hstay _ _ rfl rfl
  | accepting =>
    simp only [Nodes.nextAccept] at hs
    split at hs
    · obtain rfl := Option.some.inj hs
      exact hgives _ _ rfl rfl rfl
    · rename_i c key _
      split at hs
      · obtain ⟨s₁, hs₁, rfl⟩ := Option.map_eq_some_iff.mp hs
        rw [listeners_goto, (listeners_inC hs₁).1, hself]
        exact h.gets hp hrole
      · cases hs
  | polled res =>
    obtain rfl := Option.some.inj hs
    refine hstay _ _ rfl ?_
    split
    · rfl
    · rfl
    · rename_i e hne
      cases e <;> rfl
  | register c key =>
    obtain rfl := Option.some.inj hs
    rw [listeners_goto, hself]
    have hlist : Nodes.listeners { s.setTable i ((s.table i).register (s.conns i)
          (.new key env.nowMs)) with conns := Function.update s.conns i (s.conns i + 1) } i =
        ⟨(s.listeners i).role, (s.table i).register (s.conns i) (.new key env.nowMs),
          s.conns i + 1, (s.recv i).acceptRunning⟩ := by
      unfold listeners setTable
      simp only [Function.update_self]
    rw [hlist]
    exact h.registers hp hrole
  | spawn c l =>
    simp only [Nodes.nextAccept] at hs
    split at hs
    · rename_i r _
      obtain ⟨s₁, hs₁, rfl⟩ := Option.map_eq_some_iff.mp hs
      unfold Nodes.spawn at hs₁
      split at hs₁
      · rename_i hr
        obtain rfl := Option.some.inj hs₁
        rw [listeners_goto, listeners_goto, hself,
          show NodePlace.role i (.listen i l c .top) = .running l from if_pos rfl]
        exact h.spawns hp hrole (role_none hr)
      · cases hs₁
    · obtain rfl := Option.some.inj hs
      rw [listeners_goto, hself]
      exact h.fails hp hrole
  | supersede l =>
    obtain rfl := Option.some.inj hs
    rw [listeners_goto, listeners_setTable_self, hself]
    exact h.supersedes hrole
  | dropConn c l =>
    obtain ⟨s₁, hs₁, rfl⟩ := Option.map_eq_some_iff.mp hs
    rw [listeners_goto, (listeners_inC hs₁).1, hself]
    exact h.closes (.inl ⟨hrole, rfl⟩)
  | dropRunning l =>
    obtain rfl := Option.some.inj hs
    unfold setListener
    rw [listeners_goto, listeners_setTable_self, hself]
    exact h.drops (.inl ⟨hrole, rfl⟩)
  | deliver e =>
    obtain rfl := Option.some.inj hs
    exact hstay _ _ (listeners_setRecv Inbound.Receiver.acceptRunning_deliver) rfl
  | pause =>
    simp only [Nodes.nextAccept] at hs
    obtain rfl := Option.some.inj hs
    split <;> exact hstay _ _ rfl rfl
  | unwind =>
    obtain rfl := Option.some.inj hs
    rw [listeners_goto, listeners_setRecv_self]
    exact .inl (h.stops (.inl hrole))

/-! ## The listeners -/

/-- A running listener goes on, or to its exit. -/
theorem listening {p p' : ListenAt} (h : ShowsListeners (s.listeners i) a)
    (ht : s.thread t = some ⟨.listen j l c p, w⟩) (hp : p ≠ .closing)
    (hs : s₁.listeners i = s.listeners i) :
    Step ((s₁.goto t (.listen j l c p')).listeners i) a := by
  by_cases hij : j = i
  · subst hij
    have hrun : ∀ q : ListenAt, q ≠ .closing →
        NodePlace.role j (.listen j l c q) = .running l := by
      intro q hq
      cases q with
      | closing => exact absurd rfl hq
      | _ => exact if_pos rfl
    by_cases hp' : p' = .closing
    · subst hp'
      rw [listeners_goto, hs, show NodePlace.role j (.listen j l c .closing) = .dropping l from
        if_pos rfl]
      exact h.exits ((role_at ht).trans (hrun p hp))
    · exact h.same (listeners_stays ht hs ((hrun p' hp').trans (hrun p hp).symm))
  · exact h.same (listeners_stays ht hs ((role_listen hij p').trans (role_listen hij p).symm))

/-- The read of a listener returns. -/
theorem received {res : Except CspclError Bundle} (h : ShowsListeners (s.listeners i) a)
    (ht : s.thread t = some ⟨.listen j l c .reading, w⟩) :
    Step ((s.received t j l c env res).listeners i) a := by
  cases res with
  | ok data =>
    by_cases hij : j = i
    · subst hij
      have hrole : (s.listeners j).role t = .running l := (role_at ht).trans (if_pos rfl)
      have hstep := h.receives env.nowMs hrole
      unfold Nodes.received setListener
      dsimp only
      rw [listeners_goto, listeners_setTable_self,
        show NodePlace.role j (.listen j l c (.deliver _)) = .running l from if_pos rfl]
      dsimp only
      rw [← hrole, Function.update_eq_self]
      exact hstep
    · exact h.same (listeners_stays ht (listeners_setTable hij)
        ((role_listen hij _).trans (role_listen hij _).symm))
  | error e =>
    cases e with
    | timeout => exact h.listening ht nofun rfl
    | _ => exact h.listening ht nofun rfl

theorem nextListen {p : ListenAt} (h : ShowsListeners (s.listeners i) a)
    (ht : s.thread t = some ⟨.listen j l c p, w⟩) (hs : s.nextListen t j l c env p = some s') :
    Step (s'.listeners i) a := by
  cases p with
  | top | stopped =>
    obtain rfl := Option.some.inj hs
    exact h.listening ht (by simp) rfl
  | evicted =>
    simp only [Nodes.nextListen] at hs
    split at hs
    · obtain rfl := Option.some.inj hs
      exact h.listening ht (by simp) rfl
    · obtain ⟨s₁, hs₁, rfl⟩ := Option.map_eq_some_iff.mp hs
      exact h.listening ht (by simp) (listeners_inC hs₁).1
  | reading =>
    simp only [Nodes.nextListen] at hs
    split at hs
    · obtain ⟨s₁, hs₁, rfl⟩ := Option.map_eq_some_iff.mp hs
      obtain ⟨hlist, hthread⟩ := listeners_inC (i := i) hs₁
      cases s.recvResult t env.c with
      | none => exact h.same hlist
      | some res =>
        have h₁ : ShowsListeners (s₁.listeners i) a := hlist ▸ h
        exact h₁.received ((congrFun hthread t).trans ht)
    · cases hs
  | deliver item =>
    obtain rfl := Option.some.inj hs
    exact h.listening ht (by simp) (listeners_setRecv Inbound.Receiver.acceptRunning_deliver)
  | closing =>
    obtain ⟨s₁, hs₁, rfl⟩ := Option.map_eq_some_iff.mp hs
    have hlist := (listeners_inC (i := i) hs₁).1
    by_cases hij : j = i
    · subst hij
      rw [listeners_goto, hlist,
        show NodePlace.role j (.release j (some l)) = .closed l from if_pos rfl]
      exact h.closes (.inr ⟨(role_at ht).trans (if_pos rfl), rfl⟩)
    · exact h.same (listeners_stays ht hlist
        ((show NodePlace.role i (.release j (some l)) = .away from if_neg hij).trans
          (role_listen hij _).symm))

theorem finish (h : ShowsListeners (s.listeners i) a)
    (ht : s.thread t = some ⟨.finish j l, w⟩) :
    Step (((s.setListener j l { (s.table j).state l with running := false }).exit t).listeners i)
      a := by
  by_cases hij : j = i
  · subst hij
    unfold setListener
    rw [listeners_exit, listeners_setTable_self]
    exact h.drops (.inr ⟨(role_at ht).trans (if_pos rfl), rfl⟩)
  · exact h.same (listeners_ends ht (listeners_setTable hij) (if_neg hij))

/-! ## The other places -/

theorem nextSend {bundle : Bundle} {addr port : UInt8} {p : SendAt}
    (h : ShowsListeners (s.listeners i) a) (ht : s.thread t = some ⟨.send j bundle addr port p, w⟩)
    (hs : s.nextSend t j bundle addr port env p = some s') : Step (s'.listeners i) a := by
  cases p with
  | turn =>
    simp only [Nodes.nextSend] at hs
    split at hs
    · obtain rfl := Option.some.inj hs
      exact h.same (listeners_stays ht rfl rfl)
    · obtain ⟨s₁, hs₁, rfl⟩ := Option.map_eq_some_iff.mp hs
      exact h.same (listeners_stays ht (listeners_inC hs₁).1 rfl)
  | inC =>
    simp only [Nodes.nextSend] at hs
    split at hs
    · obtain ⟨s₁, hs₁, rfl⟩ := Option.map_eq_some_iff.mp hs
      split
      · exact h.same (listeners_stays ht (listeners_inC hs₁).1 rfl)
      · exact h.same (listeners_inC hs₁).1
    · cases hs
  | leaving =>
    obtain rfl := Option.some.inj hs
    exact h.same (listeners_stays ht rfl rfl)

theorem nextOpen {p : OpenAt} (h : ShowsListeners (s.listeners i) a)
    (ht : s.thread t = some ⟨.open j p, w⟩) (hs : s.nextOpen t j env p = some s') :
    Step (s'.listeners i) a := by
  have hopened : ∀ s₁ : Nodes, (s₁.opened t j).listeners i =
      { s₁.listeners i with role := Function.update (s₁.listeners i).role t .away } := fun s₁ => by
    unfold opened
    rw [listeners_exit]
    rfl
  -- An instance apart.
  have hapart : ∀ s₁ : Nodes, s₁.listeners i = s.listeners i →
      NodePlace.role i (.open j p) = .away →
      Step ((s₁.opened t j).listeners i) a := by
    intro s₁ h₁ hp
    refine h.same ?_
    rw [hopened, h₁, ← hp, ← role_at ht, Function.update_eq_self]
  cases p with
  | subscribe =>
    simp only [Nodes.nextOpen] at hs
    split at hs
    · obtain rfl := Option.some.inj hs
      exact h.same (listeners_stays ht rfl rfl)
    · have hsub : (s.recv j).subscribe.2.1 = !(s.recv j).acceptRunning := by
        rw [Inbound.Receiver.subscribe_spec]
      obtain rfl := Option.some.inj hs
      rw [hsub]
      cases hrun : (s.recv j).acceptRunning with
      | true =>
        refine hapart _ (listeners_setRecv ?_) rfl
        rw [Inbound.Receiver.acceptRunning_subscribe, hrun]
      | false =>
        by_cases hij : j = i
        · subst hij
          rw [Bool.not_false, if_pos rfl, listeners_goto, listeners_setRecv_self,
            Inbound.Receiver.acceptRunning_subscribe,
            show NodePlace.role j (.open j (.spawn _)) = .opens from if_pos rfl]
          exact .inl (h.claims hrun)
        · exact h.same (listeners_stays ht (listeners_setRecv_ne hij) (if_neg hij))
  | closing =>
    obtain rfl := Option.some.inj hs
    exact h.same (listeners_stays ht rfl rfl)
  | spawn n =>
    simp only [Nodes.nextOpen] at hs
    split at hs
    · rename_i r _
      obtain ⟨s₁, hs₁, rfl⟩ := Option.map_eq_some_iff.mp hs
      unfold Nodes.spawn at hs₁
      split at hs₁
      · rename_i hr
        obtain rfl := Option.some.inj hs₁
        by_cases hij : j = i
        · subst hij
          rw [hopened, listeners_goto,
            show NodePlace.role j (.accept j .decide) = .top from if_pos rfl]
          exact .inl (h.starts ((role_at ht).trans (if_pos rfl)) (role_none hr))
        · exact hapart _ (listeners_enters hr rfl (role_accept hij _)) (if_neg hij)
      · cases hs₁
    · obtain rfl := Option.some.inj hs
      exact h.same (listeners_stays ht rfl rfl)
  | acceptFailed n =>
    obtain rfl := Option.some.inj hs
    by_cases hij : j = i
    · subst hij
      rw [hopened, listeners_setRecv_self, Inbound.Receiver.acceptRunning_setChan,
        Inbound.Receiver.acceptRunning_acceptFailed]
      exact .inl (h.stops (.inr ((role_at ht).trans (if_pos rfl))))
    · exact hapart _ (listeners_setRecv_ne hij) (if_neg hij)

theorem release {o : Option Nat} {q : NodePlace} (h : ShowsListeners (s.listeners i) a)
    (ht : s.thread t = some ⟨q, w⟩) (hq : q.role i = NodePlace.role i (.release j o))
    (hs : s₁.listeners i = s.listeners i) : Step ((s₁.afterRelease t j o).listeners i) a := by
  cases o with
  | none => exact h.same (listeners_ends ht hs hq)
  | some l => exact h.same (listeners_stays ht hs hq.symm)

theorem next {q : NodePlace} (h : ShowsListeners (s.listeners i) a) (hp : PhaseInv a)
    (ht : s.thread t = some ⟨q, w⟩) (hs : s.next t env q = some s') : Step (s'.listeners i) a := by
  cases q with
  | send j bundle addr port p => exact h.nextSend ht hs
  | accept j p =>
    by_cases hij : j = i
    · subst hij
      exact h.nextAccept hp ht hs
    · exact h.same (nextAccept_apart hij ht hs)
  | listen j l c p => exact h.nextListen ht hs
  | close j p =>
    obtain rfl := Option.some.inj hs
    cases p with
    | begin => exact h.same (listeners_stays ht (listeners_setRecv rfl) rfl)
    | socket => exact h.same (listeners_stays ht rfl rfl)
    | guardDrop => exact h.same (listeners_stays ht (listeners_setRecv rfl) rfl)
  | «open» j p => exact h.nextOpen ht hs
  | unsubscribe j id =>
    obtain rfl := Option.some.inj hs
    exact h.same (listeners_stays ht
      (listeners_setRecv Inbound.Receiver.acceptRunning_unsubscribe) rfl)
  | init p =>
    obtain rfl := Option.some.inj hs
    exact h.same (listeners_ends ht rfl rfl)
  | release j o =>
    simp only [Nodes.next] at hs
    obtain rfl := Option.some.inj hs
    split
    · refine h.same (listeners_stays ht rfl ?_)
      cases o <;> rfl
    · exact h.release ht rfl rfl
  | cleanup j o =>
    obtain rfl := Option.some.inj hs
    refine h.release ht ?_ rfl
    cases o <;> rfl
  | finish j l =>
    obtain rfl := Option.some.inj hs
    exact h.finish ht

theorem begin {k : NodeCall} (h : ShowsListeners (s.listeners i) a) (ht : s.thread t = none) :
    Step ((s.begin t j k).listeners i) a := by
  cases k with
  | sendBundle bundle addr port =>
    simp only [Nodes.begin]
    split
    · exact .inl h
    · exact h.same (listeners_enters ht rfl rfl)
  | _ => exact h.same (listeners_enters ht rfl rfl)

theorem step {op : NodesOp} (h : ShowsListeners (s.listeners i) a) (hp : PhaseInv a)
    (hs : s.step op = some s') : Step (s'.listeners i) a := by
  cases op with
  | call t j k =>
    simp only [Nodes.step] at hs
    split at hs
    · rename_i hcond
      obtain rfl := Option.some.inj hs
      exact h.begin hcond.1
    · cases hs
  | init t n =>
    simp only [Nodes.step] at hs
    split at hs
    · rename_i ht
      obtain rfl := Option.some.inj hs
      exact h.same (listeners_enters ht rfl rfl)
    · cases hs
  | lock t ok =>
    simp only [Nodes.step] at hs
    split at hs
    · rename_i th m ht hm
      split at hs
      · cases hs
      split at hs
      · rename_i hc
        obtain ⟨j, bundle, addr, port, rfl⟩ := inC_of_wants ht hm hc
        obtain ⟨s₁, hs₁, rfl⟩ := Option.map_eq_some_iff.mp hs
        dsimp only
        split
        · exact h.same (listeners_stays ht (listeners_inC hs₁).1 rfl)
        · exact h.same (listeners_inC hs₁).1
      · obtain rfl := Option.some.inj hs
        have hrole : (Nodes.listeners { s with
              thread := Function.update s.thread t (some { th with waiting := false })
              locks := Function.update s.locks m (some t) } i).role = (s.listeners i).role := by
          funext u
          by_cases hu : u = t
          · simp [listeners_role, hu, ht]
          · simp [listeners_role, hu]
        refine h.same ?_
        unfold listeners at hrole ⊢
        simp only [Listeners.mk.injEq, and_self, and_true]
        exact hrole
    · cases hs
  | run t env =>
    simp only [Nodes.step] at hs
    split at hs
    · rename_i th ht hm
      exact h.next hp ht hs
    · cases hs
  | panic t =>
    simp only [Nodes.step] at hs
    split at hs
    · rename_i j p w ht
      split at hs
      all_goals cases hs
      rename_i h₁ h₂ h₃ h₄ h₅ h₆ h₇
      by_cases hij : j = i
      · subst hij
        have hself : ∀ p, NodePlace.role j (.accept j p) = p.role := fun p => if_pos rfl
        -- It has no connection at these places.
        have hrole : p.role = .top ∨ p.role = .slot := by
          cases p with
          | polled res => exact absurd rfl (h₁ res)
          | register c key => exact absurd rfl (h₂ c key)
          | spawn c l => exact absurd rfl (h₃ c l)
          | supersede l => exact absurd rfl (h₄ l)
          | dropConn c l => exact absurd rfl (h₅ c l)
          | dropRunning l => exact absurd rfl (h₆ l)
          | unwind => exact absurd rfl h₇
          | decide | waitForSlot | slotFreed | deliver e | pause | backoff => exact .inl rfl
          | _ => exact .inr rfl
        rcases hrole with hp' | hp'
        · exact h.same (listeners_stays ht rfl (by rw [hself, hself, hp']; rfl))
        · rw [listeners_goto, hself]
          exact h.gives ((role_at ht).trans ((hself p).trans hp'))
      · exact h.same (listeners_stays ht rfl
          ((role_accept hij _).trans (role_accept hij _).symm))
    · rename_i j l c p w ht
      split at hs
      all_goals cases hs
      rename_i h₁ h₂
      exact h.listening ht h₂ rfl
    · cases hs
  | cloneCspcl j =>
    simp only [Nodes.step] at hs
    split at hs
    · obtain rfl := Option.some.inj hs
      exact h.same (listeners_congr rfl rfl rfl rfl)
    · cases hs
  | poll j id =>
    obtain rfl := Option.some.inj hs
    exact h.same (listeners_setRecv rfl)
  | loseFrag c n | loseAck c n => exact h.same (listeners_inC hs).1

end ShowsListeners

/-- Each instance's listeners refine the abstract ones. -/
theorem listeners_refine (i : Nat) :
    nodesSys.Simulation listenerSys fun s a => ShowsListeners (s.listeners i) a where
  init s hs := by
    obtain ⟨proc, inst, maxAgeEnv, globals, now, -, rfl⟩ := hs
    exact ⟨.new, rfl, rfl, rfl, nofun, fun _ => rfl, ⟨nofun, fun ⟨t, ht⟩ => by cases ht⟩, nofun,
      nofun, nofun⟩
  step s op s' a ha h hs := h.step (tableInv_inductive.reach ha).1 hs

/-! ## The open connections -/

namespace ShowsListeners

variable {v : Listeners} {a : ListenerWorld} {t u l : Nat}

theorem phase_of_holds (h : ShowsListeners v a) (hp : PhaseInv a)
    (ht : (v.role t).holds v.conns = some l) :
    (v.role t).active = true ∧ (a.phase l = .accepted ∨ a.phase l = .registered) ∨
      ∃ ph, (v.role t).own = some (l, ph) ∧ (ph = .running ∨ ph = .dropping) := by
  cases hr : v.role t with
  | accepted key =>
    rw [hr] at ht
    obtain rfl := Option.some.inj ht
    have hacc : a.accept = .accepted v.conns key := h.accept_at hr rfl
    exact .inl ⟨rfl, .inl ((hp.accepted_iff _).mpr (by rw [hacc]; rfl))⟩
  | registered k =>
    rw [hr] at ht
    obtain rfl := Option.some.inj ht
    exact .inl ⟨rfl, .inr ((hp.registered_iff _).mpr (h.accept_at hr rfl))⟩
  | drops k | dropping k =>
    rw [hr] at ht
    obtain rfl := Option.some.inj ht
    exact .inr ⟨_, rfl, .inr rfl⟩
  | running k =>
    rw [hr] at ht
    obtain rfl := Option.some.inj ht
    exact .inr ⟨_, rfl, .inl rfl⟩
  | _ =>
    rw [hr] at ht
    cases ht

/-- The connection of a thread is open. -/
theorem mem_openConns (h : ShowsListeners v a) (hp : PhaseInv a)
    (ht : (v.role t).holds v.conns = some l) : l ∈ a.openConns := by
  have hopen : (a.phase l).isOpen = true := by
    rcases h.phase_of_holds hp ht with ⟨-, hph | hph⟩ | ⟨ph, hown, hph | hph⟩
    · rw [hph]
      rfl
    · rw [hph]
      rfl
    · rw [h.owns.phase t l ph hown, hph]
      rfl
    · rw [h.owns.phase t l ph hown, hph]
      rfl
  refine List.mem_filter.mpr ⟨List.mem_range.mpr ?_, hopen⟩
  by_contra hl
  rw [(hp.absent_iff l).mpr (not_lt.mp hl)] at hopen
  cases hopen

/-- Two threads have different ones. -/
theorem holds_unique (h : ShowsListeners v a) (hp : PhaseInv a)
    (ht : (v.role t).holds v.conns = some l) (hu : (v.role u).holds v.conns = some l) : t = u := by
  rcases h.phase_of_holds hp ht with ⟨hact, hph⟩ | ⟨ph, hown, hph⟩
  · rcases h.phase_of_holds hp hu with ⟨hact', -⟩ | ⟨ph', hown', hph'⟩
    · exact h.unique t u hact hact'
    · rw [h.owns.phase u l ph' hown'] at hph
      rcases hph' with rfl | rfl <;> rcases hph with hph | hph <;> cases hph
  · rcases h.phase_of_holds hp hu with ⟨-, hph'⟩ | ⟨ph', hown', -⟩
    · rw [h.owns.phase t l ph hown] at hph'
      rcases hph with rfl | rfl <;> rcases hph' with hph' | hph' <;> cases hph'
    · exact h.owns.one t u l ph ph' hown hown'

end ShowsListeners

namespace Nodes

variable {s : Nodes} {t i : Nat} {c : Conn}

/-- A thread with a connection of the instance has an open one there. -/
theorem holds_of_conn (h : s.conn t = some (i, c)) :
    ∃ l, ((s.listeners i).role t).holds (s.conns i) = some l := by
  rw [listeners_role]
  unfold conn at h
  cases ht : s.thread t with
  | none =>
    rw [ht] at h
    cases h
  | some th =>
    rw [ht] at h
    obtain ⟨q, w⟩ := th
    simp only [Option.bind_some] at h ⊢
    unfold NodePlace.conn at h
    split at h
    · split at h
      all_goals cases h
      all_goals simp [NodePlace.role, AcceptAt.role, ListenerRole.holds]
    · rename_i p
      cases h
      cases p <;> simp [NodePlace.role, ListenerRole.holds]
    · cases h

/-- A connection in the pool of the instance. -/
def Pooled (s : Nodes) (i : Nat) (c : Conn) : Prop :=
  ∃ k, ((s.d.tx.pool i).entries k).conn = some c

/-- The connections of the instance, and what its table of listeners says of them. -/
structure Covered (s : Nodes) (i : Nat) : Prop where
  inbound : ∀ cs : Finset Conn, (∀ c ∈ cs, ∃ t, s.conn t = some (i, c)) →
    cs.card ≤ Inbound.maxInboundConns + Inbound.maxExtraInboundConns
  /-- With those of the pool they are fewer than libcsp is configured for. -/
  total : ∀ cs : Finset Conn, (∀ c ∈ cs, s.Pooled i c ∨ ∃ t, s.conn t = some (i, c)) →
    cs.card + 2 ≤ (s.inst i).cspConf.connMax
  /-- Unless a new one is being registered, few listeners are kept, with different keys. -/
  kept : (∀ t, ((s.listeners i).role t).registering = false) →
    (s.table i).keptLive.length ≤ Inbound.maxInboundConns ∧
      ∀ l ∈ (s.table i).keptLive, ∀ m ∈ (s.table i).keptLive,
        ((s.table i).state l).key = ((s.table i).state m).key → l = m
  /-- The table counts each connection that was registered. -/
  counted : ∀ t l c p w, s.thread t = some ⟨.listen i l c p, w⟩ → l ∈ (s.table i).live

theorem card_pooled (cs : Finset Conn) (h : ∀ c ∈ cs, s.Pooled i c) : cs.card ≤ connPoolSize := by
  have hsub : cs ⊆ Finset.univ.image fun k => (((s.d.tx.pool i).entries k).conn).getD 0 := by
    intro c hc
    obtain ⟨k, hk⟩ := h c hc
    exact Finset.mem_image.mpr ⟨k, Finset.mem_univ _, by rw [hk]; rfl⟩
  refine (Finset.card_le_card hsub).trans (Finset.card_image_le.trans ?_)
  simp

end Nodes

open Nodes in
/-- In every reachable state, for every instance. -/
theorem conns_covered {s : Nodes} (hs : nodesSys.Reach s) (i : Nat) : s.Covered i := by
  obtain ⟨a, ha, h⟩ := (listeners_refine i).reach hs
  have hp := (tableInv_inductive.reach ha).1
  have hbound := Inbound.inbound_bound ha
  have hinbound : ∀ cs : Finset Conn, (∀ c ∈ cs, ∃ t, s.conn t = some (i, c)) →
      cs.card ≤ Inbound.maxInboundConns + Inbound.maxExtraInboundConns := by
    intro cs hcs
    have hex : ∀ c ∈ cs, ∃ t l, s.conn t = some (i, c) ∧
        ((s.listeners i).role t).holds (s.conns i) = some l := fun c hc => by
      obtain ⟨t, ht⟩ := hcs c hc
      obtain ⟨l, hl⟩ := holds_of_conn ht
      exact ⟨t, l, ht, hl⟩
    choose! thread listener hconn hholds using hex
    -- Each connection has a thread and a listener of its own.
    have hinj : Set.InjOn listener cs := fun c hc d hd hcd => by
      have ht := h.holds_unique hp (hholds c hc) (hcd ▸ hholds d hd)
      have hcc := hconn c hc
      rw [ht, hconn d hd] at hcc
      cases hcc
      rfl
    have hmaps : Set.MapsTo listener cs a.openConns.toFinset := fun c hc =>
      Finset.mem_coe.mpr (List.mem_toFinset.mpr (h.mem_openConns hp (hholds c hc)))
    calc cs.card
      _ ≤ a.openConns.toFinset.card := Finset.card_le_card_of_injOn listener hmaps hinj
      _ ≤ a.openConns.length := List.toFinset_card_le _
      _ ≤ _ := hbound.open_le
  refine ⟨hinbound, fun cs hcs => ?_, fun hno => ?_, fun t l c p w ht => ?_⟩
  · classical
    have hpool := card_pooled (cs.filter (s.Pooled i))
      fun c hc => (Finset.mem_filter.mp hc).2
    have hin := hinbound (cs.filter fun c => ¬ s.Pooled i c) fun c hc =>
      (hcs c (Finset.mem_filter.mp hc).1).resolve_left (Finset.mem_filter.mp hc).2
    have hsum := Finset.card_filter_add_card_filter_not (s := cs) (s.Pooled i)
    simp only [Inbound.maxInboundConns, Inbound.maxExtraInboundConns] at hin
    show cs.card + 2 ≤ connPoolSize + rxConnTableSize + 4
    omega
  · have hreg : a.accept.registering = none := by
      by_cases hall : ∀ t, ((s.listeners i).role t).active = false
      · rw [h.idle hall]
        rfl
      · simp only [not_forall, Bool.not_eq_false] at hall
        obtain ⟨t, ht⟩ := hall
        have := hno t
        rw [h.accept t ht]
        cases hr : (s.listeners i).role t <;> rw [hr] at this <;> first | rfl | cases this
    rw [show s.table i = a.table from h.table]
    exact ⟨hbound.kept_le hreg, hbound.kept_key hreg⟩
  · have hown : ∃ ph, ((s.listeners i).role t).own = some (l, ph) ∧ ph.counted = true := by
      rw [role_at ht]
      cases p <;> simp [NodePlace.role, ListenerRole.own, Inbound.ConnPhase.counted]
    obtain ⟨ph, hown, hph⟩ := hown
    rw [show s.table i = a.table from h.table, hbound.live_iff, h.owns.phase t l ph hown]
    exact hph

open Nodes Crossing in
/-- Node `1` has the connection of node `0`, and one in its pool. -/
theorem conns_covered_crossing : ∃ s, nodesSys.exec start run = some s ∧
    s.conn 12 = some (1, 0) ∧ s.Pooled 1 1 ∧ s.Covered 1 := by
  have h : (nodesSys.exec start run).map
      (fun s => (s.conn 12, ((s.d.tx.pool 1).entries 0).conn)) = some (some (1, 0), some 1) := by
    decide +kernel
  obtain ⟨s, hs, hv⟩ := Option.map_eq_some_iff.mp h
  simp only [Prod.mk.injEq] at hv
  exact ⟨s, hs, hv.1, ⟨0, hv.2⟩,
    conns_covered (.of_exec ⟨_, _, _, _, _, fun _ => rfl, rfl⟩ hs) 1⟩

end Cspcl
