import Cspcl.Nodes.Refine

/-!
# Who uses what the C library owns

`Cspcl` gives its C instance to any number of threads, and connections to listeners. Nothing is used
after it was closed or cleaned up, and nothing is closed twice.

* `Life`: what a step does to the references to an instance, and to the instance itself.
* `Alive`: an instance that was cleaned up is known to nobody.
* `Nodes.Owned`, `nodes_owned`: every open connection has one owner, which alone reads and closes
  it, and the owner's instance lives; the cleanup of an instance is the last that is done with it.
-/

namespace Cspcl

namespace Nodes

variable {s s₁ s' : Nodes} {t u i j l : Nat} {c : Conn} {p q : NodePlace} {env : NodeEnv} {w : Bool}

/-- What a step of thread `t` at `q` does to the instances. -/
structure Life (s s' : Nodes) (t : Nat) (q : NodePlace) : Prop where
  /-- It changes the references to its own instance only. -/
  refs : ∀ j, q.ref ≠ some j → s'.refs j = s.refs j ∧ s'.owners j = s.owners j
  /-- Only the cleanup ends an instance. -/
  inst : ∀ j, (∀ o, q ≠ .cleanup j o) → (s'.inst j).initialized = (s.inst j).initialized
  /-- Another thread is not sent to a cleanup. -/
  others : ∀ u j o w, u ≠ t → s'.thread u = some ⟨.cleanup j o, w⟩ →
    s.thread u = some ⟨.cleanup j o, w⟩
  /-- It gets to a cleanup when it drops its reference. -/
  self : ∀ j o w, s'.thread t = some ⟨.cleanup j o, w⟩ → q.ref = some j

/-- A part of a step, before its thread moves. -/
structure LifePart (s s₁ : Nodes) (q : NodePlace) : Prop where
  thread : s₁.thread = s.thread
  refs : ∀ j, q.ref ≠ some j → s₁.refs j = s.refs j ∧ s₁.owners j = s.owners j
  inst : ∀ j, (∀ o, q ≠ .cleanup j o) → (s₁.inst j).initialized = (s.inst j).initialized

theorem LifePart.of_eq (ht : s₁.thread = s.thread) (hr : s₁.refs = s.refs)
    (ho : s₁.owners = s.owners) (hi : s₁.inst = s.inst) : s.LifePart s₁ q :=
  ⟨ht, fun j _ => by rw [hr, ho]; exact ⟨rfl, rfl⟩, fun j _ => by rw [hi]⟩

theorem LifePart.refl (s : Nodes) : s.LifePart s q := .of_eq rfl rfl rfl rfl

/-- The receive socket is opened or closed. -/
theorem LifePart.setInst {x : Instance} (hx : x.initialized = (s.inst i).initialized) :
    s.LifePart (s.setInst i x) q := by
  refine ⟨rfl, fun _ _ => ⟨rfl, rfl⟩, fun j _ => ?_⟩
  simp only [Nodes.setInst, Function.update_apply]
  split
  · rename_i hj
    rw [hj, hx]
  · rfl

theorem LifePart.dropRef (hq : q.ref = some i) : s.LifePart (s.dropRef t i) q := by
  refine ⟨rfl, fun j hj => ⟨?_, rfl⟩, fun _ _ => rfl⟩
  refine Function.update_of_ne ?_ ..
  rintro rfl
  exact hj hq

theorem LifePart.goto (h : s.LifePart s₁ q) (hp : ∀ j o, p ≠ .cleanup j o) :
    s.Life (s₁.goto t p) t q where
  refs := h.refs
  inst := h.inst
  others u j o w hu hc := by
    rw [← h.thread]
    exact (Function.update_of_ne hu ..).symm.trans hc
  self j o w hc := by
    have hself : (s₁.goto t p).thread t = some ⟨p, (p.mutex s₁.proc).isSome⟩ :=
      Function.update_self ..
    rw [hself, Option.some.injEq, NodeThread.mk.injEq] at hc
    exact absurd hc.1 (hp j o)

theorem LifePart.exit (h : s.LifePart s₁ q) : s.Life (s₁.exit t) t q where
  refs := h.refs
  inst := h.inst
  others u j o w hu hc := by
    rw [← h.thread]
    exact (Function.update_of_ne hu ..).symm.trans hc
  self j o w hc := by
    have hself : (s₁.exit t).thread t = none := Function.update_self ..
    rw [hself] at hc
    cases hc

/-- A step in C that does not move its thread. -/
theorem LifePart.stay (h : s.LifePart s₁ q) (ht : s.thread t = some ⟨q, w⟩)
    (hq : ∀ j o, q ≠ .cleanup j o) : s.Life s₁ t q where
  refs := h.refs
  inst := h.inst
  others u j o w _ hc := by
    rw [← h.thread]
    exact hc
  self j o w hc := by
    rw [h.thread, ht, Option.some.injEq, NodeThread.mk.injEq] at hc
    exact absurd hc.1 (hq j o)

theorem LifePart.afterRelease {o : Option Nat} (h : s.LifePart s₁ q) :
    s.Life (s₁.afterRelease t i o) t q := by
  cases o with
  | none => exact h.exit
  | some l => exact h.goto nofun

/-- It starts a thread for its instance, and goes on. -/
theorem Life.spawn {r : Nat} {p' : NodePlace} {f : Nodes → Nodes}
    (hs : (s.spawn r i p').map f = some s') (ht : s.thread t = some ⟨q, w⟩)
    (hq : q.ref = some i) (hp' : ∀ j o, p' ≠ .cleanup j o)
    (hf : ∀ s₁ : Nodes, s₁.thread t = some ⟨q, w⟩ → s₁.Life (f s₁) t q) : s.Life s' t q := by
  obtain ⟨s₁, hs₁, rfl⟩ := Option.map_eq_some_iff.mp hs
  unfold Nodes.spawn at hs₁
  split at hs₁
  · rename_i hr
    obtain rfl := Option.some.inj hs₁
    have htr : t ≠ r := by
      rintro rfl
      rw [hr] at ht
      cases ht
    have h := hf ((s.addRef r i).goto r p') ((Function.update_of_ne htr ..).trans ht)
    refine ⟨fun j hj => ?_, h.inst, fun u j o w' hu hc => ?_, h.self⟩
    · refine ⟨(h.refs j hj).1.trans (Function.update_of_ne ?_ ..), (h.refs j hj).2⟩
      rintro rfl
      exact hj hq
    · have hold := h.others u j o w' hu hc
      by_cases hur : u = r
      · subst hur
        have hself : ((s.addRef u i).goto u p').thread u = some ⟨p', (p'.mutex s.proc).isSome⟩ :=
          Function.update_self ..
        rw [hself, Option.some.injEq, NodeThread.mk.injEq] at hold
        exact absurd hold.1 (hp' j o)
      · exact (Function.update_of_ne hur ..).symm.trans hold
  · cases hs₁

theorem Life.inC {op : DeliveryOp} {f : Nodes → Nodes} (hs : (s.inC op).map f = some s')
    (hf : ∀ d, s.Life (f { s with d }) t q) : s.Life s' t q := by
  obtain ⟨s₁, hs₁, rfl⟩ := Option.map_eq_some_iff.mp hs
  obtain ⟨d, -, rfl⟩ := Option.map_eq_some_iff.mp hs₁
  exact hf d

theorem nextAccept_life {p : AcceptAt} (ht : s.thread t = some ⟨.accept i p, w⟩)
    (hs : s.nextAccept t i env p = some s') : s.Life s' t (.accept i p) := by
  cases p with
  | decide =>
    obtain rfl := Option.some.inj hs
    refine LifePart.goto (.of_eq rfl rfl rfl rfl) ?_
    split <;> simp
  | rxLookup | rxCreate =>
    simp only [nextAccept] at hs
    split at hs
    · obtain rfl := Option.some.inj hs
      exact LifePart.goto (.setInst rfl) (by simp)
    · obtain rfl := Option.some.inj hs
      exact LifePart.goto (.refl s) (by simp)
  | accepting =>
    simp only [nextAccept] at hs
    split at hs
    · obtain rfl := Option.some.inj hs
      exact LifePart.goto (.refl s) (by simp)
    · split at hs
      · exact Life.inC hs fun d => LifePart.goto (.of_eq rfl rfl rfl rfl) (by simp)
      · cases hs
  | spawn c l =>
    simp only [nextAccept] at hs
    split at hs
    · exact Life.spawn hs ht rfl (by simp) fun s₁ _ => LifePart.goto (.refl s₁) (by simp)
    · obtain rfl := Option.some.inj hs
      exact LifePart.goto (.refl s) (by simp)
  | dropConn c l => exact Life.inC hs fun d => LifePart.goto (.of_eq rfl rfl rfl rfl) (by simp)
  | _ =>
    obtain rfl := Option.some.inj hs
    exact LifePart.goto (.of_eq rfl rfl rfl rfl) (by simp)

theorem nextListen_life {p : ListenAt} (ht : s.thread t = some ⟨.listen i l c p, w⟩)
    (hs : s.nextListen t i l c env p = some s') : s.Life s' t (.listen i l c p) := by
  cases p with
  | evicted =>
    simp only [nextListen] at hs
    split at hs
    · obtain rfl := Option.some.inj hs
      exact LifePart.goto (.refl s) (by simp)
    · exact Life.inC hs fun d => LifePart.goto (.of_eq rfl rfl rfl rfl) (by simp)
  | reading =>
    simp only [nextListen] at hs
    split at hs
    · refine Life.inC hs fun d => ?_
      split
      · unfold received
        split
        · exact LifePart.goto (.of_eq rfl rfl rfl rfl) (by simp)
        · exact LifePart.goto (.of_eq rfl rfl rfl rfl) (by simp)
        · exact LifePart.goto (.of_eq rfl rfl rfl rfl) (by simp)
      · exact LifePart.stay (.of_eq rfl rfl rfl rfl) ht (by simp)
    · cases hs
  | closing => exact Life.inC hs fun d => LifePart.goto (.of_eq rfl rfl rfl rfl) (by simp)
  | _ =>
    obtain rfl := Option.some.inj hs
    exact LifePart.goto (.of_eq rfl rfl rfl rfl) (by simp)

theorem nextSend_life {p : SendAt} {bundle : Bundle} {addr port : UInt8}
    (ht : s.thread t = some ⟨.send i bundle addr port p, w⟩)
    (hs : s.nextSend t i bundle addr port env p = some s') :
    s.Life s' t (.send i bundle addr port p) := by
  cases p with
  | turn =>
    simp only [nextSend] at hs
    split at hs
    · obtain rfl := Option.some.inj hs
      exact LifePart.goto (.refl s) (by simp)
    · exact Life.inC hs fun d => LifePart.goto (.of_eq rfl rfl rfl rfl) (by simp)
  | inC =>
    simp only [nextSend] at hs
    split at hs
    · refine Life.inC hs fun d => ?_
      split
      · exact LifePart.goto (.of_eq rfl rfl rfl rfl) (by simp)
      · exact LifePart.stay (.of_eq rfl rfl rfl rfl) ht (by simp)
    · cases hs
  | leaving =>
    obtain rfl := Option.some.inj hs
    exact LifePart.goto (.refl s) (by simp)

/-- A stream takes over the reference of the thread that opened it. -/
theorem life_opened (hq : q.ref = some i) (h : s.LifePart s₁ q) :
    s.Life (s₁.opened t i) t q := by
  refine LifePart.exit ⟨h.thread, fun j hj => ?_, h.inst⟩
  have hji : j ≠ i := by
    rintro rfl
    exact hj hq
  simp only [setOwners, dropRef, Function.update_of_ne hji]
  exact h.refs j hj

theorem nextOpen_life {p : OpenAt} (ht : s.thread t = some ⟨.open i p, w⟩)
    (hs : s.nextOpen t i env p = some s') : s.Life s' t (.open i p) := by
  cases p with
  | subscribe =>
    simp only [nextOpen] at hs
    split at hs
    · obtain rfl := Option.some.inj hs
      exact LifePart.goto (.refl s) (by simp)
    · obtain rfl := Option.some.inj hs
      split
      · exact LifePart.goto (.of_eq rfl rfl rfl rfl) (by simp)
      · exact life_opened rfl (.of_eq rfl rfl rfl rfl)
  | closing =>
    obtain rfl := Option.some.inj hs
    exact LifePart.goto (.refl s) (by simp)
  | spawn n =>
    simp only [nextOpen] at hs
    split at hs
    · exact Life.spawn hs ht rfl (by simp) fun s₁ _ => life_opened rfl (.refl s₁)
    · obtain rfl := Option.some.inj hs
      exact LifePart.goto (.refl s) (by simp)
  | acceptFailed n =>
    obtain rfl := Option.some.inj hs
    exact life_opened rfl (.of_eq rfl rfl rfl rfl)

theorem next_life (ht : s.thread t = some ⟨q, w⟩) (hs : s.next t env q = some s') :
    s.Life s' t q := by
  cases q with
  | send i bundle addr port p => exact nextSend_life ht hs
  | accept i p => exact nextAccept_life ht hs
  | listen i l c p => exact nextListen_life ht hs
  | close i p =>
    obtain rfl := Option.some.inj hs
    cases p with
    | socket => exact LifePart.goto (.setInst rfl) nofun
    | _ => exact LifePart.goto (.of_eq rfl rfl rfl rfl) nofun
  | «open» i p => exact nextOpen_life ht hs
  | unsubscribe i id =>
    obtain rfl := Option.some.inj hs
    exact LifePart.goto (.of_eq rfl rfl rfl rfl) nofun
  | init p =>
    obtain rfl := Option.some.inj hs
    exact LifePart.exit (.of_eq rfl rfl rfl rfl)
  | release i o =>
    simp only [next] at hs
    obtain rfl := Option.some.inj hs
    have hpart : s.LifePart (s.dropRef t i) (.release i o) := .dropRef rfl
    split
    · refine ⟨hpart.refs, hpart.inst, fun u j o w hu hc => ?_, fun j o' w hc => ?_⟩
      · exact (Function.update_of_ne hu ..).symm.trans hc
      · have hself : ((s.dropRef t i).goto t (.cleanup i o)).thread t =
            some ⟨.cleanup i o, true⟩ := Function.update_self ..
        rw [hself] at hc
        cases hc
        rfl
    · exact hpart.afterRelease
  | cleanup i o =>
    obtain rfl := Option.some.inj hs
    refine LifePart.afterRelease ⟨rfl, fun _ _ => ⟨rfl, rfl⟩, fun j hj => ?_⟩
    have hji : j ≠ i := by
      rintro rfl
      exact hj o rfl
    simp only [setInst, Function.update_of_ne hji]
  | finish i l =>
    obtain rfl := Option.some.inj hs
    exact LifePart.exit (.of_eq rfl rfl rfl rfl)

/-- An instance that was cleaned up is known to nobody, and no thread is about to clean it up. -/
def Alive (s : Nodes) : Prop :=
  ∀ i, (s.inst i).initialized = false →
    s.Gone i ∧ ∀ t o w, s.thread t ≠ some ⟨.cleanup i o, w⟩

theorem Alive.same (h : s.Alive) (hi : s'.inst = s.inst) (hr : s'.refs = s.refs)
    (ho : s'.owners = s.owners)
    (hc : ∀ t i o w, s'.thread t = some ⟨.cleanup i o, w⟩ → ∃ w', s.thread t = some ⟨.cleanup i o, w'⟩) :
    s'.Alive := by
  intro i hdead
  rw [hi] at hdead
  obtain ⟨hgone, hnot⟩ := h i hdead
  refine ⟨?_, fun t o w ht => ?_⟩
  · unfold Gone
    rw [hr, ho]
    exact hgone
  · obtain ⟨w', ht'⟩ := hc t i o w ht
    exact hnot t o w' ht'

theorem Alive.next (h : s.Alive) (hinv : s.Inv) (ht : s.thread t = some ⟨q, w⟩)
    (hs : s.next t env q = some s') : s'.Alive := by
  have hlife := next_life ht hs
  -- A thread with a reference keeps the instance.
  have hgone : ∀ i, s.Gone i → s'.Gone i ∧ q.ref ≠ some i := by
    intro i hg
    have hq : q.ref ≠ some i := by
      intro hq
      have hmem := (hinv.fits t).ref _ i ht hq
      rw [hg.1] at hmem
      cases hmem
    obtain ⟨hr, ho⟩ := hlife.refs i hq
    unfold Gone
    rw [hr, ho]
    exact ⟨hg, hq⟩
  have hback : ∀ u i o w, s'.thread u = some ⟨.cleanup i o, w⟩ →
      s.thread u = some ⟨.cleanup i o, w⟩ ∧ u ≠ t ∨ q.ref = some i := by
    intro u i o w hu
    by_cases hut : u = t
    · subst hut
      exact .inr (hlife.self i o w hu)
    · exact .inl ⟨hlife.others u i o w hut hu, hut⟩
  intro i hdead
  by_cases hq : ∃ o, q = .cleanup i o
  · -- It is the one that cleans up.
    obtain ⟨o, rfl⟩ := hq
    refine ⟨(hgone i ((hinv.fits t).gone i o w ht)).1, fun u o' w' hu => ?_⟩
    rcases hback u i o' w' hu with ⟨hold, hut⟩ | href
    · exact hut (hinv.one i u t o' o w' w hold ht)
    · cases href
  · rw [hlife.inst i fun o ho => hq ⟨o, ho⟩] at hdead
    obtain ⟨hg, hnot⟩ := h i hdead
    obtain ⟨hg', hqref⟩ := hgone i hg
    refine ⟨hg', fun u o w hu => ?_⟩
    rcases hback u i o w hu with ⟨hold, -⟩ | href
    · exact hnot u o w hold
    · exact hqref href

theorem Alive.begin {k : NodeCall} (h : s.Alive) (ht : s.thread t = none) (hi : 0 < s.owners i) :
    (s.begin t i k).Alive := by
  -- The instance that is called is not one of those that are gone.
  have hkeeps : ∀ n p, (∀ j o, p ≠ .cleanup j o) →
      (((s.setOwners i n).addRef t i).goto t p).Alive := by
    intro n p hp j hdead
    obtain ⟨hgone, hnot⟩ := h j hdead
    have hji : j ≠ i := by
      rintro rfl
      rw [hgone.2] at hi
      exact absurd hi (lt_irrefl _)
    refine ⟨?_, fun u o w hu => ?_⟩
    · unfold Gone
      simp only [Nodes.goto, addRef, setOwners, Function.update_of_ne hji]
      exact hgone
    · by_cases hut : u = t
      · subst hut
        have hself : (((s.setOwners i n).addRef u i).goto u p).thread u =
            some ⟨p, (p.mutex s.proc).isSome⟩ := Function.update_self ..
        rw [hself, Option.some.injEq, NodeThread.mk.injEq] at hu
        exact hp j o hu.1
      · exact hnot u o w ((Function.update_of_ne hut ..).symm.trans hu)
  cases k with
  | sendBundle bundle addr port =>
    simp only [Nodes.begin]
    split
    · exact h
    · have := hkeeps (s.owners i) (.send i bundle addr port .turn) (by simp)
      rwa [setOwners_self] at this
  | closeRxSocket =>
    have := hkeeps (s.owners i) (.close i .begin) (by simp)
    rwa [setOwners_self] at this
  | inbound => exact hkeeps _ _ (by simp)
  | dropStream id => exact hkeeps _ _ (by simp)
  | dropCspcl => exact hkeeps _ _ (by simp)

/-- A thread gets to a place that is no cleanup. -/
theorem Alive.goto (h : s.Alive) (hp : ∀ j o, p ≠ .cleanup j o) : (s.goto t p).Alive := by
  refine h.same rfl rfl rfl fun u i o w hu => ?_
  by_cases hut : u = t
  · subst hut
    have hself : (s.goto u p).thread u = some ⟨p, (p.mutex s.proc).isSome⟩ :=
      Function.update_self ..
    rw [hself, Option.some.injEq, NodeThread.mk.injEq] at hu
    exact absurd hu.1 (hp i o)
  · exact ⟨w, (Function.update_of_ne hut ..).symm.trans hu⟩

theorem Alive.step {op : NodesOp} (h : s.Alive) (hinv : s.Inv) (hs : s.step op = some s') :
    s'.Alive := by
  cases op with
  | call t i k =>
    simp only [Nodes.step] at hs
    split at hs
    · rename_i hcond
      obtain rfl := Option.some.inj hs
      exact h.begin hcond.1 hcond.2
    · cases hs
  | init t n =>
    simp only [Nodes.step] at hs
    split at hs
    · obtain rfl := Option.some.inj hs
      exact h.goto (by simp)
    · cases hs
  | lock t ok =>
    simp only [Nodes.step] at hs
    split at hs
    · rename_i th m ht hm
      split at hs
      · cases hs
      split at hs
      · rename_i hc
        obtain ⟨i, bundle, addr, port, rfl⟩ := inC_of_wants ht hm hc
        obtain ⟨s₁, hs₁, rfl⟩ := Option.map_eq_some_iff.mp hs
        obtain ⟨d, -, rfl⟩ := Option.map_eq_some_iff.mp hs₁
        have hd : Alive { s with d } := h.same rfl rfl rfl fun u i o w hu => ⟨w, hu⟩
        dsimp only
        split
        · exact hd.goto (by simp)
        · exact hd
      · obtain rfl := Option.some.inj hs
        refine h.same rfl rfl rfl fun u i o w hu => ?_
        simp only [Function.update_apply] at hu
        split at hu
        · rename_i hut
          refine ⟨th.waiting, ?_⟩
          simp only [Option.some.injEq, NodeThread.mk.injEq] at hu
          rw [hut, ht, ← hu.1]
        · exact ⟨w, hu⟩
    · cases hs
  | run t env =>
    simp only [Nodes.step] at hs
    split at hs
    · rename_i th ht hm
      exact h.next hinv ht hs
    · cases hs
  | panic t =>
    simp only [Nodes.step] at hs
    split at hs
    · split at hs
      all_goals cases hs
      exact h.goto (by simp)
    · split at hs
      all_goals cases hs
      exact h.goto (by simp)
    · cases hs
  | cloneCspcl i =>
    simp only [Nodes.step] at hs
    split at hs
    · rename_i hi
      obtain rfl := Option.some.inj hs
      intro j hdead
      obtain ⟨hgone, hnot⟩ := h j hdead
      have hji : j ≠ i := by
        rintro rfl
        rw [hgone.2] at hi
        exact absurd hi (lt_irrefl _)
      refine ⟨?_, hnot⟩
      unfold Gone
      simp only [setOwners, Function.update_of_ne hji]
      exact hgone
    · cases hs
  | poll i id =>
    obtain rfl := Option.some.inj hs
    exact h.same rfl rfl rfl fun u i o w hu => ⟨w, hu⟩
  | loseFrag c j | loseAck c j =>
    simp only [Nodes.step] at hs
    obtain ⟨d, -, rfl⟩ := Option.map_eq_some_iff.mp hs
    exact h.same rfl rfl rfl fun u i o w hu => ⟨w, hu⟩

end Nodes

theorem alive_inductive : nodesSys.Inductive fun s => s.Inv ∧ s.Alive :=
  nodesSys_inv.given
    (fun s hs => by
      obtain ⟨proc, inst, maxAgeEnv, globals, now, hinit, rfl⟩ := hs
      intro i hdead
      rw [show ((Nodes.new proc inst maxAgeEnv globals now).inst i).initialized = true from
        hinit i] at hdead
      cases hdead)
    fun _ _ _ hinv h hs => h.step hinv hs

/-- The instance that the mutex is a part of. The listeners' table outlives it. -/
def Mutex.inside : Mutex → Option Nat
  | send i | pool i | accept i | state i => some i
  | table _ | global _ => none

namespace Nodes

variable {s s' : Nodes} {t u i : Nat} {c : Conn} {q : NodePlace} {m : Mutex}

/-- Thread `u` does not use the instance. -/
structure Away (s : Nodes) (u i : Nat) : Prop where
  place : ∀ x, s.thread u = some x → x.place.ref ≠ some i ∧ ∀ o, x.place ≠ .cleanup i o
  conn : ∀ c, s.conn u ≠ some (i, c)
  call : ∀ k, (s.d.tx.send u).call = some k → k.inst ≠ i
  holder : ∀ m, m.inside = some i → s.holder m ≠ some u

/-- Who owns what the C library allocates. -/
structure Owned (s : Nodes) : Prop where
  accepted : s.d.rx.accepted.Nodup
  /-- An accepted connection that is open has exactly one owner. -/
  owner : ∀ c ∈ s.d.rx.accepted, (s.d.link c).rxOpen = true →
    ∃ t i, s.conn t = some (i, c) ∧ ∀ u j, s.conn u = some (j, c) → u = t ∧ j = i
  /-- A connection that a thread has is open, and its instance is not cleaned up. -/
  holds : ∀ t i c, s.conn t = some (i, c) → c ∈ s.d.rx.accepted ∧ (s.d.link c).rxOpen = true ∧
    (s.inst i).initialized = true
  /-- A thread reads only the connection that it has. -/
  reads : ∀ t c, (s.d.rx.recv t).Reads c → ∃ i, s.conn t = some (i, c)
  /-- Only its owner closes a connection, and then nobody has it. -/
  closes : ∀ op s' c, s.step op = some s' → (s'.d.link c).rxOpen ≠ (s.d.link c).rxOpen →
    (s'.d.link c).rxOpen = false ∧ ∃ t i, s.conn t = some (i, c) ∧ s'.conn t = none
  /-- While a thread cleans an instance up, no other thread uses it. -/
  last : ∀ t i o w, s.thread t = some ⟨.cleanup i o, w⟩ → (s.inst i).initialized = true ∧
    s.owners i = 0 ∧ ∀ u, u ≠ t → s.Away u i
  /-- After that nobody uses it any more. -/
  after : ∀ i, (s.inst i).initialized = false → s.owners i = 0 ∧ ∀ u, s.Away u i

theorem ref_of_conn (h : q.conn = some (i, c)) : q.ref = some i := by
  cases q with
  | accept j p =>
    have hj : (NodePlace.accept j p).conn = none ∨ ∃ d, (NodePlace.accept j p).conn = some (j, d) := by
      cases p with
      | polled res =>
        cases res with
        | ok x => exact .inr ⟨_, rfl⟩
        | error e => exact .inl rfl
      | register d key => exact .inr ⟨_, rfl⟩
      | spawn d l => exact .inr ⟨_, rfl⟩
      | dropConn d l => exact .inr ⟨_, rfl⟩
      | _ => exact .inl rfl
    rcases hj with hj | ⟨d, hj⟩
    · rw [hj] at h
      cases h
    · rw [hj] at h
      cases h
      rfl
  | listen j l d p =>
    cases h
    rfl
  | _ => cases h

theorem ref_of_outer (hm : m ∈ q.outer) : q.ref = m.inside := by
  cases q with
  | send j bundle addr port p =>
    cases p with
    | turn => cases hm
    | _ =>
      rw [List.mem_singleton.mp hm]
      rfl
  | accept j p =>
    rcases outer_accept j p with h | h
    · rw [h] at hm
      cases hm
    · rw [h] at hm
      rw [List.mem_singleton.mp hm]
      rfl
  | _ => cases hm

theorem ref_of_mutex {proc : Nat → Nat} (hm : q.mutex proc = some m) (hi : m.inside = some i) :
    q.ref = some i ∨ ∃ o, q = .cleanup i o := by
  cases q with
  | send j bundle addr port p | accept j p | listen j l d p | close j p | «open» j p =>
    left
    cases p <;> cases hm <;> cases hi <;> rfl
  | unsubscribe j id =>
    cases hm
    exact .inl hi
  | cleanup j o =>
    cases hm
    cases hi
    exact .inr ⟨o, rfl⟩
  | init p | finish j l =>
    cases hm
    cases hi
  | release j o => cases hm

/-- A thread that has a mutex of the instance knows it. -/
theorem ref_of_held {th : NodeThread} {proc : Nat → Nat} (hm : m ∈ th.held proc)
    (hi : m.inside = some i) : th.place.ref = some i ∨ ∃ o, th.place = .cleanup i o := by
  rcases List.mem_append.mp hm with hm | hm
  · exact .inl ((ref_of_outer hm).trans hi)
  · split at hm
    · cases hm
    · exact ref_of_mutex (Option.mem_toList.mp hm) hi

/-- Nobody uses an instance that is gone, apart from the thread that cleans it up. -/
theorem Inv.away (h : s.Inv) (hg : s.Gone i) (hc : ∀ o w, s.thread u ≠ some ⟨.cleanup i o, w⟩) :
    s.Away u i := by
  have href : ∀ x, s.thread u = some x → x.place.ref ≠ some i := by
    intro x hx hr
    have hmem := (h.fits u).ref x i hx hr
    rw [hg.1] at hmem
    cases hmem
  refine ⟨fun x hx => ⟨href x hx, ?_⟩, fun c hu => ?_, fun k hk hi => ?_, fun m hm hu => ?_⟩
  · rintro o ho
    obtain ⟨q, w⟩ := x
    exact hc o w (ho ▸ hx)
  · obtain ⟨x, hx, hxc⟩ := Option.bind_eq_some_iff.mp hu
    exact href x hx (ref_of_conn hxc)
  · obtain ⟨bundle, addr, port, hx⟩ := (h.fits u).call k hk
    exact href _ hx (by rw [hi]; rfl)
  · rcases holder_cases hu with hl | ⟨j, rfl, hl⟩
    · obtain ⟨th, hth, hheld⟩ := h.thread_of_locks hl
      rcases ref_of_held hheld hm with hr | ⟨o, ho⟩
      · exact href th hth hr
      · obtain ⟨q, w⟩ := th
        exact hc o w (ho ▸ hth)
    · obtain rfl := Option.some.inj hm
      obtain ⟨k, bundle, addr, port, hk, hth⟩ := h.thread_of_holder hl
      obtain ⟨k', hk', rfl⟩ := h.sound.locked j u hl
      obtain rfl := Option.some.inj (hk.symm.trans hk')
      obtain ⟨bundle, addr, port, hx⟩ := (h.fits u).call k (SendPc.call_of_holding hk)
      exact href _ hx rfl

/-- What a step does to the accepted connections, as the abstract system has it. -/
theorem closes_of_step {a : Traffic} {op : NodesOp} (h : Shows s a) (ha : TrafficInv a)
    (hs : s.step op = some s') (hne : (s'.d.link c).rxOpen ≠ (s.d.link c).rxOpen) :
    (s'.d.link c).rxOpen = false ∧ ∃ t i, s.conn t = some (i, c) ∧ s'.conn t = none := by
  -- The connections that are closed stay so.
  have hopen : ∀ {s : Nodes} {a : Traffic}, Shows s a →
      ((s.d.link c).rxOpen = true ↔ c ∉ a.closed) := fun h => by
    rw [← h.closed c, Bool.not_eq_false]
  have hsame : ∀ a', Shows s' a' → a'.closed = a.closed → False := fun a' h' hc => by
    apply hne
    rw [Bool.eq_iff_iff, hopen h, hopen h', hc]
  rcases h.step ha hs with h' | ⟨k, a', hk, h'⟩
  · exact (hsame a h' rfl).elim
  · cases k with
    | close t =>
      simp only [Traffic.step] at hk
      split at hk
      · rename_i i d ht hht
        obtain rfl := Option.some.inj hk
        by_cases hcd : c = d
        · subst hcd
          refine ⟨(h'.closed c).mpr (List.mem_append_right _ (List.mem_singleton.mpr rfl)), t, i,
            ?_, ?_⟩
          · rw [h.conn, ht]
          · rw [h'.conn]
            exact Function.update_self ..
        · exfalso
          apply hne
          rw [Bool.eq_iff_iff, hopen h, hopen h']
          simp [hcd]
      · cases hk
    | poll i id =>
      obtain rfl := Option.some.inj hk
      refine (hsame _ h' ?_).elim
      unfold Traffic.yield
      split <;> rfl
    | accept t i d | pass t r | receive t b | deliver t | lose t | run i x =>
      simp only [Traffic.step] at hk
      repeat' split at hk
      all_goals first
        | cases hk; done
        | obtain rfl := Option.some.inj hk
          exact (hsame _ h' rfl).elim

end Nodes

open Nodes in
theorem nodes_owned {s : Nodes} (hs : nodesSys.Reach s) : s.Owned := by
  obtain ⟨a, ha, h⟩ := nodes_refine.reach hs
  have hinv := trafficSys_inv.reach ha
  obtain ⟨hi, halive⟩ := alive_inductive.reach hs
  have hheld : ∀ t i c, s.conn t = some (i, c) → c ∈ a.connAt (.held t) := by
    intro t i c ht
    rw [h.conn] at ht
    simp [Traffic.connAt, ht]
  have hopen : ∀ c, (s.d.link c).rxOpen = true ↔ c ∉ a.closed := fun c => by
    rw [← h.closed c, Bool.not_eq_false]
  refine ⟨?_, fun c hc hco => ?_, fun t i c ht => ?_, fun t c hr => ?_, fun op s' c hst hne => ?_,
    fun t i o w ht => ?_, fun i hdead => ?_⟩
  · rw [h.accepted]
    exact accepted_nodup.reach ha
  · rw [h.accepted] at hc
    obtain ⟨p, h1, h0⟩ := hinv.conns.held c hc
    have hmem : c ∈ a.connAt p := List.count_pos_iff.mp (by omega)
    cases p with
    | closed => exact absurd hmem ((hopen c).mp hco)
    | held t =>
      obtain ⟨⟨i, d⟩, hx, hd⟩ := List.mem_map.mp hmem
      obtain rfl : d = c := hd
      have ht : s.conn t = some (i, d) := by
        rw [h.conn]
        exact Option.mem_toList.mp hx
      refine ⟨t, i, ht, fun u j hu => ?_⟩
      have hut : u = t := by
        by_contra hut
        exact h0 (.held u) (fun he => hut (ConnPlace.held.inj he)) (hheld u j d hu)
      rw [hut, ht] at hu
      cases hu
      exact ⟨hut, rfl⟩
  · have hc := hinv.conns.known _ c (hheld t i c ht)
    refine ⟨h.accepted ▸ hc, (hopen c).mpr fun hcl => ?_, ?_⟩
    · obtain ⟨p, -, h0⟩ := hinv.conns.held c hc
      have h₁ : ConnPlace.held t = p := by_contra fun hp => h0 _ hp (hheld t i c ht)
      have h₂ : ConnPlace.closed = p := by_contra fun hp => h0 _ hp hcl
      cases h₁.trans h₂.symm
    · by_contra hdead
      rw [Bool.not_eq_true] at hdead
      obtain ⟨hg, hnot⟩ := halive i hdead
      exact (hi.away hg (hnot t)).conn c ht
  · rcases (hi.fits t).reads with hidle | ⟨i, l, d, hth, hr'⟩
    · rw [hidle] at hr
      rcases hr with ⟨got, hr⟩ | ⟨b, data, hr⟩ <;> cases hr
    · refine ⟨i, ?_⟩
      obtain rfl : d = c := by
        rcases hr with ⟨got, hr⟩ | ⟨b, data, hr⟩ <;> rcases hr' with ⟨got', hr'⟩ | ⟨b', data', hr'⟩ <;>
          rw [hr] at hr' <;> cases hr' <;> rfl
      exact conn_at hth
  · exact closes_of_step h hinv hst hne
  · have hg := (hi.fits t).gone i o w ht
    refine ⟨?_, hg.2, fun u hut => hi.away hg fun o' w' hu => hut (hi.one i u t o' o w' w hu ht)⟩
    by_contra hdead
    rw [Bool.not_eq_true] at hdead
    exact (halive i hdead).2 t o w ht
  · obtain ⟨hg, hnot⟩ := halive i hdead
    exact ⟨hg.2, fun u => hi.away hg (hnot u)⟩

open Nodes Crossing in
/-- The listener of node `1` has the connection of node `0`. -/
theorem nodes_owned_crossing : ∃ s, nodesSys.exec start run = some s ∧
    s.conn 12 = some (1, 0) ∧ (s.inst 1).initialized = true ∧ s.Owned := by
  have h : (nodesSys.exec start run).map (·.conn 12) = some (some (1, 0)) := by
    decide +kernel
  obtain ⟨s, hs, hconn⟩ := Option.map_eq_some_iff.mp h
  have ho := nodes_owned (Lts.Reach.of_exec ⟨_, _, _, _, _, fun _ => rfl, rfl⟩ hs)
  exact ⟨s, hs, hconn, (ho.holds _ _ _ hconn).2.2, ho⟩

end Cspcl
