import Cspcl.Delivery.Acks
import Cspcl.Nodes.State

/-!
# Where the threads are, and what they have there

* `Fits`: the mutexes, the call in C and the reference that a thread has are those of its place.
* `Inv`: that is so for all threads, and an instance is cleaned up by one thread, which is the last
  to know it.
* `Keeps`: what a step of one thread leaves to the others. `Inv.goto`, `Inv.exit`, `Inv.spawn`: the
  ends of a step, which keep the invariant. `Inv.goOn`: a step outside of C.
-/

namespace Cspcl

/-- The mutexes that the thread has, the C pool's aside. -/
def NodeThread.held (proc : Nat → Nat) (th : NodeThread) : List Mutex :=
  th.place.outer ++ if th.waiting then [] else (th.place.mutex proc).toList

/-- The thread is in a function of `cspcl.c` that `Delivery.World` models. -/
def NodePlace.inC : NodePlace → Bool
  | .send _ _ _ _ .inC | .listen _ _ _ .reading => true
  | _ => false

/-- The thread reads the connection `c`, or has a bundle from it that it has not acknowledged. -/
def RecvPc.Reads (c : Conn) (pc : RecvPc) : Prop :=
  (∃ got, pc = .reading .direct maxBundleSize c got) ∨ ∃ a data, pc = .acking .direct c a data

namespace Nodes

variable {s s₁ s' : Nodes} {t u r i : Nat} {p q : NodePlace} {w : Bool}

/-- Nobody knows the instance any more, apart from a thread that cleans it up. -/
def Gone (s : Nodes) (i : Nat) : Prop := s.refs i = [] ∧ s.owners i = 0

/-- The state of thread `t`, which is at `th`. -/
structure Fits (s : Nodes) (t : Nat) (th : Option NodeThread) : Prop where
  locks : ∀ m, s.locks m = some t ↔ ∃ x, th = some x ∧ m ∈ x.held s.proc
  call : ∀ k, (s.d.tx.send t).call = some k →
    ∃ bundle addr port, th = some ⟨.send k.inst bundle addr port .inC, false⟩
  reads : s.d.rx.recv t = .idle ∨
    ∃ i l c, th = some ⟨.listen i l c .reading, false⟩ ∧ (s.d.rx.recv t).Reads c
  ref : ∀ x i, th = some x → x.place.ref = some i → t ∈ s.refs i
  gone : ∀ i l w, th = some ⟨.cleanup i l, w⟩ → s.Gone i

structure Inv (s : Nodes) : Prop where
  fits : ∀ t, s.Fits t (s.thread t)
  one : ∀ i t u l l' w w', s.thread t = some ⟨.cleanup i l, w⟩ →
    s.thread u = some ⟨.cleanup i l', w'⟩ → t = u
  sound : s.d.Sound

/-! ## What the other threads keep -/

/-- A step of thread `t` (or a part of one). -/
structure Keeps (s s' : Nodes) (t : Nat) : Prop where
  proc : s'.proc = s.proc
  thread : ∀ u, u ≠ t → s'.thread u = s.thread u
  locks : ∀ u, u ≠ t → ∀ m, s'.locks m = some u ↔ s.locks m = some u
  send : ∀ u, u ≠ t → s'.d.tx.send u = s.d.tx.send u
  recv : ∀ u, u ≠ t → s'.d.rx.recv u = s.d.rx.recv u
  refs : ∀ u, u ≠ t → ∀ i, u ∈ s.refs i → u ∈ s'.refs i
  gone : ∀ i, s.Gone i → s'.Gone i

theorem Keeps.trans (h : s.Keeps s₁ t) (h' : s₁.Keeps s' t) : s.Keeps s' t where
  proc := h'.proc.trans h.proc
  thread u hu := (h'.thread u hu).trans (h.thread u hu)
  locks u hu m := (h'.locks u hu m).trans (h.locks u hu m)
  send u hu := (h'.send u hu).trans (h.send u hu)
  recv u hu := (h'.recv u hu).trans (h.recv u hu)
  refs u hu i hi := h'.refs u hu i (h.refs u hu i hi)
  gone i hi := h'.gone i (h.gone i hi)

theorem Keeps.fits (h : s.Keeps s' t) (hut : u ≠ t) (hf : s.Fits u (s.thread u)) :
    s'.Fits u (s'.thread u) := by
  rw [h.thread u hut]
  refine ⟨fun m => ?_, ?_, ?_, fun x i hx hi => h.refs u hut i (hf.ref x i hx hi),
    fun i l w hx => h.gone i (hf.gone i l w hx)⟩
  · rw [h.locks u hut, h.proc]
    exact hf.locks m
  · rw [h.send u hut]
    exact hf.call
  · rw [h.recv u hut]
    exact hf.reads

/-- An instance is gone only if no thread has a reference to it. -/
theorem Inv.not_gone (h : s.Inv) (ht : t ∈ s.refs i) {l : Option Nat} :
    s.thread u ≠ some ⟨.cleanup i l, w⟩ := by
  intro hu
  have hg := ((h.fits u).gone i l w hu).1
  rw [hg] at ht
  cases ht

/-- A step of thread `t` that keeps the invariant for itself; it gets to the cleanup of an instance
only if it knows the instance. -/
theorem Inv.keeps (h : s.Inv) (hk : s.Keeps s' t) (hd : s'.d.Sound) (hf : s'.Fits t (s'.thread t))
    (hc : ∀ i l w, s'.thread t = some ⟨.cleanup i l, w⟩ →
      t ∈ s.refs i ∨ ∃ w', s.thread t = some ⟨.cleanup i l, w'⟩) : s'.Inv where
  fits u := by
    by_cases hut : u = t
    · rw [hut]
      exact hf
    · exact hk.fits hut (h.fits u)
  one i u v l l' w w' hu hv := by
    -- Before the step, no other thread was there.
    have hother : ∀ u v l l' w w', u ≠ t → s'.thread u = some ⟨.cleanup i l, w⟩ →
        s'.thread v = some ⟨.cleanup i l', w'⟩ → u = v := by
      intro u v l l' w w' hut hu hv
      rw [hk.thread u hut] at hu
      by_cases hvt : v = t
      · subst hvt
        rcases hc i l' w' hv with hv | ⟨w'', hv⟩
        · exact absurd hu (h.not_gone hv)
        · exact h.one i u v l l' w w'' hu hv
      · rw [hk.thread v hvt] at hv
        exact h.one i u v l l' w w' hu hv
    by_cases hut : u = t
    · by_cases hvt : v = t
      · rw [hut, hvt]
      · exact (hother v u l' l w' w hvt hv hu).symm
    · exact hother u v l l' w w' hut hu hv
  sound := hd

/-- A step that concerns no thread. -/
theorem Inv.unseen (h : s.Inv) (hk : ∀ t, s.Keeps s' t) (hd : s'.d.Sound) : s'.Inv where
  fits u := (hk (u + 1)).fits (Nat.succ_ne_self u).symm (h.fits u)
  one i u v l l' w w' hu hv := by
    rw [(hk (u + 1)).thread u (Nat.succ_ne_self u).symm] at hu
    rw [(hk (v + 1)).thread v (Nat.succ_ne_self v).symm] at hv
    exact h.one i u v l l' w w' hu hv
  sound := hd

/-! ## Parts of a step -/

/-- Only the receivers, the tables, the instances or the connections change. -/
structure Alike (s s' : Nodes) : Prop where
  proc : s'.proc = s.proc
  thread : s'.thread = s.thread
  locks : s'.locks = s.locks
  refs : s'.refs = s.refs
  owners : s'.owners = s.owners
  send : s'.d.tx.send = s.d.tx.send
  recv : s'.d.rx.recv = s.d.rx.recv
  sound : s.d.Sound → s'.d.Sound

theorem Alike.refl (s : Nodes) : s.Alike s := ⟨rfl, rfl, rfl, rfl, rfl, rfl, rfl, id⟩

theorem Alike.keeps (h : s.Alike s') (t : Nat) : s.Keeps s' t where
  proc := h.proc
  thread u _ := congrFun h.thread u
  locks u _ m := by rw [h.locks]
  send u _ := congrFun h.send u
  recv u _ := congrFun h.recv u
  refs u _ i hi := by
    rw [h.refs]
    exact hi
  gone i hi := by
    unfold Gone
    rw [h.refs, h.owners]
    exact hi

theorem Inv.alike (h : s.Inv) (ha : s.Alike s') : s'.Inv := h.unseen ha.keeps (ha.sound h.sound)

/-- A step in C of thread `t`, or of the connections. -/
theorem keeps_inC {op : DeliveryOp} {d : World} (hd : s.d.step op = some d)
    (hsend : ∀ u, op.sender = some u → u = t) (hrecv : ∀ u, op.receiver = some u → u = t) :
    s.Keeps { s with d } t where
  proc := rfl
  thread _ _ := rfl
  locks _ _ _ := .rfl
  send u hu := World.step_send hd fun h => hu (hsend u h)
  recv u hu := World.step_recv hd fun h => hu (hrecv u h)
  refs _ _ _ hi := hi
  gone _ hi := hi

theorem alike_inC {op : DeliveryOp} {d : World} (hd : s.d.step op = some d)
    (hsend : op.sender = none) (hrecv : op.receiver = none) : s.Alike { s with d } where
  proc := rfl
  thread := rfl
  locks := rfl
  refs := rfl
  owners := rfl
  send := by
    funext u
    apply World.step_send hd
    rw [hsend]
    nofun
  recv := by
    funext u
    apply World.step_recv hd
    rw [hrecv]
    nofun
  sound h := by
    apply h.step hd
    rintro t rfl
    cases hsend

theorem keeps_addRef (hi : ¬ s.Gone i) : s.Keeps (s.addRef t i) t where
  proc := rfl
  thread _ _ := rfl
  locks _ _ _ := .rfl
  send _ _ := rfl
  recv _ _ := rfl
  refs u _ j hj := by
    simp only [addRef, Function.update_apply]
    split
    · rename_i hij
      exact List.mem_cons_of_mem t (hij ▸ hj)
    · exact hj
  gone j hj := by
    have hne : j ≠ i := fun h => hi (h ▸ hj)
    simp only [Gone, addRef, Function.update_of_ne hne]
    exact hj

theorem keeps_dropRef : s.Keeps (s.dropRef t i) t where
  proc := rfl
  thread _ _ := rfl
  locks _ _ _ := .rfl
  send _ _ := rfl
  recv _ _ := rfl
  refs u hu j hj := by
    simp only [dropRef, Function.update_apply]
    split
    · rename_i hij
      exact (List.mem_erase_of_ne hu).mpr (hij ▸ hj)
    · exact hj
  gone j hj := by
    simp only [Gone, dropRef, Function.update_apply]
    split
    · rename_i hij
      rw [← hij, hj.1]
      exact ⟨rfl, hij ▸ hj.2⟩
    · exact hj

theorem keeps_setOwners {n : Nat} (hi : ¬ s.Gone i) : s.Keeps (s.setOwners i n) t where
  proc := rfl
  thread _ _ := rfl
  locks _ _ _ := .rfl
  send _ _ := rfl
  recv _ _ := rfl
  refs _ _ _ hj := hj
  gone j hj := by
    have hne : j ≠ i := fun h => hi (h ▸ hj)
    simp only [Gone, setOwners, Function.update_of_ne hne]
    exact hj

theorem keeps_goto : s.Keeps (s.goto t p) t where
  proc := rfl
  thread u hu := Function.update_of_ne hu ..
  locks u hu m := by
    simp only [goto]
    split
    · rename_i hm
      rw [hm.1]
      simp [hu.symm]
    · exact .rfl
  send _ _ := rfl
  recv _ _ := rfl
  refs _ _ _ hi := hi
  gone _ hi := hi

theorem keeps_exit : s.Keeps (s.exit t) t where
  proc := rfl
  thread u hu := Function.update_of_ne hu ..
  locks u hu m := by
    simp only [exit]
    split
    · rename_i hm
      rw [hm]
      simp [hu.symm]
    · exact .rfl
  send _ _ := rfl
  recv _ _ := rfl
  refs _ _ _ hi := hi
  gone _ hi := hi

/-! ## The end of a step -/

/-- Thread `t` is at the end of a step from `s`, in `s₁`, and gets to `p`. -/
theorem Inv.goto (h : s.Inv) (hk : s.Keeps s₁ t) (hd : s₁.d.Sound)
    (hlocks : ∀ m ∈ p.outer, s₁.locks m = some t)
    (hcall : ∀ k, (s₁.d.tx.send t).call = some k →
      ∃ bundle addr port, p = .send k.inst bundle addr port .inC)
    (hreads : s₁.d.rx.recv t = .idle ∨
      ∃ i l c, p = .listen i l c .reading ∧ (s₁.d.rx.recv t).Reads c)
    (href : ∀ i, p.ref = some i → t ∈ s₁.refs i)
    (hgone : ∀ i l, p = .cleanup i l → t ∈ s.refs i ∧ s₁.Gone i) : (s₁.goto t p).Inv := by
  have ht : (s₁.goto t p).thread t = some ⟨p, (p.mutex s₁.proc).isSome⟩ := Function.update_self ..
  apply h.keeps (hk.trans keeps_goto) hd
  · rw [ht]
    refine ⟨fun m => ?_, fun k hk => ?_, ?_, ?_, ?_⟩
    · -- It has the mutexes that it goes on inside of.
      have hheld : NodeThread.held (s₁.goto t p).proc ⟨p, (p.mutex s₁.proc).isSome⟩ = p.outer := by
        unfold NodeThread.held
        simp only [Nodes.goto]
        cases p.mutex s₁.proc <;> simp
      constructor
      · intro hm
        refine ⟨_, rfl, ?_⟩
        rw [hheld]
        by_contra hp
        simp only [Nodes.goto] at hm
        split at hm
        · cases hm
        · rename_i hnot
          exact hnot ⟨hm, hp⟩
      · rintro ⟨x, hx, hm⟩
        obtain rfl := Option.some.inj hx
        rw [hheld] at hm
        simp only [Nodes.goto]
        rw [if_neg fun hnot => hnot.2 hm]
        exact hlocks m hm
    · obtain ⟨bundle, addr, port, rfl⟩ := hcall k hk
      exact ⟨bundle, addr, port, rfl⟩
    · rcases hreads with hi | ⟨i, l, c, rfl, hr⟩
      · exact .inl hi
      · exact .inr ⟨i, l, c, rfl, hr⟩
    · intro x i hx hi
      obtain rfl := Option.some.inj hx
      exact href i hi
    · intro i l w hx
      simp only [Option.some.injEq, NodeThread.mk.injEq] at hx
      exact (hgone i l hx.1).2
  · intro i l w hx
    rw [ht] at hx
    simp only [Option.some.injEq, NodeThread.mk.injEq] at hx
    exact .inl (hgone i l hx.1).1

theorem Inv.exit (h : s.Inv) (hk : s.Keeps s₁ t) (hd : s₁.d.Sound)
    (hcall : (s₁.d.tx.send t).call = none) (hreads : s₁.d.rx.recv t = .idle) :
    (s₁.exit t).Inv := by
  have ht : (s₁.exit t).thread t = none := Function.update_self ..
  apply h.keeps (hk.trans keeps_exit) hd
  · rw [ht]
    refine ⟨fun m => ?_, fun k hk => ?_, .inl hreads, nofun, nofun⟩
    · constructor
      · intro hm
        simp only [Nodes.exit] at hm
        split at hm
        · cases hm
        · exact absurd hm ‹_›
      · rintro ⟨x, hx, -⟩
        cases hx
    · rw [show (s₁.exit t).d = s₁.d from rfl, hcall] at hk
      cases hk
  · intro i l w hx
    rw [ht] at hx
    cases hx

/-! ## Steps outside of C -/

/-- Thread `t` is at `q`, with the mutexes that it needs there. -/
structure At (s : Nodes) (t : Nat) (q : NodePlace) : Prop where
  thread : ∃ w, s.thread t = some ⟨q, w⟩
  locks : ∀ m ∈ q.outer ++ (q.mutex s.proc).toList, s.locks m = some t

/-- A thread that wants no mutex does not wait for that of its place. -/
theorem mutex_of_wants (ht : s.thread t = some ⟨q, w⟩) (hw : s.wants t = none) :
    w = true → q.mutex s.proc = none := by
  rintro rfl
  unfold wants at hw
  rw [ht] at hw
  dsimp only at hw
  split at hw
  · cases hw
  · exact hw

theorem Inv.at (h : s.Inv) (ht : s.thread t = some ⟨q, w⟩)
    (hw : w = true → q.mutex s.proc = none) : s.At t q := by
  refine ⟨⟨w, ht⟩, fun m hm => ?_⟩
  refine ((h.fits t).locks m).mpr ⟨_, ht, ?_⟩
  unfold NodeThread.held
  cases w with
  | false => exact hm
  | true =>
    rw [hw rfl] at hm
    exact hm

theorem Inv.call_none (h : s.Inv) (ht : s.thread t = some ⟨q, w⟩) (hq : q.inC = false) :
    (s.d.tx.send t).call = none := by
  cases hc : (s.d.tx.send t).call with
  | none => rfl
  | some k =>
    obtain ⟨bundle, addr, port, hx⟩ := (h.fits t).call k hc
    simp only [ht, Option.some.injEq, NodeThread.mk.injEq] at hx
    rw [hx.1] at hq
    cases hq

theorem Inv.recv_idle (h : s.Inv) (ht : s.thread t = some ⟨q, w⟩) (hq : q.inC = false) :
    s.d.rx.recv t = .idle := by
  rcases (h.fits t).reads with hi | ⟨i, l, c, hx, -⟩
  · exact hi
  · simp only [ht, Option.some.injEq, NodeThread.mk.injEq] at hx
    rw [hx.1] at hq
    cases hq

theorem Inv.quiet (h : s.Inv) (ht : s.thread t = none) :
    (s.d.tx.send t).call = none ∧ s.d.rx.recv t = .idle := by
  constructor
  · cases hc : (s.d.tx.send t).call with
    | none => rfl
    | some k =>
      obtain ⟨bundle, addr, port, hx⟩ := (h.fits t).call k hc
      rw [ht] at hx
      cases hx
  · rcases (h.fits t).reads with hi | ⟨i, l, c, hx, -⟩
    · exact hi
    · rw [ht] at hx
      cases hx

/-- From `q` a thread gets to `p` with what it has. -/
structure Leads (proc : Nat → Nat) (q p : NodePlace) : Prop where
  outer : ∀ m ∈ p.outer, m ∈ q.outer ++ (q.mutex proc).toList
  ref : ∀ i, p.ref = some i → q.ref = some i
  stays : ∀ i l, p ≠ .cleanup i l

/-- A step at `q`, which is not in C. -/
theorem Inv.goOn (h : s.Inv) (hq : s.At t q) (hin : q.inC = false) (ha : s.Alike s₁)
    (hp : Leads s.proc q p) : (s₁.goto t p).Inv := by
  obtain ⟨w, ht⟩ := hq.thread
  apply h.goto (ha.keeps t) (ha.sound h.sound)
  · intro m hm
    rw [ha.locks]
    exact hq.locks m (hp.outer m hm)
  · intro k hk
    rw [ha.send, h.call_none ht hin] at hk
    cases hk
  · rw [ha.recv]
    exact .inl (h.recv_idle ht hin)
  · intro i hi
    rw [ha.refs]
    exact (h.fits t).ref _ i ht (hp.ref i hi)
  · intro i l hc
    exact absurd hc (hp.stays i l)

/-- A new thread with a reference to the instance. -/
theorem Inv.begins (h : s.Inv) (ht : s.thread t = none) {n : Nat} (hi : ¬ s.Gone i)
    (hout : p.outer = []) (href : p.ref = some i) :
    (((s.setOwners i n).addRef t i).goto t p).Inv := by
  obtain ⟨hcall, hrecv⟩ := h.quiet ht
  have hmem : t ∈ ((s.setOwners i n).addRef t i).refs i := by
    simp [addRef]
  have hk : s.Keeps ((s.setOwners i n).addRef t i) t := by
    refine (keeps_addRef hi).trans (keeps_setOwners fun hg => ?_)
    have hnil : ((s.setOwners i n).addRef t i).refs i = [] := hg.1
    rw [hnil] at hmem
    cases hmem
  apply h.goto hk h.sound
  · rw [hout]
    nofun
  · intro k hk
    rw [show ((s.setOwners i n).addRef t i).d = s.d from rfl, hcall] at hk
    cases hk
  · exact .inl hrecv
  · intro j hj
    rw [href] at hj
    obtain rfl := Option.some.inj hj
    exact hmem
  · rintro j l rfl
    cases href

theorem setOwners_self : s.setOwners i (s.owners i) = s := by
  simp [setOwners]

theorem Inv.spawn (h : s.Inv) (hs : s.spawn r i p = some s') (hi : ¬ s.Gone i)
    (hout : p.outer = []) (href : p.ref = some i) : s'.Inv := by
  unfold Nodes.spawn at hs
  split at hs
  · rename_i hr
    obtain rfl := Option.some.inj hs
    have hb := h.begins (n := s.owners i) hr hi hout href
    rw [setOwners_self] at hb
    exact hb
  · cases hs

/-- The thread that starts it goes on. -/
theorem At.spawn (hq : s.At t q) (hs : s.spawn r i p = some s') : s'.At t q := by
  unfold Nodes.spawn at hs
  split at hs
  · rename_i hr
    obtain rfl := Option.some.inj hs
    obtain ⟨w, ht⟩ := hq.thread
    have htr : t ≠ r := by
      rintro rfl
      rw [hr] at ht
      cases ht
    refine ⟨⟨w, (keeps_goto.thread t htr).trans ht⟩, fun m hm => ?_⟩
    exact (keeps_goto.locks t htr m).mpr (hq.locks m hm)
  · cases hs

end Nodes

end Cspcl
