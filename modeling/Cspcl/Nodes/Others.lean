import Cspcl.Nodes.Waits

/-!
# What a step leaves to the other threads

A step takes one step in C, its own thread's, or none, and moves its own thread; the threads that it
starts are new.

* `Nodes.step_moves`: every step.
-/

namespace Cspcl.Nodes

variable {s s₁ s' : Nodes} {t i l : Nat} {c : Conn} {p q : NodePlace} {env : NodeEnv}

/-- A step of the thread `o`, or of none. -/
structure Moves (s s' : Nodes) (o : Option Nat) : Prop where
  d : s'.d = s.d ∨ ∃ op, s.d.step op = some s'.d ∧ ∀ u, op.sender = some u → o = some u
  thread : ∀ u x, o ≠ some u → s.thread u = some x → s'.thread u = some x

/-- A part of a step, outside of C. -/
structure Part (s s' : Nodes) (t : Nat) : Prop where
  d : s'.d = s.d
  thread : ∀ u, u ≠ t → s'.thread u = s.thread u

theorem Part.goto (hd : s₁.d = s.d) (ht : s₁.thread = s.thread) : s.Part (s₁.goto t p) t :=
  ⟨hd, fun u hu => (Function.update_of_ne hu ..).trans (congrFun ht u)⟩

theorem Part.exit (hd : s₁.d = s.d) (ht : s₁.thread = s.thread) : s.Part (s₁.exit t) t :=
  ⟨hd, fun u hu => (Function.update_of_ne hu ..).trans (congrFun ht u)⟩

theorem Part.moves (h : s.Part s' t) : s.Moves s' (some t) where
  d := .inl h.d
  thread u _ hu hx := (h.thread u fun htu => hu (congrArg some htu.symm)).trans hx

theorem Moves.goto (hd : s₁.d = s.d) (ht : s₁.thread = s.thread) :
    s.Moves (s₁.goto t p) (some t) := (Part.goto hd ht).moves

theorem Moves.exit (hd : s₁.d = s.d) (ht : s₁.thread = s.thread) :
    s.Moves (s₁.exit t) (some t) := (Part.exit hd ht).moves

theorem Moves.afterRelease {o : Option Nat} (hd : s₁.d = s.d) (ht : s₁.thread = s.thread) :
    s.Moves (s₁.afterRelease t i o) (some t) := by
  cases o with
  | none => exact .exit hd ht
  | some l => exact .goto hd ht

theorem Moves.quiet {o : Option Nat} (hd : s'.d = s.d) (ht : s'.thread = s.thread) :
    s.Moves s' o :=
  ⟨.inl hd, fun u _ _ hx => (congrFun ht u).trans hx⟩

/-- The thread takes a step in C, and goes on. -/
theorem Moves.inC {op : DeliveryOp} {f : Nodes → Nodes} (hs : (s.inC op).map f = some s')
    (hop : ∀ u, op.sender = some u → u = t) (hf : ∀ s₁ : Nodes, s₁.Part (f s₁) t) :
    s.Moves s' (some t) := by
  obtain ⟨s₁, hs₁, rfl⟩ := Option.map_eq_some_iff.mp hs
  obtain ⟨d, hd, rfl⟩ := Option.map_eq_some_iff.mp hs₁
  refine ⟨.inr ⟨op, hd.trans (congrArg some (hf { s with d }).d.symm), fun u hu => ?_⟩,
    fun u x hu hx => ?_⟩
  · exact congrArg some (hop u hu).symm
  · exact ((hf _).thread u fun htu => hu (congrArg some htu.symm)).trans hx

/-- The thread starts another one, and goes on. -/
theorem Moves.spawn {r : Nat} {f : Nodes → Nodes} (hs : (s.spawn r i p).map f = some s')
    (hf : ∀ s₁ : Nodes, s₁.Part (f s₁) t) : s.Moves s' (some t) := by
  obtain ⟨s₁, hs₁, rfl⟩ := Option.map_eq_some_iff.mp hs
  unfold Nodes.spawn at hs₁
  split at hs₁
  · rename_i hr
    obtain rfl := Option.some.inj hs₁
    refine ⟨.inl (hf _).d, fun u x hu hx => ?_⟩
    have hur : u ≠ r := by
      rintro rfl
      rw [hr] at hx
      cases hx
    exact ((hf _).thread u fun htu => hu (congrArg some htu.symm)).trans
      ((Function.update_of_ne hur ..).trans hx)
  · cases hs₁

theorem nextSend_moves {bundle : Bundle} {addr port : UInt8} {a : SendAt}
    (hs : s.nextSend t i bundle addr port env a = some s') : s.Moves s' (some t) := by
  cases a with
  | turn =>
    simp only [nextSend] at hs
    split at hs
    · obtain rfl := Option.some.inj hs
      exact .goto rfl rfl
    · exact .inC hs (fun u hu => (Option.some.inj hu).symm) fun _ => .goto rfl rfl
  | inC =>
    simp only [nextSend] at hs
    split at hs
    · rename_i hby
      refine .inC hs (fun u hu => ?_) fun _ => ?_
      · exact Option.some.inj (hu.symm.trans (sendBy_spec hby).1)
      · split
        · exact .goto rfl rfl
        · exact ⟨rfl, fun _ _ => rfl⟩
    · cases hs
  | leaving =>
    obtain rfl := Option.some.inj hs
    exact .goto rfl rfl

theorem nextAccept_moves {a : AcceptAt} (hs : s.nextAccept t i env a = some s') :
    s.Moves s' (some t) := by
  cases a with
  | rxLookup | rxCreate =>
    simp only [nextAccept] at hs
    split at hs
    · obtain rfl := Option.some.inj hs
      exact .goto rfl rfl
    · obtain rfl := Option.some.inj hs
      exact .goto rfl rfl
  | accepting =>
    simp only [nextAccept] at hs
    split at hs
    · obtain rfl := Option.some.inj hs
      exact .goto rfl rfl
    · split at hs
      · exact .inC hs (by rintro _ ⟨⟩) fun _ => .goto rfl rfl
      · cases hs
  | spawn c l =>
    simp only [nextAccept] at hs
    split at hs
    · exact .spawn hs fun _ => .goto rfl rfl
    · obtain rfl := Option.some.inj hs
      exact .goto rfl rfl
  | dropConn c l => exact .inC hs (by rintro _ ⟨⟩) fun _ => .goto rfl rfl
  | _ =>
    obtain rfl := Option.some.inj hs
    exact .goto rfl rfl

theorem nextListen_moves {a : ListenAt} (hs : s.nextListen t i l c env a = some s') :
    s.Moves s' (some t) := by
  cases a with
  | evicted =>
    simp only [nextListen] at hs
    split at hs
    · obtain rfl := Option.some.inj hs
      exact .goto rfl rfl
    · exact .inC hs (by rintro _ ⟨⟩) fun _ => .goto rfl rfl
  | reading =>
    simp only [nextListen] at hs
    split at hs
    · rename_i hby
      refine .inC hs (fun u hu => ?_) fun _ => ?_
      · rw [(recvBy_spec hby).1] at hu
        cases hu
      · split
        · unfold received
          split <;> exact .goto rfl rfl
        · exact ⟨rfl, fun _ _ => rfl⟩
    · cases hs
  | closing => exact .inC hs (by rintro _ ⟨⟩) fun _ => .goto rfl rfl
  | _ =>
    obtain rfl := Option.some.inj hs
    exact .goto rfl rfl

theorem nextOpen_moves {a : OpenAt} (hs : s.nextOpen t i env a = some s') :
    s.Moves s' (some t) := by
  cases a with
  | subscribe =>
    simp only [nextOpen] at hs
    split at hs
    · obtain rfl := Option.some.inj hs
      exact .goto rfl rfl
    · obtain rfl := Option.some.inj hs
      split
      · exact .goto rfl rfl
      · exact .exit rfl rfl
  | closing =>
    obtain rfl := Option.some.inj hs
    exact .goto rfl rfl
  | spawn n =>
    simp only [nextOpen] at hs
    split at hs
    · exact .spawn hs fun _ => .exit rfl rfl
    · obtain rfl := Option.some.inj hs
      exact .goto rfl rfl
  | acceptFailed n =>
    obtain rfl := Option.some.inj hs
    exact .exit rfl rfl

theorem next_moves (hs : s.next t env q = some s') : s.Moves s' (some t) := by
  cases q with
  | send i bundle addr port a => exact nextSend_moves hs
  | accept i a => exact nextAccept_moves hs
  | listen i l c a => exact nextListen_moves hs
  | close i a =>
    obtain rfl := Option.some.inj hs
    cases a <;> exact .goto rfl rfl
  | «open» i a => exact nextOpen_moves hs
  | release i o =>
    simp only [next] at hs
    obtain rfl := Option.some.inj hs
    split
    · exact .goto rfl rfl
    · exact .afterRelease rfl rfl
  | cleanup i o =>
    obtain rfl := Option.some.inj hs
    exact .afterRelease rfl rfl
  | unsubscribe i n =>
    obtain rfl := Option.some.inj hs
    exact .goto rfl rfl
  | init n | finish i l =>
    obtain rfl := Option.some.inj hs
    exact .exit rfl rfl

theorem step_moves {op : NodesOp} (hs : s.step op = some s') : s.Moves s' op.thread := by
  cases op with
  | call t i k =>
    simp only [Nodes.step] at hs
    split at hs
    · obtain rfl := Option.some.inj hs
      cases k with
      | sendBundle bundle addr port =>
        simp only [Nodes.begin]
        split
        · exact .quiet rfl rfl
        · exact .goto rfl rfl
      | _ => exact .goto rfl rfl
    · cases hs
  | init t n =>
    simp only [Nodes.step] at hs
    split at hs
    · obtain rfl := Option.some.inj hs
      exact .goto rfl rfl
    · cases hs
  | lock t ok =>
    simp only [Nodes.step] at hs
    split at hs
    · split at hs
      · cases hs
      split at hs
      · refine .inC hs (fun u hu => (Option.some.inj hu).symm) fun _ => ?_
        split
        · split
          · exact .goto rfl rfl
          · exact ⟨rfl, fun _ _ => rfl⟩
        · exact ⟨rfl, fun _ _ => rfl⟩
      · obtain rfl := Option.some.inj hs
        exact Part.moves ⟨rfl, fun u hu => Function.update_of_ne hu ..⟩
    · cases hs
  | run t env =>
    simp only [Nodes.step] at hs
    split at hs
    · exact next_moves hs
    · cases hs
  | panic t =>
    simp only [Nodes.step] at hs
    split at hs
    · split at hs
      all_goals cases hs
      exact .goto rfl rfl
    · split at hs
      all_goals cases hs
      exact .goto rfl rfl
    · cases hs
  | cloneCspcl i =>
    simp only [Nodes.step] at hs
    split at hs
    · obtain rfl := Option.some.inj hs
      exact .quiet rfl rfl
    · cases hs
  | poll i id =>
    obtain rfl := Option.some.inj hs
    exact .quiet rfl rfl
  | loseFrag c j | loseAck c j =>
    simp only [Nodes.step] at hs
    obtain ⟨d, hd, rfl⟩ := Option.map_eq_some_iff.mp hs
    exact ⟨.inr ⟨_, hd, by rintro _ ⟨⟩⟩, fun _ _ _ hx => hx⟩

end Cspcl.Nodes
