import Cspcl.Unibo.Peers

/-!
# What `ensure_link_for_addr` leaves behind (`unibo-integration/src/cspcl_daemon.c`)

`Resources` is what Unibo-BP holds for the daemon: the links created and not destroyed, the EIDs
allocated, the neighbours under planned-neighbour observation. A call of `ensure_link_for_addr`
acquires in turn and undoes by hand on each exit; `ensureSys` is any sequence of its calls.

* `Resources.after_newLink`: what each way through the function does to the resources.
* `reach_inv`: the used entries have different addresses and different links, each of which was
  created and not destroyed.
* `all_or_nothing_iff`: a call leaves everything as it was or makes the peer whole, unless it
  `Leaks`: the undo after a failed `unibo_bp_cla_open_link` does not stop the observation that the
  call has started.
-/

namespace Cspcl.Unibo

/-- What Unibo-BP holds. An EID is allocated with its node number. -/
structure Resources where
  links : LinkId → Bool
  eids : Eid → Option UInt8
  observed : UInt8 → Bool

/-- A call of `ensure_link_for_addr`: the address and what the calls to Unibo-BP return.
`destroyLink`: whether `unibo_bp_cla_destroy_link` destroys the link; its result is not looked
at. -/
structure EnsureCall where
  addr : UInt8
  env : EnsureEnv
  destroyLink : Bool

namespace Resources

/-- What a call to Unibo-BP does. -/
def apply (destroyLink : Bool) (r : Resources) : BpCall → Resources
  | .eidCreate addr (some eid) => { r with eids := Function.update r.eids eid (some addr) }
  | .eidDestroy eid => { r with eids := Function.update r.eids eid none }
  | .createLink _ (some link) => { r with links := Function.update r.links link true }
  | .destroyLink link =>
    if destroyLink then { r with links := Function.update r.links link false } else r
  | .startObservation eid true =>
    match r.eids eid with
    | some addr => { r with observed := Function.update r.observed addr true }
    | none => r
  | _ => r

end Resources

/-- The peer table, and what Unibo-BP holds. -/
structure Ensured where
  peers : Peers
  res : Resources

namespace Ensured

/-- A call of `ensure_link_for_addr`. -/
def ensure (s : Ensured) (c : EnsureCall) : Ensured :=
  let r := s.peers.ensureLinkForAddr c.addr c.env
  ⟨r.1, r.2.2.foldl (Resources.apply c.destroyLink) s.res⟩

/-- It returns 0. -/
def returnsZero (s : Ensured) (c : EnsureCall) : Bool :=
  (s.peers.ensureLinkForAddr c.addr c.env).2.1

/-- Unibo-BP hands out a link id and an EID that are not in use. -/
def Fresh (s : Ensured) (c : EnsureCall) : Prop :=
  (∀ link ∈ c.env.createLink, s.res.links link = false) ∧
    ∀ eid ∈ c.env.eidCreate, s.res.eids eid = none

instance (s : Ensured) (c : EnsureCall) : Decidable (s.Fresh c) :=
  inferInstanceAs (Decidable (_ ∧ _))

end Ensured

/-- Any sequence of calls, in a daemon without peers; some neighbours may be under observation. -/
def ensureSys : Lts Ensured EnsureCall where
  init s := s.peers = Peers.zero ∧ (∀ link, s.res.links link = false) ∧
    ∀ eid, s.res.eids eid = none
  step s c := if s.Fresh c then some (s.ensure c) else none

namespace Ensured

/-- What the callers rely on: with 0 there is one used entry for the address, whose
link was created and not destroyed; with -1 everything is as before. -/
structure AllOrNothing (s : Ensured) (c : EnsureCall) : Prop where
  made : s.returnsZero c = true → ∃ i,
    ((s.ensure c).peers i).used = true ∧ ((s.ensure c).peers i).cspAddr = c.addr ∧
      (s.ensure c).res.links ((s.ensure c).peers i).linkId = true ∧
      ∀ j, ((s.ensure c).peers j).used = true → ((s.ensure c).peers j).cspAddr = c.addr → j = i
  undone : s.returnsZero c = false → s.ensure c = s

/-- No two used entries have the same address or the same link. -/
def DistinctPeers (s : Ensured) : Prop :=
  ∀ i j, (s.peers i).used = true → (s.peers j).used = true →
    (s.peers i).cspAddr = (s.peers j).cspAddr ∨ (s.peers i).linkId = (s.peers j).linkId → i = j

/-- The call gets as far as a link of its own and fails then, and either the link is not destroyed
or the observation of the neighbour, which was not observed before, has been started. -/
def Leaks (s : Ensured) (c : EnsureCall) : Prop :=
  s.peers.findPeerByAddr c.addr = none ∧ s.peers.freeIdx.isSome = true ∧
    c.env.eidCreate.isSome = true ∧ c.env.createLink.isSome = true ∧
    ((c.env.setLinkParam = false ∧ c.destroyLink = false) ∨
      (c.env.setLinkParam = true ∧ c.env.openLink = false ∧
        (c.destroyLink = false ∨
          (c.env.startObservation = true ∧ s.res.observed c.addr = false))))

/-! ## The ways through the function -/

variable {s : Ensured} {c : EnsureCall} {i : Fin maxLinks} {eid : Eid} {link : LinkId}

theorem ensure_found (h : s.peers.findPeerByAddr c.addr = some i) :
    s.ensure c = s ∧ s.returnsZero c = true := by
  have he : s.peers.ensureLinkForAddr c.addr c.env = (s.peers, true, []) := by
    unfold Peers.ensureLinkForAddr
    rw [h]
  rw [ensure, returnsZero, he]
  exact ⟨rfl, rfl⟩

theorem ensure_full (hno : s.peers.findPeerByAddr c.addr = none) (h : s.peers.freeIdx = none) :
    s.ensure c = s ∧ s.returnsZero c = false := by
  have he : s.peers.ensureLinkForAddr c.addr c.env = (s.peers, false, []) := by
    unfold Peers.ensureLinkForAddr
    rw [hno, h]
  rw [ensure, returnsZero, he]
  exact ⟨rfl, rfl⟩

/-- A new peer, in the first free slot. -/
theorem ensure_new (hno : s.peers.findPeerByAddr c.addr = none) (hi : s.peers.freeIdx = some i) :
    s.ensure c = ⟨(s.peers.newLink i c.addr c.env).1,
        (s.peers.newLink i c.addr c.env).2.2.foldl (Resources.apply c.destroyLink) s.res⟩ ∧
      s.returnsZero c = (s.peers.newLink i c.addr c.env).2.1 := by
  have he : s.peers.ensureLinkForAddr c.addr c.env = s.peers.newLink i c.addr c.env := by
    unfold Peers.ensureLinkForAddr
    rw [hno, hi]
  rw [ensure, returnsZero, he]
  exact ⟨rfl, rfl⟩

/-- What was entered for a fresh key is taken out again. -/
theorem update_undo {α β : Type} [DecidableEq α] {f : α → β} {a : α} {v w : β} (h : f a = v) :
    Function.update (Function.update f a w) a v = f := by
  rw [Function.update_idem, ← h, Function.update_eq_self]

/-- The call gets a slot, an EID and a link. -/
structure Acquires (s : Ensured) (c : EnsureCall) (i : Fin maxLinks) (eid : Eid) (link : LinkId) :
    Prop where
  no_peer : s.peers.findPeerByAddr c.addr = none
  slot : s.peers.freeIdx = some i
  eid : c.env.eidCreate = some eid
  link : c.env.createLink = some link

/-- There is a peer already, or the call fails before it has a link, or it acquires one. -/
theorem ensure_cases (hf : s.Fresh c) :
    (∃ i, s.peers.findPeerByAddr c.addr = some i) ∨
      (s.ensure c = s ∧ s.returnsZero c = false ∧ ∀ i eid link, ¬ s.Acquires c i eid link) ∨
      ∃ i eid link, s.Acquires c i eid link := by
  cases hno : s.peers.findPeerByAddr c.addr with
  | some i => exact .inl ⟨i, rfl⟩
  | none =>
    refine .inr ?_
    cases hi : s.peers.freeIdx with
    | none =>
      obtain ⟨h, h'⟩ := ensure_full hno hi
      refine .inl ⟨h, h', fun i eid link ha => ?_⟩
      cases hi.symm.trans ha.slot
    | some i =>
      obtain ⟨h, h'⟩ := ensure_new hno hi
      rw [h, h']
      cases he : c.env.eidCreate with
      | none =>
        refine .inl ⟨?_, ?_, fun i eid link ha => ?_⟩
        · simp only [Peers.newLink, he]
          rfl
        · simp only [Peers.newLink, he]
        · cases he.symm.trans ha.eid
      | some eid =>
        cases hl : c.env.createLink with
        | none =>
          refine .inl ⟨?_, ?_, fun i eid link ha => ?_⟩
          · simp only [Peers.newLink, he, hl, List.foldl_cons, List.foldl_nil, Resources.apply,
              update_undo (hf.2 eid he)]
          · simp only [Peers.newLink, he, hl]
          · cases hl.symm.trans ha.link
        | some link => exact .inr ⟨i, eid, link, hno, hi, he, hl⟩

/-- The links after the undo. -/
def undoneLinks (s : Ensured) (c : EnsureCall) (link : LinkId) : LinkId → Bool :=
  if c.destroyLink then s.res.links else Function.update s.res.links link true

/-- The observations after `unibo_bp_cla_start_observation_planned_neighbor`. -/
def nowObserved (s : Ensured) (c : EnsureCall) : UInt8 → Bool :=
  if c.env.startObservation then Function.update s.res.observed c.addr true else s.res.observed

theorem ensure_paramFails (hf : s.Fresh c) (ha : s.Acquires c i eid link)
    (hp : c.env.setLinkParam = false) :
    s.ensure c = ⟨s.peers, { s.res with links := s.undoneLinks c link }⟩ ∧
      s.returnsZero c = false := by
  obtain ⟨hno, hi, he, hl⟩ := ha
  obtain ⟨h, h'⟩ := ensure_new hno hi
  rw [h, h', undoneLinks]
  cases hd : c.destroyLink
  all_goals simp [Peers.newLink, he, hl, hp, Resources.apply, update_undo (hf.2 eid he),
    update_undo (hf.1 link hl)]

theorem ensure_openFails (hf : s.Fresh c) (ha : s.Acquires c i eid link)
    (hp : c.env.setLinkParam = true)
    (ho : c.env.openLink = false) :
    s.ensure c = ⟨s.peers, { s.res with
        links := s.undoneLinks c link, observed := s.nowObserved c }⟩ ∧
      s.returnsZero c = false := by
  obtain ⟨hno, hi, he, hl⟩ := ha
  obtain ⟨h, h'⟩ := ensure_new hno hi
  rw [h, h', undoneLinks, nowObserved]
  cases hd : c.destroyLink <;> cases hs : c.env.startObservation
  all_goals simp [Peers.newLink, he, hl, hp, ho, hs, Resources.apply,
    update_undo (hf.2 eid he), update_undo (hf.1 link hl)]

theorem ensure_made (ha : s.Acquires c i eid link)
    (hp : c.env.setLinkParam = true)
    (ho : c.env.openLink = true) :
    s.ensure c = ⟨Function.update s.peers i ⟨true, c.addr, link, some eid, true⟩,
        ⟨Function.update s.res.links link true, Function.update s.res.eids eid (some c.addr),
          s.nowObserved c⟩⟩ ∧
      s.returnsZero c = true := by
  obtain ⟨hno, hi, he, hl⟩ := ha
  obtain ⟨h, h'⟩ := ensure_new hno hi
  rw [h, h', nowObserved]
  cases hs : c.env.startObservation
  all_goals simp [Peers.newLink, he, hl, hp, ho, hs, Resources.apply]

/-! ## The invariant -/

/-- The used entries are distinct, and their links were created and not destroyed. -/
structure Inv (s : Ensured) : Prop where
  distinct : s.DistinctPeers
  linked : ∀ i, (s.peers i).used = true → s.res.links (s.peers i).linkId = true

/-- A failed call leaves the table as it is, and destroys no link of it. -/
theorem Inv.undone (h : s.Inv) {observed : UInt8 → Bool} :
    Inv ⟨s.peers, { s.res with links := s.undoneLinks c link, observed }⟩ := by
  refine ⟨h.distinct, fun j hj => ?_⟩
  show s.undoneLinks c link (s.peers j).linkId = true
  have hl := h.linked j hj
  rw [undoneLinks]
  split
  · exact hl
  · by_cases he : (s.peers j).linkId = link
    · rw [he, Function.update_self]
    · rw [Function.update_of_ne he, hl]

theorem Inv.made (h : s.Inv) (hno : s.peers.findPeerByAddr c.addr = none)
    (hl : s.res.links link = false) {eids : Eid → Option UInt8} {observed : UInt8 → Bool} :
    Inv ⟨Function.update s.peers i ⟨true, c.addr, link, some eid, true⟩,
      ⟨Function.update s.res.links link true, eids, observed⟩⟩ := by
  -- Neither the address nor the link is that of another used entry.
  have hother : ∀ j, (s.peers j).used = true →
      (s.peers j).cspAddr ≠ c.addr ∧ (s.peers j).linkId ≠ link := by
    intro j hj
    constructor
    · have hne := Fin.eq_false_of_find?_eq_none hno j
      intro ha
      simp [hj, ha] at hne
    · intro he
      have := h.linked j hj
      rw [he, hl] at this
      cases this
  constructor
  · intro j k hj hk hjk
    dsimp only at hj hk hjk
    by_cases hji : j = i
    · by_cases hki : k = i
      · rw [hji, hki]
      · rw [hji, Function.update_self, Function.update_of_ne hki] at hjk
        rw [Function.update_of_ne hki] at hk
        exact absurd hjk (not_or.mpr ⟨(hother k hk).1 ∘ Eq.symm, (hother k hk).2 ∘ Eq.symm⟩)
    · rw [Function.update_of_ne hji] at hj hjk
      by_cases hki : k = i
      · rw [hki, Function.update_self] at hjk
        exact absurd hjk (not_or.mpr (hother j hj))
      · rw [Function.update_of_ne hki] at hk hjk
        exact h.distinct j k hj hk hjk
  · intro j hj
    dsimp only at hj ⊢
    by_cases hji : j = i
    · rw [hji, Function.update_self, Function.update_self]
    · rw [Function.update_of_ne hji] at hj ⊢
      rw [Function.update_of_ne (hother j hj).2, h.linked j hj]

theorem Inv.ensure (h : s.Inv) (hf : s.Fresh c) : (s.ensure c).Inv := by
  rcases ensure_cases hf with ⟨i, hi⟩ | ⟨he, -, -⟩ | ⟨i, eid, link, ha⟩
  · rw [(ensure_found hi).1]
    exact h
  · rw [he]
    exact h
  · cases hp : c.env.setLinkParam with
    | false =>
      rw [(ensure_paramFails hf ha hp).1]
      exact h.undone
    | true =>
      cases ho : c.env.openLink with
      | false =>
        rw [(ensure_openFails hf ha hp ho).1]
        exact h.undone
      | true =>
        rw [(ensure_made ha hp ho).1]
        exact h.made ha.no_peer (hf.1 link ha.link)

theorem reach_inv (h : ensureSys.Reach s) : s.Inv := by
  refine Lts.Inductive.reach ⟨fun s hs => ?_, fun s c s' hs hstep => ?_⟩ h
  · obtain ⟨hp, -, -⟩ := hs
    constructor
    · intro i j hi
      rw [hp] at hi
      cases hi
    · intro i hi
      rw [hp] at hi
      cases hi
  · dsimp only [ensureSys] at hstep
    split at hstep
    · rename_i hf
      obtain rfl := Option.some.inj hstep
      exact hs.ensure hf
    · cases hstep

/-! ## All or nothing -/

theorem undoneLinks_eq_iff (h : s.res.links link = false) :
    s.undoneLinks c link = s.res.links ↔ c.destroyLink = true := by
  rw [undoneLinks]
  split
  · rename_i hd
    exact iff_of_true rfl hd
  · rename_i hd
    refine iff_of_false (fun he => ?_) hd
    have := congrFun he link
    rw [Function.update_self, h] at this
    cases this

theorem nowObserved_eq_iff : s.nowObserved c = s.res.observed ↔
    ¬ (c.env.startObservation = true ∧ s.res.observed c.addr = false) := by
  rw [nowObserved]
  split
  · rename_i ho
    rw [Function.update_eq_self_iff]
    simp [ho]
  · rename_i ho
    simp [ho]

theorem leaks_iff (ha : s.Acquires c i eid link) : s.Leaks c ↔
    (c.env.setLinkParam = false ∧ c.destroyLink = false) ∨
      (c.env.setLinkParam = true ∧ c.env.openLink = false ∧
        (c.destroyLink = false ∨
          (c.env.startObservation = true ∧ s.res.observed c.addr = false))) := by
  rw [Leaks, ha.no_peer, ha.slot, ha.eid, ha.link]
  simp

theorem not_leaks_of (h : ∀ i eid link, ¬ s.Acquires c i eid link) : ¬ s.Leaks c := by
  rintro ⟨hno, hi, he, hl, -⟩
  obtain ⟨i, hi⟩ := Option.isSome_iff_exists.mp hi
  obtain ⟨eid, he⟩ := Option.isSome_iff_exists.mp he
  obtain ⟨link, hl⟩ := Option.isSome_iff_exists.mp hl
  exact h i eid link ⟨hno, hi, he, hl⟩

/-- A call that fails is all or nothing iff it changes nothing. -/
theorem allOrNothing_of_failed (h : s.returnsZero c = false) :
    s.AllOrNothing c ↔ s.ensure c = s := by
  refine ⟨fun ha => ha.undone h, fun he => ⟨fun h' => ?_, fun _ => he⟩⟩
  rw [h] at h'
  cases h'

/-- One that succeeds has made the peer, or found it. -/
theorem allOrNothing_of_inv (h : (s.ensure c).Inv) (h0 : s.returnsZero c = true) {i : Fin maxLinks}
    (hu : ((s.ensure c).peers i).used = true) (ha : ((s.ensure c).peers i).cspAddr = c.addr) :
    s.AllOrNothing c := by
  refine ⟨fun _ => ⟨i, hu, ha, h.linked i hu, fun j hj hja => ?_⟩, fun h' => ?_⟩
  · exact h.distinct j i hj hu (.inl (hja.trans ha.symm))
  · rw [h0] at h'
    cases h'

/-- Two states that differ in the links and the observations at most. -/
theorem eq_self_iff {links : LinkId → Bool} {observed : UInt8 → Bool} :
    (⟨s.peers, { s.res with links, observed }⟩ : Ensured) = s ↔
      links = s.res.links ∧ observed = s.res.observed := by
  constructor
  · intro h
    exact ⟨congrArg (fun s : Ensured => s.res.links) h,
      congrArg (fun s : Ensured => s.res.observed) h⟩
  · rintro ⟨rfl, rfl⟩
    rfl

theorem allOrNothing_iff (h : s.Inv) (hf : s.Fresh c) : s.AllOrNothing c ↔ ¬ s.Leaks c := by
  have hinv := h.ensure hf
  rcases ensure_cases hf with ⟨i, hi⟩ | ⟨he, h0, hno⟩ | ⟨i, eid, link, ha⟩
  · obtain ⟨he, h0⟩ := ensure_found hi
    obtain ⟨hu, ha⟩ := Peers.findPeerByAddr_eq_some hi
    refine iff_of_true (allOrNothing_of_inv hinv h0 (i := i) ?_ ?_) ?_
    · rwa [he]
    · rwa [he]
    · rintro ⟨hno, -⟩
      rw [hi] at hno
      cases hno
  · exact iff_of_true ((allOrNothing_of_failed h0).mpr he) (not_leaks_of hno)
  · rw [leaks_iff ha]
    have hlinks := undoneLinks_eq_iff (c := c) (hf.1 link ha.link)
    cases hp : c.env.setLinkParam with
    | false =>
      obtain ⟨he, h0⟩ := ensure_paramFails hf ha hp
      rw [allOrNothing_of_failed h0, he, eq_self_iff, hlinks]
      simp
    | true =>
      cases ho : c.env.openLink with
      | false =>
        obtain ⟨he, h0⟩ := ensure_openFails hf ha hp ho
        rw [allOrNothing_of_failed h0, he, eq_self_iff, hlinks, nowObserved_eq_iff]
        simp
      | true =>
        obtain ⟨he, h0⟩ := ensure_made ha hp ho
        have hself : (s.ensure c).peers i = ⟨true, c.addr, link, some eid, true⟩ := by
          rw [he]
          exact Function.update_self ..
        refine iff_of_true (allOrNothing_of_inv hinv h0 (i := i) ?_ ?_) (by simp)
        · rw [hself]
        · rw [hself]

/-- In every state that calls can reach, the used entries are distinct; the next call is all or
nothing iff it does not leak. -/
theorem all_or_nothing_iff (h : ensureSys.Reach s) (hf : s.Fresh c) :
    s.DistinctPeers ∧ (s.AllOrNothing c ↔ ¬ s.Leaks c) :=
  ⟨(reach_inv h).distinct, allOrNothing_iff (reach_inv h) hf⟩

/-- Nothing is held, and no neighbour is observed. -/
def empty : Ensured := ⟨Peers.zero, ⟨fun _ => false, fun _ => none, fun _ => false⟩⟩

/-- A call for address 5. -/
def callFor5 (openLink : Bool) : EnsureCall := ⟨5, ⟨some 1, some 7, true, true, openLink⟩, true⟩

/-- With every call to Unibo-BP successful, the peer is made. -/
theorem peer_made_for_5 : empty.AllOrNothing (callFor5 true) :=
  (all_or_nothing_iff (Lts.Reach.init ⟨rfl, fun _ => rfl, fun _ => rfl⟩)
    ⟨fun _ _ => rfl, fun _ _ => rfl⟩).2.mpr (by
      rintro ⟨-, -, -, -, ⟨h, -⟩ | ⟨-, h, -⟩⟩ <;> cases h)

/-- The link cannot be opened: the call returns -1, and neighbour 5 is under observation. -/
theorem open_failure_leaks_observation :
    ensureSys.Reach empty ∧ empty.Fresh (callFor5 false) ∧
      empty.returnsZero (callFor5 false) = false ∧ empty.res.observed 5 = false ∧
      (empty.ensure (callFor5 false)).res.observed 5 = true ∧
      ¬ empty.AllOrNothing (callFor5 false) := by
  have h0 : empty.returnsZero (callFor5 false) = false := by decide
  have ho : (empty.ensure (callFor5 false)).res.observed 5 = true := by decide
  refine ⟨.init ⟨rfl, fun _ => rfl, fun _ => rfl⟩, ⟨fun _ _ => rfl, fun _ _ => rfl⟩, h0, rfl, ho,
    fun h => ?_⟩
  rw [h.undone h0] at ho
  cases ho

end Ensured

end Cspcl.Unibo
