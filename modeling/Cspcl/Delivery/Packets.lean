import Cspcl.Delivery.Senders
import Cspcl.Lib.Custody

/-!
# Where the packets are

`Packets` is the invariant of the connections and the receivers: the packets on a connection are of
attempts on it, the first fragment of an attempt is in one place at most (on its connection, with
one receive call, or received), and so is its ack (on its connection, or read); an ack is of an
attempt that was received. Most steps only lose packets (`Packets.calm`); each other step has its
own lemma.
-/

namespace Cspcl

/-- The attempts of which the packets hold the first fragment. -/
def firsts (l : List Frag) : List Nat :=
  l.filterMap fun f => if f.index = 0 then some f.attempt else none

theorem mem_firsts {l : List Frag} {a : Nat} : a ∈ firsts l ↔ ⟨a, 0⟩ ∈ l := by
  unfold firsts
  rw [List.mem_filterMap]
  constructor
  · rintro ⟨⟨b, j⟩, hf, h⟩
    split at h
    · rename_i hj
      cases h
      exact (show j = 0 from hj) ▸ hf
    · cases h
  · intro h
    exact ⟨⟨a, 0⟩, h, rfl⟩

theorem firsts_append {l m : List Frag} : firsts (l ++ m) = firsts l ++ firsts m :=
  List.filterMap_append

theorem firsts_sublist {l m : List Frag} (h : l.Sublist m) : (firsts l).Sublist (firsts m) :=
  h.filterMap _

/-- One packet has one first fragment at most. -/
theorem firsts_nodup (f : Frag) : (firsts [f]).Nodup := by
  by_cases hj : f.index = 0 <;> simp [firsts, hj]

/-- A bundle that is not empty has a first fragment. -/
theorem frags_pos {b : Bundle} (h : b.length ≠ 0) : 0 < frags b := by
  apply Nat.div_pos
  · show maxPayload ≤ b.length + maxPayload - 1
    omega
  · decide

namespace RecvPc

/-- The attempts of which the receive call holds the first fragment, in packets or as the bundle
that it is about to confirm. -/
def firsts : RecvPc → List Nat
  | .reading _ _ _ got => Cspcl.firsts got
  | .acking _ _ a _ => [a]
  | .idle | .accepting _ _ _ | .scanning _ _ _ _ => []

/-- The receive call holds nothing. -/
def Calm : RecvPc → Prop
  | .reading _ _ _ got => got = []
  | .acking _ _ _ _ => False
  | .idle | .accepting _ _ _ | .scanning _ _ _ _ => True

theorem Calm.firsts_eq {pc : RecvPc} (h : pc.Calm) : pc.firsts = [] := by
  cases pc with
  | reading _ _ _ got =>
    obtain rfl : got = [] := h
    rfl
  | acking _ _ _ _ => exact h.elim
  | _ => rfl

end RecvPc

/-- The list of attempts is extended. -/
def Tx.Grows (s s' : Tx) : Prop :=
  ∀ (a : Nat) (x : Attempt), s.attempts[a]? = some x → s'.attempts[a]? = some x

/-- The attempt `a` is on connection `c`. -/
def Tx.On (s : Tx) (a : Nat) (c : Conn) : Prop := ∃ x, s.attempts[a]? = some x ∧ x.conn = c

/-- Where the first fragment of an attempt can be. -/
inductive Place where
  | fwd (c : Conn)
  | reader (r : Nat)
  | received

/-- Where an ack can be. -/
inductive AckPlace where
  | back (c : Conn)
  | taken

namespace World

def firstAt (w : World) : Place → List Nat
  | .fwd c => firsts (w.link c).fwd
  | .reader r => (w.rx.recv r).firsts
  | .received => w.rx.received.map Received.attempt

def ackAt (w : World) : AckPlace → List Nat
  | .back c => (w.link c).back
  | .taken => w.tx.taken

/-- What a receive call holds is of attempts on its connection, and the bundle that it is about to
confirm is that of its attempt. -/
def Holds (w : World) : RecvPc → Prop
  | .reading _ _ c got => ∀ f ∈ got, w.tx.On f.attempt c
  | .acking _ c a data => ∃ x, w.tx.attempts[a]? = some x ∧ x.conn = c ∧ x.call.bundle = data
  | .idle | .accepting _ _ _ | .scanning _ _ _ _ => True

/-- The packets and the receivers. -/
structure Packets (w : World) : Prop where
  fwd : ∀ c, ∀ f ∈ (w.link c).fwd, w.tx.On f.attempt c
  holds : ∀ r, w.Holds (w.rx.recv r)
  received : ∀ r ∈ w.rx.received, ∃ x, w.tx.attempts[r.attempt]? = some x ∧ x.conn = r.conn ∧
    x.call.bundle = r.data
  first : Apart w.firstAt
  /-- An attempt that has queued nothing yet has no packet anywhere. -/
  queued : ∀ t a x, w.tx.send t = .sending a x 0 → ∀ p, a ∉ w.firstAt p
  back : ∀ c, ∀ a ∈ (w.link c).back, w.tx.On a c ∧ a ∈ w.firstAt .received
  acks : Apart w.ackAt
  taken : ∀ a ∈ w.tx.taken, a ∈ w.firstAt .received

variable {w w' : World} {t r a j : Nat} {x : Attempt} {c : Conn} {pc : RecvPc}

theorem Packets.lt_of_first (h : w.Packets) {p : Place} (ha : a ∈ w.firstAt p) :
    a < w.tx.attempts.length := by
  have hlt : ∀ c, w.tx.On a c → a < w.tx.attempts.length := by
    rintro c ⟨x, hx, -⟩
    exact (List.getElem?_eq_some_iff.mp hx).1
  cases p with
  | fwd c => exact hlt c (h.fwd c _ (mem_firsts.mp ha))
  | reader r =>
    have hr := h.holds r
    have ha : a ∈ (w.rx.recv r).firsts := ha
    cases hpc : w.rx.recv r with
    | reading site m c got =>
      rw [hpc] at hr ha
      exact hlt c (hr _ (mem_firsts.mp ha))
    | acking site c b data =>
      rw [hpc] at hr ha
      obtain ⟨x, hx, hc, -⟩ := hr
      obtain rfl := List.mem_singleton.mp ha
      exact hlt c ⟨x, hx, hc⟩
    | _ =>
      rw [hpc] at ha
      cases ha
  | received =>
    obtain ⟨r, hr, rfl⟩ := List.mem_map.mp ha
    obtain ⟨x, hx, -⟩ := h.received r hr
    exact (List.getElem?_eq_some_iff.mp hx).1

/-! ## Steps that lose packets at most -/

theorem On.mono (hg : w.tx.Grows w'.tx) (h : w.tx.On a c) : w'.tx.On a c := by
  obtain ⟨x, hx, hc⟩ := h
  exact ⟨x, hg a x hx, hc⟩

theorem Holds.mono (hg : w.tx.Grows w'.tx) (h : w.Holds pc) : w'.Holds pc := by
  cases pc with
  | reading site m c got => exact fun f hf => On.mono hg (h f hf)
  | acking site c a data =>
    obtain ⟨x, hx, hr⟩ := h
    exact ⟨x, hg a x hx, hr⟩
  | _ => trivial

theorem holds_of_calm (h : pc.Calm) : w.Holds pc := by
  cases pc with
  | reading site m c got =>
    obtain rfl : got = [] := h
    exact fun f hf => absurd hf List.not_mem_nil
  | acking site c a data => exact h.elim
  | _ => trivial

/-- Attempts are added, packets are lost, receive calls give up, and nothing else happens. -/
structure Calms (w w' : World) : Prop where
  grows : w.tx.Grows w'.tx
  send : ∀ t a x, w'.tx.send t = .sending a x 0 →
    w.tx.send t = .sending a x 0 ∨ w.tx.attempts.length ≤ a
  taken : w'.tx.taken = w.tx.taken
  recv : ∀ r, w'.rx.recv r = w.rx.recv r ∨ (w'.rx.recv r).Calm
  received : w'.rx.received = w.rx.received
  fwd : ∀ c, (w'.link c).fwd.Sublist (w.link c).fwd
  back : ∀ c, (w'.link c).back.Sublist (w.link c).back

theorem Calms.firstAt_sublist (hc : w.Calms w') (p : Place) :
    (w'.firstAt p).Sublist (w.firstAt p) := by
  cases p with
  | fwd c => exact firsts_sublist (hc.fwd c)
  | reader r =>
    show (w'.rx.recv r).firsts.Sublist (w.rx.recv r).firsts
    rcases hc.recv r with he | hq
    · rw [he]
    · rw [hq.firsts_eq]
      exact List.nil_sublist _
  | received =>
    show (w'.rx.received.map _).Sublist _
    rw [hc.received]
    exact .refl _

theorem Calms.received_iff (hc : w.Calms w') :
    a ∈ w'.firstAt .received ↔ a ∈ w.firstAt .received := by
  show a ∈ w'.rx.received.map _ ↔ _
  rw [hc.received]
  rfl

theorem Packets.calm (h : w.Packets) (hc : w.Calms w') : w'.Packets where
  fwd c f hf := On.mono hc.grows (h.fwd c f ((hc.fwd c).subset hf))
  holds r := by
    rcases hc.recv r with he | hq
    · rw [he]
      exact Holds.mono hc.grows (h.holds r)
    · exact holds_of_calm hq
  received r hr := by
    rw [hc.received] at hr
    obtain ⟨x, hx, hr⟩ := h.received r hr
    exact ⟨x, hc.grows _ x hx, hr⟩
  first := h.first.shrink hc.firstAt_sublist
  queued t a x ht p hp := by
    have hp := (hc.firstAt_sublist p).subset hp
    rcases hc.send t a x ht with ht | hle
    · exact h.queued t a x ht p hp
    · exact absurd (h.lt_of_first hp) (not_lt.mpr hle)
  back c a ha := by
    obtain ⟨hon, hr⟩ := h.back c a ((hc.back c).subset ha)
    exact ⟨On.mono hc.grows hon, hc.received_iff.mpr hr⟩
  acks := by
    apply h.acks.shrink
    intro p
    cases p with
    | back c => exact hc.back c
    | taken =>
      show w'.tx.taken.Sublist w.tx.taken
      rw [hc.taken]
  taken a ha := by
    rw [hc.taken] at ha
    exact hc.received_iff.mpr (h.taken a ha)

/-! ## The other steps -/

theorem link_setLink {l : Link} {d : Conn} :
    (w.setLink c l).link d = if d = c then l else w.link d := by
  simp [setLink, Function.update_apply]

theorem queue_of_open {l : Link} {f : Frag} (h : l.rxOpen = true) :
    l.queue f = { l with fwd := l.fwd ++ [f] } := if_pos h

theorem ack_of_open {l : Link} (h : l.txOpen = true) : l.ack a = { l with back := l.back ++ [a] } :=
  if_pos h

/-- A connection that stays as it is. -/
theorem setLink_self : w.setLink c (w.link c) = w := by
  show { w with link := Function.update w.link c (w.link c) } = w
  rw [Function.update_eq_self]

/-- What the new link of connection `c` has of the old one, every link has. -/
theorem setLink_congr {β : Type} (g : Link → β) {l : Link} (h : g l = g (w.link c)) (d : Conn) :
    g ((w.setLink c l).link d) = g (w.link d) := by
  rw [link_setLink]
  split
  · rename_i hd
    rw [hd, h]
  · rfl

theorem firstAt_setLink {l : Link} {p : Place} (hp : p ≠ .fwd c) :
    (w.setLink c l).firstAt p = w.firstAt p := by
  cases p with
  | fwd d =>
    show firsts _ = firsts _
    rw [link_setLink, if_neg]
    exact fun hd => hp (hd ▸ rfl)
  | _ => rfl

theorem firstAt_of_fwd {l : Link} (h : l.fwd = (w.link c).fwd) :
    (w.setLink c l).firstAt = w.firstAt := by
  funext p
  cases p with
  | fwd d => exact congrArg firsts (setLink_congr Link.fwd h d)
  | _ => rfl

theorem ackAt_setLink {l : Link} {p : AckPlace} (hp : p ≠ .back c) :
    (w.setLink c l).ackAt p = w.ackAt p := by
  cases p with
  | back d =>
    show ((w.setLink c l).link d).back = (w.link d).back
    rw [link_setLink, if_neg]
    exact fun hd => hp (hd ▸ rfl)
  | taken => rfl

theorem ackAt_of_back {l : Link} (h : l.back = (w.link c).back) :
    (w.setLink c l).ackAt = w.ackAt := by
  funext p
  cases p with
  | back d => exact setLink_congr Link.back h d
  | taken => rfl

theorem recv_goto {s : Rx} {u : Nat} :
    (s.goto r pc).recv u = if u = r then pc else s.recv u := by
  simp [Rx.goto, Function.update_apply]

theorem firstAt_goto {p : Place} (hp : p ≠ .reader r) :
    { w with rx := w.rx.goto r pc }.firstAt p = w.firstAt p := by
  cases p with
  | reader u =>
    show ((w.rx.goto r pc).recv u).firsts = (w.rx.recv u).firsts
    rw [recv_goto, if_neg]
    exact fun hu => hp (hu ▸ rfl)
  | _ => rfl

/-- A fragment of attempt `a` is queued; if it is the first one, `a` has no packet anywhere yet. -/
theorem Packets.queue (h : w.Packets) (hon : w.tx.On a c) (hnew : j = 0 → ∀ p, a ∉ w.firstAt p)
    (hidle : ∀ u y, w.tx.send u ≠ .sending a y 0) :
    (w.setLink c ((w.link c).queue ⟨a, j⟩)).Packets := by
  by_cases hopen : (w.link c).rxOpen = true
  swap
  · rw [Link.queue, if_neg hopen, setLink_self]
    exact h
  have hfwd : ((w.link c).queue ⟨a, j⟩).fwd = (w.link c).fwd ++ [⟨a, j⟩] := by
    rw [queue_of_open hopen]
  have hback : ((w.link c).queue ⟨a, j⟩).back = (w.link c).back := by rw [queue_of_open hopen]
  generalize (w.link c).queue ⟨a, j⟩ = l at hfwd hback
  have hat : (w.setLink c l).firstAt (.fwd c) = w.firstAt (.fwd c) ++ firsts [⟨a, j⟩] := by
    show firsts ((w.setLink c l).link c).fwd = firsts _ ++ _
    rw [link_setLink, if_pos rfl, hfwd, firsts_append]
  have hother : ∀ p, p ≠ .fwd c → (w.setLink c l).firstAt p = w.firstAt p :=
    fun p hp => firstAt_setLink hp
  have hone : ∀ b ∈ firsts [⟨a, j⟩], j = 0 ∧ b = a := by
    intro b hb
    cases List.mem_singleton.mp (mem_firsts.mp hb)
    exact ⟨rfl, rfl⟩
  refine ⟨fun d f hf => ?_, h.holds, h.received, ?_, fun u b y hu p hp => ?_, fun d b hb => ?_,
    ?_, ?_⟩
  · rw [link_setLink] at hf
    split at hf
    · rename_i hd
      rw [hfwd] at hf
      rcases List.mem_append.mp hf with hf | hf
      · exact hd ▸ h.fwd c f hf
      · rw [List.mem_singleton.mp hf, hd]
        exact hon
    · exact h.fwd d f hf
  · refine h.first.put (firsts_nodup ⟨a, j⟩) (fun b hb p => ?_) ?_ hother
    · obtain ⟨hj, rfl⟩ := hone b hb
      exact hnew hj p
    · rw [hat]
  · apply h.queued u b y hu p
    by_cases hpc : p = .fwd c
    · rw [hpc, hat] at hp
      rcases List.mem_append.mp hp with hp | hp
      · exact hpc ▸ hp
      · -- A thread that has queued nothing is not in this attempt.
        exact absurd ((hone b hp).2 ▸ hu) (hidle u y)
    · rwa [hother p hpc] at hp
  · rw [setLink_congr Link.back hback] at hb
    rw [hother .received nofun]
    exact h.back d b hb
  · rw [ackAt_of_back hback]
    exact h.acks
  · rw [hother .received nofun]
    exact h.taken

/-- An ack is sent; there is no other ack of its attempt. -/
theorem Packets.ack (h : w.Packets) (hon : w.tx.On a c) (hrec : a ∈ w.firstAt .received)
    (hnew : ∀ p, a ∉ w.ackAt p) : (w.setLink c ((w.link c).ack a)).Packets := by
  by_cases hopen : (w.link c).txOpen = true
  swap
  · rw [Link.ack, if_neg hopen, setLink_self]
    exact h
  have hback : ((w.link c).ack a).back = (w.link c).back ++ [a] := by rw [ack_of_open hopen]
  have hfwd : ((w.link c).ack a).fwd = (w.link c).fwd := by rw [ack_of_open hopen]
  generalize (w.link c).ack a = l at hback hfwd
  have hfirst : (w.setLink c l).firstAt = w.firstAt := firstAt_of_fwd hfwd
  refine ⟨fun d f hf => ?_, h.holds, h.received, ?_, ?_, fun d b hb => ?_, ?_, ?_⟩
  · rw [setLink_congr Link.fwd hfwd] at hf
    exact h.fwd d f hf
  · rw [hfirst]
    exact h.first
  · rw [hfirst]
    exact h.queued
  · rw [hfirst]
    rw [link_setLink] at hb
    split at hb
    · rename_i hd
      rw [hback] at hb
      rcases List.mem_append.mp hb with hb | hb
      · exact hd ▸ h.back c b hb
      · rw [List.mem_singleton.mp hb, hd]
        exact ⟨hon, hrec⟩
    · exact h.back d b hb
  · apply h.acks.put (p := .back c) (l := [a]) (List.nodup_singleton a)
    · intro b hb
      rw [List.mem_singleton.mp hb]
      exact hnew
    · show ((w.setLink c l).link c).back.Perm ((w.link c).back ++ [a])
      rw [link_setLink, if_pos rfl, hback]
    · exact fun p hp => ackAt_setLink hp
  · rw [hfirst]
    exact h.taken

/-- `csp_sfp_recv` reads the packet `f`. -/
theorem Packets.consume {site : RecvSite} {m : Nat} {got rest : List Frag} {f : Frag}
    (h : w.Packets) (hpc : w.rx.recv r = .reading site m c got) (hf : (w.link c).fwd = f :: rest) :
    ({ w with rx := w.rx.goto r (.reading site m c (got ++ [f])) }.setLink c
      { w.link c with fwd := rest }).Packets := by
  generalize hv : { w with rx := w.rx.goto r (.reading site m c (got ++ [f])) } = v
  generalize hl : ({ w.link c with fwd := rest } : Link) = l
  have htx : v.tx = w.tx := by rw [← hv]
  have hlink : v.link = w.link := by rw [← hv]
  have hback : l.back = (v.link c).back := by rw [← hl, hlink]
  -- The first fragments: `f` goes from the connection to the receive call.
  have hsplit : w.firstAt (.fwd c) = firsts [f] ++ (v.setLink c l).firstAt (.fwd c) := by
    show firsts _ = firsts _ ++ firsts ((v.setLink c l).link c).fwd
    rw [link_setLink, if_pos rfl, ← hl, hf, ← firsts_append]
    rfl
  have hreader : (v.setLink c l).firstAt (.reader r) = w.firstAt (.reader r) ++ firsts [f] := by
    show (v.rx.recv r).firsts = (w.rx.recv r).firsts ++ _
    rw [← hv, recv_goto, if_pos rfl, hpc]
    exact firsts_append
  have hother : ∀ p, p ≠ .fwd c → p ≠ .reader r →
      (v.setLink c l).firstAt p = w.firstAt p := by
    intro p hp hp'
    rw [firstAt_setLink hp, ← hv]
    exact firstAt_goto hp'
  refine ⟨fun d g hg => ?_, fun u => ?_, ?_, ?_, fun u b y hu p hp => ?_, fun d b hb => ?_, ?_, ?_⟩
  · show v.tx.On _ _
    rw [htx]
    rw [link_setLink] at hg
    split at hg
    · rename_i hd
      subst hd
      apply h.fwd d g
      rw [← hl] at hg
      rw [hf]
      exact List.mem_cons_of_mem _ hg
    · exact h.fwd d g (hlink ▸ hg)
  · have hu := h.holds u
    show v.Holds (v.rx.recv u)
    rw [← hv, recv_goto]
    split
    · rename_i hur
      rw [hur, hpc] at hu
      intro g hg
      rcases List.mem_append.mp hg with hg | hg
      · exact hu g hg
      · rw [List.mem_singleton.mp hg]
        apply h.fwd c f
        rw [hf]
        exact List.mem_cons_self ..
    · exact Holds.mono (fun _ _ hx => hx) hu
  · rw [← hv]
    exact h.received
  · exact h.first.move (q := .fwd c) (p := .reader r) nofun hsplit (.of_eq hreader) hother
  · obtain ⟨q, hq⟩ := Apart.mem_of_move hsplit (.of_eq hreader) hother hp
    rw [← hv] at hu
    exact h.queued u b y hu q hq
  · rw [setLink_congr Link.back hback, hlink] at hb
    rw [hother .received nofun nofun]
    show v.tx.On _ _ ∧ _
    rw [htx]
    exact h.back d b hb
  · rw [ackAt_of_back hback, ← hv]
    exact h.acks
  · rw [hother .received nofun nofun, ← hv]
    exact h.taken

/-- `csp_sfp_recv` has read all of attempt `a`, whose bundle fits into the buffer. -/
theorem Packets.reassemble {site : RecvSite} {m : Nat} {got : List Frag} (h : w.Packets)
    (hpc : w.rx.recv r = .reading site m c got) (hx : w.tx.attempts[a]? = some x)
    (hgot : ⟨a, 0⟩ ∈ got) :
    { w with rx := w.rx.goto r (.acking site c a x.call.bundle) }.Packets := by
  have hsub : ∀ p, (firstAt { w with rx := w.rx.goto r (.acking site c a x.call.bundle) } p).Sublist
      (w.firstAt p) := by
    intro p
    by_cases hp : p = .reader r
    · subst hp
      show ((w.rx.goto r (.acking site c a x.call.bundle)).recv r).firsts.Sublist
        (w.rx.recv r).firsts
      rw [recv_goto, if_pos rfl, hpc]
      exact List.singleton_sublist.mpr (mem_firsts.mpr hgot)
    · rw [firstAt_goto hp]
  refine ⟨h.fwd, fun u => ?_, h.received, h.first.shrink hsub, fun u b y hu p hp => ?_, h.back,
    h.acks, h.taken⟩
  · have hu := h.holds u
    show Holds _ ((w.rx.goto r (.acking site c a x.call.bundle)).recv u)
    rw [recv_goto]
    split
    · rename_i hur
      rw [hur, hpc] at hu
      obtain ⟨z, hz, hc⟩ := hu _ hgot
      obtain rfl : x = z := Option.some.inj (hx.symm.trans hz)
      exact ⟨x, hx, hc, rfl⟩
    · exact Holds.mono (fun _ _ hx => hx) hu
  · exact h.queued u b y hu p ((hsub p).subset hp)

/-- A receive call returns `CSPCL_OK` with the bundle of attempt `a`: until then `a` was received by
nobody, and has no ack. -/
theorem Packets.finish {site : RecvSite} {data : Bundle} (h : w.Packets)
    (hpc : w.rx.recv r = .acking site c a data) :
    { w with rx := w.rx.finish r site c a data }.Packets ∧
      w.tx.On a c ∧ a ∈ { w with rx := w.rx.finish r site c a data }.firstAt .received ∧
      ∀ p, a ∉ w.ackAt p := by
  have hr := h.holds r
  rw [hpc] at hr
  obtain ⟨x, hx, hc, hdata⟩ := hr
  have hreader : w.firstAt (.reader r) = [a] := congrArg RecvPc.firsts hpc
  have hreceived : (w.rx.finish r site c a data).received = w.rx.received ++ [⟨a, c, data⟩] := by
    unfold Rx.finish
    cases site <;> rfl
  have hrecv : ∀ u, (w.rx.finish r site c a data).recv u =
      if u = r then .idle else w.rx.recv u := by
    intro u
    rw [← recv_goto (s := w.rx)]
    unfold Rx.finish
    cases site <;> rfl
  have hnot : a ∉ w.firstAt .received := by
    intro hm
    have := h.first.place (.reader r) .received a (hreader ▸ List.mem_singleton_self a) hm
    cases this
  have hnew : ∀ p, a ∉ w.ackAt p := by
    intro p hp
    cases p with
    | back d => exact hnot (h.back d a hp).2
    | taken => exact hnot (h.taken a hp)
  generalize hs : w.rx.finish r site c a data = s at hreceived hrecv
  have hlast : firstAt { w with rx := s } .received = w.firstAt .received ++ [a] := by
    show s.received.map _ = w.rx.received.map _ ++ _
    rw [hreceived, List.map_append]
    rfl
  have hmem : a ∈ firstAt { w with rx := s } .received := by
    rw [hlast]
    exact List.mem_append_right _ (List.mem_singleton_self a)
  have hkeep : ∀ b, b ∈ w.firstAt .received → b ∈ firstAt { w with rx := s } .received := by
    intro b hb
    rw [hlast]
    exact List.mem_append_left _ hb
  -- The first fragment of `a` goes from the receive call to the received bundles.
  have hsplit : w.firstAt (.reader r) = [a] ++ firstAt { w with rx := s } (.reader r) := by
    rw [hreader]
    show [a] = [a] ++ (s.recv r).firsts
    rw [hrecv, if_pos rfl]
    rfl
  have hother : ∀ p, p ≠ .reader r → p ≠ .received →
      firstAt { w with rx := s } p = w.firstAt p := by
    intro p hp hp'
    cases p with
    | fwd d => rfl
    | reader u =>
      show (s.recv u).firsts = (w.rx.recv u).firsts
      rw [hrecv, if_neg]
      exact fun hu => hp (hu ▸ rfl)
    | received => exact absurd rfl hp'
  have hfirst := h.first.move (q := .reader r) (p := .received) nofun hsplit (.of_eq hlast) hother
  refine ⟨⟨h.fwd, fun u => ?_, fun q hq => ?_, hfirst, fun u b y hu p hp => ?_, fun d b hb => ?_,
    h.acks, fun b hb => hkeep b (h.taken b hb)⟩, ⟨x, hx, hc⟩, hmem, hnew⟩
  · show Holds _ (s.recv u)
    rw [hrecv]
    split
    · trivial
    · exact Holds.mono (fun _ _ hx => hx) (h.holds u)
  · rw [hreceived] at hq
    rcases List.mem_append.mp hq with hq | hq
    · exact h.received q hq
    · rw [List.mem_singleton.mp hq]
      exact ⟨x, hx, hc, hdata⟩
  · obtain ⟨q, hq⟩ := Apart.mem_of_move hsplit (.of_eq hlast) hother hp
    exact h.queued u b y hu q hq
  · obtain ⟨hon, hb⟩ := h.back d b hb
    exact ⟨hon, hkeep b hb⟩

/-- `csp_read` takes the ack `b`. -/
theorem Packets.read {s : Tx} {b : Nat} {rest : List Nat} (h : w.Packets)
    (hb : (w.link c).back = b :: rest) (hat : s.attempts = w.tx.attempts)
    (htk : s.taken = w.tx.taken ++ [b])
    (hsend : ∀ u a y, s.send u = .sending a y 0 → w.tx.send u = .sending a y 0) :
    ({ w with tx := s }.setLink c { w.link c with back := rest }).Packets := by
  generalize hl : ({ w.link c with back := rest } : Link) = l
  have hgrows : w.tx.Grows s := by
    intro a x hx
    rw [hat]
    exact hx
  have hlb : l.back = rest := by rw [← hl]
  have hfwd : l.fwd = (w.link c).fwd := by rw [← hl]
  have hfirst : ({ w with tx := s }.setLink c l).firstAt = w.firstAt := firstAt_of_fwd hfwd
  have hback : ∀ d a, a ∈ (({ w with tx := s }.setLink c l).link d).back → a ∈ (w.link d).back := by
    intro d a ha
    rw [link_setLink] at ha
    split at ha
    · rw [hlb] at ha
      rw [‹d = c›, hb]
      exact List.mem_cons_of_mem _ ha
    · exact ha
  refine ⟨fun d f hf => ?_, fun u => Holds.mono hgrows (h.holds u), fun q hq => ?_, ?_,
    fun u a y hu => ?_, fun d a ha => ?_, ?_, fun a ha => ?_⟩
  · rw [setLink_congr (w := { w with tx := s }) Link.fwd hfwd] at hf
    exact On.mono hgrows (h.fwd d f hf)
  · obtain ⟨x, hx, hq⟩ := h.received q hq
    exact ⟨x, hgrows _ x hx, hq⟩
  · rw [hfirst]
    exact h.first
  · rw [hfirst]
    exact h.queued u a y (hsend u a y hu)
  · rw [hfirst]
    obtain ⟨hon, ha⟩ := h.back d a (hback d a ha)
    exact ⟨On.mono hgrows hon, ha⟩
  · apply h.acks.move (q := .back c) (p := .taken) (l := [b]) nofun
    · show (w.link c).back = [b] ++ (({ w with tx := s }.setLink c l).link c).back
      rw [hb, link_setLink, if_pos rfl, hlb]
      rfl
    · exact .of_eq htk
    · intro p hp hp'
      rw [ackAt_setLink hp]
      cases p with
      | back d => rfl
      | taken => exact absurd rfl hp'
  · rw [hfirst]
    have ha : a ∈ s.taken := ha
    rw [htk] at ha
    rcases List.mem_append.mp ha with ha | ha
    · exact h.taken a ha
    · rw [List.mem_singleton.mp ha]
      apply (h.back c b _).2
      rw [hb]
      exact List.mem_cons_self ..

end World
end Cspcl
