import Cspcl.Inbound.Frame
import Cspcl.Inbound.Kept
import Cspcl.Inbound.Sections
import Cspcl.Inbound.StopBound

/-!
# One stream at a time

Bundles carry no order across streams. Where a stream is dropped before the next one is opened, as
far as it was not closed with bundles in it, they are yielded in the order in which they were
delivered.

* `InOrder`: what was yielded, then the stream that was not dropped, then `pending`: together the
  deliveries, in order.
* `InOrder.step`: what a step adds to the bundles that were yielded.
* `World.Starts`: if no close comes between `subscribe` and the start of the accept thread, a stream
  that fails to start was open.
-/

namespace Cspcl.Inbound

/-- The stream was opened, and was not dropped. -/
def World.Kept (w : World) (id : Nat) : Prop := w.status id = .open ∨ w.status id = .ended

/-- The bundle that a step yields. -/
def World.gives (w : World) : Op → List Delivery
  | .pollNext id => bundles ((w.recv.chan id).queue.take 1)
  | _ => []

/-- `got`: what was yielded so far; `q`: what the stream that was not dropped has yet. -/
structure InOrder (w : World) (got q : List Delivery) : Prop where
  one : ∀ i j, w.Kept i → w.Kept j → i = j
  pending : ∀ i, w.status i = .open → w.recv.pending = []
  queue : ∀ i, w.Kept i → bundles (w.recv.chan i).queue = q
  empty : (∀ i, ¬ w.Kept i) → q = []
  all : got ++ q ++ w.recv.pending = w.delivered

variable {w w' : World} {got q : List Delivery} {now : Nat} {op : Op}

theorem World.kept_endAll (i : Nat) : w.endAll.Kept i ↔ w.Kept i := by
  simp only [Kept, endAll]
  split
  · rename_i h
    simp [h]
  · rfl

theorem World.kept_of_held {id : Nat} (h : w.held id = true) : w.Kept id := by
  simp only [held, Bool.and_eq_true, Bool.or_eq_true, beq_iff_eq] at h
  exact h.1

theorem World.not_open_endAll (i : Nat) : w.endAll.status i ≠ .open := by
  simp only [endAll]
  split
  · simp
  · rename_i h
    exact h

namespace InOrder

/-- No bundle moves, and the streams stay, or end. -/
theorem same (h : InOrder w got q) (hk : ∀ i, w'.Kept i ↔ w.Kept i)
    (ho : ∀ i, w'.status i = .open → w.status i = .open)
    (hp : w'.recv.pending = w.recv.pending)
    (hq : ∀ i, bundles (w'.recv.chan i).queue = bundles (w.recv.chan i).queue)
    (hd : w'.delivered = w.delivered) : InOrder w' got q where
  one i j hi hj := h.one i j ((hk i).mp hi) ((hk j).mp hj)
  pending i hi := hp.trans (h.pending i (ho i hi))
  queue i hi := (hq i).trans (h.queue i ((hk i).mp hi))
  empty hn := h.empty fun i hi => hn i ((hk i).mpr hi)
  all := by rw [hp, hd, h.all]

theorem deliver (h : InOrder w got q) (hst : StreamsInv w) (item : Item Bundle) :
    ∃ q', InOrder (w.deliver item) got q' := by
  cases item with
  | error e =>
    rcases Receiver.deliver_cases (.error e) hst.open_chan with ⟨-, he⟩ | ⟨k, hk, he⟩
    · refine ⟨q, h.same (fun _ => .rfl) (fun _ ho => ho) ?_ (fun i => ?_) rfl⟩
      · simp only [World.deliver, he]
        rfl
      · simp only [World.deliver, he]
        rfl
    · refine ⟨q, h.same (fun _ => .rfl) (fun _ ho => ho) ?_ (fun i => ?_) rfl⟩
      · simp only [World.deliver, he]
        rfl
      · simp only [World.deliver, he]
        by_cases hi : i = k
        · rw [hi, Receiver.chan_setChan_self, bundles_append]
          exact List.append_nil _
        · rw [Receiver.chan_setChan_ne hi]
  | ok b =>
    let d : Delivery := ⟨w.delivered.length, b⟩
    rcases Receiver.deliver_cases (.ok d) hst.open_chan with ⟨hnil, he⟩ | ⟨k, hk, he⟩
    · refine ⟨q, h.one, fun i hi => ?_, fun i hi => ?_, h.empty, ?_⟩
      · have hmem := (hst.mem_iff i).mpr hi
        rw [hnil] at hmem
        cases hmem
      · show bundles ((w.recv.deliver (.ok d)).chan i).queue = q
        rw [he]
        exact h.queue i hi
      · show got ++ q ++ (w.recv.deliver (.ok d)).pending = w.delivered ++ [d]
        rw [he, show (w.recv.keep (.ok d)).pending = w.recv.pending ++ [d] from rfl,
          ← List.append_assoc, h.all]
    · have hopen : w.status k = .open := (hst.mem_iff k).mp (List.mem_of_getLast? hk)
      have hpend := h.pending k hopen
      refine ⟨q ++ [d], h.one, fun i hi => ?_, fun i hi => ?_, fun hn => ?_, ?_⟩
      · show (w.recv.deliver (.ok d)).pending = []
        rw [he]
        exact hpend
      · obtain rfl : i = k := h.one i k hi (.inl hopen)
        show bundles ((w.recv.deliver (.ok d)).chan i).queue = q ++ [d]
        rw [he, Receiver.chan_setChan_self, bundles_append, h.queue i hi]
        rfl
      · exact absurd (.inl hopen) (hn k)
      · have hall := h.all
        rw [hpend, List.append_nil] at hall
        show got ++ (q ++ [d]) ++ (w.recv.deliver (.ok d)).pending = w.delivered ++ [d]
        rw [he, show (w.recv.setChan k _).pending = [] from hpend, ← hall]
        simp

theorem subscribe (h : InOrder w got q) (hn : ∀ i, ¬ w.Kept i)
    (hs : w.step (now, .subscribe) = some w') : InOrder w' got w.recv.pending := by
  simp only [World.step, Receiver.subscribe_spec] at hs
  split at hs
  · cases hs
  obtain rfl := Option.some.inj hs
  -- The new stream is the only one.
  have hnew : ∀ i, i ≠ w.recv.nextId →
      ¬ (Function.update w.status w.recv.nextId .open i = .open ∨
        Function.update w.status w.recv.nextId .open i = .ended) := fun i hi hk => by
    rw [Function.update_of_ne hi] at hk
    exact hn i hk
  have honly : ∀ {i}, (Function.update w.status w.recv.nextId .open i = .open ∨
      Function.update w.status w.recv.nextId .open i = .ended) → i = w.recv.nextId :=
    fun {i} hk => by_contra fun hi => hnew i hi hk
  have hall := h.all
  rw [h.empty hn, List.append_nil] at hall
  refine ⟨fun i j hi hj => (honly hi).trans (honly hj).symm, fun _ _ => rfl, fun i hi => ?_,
    fun hno => ?_, (List.append_nil _).trans hall⟩
  · obtain rfl := honly hi
    show bundles (Function.update w.recv.chan _ _ _).queue = _
    rw [Function.update_self, bundles_map_ok]
  · exact absurd (.inl (Function.update_self ..)) (hno w.recv.nextId)

/-- The stream was not ended before: no bundle went to `pending` meanwhile. -/
theorem acceptFailed {id : Nat} (h : InOrder w got q) (hst : StreamsInv w)
    (ho : w.status id = .open) (hs : w.step (now, .acceptFailed id) = some w') :
    InOrder w' got [] := by
  simp only [World.step, Receiver.acceptFailed_spec hst.nodup] at hs
  split at hs
  · obtain rfl := Option.some.inj hs
    have hq := h.queue id (.inl ho)
    have hpend := h.pending id ho
    refine ⟨fun i j hi hj => h.one i j ((World.kept_endAll i).mp hi) ((World.kept_endAll j).mp hj),
      fun i hi => absurd hi (World.not_open_endAll i), fun i hi => ?_, fun _ => rfl, ?_⟩
    · obtain rfl := h.one i id ((World.kept_endAll i).mp hi) (.inl ho)
      show bundles (if i = i then (w.recv.chan i).drained else _).queue = []
      rw [if_pos rfl]
      rfl
    · show got ++ [] ++ (w.recv.pending ++ bundles (w.recv.chan id).queue) = w.delivered
      have hall := h.all
      rw [hpend, List.append_nil] at hall
      rw [hpend, hq, List.nil_append, List.append_nil, hall]
  · cases hs

/-- What is left in the stream comes after `pending`, which is empty unless the stream was ended. -/
theorem unsubscribe {id : Nat} (h : InOrder w got q) (hst : StreamsInv w)
    (hq : w.status id = .open ∨ q = []) (hs : w.step (now, .unsubscribe id) = some w') :
    InOrder w' got [] := by
  simp only [World.step] at hs
  split at hs
  · rename_i hheld
    obtain rfl := Option.some.inj hs
    have hkept := World.kept_of_held hheld
    have hnil : w.recv.subscribers.filter (· ≠ id) = [] := by
      refine List.filter_eq_nil_iff.mpr fun i hi hne => ?_
      exact of_decide_eq_true hne (h.one i id (.inl ((hst.mem_iff i).mp hi)) hkept)
    have hno : ∀ i, ¬ World.Kept { w.setStatus id .dropped with
        recv := w.recv.unsubscribe id now } i := by
      intro i hi
      by_cases hid : i = id
      · subst hid
        simp [World.Kept, World.setStatus] at hi
      · refine hid (h.one i id ?_ hkept)
        simpa [World.Kept, World.setStatus, Function.update_of_ne hid] using hi
    refine ⟨fun i j hi => absurd hi (hno i), fun i hi => absurd (.inl hi) (hno i),
      fun i hi => absurd hi (hno i), fun _ => rfl, ?_⟩
    show got ++ [] ++ (w.recv.unsubscribe id now).pending = w.delivered
    have hall := h.all
    rw [Receiver.unsubscribe_stopped hnil, List.append_nil]
    dsimp only
    rw [h.queue id hkept]
    rcases hq with ho | rfl
    · rw [h.pending id ho] at hall ⊢
      rw [List.append_nil] at hall
      exact hall
    · rw [List.append_nil] at hall ⊢
      exact hall
  · cases hs

theorem pollNext {id : Nat} (h : InOrder w got q) (hs : w.step (now, .pollNext id) = some w') :
    ∃ q', InOrder w' (got ++ w.gives (.pollNext id)) q' := by
  obtain ⟨hheld, ⟨item, rest, hq, rfl⟩ | ⟨hq, rfl⟩⟩ := World.pollNext_cases hs
  · have hkept := World.kept_of_held hheld
    have hhead : q = w.gives (.pollNext id) ++ bundles rest := by
      rw [← h.queue id hkept, World.gives, hq]
      exact bundles_append (l := [item])
    refine ⟨bundles rest, h.one, h.pending, fun i hi => ?_, fun hno => absurd hkept (hno id), ?_⟩
    · obtain rfl := h.one i id hi hkept
      show bundles ((w.recv.setChan i _).chan i).queue = _
      rw [Receiver.chan_setChan_self]
    · have hall := h.all
      rw [hhead, ← List.append_assoc] at hall
      exact hall
  · refine ⟨q, ?_⟩
    rw [World.gives, hq, List.take_nil, bundles_nil, List.append_nil]
    exact h

/-- A step yields what it gives, and the rest keeps its order. -/
theorem step (h : InOrder w got q) (hst : StreamsInv w) (hs : w.step (now, op) = some w')
    (hsub : op = .subscribe → ∀ i, ¬ w.Kept i)
    (hfail : ∀ id, op = .acceptFailed id → w.status id = .open)
    (hun : ∀ id, op = .unsubscribe id → w.status id = .open ∨ q = []) :
    ∃ q', InOrder w' (got ++ w.gives op) q' := by
  -- The other steps give nothing.
  have hgot : ∀ {q'}, InOrder w' got q' → w.gives op = [] → ∃ q', InOrder w' (got ++ w.gives op) q' :=
    fun {q'} h' hg => ⟨q', by rwa [hg, List.append_nil]⟩
  cases op with
  | deliver item =>
    obtain rfl := Option.some.inj hs
    obtain ⟨q', h'⟩ := h.deliver hst item
    exact hgot h' rfl
  | subscribe => exact hgot (h.subscribe (hsub rfl) hs) rfl
  | acceptFailed id => exact hgot (h.acceptFailed hst (hfail id rfl) hs) rfl
  | unsubscribe id => exact hgot (h.unsubscribe hst (hun id rfl) hs) rfl
  | pollNext id => exact h.pollNext hs
  | beginClose =>
    obtain rfl := Option.some.inj hs
    exact hgot (h.same World.kept_endAll (fun i hi => absurd hi (World.not_open_endAll i)) rfl
      (fun _ => rfl) rfl) rfl
  | panic id =>
    simp only [World.step] at hs
    split at hs
    · obtain rfl := Option.some.inj hs
      exact hgot (h.same World.kept_endAll (fun i hi => absurd hi (World.not_open_endAll i)) rfl
        (fun _ => rfl) rfl) rfl
    · cases hs
  | sendSpawnError id =>
    simp only [World.step] at hs
    split at hs
    · obtain rfl := Option.some.inj hs
      refine hgot (h.same (fun _ => .rfl) (fun _ ho => ho) rfl (fun i => ?_) rfl) rfl
      show bundles ((w.recv.setChan id _).chan i).queue = _
      by_cases hi : i = id
      · rw [hi, Receiver.chan_setChan_self, Receiver.bundles_sendOrDrop_error]
      · rw [Receiver.chan_setChan_ne hi]
    · cases hs
  | decide id =>
    simp only [World.step] at hs
    split at hs
    · obtain rfl := Option.some.inj hs
      have hsame : w.recv.decideAccept.2.pending = w.recv.pending ∧
          w.recv.decideAccept.2.chan = w.recv.chan := by
        unfold Receiver.decideAccept
        split <;> exact ⟨rfl, rfl⟩
      exact hgot (h.same (fun _ => .rfl) (fun _ ho => ho) hsame.1 (fun i => by
        show bundles (w.recv.decideAccept.2.chan i).queue = _
        rw [hsame.2]) rfl) rfl
    · cases hs
  | iterate id failure =>
    simp only [World.step] at hs
    split at hs
    · rename_i ht
      have hst' : StreamsInv (w.setThread id .top) := by
        have : w.step (now, .iterate id none) = some (w.setThread id .top) := by
          simp [World.step, ht]
        exact hst.step this
      have h' : InOrder (w.setThread id .top) got q :=
        h.same (fun _ => .rfl) (fun _ ho => ho) rfl (fun _ => rfl) rfl
      split at hs
      · obtain rfl := Option.some.inj hs
        obtain ⟨q', h'⟩ := h'.deliver hst' _
        exact hgot h' rfl
      · obtain rfl := Option.some.inj hs
        exact hgot h' rfl
    · cases hs
  | spawned id | spawnFailed id | closeGuardDrop =>
    simp only [World.step] at hs
    split at hs
    · obtain rfl := Option.some.inj hs
      exact hgot (h.same (fun _ => .rfl) (fun _ ho => ho) rfl (fun _ => rfl) rfl) rfl
    · cases hs

end InOrder

theorem Accept.inSubscribe_of_starting {a : Accept} (h : a.starting = true) :
    a.inSubscribe = true := by
  cases a <;> simp [starting, inSubscribe] at h ⊢

namespace World

variable {id : Nat}

/-- Only a poll of a stream takes an item from it. -/
theorem step_yielded (hs : w.step (now, op) = some w') (hop : op ≠ .pollNext id) :
    w'.yielded id = w.yielded id := by
  cases op with
  | pollNext k =>
    have hk : id ≠ k := fun h => hop (h ▸ rfl)
    obtain ⟨-, ⟨item, rest, -, rfl⟩ | ⟨-, rfl⟩⟩ := pollNext_cases hs
    · exact Function.update_of_ne hk ..
    · rfl
  | deliver item =>
    obtain rfl := Option.some.inj hs
    cases item <;> rfl
  | beginClose =>
    obtain rfl := Option.some.inj hs
    rfl
  | iterate k failure =>
    simp only [step] at hs
    split at hs
    · cases failure <;> obtain rfl := Option.some.inj hs <;> rfl
    · cases hs
  | _ =>
    simp only [step] at hs
    split at hs
    all_goals cases hs
    rfl

/-- A stream that was dropped stays dropped. -/
theorem step_dropped (hst : StreamsInv w) (hs : w.step (now, op) = some w')
    (hid : w.status id = .dropped) : w'.status id = .dropped := by
  have hend : w.endAll.status id = .dropped := by
    simp [endAll, hid]
  cases op with
  | deliver item =>
    obtain rfl := Option.some.inj hs
    cases item <;> exact hid
  | beginClose =>
    obtain rfl := Option.some.inj hs
    exact hend
  | iterate k failure =>
    simp only [step] at hs
    split at hs
    · cases failure <;> obtain rfl := Option.some.inj hs <;> exact hid
    · cases hs
  | subscribe =>
    simp only [step, Receiver.subscribe_spec] at hs
    split at hs
    · cases hs
    · obtain rfl := Option.some.inj hs
      have hne : id ≠ w.recv.nextId := by
        rintro rfl
        rw [(hst.unopened_iff _).mpr (Nat.le_refl _)] at hid
        cases hid
      exact (Function.update_of_ne hne ..).trans hid
  | pollNext k =>
    obtain ⟨-, ⟨item, rest, -, rfl⟩ | ⟨-, rfl⟩⟩ := pollNext_cases hs
    · exact hid
    · exact hid
  | unsubscribe k =>
    simp only [step] at hs
    split at hs
    · obtain rfl := Option.some.inj hs
      by_cases hk : id = k
      · exact hk ▸ Function.update_self ..
      · exact (Function.update_of_ne hk ..).trans hid
    · cases hs
  | acceptFailed k | panic k =>
    simp only [step] at hs
    split at hs
    · obtain rfl := Option.some.inj hs
      exact hend
    · cases hs
  | _ =>
    simp only [step] at hs
    split at hs
    all_goals cases hs
    exact hid

/-- The deliveries are only added to. -/
theorem delivered_prefix (hs : w.step (now, op) = some w') : w.delivered <+: w'.delivered := by
  by_cases hop : ∃ b, op = .deliver (.ok b)
  · obtain ⟨b, rfl⟩ := hop
    obtain rfl := Option.some.inj hs
    exact List.prefix_append ..
  · simp [delivered_step hs fun b hb => hop ⟨b, hb⟩]

/-- A stream that was not dropped was opened by this step, or was not dropped before. -/
theorem step_kept (hst : StreamsInv w) (hs : w.step (now, op) = some w') (hsub : op ≠ .subscribe)
    (hid : w'.Kept id) : w.Kept id := by
  by_contra hno
  have hold : w.status id = .unopened ∨ w.status id = .dropped := by
    cases h : w.status id with
    | unopened => exact .inl rfl
    | dropped => exact .inr rfl
    | «open» => exact absurd (.inl h) hno
    | ended => exact absurd (.inr h) hno
  rcases hold with hu | hd
  · have hlt := (hst.unopened_iff id).mp hu
    rw [← (frame_step hst hs).nextId hsub] at hlt
    have hu' := ((hst.step hs).unopened_iff id).mpr hlt
    rcases hid with h | h <;> rw [hu'] at h <;> cases h
  · have hd' := step_dropped hst hs hd
    rcases hid with h | h <;> rw [hd'] at h <;> cases h

/-- The stream has ended and was read to its end. -/
def Drained (w : World) (id : Nat) : Prop :=
  w.status id = .ended ∧ bundles (w.recv.chan id).queue = []

theorem drained_deliver (hst : StreamsInv w) (h : w.Drained id) (item : Item Bundle) :
    (w.deliver item).Drained id := by
  -- Bundles go to open streams.
  have hq : ∀ item, bundles ((w.recv.deliver item).chan id).queue = [] := fun item => by
    rcases Receiver.deliver_cases item hst.open_chan with ⟨-, he⟩ | ⟨k, hk, he⟩
    · rw [he]
      cases item <;> exact h.2
    · have hne : id ≠ k := by
        rintro rfl
        have hopen := (hst.mem_iff id).mp (List.mem_of_getLast? hk)
        rw [h.1] at hopen
        cases hopen
      rw [he, Receiver.chan_setChan_ne hne]
      exact h.2
  cases item <;> exact ⟨h.1, hq _⟩

/-- It stays so until it is dropped. -/
theorem Drained.step (h : w.Drained id) (hst : StreamsInv w) (hs : w.step (now, op) = some w')
    (hun : op ≠ .unsubscribe id) : w'.Drained id := by
  have hend : w.endAll.status id = .ended := by
    simp [endAll, h.1]
  have hmem : id ∉ w.recv.subscribers := fun hm => by
    have hopen := (hst.mem_iff id).mp hm
    rw [h.1] at hopen
    cases hopen
  cases op with
  | deliver item =>
    obtain rfl := Option.some.inj hs
    exact drained_deliver hst h item
  | subscribe =>
    simp only [World.step, Receiver.subscribe_spec] at hs
    split at hs
    · cases hs
    · obtain rfl := Option.some.inj hs
      have hne : id ≠ w.recv.nextId := by
        rintro rfl
        have hu := (hst.unopened_iff _).mpr (Nat.le_refl w.recv.nextId)
        rw [h.1] at hu
        cases hu
      refine ⟨(Function.update_of_ne hne ..).trans h.1, ?_⟩
      show bundles (Function.update w.recv.chan _ _ id).queue = []
      rw [Function.update_of_ne hne]
      exact h.2
  | acceptFailed k =>
    simp only [World.step, Receiver.acceptFailed_spec hst.nodup] at hs
    split at hs
    · obtain rfl := Option.some.inj hs
      refine ⟨hend, ?_⟩
      dsimp only
      split
      · rfl
      · exact h.2
    · cases hs
  | sendSpawnError k =>
    simp only [World.step] at hs
    split at hs
    · obtain rfl := Option.some.inj hs
      refine ⟨h.1, ?_⟩
      show bundles ((w.recv.setChan k _).chan id).queue = []
      by_cases hi : id = k
      · rw [← hi, Receiver.chan_setChan_self, Receiver.bundles_sendOrDrop_error]
        exact h.2
      · rw [Receiver.chan_setChan_ne hi]
        exact h.2
    · cases hs
  | pollNext k =>
    obtain ⟨-, ⟨item, rest, hq, rfl⟩ | ⟨-, rfl⟩⟩ := pollNext_cases hs
    · refine ⟨h.1, ?_⟩
      show bundles ((w.recv.setChan k _).chan id).queue = []
      by_cases hi : id = k
      · subst hi
        rw [Receiver.chan_setChan_self]
        have hnil := h.2
        rw [hq] at hnil
        cases item with
        | ok b => cases hnil
        | error e => exact hnil
      · rw [Receiver.chan_setChan_ne hi]
        exact h.2
    · exact h
  | unsubscribe k =>
    have hne : id ≠ k := by
      rintro rfl
      exact hun rfl
    simp only [World.step] at hs
    split at hs
    · obtain rfl := Option.some.inj hs
      refine ⟨(Function.update_of_ne hne ..).trans h.1, ?_⟩
      show bundles ((w.recv.unsubscribe k now).chan id).queue = []
      rcases Receiver.unsubscribe_cases k now hst.open_chan with ⟨-, he⟩ | ⟨j, hj, -, he⟩
      · rw [he]
        dsimp only
        rw [Function.update_of_ne hne]
        exact h.2
      · have hij : id ≠ j := by
          rintro rfl
          exact hmem (List.mem_filter.mp (List.mem_of_getLast? hj)).1
        rw [he]
        dsimp only
        rw [Function.update_of_ne hij, Function.update_of_ne hne]
        exact h.2
    · cases hs
  | beginClose =>
    obtain rfl := Option.some.inj hs
    exact ⟨hend, h.2⟩
  | panic k =>
    simp only [World.step] at hs
    split at hs
    · obtain rfl := Option.some.inj hs
      exact ⟨hend, h.2⟩
    · cases hs
  | decide k =>
    simp only [World.step] at hs
    split at hs
    · obtain rfl := Option.some.inj hs
      refine ⟨h.1, ?_⟩
      show bundles (w.recv.decideAccept.2.chan id).queue = []
      unfold Receiver.decideAccept
      split <;> exact h.2
    · cases hs
  | iterate k failure =>
    simp only [World.step] at hs
    split at hs
    · rename_i ht
      have hst' : StreamsInv (w.setThread k .top) := by
        have : w.step (now, .iterate k none) = some (w.setThread k .top) := by
          simp [World.step, ht]
        exact hst.step this
      split at hs
      · obtain rfl := Option.some.inj hs
        exact drained_deliver hst' h _
      · obtain rfl := Option.some.inj hs
        exact h
    · cases hs
  | spawned k | spawnFailed k | closeGuardDrop =>
    simp only [World.step] at hs
    split at hs
    · obtain rfl := Option.some.inj hs
      exact h
    · cases hs

/-- Each stream whose accept thread is still to be started is open. -/
def Starts (w : World) : Prop := ∀ id, (w.thread id).starting = true → w.status id = .open

/-- No other stream is being started while an accept thread runs or is about to. -/
theorem not_starting_endAll (hth : AcceptInv w) {a : Accept}
    (hid : (w.thread id).active = true) (ha : a.starting = false) {j : Nat}
    (hj : (Function.update w.thread id a j).starting = true) : w.endAll.status j = .open := by
  have hja : j ≠ id := by
    rintro rfl
    rw [Function.update_self, ha] at hj
    cases hj
  rw [Function.update_of_ne hja] at hj
  exact absurd (hth.unique j id (by simp [Accept.active, hj]) hid) hja

theorem Starts.update (h : w.Starts) {a : Accept}
    (ha : a.starting = true → (w.thread id).starting = true) {j : Nat}
    (hj : (Function.update w.thread id a j).starting = true) : w.status j = .open := by
  by_cases hja : j = id
  · subst hja
    rw [Function.update_self] at hj
    exact h j (ha hj)
  · rw [Function.update_of_ne hja] at hj
    exact h j hj

theorem Starts.step (h : w.Starts) (hst : StreamsInv w) (hth : AcceptInv w)
    (hs : w.step (now, op) = some w')
    (hclose : op = .beginClose → ∀ id, (w.thread id).starting = false) : w'.Starts := by
  cases op with
  | deliver item =>
    obtain rfl := Option.some.inj hs
    cases item <;> exact h
  | subscribe =>
    simp only [step, Receiver.subscribe_spec] at hs
    split at hs
    · cases hs
    · obtain rfl := Option.some.inj hs
      intro id hid
      show Function.update w.status _ _ id = _
      by_cases hn : id = w.recv.nextId
      · rw [hn, Function.update_self]
      · rw [Function.update_of_ne hn]
        refine h id ?_
        dsimp only at hid
        split at hid
        · rwa [Function.update_of_ne hn] at hid
        · exact hid
  | acceptFailed k =>
    simp only [step] at hs
    split at hs
    · rename_i ht
      obtain rfl := Option.some.inj hs
      exact fun id hid => not_starting_endAll hth (by simp [ht, Accept.active, Accept.starting])
        rfl hid
    · cases hs
  | panic k =>
    simp only [step] at hs
    split at hs
    · rename_i ht
      obtain rfl := Option.some.inj hs
      exact fun id hid => not_starting_endAll hth (by simp [Accept.active, ht]) rfl hid
    · cases hs
  | beginClose =>
    obtain rfl := Option.some.inj hs
    intro id hid
    have hid' : (w.thread id).starting = true := hid
    rw [hclose rfl id] at hid'
    cases hid'
  | pollNext k =>
    obtain ⟨-, ⟨item, rest, -, rfl⟩ | ⟨-, rfl⟩⟩ := pollNext_cases hs <;> exact h
  | unsubscribe k =>
    simp only [step] at hs
    split at hs
    · rename_i hheld
      obtain rfl := Option.some.inj hs
      intro id hid
      have hne : id ≠ k := by
        rintro rfl
        have hin := Accept.inSubscribe_of_starting (a := w.thread id) hid
        simp [held, hin] at hheld
      exact (Function.update_of_ne hne ..).trans (h id hid)
    · cases hs
  | spawned k | spawnFailed k | sendSpawnError k =>
    simp only [step] at hs
    split at hs
    · rename_i ht
      obtain rfl := Option.some.inj hs
      exact fun id hid => h.update (by rw [ht]; decide) hid
    · cases hs
  | decide k =>
    simp only [step] at hs
    split at hs
    · rename_i ht
      obtain rfl := Option.some.inj hs
      refine fun id hid => h.update (fun hb => ?_) hid
      split at hb <;> cases hb
    · cases hs
  | iterate k failure =>
    simp only [step] at hs
    split at hs
    · cases failure <;> obtain rfl := Option.some.inj hs <;>
        exact fun id hid => h.update (a := .top) (by rintro ⟨⟩) hid
    · cases hs
  | closeGuardDrop =>
    simp only [step] at hs
    split at hs
    · obtain rfl := Option.some.inj hs
      exact h
    · cases hs

end World

end Cspcl.Inbound
