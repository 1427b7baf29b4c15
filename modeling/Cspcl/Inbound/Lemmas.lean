import Cspcl.Inbound.State

/-!
# What the lock sections do

One lemma for each function of `Receiver`, for a receiver whose open streams have open channels.

* `deliver_last`, `deliver_none`: a delivery goes to the newest stream, or to `keep`.
* `deliverAll_last`, `deliverAll_none`: several bundles delivered one after the other.
* `subscribe_spec`, `acceptFailed_spec`, `unsubscribe_spec`: the whole state afterwards.
-/

namespace Cspcl.Inbound

section Bundles

variable {β : Type} {l l' : List (Item β)} {bs : List β} {b : β} {e : Error}

@[simp] theorem bundles_nil : bundles ([] : List (Item β)) = [] := rfl

@[simp] theorem bundles_ok_cons : bundles (.ok b :: l) = b :: bundles l := rfl

@[simp] theorem bundles_error_cons : bundles (.error e :: l) = bundles l := rfl

@[simp] theorem bundles_append : bundles (l ++ l') = bundles l ++ bundles l' :=
  List.filterMap_append

@[simp] theorem bundles_map_ok : bundles (bs.map Except.ok : List (Item β)) = bs := by
  induction bs with
  | nil => rfl
  | cons b bs ih => simp [ih]

end Bundles

namespace Receiver

variable {β : Type} {r : Receiver β} {id k now : Nat} {item : Item β} {bs : List β}
  {c : Chan (Item β)}

@[simp] theorem chan_setChan_self : (r.setChan id c).chan id = c := by simp [setChan]

theorem chan_setChan_ne {i : Nat} (h : i ≠ id) : (r.setChan id c).chan i = r.chan i := by
  simp [setChan, h]

theorem chan_setChan {i : Nat} : (r.setChan id c).chan i = if i = id then c else r.chan i := by
  simp [setChan, Function.update_apply]

@[simp] theorem subscribers_setChan : (r.setChan id c).subscribers = r.subscribers := rfl
@[simp] theorem pending_setChan : (r.setChan id c).pending = r.pending := rfl

/-- Setting a channel twice. -/
theorem setChan_setChan {c' : Chan (Item β)} :
    (r.setChan id c).setChan id c' = r.setChan id c' := by
  simp [setChan]

theorem deliver_last (hk : r.subscribers.getLast? = some k) (hc : (r.chan k).closed = false) :
    r.deliver item = r.setChan k ⟨(r.chan k).queue ++ [item], false⟩ := by
  simp [deliver, hk, hc]

theorem deliver_none (h : r.subscribers = []) : r.deliver item = r.keep item := by
  simp [deliver, h]

/-- Bundles delivered one after the other go to the newest stream. -/
theorem deliverAll_last (hk : r.subscribers.getLast? = some k) (hc : (r.chan k).closed = false) :
    bs.foldl (fun r b => r.deliver (.ok b)) r =
      r.setChan k ⟨(r.chan k).queue ++ bs.map Except.ok, false⟩ := by
  induction bs generalizing r with
  | nil =>
    have : r.chan k = ⟨(r.chan k).queue, false⟩ := by rw [← hc]
    simp [setChan, ← this]
  | cons b bs ih =>
    rw [List.foldl_cons, deliver_last hk hc, ih (by simpa using hk) (by simp)]
    simp [setChan_setChan]

/-- Bundles delivered one after the other while no stream is open are kept. -/
theorem deliverAll_none (h : r.subscribers = []) :
    bs.foldl (fun r b => r.deliver (.ok b)) r = { r with pending := r.pending ++ bs } := by
  induction bs generalizing r with
  | nil => simp
  | cons b bs ih =>
    rw [List.foldl_cons, deliver_none h, ih (by simpa [keep] using h)]
    simp [keep]

@[simp] theorem subscribers_keep : (r.keep item).subscribers = r.subscribers := by
  cases item <;> rfl
@[simp] theorem nextId_keep : (r.keep item).nextId = r.nextId := by cases item <;> rfl
@[simp] theorem chan_keep : (r.keep item).chan = r.chan := by cases item <;> rfl
@[simp] theorem acceptRunning_keep : (r.keep item).acceptRunning = r.acceptRunning := by
  cases item <;> rfl
@[simp] theorem stoppedAt_keep : (r.keep item).stoppedAt = r.stoppedAt := by cases item <;> rfl

/-- Where a delivery goes. -/
theorem deliver_cases (item : Item β) (ho : ∀ k ∈ r.subscribers, (r.chan k).closed = false) :
    (r.subscribers = [] ∧ r.deliver item = r.keep item) ∨
      ∃ k, r.subscribers.getLast? = some k ∧
        r.deliver item = r.setChan k ⟨(r.chan k).queue ++ [item], false⟩ := by
  cases hk : r.subscribers.getLast? with
  | none =>
    have h := List.getLast?_eq_none_iff.mp hk
    exact .inl ⟨h, deliver_none h⟩
  | some k => exact .inr ⟨k, rfl, deliver_last hk (ho k (List.mem_of_getLast? hk))⟩

theorem keepAll :
    bs.foldl (fun r b => r.keep (.ok b)) r = { r with pending := r.pending ++ bs } := by
  induction bs generalizing r with
  | nil => simp
  | cons b bs ih =>
    rw [List.foldl_cons, ih]
    simp [keep]

/-- One change of each channel of the list. -/
theorem foldl_setChan {l : List Nat} (hl : l.Nodup) (f : Chan (Item β) → Chan (Item β)) :
    l.foldl (fun r i => r.setChan i (f (r.chan i))) r =
      { r with chan := fun i => if i ∈ l then f (r.chan i) else r.chan i } := by
  induction l generalizing r with
  | nil => simp
  | cons a l ih =>
    obtain ⟨ha, hl⟩ := List.nodup_cons.mp hl
    rw [List.foldl_cons, ih hl]
    simp only [setChan, mk.injEq, true_and]
    funext i
    by_cases hi : i = a
    · subst hi; simp [ha]
    · simp [hi]

/-- `subscribe`: the new stream takes over the pending bundles. -/
theorem subscribe_spec : r.subscribe = (r.nextId, !r.acceptRunning,
    { r with nextId := r.nextId + 1, subscribers := r.subscribers ++ [r.nextId], pending := [],
             acceptRunning := true, stoppedAt := none,
             chan := Function.update r.chan r.nextId ⟨r.pending.map Except.ok, false⟩ }) := by
  have hf : (r.pending.map Except.ok).foldl Chan.sendOrDrop (Chan.new : Chan (Item β)) =
      ⟨r.pending.map Except.ok, false⟩ := by
    rw [Chan.foldl_sendOrDrop rfl]; rfl
  simp only [subscribe, hf, setChan, isReceiving]
  split
  · rename_i hr
    simp only [Option.isNone_iff_eq_none] at hr
    simp [hr]
  · rfl

/-- `acceptFailed`: all streams end, those of other calls with the error; the stream's own bundles
are kept. -/
theorem acceptFailed_spec (hn : r.subscribers.Nodup) : r.acceptFailed id now =
    { r with
      subscribers := []
      pending := r.pending ++ bundles (r.chan id).queue
      acceptRunning := false
      stoppedAt := r.stoppedAt.or (some now)
      chan := fun i =>
        if i = id then (r.chan i).drained
        else if i ∈ r.subscribers then (r.chan i).sendOrDrop (.error .spawn)
        else r.chan i } := by
  unfold acceptFailed
  simp only [foldl_setChan (hn.filter _) fun c => c.sendOrDrop (.error .spawn), drain, keepAll]
  simp only [setReceiving, setChan, mk.injEq, Bool.false_eq_true, if_false, List.mem_filter,
    ne_eq, not_true_eq_false, decide_false, and_false, true_and]
  funext i
  by_cases hi : i = id
  · subst hi; simp
  · simp [hi]

/-- `unsubscribe`, what it does to the state of receiving. -/
theorem unsubscribe_stopped (hs : (r.subscribers.filter (· ≠ id)) = []) :
    r.unsubscribe id now =
      { r with
        subscribers := []
        pending := r.pending ++ bundles (r.chan id).queue
        stoppedAt := r.stoppedAt.or (some now)
        chan := Function.update r.chan id ⟨[], true⟩ } := by
  have hd : ({ r with subscribers := r.subscribers.filter (· ≠ id) }.setChan id
      (r.chan id).close).drain id (fun r b => r.deliver (.ok b)) =
      { r with subscribers := [], pending := r.pending ++ bundles (r.chan id).queue,
               chan := Function.update r.chan id ⟨[], true⟩ } := by
    rw [drain, deliverAll_none (by simpa [setChan] using hs)]
    simp only [setChan, hs, Function.update_self, Function.update_idem]
    rfl
  unfold unsubscribe
  simp only [hd, List.isEmpty_nil, Bool.true_and, isReceiving, setReceiving]
  cases hst : r.stoppedAt <;> simp

/-- `unsubscribe` while another stream is open: the newest one takes over the unread bundles. -/
theorem unsubscribe_last (hs : (r.subscribers.filter (· ≠ id)).getLast? = some k)
    (hc : (r.chan k).closed = false) :
    r.unsubscribe id now =
      { r with
        subscribers := r.subscribers.filter (· ≠ id)
        chan := Function.update (Function.update r.chan id ⟨[], true⟩) k
          ⟨(r.chan k).queue ++ (bundles (r.chan id).queue).map Except.ok, false⟩ } := by
  have hk : k ≠ id := by
    have := List.mem_of_getLast? hs
    simpa using (List.mem_filter.mp this).2
  have hne : (r.subscribers.filter (· ≠ id)).isEmpty = false :=
    List.isEmpty_eq_false_iff.mpr fun h => by rw [h] at hs; cases hs
  have hd : ({ r with subscribers := r.subscribers.filter (· ≠ id) }.setChan id
      (r.chan id).close).drain id (fun r b => r.deliver (.ok b)) =
      { r with subscribers := r.subscribers.filter (· ≠ id),
               chan := Function.update (Function.update r.chan id ⟨[], true⟩) k
                 ⟨(r.chan k).queue ++ (bundles (r.chan id).queue).map Except.ok, false⟩ } := by
    rw [drain, deliverAll_last (k := k) (by simpa [setChan] using hs) (by simp [setChan, hk, hc])]
    simp [setChan, hk, Chan.drained, Chan.close]
  unfold unsubscribe
  simp only [hd, hne, Bool.false_and]
  rfl

/-- What a dropped stream leaves behind goes to the newest other stream, or is kept. -/
theorem unsubscribe_cases (id now : Nat) (ho : ∀ k ∈ r.subscribers, (r.chan k).closed = false) :
    (r.subscribers.filter (· ≠ id) = [] ∧ r.unsubscribe id now =
      { r with
        subscribers := []
        pending := r.pending ++ bundles (r.chan id).queue
        stoppedAt := r.stoppedAt.or (some now)
        chan := Function.update r.chan id ⟨[], true⟩ }) ∨
    ∃ k, (r.subscribers.filter (· ≠ id)).getLast? = some k ∧ k ≠ id ∧ r.unsubscribe id now =
      { r with
        subscribers := r.subscribers.filter (· ≠ id)
        chan := Function.update (Function.update r.chan id ⟨[], true⟩) k
          ⟨(r.chan k).queue ++ (bundles (r.chan id).queue).map Except.ok, false⟩ } := by
  cases hk : (r.subscribers.filter (· ≠ id)).getLast? with
  | none =>
    have h := List.getLast?_eq_none_iff.mp hk
    exact .inl ⟨h, unsubscribe_stopped h⟩
  | some k =>
    obtain ⟨hm, hne⟩ := List.mem_filter.mp (List.mem_of_getLast? hk)
    exact .inr ⟨k, rfl, by simpa using hne, unsubscribe_last hk (ho k hm)⟩

end Receiver

end Cspcl.Inbound
