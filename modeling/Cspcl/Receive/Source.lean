import Mathlib.Logic.Function.Basic
import Cspcl.Inbound.State
import Cspcl.Lib.Backoff

/-!
# A source of inbound streams

Where a receive loop gets its streams from, without a shutdown: `Source` of
`rust-bindings/picod3tn-cspcl/src/rx.rs` and `Transport::inbound_stream` of
`rust-bindings/hardy-cspcl/src/transport.rs`. A `Script` says what each open comes to and what each
poll of the stream returns, at which time; opening takes no time. A `Feed` is the source as a loop
has used it so far.

Times are in nanoseconds, as in `Duration`.

* `Feed.Tracks`: what a loop with one variable for its stream keeps: that stream was opened last, it
  is the only one that is not dropped, and the streams before it were read to their end.
* `Feed.delivered`: the bundles of the opened streams, as far as they were read.
* `Feed.Pace`: the pauses so far follow the failures so far, and `delay` is the one that is due.
-/

namespace Cspcl.Receive

open Inbound

/-- What a poll of a stream returns, and after how long. -/
inductive Polled (β : Type) where
  | item (after : Nat) (item : Item β)
  | ended (after : Nat)
  /-- It stays pending for good. -/
  | never

/-- What an open comes to: an error, or a stream with the results of its polls. -/
inductive Opened (β : Type) where
  | failed
  | stream (polls : Nat → Polled β)

/-- What each open comes to. -/
abbrev Script (β : Type) := Nat → Opened β

/-- The result of the `i`-th poll of the stream of the `k`-th open. -/
def Script.poll {β : Type} (script : Script β) (k i : Nat) : Polled β :=
  match script k with
  | .failed => .never
  | .stream polls => polls i

/-- The source as it was used so far. A failure is an open that failed (`none`), or the end of a
stream, with the time that the stream was open. -/
structure Feed where
  now : Nat
  /-- The times of the opens. -/
  opens : List Nat
  /-- The streams that are not dropped. -/
  live : List Nat
  /-- How often the stream of an open was polled. -/
  polls : Nat → Nat
  failures : List (Option Nat)
  /-- The pauses of the loop. -/
  pauses : List Nat

namespace Feed

variable {β : Type}

/-- A source that was not used yet. -/
def start (now : Nat) : Feed := ⟨now, [], [], fun _ => 0, [], []⟩

/-- An open, and the stream that it gives. -/
def openStream (f : Feed) (script : Script β) : Option Nat × Feed :=
  let k := f.opens.length
  let f := { f with opens := f.opens ++ [f.now] }
  match script k with
  | .failed => (none, { f with failures := f.failures ++ [none] })
  | .stream _ => (some k, { f with live := f.live ++ [k] })

/-- A poll of the stream `k`, which is waited for. -/
def poll (f : Feed) (script : Script β) (k : Nat) : Poll (Item β) × Feed :=
  let polls := Function.update f.polls k (f.polls k + 1)
  match script.poll k (f.polls k) with
  | .item after item => (.ready item, { f with now := f.now + after, polls })
  | .ended after =>
    (.ended, { f with
      now := f.now + after, polls
      failures := f.failures ++ [some (f.now + after - f.opens.getD k 0)] })
  | .never => (.pending, f)

/-- The stream that a variable held is dropped. -/
def drop (f : Feed) (stream : Option Nat) : Feed :=
  { f with live := f.live.filter (some · ≠ stream) }

/-- A pause. -/
def sleep (f : Feed) (delay : Nat) : Feed :=
  { f with now := f.now + delay, pauses := f.pauses ++ [delay] }

end Feed

/-! ## What was read -/

/-- The bundle that a poll returns. -/
def Polled.bundle? {β : Type} : Polled β → Option β
  | .item _ (.ok bundle) => some bundle
  | _ => none

/-- A poll that returns a bundle or an error. -/
def Polled.IsItem {β : Type} (p : Polled β) : Prop := ∃ after item, p = .item after item

/-- The bundles of the first `n` polls of the stream of the `k`-th open. -/
def Script.bundles {β : Type} (script : Script β) (k n : Nat) : List β :=
  (List.range n).filterMap fun i => (script.poll k i).bundle?

/-- The `k`-th open gave no stream, or `n` polls have read its stream to its end. -/
def Script.Exhausted {β : Type} (script : Script β) (k n : Nat) : Prop :=
  (script k = .failed ∧ n = 0) ∨
    ∃ m after, n = m + 1 ∧ script.poll k m = .ended after ∧ ∀ i, i < m → (script.poll k i).IsItem

namespace Feed

variable {β : Type}

/-- The bundles of the opened streams, as far as they were read. -/
def delivered (f : Feed) (script : Script β) : List β :=
  (List.range f.opens.length).flatMap fun k => script.bundles k (f.polls k)

/-- The stream of the loop is the one opened last, and the only one; those before it were read to
their end. -/
structure Tracks (f : Feed) (script : Script β) (stream : Option Nat) : Prop where
  unopened : ∀ k, f.opens.length ≤ k → f.polls k = 0
  current : ∀ k, stream = some k → k + 1 = f.opens.length
  items : ∀ k, stream = some k → ∀ i, i < f.polls k → (script.poll k i).IsItem
  exhausted : ∀ k, k < f.opens.length → stream ≠ some k → script.Exhausted k (f.polls k)
  live : f.live = stream.toList

variable {f : Feed} {script : Script β} {stream : Option Nat} {k : Nat}

/-- The next open adds no bundle yet. -/
theorem delivered_open {f' : Feed} {now : Nat} (ho : f'.opens = f.opens ++ [now])
    (hp : f'.polls = f.polls) (h : f.polls f.opens.length = 0) :
    f'.delivered script = f.delivered script := by
  rw [delivered, delivered, ho, hp, List.length_append, List.length_singleton, List.range_succ,
    List.flatMap_append, List.flatMap_singleton, h]
  exact List.append_nil _

/-- A poll of the stream opened last adds what it returns. -/
theorem delivered_poll {f' : Feed} (ho : f'.opens = f.opens)
    (hp : f'.polls = Function.update f.polls k (f.polls k + 1)) (hk : k + 1 = f.opens.length) :
    f'.delivered script = f.delivered script ++ (script.poll k (f.polls k)).bundle?.toList := by
  have hbefore : (List.range k).flatMap (fun i => script.bundles i (f'.polls i)) =
      (List.range k).flatMap fun i => script.bundles i (f.polls i) := by
    refine List.flatMap_congr fun i hi => ?_
    rw [hp, Function.update_of_ne (Nat.ne_of_lt (List.mem_range.mp hi))]
  have hlast : script.bundles k (f'.polls k) =
      script.bundles k (f.polls k) ++ (script.poll k (f.polls k)).bundle?.toList := by
    rw [hp, Function.update_self, Script.bundles, List.range_succ, List.filterMap_append]
    rfl
  rw [delivered, delivered, ho, ← hk, List.range_succ, List.flatMap_append, List.flatMap_append,
    List.flatMap_singleton, List.flatMap_singleton, hbefore, hlast, List.append_assoc]

/-! ### One lemma for each use of the source -/

theorem openStream_failed (h : script f.opens.length = .failed) : f.openStream script =
    (none, { f with opens := f.opens ++ [f.now], failures := f.failures ++ [none] }) := by
  rw [openStream]
  dsimp only
  rw [h]

theorem openStream_stream {polls : Nat → Polled β} (h : script f.opens.length = .stream polls) :
    f.openStream script = (some f.opens.length,
      { f with opens := f.opens ++ [f.now], live := f.live ++ [f.opens.length] }) := by
  rw [openStream]
  dsimp only
  rw [h]

theorem poll_item {after : Nat} {item : Item β}
    (h : script.poll k (f.polls k) = .item after item) : f.poll script k =
      (.ready item, { f with
        now := f.now + after, polls := Function.update f.polls k (f.polls k + 1) }) := by
  rw [poll, h]

theorem poll_ended {after : Nat} (h : script.poll k (f.polls k) = .ended after) :
    f.poll script k = (.ended, { f with
      now := f.now + after, polls := Function.update f.polls k (f.polls k + 1)
      failures := f.failures ++ [some (f.now + after - f.opens.getD k 0)] }) := by
  rw [poll, h]

theorem poll_never (h : script.poll k (f.polls k) = .never) : f.poll script k = (.pending, f) := by
  rw [poll, h]

/-! ### The streams -/

theorem tracks_start (script : Script β) (now : Nat) : (start now).Tracks script none where
  unopened _ _ := rfl
  current := nofun
  items := nofun
  exhausted _ hk := absurd hk (Nat.not_lt_zero _)
  live := rfl

theorem Tracks.failed {f' : Feed} {now : Nat} (h : f.Tracks script none)
    (hs : script f.opens.length = .failed) (ho : f'.opens = f.opens ++ [now])
    (hp : f'.polls = f.polls) (hl : f'.live = f.live) : f'.Tracks script none := by
  have hlen : f'.opens.length = f.opens.length + 1 := by rw [ho, List.length_append]; rfl
  refine ⟨fun k hk => ?_, nofun, nofun, fun k hk hne => ?_, hl.trans h.live⟩
  · rw [hp]
    exact h.unopened k (by omega)
  · rw [hp]
    by_cases he : k = f.opens.length
    · subst he
      exact .inl ⟨hs, h.unopened _ (Nat.le_refl _)⟩
    · exact h.exhausted k (by omega) hne

theorem Tracks.opened {f' : Feed} {now : Nat} (h : f.Tracks script none)
    (ho : f'.opens = f.opens ++ [now]) (hp : f'.polls = f.polls)
    (hl : f'.live = f.live ++ [f.opens.length]) : f'.Tracks script (some f.opens.length) := by
  have hlen : f'.opens.length = f.opens.length + 1 := by rw [ho, List.length_append]; rfl
  refine ⟨fun k hk => ?_, fun k hk => ?_, fun k hk i hi => ?_, fun k hk hne => ?_, ?_⟩
  · rw [hp]
    exact h.unopened k (by omega)
  · rw [← Option.some.inj hk, hlen]
  · rw [hp, ← Option.some.inj hk, h.unopened _ (Nat.le_refl _)] at hi
    exact absurd hi (Nat.not_lt_zero i)
  · rw [hp]
    have : f.opens.length ≠ k := fun he => hne (congrArg some he)
    exact h.exhausted k (by omega) nofun
  · rw [hl, h.live]
    rfl

theorem Tracks.item {f' : Feed} (h : f.Tracks script (some k))
    (hi : (script.poll k (f.polls k)).IsItem) (ho : f'.opens = f.opens)
    (hp : f'.polls = Function.update f.polls k (f.polls k + 1)) (hl : f'.live = f.live) :
    f'.Tracks script (some k) := by
  have hk := h.current k rfl
  have hother : ∀ {i}, i ≠ k → f'.polls i = f.polls i := by
    intro i hi
    rw [hp, Function.update_of_ne hi]
  refine ⟨fun i hi => ?_, ho ▸ h.current, fun i hi' j hj => ?_, fun i hi' hne => ?_,
    hl.trans h.live⟩
  · rw [hother (by rw [ho] at hi; omega)]
    exact h.unopened i (ho ▸ hi)
  · obtain rfl := Option.some.inj hi'
    rw [hp, Function.update_self] at hj
    by_cases he : j = f.polls k
    · rw [he]
      exact hi
    · exact h.items k rfl j (by omega)
  · rw [hother fun he => hne (congrArg some he.symm)]
    exact h.exhausted i (ho ▸ hi') hne

theorem Tracks.ended {f' : Feed} {after : Nat} (h : f.Tracks script (some k))
    (he : script.poll k (f.polls k) = .ended after) (ho : f'.opens = f.opens)
    (hp : f'.polls = Function.update f.polls k (f.polls k + 1))
    (hl : f'.live = f.live.filter (some · ≠ some k)) : f'.Tracks script none := by
  have hk := h.current k rfl
  have hother : ∀ {i}, i ≠ k → f'.polls i = f.polls i := by
    intro i hi
    rw [hp, Function.update_of_ne hi]
  refine ⟨fun i hi => ?_, nofun, nofun, fun i hi _ => ?_, ?_⟩
  · rw [hother (by rw [ho] at hi; omega)]
    exact h.unopened i (ho ▸ hi)
  · by_cases hik : i = k
    · subst hik
      refine .inr ⟨f.polls i, after, ?_, he, fun j hj => h.items i rfl j hj⟩
      rw [hp, Function.update_self]
    · rw [hother hik]
      exact h.exhausted i (ho ▸ hi) fun he => hik (Option.some.inj he).symm
  · rw [hl, h.live]
    simp

end Feed

/-! ## The pauses -/

/-- `n` milliseconds. -/
def millis (n : Nat) : Nat := n * 10 ^ 6

/-- `n` seconds. -/
def secs (n : Nat) : Nat := n * 10 ^ 9

/-- The pause with `j` failures before it. -/
def pauseAfter (j : Nat) : Nat := Backoff.delay (millis 500) (secs 30) j

/-- A failure is the end of a stream that stayed open longer than `delay`. -/
def outlives (delay : Nat) : Option Nat → Bool
  | some lifetime => delay < lifetime
  | none => false

/-- The `k`-th failure starts the row over that has `c` failures. -/
def startsOver (failures : List (Option Nat)) (k c : Nat) : Bool :=
  (failures[k]?).any (outlives (pauseAfter c))

/-- The delay that is due at the `k`-th failure, if it does not start the row over. -/
def due (failures : List (Option Nat)) (k : Nat) : Nat :=
  pauseAfter (Backoff.row (startsOver failures) k)

/-- The `k`-th failure is the end of a stream that stayed open longer than the delay then due. -/
def LongLived (failures : List (Option Nat)) (k : Nat) : Prop :=
  ∃ lifetime, failures[k]? = some (some lifetime) ∧ due failures k < lifetime

theorem longLived_eq (failures : List (Option Nat)) :
    LongLived failures = Backoff.StartsOver (startsOver failures) := by
  funext k
  show (∃ lifetime, failures[k]? = some (some lifetime) ∧ due failures k < lifetime) =
    ((failures[k]?).any (outlives (due failures k)) = true)
  cases failures[k]? with
  | none => simp
  | some failure => cases failure <;> simp [outlives]

namespace Feed

/-- Each failure so far had its pause, and `delay` is due at the next one. -/
structure Pace (f : Feed) (delay : Nat) : Prop where
  length : f.pauses.length = f.failures.length
  pause : ∀ i, i < f.failures.length → f.pauses[i]? = some (pauseAfter
    (if startsOver f.failures i (Backoff.row (startsOver f.failures) i) then 0
      else Backoff.row (startsOver f.failures) i))
  due : delay = Receive.due f.failures f.failures.length

theorem pace_start (now : Nat) : (start now).Pace (millis 500) where
  length := rfl
  pause _ hi := absurd hi (Nat.not_lt_zero _)
  due := (Backoff.delay_zero (by decide)).symm

/-- A failure and its pause: `first` is the pause if the failure starts the row over. -/
theorem Pace.failed {f f' : Feed} {delay pause : Nat} {failure : Option Nat} (h : f.Pace delay)
    (hf : f'.failures = f.failures ++ [failure]) (hp : f'.pauses = f.pauses ++ [pause])
    (hd : pause = if outlives delay failure then millis 500 else delay) :
    f'.Pace (min (pause * 2) (secs 30)) := by
  have hbefore : ∀ k c, k < f.failures.length →
      startsOver f'.failures k c = startsOver f.failures k c := by
    intro k c hk
    rw [startsOver, startsOver, hf, List.getElem?_append_left hk]
  have hrow : ∀ k, k ≤ f.failures.length →
      Backoff.row (startsOver f'.failures) k = Backoff.row (startsOver f.failures) k := by
    intro k hk
    exact Backoff.row_congr fun i c hi => hbefore i c (by omega)
  have hlast : ∀ c, startsOver f'.failures f.failures.length c =
      outlives (pauseAfter c) failure := by
    intro c
    rw [startsOver, hf, List.getElem?_append_right (Nat.le_refl _), Nat.sub_self]
    rfl
  have hlen : f'.failures.length = f.failures.length + 1 := by rw [hf, List.length_append]; rfl
  have hdue : delay = pauseAfter (Backoff.row (startsOver f.failures) f.failures.length) := h.due
  have hzero : pauseAfter 0 = millis 500 := Backoff.delay_zero (by decide)
  -- The pause is that of the row with this failure.
  have hpause : pause = pauseAfter
      (if outlives (pauseAfter (Backoff.row (startsOver f.failures) f.failures.length)) failure
        then 0 else Backoff.row (startsOver f.failures) f.failures.length) := by
    rw [hd, hdue]
    split
    · exact hzero.symm
    · rfl
  refine ⟨?_, fun i hi => ?_, ?_⟩
  · rw [hp, hlen, List.length_append, h.length]
    rfl
  · by_cases he : i = f.failures.length
    · subst he
      rw [hrow _ (Nat.le_refl _), hlast, ← hpause, hp, ← h.length,
        List.getElem?_append_right (Nat.le_refl _), Nat.sub_self]
      rfl
    · have hlt : i < f.failures.length := by omega
      rw [hrow i (by omega), hbefore i _ hlt, hp, List.getElem?_append_left (h.length ▸ hlt)]
      exact h.pause i hlt
  · rw [Receive.due, hlen, Backoff.row, hrow _ (Nat.le_refl _), hlast, hpause]
    split <;> exact Backoff.delay_succ

end Feed

end Cspcl.Receive
