import Mathlib.Logic.Function.Iterate
import Cspcl.Receive.Source

/-!
# The receive loop of picod3tn (`rust-bindings/picod3tn-cspcl/src/rx.rs`)

`receive`, `State::next` and `Backoff` on a source that is not shut down, with a consumer that
polls again at once. A pass of the loop in `next` ends with a `continue`, at the end of its body,
with a bundle that `next` returns, or with a stream that stays pending.

* `State.Inv`: the source is tracked and paced. `pass_inv`: a pass keeps it, and reads what it
  returns.
* `yielded_eq`: the bundles of the opened streams are yielded, in order.
* `exists_read`: every item of an opened stream is read.
-/

namespace Cspcl.Picod3tn

open Inbound Receive

/-- `REOPEN_DELAY`: 500 ms. -/
def reopenDelay : Nat := 500 * 10 ^ 6

/-- `MAX_REOPEN_DELAY`: 30 s. -/
def maxReopenDelay : Nat := 30 * 10 ^ 9

/-- `Received`. -/
structure Received where
  data : List UInt8
  srcAddr : UInt8
  srcPort : UInt8
  deriving DecidableEq, Repr

/-- `Backoff`. -/
structure Backoff where
  delay : Nat

namespace Backoff

/-- `Backoff::new`. -/
def new : Backoff := ⟨reopenDelay⟩

/-- `Backoff::wait`. -/
def wait (b : Backoff) (source : Feed) : Backoff × Feed :=
  (⟨min (b.delay * 2) maxReopenDelay⟩, source.sleep b.delay)

end Backoff

/-- `State`. `stream`: the open whose stream it is. -/
structure State where
  source : Feed
  stream : Option Nat
  openedAt : Nat
  backoff : Backoff

namespace State

/-- `self.stream = stream`, which drops the value before it. -/
def setStream (s : State) (stream : Option Nat) : State :=
  { s with source := s.source.drop s.stream, stream }

/-- `self.backoff.wait(&self.source)`. -/
def wait (s : State) : State :=
  { s with backoff := (s.backoff.wait s.source).1, source := (s.backoff.wait s.source).2 }

/-- The delay starts over if the stream was not a quick failure. -/
def resetBackoff (s : State) : State :=
  if s.source.now - s.openedAt > s.backoff.delay then { s with backoff := .new } else s

/-- The second `match` of the loop: the state after it, and the bundle that `next` returns, if it
returns. -/
def pollStream (s : State) (script : Script Inbound.Bundle) (k : Nat) : State × Option Received :=
  match s.source.poll script k with
  | (.ready (.ok bundle), source) =>
    ({ s with source }, some ⟨bundle.data, bundle.srcAddr, bundle.srcPort⟩)
  | (.ready (.error _), source) => ({ s with source }, none)
  | (.ended, source) => (({ s with source }.setStream none).resetBackoff.wait, none)
  | (.pending, source) => ({ s with source }, none)

/-- One pass of the loop in `next`. -/
def pass (s : State) (script : Script Inbound.Bundle) : State × Option Received :=
  match s.stream with
  | some k => s.pollStream script k
  | none =>
    match s.source.openStream script with
    | (some k, source) =>
      ({ s with source, openedAt := source.now }.setStream (some k)).pollStream script k
    | (none, source) => ({ s with source }.wait, none)

end State

/-- The stream that `receive` returns, and what it has yielded. -/
structure Incoming where
  state : State
  yielded : List Received

/-- `receive`. -/
def receive (now : Nat) : Incoming := ⟨⟨.start now, none, now, .new⟩, []⟩

/-- A pass; a bundle that `next` returns is yielded. -/
def Incoming.pass (script : Script Inbound.Bundle) (s : Incoming) : Incoming :=
  ⟨(s.state.pass script).1, s.yielded ++ (s.state.pass script).2.toList⟩

/-- The stream after `n` passes. -/
def incoming (script : Script Inbound.Bundle) (now n : Nat) : Incoming :=
  (Incoming.pass script)^[n] (receive now)

/-- The bundle as `next` returns it. -/
def Received.ofBundle (b : Inbound.Bundle) : Received := ⟨b.data, b.srcAddr, b.srcPort⟩

variable {script : Script Inbound.Bundle} {now n k : Nat}

namespace State

variable {s : State}

/-- The loop tracks its source, paces its opens and knows when the stream was opened. -/
structure Inv (s : State) (script : Script Inbound.Bundle) : Prop where
  tracks : s.source.Tracks script s.stream
  pace : s.source.Pace s.backoff.delay
  openedAt : ∀ k, s.stream = some k → s.openedAt = s.source.opens.getD k 0

/-- What a step of the loop does: it keeps the invariant, and what it returns is what it read. -/
def Steps (s : State) (script : Script Inbound.Bundle) (r : State × Option Received) : Prop :=
  r.1.Inv script ∧ (r.1.source.delivered script).map Received.ofBundle =
    (s.source.delivered script).map Received.ofBundle ++ r.2.toList

theorem pollStream_item {after : Nat} {item : Item Inbound.Bundle} (h : s.Inv script)
    (hk : s.stream = some k) (hi : script.poll k (s.source.polls k) = .item after item) :
    s.Steps script (s.pollStream script k) ∧ (s.pollStream script k).1.stream = some k ∧
      (s.pollStream script k).1.source.polls k = s.source.polls k + 1 := by
  have htr : s.source.Tracks script (some k) := hk ▸ h.tracks
  have hread : ∀ r, (script.poll k (s.source.polls k)).bundle?.map Received.ofBundle = r →
      s.Steps script ({ s with source := { s.source with
        now := s.source.now + after
        polls := Function.update s.source.polls k (s.source.polls k + 1) } }, r) := by
    rintro r rfl
    refine ⟨⟨?_, ⟨h.pace.length, h.pace.pause, h.pace.due⟩, h.openedAt⟩, ?_⟩
    · rw [hk]
      exact htr.item ⟨after, item, hi⟩ rfl rfl rfl
    · have hd := @Feed.delivered_poll _ s.source script k { s.source with
        now := s.source.now + after
        polls := Function.update s.source.polls k (s.source.polls k + 1) } rfl rfl
        (htr.current k rfl)
      rw [hd, List.map_append]
      cases (script.poll k (s.source.polls k)).bundle? <;> rfl
  have hpoll := Feed.poll_item hi
  cases item with
  | ok bundle =>
    rw [pollStream, hpoll]
    exact ⟨hread _ (by rw [hi]; rfl), hk, Function.update_self ..⟩
  | error e =>
    rw [pollStream, hpoll]
    exact ⟨hread _ (by rw [hi]; rfl), hk, Function.update_self ..⟩

/-- The state after the end of a stream that was open for `life`, with the pause for it. -/
def afterEnd (s : State) (k after life pause : Nat) : State where
  source := {
    now := s.source.now + after + pause
    opens := s.source.opens
    live := s.source.live.filter (some · ≠ s.stream)
    polls := Function.update s.source.polls k (s.source.polls k + 1)
    failures := s.source.failures ++ [some life]
    pauses := s.source.pauses ++ [pause] }
  stream := none
  openedAt := s.openedAt
  backoff := ⟨min (pause * 2) maxReopenDelay⟩

/-- The pause after the end of a stream. -/
def endPause (s : State) (life : Nat) : Nat :=
  if outlives s.backoff.delay (some life) then reopenDelay else s.backoff.delay

theorem resetBackoff_wait (s : State) : s.resetBackoff.wait = { s with
    source := s.source.sleep (s.endPause (s.source.now - s.openedAt))
    backoff := ⟨min (s.endPause (s.source.now - s.openedAt) * 2) maxReopenDelay⟩ } := by
  rw [resetBackoff, endPause]
  by_cases h : s.source.now - s.openedAt > s.backoff.delay
  · have ho : outlives s.backoff.delay (some (s.source.now - s.openedAt)) = true :=
      decide_eq_true h
    rw [if_pos h, if_pos ho]
    rfl
  · have ho : ¬ outlives s.backoff.delay (some (s.source.now - s.openedAt)) = true :=
      fun ho => h (of_decide_eq_true ho)
    rw [if_neg h, if_neg ho]
    rfl

theorem pollStream_ended_eq {after life : Nat}
    (he : script.poll k (s.source.polls k) = .ended after)
    (ho : s.openedAt = s.source.opens.getD k 0)
    (hl : life = s.source.now + after - s.source.opens.getD k 0) :
    s.pollStream script k = (s.afterEnd k after life (s.endPause life), none) := by
  rw [pollStream, Feed.poll_ended he, hl, ← ho]
  exact Prod.ext (resetBackoff_wait _) rfl

theorem delivered_afterEnd {after life pause : Nat} (hk : k + 1 = s.source.opens.length)
    (he : script.poll k (s.source.polls k) = .ended after) :
    (s.afterEnd k after life pause).source.delivered script = s.source.delivered script := by
  have hd := @Feed.delivered_poll _ s.source script k (s.afterEnd k after life pause).source rfl rfl
    hk
  rw [hd, he]
  exact List.append_nil _

theorem pollStream_ended {after : Nat} (h : s.Inv script) (hk : s.stream = some k)
    (he : script.poll k (s.source.polls k) = .ended after) :
    s.Steps script (s.pollStream script k) := by
  have htr : s.source.Tracks script (some k) := hk ▸ h.tracks
  rw [pollStream_ended_eq he (h.openedAt k hk) rfl]
  refine ⟨⟨htr.ended he rfl rfl ?_, h.pace.failed rfl rfl rfl, nofun⟩, ?_⟩
  · show s.source.live.filter _ = _
    rw [hk]
  · rw [delivered_afterEnd (htr.current k rfl) he]
    exact (List.append_nil _).symm

/-- A poll of the open stream. -/
theorem pollStream_steps (h : s.Inv script) (hk : s.stream = some k) :
    s.Steps script (s.pollStream script k) := by
  cases hp : script.poll k (s.source.polls k) with
  | item after item => exact (pollStream_item h hk hp).1
  | ended after => exact pollStream_ended h hk hp
  | never =>
    rw [pollStream, Feed.poll_never hp]
    exact ⟨h, (List.append_nil _).symm⟩

/-- The state after the next open gave a stream. -/
def afterOpen (s : State) : State where
  source := { s.source with
    opens := s.source.opens ++ [s.source.now]
    live := s.source.live ++ [s.source.opens.length] }
  stream := some s.source.opens.length
  openedAt := s.source.now
  backoff := s.backoff

theorem afterOpen_steps (h : s.Inv script) (hn : s.stream = none) :
    s.Steps script (s.afterOpen, none) := by
  have htr : s.source.Tracks script none := hn ▸ h.tracks
  refine ⟨⟨htr.opened rfl rfl rfl, ⟨h.pace.length, h.pace.pause, h.pace.due⟩, fun k hk => ?_⟩, ?_⟩
  · obtain rfl := Option.some.inj hk
    show s.source.now = (s.source.opens ++ [s.source.now]).getD s.source.opens.length 0
    simp
  · have hd := @Feed.delivered_open _ s.source script s.afterOpen.source s.source.now rfl rfl
      (htr.unopened _ (Nat.le_refl _))
    rw [hd]
    exact (List.append_nil _).symm

/-- With a stream the next pass polls it; without one it opens one, and polls it at once. -/
theorem pass_some (hk : s.stream = some k) : s.pass script = s.pollStream script k := by
  rw [pass, hk]

theorem pass_opened {polls : Nat → Polled Inbound.Bundle} (hn : s.stream = none)
    (ho : script s.source.opens.length = .stream polls) :
    s.pass script = s.afterOpen.pollStream script s.source.opens.length := by
  have hlive : (s.source.live ++ [s.source.opens.length]).filter (some · ≠ s.stream) =
      s.source.live ++ [s.source.opens.length] := by
    rw [hn]
    exact List.filter_eq_self.mpr fun _ _ => rfl
  have hset : ({ s with
      source := { s.source with
        opens := s.source.opens ++ [s.source.now]
        live := s.source.live ++ [s.source.opens.length] }
      openedAt := s.source.now } : State).setStream (some s.source.opens.length) = s.afterOpen := by
    rw [setStream, Feed.drop, hlive]
    rfl
  rw [← hset, pass, hn]
  dsimp only
  rw [Feed.openStream_stream ho]

/-- The state after the next open failed. -/
def afterFailure (s : State) : State where
  source := {
    now := s.source.now + s.backoff.delay
    opens := s.source.opens ++ [s.source.now]
    live := s.source.live
    polls := s.source.polls
    failures := s.source.failures ++ [none]
    pauses := s.source.pauses ++ [s.backoff.delay] }
  stream := s.stream
  openedAt := s.openedAt
  backoff := ⟨min (s.backoff.delay * 2) maxReopenDelay⟩

theorem pass_failed (hn : s.stream = none) (ho : script s.source.opens.length = .failed) :
    s.pass script = (s.afterFailure, none) := by
  rw [pass, hn]
  dsimp only
  rw [Feed.openStream_failed ho, afterFailure, hn]
  rfl

theorem afterFailure_steps (h : s.Inv script) (hn : s.stream = none)
    (ho : script s.source.opens.length = .failed) : s.Steps script (s.afterFailure, none) := by
  have htr : s.source.Tracks script none := hn ▸ h.tracks
  refine ⟨⟨?_, h.pace.failed rfl rfl rfl, fun k hk => ?_⟩, ?_⟩
  · show Feed.Tracks _ script s.stream
    rw [hn]
    exact htr.failed ho rfl rfl rfl
  · rw [show s.afterFailure.stream = s.stream from rfl, hn] at hk
    cases hk
  · have hd := @Feed.delivered_open _ s.source script s.afterFailure.source s.source.now rfl rfl
      (htr.unopened _ (Nat.le_refl _))
    rw [hd]
    exact (List.append_nil _).symm

/-- A pass keeps the invariant, and returns what it reads. -/
theorem pass_steps (h : s.Inv script) : s.Steps script (s.pass script) := by
  cases hs : s.stream with
  | some k =>
    rw [pass_some hs]
    exact pollStream_steps h hs
  | none =>
    cases ho : script s.source.opens.length with
    | failed =>
      rw [pass_failed hs ho]
      exact afterFailure_steps h hs ho
    | stream polls =>
      obtain ⟨hi, hd⟩ := afterOpen_steps h hs
      obtain ⟨hi', hd'⟩ := pollStream_steps hi rfl
      rw [pass_opened hs ho]
      refine ⟨hi', hd'.trans ?_⟩
      rw [hd]
      exact congrArg (· ++ _) (List.append_nil _)

end State

/-! ## Runs -/

theorem incoming_succ (script : Script Inbound.Bundle) (now n : Nat) :
    incoming script now (n + 1) = (incoming script now n).pass script :=
  Function.iterate_succ_apply' ..

theorem inv_incoming (script : Script Inbound.Bundle) (now n : Nat) :
    (incoming script now n).state.Inv script ∧ (incoming script now n).yielded =
      ((incoming script now n).state.source.delivered script).map Received.ofBundle := by
  induction n with
  | zero => exact ⟨⟨Feed.tracks_start script now, Feed.pace_start now, nofun⟩, rfl⟩
  | succ n ih =>
    obtain ⟨hi, hy⟩ := ih
    obtain ⟨hi', hd⟩ := State.pass_steps hi
    rw [incoming_succ]
    refine ⟨hi', ?_⟩
    show (incoming script now n).yielded ++ _ = _
    rw [hy, ← hd]
    rfl

theorem state_succ (script : Script Inbound.Bundle) (now n : Nat) :
    (incoming script now (n + 1)).state = ((incoming script now n).state.pass script).1 := by
  rw [incoming_succ]
  rfl

/-- A poll of the open stream that does not stay pending is counted. -/
theorem polls_succ (hs : (incoming script now n).state.stream = some k)
    (hp : script.poll k ((incoming script now n).state.source.polls k) ≠ .never) :
    (incoming script now (n + 1)).state.source.polls k =
      (incoming script now n).state.source.polls k + 1 := by
  have hi := (inv_incoming script now n).1
  rw [state_succ, State.pass_some hs]
  cases hr : script.poll k ((incoming script now n).state.source.polls k) with
  | item after item => exact (State.pollStream_item hi hs hr).2.2
  | ended after =>
    rw [State.pollStream_ended_eq hr (hi.openedAt k hs) rfl]
    exact Function.update_self ..
  | never => exact absurd hr hp

/-- The open stream is read on. -/
theorem read_on {i : Nat} (hs : (incoming script now n).state.stream = some k)
    (hi : ∀ j, j < i → (script.poll k j).IsItem) (hp : script.poll k i ≠ .never) :
    ∃ n', i < (incoming script now n').state.source.polls k := by
  induction hd : i + 1 - (incoming script now n).state.source.polls k generalizing n with
  | zero => exact ⟨n, by omega⟩
  | succ d ih =>
    by_cases he : (incoming script now n).state.source.polls k = i
    · refine ⟨n + 1, ?_⟩
      rw [polls_succ hs (he ▸ hp), he]
      exact Nat.lt_succ_self i
    · obtain ⟨after, item, hr⟩ := hi _ (by omega : (incoming script now n).state.source.polls k < i)
      obtain ⟨-, hs', hr'⟩ := State.pollStream_item (inv_incoming script now n).1 hs hr
      rw [← State.pass_some hs, ← state_succ] at hs' hr'
      exact ih hs' (by omega)

/-- Every result of an opened stream is read. -/
theorem exists_read {i : Nat} (hk : k < (incoming script now n).state.source.opens.length)
    (hi : ∀ j, j < i → (script.poll k j).IsItem) (hp : script.poll k i ≠ .never) :
    ∃ n', i < (incoming script now n').state.source.polls k := by
  by_cases hs : (incoming script now n).state.stream = some k
  · exact read_on hs hi hp
  · refine ⟨n, ?_⟩
    rcases (inv_incoming script now n).1.tracks.exhausted k hk hs with
      ⟨hf, -⟩ | ⟨m, after, hm, he, -⟩
    · exact absurd (show script.poll k i = .never by rw [Script.poll, hf]) hp
    · by_contra hle
      obtain ⟨after', item, hr⟩ := hi m (by omega)
      rw [he] at hr
      cases hr

theorem State.pollStream_opens (s : State) (script : Script Inbound.Bundle) (k : Nat) :
    (s.pollStream script k).1.source.opens = s.source.opens := by
  unfold pollStream
  cases hr : script.poll k (s.source.polls k) with
  | item after item => rw [Feed.poll_item hr]; cases item <;> rfl
  | ended after => rw [Feed.poll_ended hr]; dsimp only; rw [resetBackoff_wait]; rfl
  | never => rw [Feed.poll_never hr]

/-- Without a stream the next one is opened, with no further pause. -/
theorem opens_succ (hs : (incoming script now n).state.stream = none) :
    (incoming script now (n + 1)).state.source.opens =
      (incoming script now n).state.source.opens ++ [(incoming script now n).state.source.now] := by
  rw [state_succ]
  cases ho : script (incoming script now n).state.source.opens.length with
  | failed =>
    rw [State.pass_failed hs ho]
    rfl
  | stream polls =>
    rw [State.pass_opened hs ho, State.pollStream_opens]
    rfl

end Cspcl.Picod3tn
