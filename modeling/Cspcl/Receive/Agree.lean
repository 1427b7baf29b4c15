import Cspcl.Hardy.Dispatcher
import Cspcl.Picod3tn.Incoming

/-!
# The two receive loops agree

The loop of hardy's dispatcher was written apart from that of picod3tn, in another order and with a
`Backoff` of its own. `pass_agrees`: a pass of the one is a pass of the other, if what is yielded is
dispatched.

`receive_loop_paced`: for every script, picod3tn's stream yields the bundles of the opened streams
and nothing else, one stream at a time, with the pauses of a delay that doubles from 500 ms to 30 s;
hardy's dispatcher opens streams at the same times and dispatches the same bundles.
-/

namespace Cspcl.Receive

open Inbound Picod3tn Hardy

variable {ι : Type}

/-- The dispatcher that has dispatched what `s` has yielded. -/
def toDispatcher (table : CspAddress → Option ι) (s : Incoming) : Dispatcher ι where
  transport := s.state.source
  inbound := s.state.stream
  openedAt := s.state.openedAt
  backoff := ⟨s.state.backoff.delay⟩
  calls := s.yielded.map fun r => dispatchCall table ⟨r.data, r.srcAddr, r.srcPort⟩

theorem resetBackoff_agrees (table : CspAddress → Option ι) (s : Incoming) :
    (toDispatcher table s).resetBackoff = toDispatcher table ⟨s.state.resetBackoff, s.yielded⟩ := by
  rw [State.resetBackoff]
  split
  · rename_i h
    exact if_pos h
  · rename_i h
    exact if_neg h

theorem pollStream_agrees (table : CspAddress → Option ι) (script : Script Inbound.Bundle)
    (s : Incoming) (k : Nat) : (toDispatcher table s).pollStream table script k =
      toDispatcher table ⟨(s.state.pollStream script k).1,
        s.yielded ++ (s.state.pollStream script k).2.toList⟩ := by
  rw [Dispatcher.pollStream, show (toDispatcher table s).transport = s.state.source from rfl,
    State.pollStream]
  cases hr : script.poll k (s.state.source.polls k) with
  | item after item =>
    rw [Feed.poll_item hr]
    cases item with
    | ok bundle =>
      show _ = Dispatcher.mk _ _ _ _ ((s.yielded ++ [_]).map _)
      rw [List.map_append]
      rfl
    | error e =>
      show _ = Dispatcher.mk _ _ _ _ ((s.yielded ++ []).map _)
      rw [List.append_nil]
      rfl
  | never =>
    rw [Feed.poll_never hr]
    show _ = Dispatcher.mk _ _ _ _ ((s.yielded ++ []).map _)
    rw [List.append_nil]
    rfl
  | ended after =>
    -- What the poll made of the source does not matter here.
    obtain ⟨source, hpoll⟩ : ∃ source, s.state.source.poll script k = (.ended, source) :=
      ⟨_, Feed.poll_ended hr⟩
    rw [hpoll]
    show _ = Dispatcher.mk _ _ _ _ ((s.yielded ++ []).map _)
    rw [List.append_nil]
    exact congrArg Dispatcher.wait (resetBackoff_agrees table
      ⟨State.setStream { s.state with source := source } none, s.yielded⟩)

/-- A pass of the one loop is a pass of the other. -/
theorem pass_agrees (table : CspAddress → Option ι) (script : Script Inbound.Bundle) :
    Function.Semiconj (toDispatcher table) (Incoming.pass script)
      (Dispatcher.pass table script) := by
  rintro ⟨⟨source, stream, openedAt, backoff⟩, yielded⟩
  cases stream with
  | some k =>
    exact (pollStream_agrees table script ⟨⟨source, some k, openedAt, backoff⟩, yielded⟩ k).symm
  | none =>
    rw [Incoming.pass, Dispatcher.pass, State.pass]
    dsimp only [toDispatcher]
    cases ho : script source.opens.length with
    | failed =>
      rw [Feed.openStream_failed ho]
      show Dispatcher.mk _ _ _ _ ((yielded ++ []).map _) = _
      rw [List.append_nil]
      rfl
    | stream polls =>
      rw [Feed.openStream_stream ho]
      exact (pollStream_agrees table script ⟨State.setStream
        ⟨{ source with
          opens := source.opens ++ [source.now]
          live := source.live ++ [source.opens.length] }, none, source.now, backoff⟩
        (some source.opens.length), yielded⟩ source.opens.length).symm

/-- After any number of passes. -/
theorem dispatcher_eq (peers : List (PeerConfig ι)) (script : Script Inbound.Bundle) (now n : Nat) :
    dispatcher peers script now n =
      toDispatcher (cspToEndpoint peers) (incoming script now n) :=
  ((pass_agrees (cspToEndpoint peers) script).iterate_right n (receive now)).symm

/-- The calls are made for the bundles of the opened streams, in order. -/
theorem calls_eq (peers : List (PeerConfig ι)) (script : Script Inbound.Bundle) (now n : Nat) :
    (dispatcher peers script now n).calls =
      ((dispatcher peers script now n).transport.delivered script).map
        (dispatchCall (cspToEndpoint peers)) := by
  rw [dispatcher_eq]
  show (incoming script now n).yielded.map _ = List.map _ (Feed.delivered _ script)
  rw [(inv_incoming script now n).2, List.map_map]
  rfl

/-! ## The schedule -/

/-- picod3tn's stream loses nothing. -/
structure LosesNothing (script : Script Inbound.Bundle) (now : Nat) : Prop where
  /-- It yields the bundles of the opened streams, as far as they were read. -/
  yields : ∀ n, (incoming script now n).yielded =
    ((incoming script now n).state.source.delivered script).map Received.ofBundle
  /-- A stream that was left was read to its end. -/
  left : ∀ n k, k < (incoming script now n).state.source.opens.length →
    (incoming script now n).state.stream ≠ some k →
    script.Exhausted k ((incoming script now n).state.source.polls k)
  /-- Whatever an opened stream returns is read, its end included. -/
  reads : ∀ n k i, k < (incoming script now n).state.source.opens.length →
    (∀ j, j < i → (script.poll k j).IsItem) → script.poll k i ≠ .never →
    ∃ n', i < (incoming script now n').state.source.polls k
  /-- Without a stream the next one is opened at once. -/
  reopens : ∀ n, (incoming script now n).state.stream = none →
    (incoming script now (n + 1)).state.source.opens =
      (incoming script now n).state.source.opens ++ [(incoming script now n).state.source.now]
  one_stream : ∀ n, (incoming script now n).state.source.live.length ≤ 1

/-- The pause after each failure is that of a delay that doubles from 500 ms to 30 s. -/
structure Paced (f : Feed) : Prop where
  length : f.pauses.length = f.failures.length
  pause : ∀ i j, i < f.failures.length → Backoff.CountsFrom (LongLived f.failures) i j →
    f.pauses[i]? = some (min (millis 500 * 2 ^ j) (secs 30))
  /-- The delay that a stream has to outlive: that with the failures before its end. -/
  due : ∀ i j, Backoff.Since (LongLived f.failures) i j →
    due f.failures i = min (millis 500 * 2 ^ j) (secs 30)

theorem paced_of_pace {f : Feed} {delay : Nat} (h : f.Pace delay) : Paced f where
  length := h.length
  pause i j hi hj := by
    rw [longLived_eq, Backoff.countsFrom_iff] at hj
    rw [h.pause i hi, ← hj]
    rfl
  due i j hj := by
    rw [longLived_eq] at hj
    rw [hj.unique (Backoff.since_row i)]
    rfl

/-- The receive loops of picod3tn and hardy: nothing is lost, the opens are paced, and the two
loops do the same at the same times. -/
theorem receive_loop_paced (script : Script Inbound.Bundle) (now : Nat)
    (peers : List (PeerConfig ι)) :
    LosesNothing script now ∧ (∀ n, Paced (incoming script now n).state.source) ∧
      ∀ n, (dispatcher peers script now n).transport.opens =
          (incoming script now n).state.source.opens ∧
        (dispatcher peers script now n).calls.map Dispatch.bundle =
          (incoming script now n).yielded.map Received.data := by
  refine ⟨⟨fun n => (inv_incoming script now n).2,
    fun n => (inv_incoming script now n).1.tracks.exhausted, fun n k i => exists_read,
    fun n => opens_succ, fun n => ?_⟩,
    fun n => paced_of_pace (inv_incoming script now n).1.pace, fun n => ?_⟩
  · rw [(inv_incoming script now n).1.tracks.live]
    exact Option.length_toList_le
  · rw [dispatcher_eq]
    refine ⟨rfl, ?_⟩
    show ((incoming script now n).yielded.map _).map _ = _
    rw [List.map_map]
    rfl

end Cspcl.Receive
