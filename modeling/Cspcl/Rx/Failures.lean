import Cspcl.Rx.Scan

/-!
# The failures that `cspcl_recv_bundle` reports

`ReportsFailures` says of one call that returns no bundle that its result tells what the reads of
the connections came to, that it sets `*len` to 0, and that it acknowledged nothing.

`reports_failures_iff`: the call ends with `CSPCL_ERR_TIMEOUT` whatever the reads came to, and
leaves `*len` alone on an instance that is not initialized. So the property holds iff no connection
fails otherwise than with a timeout, or another one has a bundle.
-/

namespace Cspcl

/-- What `*len` holds after the call, when it was `maxLen` before. -/
def RecvResult.len (r : RecvResult) (c : Instance) (maxLen : Nat) : Nat :=
  match r.res with
  | .ok (data, _) => data.length
  | .error _ => if c.initialized then 0 else maxLen

/-- If the call returns no bundle, then it returns `CSPCL_ERR_TIMEOUT` only if every read timed out,
else what a failed read came to; and it sets `*len` to 0 and acknowledged nothing. -/
structure ReportsFailures (c : Instance) (maxLen : Nat) (r : RecvResult) : Prop where
  timeout : r.res = .error .timeout → ∀ o, ReadGave maxLen r.calls o → o = .error .timeout
  failure : ∀ e o, r.res = .error e → ReadGave maxLen r.calls o → o ≠ .error .timeout →
    ReadGave maxLen r.calls (.error e)
  len_zero : ∀ e, r.res = .error e → r.len c maxLen = 0
  no_ack : ∀ e, r.res = .error e → ∀ k, .sendAck k ∉ r.calls

variable {g : Globals} {c : Instance} {maxLen : Nat} {timeoutMs : UInt32} {env : RecvEnv}

/-- No call but those of the loop is a read or an ack. -/
theorem readGave_stack {stack : List StackCall} {o : Except CspclError Bundle} :
    ¬ ReadGave maxLen (stack.map .stack) o := by
  rintro ⟨k, hm, ho⟩
  obtain ⟨s, -, rfl⟩ := List.mem_map.mp hm
  cases ho

namespace RxTable

variable {t : RxTable} {acceptMs : UInt32} {reads : Fin rxConnTableSize → SfpRecv}

theorem outcome_of_live (h : t.live = 0) (i : Fin rxConnTableSize) :
    t.outcome maxLen reads i = none := by
  have hu : ¬ (t.entries i).used = true := fun hu => by
    have := live_pos.mpr ⟨i, hu⟩
    omega
  rw [outcome, if_neg hu]

/-- A poll of a table with a bundle returns one. -/
theorem poll_ready (timeoutMs acceptMs : UInt32) (h : ∃ i, t.Ready maxLen reads i) :
    ∃ x, (t.poll maxLen timeoutMs acceptMs reads).res = .ok x := by
  obtain ⟨i, hi⟩ := h
  have hlive : t.live ≠ 0 := fun h0 => by
    obtain ⟨data, hd⟩ := hi
    rw [outcome_of_live h0] at hd
    cases hd
  obtain ⟨n, hn, rfl⟩ := exists_slotAt (t.tick.toNat % rxConnTableSize) i
  obtain ⟨pre, k, post, data, -, -, -, hres, -, -⟩ := scan_ready
    (readTimeoutMs timeoutMs acceptMs (UInt32.ofNat t.live)) (nodup_slotAt _) ⟨n, hn, hi⟩
  rw [poll, if_neg hlive]
  exact ⟨_, hres⟩

/-- A poll of a table without a bundle reads every connection, acknowledges nothing and times
out. -/
theorem poll_none (timeoutMs acceptMs : UInt32) (h : ¬ ∃ i, t.Ready maxLen reads i) :
    (t.poll maxLen timeoutMs acceptMs reads).res = .error .timeout ∧
      (∀ k, .sendAck k ∉ (t.poll maxLen timeoutMs acceptMs reads).calls) ∧
      ∀ o, ReadGave maxLen (t.poll maxLen timeoutMs acceptMs reads).calls o ↔
        ∃ i, t.outcome maxLen reads i = some o := by
  unfold poll
  split
  · rename_i h0
    refine ⟨rfl, by simp, fun o => iff_of_false readGave_nil ?_⟩
    rintro ⟨i, hi⟩
    rw [outcome_of_live h0] at hi
    cases hi
  obtain ⟨hres, hack, hread⟩ := scan_none
    (readTimeoutMs timeoutMs acceptMs (UInt32.ofNat t.live))
    (nodup_slotAt (t.tick.toNat % rxConnTableSize)) fun n _ hr => h ⟨_, hr⟩
  refine ⟨hres, fun k hk => ?_, fun o => ?_⟩
  · exact hack k ((List.mem_cons.mp hk).resolve_left (by simp))
  · rw [readGave_cons, or_iff_right (by simp [RxCall.gave]), hread]
    constructor
    · rintro ⟨n, -, ho⟩
      exact ⟨_, ho⟩
    · rintro ⟨i, hi⟩
      obtain ⟨n, hn, rfl⟩ := exists_slotAt (t.tick.toNat % rxConnTableSize) i
      exact ⟨n, hn, hi⟩

end RxTable

/-! ## The call -/

/-- A call that returned a bundle. -/
theorem ReportsFailures.of_ok {r : RecvResult} {x : Reported} (h : r.res = .ok x) :
    ReportsFailures c maxLen r := by
  refine ⟨?_, ?_, ?_, ?_⟩ <;> simp [h]

/-- The calls before the poll are neither reads nor acks. -/
theorem readGave_calls {stack : List StackCall} {ms : UInt32} {a : Option Accepted}
    {closed : List Conn} {calls : List RxCall} {o : Except CspclError Bundle} :
    ReadGave maxLen (stack.map .stack ++ (.accept ms a :: (closed.map .close ++ calls))) o ↔
      ReadGave maxLen calls o := by
  have hclosed : ¬ ReadGave maxLen (closed.map .close) o := by
    rintro ⟨k, hm, ho⟩
    obtain ⟨d, -, rfl⟩ := List.mem_map.mp hm
    cases ho
  rw [readGave_append, or_iff_right readGave_stack, readGave_cons,
    or_iff_right (by simp [RxCall.gave]), readGave_append, or_iff_right hclosed]

theorem sendAck_calls {stack : List StackCall} {ms : UInt32} {a : Option Accepted}
    {closed : List Conn} {calls : List RxCall} {k : Conn} :
    .sendAck k ∈ stack.map RxCall.stack ++ (.accept ms a :: (closed.map .close ++ calls)) ↔
      .sendAck k ∈ calls := by
  simp

/-- An initialized instance: the property holds iff no socket opens, or a connection of the table
that is polled has a bundle, or every one of them times out. -/
theorem reports_failures_of_init (hi : c.initialized = true) :
    ReportsFailures c maxLen (recvBundle g c maxLen timeoutMs env) ↔
      (socketOpens g c env.rx = true →
        (∃ i, (c.rx.withAccepted env.accept).1.Ready maxLen env.reads i) ∨
        ∀ i o, (c.rx.withAccepted env.accept).1.outcome maxLen env.reads i = some o →
          o = .error .timeout) := by
  have hlen : ∀ e, (recvBundle g c maxLen timeoutMs env).res = .error e →
      (recvBundle g c maxLen timeoutMs env).len c maxLen = 0 := by
    intro e he
    simp [RecvResult.len, he, hi]
  obtain ⟨-, -, stack, ⟨hno, -, ⟨err, hres⟩, hcalls⟩ | ⟨hopen, r, hr, -, hres, hcalls⟩⟩ :=
    recvBundle_cases g hi maxLen timeoutMs env
  · refine iff_of_true ⟨fun _ o ho => ?_, fun _ o _ ho _ => ?_, hlen, fun _ _ k hk => ?_⟩ ?_
    · rw [hcalls] at ho
      exact absurd ho readGave_stack
    · rw [hcalls] at ho
      exact absurd ho readGave_stack
    · rw [hcalls] at hk
      simp at hk
    · simp [hno]
  by_cases hready : ∃ i, (c.rx.withAccepted env.accept).1.Ready maxLen env.reads i
  · obtain ⟨x, hx⟩ := RxTable.poll_ready (callerTimeoutMs timeoutMs)
      (RxTable.acceptTimeoutMs (callerTimeoutMs timeoutMs) c.rx.live) hready
    rw [← hr] at hx
    exact iff_of_true (.of_ok (hres.trans hx)) fun _ => .inl hready
  · obtain ⟨htime, hack, hread⟩ := RxTable.poll_none (callerTimeoutMs timeoutMs)
      (RxTable.acceptTimeoutMs (callerTimeoutMs timeoutMs) c.rx.live) hready
    rw [← hr] at htime hack hread
    have hgave : ∀ o, ReadGave maxLen (recvBundle g c maxLen timeoutMs env).calls o ↔
        ∃ i, (c.rx.withAccepted env.accept).1.outcome maxLen env.reads i = some o := by
      intro o
      rw [hcalls, readGave_calls, hread]
    rw [htime] at hres
    constructor
    · refine fun h _ => .inr fun i o ho => ?_
      exact h.timeout hres o ((hgave o).mpr ⟨i, ho⟩)
    · intro h
      have hall := (h hopen).resolve_left hready
      refine ⟨fun _ o ho => ?_, fun e o _ ho hne => ?_, hlen, fun _ _ k hk => ?_⟩
      · obtain ⟨i, hi⟩ := (hgave o).mp ho
        exact hall i o hi
      · obtain ⟨i, hi⟩ := (hgave o).mp ho
        exact absurd (hall i o hi) hne
      · rw [hcalls, sendAck_calls] at hk
        exact hack k hk

/-- A call of `cspcl_recv_bundle` reports its failures iff the instance is initialized (or the
buffer is empty), and no read fails otherwise than with a timeout, unless the call has no socket or
another connection has a bundle. -/
theorem reports_failures_iff (g : Globals) (c : Instance) (maxLen : Nat) (timeoutMs : UInt32)
    (env : RecvEnv) :
    ReportsFailures c maxLen (recvBundle g c maxLen timeoutMs env) ↔
      (c.initialized = false → maxLen = 0) ∧
      (c.initialized = true → socketOpens g c env.rx = true →
        (∃ i, (c.rx.withAccepted env.accept).1.Ready maxLen env.reads i) ∨
        ∀ i o, (c.rx.withAccepted env.accept).1.outcome maxLen env.reads i = some o →
          o = .error .timeout) := by
  cases hi : c.initialized with
  | true =>
    rw [reports_failures_of_init hi]
    simp
  | false =>
    have hr : recvBundle g c maxLen timeoutMs env = ⟨g, c, .error .notInitialized, []⟩ := by
      simp [recvBundle, hi]
    rw [hr]
    simp only [true_implies, Bool.false_eq_true, false_implies, and_true]
    refine ⟨fun h => ?_, fun h => ⟨by simp, fun _ o _ ho => absurd ho readGave_nil, ?_, by simp⟩⟩
    · have := h.len_zero _ rfl
      simpa [RecvResult.len, hi] using this
    · intro _ _
      simp [RecvResult.len, hi, h]

/-- An environment in which every read fails to reassemble a bundle (`CSP_ERR_SFP`). -/
def sfpEnv : RecvEnv := { idleEnv with reads := fun _ => .fail (-103) }

/-- The one connection of the table fails to reassemble a bundle: the call returns a timeout. -/
theorem sfp_failure_hidden :
    (recvBundle oneLive.globals oneLive.inst rxBufferSize 0 sfpEnv).res = .error .timeout ∧
      ReadGave rxBufferSize (recvBundle oneLive.globals oneLive.inst rxBufferSize 0 sfpEnv).calls
        (.error .sfp) ∧
      ¬ ReportsFailures oneLive.inst rxBufferSize
        (recvBundle oneLive.globals oneLive.inst rxBufferSize 0 sfpEnv) := by
  have hres : (recvBundle oneLive.globals oneLive.inst rxBufferSize 0 sfpEnv).res =
      .error .timeout := by decide +kernel
  have hgave : ReadGave rxBufferSize
      (recvBundle oneLive.globals oneLive.inst rxBufferSize 0 sfpEnv).calls (.error .sfp) := by
    decide +kernel
  refine ⟨hres, hgave, fun h => ?_⟩
  cases h.timeout hres _ hgave

end Cspcl
