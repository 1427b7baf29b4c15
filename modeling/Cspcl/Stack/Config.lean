import Cspcl.Iface.Spec
import Cspcl.Stack.Init

/-!
# The interface that the stack runs on

Any sequence of `cspcl_init` and `cspcl_cleanup` calls (`stackSys`). `startedWith` reads off the
calls to libcsp with which address and on which interface the stack was started.

* `StackConfig`: the variables remember the address and the type of the interface, not the host or
  the device.
* `stack_config`: while the instances that join the running stack name its host or device, all of
  them are configured as the stack was started. `cspcl_init` compares only the address and the type.
-/

namespace Cspcl

/-- What the successful calls to libcsp have configured, and with what the router task was
started. -/
structure StackLog where
  addr : Option UInt8
  iface : Option InterfaceConfig
  started : Option (UInt8 × InterfaceConfig)
  deriving DecidableEq

def StackLog.add (l : StackLog) : StackCall → StackLog
  | .cspInit conf ret => if ret = cspErrNone then { l with addr := some conf.address } else l
  | .zmqhubInit _ host ret => if ret = cspErrNone then { l with iface := some (.zmq host) } else l
  | .canOpen device ret => if ret = cspErrNone then { l with iface := some (.can device) } else l
  | .loopback => { l with iface := some .loopback }
  | .routeStartTask ret =>
    if ret = cspErrNone then
      { l with started := l.addr.bind fun addr => l.iface.map fun iface => (addr, iface) }
    else l
  | _ => l

/-- The address and the interface with which the stack was started, if it was. -/
def startedWith (calls : List StackCall) : Option (UInt8 × InterfaceConfig) :=
  (calls.foldl StackLog.add ⟨none, none, none⟩).started

theorem StackLog.foldl_quiet {calls : List StackCall} (h : ∀ k ∈ calls, k.starts = false)
    (l : StackLog) : calls.foldl StackLog.add l = l := by
  induction calls with
  | nil => rfl
  | cons k calls ih =>
    have hk : l.add k = l := by
      have := h k List.mem_cons_self
      cases k <;> first | rfl | cases this
    rw [List.foldl_cons, hk]
    exact ih fun k' hk' => h k' (List.mem_cons_of_mem _ hk')

namespace Instance

variable {socketcan : Bool} {g : Globals} {c : Instance} {env : InitEnv}

/-- The configuration of an instance. -/
def config (c : Instance) : UInt8 × InterfaceConfig := (c.localAddr, c.interface)

/-- What a call of `cspcl_init`, or its first part, comes to from `g` and `c`. -/
structure Settled (g : Globals) (c : Instance)
    (r : Globals × Instance × CspclError × List StackCall) : Prop where
  config : r.2.1.config = c.config
  running : g.stackInitialized = true → r.1.stackInitialized = true ∧
    r.1.globalAddr = g.globalAddr ∧ r.1.globalIfaceType = g.globalIfaceType ∧
    ∀ k ∈ r.2.2.2, k.starts = false
  started : g.stackInitialized = false → r.1.stackInitialized = true →
    r.1.globalAddr = c.localAddr ∧ r.1.globalIfaceType = c.ifaceType ∧
    ∀ l, (r.2.2.2.foldl StackLog.add l).started = some c.config
  matches_globals : r.2.2.1 = .ok → c.initialized = true ∨ (r.1.stackInitialized = true ∧
    c.localAddr = r.1.globalAddr ∧ c.ifaceType = r.1.globalIfaceType)

/-- An interface that came up is the one that the instance selects. -/
theorem openIface_log {i : Option Iface} {io : List StackCall}
    (h : openIface socketcan c env = (.ok i, io)) (l : StackLog) :
    io.foldl StackLog.add l = { l with iface := some c.interface } := by
  unfold openIface at h
  unfold Instance.interface
  cases ht : c.ifaceType <;> rw [ht] at h <;> dsimp only at h
  · split at h
    · cases h
    · rename_i he
      obtain ⟨-, rfl⟩ := Prod.mk.inj h
      exact if_pos (not_not.mp he)
  · split at h
    · cases h
    split at h
    · cases h
    · rename_i he
      obtain ⟨-, rfl⟩ := Prod.mk.inj h
      exact if_pos (not_not.mp he)
  · obtain ⟨-, rfl⟩ := Prod.mk.inj h
    rfl

/-- A start of the stack: it fails, or the log ends with the instance's configuration. -/
theorem startStack_settled (socketcan : Bool) (c : Instance) (env : InitEnv)
    (hg : g.stackInitialized = false) :
    let r := startStack socketcan g c env
    r.2.1.config = c.config ∧ r.2.1.initialized = c.initialized ∧
      (r.1.stackInitialized = true ↔ r.2.2.1 = .ok) ∧
      (r.2.2.1 = .ok → r.1.globalAddr = c.localAddr ∧ r.1.globalIfaceType = c.ifaceType ∧
        ∀ l, (r.2.2.2.foldl StackLog.add l).started = some c.config) := by
  by_cases hc : env.cspInit = cspErrNone
  swap
  · simp [startStack, hc, hg]
  cases ho : openIface socketcan c env with
  | mk o io =>
    cases o with
    | error e =>
      have he : e ≠ .ok := by
        rintro rfl
        unfold openIface at ho
        split at ho <;> (try split at ho) <;> (try split at ho) <;> cases ho
      simp [startStack, hc, ho, hg, he]
    | ok i =>
      by_cases hr : env.routeStart = cspErrNone
      swap
      · simp [startStack, hc, ho, hg, hr, config, interface]
      refine ⟨by simp [startStack, hc, ho, hr, config, interface], by simp [startStack, hc, ho, hr],
        by simp [startStack, hc, ho, hr], fun _ => ⟨by simp [startStack, hc, ho, hr],
          by simp [startStack, hc, ho, hr], fun l => ?_⟩⟩
      have hcalls : (startStack socketcan g c env).2.2.2 = .cspInit c.cspConf cspErrNone ::
          (io ++ (i.map StackCall.rtableSet).toList ++ [.routeStartTask cspErrNone]) := by
        simp [startStack, hc, ho, hr]
      have hset : ∀ k ∈ (i.map StackCall.rtableSet).toList, k.starts = false := by
        intro k hk
        obtain ⟨j, -, rfl⟩ := Option.map_eq_some_iff.mp (Option.mem_toList.mp hk)
        rfl
      rw [hcalls, List.foldl_cons, List.foldl_append, List.foldl_append, openIface_log ho,
        StackLog.foldl_quiet hset]
      rfl

/-- Calls that do not start the stack are added, and an error may come up. -/
theorem Settled.append {r r' : Globals × Instance × CspclError × List StackCall}
    (h : Settled g c r) (hflag : r'.1.stackInitialized = r.1.stackInitialized)
    (haddr : r'.1.globalAddr = r.1.globalAddr)
    (hiface : r'.1.globalIfaceType = r.1.globalIfaceType) (hc : r'.2.1.config = r.2.1.config)
    (he : r'.2.2.1 = .ok → r.2.2.1 = .ok) {more : List StackCall}
    (hcalls : r'.2.2.2 = r.2.2.2 ++ more) (hm : ∀ k ∈ more, k.starts = false) :
    Settled g c r' := by
  refine ⟨hc.trans h.config, fun hg => ?_, fun hg hg' => ?_, fun hok => ?_⟩
  · obtain ⟨hf, ha, hi, hk⟩ := h.running hg
    refine ⟨hflag.trans hf, haddr.trans ha, hiface.trans hi, fun k hk' => ?_⟩
    rw [hcalls] at hk'
    exact (List.mem_append.mp hk').elim (hk k) (hm k)
  · obtain ⟨ha, hi, hl⟩ := h.started hg (hflag.symm.trans hg')
    refine ⟨haddr.trans ha, hiface.trans hi, fun l => ?_⟩
    rw [hcalls, List.foldl_append, StackLog.foldl_quiet hm, hl]
  · rw [hflag, haddr, hiface]
    exact h.matches_globals (he hok)

theorem enterStack_settled (pool : ConnPool) :
    Settled g c (enterStack socketcan g (c.reset pool) env) := by
  cases hg : g.stackInitialized with
  | false =>
    have hr : enterStack socketcan g (c.reset pool) env =
        startStack socketcan g (c.reset pool) env := by simp [enterStack, hg]
    obtain ⟨hc, -, hflag, hok⟩ :=
      startStack_settled socketcan (c.reset pool) env hg
    rw [hr]
    refine ⟨hc, fun h => by simp [hg] at h, fun _ hf => hok (hflag.mp hf), fun h => .inr ?_⟩
    obtain ⟨ha, hi, -⟩ := hok h
    exact ⟨hflag.mpr h, ha.symm, hi.symm⟩
  | true =>
    have hr : enterStack socketcan g (c.reset pool) env =
        (g, (joinStack g (c.reset pool)).1, (joinStack g (c.reset pool)).2, []) := by
      simp [enterStack, hg]
    rw [hr]
    unfold joinStack
    split
    · exact ⟨rfl, fun h => ⟨h, rfl, rfl, by simp⟩, fun h => by simp [hg] at h, by simp⟩
    · rename_i hne
      rw [not_or, not_not, not_not] at hne
      exact ⟨rfl, fun h => ⟨h, rfl, rfl, by simp⟩, fun h => by simp [hg] at h,
        fun _ => .inr ⟨hg, hne⟩⟩

/-- Nothing was done. -/
theorem Settled.none {c' : Instance} {e : CspclError} (hc : c'.config = c.config)
    (he : e = .ok → c.initialized = true) : Settled g c (g, c', e, []) :=
  ⟨hc, fun h => ⟨h, rfl, rfl, by simp⟩, fun h h' => by simp [h] at h', fun h => .inl (he h)⟩

theorem initStack_settled : Settled g c (initStack socketcan g c env) := by
  cases hm : env.mutex with
  | false =>
    have hr : initStack socketcan g c env = (g, { c with connPool := .zero }, .noMemory, []) := by
      simp [initStack, ConnPool.init, hm]
    rw [hr]
    exact .none rfl (by simp)
  | true =>
    obtain ⟨pool, hp⟩ : ∃ pool, ConnPool.init env.mutex env.maxAgeEnv = (pool, .ok) :=
      ⟨_, by rw [hm]; rfl⟩
    have h : Settled g c (enterStack socketcan g (c.reset pool) env) := enterStack_settled pool
    simp only [initStack, hp]
    generalize enterStack socketcan g (c.reset pool) env = r at h ⊢
    obtain ⟨g', c', err, calls⟩ := r
    cases err
    case ok => exact h.append rfl rfl rfl rfl (fun _ => rfl) (List.append_nil _).symm (by simp)
    all_goals
      exact h.append rfl rfl rfl rfl (fun he => he) rfl fun k hk => releaseConnPool_calls hk

/-- Opening the receive socket leaves the stack's variables and the configuration. -/
theorem openRxSocket_config (g : Globals) (c : Instance) (env : RxEnv) :
    (openRxSocket g c env).1.globalAddr = g.globalAddr ∧
      (openRxSocket g c env).1.globalIfaceType = g.globalIfaceType ∧
      (openRxSocket g c env).2.1.config = c.config ∧
      ((openRxSocket g c env).2.2.1 = .ok → (openRxSocket g c env).2.1.initialized = true) := by
  unfold openRxSocket
  split
  · exact ⟨rfl, rfl, rfl, by simp⟩
  rename_i hi
  rw [Bool.not_eq_true', Bool.not_eq_false] at hi
  split
  · exact ⟨rfl, rfl, rfl, fun _ => hi⟩
  · exact ⟨rfl, rfl, rfl, fun _ => hi⟩
  cases rxCreate c env with
  | mk r calls => cases r <;> exact ⟨rfl, rfl, rfl, fun _ => hi⟩

/-- An instance that is not initialized stays so if the first part fails. -/
theorem initStack_error (hc : c.initialized = false)
    (h : (initStack socketcan g c env).2.2.1 ≠ .ok) :
    (initStack socketcan g c env).2.1.initialized = false := by
  cases hm : env.mutex with
  | false => simp [initStack, ConnPool.init, hm, hc]
  | true =>
    obtain ⟨pool, hp⟩ : ∃ pool, ConnPool.init env.mutex env.maxAgeEnv = (pool, .ok) :=
      ⟨_, by rw [hm]; rfl⟩
    have he : (enterStack socketcan g (c.reset pool) env).2.1.initialized = false := by
      cases hg : g.stackInitialized with
      | false =>
        obtain ⟨-, hi, -⟩ :=
          startStack_settled socketcan (c.reset pool) env hg
        simpa [enterStack, hg] using hi.trans hc
      | true =>
        have hj : (joinStack g (c.reset pool)).1.initialized = (c.reset pool).initialized := by
          unfold joinStack
          split <;> rfl
        simpa [enterStack, hg] using hj.trans hc
    simp only [initStack, hp] at h ⊢
    generalize enterStack socketcan g (c.reset pool) env = r at h he ⊢
    obtain ⟨g', c', err, calls⟩ := r
    cases err
    case ok => exact absurd rfl h
    all_goals exact he

/-- What a call of `cspcl_init` comes to; the instance is initialized after it iff it returned
`CSPCL_OK`. -/
theorem init_settled (socketcan : Bool) (g : Globals) (c : Instance) (env : InitEnv) :
    Settled g c (init socketcan g c env) ∧
      ((init socketcan g c env).2.1.initialized = true ↔
        (init socketcan g c env).2.2.1 = .ok) := by
  have h : Settled g c (if !c.initialized then initStack socketcan g c env else (g, c, .ok, [])) ∧
      ((if !c.initialized then initStack socketcan g c env else (g, c, .ok, [])).2.2.1 ≠ .ok →
        (if !c.initialized then initStack socketcan g c env
          else (g, c, .ok, [])).2.1.initialized = false) := by
    cases hc : c.initialized with
    | false => exact ⟨initStack_settled, initStack_error hc⟩
    | true => exact ⟨.none rfl fun _ => hc, fun h => absurd rfl h⟩
  unfold init
  generalize (if !c.initialized then initStack socketcan g c env else (g, c, .ok, [])) = r at h ⊢
  obtain ⟨g', c', err, calls⟩ := r
  obtain ⟨h, herr⟩ := h
  cases err
  case ok =>
    obtain ⟨hflag, hcalls⟩ := openRxSocket_stack g' c' env.rx
    obtain ⟨haddr, hiface, hconf, hinit⟩ := openRxSocket_config g' c' env.rx
    dsimp only
    generalize openRxSocket g' c' env.rx = r at hflag hcalls haddr hiface hconf hinit ⊢
    obtain ⟨g'', c'', err, calls'⟩ := r
    cases err
    case ok =>
      exact ⟨h.append hflag haddr hiface hconf (fun _ => rfl) rfl hcalls,
        iff_of_true (hinit rfl) rfl⟩
    all_goals
      refine ⟨h.append hflag haddr hiface hconf (fun _ => rfl) rfl fun k hk => ?_,
        iff_of_false Bool.false_ne_true (by simp)⟩
      rcases List.mem_append.mp hk with hk | hk
      · exact hcalls k hk
      · exact cleanup_calls hk
  all_goals
    refine ⟨h, iff_of_false ?_ (by simp)⟩
    rw [herr (by simp)]
    exact Bool.false_ne_true

end Instance

/-! ## Runs -/

/-- What the variables remember of the calls that started the stack, and that the instances are
configured as it was. -/
structure StackConfig (w : Process) : Prop where
  remembered : w.globals.stackInitialized = true → ∃ iface,
    startedWith w.calls = some (w.globals.globalAddr, iface)
  configured : ∀ i, (w.inst i).initialized = true → w.globals.stackInitialized = true ∧
    startedWith w.calls = some (w.inst i).config

namespace Process

/-- An instance that joins the running stack, with the address and the type of interface that the
stack has, names the host or the device that the stack was started on. -/
def NamesStackInterface (w : Process) : StackOp → Prop
  | .init i _ => (w.inst i).initialized = false → w.globals.stackInitialized = true →
    (w.inst i).localAddr = w.globals.globalAddr →
    (w.inst i).ifaceType = w.globals.globalIfaceType →
    (startedWith w.calls).map Prod.snd = some (w.inst i).interface
  | .cleanup _ _ => True

instance (w : Process) : ∀ op, Decidable (w.NamesStackInterface op)
  | .init .. => inferInstanceAs (Decidable (_ → _))
  | .cleanup .. => inferInstanceAs (Decidable True)

variable {socketcan : Bool} {w w' : Process} {op : StackOp}

theorem init_calls (w : Process) (i : Nat) (env : InitEnv) : (w.init socketcan i env).calls =
    w.calls ++ (Instance.init socketcan w.globals (w.inst i) env).2.2.2 := rfl

theorem init_inst (w : Process) (i : Nat) (env : InitEnv) : (w.init socketcan i env).inst =
    Function.update w.inst i (Instance.init socketcan w.globals (w.inst i) env).2.1 := rfl

theorem init_globals (w : Process) (i : Nat) (env : InitEnv) : (w.init socketcan i env).globals =
    (Instance.init socketcan w.globals (w.inst i) env).1 := rfl

theorem startedWith_append {calls more : List StackCall} (h : ∀ k ∈ more, k.starts = false) :
    startedWith (calls ++ more) = startedWith calls := by
  rw [startedWith, List.foldl_append, StackLog.foldl_quiet h]
  rfl

end Process

namespace StackConfig

variable {socketcan : Bool} {w : Process}

theorem cleanup (h : StackConfig w) (i : Nat) (lock : Bool) : StackConfig (w.cleanup i lock) := by
  have hs : startedWith (w.cleanup i lock).calls = startedWith w.calls :=
    Process.startedWith_append fun k hk => Instance.cleanup_calls hk
  refine ⟨fun hf => ?_, fun j hj => ?_⟩
  · rw [hs]
    exact h.remembered hf
  · rw [hs]
    have hi : (w.cleanup i lock).inst = Function.update w.inst i ((w.inst i).cleanup lock).1 := rfl
    rw [hi] at hj ⊢
    rcases eq_or_ne j i with rfl | hne
    · rw [Function.update_self] at hj
      cases hj
    · rw [Function.update_of_ne hne] at hj ⊢
      exact h.configured j hj

/-- A call of `cspcl_init` that returned `CSPCL_OK` left an instance that is configured as the stack
is, if it named its interface. -/
theorem init_ok (h : StackConfig w) {i : Nat} {env : InitEnv}
    (hn : w.NamesStackInterface (.init i env))
    (hok : (Instance.init socketcan w.globals (w.inst i) env).2.2.1 = .ok) :
    (w.init socketcan i env).globals.stackInitialized = true ∧
      startedWith (w.init socketcan i env).calls = some (w.inst i).config := by
  obtain ⟨hs, -⟩ := Instance.init_settled socketcan w.globals (w.inst i) env
  cases hg : w.globals.stackInitialized with
  | true =>
    obtain ⟨hflag, haddr, hiface, hquiet⟩ := hs.running hg
    refine ⟨hflag, ?_⟩
    rw [Process.init_calls, Process.startedWith_append hquiet]
    cases hi : (w.inst i).initialized with
    | true => exact (h.configured i hi).2
    | false =>
      rcases hs.matches_globals hok with hi' | ⟨-, ha, ht⟩
      · rw [hi] at hi'
        cases hi'
      · rw [haddr] at ha
        rw [hiface] at ht
        obtain ⟨iface, hst⟩ := h.remembered hg
        have := hn hi hg ha ht
        rw [hst, Option.map_some] at this
        rw [hst, Instance.config, ← Option.some.inj this, ha]
  | false =>
    have hi : (w.inst i).initialized = false := by
      rw [← Bool.not_eq_true]
      intro hi
      rw [(h.configured i hi).1] at hg
      cases hg
    rcases hs.matches_globals hok with hi' | ⟨hflag, -⟩
    · rw [hi] at hi'
      cases hi'
    · obtain ⟨-, -, hl⟩ := hs.started hg hflag
      refine ⟨hflag, ?_⟩
      rw [Process.init_calls, startedWith, List.foldl_append]
      exact hl _

theorem init (h : StackConfig w) {i : Nat} {env : InitEnv}
    (hn : w.NamesStackInterface (.init i env)) : StackConfig (w.init socketcan i env) := by
  obtain ⟨hs, hinit⟩ := Instance.init_settled socketcan w.globals (w.inst i) env
  refine ⟨fun hf => ?_, fun j hj => ?_⟩
  · cases hg : w.globals.stackInitialized with
    | true =>
      obtain ⟨-, haddr, -, hquiet⟩ := hs.running hg
      obtain ⟨iface, hst⟩ := h.remembered hg
      refine ⟨iface, (Process.startedWith_append hquiet).trans ?_⟩
      rw [hst, Process.init_globals, haddr]
    | false =>
      obtain ⟨haddr, -, hl⟩ := hs.started hg hf
      refine ⟨(w.inst i).interface, ?_⟩
      rw [Process.init_calls, startedWith, List.foldl_append, hl, Instance.config, ← haddr,
        Process.init_globals]
  · rw [Process.init_inst] at hj ⊢
    rcases eq_or_ne j i with rfl | hne
    · rw [Function.update_self] at hj ⊢
      rw [hs.config]
      exact h.init_ok hn (hinit.mp hj)
    · rw [Function.update_of_ne hne] at hj ⊢
      obtain ⟨hg, hst⟩ := h.configured j hj
      obtain ⟨hflag, -, -, hquiet⟩ := hs.running hg
      exact ⟨hflag, (Process.startedWith_append hquiet).trans hst⟩

end StackConfig

theorem stackConfig_inductive (socketcan : Bool) :
    ((stackSys socketcan).guard Process.NamesStackInterface).Inductive StackConfig where
  init w hw := by
    obtain ⟨conf, rfl⟩ := hw
    refine ⟨fun h => ?_, fun i h => ?_⟩ <;> cases h
  step w op w' h hs := by
    obtain ⟨hn, hs⟩ := Lts.guard_step.mp hs
    cases op with
    | init i env =>
      obtain rfl := Option.some.inj hs
      exact h.init hn
    | cleanup i lock =>
      obtain rfl := Option.some.inj hs
      exact h.cleanup i lock

/-- In a run in which every instance that joins the stack names the stack's interface, all
initialized instances are configured as the stack was started; and the next call of `cspcl_init`
that returns `CSPCL_OK` leaves its instance so iff it names that interface too. -/
theorem stack_config (socketcan : Bool) {conf : Nat → InstanceConf} {w : Process}
    {ops : List StackOp}
    (hr : ((stackSys socketcan).guard Process.NamesStackInterface).Run (.new conf) ops w) :
    (∀ i, (w.inst i).initialized = true → startedWith w.calls = some (w.inst i).config) ∧
      ∀ i env, (Instance.init socketcan w.globals (w.inst i) env).2.2.1 = .ok →
        (startedWith (w.init socketcan i env).calls =
          some ((w.init socketcan i env).inst i).config ↔
            w.NamesStackInterface (.init i env)) := by
  have h := (stackConfig_inductive socketcan).run hr
    ((stackConfig_inductive socketcan).init _ ⟨conf, rfl⟩)
  refine ⟨fun i hi => (h.configured i hi).2, fun i env hok => ?_⟩
  obtain ⟨hs, -⟩ := Instance.init_settled socketcan w.globals (w.inst i) env
  have hi : ((w.init socketcan i env).inst i).config = (w.inst i).config := by
    rw [Process.init_inst, Function.update_self, hs.config]
  rw [hi]
  refine ⟨fun hst _ hg _ _ => ?_, fun hn => (h.init_ok hn hok).2⟩
  obtain ⟨-, -, -, hquiet⟩ := hs.running hg
  have hst' : startedWith w.calls = some (w.inst i).config :=
    (Process.startedWith_append hquiet).symm.trans hst
  rw [hst']
  rfl

/-- Two instances at hub `a` and the others at hub `b`. -/
def hubConf (i : Nat) : InstanceConf :=
  ⟨1, 10, .zmqhub, if i < 2 then [97] else [98], []⟩

/-- Two instances at the same hub. -/
theorem stack_config_same_hub :
    ∃ w, (stackSys true).exec (.new hubConf) [.init 0 goodEnv, .init 1 goodEnv] = some w ∧
      startedWith w.calls = some (1, .zmq [97]) ∧
      ∀ i, (w.inst i).initialized = true → startedWith w.calls = some (w.inst i).config := by
  obtain ⟨w, hw⟩ : ∃ w, (stackSys true).exec (.new hubConf)
      [.init 0 goodEnv, .init 1 goodEnv] = some w := ⟨_, rfl⟩
  have hs : ((stackSys true).exec (.new hubConf) [.init 0 goodEnv, .init 1 goodEnv]).map
      (fun w => startedWith w.calls) = some (some (1, .zmq [97])) := by decide
  have hg : (((stackSys true).guard Process.NamesStackInterface).exec (.new hubConf)
      [.init 0 goodEnv, .init 1 goodEnv]) = some w := by
    rw [← hw]
    rfl
  rw [hw, Option.map_some, Option.some.injEq] at hs
  exact ⟨w, hw, hs, (stack_config true (Lts.run_iff_exec.mpr hg)).1⟩

/-- An instance at hub `b` joins the stack on hub `a`, and is told that all is well. -/
theorem stack_config_other_hub :
    ∃ w, (stackSys true).exec (.new hubConf) [.init 0 goodEnv] = some w ∧
      (Instance.init true w.globals (w.inst 2) goodEnv).2.2.1 = .ok ∧
      startedWith (w.init true 2 goodEnv).calls = some (1, .zmq [97]) ∧
      ((w.init true 2 goodEnv).inst 2).config = (1, .zmq [98]) := by
  obtain ⟨w, hw⟩ : ∃ w, (stackSys true).exec (.new hubConf) [.init 0 goodEnv] = some w := ⟨_, rfl⟩
  have hf : ((stackSys true).exec (.new hubConf) [.init 0 goodEnv]).map
      (fun w => ((Instance.init true w.globals (w.inst 2) goodEnv).2.2.1,
        startedWith (w.init true 2 goodEnv).calls,
        ((w.init true 2 goodEnv).inst 2).config)) =
      some (.ok, some (1, .zmq [97]), (1, .zmq [98])) := by decide
  simp only [hw, Option.map_some, Option.some.injEq, Prod.mk.injEq] at hf
  exact ⟨w, hw, hf.1, hf.2.1, hf.2.2⟩

end Cspcl
