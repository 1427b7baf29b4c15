import Cspcl.Lib.Lts
import Cspcl.Stack.Basic

/-!
# Starting the CSP stack once

Any sequence of `cspcl_init` and `cspcl_cleanup` calls on any instances (`stackSys`), with every
outcome of the calls to libcsp. The global lock makes the part of `cspcl_init` that starts the
stack one step.

* `Process`: the process, with the calls made so far and whether a start of the stack has stopped
  half-way, after `csp_init` and before the router task.
* `StackOnce`: `csp_init` and the router task are started once, and the flag
  `g_cspcl_stack_initialized` tells whether the whole start succeeded.
* `stack_once_iff`: it holds after a run iff no start of the stack follows one that stopped
  half-way. The flag alone does not remember that `csp_init` has run.
-/

namespace Cspcl

namespace StackCall

def isCspInit : StackCall → Bool
  | .cspInit _ _ => true
  | _ => false

/-- A call of `csp_init` that succeeded. -/
def cspInitOk : StackCall → Bool
  | .cspInit _ ret => ret = cspErrNone
  | _ => false

/-- The interface was initialized. -/
def ifaceOk : StackCall → Bool
  | .zmqhubInit _ _ ret => ret = cspErrNone
  | .canOpen _ ret => ret = cspErrNone
  | .loopback => true
  | _ => false

def isRouteStart : StackCall → Bool
  | .routeStartTask _ => true
  | _ => false

/-- A call of `csp_route_start_task` that succeeded. -/
def routeStartOk : StackCall → Bool
  | .routeStartTask ret => ret = cspErrNone
  | _ => false

/-- The calls that start the stack. -/
def starts : StackCall → Bool
  | .cspInit _ _ | .zmqhubInit _ _ _ | .canOpen _ _ | .loopback | .routeStartTask _ => true
  | _ => false

theorem cspInitOk_eq_false {k : StackCall} (h : k.isCspInit = false) : k.cspInitOk = false := by
  cases k <;> first | rfl | simp [isCspInit] at h

theorem routeStartOk_eq_false {k : StackCall} (h : k.isRouteStart = false) :
    k.routeStartOk = false := by
  cases k <;> first | rfl | simp [isRouteStart] at h

theorem not_starts {k : StackCall} (h : k.starts = false) :
    k.isCspInit = false ∧ k.ifaceOk = false ∧ k.isRouteStart = false := by
  cases k <;> simp_all [starts, isCspInit, ifaceOk, isRouteStart]

end StackCall

/-! ## What the functions do to the stack -/

namespace Instance

variable {socketcan : Bool} {g : Globals} {c : Instance} {env : InitEnv}

/-- The call of `cspcl_init` comes to `csp_init`. -/
def startsStack (g : Globals) (c : Instance) (env : InitEnv) : Bool :=
  !c.initialized && env.mutex && !g.stackInitialized

/-- The interface and the router task come up. -/
def comesUp (socketcan : Bool) (c : Instance) (env : InitEnv) : Bool :=
  (openIface socketcan c env).1.isOk && env.routeStart = cspErrNone

theorem openIface_calls (k : StackCall) (h : k ∈ (openIface socketcan c env).2) :
    k.isCspInit = false ∧ k.isRouteStart = false := by
  unfold openIface at h
  split at h
  · obtain rfl := List.mem_singleton.mp h
    exact ⟨rfl, rfl⟩
  · split at h
    · cases h
    · obtain rfl := List.mem_singleton.mp h
      exact ⟨rfl, rfl⟩
  · obtain rfl := List.mem_singleton.mp h
    exact ⟨rfl, rfl⟩

theorem openIface_ok {i : Option Iface} (h : (openIface socketcan c env).1 = .ok i) :
    ∃ k ∈ (openIface socketcan c env).2, k.ifaceOk = true := by
  unfold openIface at h ⊢
  cases hi : c.ifaceType with
  | zmqhub =>
    rw [hi] at h
    by_cases he : env.iface = cspErrNone
    · exact ⟨_, List.mem_singleton_self _, by simp [StackCall.ifaceOk, he]⟩
    · simp [he] at h
  | can =>
    rw [hi] at h
    cases socketcan with
    | false => simp at h
    | true =>
      by_cases he : env.iface = cspErrNone
      · exact ⟨_, List.mem_singleton_self _, by simp [StackCall.ifaceOk, he]⟩
      · simp [he] at h
  | loopback => exact ⟨_, List.mem_singleton_self _, rfl⟩

/-- How a start of the stack ends: at `csp_init`, half-way, or with the router task. -/
theorem startStack_cases (socketcan : Bool) (c : Instance) (env : InitEnv)
    (hg : g.stackInitialized = false) :
    (env.cspInit ≠ cspErrNone ∧ (startStack socketcan g c env).1.stackInitialized = false ∧
      (startStack socketcan g c env).2.2.2 = [.cspInit c.cspConf env.cspInit]) ∨
    (env.cspInit = cspErrNone ∧ comesUp socketcan c env = false ∧
      (startStack socketcan g c env).1.stackInitialized = false ∧
      ∃ io route, (∀ k ∈ io, k.isCspInit = false ∧ k.isRouteStart = false) ∧
        (∀ k ∈ route, k.isCspInit = false ∧ k.routeStartOk = false) ∧
        (startStack socketcan g c env).2.2.2 = .cspInit c.cspConf cspErrNone :: (io ++ route)) ∨
    (env.cspInit = cspErrNone ∧ comesUp socketcan c env = true ∧
      (startStack socketcan g c env).1.stackInitialized = true ∧
      ∃ io, (∀ k ∈ io, k.isCspInit = false ∧ k.isRouteStart = false) ∧
        (∃ k ∈ io, k.ifaceOk = true) ∧
        (startStack socketcan g c env).2.2.2 =
          .cspInit c.cspConf cspErrNone :: (io ++ [.routeStartTask cspErrNone])) := by
  by_cases hc : env.cspInit = cspErrNone
  swap
  · exact .inl ⟨hc, by simp [startStack, hc, hg], by simp [startStack, hc]⟩
  right
  have hcalls : ∀ k ∈ (openIface socketcan c env).2, k.isCspInit = false ∧
      k.isRouteStart = false := openIface_calls
  cases ho : openIface socketcan c env with
  | mk r io =>
    rw [ho] at hcalls
    cases r with
    | error e =>
      refine .inl ⟨hc, by simp [comesUp, ho, Except.isOk, Except.toBool], ?_, io, [], hcalls,
        by simp, ?_⟩
      · simp [startStack, hc, ho, hg]
      · simp [startStack, hc, ho]
    | ok i =>
      have hroute : ∀ k ∈ (i.map StackCall.rtableSet).toList,
          k.isCspInit = false ∧ k.isRouteStart = false := by
        intro k hk
        obtain ⟨j, -, rfl⟩ := Option.map_eq_some_iff.mp (Option.mem_toList.mp hk)
        exact ⟨rfl, rfl⟩
      have hio : ∀ k ∈ io ++ (i.map StackCall.rtableSet).toList,
          k.isCspInit = false ∧ k.isRouteStart = false := by
        intro k hk
        rcases List.mem_append.mp hk with hk | hk
        · exact hcalls k hk
        · exact hroute k hk
      by_cases hr : env.routeStart = cspErrNone
      · obtain ⟨k, hk, hok⟩ := openIface_ok (congrArg Prod.fst ho)
        rw [ho] at hk
        refine .inr ⟨hc, by simp [comesUp, ho, hr, Except.isOk, Except.toBool], ?_, _, hio,
          ⟨k, List.mem_append_left _ hk, hok⟩, ?_⟩
        · simp [startStack, hc, ho, hr]
        · simp [startStack, hc, ho, hr]
      · refine .inl ⟨hc, by simp [comesUp, hr], ?_, _, [.routeStartTask env.routeStart], hio,
          by simp [StackCall.isCspInit, StackCall.routeStartOk, hr], ?_⟩
        · simp [startStack, hc, ho, hr, hg]
        · simp [startStack, hc, ho, hr]

theorem releaseConnPool_calls {lock : Bool} {k : StackCall}
    (h : k ∈ (c.releaseConnPool lock).2) : k.starts = false := by
  obtain ⟨call, -, rfl⟩ := List.mem_map.mp h
  rfl

theorem cleanup_calls {lock : Bool} {k : StackCall} (h : k ∈ (c.cleanup lock).2) :
    k.starts = false := by
  rcases List.mem_append.mp h with h | h
  · exact releaseConnPool_calls h
  · obtain ⟨conn, -, rfl⟩ := List.mem_map.mp h
    rfl

theorem rxCreate_calls {env : RxEnv} (k : StackCall) (h : k ∈ (rxCreate c env).2) :
    k.starts = false := by
  unfold rxCreate at h
  split at h
  · obtain rfl := List.mem_singleton.mp h
    rfl
  · split_ifs at h <;>
      simp only [List.mem_cons, List.not_mem_nil, or_false] at h <;>
      rcases h with rfl | rfl | rfl | rfl <;> rfl

/-- Opening the receive socket does nothing to the stack. -/
theorem openRxSocket_stack (g : Globals) (c : Instance) (env : RxEnv) :
    (openRxSocket g c env).1.stackInitialized = g.stackInitialized ∧
      ∀ k ∈ (openRxSocket g c env).2.2.2, k.starts = false := by
  unfold openRxSocket
  split
  · exact ⟨rfl, by simp⟩
  split
  · exact ⟨rfl, by simp⟩
  · exact ⟨rfl, by simp⟩
  cases hr : rxCreate c env with
  | mk r calls =>
    have hcalls : ∀ k ∈ (rxCreate c env).2, k.starts = false := rxCreate_calls
    rw [hr] at hcalls
    cases r with
    | error e => exact ⟨rfl, hcalls⟩
    | ok s => exact ⟨rfl, hcalls⟩

/-- The start of the stack in a call of `cspcl_init`, if it comes to one, and the calls after it. -/
def StackPart (socketcan : Bool) (g : Globals) (c : Instance) (env : InitEnv) (flag : Bool)
    (calls : List StackCall) : Prop :=
  ∃ start rest, calls = start ++ rest ∧ (∀ k ∈ rest, k.starts = false) ∧
    if startsStack g c env then
      ∃ c', comesUp socketcan c' env = comesUp socketcan c env ∧
        flag = (startStack socketcan g c' env).1.stackInitialized ∧
        start = (startStack socketcan g c' env).2.2.2
    else start = [] ∧ flag = g.stackInitialized

theorem StackPart.append {flag : Bool} {calls more : List StackCall}
    (h : StackPart socketcan g c env flag calls) (hm : ∀ k ∈ more, k.starts = false) :
    StackPart socketcan g c env flag (calls ++ more) := by
  obtain ⟨start, rest, rfl, hrest, hs⟩ := h
  refine ⟨start, rest ++ more, List.append_assoc .., fun k hk => ?_, hs⟩
  rcases List.mem_append.mp hk with hk | hk
  · exact hrest k hk
  · exact hm k hk

theorem enterStack_stack (hc : c.initialized = false) (hm : env.mutex = true) (pool : ConnPool) :
    StackPart socketcan g c env (enterStack socketcan g (c.reset pool) env).1.stackInitialized
      (enterStack socketcan g (c.reset pool) env).2.2.2 := by
  cases hg : g.stackInitialized with
  | true => exact ⟨[], [], by simp [enterStack, hg], by simp, by simp [startsStack, enterStack, hg]⟩
  | false =>
    refine ⟨_, [], (List.append_nil _).symm, by simp, ?_⟩
    rw [if_pos (by simp [startsStack, hc, hm, hg])]
    exact ⟨c.reset pool, rfl, by simp [enterStack, hg], by simp [enterStack, hg]⟩

theorem initStack_stack (hc : c.initialized = false) :
    StackPart socketcan g c env (initStack socketcan g c env).1.stackInitialized
      (initStack socketcan g c env).2.2.2 := by
  cases hm : env.mutex with
  | false =>
    exact ⟨[], [], by simp [initStack, ConnPool.init, hm], by simp,
      by simp [startsStack, initStack, ConnPool.init, hm]⟩
  | true =>
    obtain ⟨pool, hp⟩ : ∃ pool, ConnPool.init env.mutex env.maxAgeEnv = (pool, .ok) :=
      ⟨_, by rw [hm]; rfl⟩
    have h : StackPart socketcan g c env _ _ := enterStack_stack hc hm pool
    simp only [initStack, hp]
    generalize enterStack socketcan g (c.reset pool) env = r at h ⊢
    obtain ⟨g', c', err, calls⟩ := r
    cases err
    case ok => exact h
    all_goals exact h.append fun k hk => releaseConnPool_calls hk

/-- What a call of `cspcl_init` does to the stack. -/
theorem init_stack (socketcan : Bool) (g : Globals) (c : Instance) (env : InitEnv) :
    StackPart socketcan g c env (init socketcan g c env).1.stackInitialized
      (init socketcan g c env).2.2.2 := by
  have h : StackPart socketcan g c env
      (if !c.initialized then initStack socketcan g c env else (g, c, .ok, [])).1.stackInitialized
      (if !c.initialized then initStack socketcan g c env else (g, c, .ok, [])).2.2.2 := by
    cases hc : c.initialized with
    | false => exact initStack_stack hc
    | true => exact ⟨[], [], rfl, by simp, by simp [startsStack, hc]⟩
  unfold init
  generalize (if !c.initialized then initStack socketcan g c env else (g, c, .ok, [])) = r at h ⊢
  obtain ⟨g', c', err, calls⟩ := r
  cases err
  case ok =>
    obtain ⟨hflag, hcalls⟩ := openRxSocket_stack g' c' env.rx
    rw [show g'.stackInitialized = _ from hflag.symm] at h
    dsimp only
    generalize openRxSocket g' c' env.rx = r at h hcalls ⊢
    obtain ⟨g'', c'', err, calls'⟩ := r
    cases err
    case ok => exact h.append hcalls
    all_goals
      refine h.append fun k hk => ?_
      rcases List.mem_append.mp hk with hk | hk
      · exact hcalls k hk
      · exact cleanup_calls hk
  all_goals exact h

/-- What a call of `cspcl_init` adds to the calls, and the flag after it. -/
structure Effect (socketcan : Bool) (g : Globals) (c : Instance) (env : InitEnv) (flag : Bool)
    (new : List StackCall) : Prop where
  quiet : startsStack g c env = false → flag = g.stackInitialized ∧
    ∀ k ∈ new, k.isCspInit = false ∧ k.isRouteStart = false
  csp_init : startsStack g c env = true → ∃ conf tail,
    new = .cspInit conf env.cspInit :: tail ∧ ∀ k ∈ tail, k.isCspInit = false
  router : new.Pairwise fun a b => a.routeStartOk = true → b.isRouteStart = false
  up : startsStack g c env = true → (flag = true ↔ env.cspInit = cspErrNone ∧
    comesUp socketcan c env = true)
  route_ok : startsStack g c env = true → (flag = true ↔ ∃ k ∈ new, k.routeStartOk = true)
  iface : startsStack g c env = true → flag = true → ∃ k ∈ new, k.ifaceOk = true

theorem pairwise_of_not_ok {l : List StackCall} (h : ∀ k ∈ l, k.routeStartOk = false) :
    l.Pairwise fun a b => a.routeStartOk = true → b.isRouteStart = false :=
  List.pairwise_of_forall_mem_list fun a ha _ _ hok => by simp [h a ha] at hok

theorem StackPart.effect {flag : Bool} {new : List StackCall}
    (h : StackPart socketcan g c env flag new) : Effect socketcan g c env flag new := by
  obtain ⟨start, rest, rfl, hrest, h⟩ := h
  have hrest := fun k hk => StackCall.not_starts (hrest k hk)
  have hrok := fun k hk => StackCall.routeStartOk_eq_false (hrest k hk).2.2
  cases hs : startsStack g c env with
  | false =>
    rw [hs] at h
    obtain ⟨rfl, rfl⟩ := h
    exact ⟨fun _ => ⟨rfl, fun k hk => ⟨(hrest k hk).1, (hrest k hk).2.2⟩⟩, by simp [hs],
      pairwise_of_not_ok hrok, by simp [hs], by simp [hs], by simp [hs]⟩
  | true =>
    rw [if_pos hs] at h
    obtain ⟨c', hup, hflag, rfl⟩ := h
    have hg : g.stackInitialized = false := by simp [startsStack] at hs; exact hs.2
    rcases startStack_cases socketcan c' env hg with
      ⟨hc, hf, hcalls⟩ | ⟨hc, hn, hf, io, route, hio, hroute, hcalls⟩ |
        ⟨hc, hu, hf, io, hio, ⟨k, hk, hok⟩, hcalls⟩
    all_goals rw [hf] at hflag; subst hflag; rw [hcalls]
    · have hno : ∀ k ∈ [StackCall.cspInit c'.cspConf env.cspInit] ++ rest,
          k.routeStartOk = false := by simp; exact ⟨rfl, hrok⟩
      refine ⟨by simp [hs], fun _ => ⟨_, _, rfl, fun k hk => (hrest k hk).1⟩,
        pairwise_of_not_ok hno, by simp [hc], fun _ => ?_, by simp⟩
      refine ⟨by simp, fun ⟨k, hk, hok⟩ => ?_⟩
      simp [hno k hk] at hok
    · have htail : ∀ k ∈ io ++ route ++ rest, k.isCspInit = false ∧ k.routeStartOk = false := by
        intro k hk
        rcases List.mem_append.mp hk with hk | hk
        · rcases List.mem_append.mp hk with hk | hk
          · exact ⟨(hio k hk).1, StackCall.routeStartOk_eq_false (hio k hk).2⟩
          · exact hroute k hk
        · exact ⟨(hrest k hk).1, hrok k hk⟩
      have hno : ∀ k ∈ StackCall.cspInit c'.cspConf cspErrNone :: (io ++ route ++ rest),
          k.routeStartOk = false := by
        intro k hk
        rcases List.mem_cons.mp hk with rfl | hk
        · rfl
        · exact (htail k hk).2
      rw [List.cons_append]
      refine ⟨by simp [hs], fun _ => ⟨_, _, by rw [hc], fun k hk => (htail k hk).1⟩,
        pairwise_of_not_ok hno, by simp [← hup, hn], fun _ => ?_, by simp⟩
      refine ⟨by simp, fun ⟨k, hk, hok⟩ => ?_⟩
      simp [hno k hk] at hok
    · have hinit : ∀ k' ∈ io ++ [.routeStartTask cspErrNone] ++ rest, k'.isCspInit = false := by
        intro k' hk'
        rcases List.mem_append.mp hk' with hk' | hk'
        · rcases List.mem_append.mp hk' with hk' | hk'
          · exact (hio k' hk').1
          · rw [List.mem_singleton.mp hk']
            rfl
        · exact (hrest k' hk').1
      rw [List.cons_append]
      refine ⟨by simp [hs], fun _ => ⟨_, _, by rw [hc], hinit⟩, ?_, by simp [← hup, hc, hu],
        fun _ => ⟨fun _ => ?_, fun _ => rfl⟩, fun _ _ => ⟨k, ?_, hok⟩⟩
      · -- Only the last of the start's calls starts the router task.
        have hpre : ∀ k' ∈ StackCall.cspInit c'.cspConf cspErrNone :: io,
            k'.routeStartOk = false := by
          intro k' hk'
          rcases List.mem_cons.mp hk' with rfl | hk'
          · rfl
          · exact StackCall.routeStartOk_eq_false (hio k' hk').2
        rw [List.append_assoc, ← List.cons_append]
        refine List.pairwise_append.mpr ⟨pairwise_of_not_ok hpre, ?_, fun a ha _ _ hok' => ?_⟩
        · exact List.pairwise_cons.mpr ⟨fun b hb _ => (hrest b hb).2.2, pairwise_of_not_ok hrok⟩
        · simp [hpre a ha] at hok'
      · exact ⟨.routeStartTask cspErrNone, by simp, by decide⟩
      · simp [hk]

end Instance

/-! ## Runs -/

/-- The process: its variables and instances, the calls made so far, and whether a start of the
stack got through `csp_init` and then failed (`halfway`). -/
structure Process where
  globals : Globals
  inst : Nat → Instance
  calls : List StackCall
  halfway : Bool

/-- A call of the application. -/
inductive StackOp where
  | init (i : Nat) (env : InitEnv)
  | cleanup (i : Nat) (lock : Bool)

namespace Process

/-- The process at its start, with instances of any configurations. -/
def new (conf : Nat → InstanceConf) : Process where
  globals := .zero
  inst i := .new (conf i)
  calls := []
  halfway := false

/-- `cspcl_init` of instance `i`; `socketcan`: see `Instance.openIface`. -/
def init (socketcan : Bool) (w : Process) (i : Nat) (env : InitEnv) : Process :=
  let (g, c, _, calls) := Instance.init socketcan w.globals (w.inst i) env
  { globals := g
    inst := Function.update w.inst i c
    calls := w.calls ++ calls
    halfway := w.halfway || (Instance.startsStack w.globals (w.inst i) env &&
      env.cspInit = cspErrNone && !Instance.comesUp socketcan (w.inst i) env) }

/-- `cspcl_cleanup` of instance `i`. -/
def cleanup (w : Process) (i : Nat) (lock : Bool) : Process :=
  let (c, calls) := (w.inst i).cleanup lock
  { w with inst := Function.update w.inst i c, calls := w.calls ++ calls }

def step (socketcan : Bool) (w : Process) : StackOp → Option Process
  | .init i env => some (w.init socketcan i env)
  | .cleanup i lock => some (w.cleanup i lock)

/-- `csp_init` is not called after a call that succeeded, nor is the router task started after it
was started, and the flag tells whether the three steps of the start have succeeded. -/
structure StackOnce (w : Process) : Prop where
  csp_init_once : w.calls.Pairwise fun a b => a.cspInitOk = true → b.isCspInit = false
  router_once : w.calls.Pairwise fun a b => a.routeStartOk = true → b.isRouteStart = false
  initialized_iff : w.globals.stackInitialized = true ↔
    (∃ k ∈ w.calls, k.cspInitOk = true) ∧ (∃ k ∈ w.calls, k.ifaceOk = true) ∧
      ∃ k ∈ w.calls, k.routeStartOk = true

/-- No start of the stack stopped half-way before this one. -/
def NotAfterHalfway (w : Process) : StackOp → Prop
  | .init i env => Instance.startsStack w.globals (w.inst i) env = true → w.halfway = false
  | .cleanup _ _ => True

instance (w : Process) (op : StackOp) : Decidable (w.NotAfterHalfway op) := by
  cases op
  · exact inferInstanceAs (Decidable (_ → _))
  · exact inferInstanceAs (Decidable True)

end Process

/-- Any sequence of calls. -/
def stackSys (socketcan : Bool) : Lts Process StackOp where
  init w := ∃ conf, w = .new conf
  step := Process.step socketcan

/-- What the variables remember of the calls. -/
structure StackInv (w : Process) : Prop where
  succeeded : (∃ k ∈ w.calls, k.cspInitOk = true) ↔
    w.globals.stackInitialized = true ∨ w.halfway = true
  route_ok : w.globals.stackInitialized = true ↔ ∃ k ∈ w.calls, k.routeStartOk = true
  iface : w.globals.stackInitialized = true → ∃ k ∈ w.calls, k.ifaceOk = true
  router : w.calls.Pairwise fun a b => a.routeStartOk = true → b.isRouteStart = false

namespace StackInv

variable {socketcan : Bool} {w : Process} {c : Instance} {env : InitEnv} {flag : Bool}
  {new : List StackCall}

theorem exists_append {l m : List StackCall} {p : StackCall → Bool} :
    (∃ k ∈ l ++ m, p k = true) ↔ (∃ k ∈ l, p k = true) ∨ ∃ k ∈ m, p k = true := by
  simp only [List.mem_append, or_and_right, exists_or]

theorem not_exists {l : List StackCall} {p : StackCall → Bool} (h : ∀ k ∈ l, p k = false) :
    ¬ ∃ k ∈ l, p k = true := by
  rintro ⟨k, hk, hp⟩
  simp [h k hk] at hp

/-- Calls that leave the stack alone. -/
theorem quiet (h : StackInv w) {w' : Process}
    (hf : w'.globals.stackInitialized = w.globals.stackInitialized) (hh : w'.halfway = w.halfway)
    (hc : w'.calls = w.calls ++ new)
    (hn : ∀ k ∈ new, k.isCspInit = false ∧ k.isRouteStart = false) : StackInv w' := by
  have hcsp := not_exists fun k hk => StackCall.cspInitOk_eq_false (hn k hk).1
  have hroute := not_exists fun k hk => StackCall.routeStartOk_eq_false (hn k hk).2
  refine ⟨?_, ?_, fun hflag => ?_, ?_⟩
  · rw [hc, hf, hh, exists_append, or_iff_left hcsp]
    exact h.succeeded
  · rw [hc, hf, exists_append, or_iff_left hroute]
    exact h.route_ok
  · rw [hc, exists_append]
    exact .inl (h.iface (hf ▸ hflag))
  · rw [hc]
    refine List.pairwise_append.mpr ⟨h.router, ?_, fun _ _ b hb _ => (hn b hb).2⟩
    exact Instance.pairwise_of_not_ok fun k hk => StackCall.routeStartOk_eq_false (hn k hk).2

/-- A call that starts the stack. -/
theorem start (h : StackInv w) (hs : Instance.startsStack w.globals c env = true)
    (he : Instance.Effect socketcan w.globals c env flag new) {w' : Process}
    (hf : w'.globals.stackInitialized = flag)
    (hh : w'.halfway = (w.halfway || (Instance.startsStack w.globals c env &&
      env.cspInit = cspErrNone && !Instance.comesUp socketcan c env)))
    (hc : w'.calls = w.calls ++ new) : StackInv w' := by
  have hg : w.globals.stackInitialized = false := by simp [Instance.startsStack] at hs; exact hs.2
  obtain ⟨conf, tail, hnew, htail⟩ := he.csp_init hs
  have hcsp : (∃ k ∈ new, k.cspInitOk = true) ↔ env.cspInit = cspErrNone := by
    rw [hnew, List.exists_mem_cons_iff,
      or_iff_left (not_exists fun k hk => StackCall.cspInitOk_eq_false (htail k hk))]
    exact decide_eq_true_iff
  have hno : ¬ ∃ k ∈ w.calls, k.routeStartOk = true := by
    rw [← h.route_ok, hg]
    exact Bool.false_ne_true
  refine ⟨?_, ?_, fun hflag => ?_, ?_⟩
  · rw [hc, exists_append, hcsp, h.succeeded, hf, he.up hs, hh, hs, hg]
    cases w.halfway <;> cases Instance.comesUp socketcan c env <;> simp
  · rw [hc, exists_append, or_iff_right hno, hf]
    exact he.route_ok hs
  · rw [hc, exists_append]
    exact .inr (he.iface hs (hf ▸ hflag))
  · rw [hc]
    refine List.pairwise_append.mpr ⟨h.router, he.router, fun a ha _ _ hok => ?_⟩
    exact absurd ⟨a, ha, hok⟩ hno

end StackInv

theorem stackSys_inv (socketcan : Bool) : (stackSys socketcan).Inductive StackInv where
  init w hw := by
    obtain ⟨conf, rfl⟩ := hw
    exact ⟨by simp [Process.new, Globals.zero], by simp [Process.new, Globals.zero],
      by simp [Process.new, Globals.zero], .nil⟩
  step w op w' h hs := by
    cases op with
    | init i env =>
      obtain rfl := Option.some.inj hs
      have he := (Instance.init_stack socketcan w.globals (w.inst i) env).effect
      by_cases hst : Instance.startsStack w.globals (w.inst i) env = true
      · exact h.start hst he rfl rfl rfl
      · rw [Bool.not_eq_true] at hst
        obtain ⟨hf, hn⟩ := he.quiet hst
        exact h.quiet hf (by simp [Process.init, hst]) rfl hn
    | cleanup i lock =>
      obtain rfl := Option.some.inj hs
      have hn : ∀ k ∈ ((w.inst i).cleanup lock).2, k.isCspInit = false ∧
          k.isRouteStart = false := by
        intro k hk
        have hk := StackCall.not_starts (Instance.cleanup_calls hk)
        exact ⟨hk.1, hk.2.2⟩
      exact h.quiet rfl rfl rfl hn

namespace Process

variable {socketcan : Bool} {w w' : Process} {op : StackOp}

/-- The router task is started once and the flag is right, whatever happens. -/
theorem stackOnce_iff (h : StackInv w) : w.StackOnce ↔
    w.calls.Pairwise fun a b => a.cspInitOk = true → b.isCspInit = false := by
  refine ⟨fun ho => ho.csp_init_once, fun ho => ⟨ho, h.router, ⟨fun hf => ?_, fun hk => ?_⟩⟩⟩
  · exact ⟨h.succeeded.mpr (.inl hf), h.iface hf, h.route_ok.mp hf⟩
  · exact h.route_ok.mpr hk.2.2

/-- Calls without `csp_init` add none after a successful one. -/
theorem pairwise_append_quiet {l new : List StackCall} (hn : ∀ k ∈ new, k.isCspInit = false) :
    (l ++ new).Pairwise (fun a b => a.cspInitOk = true → b.isCspInit = false) ↔
      l.Pairwise fun a b => a.cspInitOk = true → b.isCspInit = false := by
  rw [List.pairwise_append]
  refine ⟨fun h => h.1, fun h => ⟨h, ?_, fun _ _ b hb _ => hn b hb⟩⟩
  exact List.pairwise_of_forall_mem_list fun _ _ b hb _ => hn b hb

/-- A step keeps `StackOnce` iff it does not start the stack after a start that stopped
half-way. -/
theorem stackOnce_step (h : StackInv w) (hs : w.step socketcan op = some w') :
    w'.StackOnce ↔ w.StackOnce ∧ w.NotAfterHalfway op := by
  rw [stackOnce_iff h, stackOnce_iff ((stackSys_inv socketcan).step w op w' h hs)]
  cases op with
  | cleanup i lock =>
    obtain rfl := Option.some.inj hs
    have hn := fun k (hk : k ∈ ((w.inst i).cleanup lock).2) =>
      (StackCall.not_starts (Instance.cleanup_calls hk)).1
    exact (pairwise_append_quiet hn).trans (and_iff_left trivial).symm
  | init i env =>
    obtain rfl := Option.some.inj hs
    have he := (Instance.init_stack socketcan w.globals (w.inst i) env).effect
    show (w.calls ++ (Instance.init socketcan w.globals (w.inst i) env).2.2.2).Pairwise _ ↔ _
    cases hst : Instance.startsStack w.globals (w.inst i) env with
    | false =>
      rw [pairwise_append_quiet fun k hk => ((he.quiet hst).2 k hk).1]
      simp [NotAfterHalfway, hst]
    | true =>
      obtain ⟨conf, tail, hnew, htail⟩ := he.csp_init hst
      have hg : w.globals.stackInitialized = false := by
        simp [Instance.startsStack] at hst
        exact hst.2
      have hnot : w.NotAfterHalfway (.init i env) ↔ ∀ k ∈ w.calls, k.cspInitOk = false := by
        have := h.succeeded
        simp only [hg, Bool.false_eq_true, false_or] at this
        simp only [NotAfterHalfway, hst, true_implies]
        rw [← Bool.not_eq_true, ← this]
        simp
      rw [hnew, hnot, List.pairwise_append]
      constructor
      · rintro ⟨hw, -, hcross⟩
        refine ⟨hw, fun k hk => ?_⟩
        cases hok : k.cspInitOk with
        | false => rfl
        | true =>
          exact absurd (hcross k hk _ List.mem_cons_self hok) (by simp [StackCall.isCspInit])
      · rintro ⟨hw, hno⟩
        refine ⟨hw, List.pairwise_cons.mpr ⟨fun b hb _ => htail b hb, ?_⟩, fun a ha _ _ hok => ?_⟩
        · exact List.pairwise_of_forall_mem_list fun _ _ b hb _ => htail b hb
        · simp [hno a ha] at hok

end Process

/-- After any run, the stack was started once iff each start of it came when none before it had
stopped half-way. -/
theorem stack_once_iff (socketcan : Bool) {conf : Nat → InstanceConf} {w : Process}
    {ops : List StackOp} (hr : (stackSys socketcan).Run (.new conf) ops w) :
    w.StackOnce ↔ ((stackSys socketcan).guard Process.NotAfterHalfway).Run (.new conf) ops w := by
  have hi := (stackSys_inv socketcan).init _ ⟨conf, rfl⟩
  refine (stackSys_inv socketcan).run_guard_iff (fun _ _ _ => Process.stackOnce_step) hr hi ?_
  exact (Process.stackOnce_iff hi).mpr .nil

/-- Instance 0 selects a CAN device, the others the loopback interface; all are node 1. -/
def canConf : Nat → InstanceConf
  | 0 => ⟨1, 10, .can, [], [110, 111, 99, 97, 110]⟩
  | _ => ⟨1, 10, .loopback, [], []⟩

/-- A failed `csp_init`, then two instances that share the stack. -/
theorem stack_once_iff_retry :
    ∃ w, (stackSys true).exec (.new canConf)
        [.init 1 { goodEnv with cspInit := -1 }, .init 1 goodEnv, .init 2 goodEnv] = some w ∧
      w.globals.stackInitialized = true ∧ w.calls.countP StackCall.isCspInit = 2 ∧
      (w.StackOnce ↔ ((stackSys true).guard Process.NotAfterHalfway).Run (.new canConf)
        [.init 1 { goodEnv with cspInit := -1 }, .init 1 goodEnv, .init 2 goodEnv] w) := by
  obtain ⟨w, hw⟩ : ∃ w, (stackSys true).exec (.new canConf)
      [.init 1 { goodEnv with cspInit := -1 }, .init 1 goodEnv, .init 2 goodEnv] = some w :=
    ⟨_, rfl⟩
  have hf : ((stackSys true).exec (.new canConf)
      [.init 1 { goodEnv with cspInit := -1 }, .init 1 goodEnv, .init 2 goodEnv]).map
        (fun w => (w.globals.stackInitialized, w.calls.countP StackCall.isCspInit)) =
      some (true, 2) := by decide
  simp only [hw, Option.map_some, Option.some.injEq, Prod.mk.injEq] at hf
  exact ⟨w, hw, hf.1, hf.2, stack_once_iff true (Lts.run_iff_exec.mpr hw)⟩

/-- The CAN device cannot be opened, then the loopback interface is taken: `csp_init` succeeds
twice. -/
theorem stack_init_twice :
    ∃ w, (stackSys true).exec (.new canConf)
        [.init 0 { goodEnv with iface := -1 }, .init 1 goodEnv] = some w ∧
      w.calls.countP StackCall.cspInitOk = 2 ∧ ¬ w.StackOnce := by
  obtain ⟨w, hw⟩ : ∃ w, (stackSys true).exec (.new canConf)
      [.init 0 { goodEnv with iface := -1 }, .init 1 goodEnv] = some w := ⟨_, rfl⟩
  have hf : ((stackSys true).exec (.new canConf)
      [.init 0 { goodEnv with iface := -1 }, .init 1 goodEnv]).map
        (fun w => (w.calls.countP StackCall.cspInitOk,
          decide (w.calls.Pairwise fun a b => a.cspInitOk = true → b.isCspInit = false))) =
      some (2, false) := by decide
  simp only [hw, Option.map_some, Option.some.injEq, Prod.mk.injEq, decide_eq_false_iff_not] at hf
  exact ⟨w, hw, hf.1, fun ho => hf.2 ho.csp_init_once⟩

end Cspcl
