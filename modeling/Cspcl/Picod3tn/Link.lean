import Cspcl.Iface.Configure
import Cspcl.Nodes.State
import Cspcl.Picod3tn.Addr
import Cspcl.Stack.Config
import Cspcl.Stack.RxSocket

/-!
# One link per process (`CspclLink::new` of `rust-bindings/picod3tn-cspcl/src/link.rs`)

Any number of calls of `CspclLink::new`, with any configurations, on any threads. The flag `CLAIMED`
lets one of them into `cspcl_init`, which has several sections under the global lock of `cspcl.c`;
a link that was opened may be dropped.

* `LinkProcess`, `linkSys`: any interleaving.
* `LinkProcess.Inv`, `linkSys_inv`: who has the claim, and what `cspcl_init` has done for it.
-/

namespace Cspcl.Picod3tn

/-- `Config`. -/
structure Config where
  localAddr : UInt8
  port : UInt8
  interface : Interface

namespace Config

/-- `Config::validate`. -/
def validate (c : Config) : Except AddrError Unit :=
  if maxNodeAddr < c.localAddr then .error .nodeAddr
  else if !(minPort ≤ c.port && c.port ≤ maxPort) then .error .port
  else .ok ()

/-- What `init_from_config` sets in the `cspcl_t`. -/
def conf (c : Config) : InstanceConf :=
  let cspcl := configure ⟨c.localAddr, c.port, c.interface.toCspcl⟩
  ⟨cspcl.localAddr, cspcl.cspPort, cspcl.ifaceType, cString cspcl.zmqhubAddr,
    cString cspcl.canIface⟩

end Config

/-- `OpenError`. -/
inductive OpenError where
  | alreadyOpen
  | config (e : AddrError)
  | init (e : Inbound.Error)
  deriving DecidableEq

/-- Where a call of `CspclLink::new` is. `env`: what the calls of its `cspcl_init` return. -/
inductive NewAt where
  | idle
  /-- It has set `CLAIMED`. -/
  | claimed
  /-- In `cspcl_open_rx_socket`. -/
  | entered (env : InitEnv)
  /-- There is no socket of the process for its port. -/
  | missed (env : InitEnv)
  /-- It has a socket of its own. -/
  | created (env : InitEnv) (k : Socket)
  /-- `cspcl_init` returned an error. -/
  | failed (err : CspclError)
  | returned (r : Except OpenError Unit)
  /-- Its link was dropped. -/
  | dropped

/-- The process: `CLAIMED`, the variables of `cspcl.c`, and of each call of `CspclLink::new` its
configuration and its instance. -/
structure LinkProcess where
  claimed : Bool
  config : Nat → Config
  globals : Globals
  inst : Nat → Instance
  calls : List StackCall
  pc : Nat → NewAt

/-- A step of the call `t`. -/
inductive LinkOp where
  | call (t : Nat)
  /-- `cspcl_init`, up to its receive socket. -/
  | enter (t : Nat) (env : InitEnv)
  | lookup (t : Nat)
  | create (t : Nat)
  | register (t : Nat)
  | release (t : Nat)
  | drop (t : Nat) (lock : Bool)

namespace LinkProcess

def new (config : Nat → Config) : LinkProcess where
  claimed := false
  config := config
  globals := .zero
  inst t := .new (config t).conf
  calls := []
  pc _ := .idle

def goto (s : LinkProcess) (t : Nat) (p : NewAt) : LinkProcess :=
  { s with pc := Function.update s.pc t p }

/-- The call has run a part of `cspcl_init` or `cspcl_cleanup`. -/
def ran (s : LinkProcess) (t : Nat) (g : Globals) (c : Instance) (calls : List StackCall) :
    LinkProcess :=
  { s with globals := g, inst := Function.update s.inst t c, calls := s.calls ++ calls }

/-- `socketcan`: see `Instance.openIface`. -/
def step (socketcan : Bool) (s : LinkProcess) : LinkOp → Option LinkProcess
  | .call t =>
    match s.pc t with
    | .idle =>
      match (s.config t).validate with
      | .error e => some (s.goto t (.returned (.error (.config e))))
      | .ok _ =>
        if s.claimed then some (s.goto t (.returned (.error .alreadyOpen)))
        else some ({ s with claimed := true }.goto t .claimed)
    | _ => none
  | .enter t env =>
    match s.pc t with
    | .claimed =>
      match Instance.initStack socketcan s.globals (s.inst t) env with
      | (g, c, .ok, calls) => some ((s.ran t g c calls).goto t (.entered env))
      | (g, c, err, calls) => some ((s.ran t g c calls).goto t (.failed err))
    | _ => none
  | .lookup t =>
    match s.pc t with
    | .entered env =>
      match (s.inst t).rxSocket, Instance.rxLookup s.globals (s.inst t) with
      | some _, _ => some (s.goto t (.returned (.ok ())))
      | none, some k =>
        some ((s.ran t s.globals ((s.inst t).setRxSocket k) []).goto t (.returned (.ok ())))
      | none, none => some (s.goto t (.missed env))
    | _ => none
  | .create t =>
    match s.pc t with
    | .missed env =>
      match Instance.rxCreate (s.inst t) env.rx with
      | (.ok k, calls) => some ((s.ran t s.globals (s.inst t) calls).goto t (.created env k))
      | (.error err, calls) =>
        let (c, closed) := (s.inst t).cleanup env.poolLock
        some ((s.ran t s.globals c (calls ++ closed)).goto t (.failed err))
    | _ => none
  | .register t =>
    match s.pc t with
    | .created _ k =>
      some ((s.ran t (Instance.rxRegister s.globals (s.inst t) k) ((s.inst t).setRxSocket k)
        []).goto t (.returned (.ok ())))
    | _ => none
  | .release t =>
    match s.pc t with
    | .failed err =>
      some ({ s with claimed := false }.goto t (.returned (.error (.init (.fromRaw err)))))
    | _ => none
  | .drop t lock =>
    match s.pc t with
    | .returned (.ok _) =>
      let (c, calls) := (s.inst t).cleanup lock
      some ((s.ran t s.globals c calls).goto t .dropped)
    | _ => none

end LinkProcess

/-- Any interleaving of calls of `CspclLink::new`. -/
def linkSys (socketcan : Bool) : Lts LinkProcess LinkOp where
  init s := ∃ config, s = .new config
  step := LinkProcess.step socketcan

/-! ## The claim -/

namespace NewAt

/-- The call has the claim, or has opened a link. -/
def holds : NewAt → Bool
  | idle | returned (.error _) => false
  | _ => true

/-- In `cspcl_init`, behind its first section. -/
def inInit : NewAt → Bool
  | entered _ | missed _ | created _ _ => true
  | _ => false

/-- Its instance is initialized. -/
def up : NewAt → Bool
  | entered _ | missed _ | created _ _ | returned (.ok _) => true
  | _ => false

theorem holds_of_inInit {p : NewAt} (h : p.inInit = true) : p.holds = true := by
  cases p <;> cases h <;> rfl

theorem holds_of_up {p : NewAt} (h : p.up = true) : p.holds = true := by
  cases p with
  | returned r => cases r with
    | ok _ => rfl
    | error _ => cases h
  | _ => cases h <;> rfl

end NewAt

/-- An instance with this configuration runs on the stack. -/
structure Config.Up (conf : Config) (g : Globals) (c : Instance) : Prop where
  initialized : c.initialized = true
  config : c.config = (conf.localAddr, conf.conf.interface)
  port : c.cspPort = conf.port
  stack : g.stackInitialized = true ∧ g.globalAddr = conf.localAddr ∧
    g.globalIfaceType = conf.conf.ifaceType

/-- It has the socket of the process, on its port. -/
def Config.Listens (conf : Config) (g : Globals) (c : Instance) : Prop :=
  ∃ k, c.rxSocket = some k ∧ g.globalRxSocket = some k ∧ g.globalRxPort = conf.port

structure LinkProcess.Inv (s : LinkProcess) : Prop where
  held : ∀ t u, (s.pc t).holds = true → (s.pc u).holds = true → t = u
  claimed_iff : s.claimed = true ↔ ∃ t, (s.pc t).holds = true
  fresh : ∀ t, s.pc t = .idle ∨ s.pc t = .claimed → s.inst t = .new (s.config t).conf
  up : ∀ t, (s.pc t).up = true → (s.config t).Up s.globals (s.inst t)
  down : ∀ t, (s.pc t).up = false → (s.inst t).initialized = false
  waits : ∀ t, (s.pc t).inInit = true → (s.inst t).rxSocket = none
  listens : ∀ t, s.pc t = .returned (.ok ()) → (s.config t).Listens s.globals (s.inst t)

theorem Config.conf_eq (c : Config) : c.conf.localAddr = c.localAddr ∧ c.conf.cspPort = c.port := by
  unfold conf configure
  split <;> exact ⟨rfl, rfl⟩

section Init

variable {socketcan : Bool} {g g' : Globals} {c c' : Instance} {env : InitEnv}
  {calls : List StackCall} {err : CspclError}

theorem initStack_ok (h : Instance.initStack socketcan g c env = (g', c', .ok, calls)) :
    c'.initialized = true := by
  unfold Instance.initStack at h
  split at h
  · split at h
    · obtain ⟨-, rfl, -, -⟩ := Prod.mk.inj h
      rfl
    · rename_i hne _
      cases h
      exact (hne rfl).elim
  · rename_i hne _
    cases h
    exact (hne rfl).elim

/-- The first section of `cspcl_init` has put a new instance on the stack. -/
theorem up_of_initStack {conf : Config}
    (h : Instance.initStack socketcan g (.new conf.conf) env = (g', c', .ok, calls)) :
    conf.Up g' c' ∧ c'.rxSocket = none := by
  have hs : Instance.Settled g (.new conf.conf) (Instance.initStack socketcan g (.new conf.conf) env) :=
    Instance.initStack_settled
  have hk : Instance.KeepsRx g (.new conf.conf) (Instance.initStack socketcan g (.new conf.conf) env) :=
    Instance.initStack_keepsRx
  rw [h] at hs hk
  obtain ⟨-, -, hrx, hport, -⟩ := hk
  obtain ⟨haddr, hcport⟩ := conf.conf_eq
  refine ⟨⟨initStack_ok h, ?_, hport.trans hcport, ?_⟩, hrx⟩
  · exact hs.config.trans (Prod.ext haddr rfl)
  · rcases hs.matches_globals rfl with hi | ⟨hstack, ha, ht⟩
    · cases hi
    · exact ⟨hstack, ha.symm.trans haddr, ht.symm⟩

end Init

namespace LinkProcess.Inv

variable {socketcan : Bool} {s : LinkProcess} {t u : Nat} {p : NewAt} {g : Globals} {c : Instance}
  {calls : List StackCall}

/-- A call that never had the claim returns. -/
theorem refused {e : OpenError} (h : s.Inv) (hpc : s.pc t = .idle) :
    (s.goto t (.returned (.error e))).Inv := by
  have hother : ∀ u, u ≠ t → (s.goto t (.returned (.error e))).pc u = s.pc u :=
    fun u hu => Function.update_of_ne hu ..
  have hself : (s.goto t (.returned (.error e))).pc t = .returned (.error e) :=
    Function.update_self ..
  have hne : ∀ u, ((s.goto t (.returned (.error e))).pc u).holds = true → u ≠ t := by
    rintro u hu rfl
    rw [hself] at hu
    cases hu
  refine ⟨fun u v hu hv => ?_, ?_, fun u hu => ?_, fun u hu => ?_, fun u hu => ?_, fun u hu => ?_,
    fun u hu => ?_⟩
  · have hu' := hne u hu
    have hv' := hne v hv
    rw [hother u hu'] at hu
    rw [hother v hv'] at hv
    exact h.held u v hu hv
  · refine h.claimed_iff.trans ⟨fun ⟨u, hu⟩ => ⟨u, ?_⟩, fun ⟨u, hu⟩ => ⟨u, ?_⟩⟩
    · rw [hother u fun hut => ?_]
      · exact hu
      · rw [hut, hpc] at hu
        cases hu
    · rwa [hother u (hne u hu)] at hu
  · by_cases hut : u = t
    · subst hut
      rw [hself] at hu
      rcases hu with hu | hu <;> cases hu
    · rw [hother u hut] at hu
      exact h.fresh u hu
  · have hut := hne u (NewAt.holds_of_up hu)
    rw [hother u hut] at hu
    exact h.up u hu
  · by_cases hut : u = t
    · subst hut
      exact h.down u (by rw [hpc]; rfl)
    · rw [hother u hut] at hu
      exact h.down u hu
  · have hut := hne u (NewAt.holds_of_inInit hu)
    rw [hother u hut] at hu
    exact h.waits u hu
  · have hut := hne u (by rw [hu]; rfl)
    rw [hother u hut] at hu
    exact h.listens u hu

/-- The call that has the claim, or takes it, gets on. -/
theorem move {s' : LinkProcess} (h : s.Inv) (ht : (s.pc t).holds = true ∨ s.claimed = false)
    (hclaim : s'.claimed = p.holds) (hconfig : s'.config = s.config)
    (hinst : ∀ u, u ≠ t → s'.inst u = s.inst u) (hpc : s'.pc = Function.update s.pc t p)
    (hfresh : p = .idle ∨ p = .claimed → s'.inst t = .new (s.config t).conf)
    (hup : p.up = true → (s.config t).Up s'.globals (s'.inst t))
    (hdown : p.up = false → (s'.inst t).initialized = false)
    (hwaits : p.inInit = true → (s'.inst t).rxSocket = none)
    (hlistens : p = .returned (.ok ()) → (s.config t).Listens s'.globals (s'.inst t)) : s'.Inv := by
  have hself : s'.pc t = p := by rw [hpc, Function.update_self]
  have hother : ∀ u, u ≠ t → s'.pc u = s.pc u := by
    intro u hu
    rw [hpc, Function.update_of_ne hu]
  -- Nobody else has the claim.
  have hno : ∀ u, u ≠ t → (s.pc u).holds = false := by
    intro u hu
    rw [← Bool.not_eq_true]
    intro hholds
    rcases ht with ht | ht
    · exact hu (h.held u t hholds ht)
    · have hc := h.claimed_iff.mpr ⟨u, hholds⟩
      rw [ht] at hc
      cases hc
  have heq : ∀ u, (s'.pc u).holds = true → u = t := by
    intro u hu
    by_contra hut
    rw [hother u hut, hno u hut] at hu
    cases hu
  refine ⟨fun u v hu hv => (heq u hu).trans (heq v hv).symm, ?_, fun u hu => ?_, fun u hu => ?_,
    fun u hu => ?_, fun u hu => ?_, fun u hu => ?_⟩
  · rw [hclaim]
    refine ⟨fun hp => ⟨t, hself ▸ hp⟩, fun ⟨u, hu⟩ => ?_⟩
    rw [heq u hu, hself] at hu
    exact hu
  · rw [hconfig]
    by_cases hut : u = t
    · subst hut
      exact hfresh (hself ▸ hu)
    · rw [hother u hut] at hu
      exact (hinst u hut).trans (h.fresh u hu)
  · obtain rfl := heq u (NewAt.holds_of_up hu)
    rw [hconfig]
    exact hup (hself ▸ hu)
  · by_cases hut : u = t
    · subst hut
      exact hdown (hself ▸ hu)
    · rw [hother u hut] at hu
      rw [hinst u hut]
      exact h.down u hu
  · obtain rfl := heq u (NewAt.holds_of_inInit hu)
    exact hwaits (hself ▸ hu)
  · obtain rfl := heq u (by rw [hu]; rfl)
    rw [hconfig]
    exact hlistens (hself ▸ hu)

theorem inst_ran : ((s.ran t g c calls).goto t p).inst t = c := Function.update_self ..

theorem call {s' : LinkProcess} (h : s.Inv) (hs : s.step socketcan (.call t) = some s') :
    s'.Inv := by
  simp only [step] at hs
  split at hs
  · rename_i hpc
    split at hs
    · obtain rfl := Option.some.inj hs
      exact h.refused hpc
    · split at hs
      · obtain rfl := Option.some.inj hs
        exact h.refused hpc
      · rename_i hclaimed
        obtain rfl := Option.some.inj hs
        have hinst := h.fresh t (.inl hpc)
        refine h.move (p := .claimed) (.inr (by simpa using hclaimed)) rfl rfl (fun _ _ => rfl) rfl
          (fun _ => hinst) nofun (fun _ => ?_) nofun nofun
        show (s.inst t).initialized = false
        rw [hinst]
        rfl
  · cases hs

theorem enter {env : InitEnv} {s' : LinkProcess} (h : s.Inv)
    (hs : s.step socketcan (.enter t env) = some s') : s'.Inv := by
  simp only [step] at hs
  split at hs
  · rename_i hpc
    have hholds : (s.pc t).holds = true := by rw [hpc]; rfl
    have hclaimed := h.claimed_iff.mpr ⟨t, hholds⟩
    have hinst := h.fresh t (.inr hpc)
    split at hs
    · rename_i g c calls hr
      obtain rfl := Option.some.inj hs
      rw [hinst] at hr
      obtain ⟨hup, hrx⟩ := up_of_initStack hr
      refine h.move (p := .entered env) (.inl hholds) hclaimed rfl
        (fun u hu => Function.update_of_ne hu ..) rfl (by simp) (fun _ => ?_) nofun (fun _ => ?_)
        nofun
      · rw [inst_ran]
        exact hup
      · rw [inst_ran]
        exact hrx
    · rename_i g c err calls hne hr
      obtain rfl := Option.some.inj hs
      rw [hinst] at hr
      have hdown : c.initialized = false := by
        have hi := Instance.initStack_error (c := .new (s.config t).conf) rfl (by rw [hr]; exact hne)
        rwa [hr] at hi
      refine h.move (p := .failed err) (.inl hholds) hclaimed rfl
        (fun u hu => Function.update_of_ne hu ..) rfl (by simp) nofun (fun _ => ?_) nofun nofun
      rw [inst_ran]
      exact hdown
  · cases hs

/-- The call has a link. -/
theorem opens {s' : LinkProcess} {q : NewAt} (h : s.Inv) (hpc : s.pc t = q) (hin : q.inInit = true)
    (hclaim : s'.claimed = s.claimed) (hconfig : s'.config = s.config)
    (hinst : ∀ u, u ≠ t → s'.inst u = s.inst u)
    (hto : s'.pc = Function.update s.pc t (.returned (.ok ())))
    (hup : (s.config t).Up s.globals (s.inst t) → (s.config t).Up s'.globals (s'.inst t))
    (hlistens : (s.config t).Listens s'.globals (s'.inst t)) : s'.Inv := by
  have hholds : (s.pc t).holds = true := by
    rw [hpc]
    exact NewAt.holds_of_inInit hin
  have hclaimed := h.claimed_iff.mpr ⟨t, hholds⟩
  have hwas : (s.pc t).up = true := by
    rw [hpc]
    cases q <;> cases hin <;> rfl
  exact h.move (p := .returned (.ok ())) (.inl hholds) (hclaim.trans hclaimed) hconfig hinst hto (by simp)
    (fun _ => hup (h.up t hwas)) nofun nofun fun _ => hlistens

theorem lookup {s' : LinkProcess} (h : s.Inv) (hs : s.step socketcan (.lookup t) = some s') :
    s'.Inv := by
  simp only [step] at hs
  split at hs
  · rename_i env hpc
    have hrx := h.waits t (by rw [hpc]; rfl)
    have hup := h.up t (by rw [hpc]; rfl)
    split at hs
    · rename_i k hk
      rw [hrx] at hk
      cases hk
    · rename_i k hk hfound
      obtain rfl := Option.some.inj hs
      refine h.opens hpc rfl rfl rfl (fun u hu => Function.update_of_ne hu ..) rfl (fun _ => ?_) ?_
      · rw [inst_ran]
        exact ⟨hup.initialized, hup.config, hup.port, hup.stack⟩
      · rw [inst_ran]
        unfold Instance.rxLookup at hfound
        split at hfound
        · rename_i k' hglobal
          split at hfound
          · rename_i hport
            obtain rfl := Option.some.inj hfound
            exact ⟨k', rfl, hglobal, hport.trans hup.port⟩
          · cases hfound
        · cases hfound
    · obtain rfl := Option.some.inj hs
      have hholds : (s.pc t).holds = true := by rw [hpc]; rfl
      exact h.move (p := .missed env) (.inl hholds) (h.claimed_iff.mpr ⟨t, hholds⟩) rfl
        (fun _ _ => rfl) rfl (by simp) (fun _ => hup) nofun (fun _ => hrx) nofun
  · cases hs

theorem create {s' : LinkProcess} (h : s.Inv) (hs : s.step socketcan (.create t) = some s') :
    s'.Inv := by
  simp only [step] at hs
  split at hs
  · rename_i env hpc
    have hholds : (s.pc t).holds = true := by rw [hpc]; rfl
    have hclaimed := h.claimed_iff.mpr ⟨t, hholds⟩
    split at hs
    · rename_i k calls hr
      obtain rfl := Option.some.inj hs
      refine h.move (p := .created env k) (.inl hholds) hclaimed rfl
        (fun u hu => Function.update_of_ne hu ..) rfl (by simp) (fun _ => ?_) nofun (fun _ => ?_)
        nofun
      · rw [inst_ran]
        exact h.up t (by rw [hpc]; rfl)
      · rw [inst_ran]
        exact h.waits t (by rw [hpc]; rfl)
    · rename_i err calls hr
      obtain rfl := Option.some.inj hs
      refine h.move (p := .failed err) (.inl hholds) hclaimed rfl
        (fun u hu => Function.update_of_ne hu ..) rfl (by simp) nofun (fun _ => ?_) nofun nofun
      rw [inst_ran]
      rfl
  · cases hs

theorem register {s' : LinkProcess} (h : s.Inv) (hs : s.step socketcan (.register t) = some s') :
    s'.Inv := by
  simp only [step] at hs
  split at hs
  · rename_i env k hpc
    obtain rfl := Option.some.inj hs
    have hup := h.up t (by rw [hpc]; rfl)
    refine h.opens hpc rfl rfl rfl (fun u hu => Function.update_of_ne hu ..) rfl (fun _ => ?_) ?_
    · rw [inst_ran]
      exact ⟨hup.initialized, hup.config, hup.port, hup.stack⟩
    · rw [inst_ran]
      exact ⟨k, rfl, rfl, hup.port⟩
  · cases hs

theorem step {op : LinkOp} {s' : LinkProcess} (h : s.Inv) (hs : s.step socketcan op = some s') :
    s'.Inv := by
  cases op with
  | call t => exact h.call hs
  | enter t env => exact h.enter hs
  | lookup t => exact h.lookup hs
  | create t => exact h.create hs
  | register t => exact h.register hs
  | release t =>
    simp only [LinkProcess.step] at hs
    split at hs
    · rename_i err hpc
      obtain rfl := Option.some.inj hs
      exact h.move (p := .returned (.error _)) (.inl (by rw [hpc]; rfl)) rfl rfl (fun _ _ => rfl) rfl (by simp) nofun
        (fun _ => h.down t (by rw [hpc]; rfl)) nofun nofun
    · cases hs
  | drop t lock =>
    simp only [LinkProcess.step] at hs
    split at hs
    · rename_i hpc
      obtain rfl := Option.some.inj hs
      have hholds : (s.pc t).holds = true := by rw [hpc]; rfl
      refine h.move (p := .dropped) (.inl hholds) (h.claimed_iff.mpr ⟨t, hholds⟩) rfl
        (fun u hu => Function.update_of_ne hu ..) rfl (by simp) nofun (fun _ => ?_) nofun nofun
      rw [inst_ran]
      rfl
    · cases hs

end LinkProcess.Inv

theorem linkSys_inv (socketcan : Bool) : (linkSys socketcan).Inductive LinkProcess.Inv where
  init s hs := by
    obtain ⟨config, rfl⟩ := hs
    exact ⟨nofun, iff_of_false nofun nofun, fun _ _ => rfl, nofun, fun _ _ => rfl, nofun, nofun⟩
  step s op s' h hs := h.step hs

end Cspcl.Picod3tn
