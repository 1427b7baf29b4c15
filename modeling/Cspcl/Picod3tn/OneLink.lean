import Cspcl.Lib.Simulation
import Cspcl.Picod3tn.Link

/-!
# The calls of `cspcl_init` behind `CspclLink::new`

* `LinkProcess.Shows`, `link_stack`: they do not interleave, so what they do is a run of `stackSys`.
* `LinkProcess.OneLink`, `one_link`: there is one link at most, and what the calls return.
-/

namespace Cspcl.Picod3tn

/-- `cspcl_init` has got this far from `g₀` and `c₀`, and made the calls `new`. -/
def NewAt.Ran (socketcan : Bool) (g₀ : Globals) (c₀ : Instance) (g : Globals) (c : Instance)
    (new : List StackCall) : NewAt → Prop
  | .entered env => Instance.initStack socketcan g₀ c₀ env = (g, c, .ok, new)
  | .missed env =>
    Instance.initStack socketcan g₀ c₀ env = (g, c, .ok, new) ∧ Instance.rxLookup g c = none
  | .created env k => ∃ l l', new = l ++ l' ∧ Instance.initStack socketcan g₀ c₀ env = (g, c, .ok, l) ∧
    Instance.rxLookup g c = none ∧ Instance.rxCreate c env.rx = (.ok k, l')
  | _ => g = g₀ ∧ c = c₀ ∧ new = []

/-- Only the call `t` may be in `cspcl_init`; `w` is the process without what it did there. -/
structure LinkProcess.At (socketcan : Bool) (s : LinkProcess) (w : Process) (t : Nat) : Prop where
  others : ∀ u, u ≠ t → s.inst u = w.inst u ∧ (s.pc u).inInit = false
  new : (w.inst t).initialized = false ∨ (s.pc t).inInit = false
  ran : ∃ new, s.calls = w.calls ++ new ∧
    (s.pc t).Ran socketcan w.globals (w.inst t) s.globals (s.inst t) new

namespace LinkProcess.At

variable {socketcan : Bool} {s : LinkProcess} {w : Process} {t u : Nat} {p : NewAt}

theorem ran_of_not {g₀ g : Globals} {c₀ c : Instance} {new : List StackCall}
    (h : p.inInit = false) : p.Ran socketcan g₀ c₀ g c new ↔ g = g₀ ∧ c = c₀ ∧ new = [] := by
  cases p <;> first | rfl | cases h

/-- When no call is in `cspcl_init`. -/
theorem rest (h : s.At socketcan w t) (hp : (s.pc t).inInit = false) :
    s.globals = w.globals ∧ s.inst = w.inst ∧ s.calls = w.calls := by
  obtain ⟨new, hcalls, hran⟩ := h.ran
  obtain ⟨hg, hc, rfl⟩ := (ran_of_not hp).mp hran
  refine ⟨hg, funext fun u => ?_, hcalls.trans (List.append_nil _)⟩
  by_cases hu : u = t
  · rw [hu, hc]
  · exact (h.others u hu).1

theorem of_rest {s' : LinkProcess} (hg : s'.globals = w.globals) (hi : s'.inst = w.inst)
    (hc : s'.calls = w.calls) (hp : ∀ u, (s'.pc u).inInit = false) : s'.At socketcan w t where
  others u _ := ⟨congrFun hi u, hp u⟩
  new := .inr (hp t)
  ran := ⟨[], hc.trans (List.append_nil _).symm, (ran_of_not (hp t)).mpr ⟨hg, congrFun hi t, rfl⟩⟩

/-- The call that has the claim is the one. -/
theorem focus (h : s.At socketcan w t) (hinv : s.Inv) (hu : (s.pc u).holds = true) :
    s.At socketcan w u := by
  cases hp : (s.pc t).inInit with
  | true =>
    obtain rfl := hinv.held t u (NewAt.holds_of_inInit hp) hu
    exact h
  | false =>
    obtain ⟨hg, hi, hc⟩ := h.rest hp
    refine .of_rest hg hi hc fun v => ?_
    by_cases hv : v = t
    · rw [hv, hp]
    · exact (h.others v hv).2

/-- The call `u`, which is not in `cspcl_init`, gets on without it. -/
theorem goto {s' : LinkProcess} (h : s.At socketcan w t) (hu : (s.pc u).inInit = false)
    (hp : p.inInit = false) (hg : s'.globals = s.globals) (hi : s'.inst = s.inst)
    (hc : s'.calls = s.calls) (hpc : s'.pc = Function.update s.pc u p) :
    s'.At socketcan w t := by
  have hstay : ∀ v, (s'.pc v).inInit = (s.pc v).inInit := by
    intro v
    rw [hpc]
    by_cases hv : v = u
    · rw [hv, Function.update_self, hp, hu]
    · rw [Function.update_of_ne hv]
  obtain ⟨new, hcalls, hran⟩ := h.ran
  refine ⟨fun v hv => ?_, ?_, new, hc.trans hcalls, ?_⟩
  · rw [hi, hstay]
    exact h.others v hv
  · rw [hstay]
    exact h.new
  · by_cases ht : t = u
    · subst ht
      obtain ⟨hg', hc', hnew⟩ := (ran_of_not hu).mp hran
      refine (ran_of_not (by rw [hstay, hu])).mpr ⟨hg.trans hg', ?_, hnew⟩
      rw [hi, hc']
    · rw [hpc, Function.update_of_ne ht, hg, hi]
      exact hran

/-- The call gets on in `cspcl_init`. -/
theorem inside {s' : LinkProcess} {c : Instance} {new : List StackCall} (h : s.At socketcan w t)
    (hi : s'.inst = Function.update s.inst t c) (hc : s'.calls = w.calls ++ new)
    (hpc : s'.pc = Function.update s.pc t p) (hnew : (w.inst t).initialized = false)
    (hran : p.Ran socketcan w.globals (w.inst t) s'.globals c new) : s'.At socketcan w t := by
  refine ⟨fun u hu => ?_, .inl hnew, new, hc, ?_⟩
  · rw [hi, hpc, Function.update_of_ne hu, Function.update_of_ne hu]
    exact h.others u hu
  · rw [hi, hpc, Function.update_self, Function.update_self]
    exact hran

/-- It leaves `cspcl_init`: the call of it is over. -/
theorem leaves {s' : LinkProcess} {c : Instance} {new : List StackCall} {env : InitEnv}
    {err : CspclError} (h : s.At socketcan w t) (hi : s'.inst = Function.update s.inst t c)
    (hc : s'.calls = w.calls ++ new) (hpc : s'.pc = Function.update s.pc t p)
    (hp : p.inInit = false)
    (hinit : Instance.init socketcan w.globals (w.inst t) env = (s'.globals, c, err, new)) :
    s'.At socketcan (w.init socketcan t env) t := by
  have hw : (w.init socketcan t env).globals = s'.globals ∧
      (w.init socketcan t env).inst = Function.update w.inst t c ∧
      (w.init socketcan t env).calls = w.calls ++ new := by
    unfold Process.init
    rw [hinit]
    exact ⟨rfl, rfl, rfl⟩
  refine .of_rest hw.1.symm ?_ (hc.trans hw.2.2.symm) fun u => ?_
  · rw [hw.2.1, hi]
    funext u
    by_cases hu : u = t
    · rw [hu, Function.update_self, Function.update_self]
    · rw [Function.update_of_ne hu, Function.update_of_ne hu, (h.others u hu).1]
  · rw [hpc]
    by_cases hu : u = t
    · rw [hu, Function.update_self, hp]
    · rw [Function.update_of_ne hu, (h.others u hu).2]

end LinkProcess.At

section Init

variable {socketcan : Bool} {g g' : Globals} {c c' : Instance} {env : InitEnv}
  {l l' : List StackCall} {err : CspclError} {k : Socket}

theorem init_failed (hc : c.initialized = false) (herr : err ≠ .ok)
    (h : Instance.initStack socketcan g c env = (g', c', err, l)) :
    Instance.init socketcan g c env = (g', c', err, l) := by
  unfold Instance.init
  rw [hc, Bool.not_false, if_pos rfl, h]
  cases err <;> first | rfl | exact absurd rfl herr

theorem init_opened {g'' : Globals} {c'' : Instance} (hc : c.initialized = false)
    (h : Instance.initStack socketcan g c env = (g', c', .ok, l))
    (hopen : Instance.openRxSocket g' c' env.rx = (g'', c'', .ok, l')) :
    Instance.init socketcan g c env = (g'', c'', .ok, l ++ l') := by
  unfold Instance.init
  rw [hc, Bool.not_false, if_pos rfl, h]
  dsimp only
  rw [hopen]

/-- `cspcl_open_rx_socket` makes a socket. -/
theorem openRxSocket_created {env : RxEnv} (hi : c.initialized = true) (hrx : c.rxSocket = none)
    (hg : Instance.rxLookup g c = none) (hr : Instance.rxCreate c env = (.ok k, l)) :
    Instance.openRxSocket g c env = (Instance.rxRegister g c k, c.setRxSocket k, .ok, l) := by
  unfold Instance.openRxSocket
  rw [hi, Bool.not_true, if_neg Bool.false_ne_true, hrx, hg, hr]

theorem openRxSocket_failed {env : RxEnv} (hi : c.initialized = true) (hrx : c.rxSocket = none)
    (hg : Instance.rxLookup g c = none) (hr : Instance.rxCreate c env = (.error err, l)) :
    Instance.openRxSocket g c env = (g, c, err, l) := by
  unfold Instance.openRxSocket
  rw [hi, Bool.not_true, if_neg Bool.false_ne_true, hrx, hg, hr]

theorem openRxSocket_found (env : RxEnv) (hi : c.initialized = true) (hrx : c.rxSocket = none)
    (hg : Instance.rxLookup g c = some k) :
    Instance.openRxSocket g c env = (g, c.setRxSocket k, .ok, []) := by
  unfold Instance.openRxSocket
  rw [hi, Bool.not_true, if_neg Bool.false_ne_true, hrx, hg]

theorem rxCreate_ne_ok {env : RxEnv} (hr : Instance.rxCreate c env = (.error err, l)) :
    err ≠ .ok := by
  unfold Instance.rxCreate at hr
  rintro rfl
  repeat' split at hr
  all_goals cases hr

theorem init_unopened (hc : c.initialized = false)
    (h : Instance.initStack socketcan g c env = (g', c', .ok, l))
    (hopen : Instance.openRxSocket g' c' env.rx = (g', c', err, l')) (herr : err ≠ .ok) :
    Instance.init socketcan g c env =
      (g', (c'.cleanup env.poolLock).1, err, l ++ (l' ++ (c'.cleanup env.poolLock).2)) := by
  unfold Instance.init
  rw [hc, Bool.not_false, if_pos rfl, h]
  dsimp only
  rw [hopen]
  cases err <;> first | rfl | exact absurd rfl herr

end Init

/-- The process, apart from the call of `cspcl_init` that is in progress. -/
def LinkProcess.Shows (socketcan : Bool) (s : LinkProcess) (w : Process) : Prop :=
  s.Inv ∧ ∃ t, s.At socketcan w t

/-- The calls of `cspcl_init` do not interleave. -/
theorem link_stack (socketcan : Bool) :
    (linkSys socketcan).Simulation (stackSys socketcan) (LinkProcess.Shows socketcan) where
  init s hs := by
    obtain ⟨config, rfl⟩ := hs
    exact ⟨.new fun t => (config t).conf, ⟨_, rfl⟩, (linkSys_inv socketcan).init _ ⟨config, rfl⟩, 0,
      .of_rest rfl rfl rfl fun _ => rfl⟩
  step s op s' w _ h hs := by
    obtain ⟨hinv, t, hat⟩ := h
    have hinv' : s'.Inv := hinv.step hs
    cases op with
    | call u =>
      left
      refine ⟨hinv', t, ?_⟩
      simp only [linkSys, LinkProcess.step] at hs
      split at hs
      · rename_i hpc
        have hu : (s.pc u).inInit = false := by rw [hpc]; rfl
        split at hs
        · obtain rfl := Option.some.inj hs
          exact hat.goto hu rfl rfl rfl rfl rfl
        · split at hs
          · obtain rfl := Option.some.inj hs
            exact hat.goto hu rfl rfl rfl rfl rfl
          · obtain rfl := Option.some.inj hs
            exact hat.goto (p := .claimed) hu rfl rfl rfl rfl rfl
      · cases hs
    | enter u env =>
      simp only [linkSys, LinkProcess.step] at hs
      split at hs
      · rename_i hpc
        have hat := hat.focus hinv (u := u) (by rw [hpc]; rfl)
        obtain ⟨hg, hi, hc⟩ := hat.rest (by rw [hpc]; rfl)
        have hnew : (w.inst u).initialized = false := by
          rw [← hi]
          exact hinv.down u (by rw [hpc]; rfl)
        rw [hg, hi] at hs
        split at hs
        · rename_i g c calls hr
          obtain rfl := Option.some.inj hs
          exact .inl ⟨hinv', u, hat.inside rfl (congrArg (· ++ calls) hc) rfl hnew hr⟩
        · rename_i g c err calls hne hr
          obtain rfl := Option.some.inj hs
          exact .inr ⟨.init u env, _, rfl, hinv', u, hat.leaves rfl (congrArg (· ++ calls) hc) rfl
            rfl (init_failed hnew (by simpa using hne) hr)⟩
      · cases hs
    | lookup u =>
      simp only [linkSys, LinkProcess.step] at hs
      split at hs
      · rename_i env hpc
        have hat := hat.focus hinv (u := u) (by rw [hpc]; rfl)
        have hnew : (w.inst u).initialized = false :=
          hat.new.resolve_right (by rw [hpc]; exact Bool.noConfusion)
        have hrx := hinv.waits u (by rw [hpc]; rfl)
        have hup := (hinv.up u (by rw [hpc]; rfl)).initialized
        obtain ⟨new, hcalls, hran⟩ := hat.ran
        rw [hpc] at hran
        split at hs
        · rename_i k hk
          rw [hrx] at hk
          cases hk
        · rename_i k _ hfound
          obtain rfl := Option.some.inj hs
          have hinit := init_opened hnew hran (openRxSocket_found env.rx hup hrx hfound)
          rw [List.append_nil] at hinit
          exact .inr ⟨.init u env, _, rfl, hinv', u,
            hat.leaves rfl ((List.append_nil _).trans hcalls) rfl rfl hinit⟩
        · rename_i _ hmiss
          obtain rfl := Option.some.inj hs
          exact .inl ⟨hinv', u, hat.inside (p := .missed env) (Function.update_eq_self ..).symm hcalls
            rfl hnew ⟨hran, hmiss⟩⟩
      · cases hs
    | create u =>
      simp only [linkSys, LinkProcess.step] at hs
      split at hs
      · rename_i env hpc
        have hat := hat.focus hinv (u := u) (by rw [hpc]; rfl)
        have hnew : (w.inst u).initialized = false :=
          hat.new.resolve_right (by rw [hpc]; exact Bool.noConfusion)
        have hrx := hinv.waits u (by rw [hpc]; rfl)
        have hup := (hinv.up u (by rw [hpc]; rfl)).initialized
        obtain ⟨new, hcalls, hran⟩ := hat.ran
        rw [hpc] at hran
        obtain ⟨hran, hmiss⟩ := hran
        split at hs
        · rename_i k calls hr
          obtain rfl := Option.some.inj hs
          refine .inl ⟨hinv', u, hat.inside (p := .created env k) rfl ?_ rfl hnew
            ⟨new, calls, rfl, hran, hmiss, hr⟩⟩
          show s.calls ++ calls = _
          rw [hcalls, List.append_assoc]
        · rename_i err calls hr
          obtain rfl := Option.some.inj hs
          refine .inr ⟨.init u env, _, rfl, hinv', u, hat.leaves (p := .failed err) rfl ?_ rfl rfl
            (init_unopened hnew hran (openRxSocket_failed hup hrx hmiss hr) (rxCreate_ne_ok hr))⟩
          show s.calls ++ (calls ++ _) = _
          rw [hcalls, List.append_assoc]
      · cases hs
    | register u =>
      simp only [linkSys, LinkProcess.step] at hs
      split at hs
      · rename_i env k hpc
        obtain rfl := Option.some.inj hs
        have hat := hat.focus hinv (u := u) (by rw [hpc]; rfl)
        have hnew : (w.inst u).initialized = false :=
          hat.new.resolve_right (by rw [hpc]; exact Bool.noConfusion)
        have hrx := hinv.waits u (by rw [hpc]; rfl)
        have hup := (hinv.up u (by rw [hpc]; rfl)).initialized
        obtain ⟨new, hcalls, hran⟩ := hat.ran
        rw [hpc] at hran
        obtain ⟨l, l', rfl, hran, hmiss, hr⟩ := hran
        exact .inr ⟨.init u env, _, rfl, hinv', u, hat.leaves rfl
          ((List.append_nil _).trans hcalls) rfl rfl
          (init_opened hnew hran (openRxSocket_created hup hrx hmiss hr))⟩
      · cases hs
    | release u =>
      simp only [linkSys, LinkProcess.step] at hs
      split at hs
      · rename_i err hpc
        obtain rfl := Option.some.inj hs
        exact .inl ⟨hinv', t, hat.goto (u := u) (p := .returned (.error (.init (.fromRaw err))))
          (by rw [hpc]; rfl) rfl rfl rfl rfl rfl⟩
      · cases hs
    | drop u lock =>
      simp only [linkSys, LinkProcess.step] at hs
      split at hs
      · rename_i hpc
        obtain rfl := Option.some.inj hs
        have hat := hat.focus hinv (u := u) (by rw [hpc]; rfl)
        obtain ⟨hg, hi, hc⟩ := hat.rest (by rw [hpc]; rfl)
        refine .inr ⟨.cleanup u lock, _, rfl, hinv', u, .of_rest hg ?_ ?_ fun v => ?_⟩
        · exact congrArg (fun inst => Function.update inst u ((inst u).cleanup lock).1) hi
        · exact congrArg₂ (fun calls inst => calls ++ ((inst u).cleanup lock).2) hc hi
        · show (Function.update s.pc u .dropped v).inInit = false
          by_cases hv : v = u
          · rw [hv, Function.update_self]
            rfl
          · rw [Function.update_of_ne hv, (hat.others v hv).2]
      · cases hs

/-! ## One link -/

/-- The call opened a link. -/
def NewAt.opened : NewAt → Bool
  | .returned (.ok _) | .dropped => true
  | _ => false

theorem NewAt.holds_of_opened {p : NewAt} (h : p.opened = true) : p.holds = true := by
  cases p with
  | returned r => cases r with
    | ok _ => rfl
    | error _ => cases h
  | _ => cases h <;> rfl

namespace LinkProcess

variable {socketcan : Bool} {s s' : LinkProcess} {t : Nat}

theorem opened_goto {s₁ : LinkProcess} {u : Nat} {p : NewAt} (h : (s.pc t).opened = true)
    (hpc : s₁.pc = s.pc) (hu : (s.pc u).opened = false ∨ p.opened = true) :
    ((s₁.goto u p).pc t).opened = true := by
  show (Function.update s₁.pc u p t).opened = true
  rw [hpc]
  by_cases htu : t = u
  · subst htu
    rw [Function.update_self]
    rw [h] at hu
    exact hu.resolve_left Bool.noConfusion
  · rw [Function.update_of_ne htu, h]

/-- A link stays opened. -/
theorem step_opened {op : LinkOp} (hs : s.step socketcan op = some s')
    (h : (s.pc t).opened = true) : (s'.pc t).opened = true := by
  cases op with
  | drop u lock =>
    simp only [step] at hs
    split at hs
    · obtain rfl := Option.some.inj hs
      exact opened_goto h rfl (.inr rfl)
    · cases hs
  | _ =>
    simp only [step] at hs
    split at hs
    · rename_i hpc
      repeat' split at hs
      all_goals
        obtain rfl := Option.some.inj hs
        exact opened_goto h rfl (.inl (by rw [hpc]; rfl))
    · cases hs

theorem run_opened {l : List LinkOp} (hr : (linkSys socketcan).Run s l s')
    (h : (s.pc t).opened = true) : (s'.pc t).opened = true := by
  induction hr with
  | nil => exact h
  | cons hs _ ih => exact ih (step_opened hs h)

/-- There is one link at most. -/
structure OneLink (s : LinkProcess) (socketcan : Bool) : Prop where
  /-- One call at most has the claim or has opened a link. -/
  one : ∀ t u, (s.pc t).holds = true → (s.pc u).holds = true → t = u
  /-- A call is refused iff there is one that has; the others may try again. -/
  refused : ∀ t s', s.step socketcan (.call t) = some s' →
    (s'.pc t = .returned (.error .alreadyOpen) ↔
      (s.config t).validate = .ok () ∧ ∃ u, (s.pc u).holds = true)
  /-- The link has the address, the interface and the port of its configuration. -/
  opened : ∀ t, s.pc t = .returned (.ok ()) → (s.config t).Up s.globals (s.inst t) ∧
    (s.config t).Listens s.globals (s.inst t)
  /-- No other instance is left initialized. -/
  down : ∀ t, s.pc t ≠ .returned (.ok ()) → (s.pc t).inInit = false →
    (s.inst t).initialized = false

theorem Inv.oneLink (h : s.Inv) : s.OneLink socketcan where
  one := h.held
  refused t s' hs := by
    have hself : ∀ (s₁ : LinkProcess) (p : NewAt), (s₁.goto t p).pc t = p :=
      fun _ _ => Function.update_self ..
    rw [← h.claimed_iff]
    simp only [LinkProcess.step] at hs
    split at hs
    · split at hs
      · rename_i e hv
        obtain rfl := Option.some.inj hs
        rw [hself, hv]
        exact iff_of_false (by simp) (by simp)
      · rename_i hv
        split at hs
        · rename_i hclaimed
          obtain rfl := Option.some.inj hs
          rw [hself]
          exact iff_of_true rfl ⟨hv, hclaimed⟩
        · rename_i hclaimed
          obtain rfl := Option.some.inj hs
          rw [hself]
          exact iff_of_false (by simp) fun hc => hclaimed hc.2
    · cases hs
  opened t ht := ⟨h.up t (by rw [ht]; rfl), h.listens t ht⟩
  down t ht hin := by
    refine h.down t ?_
    cases hp : s.pc t with
    | returned r =>
      cases r with
      | ok _ => exact absurd hp ht
      | error _ => rfl
    | entered | missed | created =>
      rw [hp] at hin
      cases hin
    | _ => rfl

end LinkProcess

/-- In every run there is one link at most, for the life of the process, and what the calls of
`CspclLink::new` do to the stack is what calls of `cspcl_init` one after the other do. -/
theorem one_link {socketcan : Bool} {s s' : LinkProcess} {l : List LinkOp}
    (hs : (linkSys socketcan).Reach s) (hr : (linkSys socketcan).Run s l s') :
    s'.OneLink socketcan ∧ (∃ w, (stackSys socketcan).Reach w ∧ s'.Shows socketcan w) ∧
      ∀ t, (s.pc t).opened = true →
        (s'.pc t).opened = true ∧ ∀ u, u ≠ t → (s'.pc u).holds = false := by
  have hs' := hs.run hr
  have hinv := (linkSys_inv socketcan).reach hs'
  refine ⟨hinv.oneLink, (link_stack socketcan).reach hs', fun t ht => ?_⟩
  have ht' := LinkProcess.run_opened hr ht
  refine ⟨ht', fun u hu => ?_⟩
  rw [← Bool.not_eq_true]
  exact fun hholds => hu (hinv.held u t hholds (NewAt.holds_of_opened ht'))

/-- What the call returned. -/
def NewAt.result : NewAt → Option (Except OpenError Unit)
  | .returned r => some r
  | _ => none

/-- Links on the loopback interface. -/
def loopbackLinks (_ : Nat) : Config := ⟨1, 10, .loopback⟩

/-- Call `1` comes while call `0` tries; call `0` cannot bind its port, and call `2` opens a link,
which is dropped. -/
def claims : List LinkOp :=
  let deaf := { goodEnv with rx := ⟨some 7, -1, 0⟩ }
  [.call 0, .enter 0 deaf, .call 1, .lookup 0, .create 0, .release 0, .call 2, .enter 2 goodEnv,
    .lookup 2, .create 2, .register 2]

theorem one_link_retry : ∃ s s', (linkSys true).exec (.new loopbackLinks) claims = some s ∧
    (List.range 3).map (fun t => (s.pc t).result) = [some (.error (.init .cspRecv)),
      some (.error .alreadyOpen), some (.ok ())] ∧
    (linkSys true).exec s [.call 3, .drop 2 true] = some s' ∧ s'.OneLink true ∧
    ∀ u, u ≠ 2 → (s'.pc u).holds = false := by
  have h : ((linkSys true).exec (.new loopbackLinks) claims).map
      (fun s => ((List.range 3).map (fun t => (s.pc t).result), (s.pc 2).opened)) =
      some ([some (.error (.init .cspRecv)), some (.error .alreadyOpen), some (.ok ())], true) := by
    decide +kernel
  have h' : (((linkSys true).exec (.new loopbackLinks) claims).bind fun s =>
      (linkSys true).exec s [.call 3, .drop 2 true]).isSome = true := by
    decide +kernel
  obtain ⟨s, hs, hres⟩ := Option.map_eq_some_iff.mp h
  obtain ⟨hres, hopened⟩ := Prod.mk.inj hres
  rw [hs, Option.bind_some] at h'
  obtain ⟨s', hs'⟩ := Option.isSome_iff_exists.mp h'
  obtain ⟨hone, -, hstays⟩ := one_link (.of_exec ⟨loopbackLinks, rfl⟩ hs) (Lts.run_iff_exec.mpr hs')
  exact ⟨s, s', hs, hres, hs', hone, (hstays 2 hopened).2⟩

end Cspcl.Picod3tn
