import Cspcl.Stack.Basic

/-!
# Interface specifications

A specification names the interface that a node runs on: `loopback`, `can`, `can:<iface>`,
`zmqhub` or `zmqhub:<host>`. Four parsers of the repository read it:

* `parseInterfaceSpec`: `cspcl_parse_interface_spec` of `src/cspcl.c`.
* `Ud3tn.claCreate`: the options of `csp_cla_create` in `ud3tn-integration/src/cla_csp.c`.
* `Unibo.parseIfaceSpec`: `parse_iface_spec` of `unibo-integration/src/cspcl_daemon.c`.
* `Interface.fromStr`: `Interface::from_str` of `picod3tn-cspcl/src/config.rs`.

`Specifies` is the notation that they share. The lemmas say what each makes of each form of it.
-/

namespace Cspcl

open CString

/-- `CSPCL_IFACE_PARAM_MAX` and `CSP_IFACE_PARAM_MAX`: the size of the host and the device name. -/
abbrev ifaceParamMax : Nat := 64

/-- `CSPCL_ZMQHUB_ADDR_DEFAULT`, and `DEFAULT_ZMQHUB_HOST`. -/
def zmqhubAddrDefault : CString := ofString "localhost"

/-- `CSPCL_CAN_IFACE_DEFAULT`, and `DEFAULT_CAN_IFACE`. -/
def canIfaceDefault : CString := ofString "vcan0"

/-- `InterfaceConfig` of `cspcl-sys`: an interface with its host or its device name. -/
inductive InterfaceConfig where
  | zmq (host : CString)
  | can (iface : CString)
  | loopback
  deriving DecidableEq, Repr

/-- The text names the interface, with a host or a device name that fits. -/
inductive Specifies : CString → InterfaceConfig → Prop where
  | loopback : Specifies (ofString "loopback") .loopback
  | can : Specifies (ofString "can") (.can canIfaceDefault)
  | canParam (prm : CString) : prm ≠ [] → prm.length < ifaceParamMax →
    Specifies (ofString "can:" ++ prm) (.can prm)
  | zmqhub : Specifies (ofString "zmqhub") (.zmq zmqhubAddrDefault)
  | zmqhubParam (prm : CString) : prm ≠ [] → prm.length < ifaceParamMax →
    Specifies (ofString "zmqhub:" ++ prm) (.zmq prm)

/-- The text that names the interface. -/
def InterfaceConfig.text : InterfaceConfig → CString
  | .zmq host => ofString "zmqhub:" ++ host
  | .can iface => ofString "can:" ++ iface
  | .loopback => ofString "loopback"

/-- The interface that a `cspcl_t` selects. -/
def selected (ifaceType : IfaceType) (zmqhubAddr canIface : CString) : InterfaceConfig :=
  match ifaceType with
  | .zmqhub => .zmq zmqhubAddr
  | .can => .can canIface
  | .loopback => .loopback

def Instance.interface (c : Instance) : InterfaceConfig :=
  selected c.ifaceType c.zmqhubAddr c.canIface

def InstanceConf.interface (c : InstanceConf) : InterfaceConfig :=
  selected c.ifaceType c.zmqhubAddr c.canIface

/-! ## The parsers -/

/-- `cspcl_parse_interface_spec`. -/
def parseInterfaceSpec (ifaceSpec : CString) (cspcl : Instance) : Except CspclError Instance :=
  if (ofString "zmqhub:").isPrefixOf ifaceSpec then
    .ok { cspcl with
      ifaceType := .zmqhub, zmqhubAddr := inBuffer ifaceParamMax (ifaceSpec.drop 7) }
  else if ifaceSpec = ofString "zmqhub" then
    .ok { cspcl with
      ifaceType := .zmqhub, zmqhubAddr := inBuffer ifaceParamMax zmqhubAddrDefault }
  else if (ofString "can:").isPrefixOf ifaceSpec then
    .ok { cspcl with
      ifaceType := .can, canIface := inBuffer ifaceParamMax (ifaceSpec.drop 4) }
  else if ifaceSpec = ofString "can" then
    .ok { cspcl with
      ifaceType := .can, canIface := inBuffer ifaceParamMax canIfaceDefault }
  else if ifaceSpec = ofString "loopback" then .ok { cspcl with ifaceType := .loopback }
  else .error .invalidParam

namespace Ud3tn

/-- The part of `csp_cla_create` that reads the interface, over the defaults. An empty host or
device name is refused. -/
def claIface (ifaceSpec : CString) (config : InstanceConf) : Option InstanceConf :=
  if (ofString "zmqhub:").isPrefixOf ifaceSpec then
    if inBuffer ifaceParamMax (ifaceSpec.drop 7) = [] then none
    else some { config with
      ifaceType := .zmqhub, zmqhubAddr := inBuffer ifaceParamMax (ifaceSpec.drop 7) }
  else if ifaceSpec = ofString "zmqhub" then some { config with ifaceType := .zmqhub }
  else if (ofString "can:").isPrefixOf ifaceSpec then
    if inBuffer ifaceParamMax (ifaceSpec.drop 4) = [] then none
    else some { config with
      ifaceType := .can, canIface := inBuffer ifaceParamMax (ifaceSpec.drop 4) }
  else if ifaceSpec = ofString "can" then some { config with ifaceType := .can }
  else if ifaceSpec = ofString "loopback" then some { config with ifaceType := .loopback }
  else none

/-- The configuration that `csp_cla_create` makes of its options
`<local_addr>,<csp_port>[,<iface>]`. -/
def claCreate (options : List CString) : Option InstanceConf :=
  match options with
  | localAddr :: cspPort :: rest =>
    let config : InstanceConf := {
      localAddr := UInt8.ofInt (atoi localAddr)
      cspPort := UInt8.ofInt (atoi cspPort)
      ifaceType := .zmqhub
      zmqhubAddr := inBuffer ifaceParamMax zmqhubAddrDefault
      canIface := inBuffer ifaceParamMax canIfaceDefault }
    match rest with
    | [] => some config
    | [ifaceSpec] => claIface ifaceSpec config
    | _ => none
  | _ => none

end Ud3tn

namespace Unibo

/-- The parameters of `parse_iface_spec`, which it reads and writes. -/
structure IfaceParams where
  ifaceType : IfaceType
  zmqhubAddr : CString
  canIface : CString
  deriving DecidableEq, Repr

/-- Their values before the first specification. -/
def IfaceParams.default : IfaceParams := ⟨.zmqhub, zmqhubAddrDefault, canIfaceDefault⟩

def IfaceParams.interface (p : IfaceParams) : InterfaceConfig :=
  selected p.ifaceType p.zmqhubAddr p.canIface

/-- `copy_iface_param` with a buffer of `dstLen` bytes. -/
def copyIfaceParam (dstLen : Nat) (src : CString) : Option CString :=
  if src.length = 0 ∨ src.length ≥ dstLen then none else some src

/-- `parse_iface_spec`. -/
def parseIfaceSpec (value : CString) (p : IfaceParams) : Option IfaceParams :=
  if (ofString "zmqhub:").isPrefixOf value then
    (copyIfaceParam ifaceParamMax (value.drop 7)).map fun host =>
      { p with zmqhubAddr := host, ifaceType := .zmqhub }
  else if value = ofString "zmqhub" then
    -- The host of an earlier specification stays.
    some { p with ifaceType := .zmqhub }
  else if (ofString "can:").isPrefixOf value then
    (copyIfaceParam ifaceParamMax (value.drop 4)).map fun iface =>
      { p with canIface := iface, ifaceType := .can }
  else if value = ofString "can" then
    (copyIfaceParam ifaceParamMax canIfaceDefault).map fun iface =>
      { p with canIface := iface, ifaceType := .can }
  else if value = ofString "loopback" then some { p with ifaceType := .loopback }
  else none

end Unibo

/-- `Interface` of picod3tn: `none` stands for the default device. -/
inductive Interface where
  | loopback
  | can (iface : Option CString)
  | zmqhub (host : CString)
  deriving DecidableEq, Repr

/-- `InterfaceError`. -/
inductive InterfaceError where
  | unknown
  | loopbackParam
  | emptyParam
  | paramTooLong
  | nul
  deriving DecidableEq, Repr

namespace Interface

/-- `MAX_IFACE_PARAM_LEN`. -/
def maxIfaceParamLen : Nat := 63

/-- `str::split_once(':')`, on the bytes of a `str`. -/
def splitOnce (s : CString) : Option (CString × CString) :=
  (strchr s 58).map fun rest => (s.takeWhile (· ≠ 58), rest.drop 1)

/-- The closure `checked_param` of `from_str`. -/
def checkedParam (param : Option CString) : Except InterfaceError (Option CString) :=
  match param with
  | none => .ok none
  | some param =>
    if param = [] then .error .emptyParam
    else if param.length > maxIfaceParamLen then .error .paramTooLong
    else if 0 ∈ param then .error .nul
    else .ok (some param)

/-- The kind before the first `:`, and the parameter after it. -/
def kindParam (s : CString) : CString × Option CString :=
  (splitOnce s).elim (s, none) fun p => (p.1, some p.2)

/-- `Interface::from_str`, on the bytes of a `str`. -/
def fromStr (s : CString) : Except InterfaceError Interface :=
  let (kind, param) := kindParam s
  if kind = ofString "loopback" then
    if param.isNone then .ok .loopback else .error .loopbackParam
  else if kind = ofString "can" then (checkedParam param).map .can
  else if kind = ofString "zmqhub" then
    (checkedParam param).map fun host => .zmqhub (host.getD zmqhubAddrDefault)
  else .error .unknown

/-- The `Display` form. -/
def display : Interface → CString
  | loopback => ofString "loopback"
  | can iface => ofString "can:" ++ iface.getD canIfaceDefault
  | zmqhub host => ofString "zmqhub:" ++ host

/-- `From<Interface> for cspcl::Interface`. -/
def toCspcl : Interface → InterfaceConfig
  | loopback => .loopback
  | can iface => .can (iface.getD canIfaceDefault)
  | zmqhub host => .zmq host

end Interface

/-! ## One lemma for each form -/

variable {s prm : CString} {i : InterfaceConfig}

/-- A text has one of the forms, with any parameter, or none of them. -/
theorem spec_cases (s : CString) :
    (∃ prm, s = ofString "zmqhub:" ++ prm) ∨ s = ofString "zmqhub" ∨
      (∃ prm, s = ofString "can:" ++ prm) ∨ s = ofString "can" ∨ s = ofString "loopback" ∨
      (¬ ofString "zmqhub:" <+: s ∧ s ≠ ofString "zmqhub" ∧ ¬ ofString "can:" <+: s ∧
        s ≠ ofString "can" ∧ s ≠ ofString "loopback") := by
  by_cases hz : ofString "zmqhub:" <+: s
  · exact .inl (hz.imp fun _ => Eq.symm)
  by_cases hc : ofString "can:" <+: s
  · exact .inr (.inr (.inl (hc.imp fun _ => Eq.symm)))
  by_cases hz' : s = ofString "zmqhub"
  · exact .inr (.inl hz')
  by_cases hc' : s = ofString "can"
  · exact .inr (.inr (.inr (.inl hc')))
  by_cases hl : s = ofString "loopback"
  · exact .inr (.inr (.inr (.inr (.inl hl))))
  · exact .inr (.inr (.inr (.inr (.inr ⟨hz, hz', hc, hc', hl⟩))))

namespace Interface

theorem kindParam_append {kind : CString} (h : 58 ∉ kind) (prm : CString) :
    kindParam (kind ++ 58 :: prm) = (kind, some prm) := by
  have hkind : (kind ++ 58 :: prm).takeWhile (· ≠ 58) = kind := by
    rw [List.takeWhile_append_of_pos fun c hc => by simpa using ne_of_mem_of_not_mem hc h]
    simp
  rw [kindParam, splitOnce, strchr_append h, Option.map_some, Option.elim_some, hkind,
    List.drop_one, List.tail_cons]

theorem kindParam_of_notMem {kind : CString} (h : 58 ∉ kind) : kindParam kind = (kind, none) := by
  rw [kindParam, splitOnce, strchr_none h, Option.map_none, Option.elim_none]

/-- Before and after the first `:`, or no `:` at all. -/
theorem kindParam_cases (s : CString) :
    (58 ∉ s ∧ kindParam s = (s, none)) ∨
      ∃ kind prm, s = kind ++ 58 :: prm ∧ kindParam s = (kind, some prm) := by
  by_cases h : 58 ∈ s
  · obtain ⟨kind, prm, rfl, hk⟩ := List.eq_append_cons_of_mem h
    exact .inr ⟨kind, prm, rfl, kindParam_append hk prm⟩
  · exact .inl ⟨h, kindParam_of_notMem h⟩

theorem fromStr_zmqhubParam (prm : CString) : fromStr (ofString "zmqhub:" ++ prm) =
    (checkedParam (some prm)).map fun host => zmqhub (host.getD zmqhubAddrDefault) := by
  have h := kindParam_append (by decide : 58 ∉ ofString "zmqhub") prm
  rw [fromStr, show ofString "zmqhub:" ++ prm = ofString "zmqhub" ++ 58 :: prm from rfl, h]
  rfl

theorem fromStr_canParam (prm : CString) : fromStr (ofString "can:" ++ prm) =
    (checkedParam (some prm)).map can := by
  have h := kindParam_append (by decide : 58 ∉ ofString "can") prm
  rw [fromStr, show ofString "can:" ++ prm = ofString "can" ++ 58 :: prm from rfl, h]
  rfl

/-- A text of none of the forms is rejected. -/
theorem fromStr_other (hz : ¬ ofString "zmqhub:" <+: s) (hz' : s ≠ ofString "zmqhub")
    (hc : ¬ ofString "can:" <+: s) (hc' : s ≠ ofString "can") (hl : s ≠ ofString "loopback") :
    ∃ e, fromStr s = .error e := by
  rw [fromStr]
  rcases kindParam_cases s with ⟨-, hk⟩ | ⟨kind, prm, rfl, hk⟩
  · rw [hk]
    exact ⟨.unknown, by simp only [hz', hc', hl, if_false]⟩
  rw [hk]
  dsimp only
  split
  · exact ⟨.loopbackParam, rfl⟩
  split
  · rename_i h
    exact absurd ⟨prm, by rw [h]; rfl⟩ hc
  split
  · rename_i h
    exact absurd ⟨prm, by rw [h]; rfl⟩ hz
  · exact ⟨.unknown, rfl⟩

theorem checkedParam_ok {param : CString} {o : Option CString} :
    checkedParam (some param) = .ok o ↔
      param ≠ [] ∧ param.length < ifaceParamMax ∧ 0 ∉ param ∧ o = some param := by
  unfold checkedParam maxIfaceParamLen
  grind

/-- The parameter that `from_str` accepts after `kind:`. -/
theorem checkedParam_map {f : Option CString → Interface} {j : Interface}
    (h : (checkedParam (some prm)).map f = .ok j) :
    prm ≠ [] ∧ prm.length < ifaceParamMax ∧ 0 ∉ prm ∧ f (some prm) = j := by
  cases ho : checkedParam (some prm) with
  | error e =>
    rw [ho] at h
    cases h
  | ok o =>
    obtain ⟨hne, hlt, h0, rfl⟩ := checkedParam_ok.mp ho
    rw [ho] at h
    exact ⟨hne, hlt, h0, Except.ok.inj h⟩

/-- What `from_str` accepts is a specification whose parameter fits, without a NUL. -/
theorem specifies_of_fromStr {j : Interface} (h : fromStr s = .ok j) :
    Specifies s j.toCspcl ∧ 0 ∉ s := by
  rcases spec_cases s with ⟨prm, rfl⟩ | rfl | ⟨prm, rfl⟩ | rfl | rfl | ⟨hz, hz', hc, hc', hl⟩
  · rw [fromStr_zmqhubParam] at h
    obtain ⟨hne, hlt, h0, rfl⟩ := checkedParam_map h
    exact ⟨.zmqhubParam prm hne hlt, fun hm => (List.mem_append.mp hm).elim (by decide) h0⟩
  · obtain rfl := Except.ok.inj h
    exact ⟨.zmqhub, by decide⟩
  · rw [fromStr_canParam] at h
    obtain ⟨hne, hlt, h0, rfl⟩ := checkedParam_map h
    exact ⟨.canParam prm hne hlt, fun hm => (List.mem_append.mp hm).elim (by decide) h0⟩
  · obtain rfl := Except.ok.inj h
    exact ⟨.can, by decide⟩
  · obtain rfl := Except.ok.inj h
    exact ⟨.loopback, by decide⟩
  · obtain ⟨e, he⟩ := fromStr_other hz hz' hc hc' hl
    rw [he] at h
    cases h

theorem fromStr_of_specifies (h : Specifies s i) (h0 : 0 ∉ s) :
    ∃ j, fromStr s = .ok j ∧ j.toCspcl = i := by
  cases h with
  | loopback => exact ⟨_, rfl, rfl⟩
  | can => exact ⟨_, rfl, rfl⟩
  | zmqhub => exact ⟨_, rfl, rfl⟩
  | canParam prm hne hlt =>
    have hp := checkedParam_ok.mpr ⟨hne, hlt, fun hm => h0 (List.mem_append_right _ hm), rfl⟩
    exact ⟨can (some prm), by rw [fromStr_canParam, hp]; rfl, rfl⟩
  | zmqhubParam prm hne hlt =>
    have hp := checkedParam_ok.mpr ⟨hne, hlt, fun hm => h0 (List.mem_append_right _ hm), rfl⟩
    exact ⟨zmqhub prm, by rw [fromStr_zmqhubParam, hp]; rfl, rfl⟩

theorem display_eq (j : Interface) : j.display = j.toCspcl.text := by cases j <;> rfl

end Interface

/-- The text that names a specified interface specifies it too. -/
theorem Specifies.text (h : Specifies s i) : Specifies i.text i := by
  cases h with
  | loopback => exact .loopback
  | can => exact .canParam _ (by decide) (by decide)
  | canParam prm hne hlt => exact .canParam prm hne hlt
  | zmqhub => exact .zmqhubParam _ (by decide) (by decide)
  | zmqhubParam prm hne hlt => exact .zmqhubParam prm hne hlt

theorem Specifies.text_nul (h : Specifies s i) (h0 : 0 ∉ s) : 0 ∉ i.text := by
  cases h with
  | can => decide
  | zmqhub => decide
  | _ => exact h0

end Cspcl
