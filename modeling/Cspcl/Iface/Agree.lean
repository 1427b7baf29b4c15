import Cspcl.Iface.Spec

/-!
# The interface parsers compared

What the four parsers make of a text without a NUL byte. They read a specification whose parameter
fits alike (`*_of_specifies`) and reject a text of no form (`ParsersAgree.of_other`).

`parsers_agree_iff`: they differ on an empty parameter and on one of 64 bytes or more, which
`cspcl_parse_interface_spec` takes and cuts, and on a bare `zmqhub` after another host, which only
Unibo's parser keeps.
-/

namespace Cspcl

open CString

variable {s prm : CString} {i : InterfaceConfig} {c : Instance} {addr port : CString}
  {p : Unibo.IfaceParams}

/-- The interface that a `cspcl_t` selects after the specification, if it is accepted. -/
def libraryReads (s : CString) (c : Instance) : Option InterfaceConfig :=
  (parseInterfaceSpec s c).toOption.map Instance.interface

/-- The interface of the CLA that uD3TN creates. -/
def ud3tnReads (addr port s : CString) : Option InterfaceConfig :=
  (Ud3tn.claCreate [addr, port, s]).map InstanceConf.interface

/-- The interface that Unibo's parameters select. -/
def uniboReads (s : CString) (p : Unibo.IfaceParams) : Option InterfaceConfig :=
  (Unibo.parseIfaceSpec s p).map Unibo.IfaceParams.interface

/-- picod3tn's interface, with its defaults filled in. -/
def picod3tnReads (s : CString) : Option InterfaceConfig :=
  (Interface.fromStr s).toOption.map Interface.toCspcl

/-- All four accept the text and select the same interface, or all reject it. -/
structure ParsersAgree (s : CString) (c : Instance) (addr port : CString)
    (p : Unibo.IfaceParams) : Prop where
  ud3tn : libraryReads s c = ud3tnReads addr port s
  unibo : libraryReads s c = uniboReads s p
  picod3tn : libraryReads s c = picod3tnReads s

/-! ## A specification that fits -/

theorem library_of_specifies (h : Specifies s i) (c : Instance) : libraryReads s c = some i := by
  cases h with
  | loopback => rfl
  | can => rfl
  | zmqhub => rfl
  | canParam prm _ hlt =>
    show some (InterfaceConfig.can (inBuffer ifaceParamMax prm)) = _
    rw [inBuffer_of_lt hlt]
  | zmqhubParam prm _ hlt =>
    show some (InterfaceConfig.zmq (inBuffer ifaceParamMax prm)) = _
    rw [inBuffer_of_lt hlt]

theorem ud3tn_canParam (addr port prm : CString) :
    ud3tnReads addr port (ofString "can:" ++ prm) =
      if inBuffer ifaceParamMax prm = [] then none
      else some (.can (inBuffer ifaceParamMax prm)) :=
  apply_ite (Option.map InstanceConf.interface) ..

theorem ud3tn_zmqhubParam (addr port prm : CString) :
    ud3tnReads addr port (ofString "zmqhub:" ++ prm) =
      if inBuffer ifaceParamMax prm = [] then none
      else some (.zmq (inBuffer ifaceParamMax prm)) :=
  apply_ite (Option.map InstanceConf.interface) ..

theorem ud3tn_of_specifies (h : Specifies s i) (addr port : CString) :
    ud3tnReads addr port s = some i := by
  cases h with
  | loopback => rfl
  | can => rfl
  | zmqhub => rfl
  | canParam prm hne hlt => rw [ud3tn_canParam, inBuffer_of_lt hlt, if_neg hne]
  | zmqhubParam prm hne hlt => rw [ud3tn_zmqhubParam, inBuffer_of_lt hlt, if_neg hne]

theorem unibo_canParam (prm : CString) (p : Unibo.IfaceParams) :
    uniboReads (ofString "can:" ++ prm) p =
      (Unibo.copyIfaceParam ifaceParamMax prm).map .can :=
  Option.map_map ..

theorem unibo_zmqhubParam (prm : CString) (p : Unibo.IfaceParams) :
    uniboReads (ofString "zmqhub:" ++ prm) p =
      (Unibo.copyIfaceParam ifaceParamMax prm).map .zmq :=
  Option.map_map ..

theorem copyIfaceParam_of_lt (hne : prm ≠ []) (hlt : prm.length < ifaceParamMax) :
    Unibo.copyIfaceParam ifaceParamMax prm = some prm := by
  rw [Unibo.copyIfaceParam, if_neg]
  rintro (h | h)
  · exact hne (List.length_eq_zero_iff.mp h)
  · omega

/-- A bare `zmqhub` leaves the host as it is. -/
theorem unibo_of_specifies (h : Specifies s i)
    (hp : s = ofString "zmqhub" → p.zmqhubAddr = zmqhubAddrDefault) :
    uniboReads s p = some i := by
  cases h with
  | loopback => rfl
  | can => rfl
  | zmqhub =>
    show some (InterfaceConfig.zmq p.zmqhubAddr) = _
    rw [hp rfl]
  | canParam prm hne hlt => rw [unibo_canParam, copyIfaceParam_of_lt hne hlt, Option.map_some]
  | zmqhubParam prm hne hlt => rw [unibo_zmqhubParam, copyIfaceParam_of_lt hne hlt, Option.map_some]

theorem picod3tn_of_specifies (h : Specifies s i) (h0 : 0 ∉ s) : picod3tnReads s = some i := by
  obtain ⟨j, hj, rfl⟩ := Interface.fromStr_of_specifies h h0
  rw [picod3tnReads, hj]
  rfl

theorem ParsersAgree.of_specifies (h : Specifies s i) (h0 : 0 ∉ s)
    (hp : s = ofString "zmqhub" → p.zmqhubAddr = zmqhubAddrDefault) :
    ParsersAgree s c addr port p := by
  refine ⟨?_, ?_, ?_⟩ <;> rw [library_of_specifies h]
  · exact (ud3tn_of_specifies h addr port).symm
  · exact (unibo_of_specifies h hp).symm
  · exact (picod3tn_of_specifies h h0).symm

/-! ## Other texts -/

/-- A text of no form is rejected by all. -/
theorem ParsersAgree.of_other (hz : ¬ ofString "zmqhub:" <+: s) (hz' : s ≠ ofString "zmqhub")
    (hc : ¬ ofString "can:" <+: s) (hc' : s ≠ ofString "can") (hl : s ≠ ofString "loopback") :
    ParsersAgree s c addr port p := by
  obtain ⟨e, he⟩ := Interface.fromStr_other hz hz' hc hc' hl
  rw [← List.isPrefixOf_iff_prefix, Bool.not_eq_true] at hz hc
  have hlib : libraryReads s c = none := by
    simp only [libraryReads, parseInterfaceSpec, hz, hz', hc, hc', hl, Bool.false_eq_true,
      if_false]
    rfl
  refine ⟨?_, ?_, ?_⟩ <;> rw [hlib]
  · simp only [ud3tnReads, Ud3tn.claCreate, Ud3tn.claIface, hz, hz', hc, hc', hl,
      Bool.false_eq_true, if_false, Option.map_none]
  · simp only [uniboReads, Unibo.parseIfaceSpec, hz, hz', hc, hc', hl, Bool.false_eq_true, if_false,
      Option.map_none]
  · rw [picod3tnReads, he]
    rfl

/-- The library accepts any parameter, Unibo one that fits. -/
theorem fits_of_agree (h : ParsersAgree s c addr port p)
    (hs : s = ofString "zmqhub:" ++ prm ∨ s = ofString "can:" ++ prm) :
    prm ≠ [] ∧ prm.length < ifaceParamMax := by
  have hu := h.unibo
  by_contra hno
  have hcopy : Unibo.copyIfaceParam ifaceParamMax prm = none := by
    refine if_pos ?_
    rw [List.length_eq_zero_iff]
    by_cases hne : prm = []
    · exact .inl hne
    · exact .inr (Nat.not_lt.mp fun hlt => hno ⟨hne, hlt⟩)
  rcases hs with rfl | rfl
  · rw [unibo_zmqhubParam, hcopy] at hu
    cases hu
  · rw [unibo_canParam, hcopy] at hu
    cases hu

/-- The four parsers agree on a text without a NUL byte iff its parameter, if it has one, fits, and
Unibo's host is the default one at a bare `zmqhub`. -/
theorem parsers_agree_iff (h0 : 0 ∉ s) (c : Instance) (addr port : CString)
    (p : Unibo.IfaceParams) :
    ParsersAgree s c addr port p ↔
      (∀ prm, s = ofString "zmqhub:" ++ prm ∨ s = ofString "can:" ++ prm →
        prm ≠ [] ∧ prm.length < ifaceParamMax) ∧
      (s = ofString "zmqhub" → p.zmqhubAddr = zmqhubAddrDefault) := by
  constructor
  · refine fun h => ⟨fun prm hs => fits_of_agree h hs, ?_⟩
    rintro rfl
    exact (InterfaceConfig.zmq.inj (Option.some.inj h.unibo)).symm
  · rintro ⟨hprm, hp⟩
    rcases spec_cases s with ⟨prm, rfl⟩ | rfl | ⟨prm, rfl⟩ | rfl | rfl | ⟨hz, hz', hc, hc', hl⟩
    · obtain ⟨hne, hlt⟩ := hprm prm (.inl rfl)
      exact .of_specifies (.zmqhubParam prm hne hlt) h0 hp
    · exact .of_specifies .zmqhub h0 hp
    · obtain ⟨hne, hlt⟩ := hprm prm (.inr rfl)
      exact .of_specifies (.canParam prm hne hlt) h0 hp
    · exact .of_specifies .can h0 hp
    · exact .of_specifies .loopback h0 hp
    · exact .of_other hz hz' hc hc' hl

/-- `can:can0` is read alike by all. -/
theorem parsers_agree_can0 :
    ParsersAgree (ofString "can:can0") (.new ⟨0, 0, .zmqhub, [], []⟩) (ofString "1") (ofString "10")
      .default :=
  (parsers_agree_iff (by decide) _ (ofString "1") (ofString "10") .default).mpr
    ⟨by
      rintro prm (h | h)
      · cases h
      · obtain rfl := List.append_cancel_left
          (show ofString "can:" ++ ofString "can0" = ofString "can:" ++ prm from h)
        decide, by decide⟩

/-- The library and uD3TN disagree on `can:`, and Unibo with the rest on a bare `zmqhub` after
`zmqhub:h`. -/
theorem parsers_disagree :
    (∀ c p, ¬ ParsersAgree (ofString "can:") c (ofString "1") (ofString "10") p) ∧
      ∃ p, Unibo.parseIfaceSpec (ofString "zmqhub:h") .default = some p ∧
        ∀ c, ¬ ParsersAgree (ofString "zmqhub") c (ofString "1") (ofString "10") p := by
  refine ⟨fun c p h => ?_, _, rfl, fun c h => ?_⟩
  · exact absurd h.ud3tn (Option.some_ne_none _)
  · have hhost : zmqhubAddrDefault = ofString "h" :=
      InterfaceConfig.zmq.inj (Option.some.inj h.unibo)
    exact absurd hhost (by decide)

end Cspcl
