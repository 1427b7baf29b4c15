import Cspcl.Iface.Spec

/-!
# The text form of an interface

`interfaceTypeToString` is `cspcl_interface_type_to_string`; `TextRoundTrip` says that what it
writes is read back as the same interface, and that a buffer that is too small is an error.

`text_round_trip_iff`: that is so iff the buffer is refused for being smaller than 10 bytes, or
holds the whole text. `snprintf` cuts a longer text, and its result is not looked at.
-/

namespace Cspcl

open CString

variable {s : CString} {c c₀ : Instance} {len : Nat}

/-- `cspcl_interface_type_to_string` with a buffer of `len` bytes: what it writes, if it returns
`CSPCL_OK`. -/
def interfaceTypeToString (c : Instance) (len : Nat) : Except CspclError CString :=
  if len < 10 then .error .invalidParam
  else
    match c.ifaceType with
    | .zmqhub => .ok (inBuffer len (ofString "zmqhub:" ++ c.zmqhubAddr))
    | .can => .ok (inBuffer len (ofString "can:" ++ c.canIface))
    | .loopback => .ok (inBuffer len (ofString "loopback"))

/-- What is written is read back as the same interface, and a buffer without room for the text and
its NUL is refused. -/
structure TextRoundTrip (c : Instance) (len : Nat) : Prop where
  read_back : ∀ text, interfaceTypeToString c len = .ok text →
    ∀ c₀, ∃ c', parseInterfaceSpec text c₀ = .ok c' ∧ c'.interface = c.interface
  refused : len ≤ c.interface.text.length → ∃ e, interfaceTypeToString c len = .error e

theorem interfaceTypeToString_eq (h : 10 ≤ len) (c : Instance) :
    interfaceTypeToString c len = .ok (inBuffer len c.interface.text) := by
  rw [interfaceTypeToString, if_neg (by omega), Instance.interface]
  cases c.ifaceType <;> rfl

/-- A name in its field: it is short enough to be copied whole. -/
def InterfaceConfig.Fits : InterfaceConfig → Prop
  | .zmq host => host.length < ifaceParamMax
  | .can iface => iface.length < ifaceParamMax
  | .loopback => True

theorem inBuffer_fits (s : CString) : (inBuffer ifaceParamMax s).length < ifaceParamMax := by
  have h : (s.take 63).length ≤ 63 := s.length_take_le 63
  exact Nat.lt_succ_of_le h

/-- The parser leaves a name that fits in its field. -/
theorem fits_of_parse (h : parseInterfaceSpec s c₀ = .ok c) : c.interface.Fits := by
  unfold parseInterfaceSpec at h
  split_ifs at h <;> obtain rfl := Except.ok.inj h
  · exact inBuffer_fits _
  · exact inBuffer_fits _
  · exact inBuffer_fits _
  · exact inBuffer_fits _
  · trivial

/-- The whole text of a name that fits is read back. -/
theorem parse_text (h : c.interface.Fits) (c₀ : Instance) :
    ∃ c', parseInterfaceSpec c.interface.text c₀ = .ok c' ∧ c'.interface = c.interface := by
  rw [Instance.interface] at h ⊢
  cases ht : c.ifaceType <;> rw [ht] at h
  · refine ⟨_, rfl, ?_⟩
    show InterfaceConfig.zmq (inBuffer ifaceParamMax c.zmqhubAddr) = _
    rw [inBuffer_of_lt h]
    rfl
  · refine ⟨_, rfl, ?_⟩
    show InterfaceConfig.can (inBuffer ifaceParamMax c.canIface) = _
    rw [inBuffer_of_lt h]
    rfl
  · exact ⟨_, rfl, rfl⟩

/-- The text form round-trips iff the buffer is refused or holds the whole text. -/
theorem text_round_trip_iff (h : parseInterfaceSpec s c₀ = .ok c) (len : Nat) :
    TextRoundTrip c len ↔ len < 10 ∨ c.interface.text.length < len := by
  constructor
  · intro hr
    by_contra hno
    rw [not_or, Nat.not_lt, Nat.not_lt] at hno
    obtain ⟨e, he⟩ := hr.refused hno.2
    rw [interfaceTypeToString_eq hno.1] at he
    cases he
  · rintro (hlt | hlen)
    · have he : interfaceTypeToString c len = .error .invalidParam := if_pos hlt
      refine ⟨fun text ht => ?_, fun _ => ⟨_, he⟩⟩
      rw [he] at ht
      cases ht
    · refine ⟨fun text ht c₀ => ?_, fun hle => by omega⟩
      have hlow : 10 ≤ len := by
        by_contra hno
        rw [interfaceTypeToString, if_pos (by omega)] at ht
        cases ht
      rw [interfaceTypeToString_eq hlow, inBuffer_of_lt hlen] at ht
      obtain rfl := Except.ok.inj ht
      exact parse_text (fits_of_parse h) c₀

/-- A zeroed `cspcl_t`. -/
def zeroInstance : Instance := .new ⟨0, 0, .zmqhub, [], []⟩

/-- The text of `can:can0` fits in 64 bytes. -/
theorem text_round_trip_can0 :
    parseInterfaceSpec (ofString "can:can0") zeroInstance =
        .ok { zeroInstance with ifaceType := .can, canIface := ofString "can0" } ∧
      TextRoundTrip { zeroInstance with ifaceType := .can, canIface := ofString "can0" } 64 := by
  have h : parseInterfaceSpec (ofString "can:can0") zeroInstance =
      .ok { zeroInstance with ifaceType := .can, canIface := ofString "can0" } := rfl
  exact ⟨h, (text_round_trip_iff h 64).mpr (.inr (by decide))⟩

/-- With a buffer of 10 bytes, `zmqhub:192.168.1.10` is written as `zmqhub:19`, and the host is read
back as `19`. -/
theorem text_cut :
    ∃ c, parseInterfaceSpec (ofString "zmqhub:192.168.1.10") zeroInstance = .ok c ∧
      interfaceTypeToString c 10 = .ok (ofString "zmqhub:19") ∧ ¬ TextRoundTrip c 10 := by
  refine ⟨_, rfl, rfl, fun h => ?_⟩
  obtain ⟨e, he⟩ := h.refused (by decide)
  cases he

end Cspcl
