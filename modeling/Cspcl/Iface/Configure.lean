import Cspcl.Iface.Spec

/-!
# picod3tn's interface in the C library

From the text of an interface to the `cspcl_t` that is passed to `cspcl_init`: `Interface::from_str`
and the conversion to `cspcl::Interface` (`Iface/Spec.lean`), then `configure` and `copy_c_string`
of `cspcl-sys/src/types.rs`, which write the name into a C array.

`interface_reaches_library`: the array holds the name that the text gives, or the default, to the
last byte, and the `Display` form of the interface leads to the same `cspcl_t`.
-/

namespace Cspcl

open CString

/-- `[c_char; CSP_IFACE_PARAM_MAX]`. -/
abbrev NameField := Vector Int8 ifaceParamMax

/-- `cspcl_t`, as `configure` makes it: the fields that it sets. The others are zero. -/
structure CspclT where
  localAddr : UInt8
  cspPort : UInt8
  ifaceType : IfaceType
  zmqhubAddr : NameField
  canIface : NameField
  deriving DecidableEq

/-- `CspclConfig`. -/
structure CspclConfig where
  localAddr : UInt8
  cspPort : UInt8
  interface : InterfaceConfig

/-- The loop of `copy_c_string`: it writes from `idx` on, up to a NUL. -/
def copyBytes {n : Nat} (dest : Vector Int8 n) (idx : Nat) : CString → Vector Int8 n
  | [] => dest
  | byte :: rest => if byte = 0 then dest else copyBytes (dest.set! idx byte.toInt8) (idx + 1) rest

/-- `copy_c_string`: the array after it. -/
def copyCString (n : Nat) (src : CString) : Vector Int8 n :=
  copyBytes (.replicate n 0) 0 (src.take (n - 1))

/-- `configure`. -/
def configure (config : CspclConfig) : CspclT :=
  let cspcl : CspclT :=
    ⟨config.localAddr, config.cspPort, .zmqhub, .replicate _ 0, .replicate _ 0⟩
  match config.interface with
  | .zmq interfaceName => { cspcl with
      ifaceType := .zmqhub, zmqhubAddr := copyCString ifaceParamMax interfaceName }
  | .can interfaceName => { cspcl with
      ifaceType := .can, canIface := copyCString ifaceParamMax interfaceName }
  | .loopback => { cspcl with ifaceType := .loopback }

/-- The bytes of the array up to the first NUL. -/
def cString {n : Nat} (a : Vector Int8 n) : CString :=
  (a.toList.takeWhile (· ≠ 0)).map Int8.toUInt8

/-- The array is NUL-terminated, and the C string in it is `s`. -/
structure HoldsString {n : Nat} (a : Vector Int8 n) (s : CString) : Prop where
  terminated : 0 ∈ a
  reads : cString a = s

/-- The `cspcl_t` selects the interface: its type, and its name in the field for it. -/
def CspclT.Selects (c : CspclT) : InterfaceConfig → Prop
  | .zmq host => c.ifaceType = .zmqhub ∧ HoldsString c.zmqhubAddr host
  | .can iface => c.ifaceType = .can ∧ HoldsString c.canIface iface
  | .loopback => c.ifaceType = .loopback

example : (copyCString 4 [97, 98, 99, 100]).toList = [97, 98, 99, 0] := by decide

/-! ## The copy -/

variable {n k : Nat} {s prm : CString} {i : Interface}

/-- What has been written stays, the rest of the text follows it, and the zeros after that stay. -/
theorem copyBytes_toList (h0 : 0 ∉ s) (dest : Vector Int8 n) (written : List Int8)
    (h : dest.toList = written ++ .replicate (s.length + k) 0) :
    (copyBytes dest written.length s).toList =
      written ++ s.map UInt8.toInt8 ++ .replicate k 0 := by
  induction s generalizing dest written with
  | nil =>
    rw [copyBytes, h]
    simp
  | cons byte s ih =>
    rw [List.mem_cons, not_or] at h0
    rw [copyBytes, if_neg (Ne.symm h0.1)]
    have hset : (dest.set! written.length byte.toInt8).toList =
        (written ++ [byte.toInt8]) ++ .replicate (s.length + k) 0 := by
      rw [Vector.toList_set!, h, List.set_append_right _ _ le_rfl, Nat.sub_self, List.length_cons,
        show s.length + 1 + k = s.length + k + 1 by omega, List.replicate_succ]
      simp
    have := ih h0.2 _ _ hset
    rwa [List.length_append, List.length_singleton, List.append_assoc written] at this

theorem toInt8_ne_zero {byte : UInt8} (h : byte ≠ 0) : byte.toInt8 ≠ 0 :=
  fun h0 => h (by rw [← UInt8.toUInt8_toInt8 byte, h0]; rfl)

/-- A text without a NUL that leaves room for one is copied whole. -/
theorem copyCString_holds (h0 : 0 ∉ s) (hlt : s.length < n) : HoldsString (copyCString n s) s := by
  have hl : (copyCString n s).toList = s.map UInt8.toInt8 ++ .replicate (n - s.length) 0 := by
    rw [copyCString, List.take_of_length_le (by omega)]
    refine copyBytes_toList h0 _ [] ?_
    rw [Vector.toList_replicate, List.nil_append, Nat.add_sub_cancel' hlt.le]
  refine ⟨?_, ?_⟩
  · rw [← Vector.mem_toList_iff, hl]
    exact List.mem_append_right _ (List.mem_replicate.mpr ⟨by omega, rfl⟩)
  · rw [cString, hl, List.takeWhile_append_of_pos, List.takeWhile_replicate]
    · simp [Function.comp_def]
    · intro c hc
      obtain ⟨b, hb, rfl⟩ := List.mem_map.mp hc
      simpa using toInt8_ne_zero (ne_of_mem_of_not_mem hb h0)

/-! ## From the text to the array -/

/-- A specified interface is what `configure` selects: its name fits in the field. -/
theorem configure_selects {c : InterfaceConfig} (h : Specifies s c) (h0 : 0 ∉ s)
    (localAddr cspPort : UInt8) : (configure ⟨localAddr, cspPort, c⟩).Selects c := by
  cases h with
  | loopback => exact rfl
  | can => exact ⟨rfl, copyCString_holds (by decide) (by decide)⟩
  | zmqhub => exact ⟨rfl, copyCString_holds (by decide) (by decide)⟩
  | canParam prm _ hlt =>
    exact ⟨rfl, copyCString_holds (fun hm => h0 (List.mem_append_right _ hm)) hlt⟩
  | zmqhubParam prm _ hlt =>
    exact ⟨rfl, copyCString_holds (fun hm => h0 (List.mem_append_right _ hm)) hlt⟩

/-- The text of an accepted interface specifies it; `configure` selects it, with its whole name; and
its `Display` form is accepted and gives the same `cspcl_t`. -/
theorem interface_reaches_library (h : Interface.fromStr s = .ok i) (localAddr cspPort : UInt8) :
    Specifies s i.toCspcl ∧ (configure ⟨localAddr, cspPort, i.toCspcl⟩).Selects i.toCspcl ∧
      ∃ j, Interface.fromStr i.display = .ok j ∧
        configure ⟨localAddr, cspPort, j.toCspcl⟩ = configure ⟨localAddr, cspPort, i.toCspcl⟩ := by
  obtain ⟨hs, h0⟩ := Interface.specifies_of_fromStr h
  refine ⟨hs, configure_selects hs h0 localAddr cspPort, ?_⟩
  obtain ⟨j, hj, he⟩ := Interface.fromStr_of_specifies hs.text (hs.text_nul h0)
  exact ⟨j, by rw [Interface.display_eq, hj], by rw [he]⟩

/-- A bare `can` opens `vcan0`. -/
theorem interface_can_reaches_library :
    Interface.fromStr (ofString "can") = .ok (.can none) ∧
      (configure ⟨1, 10, .can (ofString "vcan0")⟩).Selects (.can (ofString "vcan0")) ∧
      ∃ j, Interface.fromStr (ofString "can:vcan0") = .ok j ∧
        configure ⟨1, 10, j.toCspcl⟩ = configure ⟨1, 10, .can (ofString "vcan0")⟩ :=
  ⟨rfl, (interface_reaches_library (s := ofString "can") (i := .can none) rfl 1 10).2⟩

end Cspcl
