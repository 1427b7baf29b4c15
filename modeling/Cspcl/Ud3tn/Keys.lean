import Cspcl.Addr.Grammar
import Cspcl.Ud3tn.RxBuffer

/-!
# The keys of the uD3TN links

A link of `ud3tn-integration/src/cla_csp.c` is stored under the key that `create_cla_addr` makes of
an address and a port. `contactKey` is the key that the CLA's functions look up for a CLA address,
`KeyStable` says that the key of a CLA address is itself one, of the same address and port, and
`KeyFound` that a link made by `csp_rx_task` is found under the address and port that it is for.

`link_keys_iff`: the key has no room for address 0 and loses the port, as it is read back as a bare
integer; and `cspcl_parse_port` does not know the ports above 31, from which a peer sends.
-/

namespace Cspcl.Ud3tn

open CString

/-- `cspcl_parse_address` with `dest_port` set to the default before: the address and the port of a
CLA address, if it is valid. -/
def parseClaAddr (claAddr : CString) : Option (UInt8 × UInt8) :=
  if acceptsAddress claAddr then
    some ((parseAddress claAddr).1, (parseAddress claAddr).2.getD portBp)
  else none

/-- The key that `csp_cla_get_tx_queue`, `csp_cla_start_scheduled_contact` and
`csp_cla_end_scheduled_contact` look up. -/
def contactKey (claAddr : CString) : Option CString :=
  (parseClaAddr claAddr).map fun p => createClaAddr p.1 p.2

/-- The CLA address `csp:<addr>,<port>`. -/
def cspAddr (addr port : UInt8) : CString := ofString "csp:" ++ createClaAddr addr port

/-- If the string is a CLA address, its key is one of the same address and port. -/
def KeyStable (s : CString) : Prop :=
  ∀ addr port, parseClaAddr s = some (addr, port) →
    parseClaAddr (createClaAddr addr port) = some (addr, port)

/-- The key of the link that `csp_rx_task` makes is the one that is looked up for `csp:A,P`. -/
def KeyFound (addr port : UInt8) : Prop :=
  contactKey (cspAddr addr port) = some (createClaAddr addr port)

/-- The string is `csp:`, anything, and a port after the first comma that is not the default. -/
def NamesOtherPort (s : CString) : Prop :=
  ∃ t comma, s = ofString "csp:" ++ t ∧ strchr t 44 = some comma ∧
    0 ≤ atoi (comma.drop 1) ∧ atoi (comma.drop 1) ≤ 31 ∧ atoi (comma.drop 1) ≠ 10

variable {s : CString} {addr port : UInt8}

theorem noDigit_comma (y : CString) : NoDigit (44 :: y) := noDigit_cons (by decide)

theorem createClaAddr_eq (addr port : UInt8) :
    createClaAddr addr port = decimal addr.toNat ++ 44 :: decimal port.toNat := by
  rw [createClaAddr, List.append_assoc]
  rfl

theorem toNat_le (a : UInt8) : a.toNat ≤ 255 := Nat.le_of_lt_succ a.toNat_lt

/-- A key is read as a bare integer: the port is lost. -/
theorem parseAddress_key (addr port : UInt8) :
    parseAddress (createClaAddr addr port) = (addr, some portBp) := by
  have hn := numeral_decimal addr.toNat
  have hle := toNat_le addr
  rw [createClaAddr_eq]
  cases hd : decimal addr.toNat with
  | nil => exact absurd hd hn.ne_nil
  | cons c x =>
    rw [hd] at hn
    obtain ⟨hcsp, hipn, hdtn⟩ :=
      no_scheme (s := x ++ 44 :: decimal port.toNat) (hn.digit c List.mem_cons_self)
    rw [List.cons_append, parseAddress_bare hcsp hipn hdtn, ← List.cons_append,
      atoi_numeral hn (by omega) (noDigit_comma _), toAddr_natCast hle, Option.elim_some]
    simp

/-- The only known spelling of address 0 with a comma is that with `ipn:0.`. -/
theorem prefix_of_knownZero (h : KnownZero s) (hm : (44 : UInt8) ∈ s) :
    (ofString "ipn:0.") <+: s := by
  rcases h with rfl | rfl | h | rfl
  · exact absurd hm (by decide)
  · exact absurd hm (by decide)
  · exact h
  · exact absurd hm (by decide)

theorem comma_mem (addr port : UInt8) : (44 : UInt8) ∈ createClaAddr addr port := by
  rw [createClaAddr_eq]
  exact List.mem_append_right _ List.mem_cons_self

/-- A key is none of the known spellings of address 0. -/
theorem not_knownZero_key (addr port : UInt8) : ¬ KnownZero (createClaAddr addr port) := by
  intro h
  obtain ⟨t, h⟩ := prefix_of_knownZero h (comma_mem addr port)
  -- A key starts with a digit.
  have hn := numeral_decimal addr.toNat
  rw [createClaAddr_eq] at h
  cases hd : decimal addr.toNat with
  | nil => exact absurd hd hn.ne_nil
  | cons c x =>
    rw [hd] at h hn
    have hc : (105 : UInt8) = c := (List.cons.inj h).1
    exact absurd (hn.digit c List.mem_cons_self) (by rw [← hc]; decide)

theorem parseClaAddr_key (addr port : UInt8) :
    parseClaAddr (createClaAddr addr port) = if addr = 0 then none else some (addr, portBp) := by
  have ha : acceptsAddress (createClaAddr addr port) = true ↔ addr ≠ 0 := by
    rw [accepts_iff, parseAddress_key, or_iff_left (not_knownZero_key addr port)]
  unfold parseClaAddr
  by_cases h0 : addr = 0
  · rw [if_neg (fun h => ha.mp h h0), if_pos h0]
  · rw [if_pos (ha.mpr h0), if_neg h0, parseAddress_key]
    rfl

/-- `csp:A,P` is read as address `A`, and as port `P` if that is at most 31. -/
theorem parseAddress_cspAddr (addr port : UInt8) :
    parseAddress (cspAddr addr port) =
      (addr, some (if port ≤ 31 then port else portBp)) := by
  have hx := numeral_decimal addr.toNat
  have hy := numeral_decimal port.toNat
  have hport : atoi (decimal port.toNat) = port.toNat := by
    have := atoi_numeral hy (by have := toNat_le port; omega) noDigit_nil
    rwa [List.append_nil] at this
  have hp : parsePort (cspAddr addr port) = if port ≤ 31 then port else portBp := by
    rw [cspAddr, createClaAddr_eq, parsePort_append, strchr_append (not_mem_comma hx),
      Option.elim_some, List.drop_one, List.tail_cons]
    have hle : (0 ≤ (port.toNat : Int) ∧ (port.toNat : Int) ≤ 31) ↔ port ≤ 31 := by
      rw [UInt8.le_iff_toNat_le]
      show _ ↔ port.toNat ≤ 31
      omega
    rw [hport]
    by_cases h : port ≤ 31
    · rw [if_pos (hle.mpr h), if_pos h]
      simp
    · rw [if_neg (fun h' => h (hle.mp h')), if_neg h]
  have ha : atoi (createClaAddr addr port) = addr.toNat := by
    rw [createClaAddr_eq]
    exact atoi_numeral hx (by have := toNat_le addr; omega) (noDigit_comma _)
  rw [← hp, cspAddr, parseAddress_csp, ha, toAddr_natCast (toNat_le addr), Option.elim_some]
  simp

theorem not_knownZero_cspAddr (addr port : UInt8) : ¬ KnownZero (cspAddr addr port) := by
  intro h
  obtain ⟨t, h⟩ := prefix_of_knownZero h (List.mem_append_right _ (comma_mem addr port))
  exact absurd (List.cons.inj h).1 (by decide)

theorem createClaAddr_inj {p q : UInt8} (h : createClaAddr addr p = createClaAddr addr q) :
    p = q := by
  rw [createClaAddr_eq, createClaAddr_eq, List.append_cancel_left_eq] at h
  have hv := (numeral_decimal p.toNat).value
  rw [(List.cons.inj h).2, (numeral_decimal q.toNat).value] at hv
  exact (UInt8.toNat_inj.mp hv).symm

/-- A link that `csp_rx_task` makes is found under its address and port unless the address is 0 or
the port is above 31. -/
theorem keyFound_iff (addr port : UInt8) : KeyFound addr port ↔ addr ≠ 0 ∧ port ≤ 31 := by
  have ha : acceptsAddress (cspAddr addr port) = true ↔ addr ≠ 0 := by
    rw [accepts_iff, parseAddress_cspAddr, or_iff_left (not_knownZero_cspAddr addr port)]
  unfold KeyFound contactKey parseClaAddr
  by_cases h0 : addr = 0
  · rw [if_neg (fun h => ha.mp h h0)]
    exact iff_of_false nofun fun h => h.1 h0
  · rw [if_pos (ha.mpr h0), parseAddress_cspAddr, Option.map_some, Option.some.injEq]
    dsimp only [Option.getD_some]
    by_cases hp : port ≤ 31
    · rw [if_pos hp]
      exact iff_of_true rfl ⟨h0, hp⟩
    · rw [if_neg hp]
      refine iff_of_false (fun h => ?_) fun h => hp h.2
      have := createClaAddr_inj h
      exact hp (this ▸ by decide)

/-- What `cspcl_parse_port` finds. -/
theorem parsePort_ne_iff : parsePort s ≠ portBp ↔ NamesOtherPort s := by
  unfold NamesOtherPort
  by_cases hp : (ofString "csp:").isPrefixOf s = true
  swap
  · rw [parsePort, if_neg hp]
    refine iff_of_false (fun h => h rfl) ?_
    rintro ⟨t, -, rfl, -⟩
    exact hp (List.isPrefixOf_iff_prefix.mpr (List.prefix_append ..))
  obtain ⟨t, rfl⟩ := List.isPrefixOf_iff_prefix.mp hp
  rw [parsePort_append]
  cases hc : strchr t 44 with
  | none =>
    refine iff_of_false (fun h => h rfl) ?_
    rintro ⟨u, comma, he, hu, -⟩
    rw [← List.append_cancel_left he, hc] at hu
    cases hu
  | some comma =>
    have hiff : (if 0 ≤ atoi (comma.drop 1) ∧ atoi (comma.drop 1) ≤ 31 then
        (atoi (comma.drop 1)).toNat.toUInt8 else portBp) ≠ portBp ↔
        0 ≤ atoi (comma.drop 1) ∧ atoi (comma.drop 1) ≤ 31 ∧ atoi (comma.drop 1) ≠ 10 := by
      generalize atoi (comma.drop 1) = port
      split
      · rename_i h
        rw [ne_eq, ← UInt8.toNat_inj]
        simp [portBp]
        omega
      · rename_i h
        exact iff_of_false (fun h' => h' rfl) fun h' => h ⟨h'.1, h'.2.1⟩
    refine hiff.trans ⟨fun h => ⟨t, comma, rfl, hc, h⟩, ?_⟩
    rintro ⟨u, comma', he, hu, h⟩
    rw [← List.append_cancel_left he, hc] at hu
    cases hu
    exact h

/-- The port that a CLA address stands for is that of `cspcl_parse_port`. -/
theorem parseAddress_port (h : (parseAddress s).1 ≠ 0) :
    (parseAddress s).2.getD portBp = parsePort s := by
  have hother : (ofString "csp:").isPrefixOf s = false → parsePort s = portBp := by
    intro hp
    rw [parsePort, if_neg (by rw [hp]; exact Bool.false_ne_true)]
  rcases scheme_cases s with ⟨t, rfl⟩ | ⟨t, rfl⟩ | ⟨t, rfl⟩ | ⟨t, rfl, ht⟩ | ⟨hcsp, hipn, hdtn⟩
  · rw [parseAddress_csp] at h ⊢
    cases ha : toAddr (atoi t) with
    | none =>
      rw [ha] at h
      exact absurd rfl h
    | some a => rfl
  · rw [parseAddress_ipn, hother rfl]
    rfl
  · rw [parseAddress_node, hother rfl]
    rfl
  · rw [parseAddress_dtn ht, hother rfl]
    rfl
  · rw [parseAddress_bare hcsp hipn hdtn, hother hcsp]
    cases toAddr (atoi s) <;> rfl

theorem parseAddress_knownZero (h : KnownZero s) : (parseAddress s).1 = 0 := by
  rcases h with rfl | rfl | ⟨t, rfl⟩ | rfl
  · decide
  · decide
  · show (parseAddress (ofString "ipn:" ++ (ofString "0" ++ 46 :: t))).1 = 0
    rw [parseAddress_ipn, scanInt_numeral numeral_zero (by decide) (noDigit_cons (by decide))]
    rfl
  · decide

/-- The key of a CLA address is itself one, of the same address and port, unless it stands for
address 0 or names a port other than the default; and a link that `csp_rx_task` makes is found
unless its address is 0 or its port is above 31. -/
theorem link_keys_iff (s : CString) (addr port : UInt8) :
    (KeyStable s ↔ acceptsAddress s = true → ¬ KnownZero s ∧ ¬ NamesOtherPort s) ∧
      (KeyFound addr port ↔ addr ≠ 0 ∧ port ≤ 31) := by
  refine ⟨?_, keyFound_iff addr port⟩
  by_cases ha : acceptsAddress s = true
  swap
  · refine iff_of_true (fun a p h => ?_) fun h => absurd h ha
    rw [parseClaAddr, if_neg ha] at h
    cases h
  have hs : KeyStable s ↔ parseClaAddr (createClaAddr (parseAddress s).1
      ((parseAddress s).2.getD portBp)) =
      some ((parseAddress s).1, (parseAddress s).2.getD portBp) := by
    unfold KeyStable
    rw [parseClaAddr, if_pos ha]
    constructor
    · exact fun h => h _ _ rfl
    · rintro h a p heq
      cases heq
      exact h
  rw [hs, parseClaAddr_key]
  by_cases h0 : (parseAddress s).1 = 0
  · rw [if_pos h0]
    refine iff_of_false nofun fun h => (h ha).1 ?_
    exact (accepts_iff.mp ha).resolve_left fun hne => hne h0
  · have hz : ¬ KnownZero s := fun hk => h0 (parseAddress_knownZero hk)
    rw [if_neg h0, parseAddress_port h0, ← parsePort_ne_iff]
    simp only [Option.some.injEq, Prod.mk.injEq, true_and, ha, true_implies, ne_eq, not_not, hz,
      not_false_eq_true]
    exact eq_comm

/-- The key of `csp:5,20` is read back with port 10, and a link from port 40 of node 5 is looked up
under port 10. -/
theorem link_key_loses_port :
    ¬ KeyStable (ofString "csp:5,20") ∧ ¬ KeyFound 5 40 := by
  refine ⟨fun h => ?_, ?_⟩
  · have := h 5 20 (by decide)
    exact absurd this (by decide)
  · rw [KeyFound]
    decide

end Cspcl.Ud3tn
