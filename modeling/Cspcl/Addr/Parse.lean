import Cspcl.Config
import Cspcl.Lib.Numeral

/-!
# Address strings (`src/cspcl.c`)

`parseAddress`, `parsePort` and `isValidAddressString` are `cspcl_parse_address`,
`cspcl_parse_port` and `cspcl_is_valid_address_string`. Each branch of `cspcl_parse_address` is a
function of its own; the first that returns decides. The lemmas say what it comes to for each
beginning of the string.
-/

namespace Cspcl

open CString

/-- `addr >= 0 && addr <= 255`, and the cast to `uint8_t`. -/
def toAddr (addr : Int) : Option UInt8 :=
  if 0 ≤ addr ∧ addr ≤ 255 then some addr.toNat.toUInt8 else none

/-- `cspcl_parse_port`. -/
def parsePort (s : CString) : UInt8 :=
  if (ofString "csp:").isPrefixOf s then
    match strchr (s.drop 4) 44 with
    | some comma =>
      let port := atoi (comma.drop 1)
      if 0 ≤ port ∧ port ≤ 31 then port.toNat.toUInt8 else portBp
    | none => portBp
  else portBp

/-- The branch for `csp:X` and `csp:X,Y`. -/
def parseCsp (s : CString) : Option (UInt8 × UInt8) :=
  if (ofString "csp:").isPrefixOf s then
    (toAddr (atoi (s.drop 4))).map fun addr => (addr, parsePort s)
  else none

/-- The branch for `ipn:X.Y`. -/
def parseIpn (s : CString) : Option (UInt8 × UInt8) :=
  if (ofString "ipn:").isPrefixOf s then
    ((scanInt (s.drop 4)).bind toAddr).map fun addr => (addr, portBp)
  else none

/-- The branch for `dtn://nodeX`. -/
def parseNode (s : CString) : Option (UInt8 × UInt8) :=
  if (ofString "dtn://node").isPrefixOf s then
    ((scanInt (s.drop 10)).bind toAddr).map fun addr => (addr, portBp)
  else none

/-- The branch for `dtn://a.dtn/...`. -/
def parseLabel (s : CString) : Option (UInt8 × UInt8) :=
  if (ofString "dtn://").isPrefixOf s then
    match s.drop 6 with
    | label :: 46 :: rest =>
      if (ofString "dtn/").isPrefixOf rest && (97 ≤ label && label ≤ 122) then
        some (label - 97 + 1, portBp)
      else none
    | _ => none
  else none

/-- The branch for a bare integer. -/
def parseBare (s : CString) : Option (UInt8 × UInt8) :=
  (toAddr (atoi s)).map fun addr => (addr, portBp)

/-- `cspcl_parse_address`: the address, and what is stored to `*dest_port`, if anything is. -/
def parseAddress (s : CString) : UInt8 × Option UInt8 :=
  match ((((parseCsp s).or (parseIpn s)).or (parseNode s)).or (parseLabel s)).or (parseBare s) with
  | some (addr, port) => (addr, some port)
  | none => (0, none)

/-- `cspcl_is_valid_address_string`. -/
def isValidAddressString (s : CString) (parsedAddr : UInt8) : Bool :=
  if parsedAddr ≠ 0 then true
  else s == ofString "0" || s == ofString "csp:0" || (ofString "ipn:0.").isPrefixOf s ||
    s == ofString "dtn://node0"

/-- The string is valid with the address that it parses to. -/
def acceptsAddress (s : CString) : Bool := isValidAddressString s (parseAddress s).1

example : parseAddress (ofString "csp:5,20") = (5, some 20) := by decide

example : acceptsAddress (ofString "0") = true ∧ acceptsAddress (ofString "xyz") = false := by
  decide

/-! ## One lemma for each beginning -/

variable {s t rest : CString} {c : UInt8} {n : Nat}

theorem toAddr_natCast (h : n ≤ 255) : toAddr n = some n.toUInt8 := by
  rw [toAddr, if_pos (by omega)]
  rfl

/-- The port is what stands after the first comma. -/
theorem parsePort_append (t : CString) : parsePort (ofString "csp:" ++ t) =
    (strchr t 44).elim portBp fun comma =>
      if 0 ≤ atoi (comma.drop 1) ∧ atoi (comma.drop 1) ≤ 31 then
        (atoi (comma.drop 1)).toNat.toUInt8 else portBp := by
  have hdrop : (ofString "csp:" ++ t).drop 4 = t := rfl
  have hcsp : (ofString "csp:").isPrefixOf (ofString "csp:" ++ t) = true :=
    List.isPrefixOf_iff_prefix.mpr (List.prefix_append ..)
  rw [parsePort, if_pos hcsp, hdrop]
  cases strchr t 44 <;> rfl

theorem parseAddress_csp (t : CString) : parseAddress (ofString "csp:" ++ t) =
    (toAddr (atoi t)).elim (0, some portBp)
      fun addr => (addr, some (parsePort (ofString "csp:" ++ t))) := by
  have hcsp : parseCsp (ofString "csp:" ++ t) =
      (toAddr (atoi t)).map fun addr => (addr, parsePort (ofString "csp:" ++ t)) := rfl
  have hipn : parseIpn (ofString "csp:" ++ t) = none := rfl
  have hnode : parseNode (ofString "csp:" ++ t) = none := rfl
  have hlabel : parseLabel (ofString "csp:" ++ t) = none := rfl
  have hbare : parseBare (ofString "csp:" ++ t) = some (0, portBp) := by
    rw [parseBare, show atoi (ofString "csp:" ++ t) = 0 from
      atoi_cons (by decide) (by decide) (by decide) (by decide)]
    rfl
  rw [parseAddress, hcsp, hipn, hnode, hlabel, hbare]
  cases toAddr (atoi t) <;> rfl

theorem parseAddress_ipn (t : CString) : parseAddress (ofString "ipn:" ++ t) =
    (((scanInt t).bind toAddr).getD 0, some portBp) := by
  have hcsp : parseCsp (ofString "ipn:" ++ t) = none := rfl
  have hipn : parseIpn (ofString "ipn:" ++ t) =
      ((scanInt t).bind toAddr).map fun addr => (addr, portBp) := rfl
  have hnode : parseNode (ofString "ipn:" ++ t) = none := rfl
  have hlabel : parseLabel (ofString "ipn:" ++ t) = none := rfl
  have hbare : parseBare (ofString "ipn:" ++ t) = some (0, portBp) := by
    rw [parseBare, show atoi (ofString "ipn:" ++ t) = 0 from
      atoi_cons (by decide) (by decide) (by decide) (by decide)]
    rfl
  rw [parseAddress, hcsp, hipn, hnode, hlabel, hbare]
  cases (scanInt t).bind toAddr <;> rfl

/-- `dtn://` with neither a node nor a label: nothing is read. -/
theorem parseBare_dtn (t : CString) : parseBare (ofString "dtn://" ++ t) = some (0, portBp) := by
  rw [parseBare, show atoi (ofString "dtn://" ++ t) = 0 from
    atoi_cons (by decide) (by decide) (by decide) (by decide)]
  rfl

theorem parseAddress_node (t : CString) : parseAddress (ofString "dtn://node" ++ t) =
    (((scanInt t).bind toAddr).getD 0, some portBp) := by
  have hcsp : parseCsp (ofString "dtn://node" ++ t) = none := rfl
  have hipn : parseIpn (ofString "dtn://node" ++ t) = none := rfl
  have hnode : parseNode (ofString "dtn://node" ++ t) =
      ((scanInt t).bind toAddr).map fun addr => (addr, portBp) := rfl
  have hlabel : parseLabel (ofString "dtn://node" ++ t) = none := rfl
  have hbare : parseBare (ofString "dtn://node" ++ t) = some (0, portBp) :=
    parseBare_dtn (ofString "node" ++ t)
  rw [parseAddress, hcsp, hipn, hnode, hlabel, hbare]
  cases (scanInt t).bind toAddr <;> rfl

/-- `dtn://` without `node`: only a label counts. -/
theorem parseAddress_dtn (h : (ofString "node").isPrefixOf t = false) :
    parseAddress (ofString "dtn://" ++ t) =
      ((parseLabel (ofString "dtn://" ++ t)).elim 0 Prod.fst, some portBp) := by
  have hcsp : parseCsp (ofString "dtn://" ++ t) = none := rfl
  have hipn : parseIpn (ofString "dtn://" ++ t) = none := rfl
  have hnode : parseNode (ofString "dtn://" ++ t) = none := by
    rw [parseNode, if_neg]
    rw [show (ofString "dtn://node").isPrefixOf (ofString "dtn://" ++ t) =
      (ofString "node").isPrefixOf t from rfl, h]
    exact Bool.false_ne_true
  rw [parseAddress, hcsp, hipn, hnode, parseBare_dtn]
  cases hl : parseLabel (ofString "dtn://" ++ t) with
  | none => rfl
  | some p =>
    have hp : p.2 = portBp := by
      unfold parseLabel at hl
      split at hl
      · split at hl
        · split at hl
          · obtain rfl := Option.some.inj hl
            rfl
          · cases hl
        · cases hl
      · cases hl
    rw [← hp]
    rfl

/-- No branch but the last one applies. -/
theorem parseAddress_bare (hcsp : (ofString "csp:").isPrefixOf s = false)
    (hipn : (ofString "ipn:").isPrefixOf s = false)
    (hdtn : (ofString "dtn://").isPrefixOf s = false) :
    parseAddress s = (toAddr (atoi s)).elim (0, none) fun addr => (addr, some portBp) := by
  have hnode : (ofString "dtn://node").isPrefixOf s = false := by
    rw [← Bool.not_eq_true, List.isPrefixOf_iff_prefix] at hdtn ⊢
    exact fun h => hdtn ((List.prefix_append (ofString "dtn://") (ofString "node")).trans h)
  simp only [parseAddress, parseCsp, parseIpn, parseNode, parseLabel, hcsp, hipn, hdtn, hnode,
    Bool.false_eq_true, if_false, Option.none_or, parseBare]
  cases toAddr (atoi s) <;> rfl

/-- A string starts with one of the schemes or with none. -/
theorem scheme_cases (s : CString) :
    (∃ t, s = ofString "csp:" ++ t) ∨ (∃ t, s = ofString "ipn:" ++ t) ∨
      (∃ t, s = ofString "dtn://node" ++ t) ∨
      (∃ t, s = ofString "dtn://" ++ t ∧ (ofString "node").isPrefixOf t = false) ∨
      ((ofString "csp:").isPrefixOf s = false ∧ (ofString "ipn:").isPrefixOf s = false ∧
        (ofString "dtn://").isPrefixOf s = false) := by
  have hpre : ∀ {p : CString}, p.isPrefixOf s = true → ∃ t, s = p ++ t := by
    intro p h
    obtain ⟨t, rfl⟩ := List.isPrefixOf_iff_prefix.mp h
    exact ⟨t, rfl⟩
  cases hcsp : (ofString "csp:").isPrefixOf s with
  | true => exact .inl (hpre hcsp)
  | false =>
    cases hipn : (ofString "ipn:").isPrefixOf s with
    | true => exact .inr (.inl (hpre hipn))
    | false =>
      cases hdtn : (ofString "dtn://").isPrefixOf s with
      | false => exact .inr (.inr (.inr (.inr ⟨rfl, rfl, rfl⟩)))
      | true =>
        obtain ⟨t, rfl⟩ := hpre hdtn
        cases hnode : (ofString "node").isPrefixOf t with
        | false => exact .inr (.inr (.inr (.inl ⟨t, rfl, hnode⟩)))
        | true =>
          obtain ⟨u, rfl⟩ := List.isPrefixOf_iff_prefix.mp hnode
          exact .inr (.inr (.inl ⟨u, rfl⟩))

/-- A string that starts with a digit has no scheme. -/
theorem no_scheme (h : isDigit c = true) :
    (ofString "csp:").isPrefixOf (c :: s) = false ∧
      (ofString "ipn:").isPrefixOf (c :: s) = false ∧
      (ofString "dtn://").isPrefixOf (c :: s) = false := by
  have hne : ∀ d, isDigit d = false → (d == c) = false := by
    rintro d hd
    rw [beq_eq_false_iff_ne]
    rintro rfl
    rw [hd] at h
    cases h
  refine ⟨?_, ?_, ?_⟩
  · show ((99 : UInt8) == c && _) = false
    rw [hne 99 (by decide), Bool.false_and]
  · show ((105 : UInt8) == c && _) = false
    rw [hne 105 (by decide), Bool.false_and]
  · show ((100 : UInt8) == c && _) = false
    rw [hne 100 (by decide), Bool.false_and]

end Cspcl
