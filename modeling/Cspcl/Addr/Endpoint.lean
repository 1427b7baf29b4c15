import Cspcl.Addr.Parse

/-!
# Endpoint identifiers (`src/cspcl.c`)

`endpointToAddr` is `cspcl_endpoint_to_addr`, a cascade written apart from that of
`cspcl_parse_address`: it has no branch for `csp:` and none for a bare integer.

`endpoint_agrees`: the two read the same address from every string that starts with `ipn:` or
`dtn://`. The bare-integer branch, in which `cspcl_parse_address` ends there, reads 0.
-/

namespace Cspcl

open CString

/-- The branch for `ipn:X.Y`. -/
def endpointIpn (endpointId : CString) : Option UInt8 :=
  if (ofString "ipn:").isPrefixOf endpointId then
    match scanInt (endpointId.drop 4) with
    | some node => if 0 ≤ node ∧ node ≤ 255 then some node.toNat.toUInt8 else none
    | none => none
  else none

/-- The branch for `dtn://nodeX`. -/
def endpointNode (endpointId : CString) : Option UInt8 :=
  if (ofString "dtn://node").isPrefixOf endpointId then
    match scanInt (endpointId.drop 10) with
    | some node => if 0 ≤ node ∧ node ≤ 255 then some node.toNat.toUInt8 else none
    | none => none
  else none

/-- The branch for `dtn://a.dtn/...`. -/
def endpointLabel (endpointId : CString) : Option UInt8 :=
  if (ofString "dtn://").isPrefixOf endpointId then
    let name := endpointId.drop 6
    if name ≠ [] ∧ name[1]? = some 46 ∧ (ofString "dtn/").isPrefixOf (name.drop 2) = true then
      let label := name.headD 0
      if 97 ≤ label ∧ label ≤ 122 then some (label - 97 + 1) else none
    else none
  else none

/-- `cspcl_endpoint_to_addr`. -/
def endpointToAddr (endpointId : CString) : UInt8 :=
  (((endpointIpn endpointId).or (endpointNode endpointId)).or (endpointLabel endpointId)).getD 0

example : endpointToAddr (ofString "dtn://node-3") = 0 ∧
    endpointToAddr (ofString "dtn://b.dtn/x") = 2 := by
  decide

variable {s : CString}

/-- The branches of the two cascades for one scheme read the same address. -/
theorem endpointIpn_eq (s : CString) : endpointIpn s = (parseIpn s).map Prod.fst := by
  unfold endpointIpn parseIpn
  split
  · cases scanInt (s.drop 4) with
    | none => rfl
    | some node =>
      rw [Option.bind_some, toAddr]
      dsimp only
      split <;> rfl
  · rfl

theorem endpointNode_eq (s : CString) : endpointNode s = (parseNode s).map Prod.fst := by
  unfold endpointNode parseNode
  split
  · cases scanInt (s.drop 10) with
    | none => rfl
    | some node =>
      rw [Option.bind_some, toAddr]
      dsimp only
      split <;> rfl
  · rfl

theorem endpointLabel_eq (s : CString) : endpointLabel s = (parseLabel s).map Prod.fst := by
  generalize he : endpointLabel s = e
  unfold parseLabel
  split
  · rename_i hpre
    rw [endpointLabel, if_pos hpre] at he
    split
    · rename_i label rest heq
      rw [← he, heq]
      by_cases hr : (ofString "dtn/").isPrefixOf rest = true
      · by_cases hl : 97 ≤ label ∧ label ≤ 122 <;> simp [hr, hl]
      · simp [hr]
    · rename_i hne
      rw [← he, if_neg]
      · rfl
      · rintro ⟨hnil, hdot, -⟩
        cases hn : s.drop 6 with
        | nil => exact hnil hn
        | cons label t =>
          rw [hn, List.getElem?_cons_succ] at hdot
          cases t with
          | nil => cases hdot
          | cons dot rest =>
            obtain rfl := Option.some.inj hdot
            exact hne label rest hn
  · rename_i hpre
    rw [← he, endpointLabel, if_neg hpre]
    rfl

/-- The branches of `cspcl_parse_address` for the three schemes. -/
def parseScheme (s : CString) : Option (UInt8 × UInt8) :=
  ((parseIpn s).or (parseNode s)).or (parseLabel s)

theorem endpointToAddr_eq (s : CString) :
    endpointToAddr s = ((parseScheme s).map Prod.fst).getD 0 := by
  rw [endpointToAddr, endpointIpn_eq, endpointNode_eq, endpointLabel_eq, parseScheme]
  cases parseIpn s <;> cases parseNode s <;> rfl

/-- Each of the three branches that returns sets the port of the bundle protocol. -/
theorem port_of_parseScheme {p : UInt8 × UInt8} (h : parseScheme s = some p) : p.2 = portBp := by
  rcases Option.or_eq_some_iff.mp h with h | ⟨-, h⟩
  · rcases Option.or_eq_some_iff.mp h with h | ⟨-, h⟩
    · unfold parseIpn at h
      split at h
      · obtain ⟨addr, -, rfl⟩ := Option.map_eq_some_iff.mp h
        rfl
      · cases h
    · unfold parseNode at h
      split at h
      · obtain ⟨addr, -, rfl⟩ := Option.map_eq_some_iff.mp h
        rfl
      · cases h
  · unfold parseLabel at h
    split at h
    · split at h
      · split at h
        · obtain rfl := Option.some.inj h
          rfl
        · cases h
      · cases h
    · cases h

/-- One of the two schemes of endpoint identifiers. -/
def IsEndpoint (s : CString) : Prop := ofString "ipn:" <+: s ∨ ofString "dtn://" <+: s

theorem isEndpoint_of_parseScheme {p : UInt8 × UInt8} (h : parseScheme s = some p) :
    IsEndpoint s := by
  have hif : ∀ {pre : CString} {o : Option (UInt8 × UInt8)},
      (if pre.isPrefixOf s = true then o else none) = some p → pre <+: s := by
    intro pre o ho
    by_contra hp
    rw [if_neg (mt List.isPrefixOf_iff_prefix.mp hp)] at ho
    cases ho
  rcases Option.or_eq_some_iff.mp h with h | ⟨-, h⟩
  · rcases Option.or_eq_some_iff.mp h with h | ⟨-, h⟩
    · exact .inl (hif h)
    · exact .inr ((List.prefix_append (ofString "dtn://") (ofString "node")).trans (hif h))
  · exact .inr (hif h)

/-- On these schemes the branches for `csp:` and for a bare integer are harmless: the first does
not apply, and the second reads 0, as the string does not start with a number. -/
theorem parseAddress_endpoint (h : IsEndpoint s) :
    parseAddress s = (((parseScheme s).map Prod.fst).getD 0, some portBp) := by
  have hother : parseCsp s = none ∧ parseBare s = some (0, portBp) := by
    rcases h with ⟨t, rfl⟩ | ⟨t, rfl⟩
    · refine ⟨rfl, ?_⟩
      rw [parseBare, show atoi (ofString "ipn:" ++ t) = 0 from
        atoi_cons (by decide) (by decide) (by decide) (by decide)]
      rfl
    · exact ⟨rfl, parseBare_dtn t⟩
  have hor : parseAddress s = ((parseScheme s).or (parseBare s)).elim (0, none)
      fun p => (p.1, some p.2) := by
    rw [parseAddress, hother.1, Option.none_or, ← parseScheme]
    cases (parseScheme s).or (parseBare s) <;> rfl
  rw [hor, hother.2]
  cases hp : parseScheme s with
  | none => rfl
  | some p =>
    rw [← port_of_parseScheme hp]
    rfl

/-- `cspcl_endpoint_to_addr` and `cspcl_parse_address` read the same address from an endpoint
identifier; where the first reads an address, the second sets the port of the bundle protocol. -/
theorem endpoint_agrees (s : CString) :
    ((ofString "ipn:" <+: s ∨ ofString "dtn://" <+: s) →
      endpointToAddr s = (parseAddress s).1) ∧
    (endpointToAddr s ≠ 0 → (parseAddress s).2 = some portBp) := by
  constructor
  · intro h
    rw [endpointToAddr_eq, parseAddress_endpoint h]
  · intro h
    rw [endpointToAddr_eq] at h
    cases hp : parseScheme s with
    | none =>
      rw [hp] at h
      exact absurd rfl h
    | some p => rw [parseAddress_endpoint (isEndpoint_of_parseScheme hp)]

end Cspcl
