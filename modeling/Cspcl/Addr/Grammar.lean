import Cspcl.Addr.Parse

/-!
# The grammar of address strings

`Denotes` is the grammar that `src/cspcl.h` documents: the forms of an address string, with the
address and the port that each stands for. `AcceptsByGrammar`: the parser accepts a string iff it
has one of the forms, and then returns what it stands for.

* `parseAddress_of_denotes`: what a string of the grammar stands for is what the parser returns.
* `accepts_by_grammar_iff`: `AcceptsByGrammar` fails for three kinds of strings. Address 0 is
  accepted in the spellings of a list of literals only (`ZeroMissed`). A string that is not of the
  grammar is accepted if a number from 1 to 255 can be read where its form has the address
  (`ReadsNumber`), or if it starts with `ipn:0.` (`JunkAfterZero`).
-/

namespace Cspcl

open CString

/-- The string has one of the documented forms, with this address and port. -/
inductive Denotes : CString → UInt8 → UInt8 → Prop where
  /-- `ipn:X.Y`. -/
  | ipn {x y : CString} {n m : Nat} : Numeral x n → n ≤ 255 → Numeral y m →
    Denotes (ofString "ipn:" ++ (x ++ 46 :: y)) n.toUInt8 portBp
  /-- `dtn://nodeX`, and a path. -/
  | node {x path : CString} {n : Nat} : Numeral x n → n ≤ 255 → path.head?.all (· = 47) = true →
    Denotes (ofString "dtn://node" ++ (x ++ path)) n.toUInt8 portBp
  /-- `dtn://a.dtn/...`. -/
  | label {c : UInt8} {rest : CString} : 97 ≤ c → c ≤ 122 →
    Denotes (ofString "dtn://" ++ c :: (ofString ".dtn/" ++ rest)) (c - 97 + 1) portBp
  /-- `csp:X`. -/
  | csp {x : CString} {n : Nat} : Numeral x n → n ≤ 255 →
    Denotes (ofString "csp:" ++ x) n.toUInt8 portBp
  /-- `csp:X,Y`. -/
  | cspPort {x y : CString} {n m : Nat} : Numeral x n → n ≤ 255 → Numeral y m → m ≤ 31 →
    Denotes (ofString "csp:" ++ (x ++ 44 :: y)) n.toUInt8 m.toUInt8
  /-- `X`. -/
  | bare {x : CString} {n : Nat} : Numeral x n → n ≤ 255 → Denotes x n.toUInt8 portBp

/-- The string has one of the documented forms. -/
def InGrammar (s : CString) : Prop := ∃ addr port, Denotes s addr port

/-- The parser accepts the string exactly if it has one of the forms, and returns what it stands
for. -/
structure AcceptsByGrammar (s : CString) : Prop where
  accepted_iff : acceptsAddress s = true ↔ InGrammar s
  parsed : ∀ addr port, Denotes s addr port → parseAddress s = (addr, some port)

/-- The spellings of address 0 that `cspcl_is_valid_address_string` knows. -/
def KnownZero (s : CString) : Prop :=
  s = ofString "0" ∨ s = ofString "csp:0" ∨ (ofString "ipn:0.") <+: s ∨ s = ofString "dtn://node0"

/-- What `atoi` or `sscanf` reads where the form of the string has its address. -/
def addressNumber (s : CString) : Int :=
  if (ofString "csp:").isPrefixOf s then atoi (s.drop 4)
  else if (ofString "ipn:").isPrefixOf s then (scanInt (s.drop 4)).getD 0
  else if (ofString "dtn://node").isPrefixOf s then (scanInt (s.drop 10)).getD 0
  else if (ofString "dtn://").isPrefixOf s then 0
  else atoi s

/-- Address 0 in a spelling that is not known. -/
def ZeroMissed (s : CString) : Prop := (∃ port, Denotes s 0 port) ∧ ¬ KnownZero s

/-- Not of the grammar, but an address can be read. -/
def ReadsNumber (s : CString) : Prop :=
  ¬ InGrammar s ∧ 1 ≤ addressNumber s ∧ addressNumber s ≤ 255

/-- Not of the grammar, but the beginning of a known spelling of address 0. -/
def JunkAfterZero (s : CString) : Prop := ¬ InGrammar s ∧ (ofString "ipn:0.") <+: s

variable {s x y : CString} {addr port c : UInt8} {n m : Nat}

/-! ## Strings of the grammar -/

theorem noDigit_path {path : CString} (h : path.head?.all (· = 47) = true) : NoDigit path := by
  cases path with
  | nil => exact noDigit_nil
  | cons c path =>
    obtain rfl : c = 47 := by simpa using h
    exact noDigit_cons (by decide)

theorem not_mem_comma (h : Numeral x n) : (44 : UInt8) ∉ x :=
  fun hm => absurd (h.digit 44 hm) (by decide)

theorem parsePort_csp (h : Numeral x n) : parsePort (ofString "csp:" ++ x) = portBp := by
  rw [parsePort_append, strchr_none (not_mem_comma h), Option.elim_none]

theorem parsePort_cspPort (hx : Numeral x n) (hy : Numeral y m) (hm : m ≤ 31) :
    parsePort (ofString "csp:" ++ (x ++ 44 :: y)) = m.toUInt8 := by
  have ha : atoi y = m := by
    have := atoi_numeral hy (by omega) noDigit_nil
    rwa [List.append_nil] at this
  rw [parsePort_append, strchr_append (not_mem_comma hx), Option.elim_some, List.drop_one,
    List.tail_cons, ha, if_pos (by omega)]
  rfl

/-- A label is read as its letter's index. -/
theorem parseLabel_label (ha : 97 ≤ c) (hz : c ≤ 122) (rest : CString) :
    parseLabel (ofString "dtn://" ++ c :: (ofString ".dtn/" ++ rest)) =
      some (c - 97 + 1, portBp) := by
  show (if (97 ≤ c && c ≤ 122 : Bool) = true then some (c - 97 + 1, portBp) else none) = _
  rw [if_pos (by simp [ha, hz])]

/-- What a string of the grammar stands for is what the parser returns. -/
theorem parseAddress_of_denotes (h : Denotes s addr port) : parseAddress s = (addr, some port) := by
  cases h with
  | ipn hx hn hy =>
    rw [parseAddress_ipn, scanInt_numeral hx (by omega) (noDigit_cons (by decide)),
      Option.bind_some, toAddr_natCast hn]
    rfl
  | node hx hn hp =>
    rw [parseAddress_node, scanInt_numeral hx (by omega) (noDigit_path hp), Option.bind_some,
      toAddr_natCast hn]
    rfl
  | @label c rest ha hz =>
    rw [parseAddress_dtn, parseLabel_label ha hz]
    · rfl
    · show ((110 : UInt8) == c && ((111 : UInt8) == 46 && _)) = false
      rw [show ((111 : UInt8) == 46) = false from rfl, Bool.false_and, Bool.and_false]
  | @csp x n hx hn =>
    have ha := atoi_numeral hx (by omega) noDigit_nil
    rw [List.append_nil] at ha
    rw [parseAddress_csp, ha, toAddr_natCast hn, parsePort_csp hx, Option.elim_some]
  | cspPort hx hn hy hm =>
    rw [parseAddress_csp, atoi_numeral hx (by omega) (noDigit_cons (by decide)),
      toAddr_natCast hn, parsePort_cspPort hx hy hm, Option.elim_some]
  | @bare _ n hx hn =>
    have ha := atoi_numeral hx (by omega) noDigit_nil
    rw [List.append_nil] at ha
    cases s with
    | nil => exact absurd rfl hx.ne_nil
    | cons c s =>
      obtain ⟨hcsp, hipn, hdtn⟩ := no_scheme (s := s) (hx.digit c List.mem_cons_self)
      rw [parseAddress_bare hcsp hipn hdtn, ha, toAddr_natCast hn, Option.elim_some]

/-! ## Strings that are accepted -/

theorem accepts_iff : acceptsAddress s = true ↔ (parseAddress s).1 ≠ 0 ∨ KnownZero s := by
  unfold acceptsAddress isValidAddressString KnownZero
  split
  · rename_i h
    exact iff_of_true rfl (.inl h)
  · rename_i h
    simp only [ne_eq, not_not] at h
    simp [h, or_assoc, List.isPrefixOf_iff_prefix]

/-- A label is of the grammar. -/
theorem inGrammar_of_label {t : CString} {p : UInt8 × UInt8}
    (h : parseLabel (ofString "dtn://" ++ t) = some p) : InGrammar (ofString "dtn://" ++ t) := by
  rw [parseLabel, if_pos (List.isPrefixOf_iff_prefix.mpr (List.prefix_append ..))] at h
  split at h
  · rename_i c rest heq
    obtain rfl : t = c :: 46 :: rest := heq
    split at h
    · rename_i hc
      simp only [Bool.and_eq_true, decide_eq_true_eq, List.isPrefixOf_iff_prefix] at hc
      obtain ⟨⟨rest, rfl⟩, ha, hz⟩ := hc
      exact ⟨_, _, .label ha hz⟩
    · cases h
  · cases h

theorem toAddr_getD_ne_zero {i : Int} : (toAddr i).getD 0 ≠ 0 ↔ 1 ≤ i ∧ i ≤ 255 := by
  unfold toAddr
  split
  · rename_i h
    rw [Option.getD_some, ne_eq, ← UInt8.toNat_inj]
    simp
    omega
  · rename_i h
    simp
    omega

theorem bind_toAddr_getD_ne_zero {o : Option Int} :
    (o.bind toAddr).getD 0 ≠ 0 ↔ 1 ≤ o.getD 0 ∧ o.getD 0 ≤ 255 := by
  cases o with
  | none => simp
  | some i => exact toAddr_getD_ne_zero

theorem elim_toAddr_fst {i : Int} {p q : Option UInt8} :
    ((toAddr i).elim (0, q) fun addr => (addr, p)).1 = (toAddr i).getD 0 := by
  cases toAddr i <;> rfl

/-- A string that is not of the grammar: the parser returns an address other than 0 iff it can
read one. -/
theorem parseAddress_ne_zero (h : ¬ InGrammar s) :
    (parseAddress s).1 ≠ 0 ↔ 1 ≤ addressNumber s ∧ addressNumber s ≤ 255 := by
  rcases scheme_cases s with ⟨t, rfl⟩ | ⟨t, rfl⟩ | ⟨t, rfl⟩ | ⟨t, rfl, ht⟩ | ⟨hcsp, hipn, hdtn⟩
  · rw [parseAddress_csp, elim_toAddr_fst]
    exact toAddr_getD_ne_zero
  · rw [parseAddress_ipn]
    exact bind_toAddr_getD_ne_zero
  · rw [parseAddress_node]
    exact bind_toAddr_getD_ne_zero
  · have hn : addressNumber (ofString "dtn://" ++ t) = 0 := by
      show (if (ofString "node").isPrefixOf t = true then _ else (0 : Int)) = 0
      rw [if_neg (by rw [ht]; exact Bool.false_ne_true)]
    have hl : parseLabel (ofString "dtn://" ++ t) = none := by
      cases hl : parseLabel (ofString "dtn://" ++ t) with
      | none => rfl
      | some p => exact absurd (inGrammar_of_label hl) h
    rw [parseAddress_dtn ht, hl, hn]
    exact iff_of_false (fun h0 => h0 rfl) (by decide)
  · have hnode : (ofString "dtn://node").isPrefixOf s = false := by
      rw [← Bool.not_eq_true, List.isPrefixOf_iff_prefix] at hdtn ⊢
      exact fun h => hdtn ((List.prefix_append (ofString "dtn://") (ofString "node")).trans h)
    have hn : addressNumber s = atoi s := by
      simp only [addressNumber, hcsp, hipn, hnode, hdtn, Bool.false_eq_true, if_false]
    rw [parseAddress_bare hcsp hipn hdtn, elim_toAddr_fst, hn]
    exact toAddr_getD_ne_zero

theorem numeral_zero : Numeral (ofString "0") 0 := numeral_decimal 0

/-- A known spelling of address 0 is of the grammar, up to what follows `ipn:0.`. -/
theorem KnownZero.inGrammar (h : KnownZero s) : InGrammar s ∨ (ofString "ipn:0.") <+: s := by
  rcases h with rfl | rfl | h | rfl
  · exact .inl ⟨_, _, .bare numeral_zero (by decide)⟩
  · exact .inl ⟨_, _, .csp numeral_zero (by decide)⟩
  · exact .inr h
  · exact .inl ⟨_, _, @Denotes.node _ [] 0 numeral_zero (by decide) rfl⟩

/-- The parser accepts the strings of the grammar, and only those, except for these three kinds. -/
theorem accepts_by_grammar_iff (s : CString) :
    AcceptsByGrammar s ↔ ¬ ZeroMissed s ∧ ¬ ReadsNumber s ∧ ¬ JunkAfterZero s := by
  constructor
  · intro h
    refine ⟨?_, ?_, ?_⟩
    · rintro ⟨⟨port, hd⟩, hk⟩
      rcases accepts_iff.mp (h.accepted_iff.mpr ⟨0, port, hd⟩) with hne | hz
      · rw [parseAddress_of_denotes hd] at hne
        exact hne rfl
      · exact hk hz
    · rintro ⟨hg, hn⟩
      exact hg (h.accepted_iff.mp (accepts_iff.mpr (.inl ((parseAddress_ne_zero hg).mpr hn))))
    · rintro ⟨hg, hp⟩
      exact hg (h.accepted_iff.mp (accepts_iff.mpr (.inr (.inr (.inr (.inl hp))))))
  · rintro ⟨hzero, hnum, hjunk⟩
    refine ⟨⟨fun ha => ?_, ?_⟩, fun addr port hd => parseAddress_of_denotes hd⟩
    · by_contra hg
      rcases accepts_iff.mp ha with hne | hk
      · exact hnum ⟨hg, (parseAddress_ne_zero hg).mp hne⟩
      · rcases hk.inGrammar with hg' | hp
        · exact hg hg'
        · exact hjunk ⟨hg, hp⟩
    · rintro ⟨addr, port, hd⟩
      rw [accepts_iff, parseAddress_of_denotes hd]
      by_cases h0 : addr = 0
      · subst h0
        by_contra hno
        exact hzero ⟨⟨port, hd⟩, fun hk => hno (.inr hk)⟩
      · exact .inl h0

/-- `csp:0,5` is of the grammar, and rejected. -/
theorem csp_zero_port_rejected :
    Denotes (ofString "csp:0,5") 0 5 ∧ acceptsAddress (ofString "csp:0,5") = false ∧
      ¬ AcceptsByGrammar (ofString "csp:0,5") := by
  have hd : Denotes (ofString "csp:0,5") 0 5 :=
    .cspPort numeral_zero (by decide) (numeral_decimal 5) (by decide)
  have hr : acceptsAddress (ofString "csp:0,5") = false := by decide
  refine ⟨hd, hr, fun h => ?_⟩
  rw [h.accepted_iff.mpr ⟨0, 5, hd⟩] at hr
  cases hr

end Cspcl
