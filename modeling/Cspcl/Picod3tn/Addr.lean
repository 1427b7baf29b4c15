import Cspcl.Lib.RustStr

/-!
# Peer addresses of picod3tn (`rust-bindings/picod3tn-cspcl/src/addr.rs`)

A `CspclAddr` carries the ranges that its two constructors check: `new` on numbers, and `fromStr`
on the text `<addr>:<port>`.

`fromStr_exact`: `fromStr` accepts exactly the decimal numerals in range around a colon, and
refuses every other string for the first part that is wrong; `display` is read back.
-/

namespace Cspcl.Picod3tn

open RustStr

/-- `MAX_NODE_ADDR`. -/
def maxNodeAddr : UInt8 := 30

/-- `MIN_PORT`. -/
def minPort : UInt8 := 7

/-- `MAX_PORT`. -/
def maxPort : UInt8 := 31

/-- `AddrError`. -/
inductive AddrError where
  /-- `expected <addr>:<port>, e.g. 2:10`. -/
  | format
  /-- `invalid CSP node address: expected 0 to {MAX_NODE_ADDR}`. -/
  | nodeAddr
  /-- `invalid CSP port: expected {MIN_PORT} to {MAX_PORT}`. -/
  | port
  deriving DecidableEq, Repr

/-- `CspclAddr`, with what its constructors check. -/
structure CspclAddr where
  addr : UInt8
  port : UInt8
  addr_le : addr ≤ maxNodeAddr
  port_range : minPort ≤ port ∧ port ≤ maxPort
  deriving DecidableEq

/-- `parse_u8`. -/
def parseU8 (s : RustStr) : Option UInt8 :=
  if s.isEmpty || !(bytes s).all isAsciiDigit then none else u8FromStr s

/-- `Option::filter` and `ok_or` on what `parse_u8` returns. -/
def parseWhere (p : UInt8 → Bool) (e : AddrError) (s : RustStr) : Except AddrError UInt8 :=
  ((parseU8 s).filter p).elim (.error e) .ok

/-- `parse_node_addr`. -/
def parseNodeAddr (s : RustStr) : Except AddrError UInt8 :=
  parseWhere (fun addr => addr ≤ maxNodeAddr) .nodeAddr s

/-- `parse_port`. -/
def parsePort (s : RustStr) : Except AddrError UInt8 :=
  parseWhere (fun port => minPort ≤ port && port ≤ maxPort) .port s

variable {s x y : RustStr} {p : UInt8 → Bool} {e e' : AddrError} {v : UInt8}

theorem parseU8_eq_some : parseU8 s = some v ↔ IsDigits s v.toNat := by
  unfold parseU8
  split
  · rename_i h
    refine iff_of_false nofun fun hd => ?_
    rw [Bool.or_eq_true, List.isEmpty_iff, Bool.not_eq_true', ← Bool.not_eq_true,
      all_bytes_iff] at h
    exact h.elim hd.ne_nil fun h => h hd.digit
  · rename_i h
    rw [Bool.or_eq_true, List.isEmpty_iff, Bool.not_eq_true', ← Bool.not_eq_true,
      all_bytes_iff, not_or, not_not] at h
    exact u8FromStr_eq_some h.1 h.2

theorem parseWhere_eq_ok : parseWhere p e s = .ok v ↔ IsDigits s v.toNat ∧ p v = true := by
  rw [← parseU8_eq_some, ← Option.filter_eq_some_iff, parseWhere]
  cases (parseU8 s).filter p with
  | none => exact iff_of_false nofun nofun
  | some w => simp

/-- The only error is the parser's own. -/
theorem parseWhere_eq_error :
    parseWhere p e s = .error e' ↔ e = e' ∧ ∀ v, IsDigits s v.toNat → p v = false := by
  have hnone : (∀ v, IsDigits s v.toNat → p v = false) ↔ (parseU8 s).filter p = none := by
    simp [Option.filter_eq_none_iff, parseU8_eq_some]
  rw [hnone, parseWhere]
  cases (parseU8 s).filter p with
  | none => simp
  | some w => exact iff_of_false nofun fun h => nomatch h.2

theorem parseNodeAddr_eq_ok : parseNodeAddr s = .ok v ↔ IsDigits s v.toNat ∧ v ≤ maxNodeAddr := by
  rw [parseNodeAddr, parseWhere_eq_ok, decide_eq_true_eq]

theorem parsePort_eq_ok :
    parsePort s = .ok v ↔ IsDigits s v.toNat ∧ minPort ≤ v ∧ v ≤ maxPort := by
  rw [parsePort, parseWhere_eq_ok, Bool.and_eq_true, decide_eq_true_eq, decide_eq_true_eq]

namespace CspclAddr

/-- `CspclAddr::new`. -/
def new (addr port : UInt8) : Except AddrError CspclAddr :=
  if ha : maxNodeAddr < addr then .error .nodeAddr
  else if hp : port < minPort ∨ maxPort < port then .error .port
  else .ok {
    addr, port
    addr_le := UInt8.not_lt.mp ha
    port_range := ⟨UInt8.not_lt.mp (not_or.mp hp).1, UInt8.not_lt.mp (not_or.mp hp).2⟩ }

/-- `CspclAddr::from_str`. -/
def fromStr (s : RustStr) : Except AddrError CspclAddr :=
  match splitOnce ':' s with
  | none => .error .format
  | some (addr, port) =>
    match ha : parseNodeAddr addr with
    | .error e => .error e
    | .ok a =>
      match hp : parsePort port with
      | .error e => .error e
      | .ok p => .ok {
          addr := a, port := p
          addr_le := (parseNodeAddr_eq_ok.mp ha).2
          port_range := (parsePort_eq_ok.mp hp).2 }

/-- `Display`. -/
def display (a : CspclAddr) : RustStr := decimal a.addr.toNat ++ ':' :: decimal a.port.toNat

end CspclAddr

example : (CspclAddr.fromStr ['0', '0', '2', ':', '1', '0']).map CspclAddr.display =
    .ok ['2', ':', '1', '0'] := by decide

/-- Digits of a number from 0 to `MAX_NODE_ADDR`. -/
def IsNodeAddr (x : RustStr) : Prop := ∃ n, IsDigits x n ∧ n ≤ maxNodeAddr.toNat

/-- Digits of a number from `MIN_PORT` to `MAX_PORT`. -/
def IsPort (x : RustStr) : Prop := ∃ n, IsDigits x n ∧ minPort.toNat ≤ n ∧ n ≤ maxPort.toNat

/-- What `from_str` makes of a string: which strings it accepts and as which address, and which
error it gives for the others. -/
structure ParsesExactly (s : RustStr) : Prop where
  succeeds : (∃ a, CspclAddr.fromStr s = .ok a) ↔
    ∃ x y, s = x ++ ':' :: y ∧ IsNodeAddr x ∧ IsPort y
  value : ∀ x y n m, s = x ++ ':' :: y → IsDigits x n → n ≤ maxNodeAddr.toNat → IsDigits y m →
    minPort.toNat ≤ m → m ≤ maxPort.toNat →
    CspclAddr.fromStr s = CspclAddr.new n.toUInt8 m.toUInt8
  format : CspclAddr.fromStr s = .error .format ↔ ':' ∉ s
  nodeAddr : ∀ x y, s = x ++ ':' :: y → ':' ∉ x →
    (CspclAddr.fromStr s = .error .nodeAddr ↔ ¬ IsNodeAddr x)
  port : ∀ x y, s = x ++ ':' :: y → ':' ∉ x →
    (CspclAddr.fromStr s = .error .port ↔ IsNodeAddr x ∧ ¬ IsPort y)

/-! ## The two parts -/

theorem colon_not_mem {n : Nat} (h : IsDigits x n) : ':' ∉ x :=
  fun hm => absurd (h.digit ':' hm) (by decide)

theorem isNodeAddr_iff : IsNodeAddr x ↔ ∃ v, parseNodeAddr x = .ok v := by
  simp only [parseNodeAddr_eq_ok]
  constructor
  · rintro ⟨n, hd, hn⟩
    have hlt := Nat.lt_of_le_of_lt hn maxNodeAddr.toNat_lt
    refine ⟨UInt8.ofNat n, ?_⟩
    rw [UInt8.le_iff_toNat_le, UInt8.toNat_ofNat', Nat.mod_eq_of_lt hlt]
    exact ⟨hd, hn⟩
  · rintro ⟨v, hd, hv⟩
    exact ⟨v.toNat, hd, UInt8.le_iff_toNat_le.mp hv⟩

theorem isPort_iff : IsPort y ↔ ∃ v, parsePort y = .ok v := by
  simp only [parsePort_eq_ok]
  constructor
  · rintro ⟨n, hd, hn, hn'⟩
    have hlt := Nat.lt_of_le_of_lt hn' maxPort.toNat_lt
    refine ⟨UInt8.ofNat n, ?_⟩
    rw [UInt8.le_iff_toNat_le, UInt8.le_iff_toNat_le, UInt8.toNat_ofNat', Nat.mod_eq_of_lt hlt]
    exact ⟨hd, hn, hn'⟩
  · rintro ⟨v, hd, hv, hv'⟩
    exact ⟨v.toNat, hd, UInt8.le_iff_toNat_le.mp hv, UInt8.le_iff_toNat_le.mp hv'⟩

theorem parseNodeAddr_of_not (h : ¬ IsNodeAddr x) : parseNodeAddr x = .error .nodeAddr := by
  cases hx : parseNodeAddr x with
  | error e => rw [(parseWhere_eq_error.mp hx).1]
  | ok v => exact absurd (isNodeAddr_iff.mpr ⟨v, hx⟩) h

theorem parsePort_of_not (h : ¬ IsPort y) : parsePort y = .error .port := by
  cases hy : parsePort y with
  | error e => rw [(parseWhere_eq_error.mp hy).1]
  | ok v => exact absurd (isPort_iff.mpr ⟨v, hy⟩) h

namespace CspclAddr

/-! ## The whole string -/

theorem new_self (a : CspclAddr) : new a.addr a.port = .ok a := by
  have ha := UInt8.not_lt.mpr a.addr_le
  have hp : ¬ (a.port < minPort ∨ maxPort < a.port) :=
    not_or.mpr ⟨UInt8.not_lt.mpr a.port_range.1, UInt8.not_lt.mpr a.port_range.2⟩
  rw [new, dif_neg ha, dif_neg hp]

theorem fromStr_none (h : ':' ∉ s) : fromStr s = .error .format := by
  rw [fromStr, splitOnce_eq_none.mpr h]

theorem fromStr_nodeAddr (hc : ':' ∉ x) (h : ¬ IsNodeAddr x) :
    fromStr (x ++ ':' :: y) = .error .nodeAddr := by
  rw [fromStr, splitOnce_append hc]
  dsimp only
  split
  · rename_i e ha
    rw [parseNodeAddr_of_not h] at ha
    rw [← Except.error.inj ha]
  · rename_i a ha
    exact absurd (isNodeAddr_iff.mpr ⟨a, ha⟩) h

theorem fromStr_port (hc : ':' ∉ x) (h : IsNodeAddr x) (h' : ¬ IsPort y) :
    fromStr (x ++ ':' :: y) = .error .port := by
  obtain ⟨v, hv⟩ := isNodeAddr_iff.mp h
  rw [fromStr, splitOnce_append hc]
  dsimp only
  split
  · rename_i e ha
    rw [hv] at ha
    cases ha
  · split
    · rename_i e hp
      rw [parsePort_of_not h'] at hp
      rw [← Except.error.inj hp]
    · rename_i p hp
      exact absurd (isPort_iff.mpr ⟨p, hp⟩) h'

theorem fromStr_ok {a p : UInt8} (hc : ':' ∉ x) (ha : parseNodeAddr x = .ok a)
    (hp : parsePort y = .ok p) : fromStr (x ++ ':' :: y) = new a p := by
  rw [fromStr, splitOnce_append hc]
  dsimp only
  split
  · rename_i e ha'
    rw [ha] at ha'
    cases ha'
  · rename_i a' ha'
    obtain rfl := Except.ok.inj (ha.symm.trans ha')
    split
    · rename_i e hp'
      rw [hp] at hp'
      cases hp'
    · rename_i p' hp'
      obtain rfl := Except.ok.inj (hp.symm.trans hp')
      exact (new_self _).symm

theorem fromStr_new {n m : Nat} (hx : IsDigits x n) (hn : n ≤ maxNodeAddr.toNat) (hy : IsDigits y m)
    (hm : minPort.toNat ≤ m) (hm' : m ≤ maxPort.toNat) :
    fromStr (x ++ ':' :: y) = new n.toUInt8 m.toUInt8 := by
  obtain ⟨a, ha⟩ := isNodeAddr_iff.mp ⟨n, hx, hn⟩
  obtain ⟨p, hp⟩ := isPort_iff.mp ⟨m, hy, hm, hm'⟩
  have han : a = n.toUInt8 := by
    rw [hx.unique (parseNodeAddr_eq_ok.mp ha).1]
    exact UInt8.ofNat_toNat.symm
  have hpm : p = m.toUInt8 := by
    rw [hy.unique (parsePort_eq_ok.mp hp).1]
    exact UInt8.ofNat_toNat.symm
  rw [fromStr_ok (colon_not_mem hx) ha hp, han, hpm]

theorem fromStr_valid (hc : ':' ∉ x) (hx : IsNodeAddr x) (hy : IsPort y) :
    ∃ a, fromStr (x ++ ':' :: y) = .ok a := by
  obtain ⟨a, ha⟩ := isNodeAddr_iff.mp hx
  obtain ⟨p, hp⟩ := isPort_iff.mp hy
  refine ⟨⟨a, p, (parseNodeAddr_eq_ok.mp ha).2, (parsePort_eq_ok.mp hp).2⟩, ?_⟩
  rw [fromStr_ok hc ha hp]
  exact new_self ⟨a, p, _, _⟩

/-- The first part that is wrong decides. -/
theorem fromStr_outcome (hc : ':' ∉ x) (y : RustStr) :
    (¬ IsNodeAddr x ∧ fromStr (x ++ ':' :: y) = .error .nodeAddr) ∨
      (IsNodeAddr x ∧ ¬ IsPort y ∧ fromStr (x ++ ':' :: y) = .error .port) ∨
      (IsNodeAddr x ∧ IsPort y ∧ ∃ a, fromStr (x ++ ':' :: y) = .ok a) := by
  by_cases hx : IsNodeAddr x
  · by_cases hy : IsPort y
    · exact .inr (.inr ⟨hx, hy, fromStr_valid hc hx hy⟩)
    · exact .inr (.inl ⟨hx, hy, fromStr_port hc hx hy⟩)
  · exact .inl ⟨hx, fromStr_nodeAddr hc hx⟩

theorem fromStr_nodeAddr_iff (hc : ':' ∉ x) :
    fromStr (x ++ ':' :: y) = .error .nodeAddr ↔ ¬ IsNodeAddr x := by
  rcases fromStr_outcome hc y with ⟨hx, h⟩ | ⟨hx, -, h⟩ | ⟨hx, -, a, h⟩ <;> simp [h, hx]

theorem fromStr_port_iff (hc : ':' ∉ x) :
    fromStr (x ++ ':' :: y) = .error .port ↔ IsNodeAddr x ∧ ¬ IsPort y := by
  rcases fromStr_outcome hc y with ⟨hx, h⟩ | ⟨hx, hy, h⟩ | ⟨hx, hy, a, h⟩
  · simp [h, hx]
  · simp [h, hx, hy]
  · simp [h, hy]

theorem fromStr_ok_iff (hc : ':' ∉ x) :
    (∃ a, fromStr (x ++ ':' :: y) = .ok a) ↔ IsNodeAddr x ∧ IsPort y := by
  rcases fromStr_outcome hc y with ⟨hx, h⟩ | ⟨hx, hy, h⟩ | ⟨hx, hy, a, h⟩
  · simp [h, hx]
  · simp [h, hy]
  · simp [h, hx, hy]

theorem fromStr_format_iff : fromStr s = .error .format ↔ ':' ∉ s := by
  refine ⟨fun h hm => ?_, fromStr_none⟩
  obtain ⟨x, y, rfl, hc⟩ := List.eq_append_cons_of_mem hm
  rcases fromStr_outcome hc y with ⟨-, h'⟩ | ⟨-, -, h'⟩ | ⟨-, -, a, h'⟩
  all_goals
    rw [h] at h'
    cases h'

theorem parsesExactly (s : RustStr) : ParsesExactly s where
  succeeds := by
    constructor
    · rintro ⟨a, ha⟩
      cases hs : splitOnce ':' s with
      | none =>
        rw [fromStr_none (splitOnce_eq_none.mp hs)] at ha
        cases ha
      | some p =>
        obtain ⟨rfl, hc⟩ := splitOnce_eq_some.mp hs
        exact ⟨p.1, p.2, rfl, (fromStr_ok_iff hc).mp ⟨a, ha⟩⟩
    · rintro ⟨x, y, rfl, hx, hy⟩
      obtain ⟨n, hd, -⟩ := id hx
      exact fromStr_valid (colon_not_mem hd) hx hy
  value := by
    rintro x y n m rfl hx hn hy hm hm'
    exact fromStr_new hx hn hy hm hm'
  format := fromStr_format_iff
  nodeAddr := by
    rintro x y rfl hc
    exact fromStr_nodeAddr_iff hc
  port := by
    rintro x y rfl hc
    exact fromStr_port_iff hc

/-- `Display` writes what is read back. -/
theorem fromStr_display (a : CspclAddr) : fromStr a.display = .ok a := by
  have h := fromStr_new (isDigits_decimal a.addr.toNat) (UInt8.le_iff_toNat_le.mp a.addr_le)
    (isDigits_decimal a.port.toNat) (UInt8.le_iff_toNat_le.mp a.port_range.1)
    (UInt8.le_iff_toNat_le.mp a.port_range.2)
  rw [← new_self a, display]
  simpa using h

/-- Parsing accepts its grammar and nothing else, and every address that `new` builds is read back
from its text. -/
theorem fromStr_exact : (∀ s, ParsesExactly s) ∧
    ∀ addr port a, new addr port = .ok a → fromStr a.display = .ok a :=
  ⟨parsesExactly, fun _ _ a _ => fromStr_display a⟩

end CspclAddr

end Cspcl.Picod3tn
