import Mathlib.Data.List.Basic

/-!
# Rust strings

A `str` is the list of its `char`s; `bytes` is its UTF-8 encoding. `splitOnce` and `u8FromStr` are
`str::split_once` and `u8::from_str`, with the latter's overflow checks digit by digit.

* `IsDigits s n`: the characters `s` are ASCII digits, at least one, of the number `n`.
* `u8FromStr_eq_some`: such a string is parsed iff its number is below 256, however many zeros
  it starts with.
* `splitOnce_eq_some`: the parts around the first separator.
-/

/-- The characters of a `str`. -/
abbrev RustStr := List Char

namespace RustStr

/-- `as_bytes`: the UTF-8 encoding. -/
def bytes (s : RustStr) : List UInt8 := s.flatMap String.utf8EncodeChar

/-- `split_once`: what stands before the first `c`, and what stands after it. -/
def splitOnce (c : Char) : RustStr → Option (RustStr × RustStr)
  | [] => none
  | d :: s => if d = c then some ([], s) else (splitOnce c s).map fun p => (d :: p.1, p.2)

/-- `u8::is_ascii_digit`. -/
def isAsciiDigit (b : UInt8) : Bool := 48 ≤ b && b ≤ 57

/-- `u8::checked_mul`. -/
def checkedMul (a b : UInt8) : Option UInt8 :=
  if a.toNat * b.toNat < 256 then some (a * b) else none

/-- `u8::checked_add`. -/
def checkedAdd (a b : UInt8) : Option UInt8 :=
  if a.toNat + b.toNat < 256 then some (a + b) else none

/-- The loop of `u8::from_str` over the digits. -/
def u8Digits (result : UInt8) : List UInt8 → Option UInt8
  | [] => some result
  | b :: s =>
    if isAsciiDigit b then
      (checkedMul result 10).bind fun mul =>
        (checkedAdd mul (b - 48)).bind fun result => u8Digits result s
    else none

/-- `u8::from_str`, with its error dropped. A `+` may stand before the digits. -/
def u8FromStr (s : RustStr) : Option UInt8 :=
  match bytes s with
  | [] => none
  | 43 :: digits => if digits = [] then none else u8Digits 0 digits
  | digits => u8Digits 0 digits

/-- `Display` of an unsigned integer. -/
def decimal (n : Nat) : RustStr := Nat.toDigits 10 n

example : u8FromStr ['+', '0', '0', '7'] = some 7 ∧ u8FromStr ['2', '5', '6'] = none := by decide

/-- The characters are the digits of `n`. -/
structure IsDigits (s : RustStr) (n : Nat) : Prop where
  ne_nil : s ≠ []
  digit : ∀ c ∈ s, c.isDigit = true
  value : Nat.ofDigitChars 10 s 0 = n

variable {s a b : RustStr} {c d : Char} {n m : Nat} {v : UInt8}

theorem IsDigits.unique (h : IsDigits s n) (h' : IsDigits s m) : n = m :=
  h.value.symm.trans h'.value

theorem isDigits_decimal (n : Nat) : IsDigits (decimal n) n where
  ne_nil := Nat.toDigits_ne_nil
  digit _ hc := Nat.isDigit_of_mem_toDigits (by decide) (by decide) hc
  value := Nat.ofDigitChars_ten_toDigits

/-! ## `split_once` -/

theorem splitOnce_append (h : c ∉ a) (b : RustStr) : splitOnce c (a ++ c :: b) = some (a, b) := by
  induction a with
  | nil => simp [splitOnce]
  | cons d a ih =>
    rw [List.mem_cons, not_or] at h
    rw [List.cons_append, splitOnce, if_neg (Ne.symm h.1), ih h.2]
    rfl

theorem splitOnce_eq_some :
    splitOnce c s = some (a, b) ↔ s = a ++ c :: b ∧ c ∉ a := by
  constructor
  · intro h
    induction s generalizing a with
    | nil => cases h
    | cons d s ih =>
      rw [splitOnce] at h
      split at h
      · rename_i hd
        obtain ⟨rfl, rfl⟩ := Prod.mk.inj (Option.some.inj h)
        exact ⟨by rw [hd]; rfl, List.not_mem_nil⟩
      · rename_i hd
        obtain ⟨⟨a', b'⟩, hs, he⟩ := Option.map_eq_some_iff.mp h
        obtain ⟨rfl, rfl⟩ := Prod.mk.inj he
        obtain ⟨rfl, hc⟩ := ih hs
        refine ⟨rfl, ?_⟩
        rw [List.mem_cons, not_or]
        exact ⟨Ne.symm hd, hc⟩
  · rintro ⟨rfl, h⟩
    exact splitOnce_append h b

theorem splitOnce_eq_none : splitOnce c s = none ↔ c ∉ s := by
  induction s with
  | nil => simp [splitOnce]
  | cons d s ih =>
    rw [splitOnce]
    split
    · rename_i hd
      simp [hd]
    · rename_i hd
      rw [Option.map_eq_none_iff, ih, List.mem_cons, not_or]
      exact ⟨fun h => ⟨Ne.symm hd, h⟩, And.right⟩

/-! ## Digits, as characters and as bytes -/

theorem isDigit_iff : c.isDigit = true ↔ 48 ≤ c.val.toNat ∧ c.val.toNat ≤ 57 := by
  simp [Char.isDigit, UInt32.le_iff_toNat_le]

theorem isAsciiDigit_iff {b : UInt8} : isAsciiDigit b = true ↔ 48 ≤ b.toNat ∧ b.toNat ≤ 57 := by
  simp [isAsciiDigit, UInt8.le_iff_toNat_le]

/-- A digit is one byte. -/
theorem utf8EncodeChar_digit (h : c.isDigit = true) :
    String.utf8EncodeChar c = [UInt8.ofNat c.toNat] := by
  have hc := isDigit_iff.mp h
  show (if c.val.toNat ≤ 0x7f then [UInt8.ofNat c.val.toNat] else _) = _
  rw [if_pos (by omega)]
  rfl

theorem bytes_cons_digit (h : c.isDigit = true) (s : RustStr) :
    bytes (c :: s) = UInt8.ofNat c.toNat :: bytes s := by
  rw [bytes, List.flatMap_cons, utf8EncodeChar_digit h]
  rfl

theorem toNat_digit (h : c.isDigit = true) : (UInt8.ofNat c.toNat).toNat = c.toNat := by
  have hc := isDigit_iff.mp h
  rw [UInt8.toNat_ofNat']
  show c.val.toNat % 2 ^ 8 = c.val.toNat
  omega

theorem isAsciiDigit_digit (h : c.isDigit = true) : isAsciiDigit (UInt8.ofNat c.toNat) = true := by
  rw [isAsciiDigit_iff, toNat_digit h]
  exact isDigit_iff.mp h

/-- The first byte of a longer encoding is no digit. -/
theorem not_isAsciiDigit_lead {n : Nat} (h : 192 ≤ n) (h' : n < 256) :
    isAsciiDigit (UInt8.ofNat n) = false := by
  rw [← Bool.not_eq_true, isAsciiDigit_iff, UInt8.toNat_ofNat']
  omega

/-- A character that is not a digit has a byte that is not one. -/
theorem isDigit_of_bytes (h : ∀ b ∈ String.utf8EncodeChar c, isAsciiDigit b = true) :
    c.isDigit = true := by
  have hlead : ∀ n s, String.utf8EncodeChar c = UInt8.ofNat n :: s → n < 192 ∨ 256 ≤ n := by
    intro n s hc
    by_contra hn
    have hb := h (UInt8.ofNat n) (hc ▸ List.mem_cons_self)
    rw [not_isAsciiDigit_lead (by omega) (by omega)] at hb
    cases hb
  revert h hlead
  fun_cases String.utf8EncodeChar c with
  | case1 v hv =>
    intro h _
    have hb := isAsciiDigit_iff.mp (h _ List.mem_cons_self)
    rw [UInt8.toNat_ofNat'] at hb
    rw [isDigit_iff]
    omega
  | case2 v hv hv' =>
    intro _ hlead
    have := hlead _ _ rfl
    omega
  | case3 v hv hv' hv'' =>
    intro _ hlead
    have := hlead _ _ rfl
    omega
  | case4 v hv hv' hv'' =>
    intro _ hlead
    have := hlead _ _ rfl
    omega

/-- All bytes are digits iff all characters are. -/
theorem all_bytes_iff :
    (bytes s).all isAsciiDigit = true ↔ ∀ c ∈ s, c.isDigit = true := by
  simp only [List.all_eq_true, bytes, List.mem_flatMap]
  constructor
  · intro h c hc
    exact isDigit_of_bytes fun b hb => h b ⟨c, hc, hb⟩
  · rintro h b ⟨c, hc, hb⟩
    rw [utf8EncodeChar_digit (h c hc), List.mem_singleton] at hb
    subst hb
    exact isAsciiDigit_digit (h c hc)

/-! ## `u8::from_str` -/

theorem checkedMul_eq_some {a b : UInt8} :
    checkedMul a b = some v ↔ v.toNat = a.toNat * b.toNat := by
  unfold checkedMul
  split
  · rename_i h
    rw [Option.some_inj, ← UInt8.toNat_inj, UInt8.toNat_mul, Nat.mod_eq_of_lt h]
    exact eq_comm
  · rename_i h
    have := v.toNat_lt
    exact iff_of_false nofun (by omega)

theorem checkedAdd_eq_some {a b : UInt8} :
    checkedAdd a b = some v ↔ v.toNat = a.toNat + b.toNat := by
  unfold checkedAdd
  split
  · rename_i h
    rw [Option.some_inj, ← UInt8.toNat_inj, UInt8.toNat_add, Nat.mod_eq_of_lt h]
    exact eq_comm
  · rename_i h
    have := v.toNat_lt
    exact iff_of_false nofun (by omega)

/-- A number only grows with further digits. -/
theorem le_ofDigitChars (n : Nat) (s : RustStr) : n ≤ Nat.ofDigitChars 10 s n := by
  induction s generalizing n with
  | nil => simp
  | cons c s ih =>
    rw [Nat.ofDigitChars_cons]
    exact Nat.le_trans (by omega) (ih _)

/-- The loop returns the number of the digits so far iff it fits: once it does not, no further
digit makes it smaller. -/
theorem u8Digits_eq_some {result : UInt8} (h : ∀ c ∈ s, c.isDigit = true) :
    u8Digits result (bytes s) = some v ↔ v.toNat = Nat.ofDigitChars 10 s result.toNat := by
  induction s generalizing result with
  | nil =>
    show some result = some v ↔ _
    rw [Nat.ofDigitChars_nil, Option.some_inj, ← UInt8.toNat_inj]
    exact eq_comm
  | cons c s ih =>
    have hc := h c List.mem_cons_self
    have hle : 48 ≤ UInt8.ofNat c.toNat :=
      UInt8.le_iff_toNat_le.mpr (isAsciiDigit_iff.mp (isAsciiDigit_digit hc)).1
    have hx : (UInt8.ofNat c.toNat - 48).toNat = c.toNat - '0'.toNat := by
      rw [UInt8.toNat_sub_of_le _ _ hle, toNat_digit hc]
      rfl
    rw [bytes_cons_digit hc, u8Digits, if_pos (isAsciiDigit_digit hc), Nat.ofDigitChars_cons]
    simp only [Option.bind_eq_some_iff, checkedMul_eq_some, checkedAdd_eq_some, hx]
    constructor
    · rintro ⟨mul, hmul, add, hadd, hv⟩
      rw [(ih fun d hd => h d (List.mem_cons_of_mem _ hd)).mp hv, hadd, hmul, Nat.mul_comm]
      rfl
    · intro hv
      have hle := le_ofDigitChars (10 * result.toNat + (c.toNat - '0'.toNat)) s
      have hlt := v.toNat_lt
      refine ⟨UInt8.ofNat (result.toNat * 10), ?_,
        UInt8.ofNat (10 * result.toNat + (c.toNat - '0'.toNat)), ?_, ?_⟩
      · rw [UInt8.toNat_ofNat', Nat.mod_eq_of_lt (by omega)]
        rfl
      · rw [UInt8.toNat_ofNat', UInt8.toNat_ofNat']
        omega
      · rw [ih fun d hd => h d (List.mem_cons_of_mem _ hd), hv, UInt8.toNat_ofNat',
          Nat.mod_eq_of_lt (by omega)]

/-- A string of digits is parsed as its number, if it fits. -/
theorem u8FromStr_eq_some (hne : s ≠ []) (h : ∀ c ∈ s, c.isDigit = true) :
    u8FromStr s = some v ↔ IsDigits s v.toNat := by
  have hs : u8FromStr s = u8Digits 0 (bytes s) := by
    cases s with
    | nil => exact absurd rfl hne
    | cons c s =>
      have hc := h c List.mem_cons_self
      have hp : UInt8.ofNat c.toNat ≠ 43 := by
        intro he
        have hd := isAsciiDigit_digit hc
        rw [he] at hd
        cases hd
      rw [u8FromStr, bytes_cons_digit hc]
      split
      · rename_i heq
        cases heq
      · rename_i heq
        exact absurd (List.cons.inj heq).1 hp
      · rfl
  rw [hs, u8Digits_eq_some h]
  exact ⟨fun hv => ⟨hne, h, hv.symm⟩, fun hd => hd.value.symm⟩

end RustStr
