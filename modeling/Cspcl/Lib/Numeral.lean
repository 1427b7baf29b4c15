import Cspcl.Lib.CString

/-!
# Decimal numerals in C strings

* `Numeral x n`: the bytes `x` are the digits of the number `n` and nothing else.
* `strtol_numeral`, `atoi_numeral`, `scanInt_numeral`: what the C library reads where a numeral
  stands, whatever follows it.
* `numeral_decimal`: `%u` writes a numeral.
-/

namespace CString

/-- The number that digits denote, added to `acc`. -/
def digitsValue (acc : Nat) (x : CString) : Nat :=
  x.foldl (fun acc c => acc * 10 + (c.toNat - 48)) acc

/-- The bytes `x` are the digits of `n`. -/
structure Numeral (x : CString) (n : Nat) : Prop where
  ne_nil : x ≠ []
  digit : ∀ c ∈ x, isDigit c = true
  value : digitsValue 0 x = n

/-- No digit follows. -/
def NoDigit (s : CString) : Prop := ∀ c ∈ s.head?, isDigit c = false

variable {x s rest : CString} {n m acc : Nat} {c : UInt8}

theorem noDigit_nil : NoDigit [] := nofun

theorem noDigit_cons (h : isDigit c = false) : NoDigit (c :: s) := by
  rintro d hd
  obtain rfl := Option.some.inj hd
  exact h

theorem digits_append (hx : ∀ c ∈ x, isDigit c = true) (hr : NoDigit rest) :
    digits acc (x ++ rest) = (digitsValue acc x, rest) := by
  induction x generalizing acc with
  | nil =>
    cases rest with
    | nil => rfl
    | cons c rest =>
      rw [List.nil_append, digits, if_neg]
      · rfl
      · rw [hr c rfl]
        exact Bool.false_ne_true
  | cons c x ih =>
    rw [List.cons_append, digits, if_pos (hx c List.mem_cons_self)]
    exact ih fun d hd => hx d (List.mem_cons_of_mem _ hd)

/-- A digit is neither a blank nor a sign. -/
theorem not_isSpace_of_isDigit (h : isDigit c = true) :
    isSpace c = false ∧ c ≠ 45 ∧ c ≠ 43 := by
  simp only [isDigit, Bool.and_eq_true, decide_eq_true_eq, UInt8.le_iff_toNat_le] at h
  have hlt : (48 : UInt8).toNat ≤ c.toNat := h.1
  refine ⟨?_, ?_, ?_⟩
  · simp only [isSpace, Bool.or_eq_false_iff, decide_eq_false_iff_not, Bool.and_eq_false_iff]
    refine ⟨?_, .inr fun hle => ?_⟩
    · rintro rfl
      exact absurd hlt (by decide)
    · exact absurd (Nat.le_trans hlt (UInt8.le_iff_toNat_le.mp hle)) (by decide)
  · rintro rfl
    exact absurd hlt (by decide)
  · rintro rfl
    exact absurd hlt (by decide)

/-- `strtol` of a string that starts neither with a blank nor with a sign. -/
theorem strtol_cons (hs : isSpace c = false) (hm : c ≠ 45) (hp : c ≠ 43) :
    strtol (c :: s) = if isDigit c = true then
      (clampLong (digits 0 (c :: s)).1, (digits 0 (c :: s)).2) else (0, c :: s) := by
  have hd : (c :: s).dropWhile isSpace = c :: s := by
    rw [List.dropWhile_cons_of_neg (by rw [hs]; exact Bool.false_ne_true)]
  simp [strtol, hd, hm, hp]

theorem clampLong_natCast (h : n < 2 ^ 63) : clampLong n = n := by
  unfold clampLong
  omega

theorem toInt_natCast (h : n < 2 ^ 31) : toInt n = n := by
  unfold toInt
  rw [Int.bmod_eq_of_le] <;> omega

theorem strtol_numeral (h : Numeral x n) (hr : NoDigit rest) :
    strtol (x ++ rest) = (clampLong n, rest) := by
  obtain ⟨hne, hx, hv⟩ := h
  cases x with
  | nil => exact absurd rfl hne
  | cons c x =>
    have hc := hx c List.mem_cons_self
    obtain ⟨hs, hm, hp⟩ := not_isSpace_of_isDigit hc
    rw [List.cons_append, strtol_cons hs hm hp, if_pos hc, ← List.cons_append,
      digits_append hx hr, hv]

theorem atoi_numeral (h : Numeral x n) (hn : n < 2 ^ 31) (hr : NoDigit rest) :
    atoi (x ++ rest) = n := by
  rw [atoi, strtol_numeral h hr, clampLong_natCast (by omega), toInt_natCast hn]

/-- A number of any size, as `sscanf` cuts it down. -/
theorem scanInt_numeral_any (h : Numeral x n) (hr : NoDigit rest) :
    scanInt (x ++ rest) = some (toInt (clampLong n)) := by
  have hne : rest ≠ x ++ rest := fun he => h.ne_nil (List.self_eq_append_left.mp he)
  rw [scanInt, strtol_numeral h hr, if_neg hne]

theorem scanInt_numeral (h : Numeral x n) (hn : n < 2 ^ 31) (hr : NoDigit rest) :
    scanInt (x ++ rest) = some (n : Int) := by
  rw [scanInt_numeral_any h hr, clampLong_natCast (by omega), toInt_natCast hn]

/-- Without a number at its start, a string has the value 0. -/
theorem atoi_cons (hs : isSpace c = false) (hm : c ≠ 45) (hp : c ≠ 43) (hd : isDigit c = false) :
    atoi (c :: s) = 0 := by
  rw [atoi, strtol_cons hs hm hp, if_neg (by rw [hd]; exact Bool.false_ne_true)]
  rfl

/-! ## `%u` -/

theorem digitsValue_append : digitsValue acc (x ++ s) = digitsValue (digitsValue acc x) s :=
  List.foldl_append ..

theorem isDigit_digitChar (h : n < 10) :
    isDigit n.digitChar.toNat.toUInt8 = true ∧ n.digitChar.toNat.toUInt8.toNat - 48 = n := by
  revert n
  decide

theorem decimal_of_lt (h : n < 10) : decimal n = [n.digitChar.toNat.toUInt8] := by
  rw [decimal, Nat.toDigits_of_lt_base h]
  rfl

theorem decimal_of_le (h : 10 ≤ n) :
    decimal n = decimal (n / 10) ++ [(n % 10).digitChar.toNat.toUInt8] := by
  rw [decimal, Nat.toDigits_of_base_le (by decide) h, List.map_append]
  rfl

theorem numeral_decimal (n : Nat) : Numeral (decimal n) n := by
  induction n using Nat.strongRecOn with
  | _ n ih =>
    by_cases hn : n < 10
    · obtain ⟨hd, hv⟩ := isDigit_digitChar hn
      rw [decimal_of_lt hn]
      refine ⟨List.cons_ne_nil _ _, fun c hc => List.mem_singleton.mp hc ▸ hd, ?_⟩
      simpa [digitsValue] using hv
    · have hle := Nat.le_of_not_lt hn
      obtain ⟨hne, hx, hv⟩ := ih (n / 10) (by omega)
      obtain ⟨hd, hv'⟩ := isDigit_digitChar (Nat.mod_lt n (by decide))
      rw [decimal_of_le hle]
      refine ⟨List.append_ne_nil_of_left_ne_nil hne _, fun c hc => ?_, ?_⟩
      · rcases List.mem_append.mp hc with hc | hc
        · exact hx c hc
        · exact List.mem_singleton.mp hc ▸ hd
      · rw [digitsValue_append, hv]
        show n / 10 * 10 + (_ - 48) = n
        rw [hv']
        omega

end CString
