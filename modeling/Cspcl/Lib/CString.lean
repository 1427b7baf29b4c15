import Mathlib.Algebra.Group.Int.Defs
import Mathlib.Algebra.GroupWithZero.Nat
import Mathlib.Data.List.Basic

/-!
# C strings

A C string is the list of its bytes before the terminating NUL. The conversions of the C library
are functions on it.
-/

/-- The bytes of a C string, without the NUL. -/
abbrev CString := List UInt8

namespace CString

/-- `isspace` in the C locale. -/
def isSpace (c : UInt8) : Bool := c = 32 || (9 ≤ c && c ≤ 13)

/-- `isdigit`. -/
def isDigit (c : UInt8) : Bool := 48 ≤ c && c ≤ 57

/-- The number that the leading digits denote, added to `acc`, and the bytes after them. -/
def digits (acc : Nat) : CString → Nat × CString
  | [] => (acc, [])
  | c :: s => if isDigit c then digits (acc * 10 + (c.toNat - 48)) s else (acc, c :: s)

/-- The range of `long`: a number outside it is cut to its nearer end. -/
def clampLong (x : Int) : Int := max (-(2 ^ 63)) (min (2 ^ 63 - 1) x)

/-- `strtol(s, &end, 10)`: the value, and the bytes at `end`. Without a digit the value is `0` and
`end` is `s`. -/
def strtol (s : CString) : Int × CString :=
  let body := s.dropWhile isSpace
  let (neg, body) := match body with
    | 45 :: rest => (true, rest)
    | 43 :: rest => (false, rest)
    | rest => (false, rest)
  match body with
  | c :: _ =>
    if isDigit c then
      let (v, rest) := digits 0 body
      (clampLong (if neg then -v else v), rest)
    else (0, s)
  | [] => (0, s)

example : strtol [32, 45, 52, 50, 120] = (-42, [120]) := by decide

/-- The conversion of a `long` to an `int`: its lower 32 bits. -/
def toInt (x : Int) : Int := x.bmod (2 ^ 32)

/-- `atoi`. -/
def atoi (s : CString) : Int := toInt (strtol s).1

/-- `sscanf(s, "%d", &x)`: the number, if one was read. -/
def scanInt (s : CString) : Option Int :=
  if (strtol s).2 = s then none else some (toInt (strtol s).1)

/-- `strchr(s, c)`: the string from the first `c` on. -/
def strchr (s : CString) (c : UInt8) : Option CString :=
  if c ∈ s then some (s.dropWhile (· ≠ c)) else none

theorem strchr_none {c : UInt8} {s : CString} (h : c ∉ s) : strchr s c = none := if_neg h

theorem strchr_append {c : UInt8} {x : CString} (h : c ∉ x) (y : CString) :
    strchr (x ++ c :: y) c = some (c :: y) := by
  rw [strchr, if_pos (by simp)]
  congr 1
  induction x with
  | nil => simp
  | cons d x ih =>
    rw [List.mem_cons, not_or] at h
    rw [List.cons_append, List.dropWhile_cons_of_pos (by simpa using Ne.symm h.1)]
    exact ih h.2

/-- What `snprintf`, or `strncpy` and a NUL at the end, leave of a string in a buffer of `size`
bytes. -/
def inBuffer (size : Nat) (s : CString) : CString := s.take (size - 1)

theorem inBuffer_of_lt {size : Nat} {s : CString} (h : s.length < size) : inBuffer size s = s :=
  List.take_of_length_le (by omega)

/-- The bytes of an ASCII literal. -/
def ofString (s : String) : CString := s.toList.map fun c => c.toNat.toUInt8

example : ofString "csp:" = [99, 115, 112, 58] := rfl

example : atoi (ofString "4294967301") = 5 := by decide

/-- `%u` of `printf`. -/
def decimal (n : Nat) : CString := (Nat.toDigits 10 n).map fun c => c.toNat.toUInt8

example : decimal 205 = [50, 48, 53] := by decide

end CString
