import Mathlib.Data.List.Basic

/-!
# Buffers

Memory as a function from offsets, with the copies in and out of it (`memcpy`).

* `Buffer.write`: a list is copied to an offset; `Buffer.read`: so many elements from an offset.
* `read_append`: what is read in one go is what is read in two.
* `read_write_append`: elements copied right behind those that are read are read after them.
-/

/-- The contents of a buffer. Its size is kept by its owner. -/
abbrev Buffer (α : Type) := Nat → α

namespace Buffer

variable {α : Type} {m : Buffer α} {l : List α} {off n k : Nat}

/-- `memcpy` of `l` to the offset `off`. -/
def write (m : Buffer α) (off : Nat) (l : List α) : Buffer α := fun i =>
  if off ≤ i then l.getD (i - off) (m i) else m i

/-- The `n` elements from the offset `off`. -/
def read (m : Buffer α) (off n : Nat) : List α := (List.range n).map fun i => m (off + i)

@[simp] theorem length_read : (m.read off n).length = n := by simp [read]

@[simp] theorem read_zero : m.read off 0 = [] := rfl

theorem read_append : m.read off (n + k) = m.read off n ++ m.read (off + n) k := by
  simp [read, List.range_add, Nat.add_assoc]

/-- What was copied is read back. -/
theorem read_write_self : (m.write off l).read off l.length = l := by
  refine List.ext_getElem (by simp) fun i h1 h2 => ?_
  simp [read, write, h2]

/-- What lies before the copy is not touched. -/
theorem read_write_of_le (h : off + n ≤ k) : (m.write k l).read off n = m.read off n := by
  refine List.map_congr_left fun i hi => ?_
  have hi := List.mem_range.mp hi
  rw [write, if_neg (by omega)]

/-- Elements copied right behind others are read after them. -/
theorem read_write_append (m : Buffer α) (off n : Nat) (l : List α) :
    (m.write (off + n) l).read off (n + l.length) = m.read off n ++ l := by
  rw [read_append, read_write_of_le (Nat.le_refl _), read_write_self]

end Buffer
