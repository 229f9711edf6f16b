/-
# The order of floating point numbers

A number of a binary format is given by its bits: a sign, an exponent and a mantissa.  Two numbers
are compared by the integers that their bits without the sign make, with the sign put back; a NaN
compares with nothing, so that it is neither smaller nor greater than any number.
-/
import Mathlib.Data.BitVec
import Mathlib.Order.Defs.LinearOrder

namespace Ieee

/-- The lengths of the exponent and of the mantissa. -/
structure Format where
  exponent : ℕ
  mantissa : ℕ

/-- `double` -/
def double : Format := ⟨11, 52⟩

/-- The bits of a number. -/
abbrev Bits (f : Format) := BitVec (1 + f.exponent + f.mantissa)

variable {f : Format} {x y z : Bits f}

/-- The bits without the sign, as a number. -/
def magnitude (x : Bits f) : ℕ := x.toNat % 2 ^ (f.exponent + f.mantissa)

/-- The sign is set. -/
def negative (x : Bits f) : Bool := 2 ^ (f.exponent + f.mantissa) ≤ x.toNat

/-- The exponent is all ones and the mantissa is not 0. -/
def isNaN (x : Bits f) : Bool := (2 ^ f.exponent - 1) * 2 ^ f.mantissa < magnitude x

/-- A number in the order of the floating point numbers. -/
def key (x : Bits f) : ℤ := if negative x then -(magnitude x : ℤ) else magnitude x

/-- `x < y` -/
def lt (x y : Bits f) : Bool := !isNaN x && !isNaN y && decide (key x < key y)

/-- `x >= y` -/
def ge (x y : Bits f) : Bool := !isNaN x && !isNaN y && decide (key y ≤ key x)

lemma lt_eq_true_iff : lt x y = true ↔ isNaN x = false ∧ isNaN y = false ∧ key x < key y := by
  simp [lt, and_assoc]

lemma ge_eq_true_iff : ge x y = true ↔ isNaN x = false ∧ isNaN y = false ∧ key y ≤ key x := by
  simp [ge, and_assoc]

lemma lt_self (x : Bits f) : lt x x = false := by
  simp [lt]

lemma ge_of_lt (h : lt x y = true) : ge y x = true := by
  rw [lt_eq_true_iff] at h
  rw [ge_eq_true_iff]
  exact ⟨h.2.1, h.1, h.2.2.le⟩

lemma lt_of_lt_of_ge (h : lt x y = true) (h' : ge z y = true) : lt x z = true := by
  rw [lt_eq_true_iff] at h ⊢
  rw [ge_eq_true_iff] at h'
  exact ⟨h.1, h'.1, h.2.2.trans_le h'.2.2⟩

end Ieee
