/-
# Floating point numbers of 32 bits

A `float` of C is given by its bits: a sign, an exponent of 8 bits and a mantissa of 23.  Two
numbers are compared by the integers that their bits without the sign make, with the sign put
back; a NaN compares with nothing.  `ofInt` is the conversion of an `int`, which rounds to the
nearest number and to the even one of two.  Sums, products and quotients are rounded in the same
way: a finite number is so many units of the smallest one, and an exact result in these units is
rounded once (`roundUnits`).
-/
import Mathlib.Data.BitVec
import Mathlib.Order.Defs.LinearOrder

namespace Binary32

/-- The bits of a `float`. -/
abbrev Bits := BitVec 32

/-- The bits without the sign, as a number. -/
def magnitude (x : Bits) : ℕ := x.toNat % 2 ^ 31

/-- The sign is set. -/
def negative (x : Bits) : Bool := 2 ^ 31 ≤ x.toNat

/-- The exponent is all ones and the mantissa is not 0. -/
def isNaN (x : Bits) : Bool := 255 * 2 ^ 23 < magnitude x

/-- A number in the order of the floating point numbers. -/
def key (x : Bits) : ℤ := if negative x then -(magnitude x : ℤ) else magnitude x

/-- `x > y` -/
def gt (x y : Bits) : Bool := !isNaN x && !isNaN y && decide (key y < key x)

/-- `x >= y` -/
def ge (x y : Bits) : Bool := !isNaN x && !isNaN y && decide (key y ≤ key x)

/-- Infinity. -/
def inf : Bits := 0x7f800000

/-- `x != 0` -/
def nonzero (x : Bits) : Bool := isNaN x || key x != 0

lemma key_lt_of_gt {x y : Bits} (h : gt x y = true) : key y < key x := by
  simp only [gt, Bool.and_eq_true, decide_eq_true_eq] at h
  exact h.2

/-- Of two numbers at most one is the greater. -/
lemma gt_eq_false_of_gt {x y : Bits} (h : gt x y = true) : gt y x = false := by
  have hlt := key_lt_of_gt h
  rw [Bool.eq_false_iff]
  intro h'
  exact absurd (key_lt_of_gt h') (not_lt_of_gt hlt)

lemma gt_self (x : Bits) : gt x x = false := by
  simp [gt]

lemma gt_eq_true_iff {x y : Bits} :
    gt x y = true ↔ isNaN x = false ∧ isNaN y = false ∧ key y < key x := by
  simp [gt, and_assoc]

lemma ge_eq_true_iff {x y : Bits} :
    ge x y = true ↔ isNaN x = false ∧ isNaN y = false ∧ key y ≤ key x := by
  simp [ge, and_assoc]

lemma gt_of_gt_of_ge {x y z : Bits} (h : gt x y = true) (h' : ge y z = true) : gt x z = true := by
  rw [gt_eq_true_iff] at h ⊢
  rw [ge_eq_true_iff] at h'
  exact ⟨h.1, h'.2.1, lt_of_le_of_lt h'.2.2 h.2.2⟩

lemma ge_trans {x y z : Bits} (h : ge x y = true) (h' : ge y z = true) : ge x z = true := by
  rw [ge_eq_true_iff] at h h' ⊢
  exact ⟨h.1, h'.2.1, h'.2.2.trans h.2.2⟩

/-- Nothing is greater than infinity. -/
lemma key_le_key_inf {x : Bits} (h : isNaN x = false) : key x ≤ key inf := by
  have hinf : key inf = 255 * 2 ^ 23 := by decide
  have hle : magnitude x ≤ 255 * 2 ^ 23 := by simpa [isNaN] using h
  rw [hinf, key]
  split <;> omega

lemma gt_inf (x : Bits) : gt x inf = false := by
  rw [Bool.eq_false_iff]
  intro h
  rw [gt_eq_true_iff] at h
  exact absurd (key_le_key_inf h.1) (not_le.mpr h.2.2)

/-- What is at least infinity is at least any number. -/
lemma ge_of_ge_inf {x y : Bits} (h : ge x inf = true) (hy : isNaN y = false) : ge x y = true := by
  rw [ge_eq_true_iff] at h ⊢
  exact ⟨h.1, hy, (key_le_key_inf hy).trans h.2.2⟩

/-- `n / d`, rounded to the nearest integer and to the even one of two. -/
def roundDiv (n d : ℕ) : ℕ :=
  let q := n / d
  let r := n % d
  if d < 2 * r ∨ (d = 2 * r ∧ q % 2 = 1) then q + 1 else q

/-- The bits of the `float` nearest to a positive number.  A mantissa that is rounded up to
`2 ^ 24` carries into the exponent, as it should. -/
def ofNat (n : ℕ) : ℕ :=
  let e := n.log2
  let mantissa := if e ≤ 23 then n * 2 ^ (23 - e) else roundDiv n (2 ^ (e - 23))
  (e + 127) * 2 ^ 23 + mantissa - 2 ^ 23

/-- The conversion of an `int` to a `float`. -/
def ofInt (n : ℤ) : Bits :=
  if n = 0 then 0
  else BitVec.ofNat 32 ((if n < 0 then 2 ^ 31 else 0) + ofNat n.natAbs)

example : ofInt 1 = 0x3f800000 ∧ ofInt (-2) = 0xc0000000 ∧ ofInt 16777217 = 0x4b800000 := by
  decide +kernel

/-! ### Arithmetic -/

/-- The units of 2⁻¹⁴⁹ in a finite number without its sign. -/
def units (x : Bits) : ℕ :=
  let exponent := magnitude x / 2 ^ 23
  let mantissa := magnitude x % 2 ^ 23
  if exponent = 0 then mantissa else (2 ^ 23 + mantissa) * 2 ^ (exponent - 1)

/-- The bits without the sign of the number nearest to `n / d` units, infinity if that is too much.
The last of 24 bits counts `2 ^ e` units. -/
def roundUnits (n d : ℕ) : ℕ :=
  let e := (n / d).log2 - 23
  min (roundDiv n (d * 2 ^ e) + e * 2 ^ 23) (255 * 2 ^ 23)

def isInf (x : Bits) : Bool := magnitude x = 255 * 2 ^ 23

def nan : Bits := 0x7fc00000

/-- The bits of a sign and a magnitude. -/
def signed (negative : Bool) (magnitude : ℕ) : Bits :=
  BitVec.ofNat 32 ((if negative then 2 ^ 31 else 0) + magnitude)

def neg (x : Bits) : Bits := signed (!negative x) (magnitude x)

/-- `x + y`: a sum of 0 is negative if both numbers are. -/
def add (x y : Bits) : Bits :=
  if isNaN x || isNaN y then nan
  else if isInf x then if isInf y && negative x != negative y then nan else x
  else if isInf y then y
  else
    let sum := (if negative x then -(units x : ℤ) else units x) +
      (if negative y then -(units y : ℤ) else units y)
    if sum = 0 then signed (negative x && negative y) 0
    else signed (sum < 0) (roundUnits sum.natAbs 1)

/-- `x * y` -/
def mul (x y : Bits) : Bits :=
  let sign := negative x != negative y
  if isNaN x || isNaN y then nan
  else if isInf x || isInf y then
    if magnitude x = 0 || magnitude y = 0 then nan else signed sign (magnitude inf)
  else signed sign (roundUnits (units x * units y) (2 ^ 149))

/-- `x / y` -/
def div (x y : Bits) : Bits :=
  let sign := negative x != negative y
  if isNaN x || isNaN y then nan
  else if isInf x then if isInf y then nan else signed sign (magnitude inf)
  else if isInf y then signed sign 0
  else if magnitude y = 0 then
    if magnitude x = 0 then nan else signed sign (magnitude inf)
  else signed sign (roundUnits (units x * 2 ^ 149) (units y))

/-- The numbers of type `float`, with their own arithmetic. -/
structure Number where
  bits : Bits
deriving DecidableEq, Repr

namespace Number

instance : Add Number := ⟨fun x y => ⟨add x.bits y.bits⟩⟩
instance : Sub Number := ⟨fun x y => ⟨add x.bits (neg y.bits)⟩⟩
instance : Mul Number := ⟨fun x y => ⟨mul x.bits y.bits⟩⟩
instance : Div Number := ⟨fun x y => ⟨div x.bits y.bits⟩⟩
instance : IntCast Number := ⟨fun n => ⟨ofInt n⟩⟩
instance : Zero Number := ⟨(0 : ℤ)⟩
instance : One Number := ⟨(1 : ℤ)⟩
instance : LT Number := ⟨fun x y => gt y.bits x.bits = true⟩
instance : LE Number := ⟨fun x y => ge y.bits x.bits = true⟩
instance : DecidableLT Number := fun x y => inferInstanceAs (Decidable (gt y.bits x.bits = true))
instance : DecidableLE Number := fun x y => inferInstanceAs (Decidable (ge y.bits x.bits = true))

/-- A tenth is rounded up, and so is three times a third. -/
example : (1 : Number) / (10 : ℤ) = ⟨0x3dcccccd⟩ ∧ (1 : Number) / (3 : ℤ) * (3 : ℤ) = 1 ∧
    ((16777216 : ℤ) : Number) + 1 = (16777216 : ℤ) ∧ (1 : Number) / 0 = ⟨inf⟩ := by
  decide +kernel

end Number

end Binary32
