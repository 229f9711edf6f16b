/-
# The integer types of C on a 64-bit machine

An `int` is an integer in the range of 32-bit two's complement; arithmetic on it is
arithmetic on `ℤ` followed by `wrap`, as compiled.  `sizeT` and `uInt` are the conversions to
the unsigned types `size_t` and `unsigned int`.  The lemmas say when these conversions do
nothing, and what a wrapped value can be otherwise.
-/
import Mathlib.Tactic.Ring

namespace CInt

/-- The range of `int`. -/
def Fits (x : ℤ) : Prop := -2 ^ 31 ≤ x ∧ x < 2 ^ 31

/-- The `int` that arithmetic modulo `2 ^ 32` makes of an integer. -/
def wrap (x : ℤ) : ℤ := (x + 2 ^ 31) % 2 ^ 32 - 2 ^ 31

/-- Conversion to `size_t`. -/
def sizeT (x : ℤ) : ℕ := (x % 2 ^ 64).toNat

/-- Conversion to `unsigned int`. -/
def uInt (x : ℤ) : ℕ := (x % 2 ^ 32).toNat

lemma fits_wrap (x : ℤ) : Fits (wrap x) := by
  simp only [Fits, wrap]
  omega

lemma wrap_eq_self {x : ℤ} (h : Fits x) : wrap x = x := by
  simp only [Fits] at h
  simp only [wrap]
  omega

lemma wrap_natCast {n : ℕ} (h : n < 2 ^ 31) : wrap (n : ℤ) = n :=
  wrap_eq_self (by simp only [Fits]; omega)

/-- A sum may be wrapped before the end. -/
lemma wrap_wrap_add (x y : ℤ) : wrap (wrap x + y) = wrap (x + y) := by
  simp only [wrap]
  omega

/-- A conversion never makes a natural number larger. -/
lemma wrap_le {x : ℤ} (h : 0 ≤ x) : wrap x ≤ x := by
  unfold wrap
  omega

/-- The bits of an `int` and the `int` again. -/
lemma toInt_ofInt_of_fits {x : ℤ} (h : Fits x) : (BitVec.ofInt 32 x).toInt = x := by
  simp only [Fits] at h
  rw [BitVec.toInt_ofInt, Int.bmod_def]
  omega

lemma sizeT_natCast {n : ℕ} (h : n < 2 ^ 64) : sizeT n = n := by
  simp only [sizeT]
  omega

lemma sizeT_of_nonneg {x : ℤ} (h0 : 0 ≤ x) (h : x < 2 ^ 64) : (sizeT x : ℤ) = x := by
  simp only [sizeT]
  omega

/-- A negative `int` becomes a `size_t` that no object has. -/
lemma lt_sizeT_of_neg {x : ℤ} (h : Fits x) (h0 : x < 0) : 2 ^ 63 ≤ sizeT x := by
  simp only [Fits] at h
  simp only [sizeT]
  omega

/-- Comparing a sum of two `int`s with the size of an object also checks its sign. -/
lemma sizeT_wrap_le_iff {x : ℤ} {m : ℕ} (h0 : -2 ^ 31 ≤ x) (h : x < 2 ^ 32) (hm : m < 2 ^ 31) :
    sizeT (wrap x) ≤ m ↔ 0 ≤ x ∧ x ≤ m := by
  simp only [sizeT, wrap]
  omega

lemma uInt_of_nonneg {x : ℤ} (h : Fits x) (h0 : 0 ≤ x) : (uInt x : ℤ) = x := by
  simp only [Fits] at h
  simp only [uInt]
  omega

lemma uInt_of_neg {x : ℤ} (h : Fits x) (h0 : x < 0) : (uInt x : ℤ) = x + 2 ^ 32 := by
  simp only [Fits] at h
  simp only [uInt]
  omega

/-- `((n - 1) / 4 + 1) * 4`, the length of `n` bytes padded to a multiple of 4. -/
def align4 (n : ℤ) : ℤ := wrap (((wrap (n - 1)).tdiv 4 + 1) * 4)

lemma align4_eq_wrap {n : ℤ} (h1 : 1 ≤ n) (h : n ≤ 2 ^ 31) :
    align4 n = wrap (((n - 1) / 4 + 1) * 4) := by
  rw [align4, wrap_eq_self (x := n - 1) (by simp only [Fits]; omega),
    Int.tdiv_eq_ediv_of_nonneg (by omega)]

lemma align4_eq {n : ℤ} (h1 : 1 ≤ n) (h : n ≤ 2 ^ 31 - 4) : align4 n = ((n - 1) / 4 + 1) * 4 := by
  rw [align4_eq_wrap h1 (by omega), wrap_eq_self]
  simp only [Fits]
  omega

end CInt
