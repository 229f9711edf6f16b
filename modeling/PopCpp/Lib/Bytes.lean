/-
# Numbers as bytes

The `w` low bytes of a number, least significant first (`le`) or most significant first
(`be`), and the number that a list of bytes stands for.  Reading back what was written gives
the number modulo `256 ^ w`; for a machine word of `w` bytes that is the word itself.
-/
import Mathlib.Data.BitVec
import Mathlib.Tactic.Ring

namespace Bytes

/-- The `w` low bytes of `n`, least significant first. -/
def le : ℕ → ℕ → List UInt8
  | 0, _ => []
  | w + 1, n => UInt8.ofNat n :: le w (n / 256)

/-- The number with these bytes, least significant first. -/
def ofLe : List UInt8 → ℕ
  | [] => 0
  | b :: bs => b.toNat + 256 * ofLe bs

/-- The `w` low bytes of `n`, most significant first. -/
def be (w n : ℕ) : List UInt8 := (le w n).reverse

/-- The number with these bytes, most significant first. -/
def ofBe (bs : List UInt8) : ℕ := ofLe bs.reverse

@[simp] lemma length_le (w n : ℕ) : (le w n).length = w := by
  induction w generalizing n with
  | zero => rfl
  | succ w ih => rw [le, List.length_cons, ih]

@[simp] lemma length_be (w n : ℕ) : (be w n).length = w := by
  rw [be, List.length_reverse, length_le]

lemma ofLe_le (w n : ℕ) : ofLe (le w n) = n % 256 ^ w := by
  induction w generalizing n with
  | zero => rw [pow_zero, Nat.mod_one]; rfl
  | succ w ih =>
      have hbyte : (UInt8.ofNat n).toNat = n % 256 := UInt8.toNat_ofNat ..
      rw [le, ofLe, ih, hbyte, pow_succ, mul_comm (256 ^ w) 256, Nat.mod_mul]

lemma ofBe_be (w n : ℕ) : ofBe (be w n) = n % 256 ^ w := by
  rw [ofBe, be, List.reverse_reverse, ofLe_le]

lemma two_pow_eight_mul (w : ℕ) : 2 ^ (8 * w) = 256 ^ w := by
  rw [pow_mul]
  norm_num

/-- A word of `w` bytes is read back as it was written. -/
lemma ofNat_ofLe_le {w : ℕ} (v : BitVec (8 * w)) :
    BitVec.ofNat (8 * w) (ofLe (le w v.toNat)) = v := by
  rw [ofLe_le, ← two_pow_eight_mul, Nat.mod_eq_of_lt v.isLt, BitVec.ofNat_toNat,
    BitVec.setWidth_eq]

lemma ofNat_ofBe_be {w : ℕ} (v : BitVec (8 * w)) :
    BitVec.ofNat (8 * w) (ofBe (be w v.toNat)) = v := by
  rw [ofBe_be, ← ofLe_le, ofNat_ofLe_le]

end Bytes
