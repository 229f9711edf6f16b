/-
# Striping a sequence in blocks

The positions of a sequence are cut into blocks of `c`, and the blocks are dealt in turn to `k`
strips: position `p` belongs to strip `p / c % k`.  A strip is what a subsequence of the whole
is; what is written at the end of the whole goes to the ends of the strips (`stripFrom_append`),
a block of the whole is a block of one strip (`take_drop_strip`), and nothing is lost or doubled
(`sum_length_strip`).
-/
import Mathlib.Algebra.BigOperators.Fin
import Mathlib.Data.Nat.ModEq
import Mathlib.Tactic.Ring

namespace Striping

variable {α : Type} {k c i : ℕ}

/-- The elements of strip `i`, for a sequence that starts at a position. -/
def stripFrom (k c i : ℕ) : ℕ → List α → List α
  | _, [] => []
  | p, x :: xs =>
      if p / c % k = i then x :: stripFrom k c i (p + 1) xs else stripFrom k c i (p + 1) xs

/-- Strip `i` of a sequence. -/
def strip (k c i : ℕ) (xs : List α) : List α := stripFrom k c i 0 xs

@[simp] lemma stripFrom_nil (p : ℕ) : stripFrom k c i p ([] : List α) = [] := rfl

@[simp] lemma strip_nil : strip k c i ([] : List α) = [] := rfl

lemma stripFrom_append (xs ys : List α) :
    ∀ p, stripFrom k c i p (xs ++ ys) =
      stripFrom k c i p xs ++ stripFrom k c i (p + xs.length) ys := by
  induction xs with
  | nil => intro p; rfl
  | cons x xs ih =>
      intro p
      simp only [List.cons_append, stripFrom, ih (p + 1), List.length_cons]
      rw [Nat.add_right_comm p 1, Nat.add_assoc p]
      split <;> rfl

lemma strip_append (xs ys : List α) :
    strip k c i (xs ++ ys) = strip k c i xs ++ stripFrom k c i xs.length ys := by
  rw [strip, stripFrom_append, Nat.zero_add]
  rfl

/-- All of a sequence in one block belongs to the strip of the block. -/
lemma stripFrom_of_eq {xs : List α} :
    ∀ {p}, (∀ j < xs.length, (p + j) / c % k = i) → stripFrom k c i p xs = xs := by
  induction xs with
  | nil => intro p _; rfl
  | cons x xs ih =>
      intro p h
      have hx : p / c % k = i := h 0 (Nat.zero_lt_succ _)
      rw [stripFrom, if_pos hx, ih fun j hj => ?_]
      rw [Nat.add_assoc, Nat.add_comm 1]
      exact h (j + 1) (Nat.succ_lt_succ hj)

/-- A strip has nothing of the blocks of the others. -/
lemma stripFrom_of_ne {xs : List α} :
    ∀ {p}, (∀ j < xs.length, (p + j) / c % k ≠ i) → stripFrom k c i p xs = [] := by
  induction xs with
  | nil => intro p _; rfl
  | cons x xs ih =>
      intro p h
      have hx : p / c % k ≠ i := h 0 (Nat.zero_lt_succ _)
      rw [stripFrom, if_neg hx]
      refine ih fun j hj => ?_
      rw [Nat.add_assoc, Nat.add_comm 1]
      exact h (j + 1) (Nat.succ_lt_succ hj)

lemma add_div_of_within {p j n : ℕ} (hc : 0 < c) (hn : p % c + n ≤ c) (hj : j < n) :
    (p + j) / c = p / c := by
  have hp := Nat.div_add_mod p c
  have heq : p + j = (p % c + j) + c * (p / c) := by omega
  rw [heq, Nat.add_mul_div_left _ _ hc, Nat.div_eq_of_lt (by omega), Nat.zero_add]

/-- What is written into one block goes to one strip. -/
lemma stripFrom_within (hc : 0 < c) {p : ℕ} {xs : List α} (hxs : p % c + xs.length ≤ c) :
    stripFrom k c i p xs = if p / c % k = i then xs else [] := by
  split_ifs with h
  · exact stripFrom_of_eq fun j hj => by rw [add_div_of_within hc hxs hj, h]
  · exact stripFrom_of_ne fun j hj => by rwa [add_div_of_within hc hxs hj]

lemma length_stripFrom_cons (p : ℕ) (x : α) (xs : List α) :
    (stripFrom k c i p (x :: xs)).length =
      (if p / c % k = i then 1 else 0) + (stripFrom k c i (p + 1) xs).length := by
  rw [stripFrom]
  split_ifs
  · rw [List.length_cons, Nat.add_comm]
  · rw [Nat.zero_add]

lemma sum_length_stripFrom (hk : 0 < k) (xs : List α) :
    ∀ p, ∑ i : Fin k, (stripFrom k c i p xs).length = xs.length := by
  induction xs with
  | nil => intro p; simp
  | cons x xs ih =>
      intro p
      have hone : ∑ i : Fin k, (if p / c % k = i then 1 else 0) = 1 := by
        rw [Finset.sum_eq_single ⟨p / c % k, Nat.mod_lt _ hk⟩]
        · rw [if_pos rfl]
        · exact fun i _ hi => if_neg fun h => hi (Fin.ext h.symm)
        · exact fun h => absurd (Finset.mem_univ _) h
      simp only [length_stripFrom_cons, Finset.sum_add_distrib, ih, hone, List.length_cons]
      rw [Nat.add_comm]

/-- Every element is in exactly one of the strips. -/
lemma sum_length_strip (hk : 0 < k) (xs : List α) :
    ∑ i : Fin k, (strip k c i xs).length = xs.length := sum_length_stripFrom hk xs 0

lemma stripFrom_sublist (xs : List α) : ∀ p, (stripFrom k c i p xs).Sublist xs := by
  induction xs with
  | nil => exact fun p => List.nil_sublist []
  | cons x xs ih =>
      intro p
      rw [stripFrom]
      split_ifs
      · exact (ih (p + 1)).cons_cons x
      · exact (ih (p + 1)).cons x

/-- A strip has something if one of the positions is its. -/
lemma stripFrom_ne_nil {xs : List α} :
    ∀ {p j : ℕ}, j < xs.length → (p + j) / c % k = i → stripFrom k c i p xs ≠ [] := by
  induction xs with
  | nil => intro p j hj; exact absurd hj (Nat.not_lt_zero j)
  | cons x xs ih =>
      intro p j hj hi
      rw [stripFrom]
      cases j with
      | zero =>
          have hp : p / c % k = i := hi
          rw [if_pos hp]
          exact List.cons_ne_nil _ _
      | succ j =>
          split_ifs
          · exact List.cons_ne_nil _ _
          · exact ih (Nat.lt_of_succ_lt_succ hj) (by rwa [Nat.add_right_comm])

/-! ### Rounds -/

/-- After `k` blocks the turn is at the same strip again. -/
lemma stripFrom_add_round (hc : 0 < c) (xs : List α) :
    ∀ p, stripFrom k c i (p + k * c) xs = stripFrom k c i p xs := by
  induction xs with
  | nil => intro p; rfl
  | cons x xs ih =>
      intro p
      have hturn : (p + k * c) / c % k = p / c % k := by
        rw [Nat.add_mul_div_right _ _ hc, Nat.add_mod_right]
      simp only [stripFrom, hturn, Nat.add_right_comm p (k * c) 1, ih (p + 1)]

/-- The block of a strip in the first round. -/
lemma strip_of_round (hc : 0 < c) {r : ℕ} (hr : r < k) {xs : List α} (hxs : xs.length ≤ k * c) :
    strip k c r xs = (xs.drop (r * c)).take c := by
  have hblock : ∀ j < k * c, j / c % k = j / c := fun j hj =>
    Nat.mod_eq_of_lt ((Nat.div_lt_iff_lt_mul hc).mpr hj)
  have hbefore : strip k c r (xs.take (r * c)) = [] := by
    refine stripFrom_of_ne fun j hj => ?_
    rw [List.length_take] at hj
    rw [Nat.zero_add, hblock j (by omega)]
    exact ((Nat.div_lt_iff_lt_mul hc).mpr (by omega)).ne
  rcases Nat.le_total xs.length (r * c) with hle | hle
  · rw [List.take_of_length_le hle] at hbefore
    rw [hbefore, List.drop_of_length_le hle, List.take_nil]
  have hlen : (xs.take (r * c)).length = r * c := List.length_take_of_le hle
  have hnext : (r + 1) * c = r * c + c := Nat.succ_mul r c
  have hin : stripFrom k c r (r * c) ((xs.drop (r * c)).take c) = (xs.drop (r * c)).take c := by
    rw [stripFrom_within hc, if_pos]
    · rw [Nat.mul_div_cancel r hc, Nat.mod_eq_of_lt hr]
    · rw [Nat.mul_mod_left, Nat.zero_add]
      exact List.length_take_le _ _
  have hafter : stripFrom k c r (r * c + ((xs.drop (r * c)).take c).length)
      ((xs.drop (r * c)).drop c) = [] := by
    refine stripFrom_of_ne fun j hj => ?_
    rw [List.length_drop, List.length_drop] at hj
    rw [List.length_take, List.length_drop, Nat.min_eq_left (by omega), hblock _ (by omega)]
    have hlt : r + 1 ≤ (r * c + c + j) / c := (Nat.le_div_iff_mul_le hc).mpr (by omega)
    exact (Nat.lt_of_succ_le hlt).ne'
  calc strip k c r xs
      = strip k c r (xs.take (r * c) ++
          ((xs.drop (r * c)).take c ++ (xs.drop (r * c)).drop c)) := by
        rw [List.take_append_drop, List.take_append_drop]
    _ = (xs.drop (r * c)).take c := by
        rw [strip_append, hbefore, hlen, stripFrom_append, hin, hafter, List.append_nil,
          List.nil_append]

lemma block_le_round {r : ℕ} (hr : r < k) : r * c + c ≤ k * c := by
  rw [← Nat.succ_mul]
  exact Nat.mul_le_mul_right c hr

/-- A strip is its block in the first round and then the strip of what follows the round. -/
lemma strip_eq_append (hc : 0 < c) {r : ℕ} (hr : r < k) (xs : List α) :
    strip k c r xs = (xs.drop (r * c)).take c ++ strip k c r (xs.drop (k * c)) := by
  have hround := block_le_round (c := c) hr
  rcases Nat.le_total xs.length (k * c) with hle | hle
  · rw [strip_of_round hc hr hle, List.drop_of_length_le hle, strip_nil, List.append_nil]
  · have hlen : (xs.take (k * c)).length = k * c := List.length_take_of_le hle
    have hfirst : strip k c r (xs.take (k * c)) = (xs.drop (r * c)).take c := by
      rw [strip_of_round hc hr hlen.le, List.drop_take, List.take_take, Nat.min_eq_left (by omega)]
    have hrest : stripFrom k c r (k * c) (xs.drop (k * c)) = strip k c r (xs.drop (k * c)) := by
      rw [← Nat.zero_add (k * c), stripFrom_add_round hc, Nat.zero_add]
      rfl
    conv_lhs => rw [← List.take_append_drop (k * c) xs]
    rw [strip_append, hlen, hfirst, hrest]

/-- The block of a strip in a round is a block of the whole. -/
lemma take_drop_strip (hc : 0 < c) {r : ℕ} (hr : r < k) {n : ℕ} (hn : n ≤ c) (b : ℕ) :
    ∀ xs : List α,
      ((strip k c r xs).drop (b * c)).take n = (xs.drop ((b * k + r) * c)).take n := by
  have hround := block_le_round (c := c) hr
  induction b with
  | zero =>
      intro xs
      rw [Nat.zero_mul, Nat.zero_mul, Nat.zero_add, List.drop_zero, strip_eq_append hc hr]
      rcases Nat.le_total xs.length (r * c + c) with hle | hle
      · have hend : xs.drop (k * c) = [] := List.drop_of_length_le (by omega)
        have hshort : (xs.drop (r * c)).length ≤ c := by
          rw [List.length_drop]
          omega
        rw [hend, strip_nil, List.append_nil, List.take_of_length_le hshort]
      · have hlong : n ≤ ((xs.drop (r * c)).take c).length := by
          rw [List.length_take, List.length_drop]
          omega
        rw [List.take_append_of_le_length hlong, List.take_take, Nat.min_eq_left hn]
  | succ b ih =>
      intro xs
      have hstart : ((b + 1) * k + r) * c = k * c + (b * k + r) * c := by ring
      rw [hstart, ← List.drop_drop, ← ih, Nat.succ_mul, Nat.add_comm (b * c), ← List.drop_drop,
        strip_eq_append hc hr xs]
      rcases Nat.le_total xs.length (r * c + c) with hle | hle
      · have hend : xs.drop (k * c) = [] := List.drop_of_length_le (by omega)
        rw [hend, strip_nil, List.append_nil, List.drop_of_length_le (List.length_take_le _ _)]
      · have hlen : ((xs.drop (r * c)).take c).length = c := by
          rw [List.length_take, List.length_drop]
          omega
        rw [List.drop_left' hlen]

/-- How long a strip is depends on the length only. -/
lemma length_stripFrom_congr {β : Type} {xs : List α} :
    ∀ {ys : List β} {p : ℕ}, xs.length = ys.length →
      (stripFrom k c i p xs).length = (stripFrom k c i p ys).length := by
  induction xs with
  | nil =>
      intro ys p h
      rw [List.length_eq_zero_iff.mp h.symm]
      rfl
  | cons x xs ih =>
      intro ys p h
      cases ys with
      | nil => exact absurd h (Nat.succ_ne_zero _)
      | cons y ys =>
          rw [length_stripFrom_cons, length_stripFrom_cons, ih (Nat.succ.inj h)]

/-! ### Slices -/

/-- The elements at the positions from `p` to `q`. -/
def slice (xs : List α) (p q : ℕ) : List α := (xs.drop p).take (q - p)

lemma slice_self (xs : List α) (p : ℕ) : slice xs p p = [] := by
  rw [slice, Nat.sub_self, List.take_zero]

lemma length_slice {xs : List α} {p q : ℕ} (hq : q ≤ xs.length) :
    (slice xs p q).length = q - p := by
  rw [slice, List.length_take, List.length_drop]
  omega

lemma slice_append_slice (xs : List α) {p q r : ℕ} (hpq : p ≤ q) (hqr : q ≤ r) :
    slice xs p q ++ slice xs q r = slice xs p r := by
  have hdrop : xs.drop q = (xs.drop p).drop (q - p) := by
    rw [List.drop_drop]
    congr 1
    omega
  rw [slice, slice, slice, hdrop, show r - p = (q - p) + (r - q) by omega, List.take_add]

lemma slice_append_drop (xs : List α) {p q : ℕ} (hpq : p ≤ q) :
    slice xs p q ++ xs.drop q = xs.drop p := by
  have hdrop : xs.drop q = (xs.drop p).drop (q - p) := by
    rw [List.drop_drop]
    congr 1
    omega
  rw [slice, hdrop, List.take_append_drop]

lemma stripFrom_slice_append {xs : List α} {p q r : ℕ} (hpq : p ≤ q) (hqr : q ≤ r)
    (hr : r ≤ xs.length) :
    stripFrom k c i p (slice xs p r) =
      stripFrom k c i p (slice xs p q) ++ stripFrom k c i q (slice xs q r) := by
  have hq : p + (slice xs p q).length = q := by
    rw [length_slice (hqr.trans hr)]
    omega
  rw [← slice_append_slice xs hpq hqr, stripFrom_append, hq]

end Striping
