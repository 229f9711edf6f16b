/-
# A row of slots without holes

The first `count` of a row of cells are in use.  A value is added behind them, and one is
removed by moving the last one into its place.  `Holds` says that the used cells have
different keys and which keys these are; each operation changes the set of keys as it should,
whatever the other cells hold.
-/
import Mathlib.Data.Finset.Basic
import Mathlib.Tactic.Common

structure Slots (α : Type*) where
  cells : ℕ → α
  count : ℕ

namespace Slots

variable {α κ : Type*}

def push (t : Slots α) (x : α) : Slots α := ⟨Function.update t.cells t.count x, t.count + 1⟩

/-- The last cell moves to index `i`. -/
def removeAt (t : Slots α) (i : ℕ) : Slots α :=
  ⟨Function.update t.cells i (t.cells (t.count - 1)), t.count - 1⟩

/-- The used cells have exactly the keys in `K`, each once. -/
structure Holds (key : α → κ) (t : Slots α) (K : Finset κ) : Prop where
  once : ∀ i < t.count, ∀ j < t.count, key (t.cells i) = key (t.cells j) → i = j
  mem_iff : ∀ k, k ∈ K ↔ ∃ i < t.count, key (t.cells i) = k

namespace Holds

variable {key : α → κ} {t u : Slots α} {K : Finset κ}

lemma mem (h : Holds key t K) {i : ℕ} (hi : i < t.count) : key (t.cells i) ∈ K :=
  (h.mem_iff _).mpr ⟨i, hi, rfl⟩

/-- Nothing but the keys of the used cells matters. -/
lemma congr (h : Holds key t K) (hcount : u.count = t.count)
    (hkeys : ∀ i < t.count, key (u.cells i) = key (t.cells i)) : Holds key u K where
  once i hi j hj hij := by
    rw [hcount] at hi hj
    rw [hkeys i hi, hkeys j hj] at hij
    exact h.once i hi j hj hij
  mem_iff k := by
    rw [h.mem_iff k, hcount]
    exact exists_congr fun i => and_congr_right fun hi => by rw [hkeys i hi]

lemma push [DecidableEq κ] (h : Holds key t K) {x : α} (hx : key x ∉ K) :
    Holds key (t.push x) (insert (key x) K) := by
  have hold : ∀ i < t.count, (t.push x).cells i = t.cells i := by
    intro i hi
    exact Function.update_of_ne hi.ne _ _
  have hnew : (t.push x).cells t.count = x := Function.update_self _ _ _
  have hcases : ∀ i < (t.push x).count, i < t.count ∨ i = t.count := fun i hi =>
    Nat.lt_succ_iff_lt_or_eq.mp hi
  constructor
  · intro i hi j hj hij
    rcases hcases i hi with hi | rfl <;> rcases hcases j hj with hj | rfl
    · rw [hold i hi, hold j hj] at hij
      exact h.once i hi j hj hij
    · rw [hold i hi, hnew] at hij
      exact absurd (hij ▸ h.mem hi) hx
    · rw [hold j hj, hnew] at hij
      exact absurd (hij ▸ h.mem hj) hx
    · rfl
  · intro k
    rw [Finset.mem_insert, h.mem_iff k]
    constructor
    · rintro (rfl | ⟨i, hi, rfl⟩)
      · exact ⟨t.count, Nat.lt_succ_self _, by rw [hnew]⟩
      · exact ⟨i, Nat.lt_succ_of_lt hi, by rw [hold i hi]⟩
    · rintro ⟨i, hi, rfl⟩
      rcases hcases i hi with hi | rfl
      · exact .inr ⟨i, hi, by rw [hold i hi]⟩
      · exact .inl (by rw [hnew])

lemma removeAt [DecidableEq κ] (h : Holds key t K) {i : ℕ} (hi : i < t.count) :
    Holds key (t.removeAt i) (K.erase (key (t.cells i))) := by
  -- cell `j` now holds what the cell `back j` held
  let back := fun j => if j = i then t.count - 1 else j
  have hcell : ∀ j, (t.removeAt i).cells j = t.cells (back j) := by
    intro j
    by_cases hj : j = i
    · subst hj
      simp [Slots.removeAt, back]
    · simp [Slots.removeAt, back, hj]
  have hcount : (t.removeAt i).count = t.count - 1 := rfl
  have hback : ∀ j < t.count - 1, back j < t.count ∧ back j ≠ i := by
    intro j hj
    by_cases hji : j = i
    · simp only [back, if_pos hji]
      omega
    · simp only [back, if_neg hji]
      exact ⟨by omega, hji⟩
  constructor
  · intro j hj k hk hjk
    rw [hcount] at hj hk
    rw [hcell, hcell] at hjk
    have heq := h.once _ (hback j hj).1 _ (hback k hk).1 hjk
    simp only [back] at heq
    split_ifs at heq <;> omega
  · intro k
    rw [Finset.mem_erase, h.mem_iff k, hcount]
    constructor
    · rintro ⟨hne, j, hj, rfl⟩
      have hji : j ≠ i := by
        rintro rfl
        exact hne rfl
      by_cases hlast : j = t.count - 1
      · refine ⟨i, by omega, ?_⟩
        rw [hcell]
        simp only [back, if_true, hlast]
      · refine ⟨j, by omega, ?_⟩
        rw [hcell]
        simp only [back, if_neg hji]
    · rintro ⟨j, hj, rfl⟩
      rw [hcell]
      obtain ⟨hlt, hne⟩ := hback j hj
      refine ⟨fun heq => hne (h.once _ hlt _ hi heq), back j, hlt, rfl⟩

end Holds

end Slots
