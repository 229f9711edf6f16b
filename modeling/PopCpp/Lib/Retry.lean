/-
# Trying until it works

A call that may fail is repeated until its result is accepted.  The results of the coming calls
are an infinite sequence; a loop that has seen the first `n` of them has ended if one of these
is accepted, and it ends with the first that is.
-/
import Mathlib.Data.List.Basic
import Mathlib.Tactic.Common

namespace Retry

variable {α β : Type}

/-- The first `n` results. -/
def upTo (xs : ℕ → α) (n : ℕ) : List α := (List.range n).map xs

lemma upTo_zero (xs : ℕ → α) : upTo xs 0 = [] := rfl

lemma upTo_succ (xs : ℕ → α) (n : ℕ) : upTo xs (n + 1) = upTo xs n ++ [xs n] := by
  rw [upTo, List.range_succ, List.map_append]
  rfl

lemma findSome?_upTo_eq_none {accept : α → Option β} {xs : ℕ → α} {n : ℕ} :
    (upTo xs n).findSome? accept = none ↔ ∀ i < n, accept (xs i) = none := by
  rw [List.findSome?_eq_none_iff]
  constructor
  · intro h i hi
    exact h _ (List.mem_map.mpr ⟨i, List.mem_range.mpr hi, rfl⟩)
  · intro h x hx
    obtain ⟨i, hi, rfl⟩ := List.mem_map.mp hx
    exact h i (List.mem_range.mp hi)

/-- **Retrying.**  The loop ends with the first result that is accepted. -/
theorem findSome?_upTo_eq_some {accept : α → Option β} {xs : ℕ → α} {n : ℕ} {b : β} :
    (upTo xs n).findSome? accept = some b ↔
      ∃ k < n, accept (xs k) = some b ∧ ∀ i < k, accept (xs i) = none := by
  induction n with
  | zero => simp [upTo_zero]
  | succ n ih =>
      rw [upTo_succ, List.findSome?_append]
      cases hfirst : (upTo xs n).findSome? accept with
      | none =>
          have hnone := findSome?_upTo_eq_none.mp hfirst
          constructor
          · intro h
            exact ⟨n, Nat.lt_succ_self n, by simpa using h, hnone⟩
          · rintro ⟨k, hk, hb, -⟩
            obtain rfl : k = n := by
              by_contra hne
              rw [hnone k (by omega)] at hb
              cases hb
            simpa using hb
      | some c =>
          rw [Option.some_or, ← hfirst, ih]
          constructor
          · rintro ⟨k, hk, h⟩
            exact ⟨k, by omega, h⟩
          · rintro ⟨k, hk, hb, hbefore⟩
            refine ⟨k, ?_, hb, hbefore⟩
            by_contra hle
            obtain rfl : k = n := by omega
            rw [findSome?_upTo_eq_none.mpr hbefore] at hfirst
            cases hfirst

end Retry
