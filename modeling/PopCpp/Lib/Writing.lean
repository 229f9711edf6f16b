/-
# Writing in pieces

A write hands some of the elements it is given to the operating system, at least one when
there are any, or it fails; a failure may be an interruption, after which the caller tries
again.  How the coming writes go is not under anybody's control, so it is a list, and results
hold for all lists.  A writer that wants all its elements written writes in a loop, which ends
when nothing is left or with a failure that is no interruption; it is still running when the
list is used up.
-/
import Mathlib.Data.List.Basic
import Mathlib.Tactic.Common

namespace Channel

/-- How one write goes. -/
inductive Write where
  /-- So many elements are taken, as far as there are any: 0 stands for 1. -/
  | wrote (k : ℕ)
  | interrupted
  | failed
deriving DecidableEq, Repr

variable {α : Type}

/-- How many of `n` elements such a write takes. -/
def Write.piece (n k : ℕ) : ℕ := min n (max 1 k)

/-- What the loop has written when it ends, or `none` while it goes on. -/
def writeLoop (xs : List α) : List Write → Option (List α)
  | [] => if xs.length = 0 then some [] else none
  | w :: ws =>
      if xs.length = 0 then some []
      else
        match w with
        | .wrote k =>
            let n := Write.piece xs.length k
            (writeLoop (xs.drop n) ws).map (xs.take n ++ ·)
        | .interrupted => writeLoop xs ws
        | .failed => some []

/-- How many elements these writes are ready to take, up to the first failure. -/
def accepted : List Write → ℕ
  | [] => 0
  | .wrote k :: ws => max 1 k + accepted ws
  | .interrupted :: ws => accepted ws
  | .failed :: _ => 0

/-- **The writing loop.**  It ends exactly when enough is taken or a write fails, and what it
has written is as much as was taken. -/
theorem writeLoop_eq (xs : List α) (ws : List Write) :
    writeLoop xs ws =
      if xs.length ≤ accepted ws ∨ Write.failed ∈ ws then some (xs.take (accepted ws))
      else none := by
  induction ws generalizing xs with
  | nil =>
      rw [writeLoop, accepted]
      by_cases h : xs.length = 0
      · simp [h]
      · rw [if_neg h, if_neg]
        rintro (hle | hmem)
        · exact h (Nat.le_zero.mp hle)
        · exact absurd hmem List.not_mem_nil
  | cons w ws ih =>
      by_cases h : xs.length = 0
      · obtain rfl := List.eq_nil_of_length_eq_zero h
        cases w <;> simp [writeLoop]
      · cases w with
        | wrote k =>
            -- nothing is left to write when the piece is all of `xs`
            have hiff : (xs.drop (Write.piece xs.length k)).length ≤ accepted ws ↔
                xs.length ≤ max 1 k + accepted ws := by
              rw [List.length_drop, Write.piece]
              omega
            have htake : xs.take (Write.piece xs.length k) ++
                (xs.drop (Write.piece xs.length k)).take (accepted ws) =
                  xs.take (max 1 k + accepted ws) := by
              rw [← List.take_add, Write.piece]
              rcases Nat.le_total xs.length (max 1 k) with hle | hle
              · rw [List.take_of_length_le (by omega), List.take_of_length_le (by omega)]
              · rw [Nat.min_eq_right hle]
            rw [writeLoop, if_neg h]
            simp only [ih, hiff, accepted, List.mem_cons, reduceCtorEq, false_or]
            split
            · rw [Option.map_some, htake]
            · rw [Option.map_none]
        | interrupted =>
            rw [writeLoop, if_neg h, ih]
            simp only [accepted, List.mem_cons, reduceCtorEq, false_or]
        | failed =>
            rw [writeLoop, if_neg h]
            simp only [accepted, List.mem_cons, true_or, or_true, if_true, List.take_zero]

end Channel
