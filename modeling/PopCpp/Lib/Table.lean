/-
# Tables

A function of two keys, changed at one pair of them.  What is stored at the other pairs stays, so
a fact about a changed table is one about the new entry and one about the old table.
-/
import Mathlib.Logic.Function.Basic

namespace Table

variable {α β γ : Type*} [DecidableEq α] [DecidableEq β]

/-- The table with a new entry. -/
def put (f : α → β → γ) (a : α) (b : β) (x : γ) : α → β → γ :=
  fun a' b' => if a' = a ∧ b' = b then x else f a' b'

/-- One more item at the end of the entry. -/
def post {γ : Type*} (f : α → β → List γ) (a : α) (b : β) (x : γ) : α → β → List γ :=
  put f a b (f a b ++ [x])

variable {f : α → β → γ} {a a' : α} {b b' : β} {x : γ}

lemma put_apply : put f a b x a' b' = if a' = a ∧ b' = b then x else f a' b' := rfl

@[simp] lemma put_self : put f a b x a b = x := if_pos ⟨rfl, rfl⟩

lemma put_of_ne_left (h : a' ≠ a) : put f a b x a' b' = f a' b' := if_neg fun heq => h heq.1

lemma put_of_ne_right (h : b' ≠ b) : put f a b x a' b' = f a' b' := if_neg fun heq => h heq.2

/-- The row of another first key is not touched. -/
lemma put_row_of_ne (h : a' ≠ a) : put f a b x a' = f a' :=
  funext fun _ => put_of_ne_left h

/-- Storing what is there already changes nothing. -/
lemma put_eq_self (h : f a b = x) : put f a b x = f := by
  ext a' b'
  rw [put_apply]
  split
  · next heq => rw [heq.1, heq.2, h]
  · rfl

/-- Clearing an entry leaves an entry that is not empty as it was. -/
lemma ne_nil_of_put_nil {γ : Type*} {f : α → β → List γ} (h : put f a b [] a' b' ≠ []) :
    f a' b' ≠ [] := by
  rw [put_apply] at h
  split at h
  · exact absurd rfl h
  · exact h

end Table
