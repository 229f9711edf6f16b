/-
# Mailboxes

A family of first-in first-out queues, one for each key: what has been sent on a channel and
not been taken from it yet.  `post` puts one more item at the end of one queue; an item is taken
by storing the rest of its queue.  The two lemmas on sums compare a total over all keys before
and after a change at a single key.
-/
import Mathlib.Algebra.BigOperators.Group.Finset.Basic
import Mathlib.Data.Fintype.Basic

namespace Mailbox

variable {κ α : Type*} [DecidableEq κ]

/-- One more item at the end of the queue of `k`. -/
def post (m : κ → List α) (k : κ) (x : α) : κ → List α := Function.update m k (m k ++ [x])

@[simp] lemma post_self (m : κ → List α) (k : κ) (x : α) : post m k x k = m k ++ [x] :=
  Function.update_self ..

@[simp] lemma post_of_ne {m : κ → List α} {k l : κ} (h : l ≠ k) (x : α) : post m k x l = m l :=
  Function.update_of_ne h ..

/-- A value that a change leaves alone where it is made is left alone everywhere. -/
lemma apply_update_of_eq {ι β γ : Type*} [DecidableEq ι] {f : ι → β} {i : ι} {x : β} (g : β → γ)
    (h : g x = g (f i)) (j : ι) : g (Function.update f i x j) = g (f j) := by
  by_cases hj : j = i
  · subst hj
    rwa [Function.update_self]
  · rw [Function.update_of_ne hj]

/-- An item that a filter drops does not show in a filtered queue. -/
lemma filterMap_post {β : Type*} {f : α → Option β} {m : κ → List α} {k l : κ} {x : α}
    (hx : f x = none) : (post m k x l).filterMap f = (m l).filterMap f := by
  by_cases hl : l = k
  · subst hl
    simp [hx]
  · rw [post_of_ne hl]

variable {ι : Type*} [Fintype ι] [DecidableEq ι]

/-- Two functions that differ at one index at most have totals that differ as they do there. -/
lemma sum_add_eq_sum_add {f g : ι → ℕ} (i : ι) (h : ∀ j, j ≠ i → f j = g j) :
    ∑ j, f j + g i = ∑ j, g j + f i := by
  have hrest : ∑ j ∈ Finset.univ.erase i, f j = ∑ j ∈ Finset.univ.erase i, g j :=
    Finset.sum_congr rfl fun j hj => h j (Finset.ne_of_mem_erase hj)
  rw [← Finset.add_sum_erase Finset.univ f (Finset.mem_univ i),
    ← Finset.add_sum_erase Finset.univ g (Finset.mem_univ i), hrest]
  omega

/-- The total weight of a family, one of whose members is replaced. -/
lemma sum_update_add {β : Type*} (w : β → ℕ) (f : ι → β) (i : ι) (x : β) :
    ∑ j, w (Function.update f i x j) + w (f i) = ∑ j, w (f j) + w x := by
  have h := sum_add_eq_sum_add (f := fun j => w (Function.update f i x j))
    (g := fun j => w (f j)) i fun j hj => by rw [Function.update_of_ne hj]
  rwa [Function.update_self] at h

/-- The total weight of the queues that lead to `l`, after a change of the queue `(x, y)` only. -/
lemma sum_fst_add {μ : Type*} [DecidableEq μ] (w : List α → ℕ) {m p : ι × μ → List α} {x : ι}
    {y : μ} (h : ∀ k, k ≠ (x, y) → p k = m k) (l : μ) :
    ∑ i, w (p (i, l)) + (if l = y then w (m (x, y)) else 0) =
      ∑ i, w (m (i, l)) + (if l = y then w (p (x, y)) else 0) := by
  by_cases hl : l = y
  · subst hl
    rw [if_pos rfl, if_pos rfl]
    refine sum_add_eq_sum_add (f := fun i => w (p (i, l))) (g := fun i => w (m (i, l))) x ?_
    intro i hi
    rw [h (i, l) fun hk => hi (Prod.mk.inj hk).1]
  · rw [if_neg hl, if_neg hl]
    exact congrArg (· + 0) (Finset.sum_congr rfl fun i _ => by
      rw [h (i, l) fun hk => hl (Prod.mk.inj hk).2])

end Mailbox
