/-
# What was posted and what was taken

Items are posted one after the other, and each is known by its number in this order.  Items are
taken in any order.  What is left is the list of the others, in the order in which they were
posted, and whoever takes the first one there that suits him leaves no older one behind.
-/
import Mathlib.Data.List.Basic
import Mathlib.Order.Nat
import Mathlib.Tactic.Common

namespace Ledger

variable {α : Type} {posts : List α} {taken : List ℕ} {pre post : List (α × ℕ)} {x : α × ℕ}

/-- The items that are left, with their numbers. -/
def left (posts : List α) (taken : List ℕ) : List (α × ℕ) :=
  posts.zipIdx.filter fun x => x.2 ∉ taken

lemma mem_left : x ∈ left posts taken ↔ posts[x.2]? = some x.1 ∧ x.2 ∉ taken := by
  rw [left, List.mem_filter, List.mem_zipIdx_iff_getElem?, decide_eq_true_iff]

/-- One more item. -/
lemma left_concat (h : ∀ k ∈ taken, k < posts.length) (a : α) :
    left (posts ++ [a]) taken = left posts taken ++ [(a, posts.length)] := by
  have hnew : posts.length ∉ taken := fun hmem => absurd (h _ hmem) (lt_irrefl _)
  rw [left, List.zipIdx_append, List.filter_append, left]
  simp [hnew]

lemma left_pairwise (posts : List α) (taken : List ℕ) :
    (left posts taken).Pairwise fun x y => x.2 < y.2 := by
  refine List.Pairwise.filter _ ?_
  rw [← List.pairwise_map, List.zipIdx_map_snd]
  exact List.pairwise_lt_range'

/-- One item less. -/
lemma left_take (h : left posts taken = pre ++ x :: post) :
    left posts (taken ++ [x.2]) = pre ++ post := by
  have hpairwise := left_pairwise posts taken
  rw [h, List.pairwise_append, List.pairwise_cons] at hpairwise
  obtain ⟨-, ⟨hpost, -⟩, hpre⟩ := hpairwise
  have hboth : left posts (taken ++ [x.2]) = (left posts taken).filter fun y => y.2 ≠ x.2 := by
    rw [left, left, List.filter_filter]
    refine List.filter_congr fun y _ => ?_
    simp [and_comm]
  rw [hboth, h, List.filter_append, List.filter_cons_of_neg (by simp)]
  congr 1
  · exact List.filter_eq_self.mpr fun y hy => by
      simpa using (hpre y hy x List.mem_cons_self).ne
  · exact List.filter_eq_self.mpr fun y hy => by simpa using (hpost y hy).ne'

/-- **The oldest.**  The items before the first one that suits have been taken, or do not suit. -/
theorem mem_taken_of_first {p : α → Prop} (h : left posts taken = pre ++ x :: post)
    (hpre : ∀ y ∈ pre, ¬p y.1) {k : ℕ} (hk : k < x.2) {a : α} (ha : posts[k]? = some a)
    (hp : p a) : k ∈ taken := by
  by_contra hleft
  have hmem : (a, k) ∈ left posts taken := mem_left.mpr ⟨ha, hleft⟩
  have hpairwise := left_pairwise posts taken
  rw [h, List.pairwise_append, List.pairwise_cons] at hpairwise
  rw [h, List.mem_append, List.mem_cons] at hmem
  rcases hmem with hmem | heq | hmem
  · exact hpre _ hmem hp
  · exact absurd (congrArg Prod.snd heq) hk.ne
  · exact absurd (hpairwise.2.1.1 _ hmem) hk.not_gt

end Ledger
