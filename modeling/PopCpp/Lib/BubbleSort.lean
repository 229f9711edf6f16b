/-
# Bubble sort

A list is sorted by a key, the greatest one first.  A pass goes through the list from its end and
exchanges two neighbours where the second one has the greater key, so that the greatest key
arrives at the front.  After as many passes as there are elements, each one over what is behind
the front of the one before, the list is in order.

The second part is the sort in place: two nested loops over positions, whose only access to the
list is the exchange of two neighbours.
-/
import Mathlib.Data.List.Perm.Basic
import Mathlib.Order.Lattice

namespace BubbleSort

variable {α β : Type*} [LinearOrder β] (f : α → β)

/-- The one with the greater key goes first. -/
def exchange (a b : α) (rest : List α) : List α :=
  if f b > f a then b :: a :: rest else a :: b :: rest

/-- One pass, from the end to the front. -/
def pass : List α → List α
  | [] => []
  | x :: xs =>
      match pass xs with
      | [] => [x]
      | y :: ys => exchange f x y ys

/-- The passes, each one behind the front of the one before. -/
def passes : ℕ → List α → List α
  | 0, xs => xs
  | n + 1, xs =>
      match pass f xs with
      | [] => []
      | y :: ys => y :: passes n ys

lemma exchange_perm (a b : α) (rest : List α) : (exchange f a b rest).Perm (a :: b :: rest) := by
  rw [exchange]
  split
  · exact List.Perm.swap a b rest
  · exact List.Perm.refl _

lemma pass_perm (xs : List α) : (pass f xs).Perm xs := by
  induction xs with
  | nil => exact List.Perm.refl _
  | cons x xs ih =>
      rw [pass]
      split
      · next hnil =>
          rw [hnil] at ih
          rw [ih.nil_eq]
      · next y ys hcons =>
          rw [hcons] at ih
          exact (exchange_perm f x y ys).trans (ih.cons x)

lemma pass_ne_nil (x : α) (xs : List α) : ∃ y ys, pass f (x :: xs) = y :: ys := by
  refine List.exists_cons_of_ne_nil fun hnil => ?_
  have hperm := pass_perm f (x :: xs)
  rw [hnil] at hperm
  exact List.cons_ne_nil x xs hperm.nil_eq.symm

/-- A pass brings the greatest key to the front. -/
lemma le_of_pass {xs ys : List α} {y : α} (h : pass f xs = y :: ys) : ∀ x ∈ ys, f x ≤ f y := by
  induction xs generalizing y ys with
  | nil => cases h
  | cons a xs ih =>
      rw [pass] at h
      split at h
      · cases h
        exact fun x hx => absurd hx List.not_mem_nil
      · next b bs hcons =>
          rw [exchange] at h
          split at h
          · next hlt =>
              cases h
              intro x hx
              rcases List.mem_cons.mp hx with rfl | hx
              · exact hlt.le
              · exact ih hcons x hx
          · next hle =>
              cases h
              intro x hx
              have hba := not_lt.mp hle
              rcases List.mem_cons.mp hx with rfl | hx
              · exact hba
              · exact (ih hcons x hx).trans hba

lemma passes_perm (n : ℕ) (xs : List α) : (passes f n xs).Perm xs := by
  induction n generalizing xs with
  | zero => exact List.Perm.refl _
  | succ n ih =>
      have hperm := pass_perm f xs
      rw [passes]
      split
      · next hnil => rwa [hnil] at hperm
      · next y ys hcons =>
          rw [hcons] at hperm
          exact ((ih ys).cons y).trans hperm

/-- The passes put the list in order. -/
theorem passes_sorted {n : ℕ} {xs : List α} (h : xs.length ≤ n) :
    (passes f n xs).Pairwise fun a b => f b ≤ f a := by
  induction n generalizing xs with
  | zero =>
      rw [List.length_eq_zero_iff.mp (Nat.le_zero.mp h)]
      exact List.Pairwise.nil
  | succ n ih =>
      have hlen := (pass_perm f xs).length_eq
      rw [passes]
      split
      · exact List.Pairwise.nil
      · next y ys hcons =>
          rw [hcons, List.length_cons] at hlen
          refine List.Pairwise.cons (fun x hx => ?_) (ih (by omega))
          exact le_of_pass f hcons x ((passes_perm f n ys).mem_iff.mp hx)

/-! ### In place -/

section inPlace

variable {swap : List α → ℕ → List α}
  (hswap : ∀ (done : List α) (a b : α) (rest : List α),
    swap (done ++ a :: b :: rest) (done.length + 1) = done ++ exchange f a b rest)

include hswap

/-- The inner loop is a pass over what is behind the front. -/
lemma foldl_swap (done rest : List α) :
    (List.range' (done.length + 1) (rest.length - 1)).reverse.foldl swap (done ++ rest) =
      done ++ pass f rest := by
  induction rest generalizing done with
  | nil => rfl
  | cons x xs ih =>
      cases xs with
      | nil => rfl
      | cons z zs =>
          obtain ⟨y, ys, hpass⟩ := pass_ne_nil f z zs
          have hrest := ih (done ++ [x])
          simp only [List.length_append, List.length_cons, List.length_nil, Nat.zero_add,
            List.append_assoc, List.cons_append, List.nil_append, Nat.add_sub_cancel] at hrest
          have hrange : List.range' (done.length + 1) ((x :: z :: zs).length - 1) =
              (done.length + 1) :: List.range' (done.length + 1 + 1) zs.length := rfl
          rw [hrange, List.reverse_cons, List.foldl_append, hrest, hpass, List.foldl_cons,
            List.foldl_nil, hswap, pass, hpass]

/-- The outer loop makes all passes. -/
lemma foldl_foldl_swap (done rest : List α) :
    (List.range' done.length rest.length).foldl
        (fun xs i =>
          (List.range' (i + 1) (done.length + rest.length - 1 - i)).reverse.foldl swap xs)
        (done ++ rest) =
      done ++ passes f rest.length rest := by
  induction hn : rest.length generalizing done rest with
  | zero => rfl
  | succ n ih =>
      obtain ⟨x, xs, rfl⟩ := List.exists_cons_of_length_eq_add_one hn
      obtain ⟨y, ys, hpass⟩ := pass_ne_nil f x xs
      have hlen := (pass_perm f (x :: xs)).length_eq
      rw [hpass, hn, List.length_cons] at hlen
      have hfront := foldl_swap f hswap done (x :: xs)
      rw [hn, hpass] at hfront
      have hrest := ih (done ++ [y]) ys (by omega)
      simp only [List.length_append, List.length_singleton, List.append_assoc,
        List.singleton_append] at hrest
      rw [List.range'_succ, List.foldl_cons, passes, hpass,
        show done.length + (n + 1) - 1 - done.length = n + 1 - 1 by omega, hfront,
        show done.length + (n + 1) - 1 = done.length + 1 + n - 1 by omega, hrest]

/-- **The sort in place** is a permutation of the list, in order. -/
theorem foldl_range (xs : List α) :
    let sorted := (List.range xs.length).foldl
      (fun ys i => (List.range' (i + 1) (xs.length - 1 - i)).reverse.foldl swap ys) xs
    sorted.Perm xs ∧ sorted.Pairwise fun a b => f b ≤ f a := by
  have hsort := foldl_foldl_swap f hswap [] xs
  simp only [List.length_nil, Nat.zero_add, List.nil_append] at hsort
  simp only [List.range_eq_range', hsort]
  exact ⟨passes_perm f _ xs, passes_sorted f (Nat.le_refl _)⟩

end inPlace

end BubbleSort
