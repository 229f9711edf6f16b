/-
# The greatest elements of a set

`IsGreatestSubset k s t` says that `t` consists of the `k` greatest elements of `s`, or of all if
there are fewer.  There is one such set (`IsGreatestSubset.eq`).  Elements that arrive one at a
time keep it up to date when the least one is dropped each time there are more than `k`
(`IsGreatestSubset.insert_erase`), whatever the order in which they arrive.
-/
import Mathlib.Data.Finset.Card
import Mathlib.Order.Lattice

variable {α : Type*} [LinearOrder α] {k : ℕ} {s t t' : Finset α} {a m : α}

/-- The `k` greatest elements of `s`, or all of them. -/
structure IsGreatestSubset (k : ℕ) (s t : Finset α) : Prop where
  subset : t ⊆ s
  upper : ∀ x ∈ t, ∀ y ∈ s, x < y → y ∈ t
  card : t.card = min k s.card

namespace IsGreatestSubset

lemma empty (k : ℕ) : IsGreatestSubset k (∅ : Finset α) ∅ :=
  ⟨Finset.Subset.rfl, by simp, by simp⟩

/-- Two sets that are closed upwards in the same set are comparable. -/
lemma subset_or_subset (h : IsGreatestSubset k s t) (h' : IsGreatestSubset k s t') :
    t ⊆ t' ∨ t' ⊆ t := by
  by_contra hboth
  rw [not_or, Finset.not_subset, Finset.not_subset] at hboth
  obtain ⟨⟨x, hx, hx'⟩, y, hy, hy'⟩ := hboth
  rcases lt_trichotomy x y with hlt | rfl | hlt
  · exact hy' (h.upper x hx y (h'.subset hy) hlt)
  · exact hx' hy
  · exact hx' (h'.upper y hy x (h.subset hx) hlt)

protected lemma eq (h : IsGreatestSubset k s t) (h' : IsGreatestSubset k s t') : t = t' := by
  have hcard : t.card = t'.card := h.card.trans h'.card.symm
  rcases h.subset_or_subset h' with hsub | hsub
  · exact Finset.eq_of_subset_of_card_le hsub hcard.ge
  · exact (Finset.eq_of_subset_of_card_le hsub hcard.le).symm

/-- As long as there are no more than `k`, all are kept. -/
lemma insert_of_le (h : IsGreatestSubset k s t) (ha : a ∉ s) (hle : (insert a t).card ≤ k) :
    IsGreatestSubset k (insert a s) (insert a t) := by
  have hat : a ∉ t := fun hmem => ha (h.subset hmem)
  rw [Finset.card_insert_of_notMem hat] at hle
  have hcard := h.card
  have hts : t = s := Finset.eq_of_subset_of_card_le h.subset (by omega)
  subst hts
  refine ⟨Finset.Subset.rfl, fun x _ y hy _ => hy, ?_⟩
  rw [Finset.card_insert_of_notMem ha]
  omega

/-- When there are more, the least one is dropped. -/
lemma insert_erase (h : IsGreatestSubset k s t) (ha : a ∉ s) (hlt : k < (insert a t).card)
    (hm : m ∈ insert a t) (hleast : ∀ x ∈ insert a t, m ≤ x) :
    IsGreatestSubset k (insert a s) ((insert a t).erase m) := by
  have hat : a ∉ t := fun hmem => ha (h.subset hmem)
  have hcard := h.card
  refine ⟨fun x hx => ?_, fun x hx y hy hxy => ?_, ?_⟩
  · exact Finset.insert_subset_insert a h.subset (Finset.mem_of_mem_erase hx)
  · obtain ⟨hxm, hx⟩ := Finset.mem_erase.mp hx
    have hmy : m < y := (hleast x hx).trans_lt hxy
    refine Finset.mem_erase.mpr ⟨hmy.ne', ?_⟩
    rcases Finset.mem_insert.mp hy with rfl | hys
    · exact Finset.mem_insert_self _ _
    · -- one of the elements that were kept before is below `y`
      refine Finset.mem_insert_of_mem ?_
      rcases Finset.mem_insert.mp hx with rfl | hx
      · have hmt : m ∈ t := (Finset.mem_insert.mp hm).resolve_left hxm.symm
        exact h.upper m hmt y hys hmy
      · exact h.upper x hx y hys hxy
  · rw [Finset.card_insert_of_notMem hat] at hlt
    rw [Finset.card_erase_of_mem hm, Finset.card_insert_of_notMem hat,
      Finset.card_insert_of_notMem ha]
    omega

end IsGreatestSubset
