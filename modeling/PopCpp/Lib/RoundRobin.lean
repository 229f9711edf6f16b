/-
# Taking turns

`n` parties are asked in turn, from the first one on and from the beginning again after the last
one.  A log of the questions goes round if the `k`th one went to party `k % n`.  Then its last
questions have gone to all parties if and only if there are at least `n` of them
(`covers_iff_le`).

The other part is about the items at the end of a list that have a property: they are all that
have it if and only if no item without it comes behind one with it.
-/
import Mathlib.Data.List.DropRight
import Mathlib.Order.Interval.Finset.Nat

namespace RoundRobin

variable {n : ℕ} {α : Type*}

/-- The party after `i`. -/
def next (i : Fin n) : Fin n :=
  if h : (i : ℕ) + 1 < n then ⟨i + 1, h⟩ else ⟨0, i.pos⟩

lemma next_val {i : Fin n} {k : ℕ} (h : (i : ℕ) = k % n) : (next i : ℕ) = (k + 1) % n := by
  have hmod : (k + 1) % n = (i + 1) % n := by rw [h, Nat.mod_add_mod]
  rw [next, hmod]
  split
  · next hlt => exact (Nat.mod_eq_of_lt hlt).symm
  · next hge =>
      have heq : (i : ℕ) + 1 = n := by omega
      rw [heq, Nat.mod_self]

/-- The questions have gone to the parties in turn. -/
def GoesRound (log : List (Fin n × α)) : Prop :=
  ∀ (k : ℕ) (hk : k < log.length), (log[k].1 : ℕ) = k % n

/-- Each party has been asked. -/
def Covers (log : List (Fin n × α)) : Prop := ∀ i, ∃ c ∈ log, c.1 = i

lemma goesRound_nil : GoesRound ([] : List (Fin n × α)) := fun _ hk => absurd hk (Nat.not_lt_zero _)

lemma GoesRound.concat {log : List (Fin n × α)} (h : GoesRound log) {i : Fin n}
    (hi : (i : ℕ) = log.length % n) (a : α) : GoesRound (log ++ [(i, a)]) := by
  intro k hk
  rcases Nat.lt_or_ge k log.length with hlt | hge
  · rw [List.getElem_append_left hlt]
    exact h k hlt
  · obtain rfl : k = log.length := by
      rw [List.length_append, List.length_singleton] at hk
      omega
    rw [List.getElem_concat_length rfl]
    exact hi

lemma Covers.le_length {log : List (Fin n × α)} (h : Covers log) : n ≤ log.length := by
  have hsub : (Finset.univ : Finset (Fin n)) ⊆ (log.map Prod.fst).toFinset := fun i _ => by
    obtain ⟨c, hc, rfl⟩ := h i
    exact List.mem_toFinset.mpr (List.mem_map_of_mem hc)
  calc n = (Finset.univ : Finset (Fin n)).card := (Finset.card_fin n).symm
    _ ≤ (log.map Prod.fst).toFinset.card := Finset.card_le_card hsub
    _ ≤ (log.map Prod.fst).length := List.toFinset_card_le _
    _ = log.length := List.length_map _

/-- The last questions have gone to everyone if there are enough of them. -/
lemma GoesRound.covers {log last : List (Fin n × α)} (h : GoesRound log) (hlast : last <:+ log)
    (hn : n ≤ last.length) : Covers last := by
  intro i
  have hle := hlast.length_le
  have hmem : (i : ℕ) ∈ (Finset.Ico (log.length - last.length)
      (log.length - last.length + n)).image (· % n) := by
    rw [Nat.image_Ico_mod]
    exact Finset.mem_range.mpr i.2
  obtain ⟨k, hk, hki⟩ := Finset.mem_image.mp hmem
  rw [Finset.mem_Ico] at hk
  have hlt : k < log.length := by omega
  refine ⟨log[k], ?_, Fin.ext ((h k hlt).trans hki)⟩
  rw [List.suffix_iff_eq_drop.mp hlast]
  exact List.mem_drop_iff_getElem.mpr
    ⟨k - (log.length - last.length), by omega, by congr 1; omega⟩

theorem GoesRound.covers_iff_le {log last : List (Fin n × α)} (h : GoesRound log)
    (hlast : last <:+ log) : Covers last ↔ n ≤ last.length :=
  ⟨Covers.le_length, h.covers hlast⟩

/-! ### The end of a list -/

section Tail

variable {p : α → Bool} {l : List α}

lemma countP_eq_add_rtakeWhile (p : α → Bool) (l : List α) :
    l.countP p = (l.rdropWhile p).countP p + (l.rtakeWhile p).length := by
  have hend : (l.rtakeWhile p).countP p = (l.rtakeWhile p).length :=
    List.countP_eq_length.mpr fun _ => List.mem_rtakeWhile_imp
  conv_lhs => rw [← List.rdropWhile_append_rtakeWhile (p := p) (l := l)]
  rw [List.countP_append, hend]

/-- No item before the end has the property, if none without it comes behind one with it. -/
lemma countP_eq_length_rtakeWhile (h : l.Pairwise fun a b => p a = true → p b = true) :
    l.countP p = (l.rtakeWhile p).length := by
  rw [countP_eq_add_rtakeWhile, Nat.add_eq_right, List.countP_eq_zero]
  intro x hx hpx
  have hne : l.rdropWhile p ≠ [] := List.ne_nil_of_mem hx
  have hlast := List.rdropWhile_last_not p l hne
  have hpair := h.sublist (List.rdropWhile_prefix p l).sublist
  rw [← List.dropLast_append_getLast hne, List.pairwise_append] at hpair
  rw [← List.dropLast_append_getLast hne, List.mem_append, List.mem_singleton] at hx
  rcases hx with hx | rfl
  · exact hlast (hpair.2.2 x hx _ (List.mem_singleton_self _) hpx)
  · exact hlast hpx

lemma pairwise_of_countP_le (h : l.countP p ≤ (l.rtakeWhile p).length) :
    l.Pairwise fun a b => p a = true → p b = true := by
  have hnone : ∀ x ∈ l.rdropWhile p, ¬p x = true := by
    rw [countP_eq_add_rtakeWhile] at h
    exact List.countP_eq_zero.mp (by omega)
  rw [← List.rdropWhile_append_rtakeWhile (p := p) (l := l), List.pairwise_append]
  refine ⟨?_, ?_, fun a ha _ _ hpa => absurd hpa (hnone a ha)⟩
  · exact List.Pairwise.imp_of_mem (fun ha _ _ hpa => absurd hpa (hnone _ ha))
      (List.pairwise_of_forall fun _ _ => trivial)
  · exact List.Pairwise.imp_of_mem (fun _ hb _ _ => List.mem_rtakeWhile_imp hb)
      (List.pairwise_of_forall fun _ _ => trivial)

end Tail

end RoundRobin
