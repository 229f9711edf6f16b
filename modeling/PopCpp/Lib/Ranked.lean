/-
# Ranks

A list of predicates ranks the elements of a type: an element has the number of the first
predicate that holds of it, and the last rank if none does.  `Placed` says what it is to arrange a
list by rank: the same elements, the ranks in order, and those without a predicate as they stood.
A list is in order of rank exactly if each predicate in turn holds of a beginning of what is left,
and of nothing behind that (`sorted_cons_iff`).
-/
import Mathlib.Data.List.Basic
import Mathlib.Data.List.Perm.Basic
import Mathlib.Data.List.TakeWhile

namespace Ranked

variable {α : Type*} {p : α → Bool} {ps qs : List (α → Bool)} {a b c : α} {l r : List α} {n : ℕ}

/-- The number of the first predicate that holds. -/
def rank (ps : List (α → Bool)) (a : α) : ℕ := ps.findIdx fun p => p a

/-- No predicate holds. -/
def unmatched (ps : List (α → Bool)) (a : α) : Bool := ps.all fun p => !p a

/-- The ranks are in order. -/
def Sorted (ps : List (α → Bool)) (l : List α) : Prop :=
  l.Pairwise fun a b => rank ps a ≤ rank ps b

instance (ps : List (α → Bool)) (l : List α) : Decidable (Sorted ps l) :=
  inferInstanceAs (Decidable (l.Pairwise _))

/-- At most one of the predicates holds of each element. -/
def Single (ps : List (α → Bool)) (l : List α) : Prop :=
  ∀ a ∈ l, ps.Pairwise fun p q => ¬(p a = true ∧ q a = true)

instance (ps : List (α → Bool)) (l : List α) : Decidable (Single ps l) :=
  inferInstanceAs (Decidable (∀ a ∈ l, ps.Pairwise _))

/-- `r` is the list `l` arranged by rank. -/
structure Placed (ps : List (α → Bool)) (l r : List α) : Prop where
  perm : r.Perm l
  sorted : Sorted ps r
  unmatched : r.filter (unmatched ps) = l.filter (unmatched ps)

lemma placed_self_iff : Placed ps l l ↔ Sorted ps l :=
  ⟨Placed.sorted, fun h => ⟨.refl l, h, rfl⟩⟩

lemma rank_cons : rank (p :: ps) a = if p a then 0 else rank ps a + 1 := by
  rw [rank, List.findIdx_cons, rank]
  cases p a <;> rfl

lemma rank_append_le (ha : p a = true) : rank (qs ++ p :: ps) a ≤ qs.length := by
  induction qs with
  | nil => rw [List.nil_append, rank_cons, if_pos ha, List.length_nil]
  | cons q qs ih =>
      rw [List.cons_append, rank_cons, List.length_cons]
      split_ifs <;> omega

lemma lt_rank_append (hp : p a = false) (hqs : ∀ q ∈ qs, q a = false) :
    qs.length < rank (qs ++ p :: ps) a := by
  induction qs with
  | nil =>
      rw [List.nil_append, rank_cons, if_neg (by simp [hp])]
      exact Nat.succ_pos _
  | cons q qs ih =>
      rw [List.forall_mem_cons] at hqs
      rw [List.cons_append, rank_cons, if_neg (by simp [hqs.1]), List.length_cons]
      exact Nat.succ_lt_succ (ih hqs.2)

lemma Single.mono (h : Single ps l) (hr : r ⊆ l) : Single ps r := fun a ha => h a (hr ha)

lemma Single.right (h : Single (qs ++ ps) l) : Single ps l := fun a ha =>
  (List.pairwise_append.mp (h a ha)).2.1

lemma Single.tail (h : Single (p :: ps) l) : Single ps l := fun a ha =>
  (List.pairwise_cons.mp (h a ha)).2

lemma Single.eq_false (h : Single (p :: ps) l) (ha : a ∈ l) (hpa : p a = true) :
    ∀ q ∈ ps, q a = false := fun q hq => by
  simpa [hpa] using (List.pairwise_cons.mp (h a ha)).1 q hq

/-- An element of a later predicate has a greater rank. -/
lemma Single.lt_rank (h : Single (qs ++ p :: ps) l) (ha : a ∈ l) {q : α → Bool} (hq : q ∈ ps)
    (hqa : q a = true) : qs.length < rank (qs ++ p :: ps) a := by
  obtain ⟨-, hps, hqs⟩ := List.pairwise_append.mp (h a ha)
  refine lt_rank_append ?_ fun q' hq' => ?_
  · simpa [hqa] using (List.pairwise_cons.mp hps).1 q hq
  · simpa [hqa] using hqs q' hq' q (List.mem_cons_of_mem _ hq)

/-- Nothing behind an element has a smaller rank. -/
lemma Sorted.rank_le (h : Sorted ps l) (hb : l[n]? = some b) (hc : c ∈ l.drop n) :
    rank ps b ≤ rank ps c := by
  obtain ⟨hn, rfl⟩ := List.getElem?_eq_some_iff.mp hb
  have hdrop : Sorted ps (l.drop n) := h.sublist (List.drop_sublist n l)
  rw [List.drop_eq_getElem_cons hn] at hc hdrop
  rcases List.mem_cons.mp hc with rfl | hc
  · exact le_rfl
  · exact (List.pairwise_cons.mp hdrop).1 c hc

/-- Where two arrangements begin in the same way, and one of them goes on with an element behind a
predicate, the rest of the other has none of that predicate. -/
lemma Sorted.eq_false_of_perm (h : Sorted (qs ++ p :: ps) r) (hperm : r.Perm l)
    (hfront : r.take n = l.take n) (hb : r[n]? = some b)
    (hrank : qs.length < rank (qs ++ p :: ps) b) : ∀ a ∈ l.drop n, p a = false := by
  intro a ha
  have hdrop : (r.drop n).Perm (l.drop n) := by
    rw [← List.take_append_drop n r, ← List.take_append_drop n l, hfront] at hperm
    exact (List.perm_append_left_iff _).mp hperm
  have hle := h.rank_le hb (hdrop.mem_iff.mpr ha)
  by_contra hpa
  have hlow : rank (qs ++ p :: ps) a ≤ qs.length := rank_append_le (by simpa using hpa)
  omega

/-- **Order of rank, predicate by predicate.** -/
theorem sorted_cons_iff : Sorted (p :: ps) l ↔
    (∀ a ∈ l.dropWhile p, p a = false) ∧ Sorted ps (l.dropWhile p) := by
  induction l with
  | nil => simp [Sorted]
  | cons a l ih =>
      by_cases ha : p a = true
      · -- nothing has a smaller rank
        rw [List.dropWhile_cons_of_pos ha, ← ih, Sorted, List.pairwise_cons]
        refine and_iff_right fun b _ => ?_
        rw [rank_cons, if_pos ha]
        exact Nat.zero_le _
      · rw [List.dropWhile_cons_of_neg ha]
        have hcons : ∀ b, p b = false → rank (p :: ps) b = rank ps b + 1 := fun b hb => by
          rw [rank_cons, if_neg (by simp [hb])]
        have ha' : p a = false := by simpa using ha
        constructor
        · intro h
          have hall : ∀ b ∈ a :: l, p b = false := by
            intro b hb
            rw [List.mem_cons] at hb
            rcases hb with rfl | hb
            · exact ha'
            · have hle := (List.pairwise_cons.mp h).1 b hb
              rw [hcons a ha', rank_cons] at hle
              by_contra hpb
              rw [if_pos (by simpa using hpb)] at hle
              omega
          refine ⟨hall, h.imp_of_mem fun hb hc hle => ?_⟩
          rw [hcons _ (hall _ hb), hcons _ (hall _ hc)] at hle
          omega
        · rintro ⟨hall, h⟩
          refine h.imp_of_mem fun hb hc hle => ?_
          rw [hcons _ (hall _ hb), hcons _ (hall _ hc)]
          omega

end Ranked
