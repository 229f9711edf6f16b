/-
# Insertion before the first that is not smaller

A list is kept in order by putting each new element before the first one that is at least as great.
The comparisons may be partial, as those of floating point numbers are: an element that compares
with nothing stays where it is put.  What is kept is that nothing is smaller than an element before
it (`NonDecreasing.foldl_orderedInsert`).
-/
import Mathlib.Data.List.InsertIdx
import Mathlib.Data.List.Sort

namespace Insertion

variable {α β : Type*} {ge lt : α → α → Bool} {l : List α} {a : α}

/-- What the comparisons `>=` and `<` have to do with each other. -/
structure Comparison (ge lt : α → α → Bool) : Prop where
  irrefl : ∀ a, lt a a = false
  ge_of_lt : ∀ {a b}, lt a b = true → ge b a = true
  lt_of_lt_of_ge : ∀ {a b c}, lt a b = true → ge c b = true → lt a c = true

/-- Elements are compared by something they have. -/
lemma Comparison.comap (h : Comparison ge lt) (g : β → α) :
    Comparison (fun a b => ge (g a) (g b)) fun a b => lt (g a) (g b) where
  irrefl a := h.irrefl (g a)
  ge_of_lt := h.ge_of_lt
  lt_of_lt_of_ge := h.lt_of_lt_of_ge

/-- Nothing is smaller than an element before it. -/
def NonDecreasing (lt : α → α → Bool) (l : List α) : Prop := l.Pairwise fun a b => lt b a = false

lemma NonDecreasing.orderedInsert (hc : Comparison ge lt) (h : NonDecreasing lt l) (a : α) :
    NonDecreasing lt (l.orderedInsert (fun a b => ge b a = true) a) := by
  induction l with
  | nil => exact List.pairwise_singleton _ a
  | cons b l ih =>
      obtain ⟨hb, hl⟩ := List.pairwise_cons.mp h
      by_cases hge : ge b a = true
      · rw [List.orderedInsert_cons, if_pos hge]
        refine List.pairwise_cons.mpr ⟨fun c hc' => ?_, h⟩
        -- what is smaller than `a` is smaller than `b`
        rw [Bool.eq_false_iff]
        intro hlt
        have hlt' := hc.lt_of_lt_of_ge hlt hge
        rcases List.mem_cons.mp hc' with rfl | hc'
        · exact Bool.false_ne_true ((hc.irrefl c).symm.trans hlt')
        · exact Bool.false_ne_true ((hb c hc').symm.trans hlt')
      · rw [List.orderedInsert_cons, if_neg hge]
        refine List.pairwise_cons.mpr ⟨fun c hc' => ?_, ih hl⟩
        rcases (List.mem_orderedInsert _).mp hc' with rfl | hc'
        · exact Bool.eq_false_iff.mpr fun hlt => hge (hc.ge_of_lt hlt)
        · exact hb c hc'

/-- The place of the new element. -/
lemma insertIdx_findIdx (ge : α → α → Bool) (a : α) (l : List α) :
    l.insertIdx (l.findIdx fun b => ge b a) a = l.orderedInsert (fun a b => ge b a = true) a := by
  induction l with
  | nil => rfl
  | cons b l ih =>
      rw [List.findIdx_cons, List.orderedInsert_cons]
      cases hge : ge b a with
      | true => rfl
      | false =>
          rw [cond_false, if_neg Bool.false_ne_true, List.insertIdx_succ_cons, ih]

/-! ### Many elements -/

/-- Nothing is lost when elements are inserted one after the other. -/
lemma perm_foldl_orderedInsert (ge : α → α → Bool) (ts l : List α) :
    (ts.foldl (fun l t => l.orderedInsert (fun a b => ge b a = true) t) l).Perm (ts ++ l) := by
  induction ts generalizing l with
  | nil => exact .refl l
  | cons t ts ih =>
      refine (ih _).trans ?_
      exact ((List.perm_orderedInsert _ t l).append_left ts).trans List.perm_middle

lemma NonDecreasing.foldl_orderedInsert (hc : Comparison ge lt) (ts : List α)
    (h : NonDecreasing lt l) :
    NonDecreasing lt (ts.foldl (fun l t => l.orderedInsert (fun a b => ge b a = true) t) l) := by
  induction ts generalizing l with
  | nil => exact h
  | cons t ts ih => exact ih (h.orderedInsert hc t)

end Insertion
