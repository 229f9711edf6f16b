/-
# Runs that come to an end

A measure that is paid into and drawn from bounds the steps of a run by its payments.  A
measure that every chosen step lowers leads every run of chosen steps to a state in which none
of them can be taken.
-/
import PopCpp.Lib.Transition

namespace Transition

variable {σ α : Type*} {step : σ → α → Option σ}

/-- **Steps with a cost and a payment.**  If no step costs more than it pays and takes out of
`f`, the payments of a run and what `f` held at its beginning cover its costs. -/
theorem run_sum_cost_add_le {P : σ → α → Prop} {I : σ → Prop} {f : σ → ℕ} (cost pay : α → ℕ)
    (hstep : ∀ s a t, I s → P s a → step s a = some t → I t ∧ cost a + f t ≤ f s + pay a)
    {s u : σ} {as : List α} (hI : I s) (hP : Along step P s as) (hrun : run step s as = some u) :
    (as.map cost).sum + f u ≤ f s + (as.map pay).sum := by
  induction as generalizing s with
  | nil =>
      obtain rfl : s = u := Option.some.inj hrun
      simp
  | cons a as ih =>
      obtain ⟨t, hst, htu⟩ := run_cons_eq_some.mp hrun
      obtain ⟨hIt, hle⟩ := hstep s a t hI hP.1 hst
      have hrest := ih hIt (hP.2 t hst) htu
      rw [List.map_cons, List.map_cons, List.sum_cons, List.sum_cons]
      omega

/-- The sum of costs that only some steps have. -/
lemma sum_map_ite_eq_countP (p : α → Bool) (k : ℕ) (as : List α) :
    (as.map fun a => if p a then k else 0).sum = k * as.countP p := by
  induction as with
  | nil => rfl
  | cons a as ih =>
      rw [List.map_cons, List.sum_cons, ih]
      cases ha : p a
      · rw [List.countP_cons_of_neg (by simp [ha])]
        simp
      · rw [List.countP_cons_of_pos ha, Nat.mul_succ, if_pos rfl, Nat.add_comm]

lemma run_append_eq_some {s u : σ} {as bs : List α} :
    run step s (as ++ bs) = some u ↔ ∃ t, run step s as = some t ∧ run step t bs = some u := by
  induction as generalizing s with
  | nil => simp [run]
  | cons a as ih =>
      simp only [List.cons_append, run_cons_eq_some, ih]
      constructor
      · rintro ⟨t, ht, v, htv, hvu⟩
        exact ⟨v, ⟨t, ht, htv⟩, hvu⟩
      · rintro ⟨v, ⟨t, ht, htv⟩, hvu⟩
        exact ⟨t, ht, v, htv, hvu⟩

/-- **Runs that cannot go on.**  If every chosen step lowers `f`, a run of chosen steps leads
from every state of the invariant to one in which none of them can be taken. -/
theorem exists_run_stuck {Q : α → Prop} {I : σ → Prop} {f : σ → ℕ}
    (hstep : ∀ s a t, I s → Q a → step s a = some t → I t ∧ f t < f s) {s : σ} (hI : I s) :
    ∃ as u, (∀ a ∈ as, Q a) ∧ run step s as = some u ∧ ∀ a, Q a → step u a = none := by
  induction hn : f s using Nat.strong_induction_on generalizing s with
  | _ n ih =>
      by_cases hstuck : ∀ a, Q a → step s a = none
      · exact ⟨[], s, by simp, rfl, hstuck⟩
      · push Not at hstuck
        obtain ⟨a, ha, hsa⟩ := hstuck
        obtain ⟨t, hst⟩ := Option.ne_none_iff_exists'.mp hsa
        obtain ⟨hIt, hlt⟩ := hstep s a t hI ha hst
        obtain ⟨as, u, has, hrun, hu⟩ := ih (f t) (hn ▸ hlt) hIt rfl
        refine ⟨a :: as, u, fun b hb => ?_, run_cons_eq_some.mpr ⟨t, hst, hrun⟩, hu⟩
        rcases List.mem_cons.mp hb with rfl | hb
        · exact ha
        · exact has b hb

end Transition
