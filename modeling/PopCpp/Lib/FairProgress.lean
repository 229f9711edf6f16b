/-
# Progress now and then

A system goes on step by step, and a measure is never raised.  Not every step lowers it: the steps
are numbered, and only those with certain numbers are known to make progress.  If there is always
another such number to come, the system is done some day (`exists_done`).
-/
import Mathlib.Logic.Function.Iterate
import Mathlib.Order.Nat
import Mathlib.Tactic.Common

namespace FairProgress

variable {σ : Type*} {step : σ → σ} {I Done : σ → Prop} {m tick : σ → ℕ} {Good : ℕ → Prop}

/-- A step ends the run, or keeps the invariant and does not raise the measure; it lowers it if its
number is good. -/
def Advances (step : σ → σ) (I Done : σ → Prop) (m tick : σ → ℕ) (Good : ℕ → Prop) : Prop :=
  ∀ s, I s → Done (step s) ∨ I (step s) ∧ tick (step s) = tick s + 1 ∧ m (step s) ≤ m s ∧
    (Good (tick s) → m (step s) < m s)

/-- With the next good step the measure is lower. -/
lemma Advances.next (h : Advances step I Done m tick Good) (d : ℕ) {s : σ} (hI : I s)
    (hgood : Good (tick s + d)) :
    ∃ n, Done (step^[n] s) ∨ I (step^[n] s) ∧ m (step^[n] s) < m s := by
  induction d generalizing s with
  | zero =>
      refine ⟨1, (h s hI).imp_right ?_⟩
      rintro ⟨hI', -, -, hlt⟩
      exact ⟨hI', hlt hgood⟩
  | succ d ih =>
      rcases h s hI with hdone | ⟨hI', htick, hle, -⟩
      · exact ⟨1, .inl hdone⟩
      · obtain ⟨n, hn⟩ := ih hI' (by rwa [htick, Nat.add_assoc, Nat.add_comm 1])
        refine ⟨n + 1, ?_⟩
        rw [Function.iterate_succ_apply]
        exact hn.imp_right fun ⟨hIn, hlt⟩ => ⟨hIn, hlt.trans_le hle⟩

/-- **Progress now and then is enough.** -/
theorem Advances.exists_done (h : Advances step I Done m tick Good)
    (hgood : ∀ k, ∃ j ≥ k, Good j) {s : σ} (hI : I s) : ∃ n, Done (step^[n] s) := by
  induction hm : m s using Nat.strong_induction_on generalizing s with
  | _ k ih =>
      obtain ⟨j, hj, hgj⟩ := hgood (tick s)
      obtain ⟨d, rfl⟩ := Nat.exists_eq_add_of_le hj
      obtain ⟨n, hdone | ⟨hI', hlt⟩⟩ := h.next d hI hgj
      · exact ⟨n, hdone⟩
      · obtain ⟨n', hn'⟩ := ih _ (hm ▸ hlt) hI' rfl
        refine ⟨n' + n, ?_⟩
        rw [Function.iterate_add_apply]
        exact hn'

end FairProgress
