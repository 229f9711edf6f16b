/-
# Runs that conform to a specification

A system with a partial step function is compared with a total one that says what the states
should be.  Where the steps that meet a side condition keep the two states related, and every other
step gets stuck or leaves something in the system that no related state has and no step removes, a
run ends in a related state exactly if all its steps meet the condition (`run_conforms_iff`).
-/
import PopCpp.Lib.Transition

namespace Transition

variable {σ τ α : Type*} {step : σ → α → Option σ} {f : τ → α → τ} {R : σ → τ → Prop}
  {P : τ → α → Prop} {Lost : σ → Prop}

/-- What is lost stays lost. -/
lemma run_lost (hlost : ∀ s a s', Lost s → step s a = some s' → Lost s') {s u : σ} {as : List α}
    (hs : Lost s) (hrun : run step s as = some u) : Lost u :=
  run_invariant_along (P := fun _ _ => True) (fun s a t hs _ hst => hlost s a t hs hst) hs
    (along_of_forall fun _ _ _ => trivial) hrun

/-- **Runs that conform.** -/
theorem run_conforms_iff
    (hkeep : ∀ s t a, R s t → P t a → ∃ s', step s a = some s' ∧ R s' (f t a))
    (hlose : ∀ s t a s', R s t → ¬P t a → step s a = some s' → Lost s')
    (hlost : ∀ s a s', Lost s → step s a = some s' → Lost s')
    (hnot : ∀ s t, R s t → ¬Lost s) {s : σ} {t : τ} {as : List α} (hR : R s t) :
    (∃ u, run step s as = some u ∧ R u (as.foldl f t)) ↔
      Along (fun t a => some (f t a)) P t as := by
  induction as generalizing s t with
  | nil => exact iff_of_true ⟨s, rfl, hR⟩ trivial
  | cons a as ih =>
      rw [List.foldl_cons]
      by_cases hP : P t a
      · obtain ⟨s', hst, hR'⟩ := hkeep s t a hR hP
        have hrest : (∃ u, run step s (a :: as) = some u ∧ R u (as.foldl f (f t a))) ↔
            ∃ u, run step s' as = some u ∧ R u (as.foldl f (f t a)) := by
          simp only [run, hst, Option.bind_some]
        rw [hrest, ih hR']
        exact ⟨fun h => ⟨hP, fun t' ht => Option.some.inj ht ▸ h⟩, fun h => h.2 _ rfl⟩
      · refine iff_of_false ?_ fun h => hP h.1
        rintro ⟨u, hrun, hRu⟩
        obtain ⟨s', hst, hsu⟩ := run_cons_eq_some.mp hrun
        exact hnot u _ hRu (run_lost hlost (hlose s t a s' hR hP hst) hsu)

end Transition
