/-
# Runs seen through an abstraction

A function `f` takes the states of one system to those of another.  Where a step of the first
system either leaves the abstract state as it is or is a step of the second one, a run of the
first is a run of the second with some steps left out.
-/
import PopCpp.Lib.Transition

namespace Transition

variable {σ τ α β : Type*} {step : σ → α → Option σ} {step' : τ → β → Option τ} {f : σ → τ}
  {P : α → Prop} {Q : β → Prop}

/-- **Stuttering.** -/
theorem exists_run_of_stuttering
    (hstep : ∀ s a t, P a → step s a = some t →
      f t = f s ∨ ∃ b, Q b ∧ step' (f s) b = some (f t)) {s t : σ} {as : List α}
    (hP : ∀ a ∈ as, P a) (hrun : run step s as = some t) :
    ∃ bs, (∀ b ∈ bs, Q b) ∧ run step' (f s) bs = some (f t) := by
  induction as generalizing s with
  | nil =>
      obtain rfl : s = t := Option.some.inj hrun
      exact ⟨[], fun _ hb => absurd hb List.not_mem_nil, rfl⟩
  | cons a as ih =>
      obtain ⟨u, hsu, hut⟩ := run_cons_eq_some.mp hrun
      obtain ⟨bs, hQ, hbs⟩ := ih (fun b hb => hP b (List.mem_cons_of_mem _ hb)) hut
      rcases hstep s a u (hP a List.mem_cons_self) hsu with hsame | ⟨b, hb, hsb⟩
      · exact ⟨bs, hQ, hsame ▸ hbs⟩
      · exact ⟨b :: bs, List.forall_mem_cons.mpr ⟨hb, hQ⟩,
          run_cons_eq_some.mpr ⟨f u, hsb, hbs⟩⟩

end Transition
