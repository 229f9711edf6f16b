/-
# Runs of a system given by a partial step function

A system is a function `step` that takes a state and an action to the next state, or to
`none` when the action is not enabled.  A run is a list of actions, each enabled where it
is taken.  This file collects the rules by which a property of single steps becomes a
property of whole runs: an invariant, an invariant of those runs only in which every step
meets a side condition, a measure that tells these runs from the others, and measures that
bound their length.
-/
import Mathlib.Algebra.Order.Ring.Int
import Mathlib.Data.List.Basic

namespace Transition

variable {σ α : Type*}

/-- The state that a list of actions leads to, or `none` when one of them is not enabled
where it is taken. -/
def run (step : σ → α → Option σ) : σ → List α → Option σ
  | s, [] => some s
  | s, a :: as => (step s a).bind fun s' => run step s' as

/-- Every step of the run from `s` along `as` meets the side condition `P`, which reads the
state before the step and the action taken in it. -/
def Along (step : σ → α → Option σ) (P : σ → α → Prop) : σ → List α → Prop
  | _, [] => True
  | s, a :: as => P s a ∧ ∀ s', step s a = some s' → Along step P s' as

variable {step : σ → α → Option σ}

instance Along.instDecidable {P : σ → α → Prop} [∀ s a, Decidable (P s a)] :
    ∀ (s : σ) (as : List α), Decidable (Along step P s as)
  | _, [] => isTrue trivial
  | s, a :: as =>
      match h : step s a with
      | none => decidable_of_iff (P s a) ⟨fun hP => ⟨hP, by simp [h]⟩, And.left⟩
      | some t =>
          have : Decidable (Along step P t as) := Along.instDecidable t as
          decidable_of_iff (P s a ∧ Along step P t as)
            ⟨fun hP => ⟨hP.1, by rintro _ hs; cases h.symm.trans hs; exact hP.2⟩,
              fun hP => ⟨hP.1, hP.2 t h⟩⟩

lemma run_cons_eq_some {s u : σ} {a : α} {as : List α} :
    run step s (a :: as) = some u ↔ ∃ t, step s a = some t ∧ run step t as = some u := by
  simp only [run, Option.bind_eq_some_iff]

/-- **Invariants of runs with a side condition.** -/
theorem run_invariant_along {P : σ → α → Prop} {I : σ → Prop}
    (hstep : ∀ s a t, I s → P s a → step s a = some t → I t) {s u : σ} {as : List α}
    (hI : I s) (hP : Along step P s as) (hrun : run step s as = some u) : I u := by
  induction as generalizing s with
  | nil =>
      obtain rfl : s = u := Option.some.inj hrun
      exact hI
  | cons a as ih =>
      obtain ⟨t, hst, htu⟩ := run_cons_eq_some.mp hrun
      exact ih (hstep s a t hI hP.1 hst) (hP.2 t hst) htu

lemma along_of_forall {P : σ → α → Prop} {s : σ} {as : List α}
    (h : ∀ s, ∀ a ∈ as, P s a) : Along step P s as := by
  induction as generalizing s with
  | nil => trivial
  | cons a as ih =>
      exact ⟨h s a (by simp), fun s' _ => ih fun u b hb => h u b (by simp [hb])⟩

/-- Two side conditions that say the same in every state of an invariant, which steps that meet
them keep, hold along the same runs. -/
lemma along_iff_of_invariant {P Q : σ → α → Prop} {I : σ → Prop}
    (hiff : ∀ s a, I s → (P s a ↔ Q s a))
    (hinv : ∀ s a t, I s → P s a → step s a = some t → I t) {s : σ} {as : List α} (hI : I s) :
    Along step P s as ↔ Along step Q s as := by
  induction as generalizing s with
  | nil => exact Iff.rfl
  | cons a as ih =>
      constructor
      · rintro ⟨hP, has⟩
        exact ⟨(hiff s a hI).mp hP, fun t hst => (ih (hinv s a t hI hP hst)).mp (has t hst)⟩
      · rintro ⟨hQ, has⟩
        have hP := (hiff s a hI).mpr hQ
        exact ⟨hP, fun t hst => (ih (hinv s a t hI hP hst)).mpr (has t hst)⟩

lemma Along.mono {P Q : σ → α → Prop} (h : ∀ s a, P s a → Q s a) {s : σ} {as : List α}
    (hP : Along step P s as) : Along step Q s as := by
  induction as generalizing s with
  | nil => trivial
  | cons a as ih => exact ⟨h s a hP.1, fun s' hs => ih (hP.2 s' hs)⟩

lemma Along.and {P Q : σ → α → Prop} {s : σ} {as : List α} (hP : Along step P s as)
    (hQ : Along step Q s as) : Along step (fun s a => P s a ∧ Q s a) s as := by
  induction as generalizing s with
  | nil => trivial
  | cons a as ih => exact ⟨⟨hP.1, hQ.1⟩, fun s' hs => ih (hP.2 s' hs) (hQ.2 s' hs)⟩

lemma run_concat {s t u : σ} {a : α} {as : List α} (hrun : run step s as = some t)
    (hst : step t a = some u) : run step s (as ++ [a]) = some u := by
  induction as generalizing s with
  | nil =>
      obtain rfl : s = t := Option.some.inj hrun
      simp [run, hst]
  | cons b as ih =>
      obtain ⟨s', hsb, hrun⟩ := run_cons_eq_some.mp hrun
      exact run_cons_eq_some.mpr ⟨s', hsb, ih hrun⟩

/-- The states that runs from `s₀` lead to. -/
def Reachable (step : σ → α → Option σ) (s₀ s : σ) : Prop := ∃ as, run step s₀ as = some s

/-- **Invariants.**  The step may lean on the reachability of the state before it. -/
theorem Reachable.invariant {I : σ → Prop} {s₀ s : σ} (h : Reachable step s₀ s) (hI : I s₀)
    (hstep : ∀ s a t, Reachable step s₀ s → I s → step s a = some t → I t) : I s := by
  obtain ⟨as, hrun⟩ := h
  have hinv : Reachable step s₀ s ∧ I s := by
    refine run_invariant_along (P := fun _ _ => True) (I := fun s => Reachable step s₀ s ∧ I s)
      (fun s a t hs _ hst => ?_) ⟨⟨[], rfl⟩, hI⟩ (along_of_forall fun _ _ _ => trivial) hrun
    obtain ⟨⟨bs, hbs⟩, his⟩ := hs
    exact ⟨⟨bs ++ [a], run_concat hbs hst⟩, hstep s a t ⟨bs, hbs⟩ his hst⟩
  exact hinv.2

/-- **Measures that only a bad step moves.**  If `f` is kept by every step that meets the side
condition and raised by every other one, then a run leaves `f` where it was exactly when all
its steps meet the condition.  The steps may lean on an invariant. -/
theorem run_measure_eq_iff_of_invariant {P : σ → α → Prop} {I : σ → Prop} {f : σ → ℤ}
    (hinv : ∀ s a t, I s → step s a = some t → I t)
    (hkeep : ∀ s a t, I s → step s a = some t → P s a → f t = f s)
    (hraise : ∀ s a t, I s → step s a = some t → ¬P s a → f s < f t) {s u : σ} {as : List α}
    (hI : I s) (hrun : run step s as = some u) :
    f s ≤ f u ∧ (f u = f s ↔ Along step P s as) := by
  induction as generalizing s with
  | nil =>
      obtain rfl : s = u := Option.some.inj hrun
      exact ⟨le_rfl, iff_of_true rfl trivial⟩
  | cons a as ih =>
      obtain ⟨t, hst, htu⟩ := run_cons_eq_some.mp hrun
      obtain ⟨hle, hiff⟩ := ih (hinv s a t hI hst) htu
      by_cases hP : P s a
      · have hts := hkeep s a t hI hst hP
        refine ⟨hts ▸ hle, fun h => ⟨hP, fun t' hst' => ?_⟩, fun h => ?_⟩
        · obtain rfl : t = t' := Option.some.inj (hst.symm.trans hst')
          exact hiff.mp (h.trans hts.symm)
        · exact (hiff.mpr (h.2 t hst)).trans hts
      · have hlt := hraise s a t hI hst hP
        refine ⟨(hlt.trans_le hle).le, fun h => ?_, fun h => absurd h.1 hP⟩
        exact absurd h (hlt.trans_le hle).ne'

theorem run_measure_eq_iff {P : σ → α → Prop} {f : σ → ℤ}
    (hkeep : ∀ s a t, step s a = some t → P s a → f t = f s)
    (hraise : ∀ s a t, step s a = some t → ¬P s a → f s < f t) {s u : σ} {as : List α}
    (hrun : run step s as = some u) : f s ≤ f u ∧ (f u = f s ↔ Along step P s as) :=
  run_measure_eq_iff_of_invariant (I := fun _ => True) (fun _ _ _ _ _ => trivial)
    (fun s a t _ => hkeep s a t) (fun s a t _ => hraise s a t) trivial hrun

/-- **Invariants that tell the good steps.**  If a step keeps `I` exactly when it meets the
side condition, then `I` holds in every state of a run exactly when all its steps meet it. -/
theorem forall_prefix_iff_along {P : σ → α → Prop} {I : σ → Prop}
    (hstep : ∀ s a t, I s → step s a = some t → (I t ↔ P s a)) {s u : σ} {as : List α}
    (hI : I s) (hrun : run step s as = some u) :
    (∀ bs t, bs <+: as → run step s bs = some t → I t) ↔ Along step P s as := by
  induction as generalizing s with
  | nil =>
      refine iff_of_true (fun bs t hbs hbt => ?_) trivial
      obtain rfl := List.prefix_nil.mp hbs
      obtain rfl : s = t := Option.some.inj hbt
      exact hI
  | cons a as ih =>
      obtain ⟨t, hst, htu⟩ := run_cons_eq_some.mp hrun
      have hrest : ∀ bs v, run step t bs = some v → run step s (a :: bs) = some v :=
        fun bs v hv => run_cons_eq_some.mpr ⟨t, hst, hv⟩
      constructor
      · intro h
        have hIt : I t := h [a] t (List.prefix_append [a] as) (hrest [] t rfl)
        refine ⟨(hstep s a t hI hst).mp hIt, fun t' hst' => ?_⟩
        obtain rfl : t = t' := Option.some.inj (hst.symm.trans hst')
        refine (ih hIt htu).mp fun bs v hbs hv => ?_
        exact h (a :: bs) v ((List.prefix_cons_inj a).mpr hbs) (hrest bs v hv)
      · rintro ⟨hP, hAlong⟩ bs v hbs hv
        have hIt : I t := (hstep s a t hI hst).mpr hP
        cases bs with
        | nil =>
            obtain rfl : s = v := Option.some.inj hv
            exact hI
        | cons b bs =>
            obtain ⟨rfl, hprefix⟩ := List.cons_prefix_cons.mp hbs
            obtain ⟨t', hst', htv⟩ := run_cons_eq_some.mp hv
            obtain rfl : t = t' := Option.some.inj (hst.symm.trans hst')
            exact (ih hIt htu).mpr (hAlong t hst) bs v hprefix htv

/-- **Damage that stays.**  If a good step leads from good states to good ones, every other
step leads from them to bad ones, and no step leads out of the bad ones, then where a run ends
says whether all its steps were good. -/
theorem along_and_or_not_along_and {P : σ → α → Prop} {I B : σ → Prop}
    (hgood : ∀ s a t, I s → step s a = some t → P s a → I t)
    (hbad : ∀ s a t, I s → step s a = some t → ¬P s a → B t)
    (hstay : ∀ s a t, B s → step s a = some t → B t) {s u : σ} {as : List α}
    (hI : I s) (hrun : run step s as = some u) :
    Along step P s as ∧ I u ∨ ¬Along step P s as ∧ B u := by
  have hstayRun : ∀ {s as}, B s → run step s as = some u → B u := by
    intro s as hB hrun
    exact run_invariant_along (P := fun _ _ => True) (I := B) (fun s a t hB _ => hstay s a t hB)
      hB (along_of_forall fun _ _ _ => trivial) hrun
  induction as generalizing s with
  | nil =>
      obtain rfl : s = u := Option.some.inj hrun
      exact .inl ⟨trivial, hI⟩
  | cons a as ih =>
      obtain ⟨t, hst, htu⟩ := run_cons_eq_some.mp hrun
      by_cases hP : P s a
      · have honly : ∀ t', step s a = some t' → t' = t := fun t' h =>
          Option.some.inj (h.symm.trans hst)
        rcases ih (hgood s a t hI hst hP) htu with ⟨halong, hu⟩ | ⟨hnot, hu⟩
        · refine .inl ⟨⟨hP, fun t' hst' => ?_⟩, hu⟩
          rw [honly t' hst']
          exact halong
        · exact .inr ⟨fun h => hnot (h.2 t hst), hu⟩
      · exact .inr ⟨fun h => hP h.1, hstayRun (hbad s a t hI hst hP) htu⟩

/-- **Measures that every step lowers.**  A run whose steps all lower `f` is no longer than
`f` allows. -/
theorem run_length_add_le {P : σ → α → Prop} {I : σ → Prop} {f : σ → ℕ}
    (hstep : ∀ s a t, I s → P s a → step s a = some t → I t ∧ f t < f s) {s u : σ}
    {as : List α} (hI : I s) (hP : Along step P s as) (hrun : run step s as = some u) :
    as.length + f u ≤ f s := by
  induction as generalizing s with
  | nil =>
      obtain rfl : s = u := Option.some.inj hrun
      simp
  | cons a as ih =>
      obtain ⟨t, hst, htu⟩ := run_cons_eq_some.mp hrun
      obtain ⟨hIt, hlt⟩ := hstep s a t hI hP.1 hst
      have hrest := ih hIt (hP.2 t hst) htu
      rw [List.length_cons]
      omega

/-- **Steps that are paid for.**  If an external step raises `f` by at most `k`, and every other
one lowers it, the external steps of a run pay for the other ones. -/
theorem run_countP_add_le {P : σ → α → Prop} {I : σ → Prop} {f : σ → ℕ} (ext : α → Bool) (k : ℕ)
    (hinv : ∀ s a t, I s → P s a → step s a = some t → I t)
    (hext : ∀ s a t, I s → P s a → step s a = some t → ext a = true → f t ≤ f s + k)
    (hint : ∀ s a t, I s → P s a → step s a = some t → ext a = false → f t < f s) {s u : σ}
    {as : List α} (hI : I s) (hP : Along step P s as) (hrun : run step s as = some u) :
    as.countP (fun a => !ext a) + f u ≤ f s + k * as.countP ext := by
  induction as generalizing s with
  | nil =>
      obtain rfl : s = u := Option.some.inj hrun
      simp
  | cons a as ih =>
      obtain ⟨t, hst, htu⟩ := run_cons_eq_some.mp hrun
      have hrest := ih (hinv s a t hI hP.1 hst) (hP.2 t hst) htu
      cases ha : ext a with
      | true =>
          have hle := hext s a t hI hP.1 hst ha
          rw [List.countP_cons_of_neg (by simp [ha]), List.countP_cons_of_pos ha, Nat.mul_succ]
          omega
      | false =>
          have hlt := hint s a t hI hP.1 hst ha
          rw [List.countP_cons_of_pos (by simp [ha]), List.countP_cons_of_neg (by simp [ha])]
          omega

end Transition
