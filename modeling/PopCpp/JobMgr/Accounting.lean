/-
# Nothing is lost between the list of jobs and what is available

Every operation of the job manager moves amounts between `available` and the list of jobs and
neither makes nor loses any: a reservation takes out of `available` what its entry holds, and a
loop that releases jobs gives back what the erased entries held, before it erases them.  The
amounts of an entry are never negative and never more than was available.  All this is about exact
amounts: the sums of `float`s are rounded, and depend on the order of the jobs.
-/
import PopCpp.JobMgr.Model
import Mathlib.Algebra.Order.Group.Defs
import Mathlib.Algebra.Order.Field.Basic
import Mathlib.Tactic.Linarith

namespace JobMgr

open Transition

/-- What the jobs of a list hold. -/
def held (jobs : List (Resources ℚ)) : Amounts ℚ := (jobs.map Resources.amounts).sum

@[simp] lemma held_nil : held [] = 0 := rfl

@[simp] lemma held_cons (t : Resources ℚ) (jobs : List (Resources ℚ)) :
    held (t :: jobs) = t.amounts + held jobs := by
  simp [held]

@[simp] lemma held_concat (jobs : List (Resources ℚ)) (t : Resources ℚ) :
    held (jobs ++ [t]) = held jobs + t.amounts := by
  simp [held]

lemma held_apply (jobs : List (Resources ℚ)) (q : Quantity) :
    held jobs q = (jobs.map fun t => t.amounts q).sum := by
  induction jobs with
  | nil => rfl
  | cons t jobs ih =>
      rw [held_cons, Pi.add_apply, ih, List.map_cons, List.sum_cons]

/-! ### Releases give back what they erase -/

/-- A loop over `jobs` with `available` in hand has left `jobs'` and `available'`. -/
structure GivesBack (jobs : List (Resources ℚ)) (available : Amounts ℚ) (jobs' : List (Resources ℚ))
    (available' : Amounts ℚ) : Prop where
  /-- What the erased jobs held is available now. -/
  balance : available' + held jobs' = available + held jobs
  /-- The jobs that are left hold what they held. -/
  left : ∀ t' ∈ jobs', ∃ t ∈ jobs, t'.amounts = t.amounts
  /-- What is available grows if no job holds a negative amount. -/
  grows : ∀ q, (∀ t ∈ jobs, 0 ≤ t.amounts q) → available q ≤ available' q

namespace GivesBack

variable {t t' : Resources ℚ} {rest jobs jobs' : List (Resources ℚ)}
  {available available' : Amounts ℚ}

lemma refl (jobs : List (Resources ℚ)) (available : Amounts ℚ) :
    GivesBack jobs available jobs available :=
  ⟨rfl, fun t ht => ⟨t, ht, rfl⟩, fun _ _ => le_rfl⟩

lemma free (h : GivesBack rest (available + t.amounts) jobs' available') :
    GivesBack (t :: rest) available jobs' available' where
  balance := by rw [h.balance, held_cons, add_assoc]
  left u hu := by
    obtain ⟨v, hv, heq⟩ := h.left u hu
    exact ⟨v, List.mem_cons_of_mem _ hv, heq⟩
  grows q hq := by
    have ht := hq t List.mem_cons_self
    have hle := h.grows q fun u hu => hq u (List.mem_cons_of_mem _ hu)
    rw [Pi.add_apply] at hle
    linarith

lemma keep (h : GivesBack rest available jobs' available') (ht : t'.amounts = t.amounts) :
    GivesBack (t :: rest) available (t' :: jobs') available' where
  balance := by
    rw [held_cons, held_cons, ht, add_left_comm, h.balance, add_left_comm]
  left u hu := by
    rcases List.mem_cons.mp hu with rfl | hu
    · exact ⟨t, List.mem_cons_self, ht⟩
    · obtain ⟨v, hv, heq⟩ := h.left u hu
      exact ⟨v, List.mem_cons_of_mem _ hv, heq⟩
  grows q hq := h.grows q fun u hu => hq u (List.mem_cons_of_mem _ hu)

end GivesBack

lemma releaseLoop_givesBack (id : ℤ) (jobs : List (Resources ℚ)) (available : Amounts ℚ) :
    GivesBack jobs available (releaseLoop id jobs available).jobs
      (releaseLoop id jobs available).available := by
  induction jobs with
  | nil => exact GivesBack.refl [] available
  | cons t rest ih =>
      rw [releaseLoop]
      split_ifs
      · exact (GivesBack.refl rest _).free
      · exact ih.keep rfl

lemma refresh_amounts (round : Round) (t : Resources ℚ) :
    (refresh round t).amounts = t.amounts := by
  unfold refresh
  split_ifs <;> rfl

lemma updateLoop_givesBack (reserveTimeout : ℤ) (rounds : ℕ → Round) (i : ℕ)
    (jobs : List (Resources ℚ)) (available : Amounts ℚ) :
    GivesBack jobs available (updateLoop reserveTimeout rounds i jobs available).jobs
      (updateLoop reserveTimeout rounds i jobs available).available := by
  induction jobs generalizing i available with
  | nil => exact GivesBack.refl [] available
  | cons t rest ih =>
      rw [updateLoop]
      split_ifs
      · exact (ih (i + 1) (available + t.amounts)).free
      · exact (ih (i + 1) available).keep (refresh_amounts (rounds i) t)

lemma cancelInner_givesBack {req : List ℤ} {jobs : List (Resources ℚ)} {available : Amounts ℚ}
    {r : Released ℚ} (h : cancelInner req jobs available = some r) :
    GivesBack jobs available r.jobs r.available := by
  induction req generalizing jobs available r with
  | nil =>
      obtain rfl := Option.some.inj h
      exact GivesBack.refl jobs available
  | cons id req ih =>
      cases jobs with
      | nil => simp [cancelInner] at h
      | cons t rest =>
          simp only [cancelInner] at h
          split_ifs at h
          · obtain ⟨r', hr', rfl⟩ := Option.map_eq_some_iff.mp h
            exact (ih hr').free
          · exact ih h

lemma GivesBack.trans {jobs₁ jobs₂ jobs₃ : List (Resources ℚ)} {a₁ a₂ a₃ : Amounts ℚ}
    (h₁ : GivesBack jobs₁ a₁ jobs₂ a₂) (h₂ : GivesBack jobs₂ a₂ jobs₃ a₃) :
    GivesBack jobs₁ a₁ jobs₃ a₃ where
  balance := h₂.balance.trans h₁.balance
  left u hu := by
    obtain ⟨v, hv, huv⟩ := h₂.left u hu
    obtain ⟨w, hw, hvw⟩ := h₁.left v hv
    exact ⟨w, hw, huv.trans hvw⟩
  grows q hq := by
    refine (h₁.grows q hq).trans (h₂.grows q fun u hu => ?_)
    obtain ⟨v, hv, huv⟩ := h₁.left u hu
    rw [huv]
    exact hq v hv

lemma cancelLoop_givesBack {req : List ℤ} {jobs : List (Resources ℚ)} {available : Amounts ℚ}
    {r : Released ℚ} (h : cancelLoop req jobs available = some r) :
    GivesBack jobs available r.jobs r.available := by
  fun_induction cancelLoop req jobs available generalizing r with
  | case1 available =>
      obtain rfl := Option.some.inj h
      exact GivesBack.refl [] available
  | case2 => cases h
  | case3 => cases h
  | case4 available t rest t' rest' available' calls hinner ih =>
      obtain ⟨r', hr', rfl⟩ := Option.map_eq_some_iff.mp h
      exact (cancelInner_givesBack hinner).trans ((ih hr').keep rfl)

lemma endLoop_givesBack (popAppId : String) (jobs : List (Resources ℚ)) (available : Amounts ℚ) :
    GivesBack jobs available (endLoop popAppId jobs available).1
      (endLoop popAppId jobs available).2.1 := by
  induction jobs generalizing available with
  | nil => exact GivesBack.refl [] available
  | cons t rest ih =>
      rw [endLoop]
      split_ifs
      · exact (ih (available + t.amounts)).free
      · exact (ih available).keep rfl

lemma validateLoop_givesBack (id : ℤ) (objcontact appserv : AccessPoint) (now : ℤ)
    (jobs : List (Resources ℚ)) (available : Amounts ℚ) :
    GivesBack jobs available (validateLoop id objcontact appserv now jobs) available := by
  induction jobs with
  | nil => exact GivesBack.refl [] available
  | cons t rest ih =>
      rw [validateLoop]
      split_ifs
      · exact (GivesBack.refl rest available).keep rfl
      · exact ih.keep rfl

/-! ### Reservations take no more than there is -/

/-- Of exact amounts the macro takes the minimum. -/
lemma lesser_eq_min (a b : ℚ) : lesser a b = min a b := by
  rw [lesser]
  split_ifs with h
  · exact (min_eq_left h.le).symm
  · exact (min_eq_right (not_lt.mp h)).symm

section reserve

variable {c : Config ℚ} {m : Manager ℚ} {od : ObjectDescription ℚ} {inoutfitness fitness : ℚ}

lemma grantPower_bounds {require : ℚ} (hreq : require > 0) (hav : 0 ≤ m.available .flops)
    (hlim : 0 ≤ c.limit .flops) :
    0 ≤ (grantPower c m require).1 ∧ (grantPower c m require).1 ≤ m.available .flops := by
  rw [grantPower, lesser_eq_min]
  split_ifs with h
  · exact ⟨le_min hav hlim, min_le_left _ _⟩
  · rw [not_or, not_lt, not_lt] at h
    exact ⟨hreq.le, h.1⟩

lemma matchPower_bounds {p : ℚ × ℚ} (h : matchPower c m od inoutfitness = some p)
    (hav : 0 ≤ m.available .flops) (hlim : 0 ≤ c.limit .flops) :
    0 ≤ p.1 ∧ p.1 ≤ m.available .flops := by
  unfold matchPower at h
  split_ifs at h with hreq hfit
  · obtain rfl := Option.some.inj h
    exact grantPower_bounds hreq hav hlim
  · obtain rfl := Option.some.inj h
    exact ⟨le_rfl, hav⟩

lemma grantMemory_bounds {require : ℚ} (hreq : require > 0) (hav : 0 ≤ m.available .mem) :
    0 ≤ (grantMemory m require).1 ∧ (grantMemory m require).1 ≤ m.available .mem := by
  unfold grantMemory
  split_ifs with h
  · exact ⟨hav, le_rfl⟩
  · exact ⟨hreq.le, not_lt.mp h⟩

lemma matchMemory_bounds {p : ℚ × ℚ} (h : matchMemory m od inoutfitness fitness = some p)
    (hav : 0 ≤ m.available .mem) : 0 ≤ p.1 ∧ p.1 ≤ m.available .mem := by
  unfold matchMemory at h
  by_cases hreq : od.memory > 0
  · rw [if_pos hreq] at h
    have hgrant := grantMemory_bounds hreq hav
    generalize (if od.minMemory < 0 then od.memory else od.minMemory) = min at h
    split_ifs at h
    · obtain rfl := Option.some.inj h
      exact hgrant
    · obtain rfl := Option.some.inj h
      exact hgrant
  · rw [if_neg hreq] at h
    obtain rfl := Option.some.inj h
    exact ⟨le_rfl, hav⟩

/-- What a match grants is there to be granted. -/
lemma matchResources_bounds {r : Match ℚ} (h : matchResources c m od inoutfitness = some r) :
    (0 ≤ m.available .flops → 0 ≤ c.limit .flops →
      0 ≤ r.flops ∧ r.flops ≤ m.available .flops) ∧
    (0 ≤ m.available .mem → 0 ≤ r.mem ∧ r.mem ≤ m.available .mem) := by
  unfold matchResources at h
  split_ifs at h
  · obtain rfl := Option.some.inj h
    exact ⟨fun hav _ => ⟨le_rfl, hav⟩, fun hav => ⟨le_rfl, hav⟩⟩
  · simp only [Option.bind_eq_bind, Option.bind_eq_some_iff, Option.pure_def] at h
    obtain ⟨p, hp, p', hp', w, -, h⟩ := h
    obtain rfl := Option.some.inj h
    exact ⟨matchPower_bounds hp, matchMemory_bounds hp'⟩

end reserve

/-! ### Runs -/

/-- The accounts of a job manager with this configuration are in order. -/
structure Accounts (c : Config ℚ) (m : Manager ℚ) : Prop where
  /-- What is available and what the jobs hold is what there is. -/
  balance : m.available + held m.jobs = c.total
  /-- A quantity of which there is no negative amount in all is never overdrawn. -/
  nonneg : ∀ q, 0 ≤ c.total q → 0 ≤ m.available q ∧ ∀ t ∈ m.jobs, 0 ≤ t.amounts q

namespace Accounts

variable {c : Config ℚ} {m : Manager ℚ}

lemma limit_nonneg (h : 0 ≤ c.total .flops) : 0 ≤ c.limit .flops := by
  simp only [Config.total, Config.limit, amounts] at h ⊢
  split_ifs at h with hnp
  · have hpos : (0 : ℚ) < c.np := by exact_mod_cast hnp
    exact nonneg_of_mul_nonneg_left h hpos
  · exact h

lemma reserved (h : Accounts c m) {od : ObjectDescription ℚ} {inoutfitness : ℚ} {r : Match ℚ}
    (hr : matchResources c m od inoutfitness = some r) (now : ℤ) :
    Accounts c (JobMgr.reserved m r now) where
  balance := by
    simp only [JobMgr.reserved, held_concat]
    rw [← h.balance]
    exact sub_add_add_cancel _ _ _
  nonneg q hq := by
    obtain ⟨hav, hjobs⟩ := h.nonneg q hq
    obtain ⟨hflops, hmem⟩ := matchResources_bounds hr
    have hentry : 0 ≤ (entry m r now).amounts q ∧ (entry m r now).amounts q ≤ m.available q := by
      cases q with
      | flops => exact hflops hav (limit_nonneg hq)
      | mem => exact hmem hav
      | bandwidth => exact ⟨le_rfl, hav⟩
    refine ⟨sub_nonneg.mpr hentry.2, fun t ht => ?_⟩
    rcases List.mem_append.mp ht with ht | ht
    · exact hjobs t ht
    · rw [List.mem_singleton.mp ht]
      exact hentry.1

lemma release (h : Accounts c m) {jobs : List (Resources ℚ)} {available : Amounts ℚ}
    (hr : GivesBack m.jobs m.available jobs available) (counter : ℤ) :
    Accounts c ⟨jobs, available, counter⟩ where
  balance := hr.balance.trans h.balance
  nonneg q hq := by
    obtain ⟨hav, hjobs⟩ := h.nonneg q hq
    refine ⟨hav.trans (hr.grows q hjobs), fun t ht => ?_⟩
    obtain ⟨u, hu, heq⟩ := hr.left t ht
    rw [heq]
    exact hjobs u hu

lemma initial (c : Config ℚ) : Accounts c c.initial where
  balance := by simp [Config.initial]
  nonneg q hq := ⟨hq, fun t ht => absurd ht List.not_mem_nil⟩

/-- Every operation keeps the accounts in order. -/
lemma step {s s' : Machine ℚ} {op : Op ℚ} (h : Accounts c s.manager)
    (hstep : JobMgr.step c s op = some s') : Accounts c s'.manager := by
  cases op with
  | reserve od fitness now =>
      obtain rfl := Option.some.inj hstep
      rcases reserve_cases c s.manager od fitness now with hr | ⟨r, hr, heq⟩
      · rw [hr]
        exact h
      · rw [heq]
        exact h.reserved hr now
  | matchAndReserve od fitness now =>
      obtain rfl := Option.some.inj hstep
      rcases matchAndReserve_cases c s.manager od fitness now with hr | ⟨r, hr, heq⟩
      · rw [hr]
        exact h
      · rw [heq]
        exact h.reserved hr now
  | releaseJob id =>
      obtain rfl := Option.some.inj hstep
      refine h.release ?_ _
      unfold releaseJob
      split_ifs
      · exact GivesBack.refl _ _
      · exact releaseLoop_givesBack id _ _
  | cancelReservation req =>
      obtain ⟨r, hr, rfl⟩ := Option.map_eq_some_iff.mp hstep
      refine h.release ?_ _
      unfold cancelReservation at hr
      split_ifs at hr
      · obtain rfl := Option.some.inj hr
        exact GivesBack.refl _ _
      · exact cancelLoop_givesBack hr
  | update rounds =>
      obtain rfl := Option.some.inj hstep
      exact h.release (updateLoop_givesBack _ _ _ _ _) _
  | validateReservation id objcontact appserv now =>
      obtain rfl := Option.some.inj hstep
      exact h.release (validateLoop_givesBack id objcontact appserv now _ _) _
  | applicationEnd popAppId =>
      obtain rfl := Option.some.inj hstep
      exact h.release (endLoop_givesBack popAppId _ _) _

end Accounts

/-- The operation is `CancelReservation`. -/
def Op.IsCancel : Op ℚ → Prop
  | .cancelReservation _ => True
  | _ => False

lemma isSome_step {c : Config ℚ} {s : Machine ℚ} {op : Op ℚ} (h : ¬op.IsCancel) :
    ∃ s', step c s op = some s' := by
  cases op with
  | cancelReservation req => exact absurd trivial h
  | _ => exact ⟨_, rfl⟩

lemma exists_run {c : Config ℚ} {ops : List (Op ℚ)} (hops : ∀ op ∈ ops, ¬op.IsCancel)
    (s : Machine ℚ) : ∃ s', run (step c) s ops = some s' := by
  induction ops generalizing s with
  | nil => exact ⟨s, rfl⟩
  | cons op ops ih =>
      obtain ⟨t, ht⟩ := isSome_step (c := c) (s := s) (hops op List.mem_cons_self)
      obtain ⟨u, hu⟩ := ih (fun o ho => hops o (List.mem_cons_of_mem _ ho)) t
      exact ⟨u, run_cons_eq_some.mpr ⟨t, ht, hu⟩⟩

/-- **Accounting.**  A run of operations other than `CancelReservation` always has a result, and
in the result of any run what is available and what the jobs hold add up to the configured
total of each quantity, and a quantity whose configured total is an amount, that is not
negative, is never overdrawn. -/
theorem available_add_held (c : Config ℚ) (ops : List (Op ℚ)) :
    ((∀ op ∈ ops, ¬op.IsCancel) → ∃ s, run (step c) c.machine ops = some s) ∧
    ∀ s, run (step c) c.machine ops = some s → ∀ q,
      s.manager.available q + (s.manager.jobs.map fun t => t.amounts q).sum = c.total q ∧
      (0 ≤ c.total q → 0 ≤ s.manager.available q) := by
  refine ⟨fun hops => exists_run hops c.machine, fun s hrun q => ?_⟩
  have hacc : Accounts c s.manager :=
    run_invariant_along (P := fun _ _ => True) (I := fun s => Accounts c s.manager)
      (fun s op s' hs _ hstep => hs.step hstep) (Accounts.initial c)
      (along_of_forall fun _ _ _ => trivial) hrun
  refine ⟨?_, fun hq => (hacc.nonneg q hq).1⟩
  rw [← held_apply, ← hacc.balance]
  rfl

/-- A configured amount that is negative is available as it is. -/
theorem available_negative :
    ∃ c : Config ℚ, ∃ s, run (step c) c.machine [] = some s ∧ s.manager.available .flops < 0 :=
  ⟨⟨-1, 1024, 0, 1, 100, 300, none⟩, _, rfl, by decide +kernel⟩

end JobMgr
