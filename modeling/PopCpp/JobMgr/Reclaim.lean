/-
# Everything is given back in the end

Clients and objects can go away without a word: a reservation is then neither used nor cancelled,
and a job is never released.  `Update` finds them by their age.  Whatever has been done up to a
time, an `Update` that comes later than that by more than the timeouts leaves exactly the jobs
whose objects are found alive, and what is available then is everything that those do not hold.
-/
import PopCpp.JobMgr.Accounting

namespace JobMgr

open Transition

/-! ### The age of the jobs -/

/-- No clock shows more than `T` when the operation reads it. -/
def Op.Until (T : ℤ) : Op ℚ → Prop
  | .reserve _ _ now => now ≤ T
  | .matchAndReserve _ _ now => now ≤ T
  | .validateReservation _ _ _ now => now ≤ T
  | .update rounds => ∀ i, (rounds i).now ≤ T
  | _ => True

/-- All jobs have been started, or found alive, by the time `T`. -/
def StartedBy (T : ℤ) (jobs : List (Resources ℚ)) : Prop := ∀ t ∈ jobs, t.start ≤ T

section StartedBy

variable {T : ℤ} {t : Resources ℚ} {jobs rest : List (Resources ℚ)} {available : Amounts ℚ}

lemma StartedBy.of_sublist {jobs' : List (Resources ℚ)} (h : StartedBy T jobs)
    (hsub : jobs'.Sublist jobs) : StartedBy T jobs' :=
  fun t ht => h t (hsub.subset ht)

lemma StartedBy.cons (ht : t.start ≤ T) (h : StartedBy T rest) : StartedBy T (t :: rest) :=
  List.forall_mem_cons.mpr ⟨ht, h⟩

lemma releaseLoop_sublist (id : ℤ) (jobs : List (Resources ℚ)) (available : Amounts ℚ) :
    (releaseLoop id jobs available).jobs.Sublist jobs := by
  induction jobs with
  | nil => exact .refl []
  | cons t rest ih =>
      rw [releaseLoop]
      split_ifs
      · exact List.sublist_cons_self t rest
      · exact ih.cons_cons t

lemma cancelInner_sublist {req : List ℤ} {r : Released ℚ}
    (h : cancelInner req jobs available = some r) : r.jobs.Sublist jobs := by
  induction req generalizing jobs available r with
  | nil =>
      obtain rfl := Option.some.inj h
      exact .refl _
  | cons id req ih =>
      cases jobs with
      | nil => simp [cancelInner] at h
      | cons t rest =>
          rw [cancelInner] at h
          split_ifs at h
          · obtain ⟨r', hr', rfl⟩ := Option.map_eq_some_iff.mp h
            exact (ih hr').trans (List.sublist_cons_self t rest)
          · exact ih h

lemma cancelLoop_sublist {req : List ℤ} {r : Released ℚ}
    (h : cancelLoop req jobs available = some r) : r.jobs.Sublist jobs := by
  fun_induction cancelLoop req jobs available generalizing r with
  | case1 available =>
      obtain rfl := Option.some.inj h
      exact .refl []
  | case2 => cases h
  | case3 => cases h
  | case4 available t rest t' rest' available' calls hinner ih =>
      obtain ⟨r', hr', rfl⟩ := Option.map_eq_some_iff.mp h
      exact ((ih hr').cons_cons t').trans (cancelInner_sublist hinner)

lemma endLoop_sublist (popAppId : String) (jobs : List (Resources ℚ)) (available : Amounts ℚ) :
    (endLoop popAppId jobs available).1.Sublist jobs := by
  induction jobs generalizing available with
  | nil => exact .refl []
  | cons t rest ih =>
      rw [endLoop]
      split_ifs
      · exact (ih _).trans (List.sublist_cons_self t rest)
      · exact (ih _).cons_cons t

lemma StartedBy.updateLoop (h : StartedBy T jobs) (reserveTimeout : ℤ) {rounds : ℕ → Round}
    (hrounds : ∀ i, (rounds i).now ≤ T) (i : ℕ) (available : Amounts ℚ) :
    StartedBy T (updateLoop reserveTimeout rounds i jobs available).jobs := by
  induction jobs generalizing i available with
  | nil => exact h
  | cons t rest ih =>
      obtain ⟨ht, hrest⟩ : t.start ≤ T ∧ StartedBy T rest := List.forall_mem_cons.mp h
      rw [JobMgr.updateLoop]
      split_ifs
      · exact ih hrest _ _
      · refine (ih hrest _ _).cons ?_
        unfold refresh
        split_ifs
        · exact hrounds i
        · exact ht

lemma StartedBy.validateLoop (h : StartedBy T jobs) {now : ℤ} (hnow : now ≤ T) (id : ℤ)
    (objcontact appserv : AccessPoint) :
    StartedBy T (validateLoop id objcontact appserv now jobs) := by
  induction jobs with
  | nil => exact h
  | cons t rest ih =>
      obtain ⟨ht, hrest⟩ : t.start ≤ T ∧ StartedBy T rest := List.forall_mem_cons.mp h
      rw [JobMgr.validateLoop]
      split_ifs
      · exact hrest.cons hnow
      · exact (ih hrest).cons ht

lemma StartedBy.reserved {m : Manager ℚ} (h : StartedBy T m.jobs) (r : Match ℚ) {now : ℤ}
    (hnow : now ≤ T) : StartedBy T (reserved m r now).jobs := by
  intro t ht
  rcases List.mem_append.mp ht with ht | ht
  · exact h t ht
  · obtain rfl := List.mem_singleton.mp ht
    exact hnow

/-- No operation makes a job younger than the time at which it is made. -/
lemma StartedBy.step {c : Config ℚ} {s s' : Machine ℚ} {op : Op ℚ} (h : StartedBy T s.manager.jobs)
    (hop : op.Until T) (hstep : JobMgr.step c s op = some s') : StartedBy T s'.manager.jobs := by
  cases op with
  | reserve od fitness now =>
      obtain rfl := Option.some.inj hstep
      rcases reserve_cases c s.manager od fitness now with hr | ⟨r, -, heq⟩
      · rw [hr]
        exact h
      · rw [heq]
        exact h.reserved r hop
  | matchAndReserve od fitness now =>
      obtain rfl := Option.some.inj hstep
      rcases matchAndReserve_cases c s.manager od fitness now with hr | ⟨r, -, heq⟩
      · rw [hr]
        exact h
      · rw [heq]
        exact h.reserved r hop
  | releaseJob id =>
      obtain rfl := Option.some.inj hstep
      show StartedBy T (releaseJob s.manager id).jobs
      unfold releaseJob
      split_ifs
      · exact h
      · exact h.of_sublist (releaseLoop_sublist id _ _)
  | cancelReservation req =>
      obtain ⟨r, hr, rfl⟩ := Option.map_eq_some_iff.mp hstep
      unfold cancelReservation at hr
      split_ifs at hr
      · obtain rfl := Option.some.inj hr
        exact h
      · exact h.of_sublist (cancelLoop_sublist hr)
  | update rounds =>
      obtain rfl := Option.some.inj hstep
      exact h.updateLoop _ hop 0 _
  | validateReservation id objcontact appserv now =>
      obtain rfl := Option.some.inj hstep
      exact h.validateLoop hop id objcontact appserv
  | applicationEnd popAppId =>
      obtain rfl := Option.some.inj hstep
      exact h.of_sublist (endLoop_sublist popAppId _ _)

end StartedBy

/-! ### A late `Update` -/

/-- The jobs whose objects are found alive, each in its round. -/
def living (rounds : ℕ → Round) : ℕ → List (Resources ℚ) → List (Resources ℚ)
  | _, [] => []
  | i, t :: rest =>
      if t.contact ≠ "" ∧ (rounds i).alive = true then
        { t with start := (rounds i).now } :: living rounds (i + 1) rest
      else living rounds (i + 1) rest

/-- Once all timeouts are over, nothing but the living jobs is left. -/
lemma updateLoop_jobs_of_late {T reserveTimeout : ℤ} (htimeout : 0 < reserveTimeout)
    {rounds : ℕ → Round} (hlate : ∀ i, T + max reserveTimeout 5 < (rounds i).now)
    {jobs : List (Resources ℚ)} (h : StartedBy T jobs) (i : ℕ) (available : Amounts ℚ) :
    (updateLoop reserveTimeout rounds i jobs available).jobs = living rounds i jobs := by
  induction jobs generalizing i available with
  | nil => rfl
  | cons t rest ih =>
      obtain ⟨ht, hrest⟩ : t.start ≤ T ∧ StartedBy T rest := List.forall_mem_cons.mp h
      have hage := hlate i
      have htime : reserveTimeout < (rounds i).now - t.start := by omega
      have hfive : 5 < (rounds i).now - t.start := by omega
      rw [updateLoop, living]
      by_cases hcontact : t.contact = ""
      · -- a reservation has timed out
        have hexpired : Expired reserveTimeout (rounds i) t := by
          rw [Expired, if_pos hcontact]
          exact ⟨htimeout, htime⟩
        rw [if_pos hexpired, if_neg (fun hliving => hliving.1 hcontact)]
        exact ih hrest _ _
      · cases halive : (rounds i).alive with
        | true =>
            have hkept : ¬Expired reserveTimeout (rounds i) t := by
              rw [Expired, if_neg hcontact, halive]
              exact fun h => absurd h.2 (by decide)
            rw [if_neg hkept, if_pos ⟨hcontact, rfl⟩, Released.keep, refresh,
              if_pos ⟨hcontact, hfive⟩]
            exact congrArg _ (ih hrest _ _)
        | false =>
            have hexpired : Expired reserveTimeout (rounds i) t := by
              rw [Expired, if_neg hcontact]
              exact ⟨hfive, halive⟩
            rw [if_pos hexpired, if_neg (fun hliving => absurd hliving.2 (by decide))]
            exact ih hrest _ _

lemma living_eq_nil {rounds : ℕ → Round} (hdead : ∀ i, (rounds i).alive = false)
    (jobs : List (Resources ℚ)) (i : ℕ) : living rounds i jobs = [] := by
  induction jobs generalizing i with
  | nil => rfl
  | cons t rest ih =>
      rw [living, if_neg fun hliving => absurd ((hdead i).symm.trans hliving.2) (by decide)]
      exact ih _

/-- **Everything is given back.**  Whatever operations there have been until the time `T`, an
`Update` that is later by more than the timeouts leaves exactly the jobs whose objects are found
alive, and the rest of what the machine has is available; if no object is found alive, all of it
is. -/
theorem everything_given_back (c : Config ℚ) (htimeout : 0 < c.reserveTimeout) (T : ℤ)
    (ops : List (Op ℚ)) (hops : ∀ op ∈ ops, op.Until T) (s : Machine ℚ)
    (hrun : run (step c) c.machine ops = some s) (rounds : ℕ → Round)
    (hlate : ∀ i, T + max c.reserveTimeout 5 < (rounds i).now) :
    (update c s.manager rounds).jobs = living rounds 0 s.manager.jobs ∧
      (update c s.manager rounds).available + held (living rounds 0 s.manager.jobs) = c.total ∧
      ((∀ i, (rounds i).alive = false) → (update c s.manager rounds).available = c.total) := by
  have hboth : Accounts c s.manager ∧ StartedBy T s.manager.jobs :=
    run_invariant_along (P := fun _ op => op.Until T)
      (I := fun s => Accounts c s.manager ∧ StartedBy T s.manager.jobs)
      (fun s op s' h hop hstep => ⟨h.1.step hstep, h.2.step hop hstep⟩)
      ⟨Accounts.initial c, fun t ht => absurd ht List.not_mem_nil⟩
      (along_of_forall fun _ => hops) hrun
  have hjobs : (update c s.manager rounds).jobs = living rounds 0 s.manager.jobs :=
    updateLoop_jobs_of_late htimeout hlate hboth.2 0 _
  have hbalance : (update c s.manager rounds).available +
      held (living rounds 0 s.manager.jobs) = c.total := by
    rw [← hjobs]
    exact (updateLoop_givesBack _ _ _ _ _).balance.trans hboth.1.balance
  refine ⟨hjobs, hbalance, fun hdead => ?_⟩
  rwa [living_eq_nil hdead, held_nil, add_zero] at hbalance

/-- A machine with a power of 100 and 100 MB of memory. -/
def oneHundred : Config ℚ := ⟨100, 100, 0, 1, 100, 300, none⟩

/-- An object that asks for a power of 20 and 10 MB. -/
def asksTwenty : ObjectDescription ℚ := ⟨20, -1, 10, -1, -1, -1, -1, ""⟩

/-- Three reservations, of which two have been used. -/
def threeObjects : List (Op ℚ) :=
  [.reserve asksTwenty 0 100, .reserve asksTwenty 0 200, .matchAndReserve asksTwenty 0 300,
    .validateReservation 1 "a" "s" 310, .validateReservation 2 "b" "s" 320]

/-- The object of the second one is alive at the end. -/
theorem everything_given_back_threeObjects :
    ∃ s, run (step oneHundred) oneHundred.machine threeObjects = some s ∧
      s.manager.jobs.length = 3 ∧
      (update oneHundred s.manager fun i => ⟨1000, i == 1⟩).jobs =
        living (fun i => ⟨1000, i == 1⟩) 0 s.manager.jobs ∧
      (update oneHundred s.manager fun i => ⟨1000, i == 1⟩).available +
        held (living (fun i => ⟨1000, i == 1⟩) 0 s.manager.jobs) = oneHundred.total ∧
      ((∀ i : ℕ, (i == 1) = false) →
        (update oneHundred s.manager fun i => ⟨1000, i == 1⟩).available = oneHundred.total) := by
  obtain ⟨s, hrun, hjobs⟩ : ∃ s, run (step oneHundred) oneHundred.machine threeObjects = some s ∧
      s.manager.jobs.length = 3 := ⟨_, rfl, by decide +kernel⟩
  have hops : ∀ op ∈ threeObjects, op.Until 400 := by
    intro op hop
    simp only [threeObjects, List.mem_cons, List.not_mem_nil, or_false] at hop
    rcases hop with rfl | rfl | rfl | rfl | rfl <;> simp [Op.Until]
  have hlate : (400 : ℤ) + max oneHundred.reserveTimeout 5 < 1000 := by decide
  exact ⟨s, hrun, hjobs, everything_given_back oneHundred (by decide) 400 threeObjects hops s hrun
    (fun i => ⟨1000, i == 1⟩) fun _ => hlate⟩

end JobMgr
