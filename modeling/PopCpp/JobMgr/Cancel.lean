/-
# What a cancellation leaves

`CancelReservation` goes through the jobs with one iterator and, at each job, through the
requested ids.  When it erases a job it compares the next job with the rest of the request only,
and it then leaves the job at which the request ends without a look at it.  So jobs that stand
together are all erased only when their ids follow the order of the request, and a job at the
end of the list cannot be erased at all.
-/
import PopCpp.JobMgr.Accounting
import PopCpp.JobMgr.Mirror
import PopCpp.Lib.Runs

namespace JobMgr

open Runs

/-- The jobs without the requested ones. -/
def remaining (req : List ℤ) (jobs : List (Resources ℚ)) : List (Resources ℚ) :=
  jobs.filter fun t => t.id ∉ req

/-- What the requested jobs hold. -/
def requested (req : List ℤ) (jobs : List (Resources ℚ)) : Amounts ℚ :=
  held (jobs.filter fun t => t.id ∈ req)

variable {req : List ℤ} {jobs run post : List (Resources ℚ)} {x : Resources ℚ}
  {available : Amounts ℚ}

@[simp] lemma held_append (jobs jobs' : List (Resources ℚ)) :
    held (jobs ++ jobs') = held jobs + held jobs' := by
  simp [held]

/-- Each requested job counts for what it holds. -/
lemma requested_eq_sum (req : List ℤ) (jobs : List (Resources ℚ)) :
    requested req jobs = (jobs.map fun t => if t.id ∈ req then t.amounts else 0).sum := by
  induction jobs with
  | nil => rfl
  | cons t jobs ih =>
      rw [List.map_cons, List.sum_cons, ← ih, requested, requested]
      by_cases ht : t.id ∈ req
      · rw [List.filter_cons_of_pos (by simpa using ht), held_cons, if_pos ht]
      · rw [List.filter_cons_of_neg (by simpa using ht), if_neg ht, zero_add]

/-! ### One position of the iterator -/

/-- What the search node is told when `run` is erased in front of `rest`: for each job, what the
one behind it holds. -/
def reports : List (Resources ℚ) → List (Resources ℚ) → List (NodeCall ℚ)
  | [], _ => []
  | _ :: run, rest =>
      .removeJob ((run ++ rest).head?.map Resources.amounts) 1 :: reports run rest

/-- Behind a position where the inner loop ends, jobs without a contact have been erased whose
ids follow the order of the request. -/
lemma cancelInner_erases {r : Released ℚ} (h : cancelInner req jobs available = some r) :
    ∃ run, jobs = run ++ r.jobs ∧ (∀ t ∈ run, t.contact = "") ∧
      (run.map Resources.id).Sublist req ∧ r.available = available + held run ∧
      r.calls = reports run r.jobs := by
  induction req generalizing jobs available r with
  | nil =>
      obtain rfl := Option.some.inj h
      exact ⟨[], rfl, by simp, List.nil_sublist [], by simp, rfl⟩
  | cons id req ih =>
      cases jobs with
      | nil => simp [cancelInner] at h
      | cons t rest =>
          simp only [cancelInner] at h
          split_ifs at h with ht
          · obtain ⟨r', hr', rfl⟩ := Option.map_eq_some_iff.mp h
            obtain ⟨run, hrest, hcontact, hsub, hav, hcalls⟩ := ih hr'
            refine ⟨t :: run, by rw [hrest]; rfl, ?_, ?_, ?_, ?_⟩
            · rintro u (_ | ⟨_, hu⟩)
              · exact ht.2
              · exact hcontact u hu
            · rw [List.map_cons, ht.1]
              exact hsub.cons_cons id
            · rw [hav, held_cons, add_assoc]
            · rw [reports, ← hrest, hcalls]
          · obtain ⟨run, hrest, hcontact, hsub, hav, hcalls⟩ := ih h
            exact ⟨run, hrest, hcontact, hsub.cons id, hav, hcalls⟩

/-- A run in the order of the request is erased, up to the job that ends it. -/
lemma cancelInner_run (post : List (Resources ℚ)) (available : Amounts ℚ)
    (hcontact : ∀ t ∈ run, t.contact = "")
    (hsub : (run.map Resources.id).Sublist req) (hx : ¬(x.id ∈ req ∧ x.contact = "")) :
    ∃ calls, cancelInner req (run ++ x :: post) available =
      some ⟨x :: post, available + held run, calls⟩ := by
  induction req generalizing run available with
  | nil =>
      obtain rfl := List.map_eq_nil_iff.mp (List.sublist_nil.mp hsub)
      exact ⟨[], by simp [cancelInner]⟩
  | cons id req ih =>
      have hx' : ¬(x.id ∈ req ∧ x.contact = "") := fun h =>
        hx ⟨List.mem_cons_of_mem _ h.1, h.2⟩
      cases run with
      | nil => exact ⟨[], by rw [List.nil_append, cancelInner_none hx]; simp⟩
      | cons t run =>
          rw [List.cons_append, cancelInner]
          rcases List.sublist_cons_iff.mp hsub with hsub | ⟨ids, heq, hsub⟩
          · split_ifs with ht
            · -- the id stands in the request once more, but it is spent on this job
              obtain ⟨calls, hcalls⟩ := ih (available + t.amounts)
                (fun u hu => hcontact u (List.mem_cons_of_mem _ hu))
                ((List.sublist_cons_self _ _).trans hsub) hx'
              exact ⟨_, by rw [hcalls, held_cons, ← add_assoc]; rfl⟩
            · exact ih available hcontact hsub hx'
          · obtain ⟨hid, rfl⟩ := List.cons.inj heq
            rw [if_pos ⟨hid, hcontact t List.mem_cons_self⟩]
            obtain ⟨calls, hcalls⟩ := ih (available + t.amounts)
              (fun u hu => hcontact u (List.mem_cons_of_mem _ hu)) hsub hx'
            exact ⟨_, by rw [hcalls, held_cons, ← add_assoc]; rfl⟩

/-! ### The whole list -/

lemma remaining_run (hrun : ∀ t ∈ run, t.id ∈ req) (hx : x.id ∉ req) :
    remaining req (run ++ x :: post) = x :: remaining req post := by
  have hnone : remaining req run = [] := by
    simpa [remaining, List.filter_eq_nil_iff] using hrun
  rw [remaining, List.filter_append, List.filter_cons_of_pos (by simpa using hx)]
  exact congrArg (· ++ x :: remaining req post) hnone

lemma requested_run (hrun : ∀ t ∈ run, t.id ∈ req) (hx : x.id ∉ req) :
    requested req (run ++ x :: post) = held run + requested req post := by
  have hall : run.filter (fun t => t.id ∈ req) = run := by
    simpa [List.filter_eq_self] using hrun
  rw [requested, List.filter_append, List.filter_cons_of_neg (by simpa using hx), held_append,
    hall, requested]

/-- What is left when no job with a requested id is. -/
structure Cleared (req : List ℤ) (jobs : List (Resources ℚ)) (available : Amounts ℚ)
    (r : Released ℚ) : Prop where
  /-- The other jobs are left. -/
  left : r.jobs = remaining req jobs
  /-- The amounts of the requested ones are available. -/
  back : r.available = available + requested req jobs

/-- The requested jobs can be cancelled. -/
def Cancellable (req : List ℤ) (jobs : List (Resources ℚ)) : Prop :=
  (∀ t ∈ jobs, t.id ∈ req → t.contact = "") ∧ Sweepable req (jobs.map Resources.id)

lemma Cancellable.run_iff (hrun : ∀ t ∈ run, t.id ∈ req) (hx : x.id ∉ req) :
    Cancellable req (run ++ x :: post) ↔
      (∀ t ∈ run, t.contact = "") ∧ (run.map Resources.id).Sublist req ∧
        Cancellable req post := by
  have hids : ∀ id ∈ run.map Resources.id, id ∈ req := by
    intro id hid
    obtain ⟨t, ht, rfl⟩ := List.mem_map.mp hid
    exact hrun t ht
  unfold Cancellable
  rw [List.map_append, List.map_cons, Sweepable.append_cons_iff hids hx]
  constructor
  · rintro ⟨hcontact, hsub, hpost⟩
    refine ⟨fun t ht => hcontact t (by simp [ht]) (hrun t ht), hsub, fun t ht => ?_, hpost⟩
    exact hcontact t (by simp [ht])
  · rintro ⟨hcontact, hsub, hpost, hsweep⟩
    refine ⟨fun t ht hid => ?_, hsub, hsweep⟩
    rcases List.mem_append.mp ht with ht | ht
    · exact hcontact t ht
    · rcases List.mem_cons.mp ht with rfl | ht
      · exact absurd hid hx
      · exact hpost t ht hid

/-- Where nothing requested is left, everything requested could be cancelled and has been. -/
lemma cancelLoop_cleared {r : Released ℚ} (h : cancelLoop req jobs available = some r)
    (hnone : ∀ t ∈ r.jobs, t.id ∉ req) :
    Cancellable req jobs ∧ Cleared req jobs available r := by
  fun_induction cancelLoop req jobs available generalizing r with
  | case1 available =>
      obtain rfl := Option.some.inj h
      exact ⟨⟨by simp, Sweepable.nil req⟩, ⟨rfl, by simp [requested]⟩⟩
  | case2 => cases h
  | case3 => cases h
  | case4 available t rest t' rest' available' calls hinner ih =>
      obtain ⟨r', hr', rfl⟩ := Option.map_eq_some_iff.mp h
      obtain ⟨run, hjobs, hcontact, hsub, hav, -⟩ := cancelInner_erases hinner
      obtain ⟨hcan, hleft, hback⟩ := ih hr' fun u hu => hnone u (List.mem_cons_of_mem _ hu)
      have hx : t'.id ∉ req := hnone t' List.mem_cons_self
      have hrun : ∀ u ∈ run, u.id ∈ req := fun u hu => hsub.subset (List.mem_map_of_mem hu)
      rw [hjobs]
      refine ⟨(Cancellable.run_iff hrun hx).mpr ⟨hcontact, hsub, hcan⟩, ?_, ?_⟩
      · rw [remaining_run hrun hx, ← hleft]
      · rw [requested_run hrun hx, ← add_assoc, ← hav]
        exact hback

/-- Jobs that can be cancelled are: by induction on the number of jobs, run by run. -/
lemma cancelLoop_of_cancellable (available : Amounts ℚ) (h : Cancellable req jobs) :
    ∃ r, cancelLoop req jobs available = some r ∧ Cleared req jobs available r := by
  induction hn : jobs.length using Nat.strong_induction_on generalizing jobs available with
  | _ n ih =>
    by_cases hnil : jobs = []
    · subst hnil
      exact ⟨_, by rw [cancelLoop], ⟨rfl, by simp [requested]⟩⟩
    · -- the first job that is not requested ends the first run
      obtain ⟨x, run, post, rfl, hrun, hx⟩ : ∃ x run post, jobs = run ++ x :: post ∧
          (∀ t ∈ run, t.id ∈ req) ∧ x.id ∉ req := by
        obtain ⟨id, hid, hnot⟩ := h.2.exists_not_mem (by simpa using hnil)
        obtain ⟨t, ht, rfl⟩ := List.mem_map.mp hid
        have hsome : (jobs.find? fun t => t.id ∉ req).isSome :=
          List.find?_isSome.mpr ⟨t, ht, by simpa using hnot⟩
        obtain ⟨x, hfind⟩ := Option.isSome_iff_exists.mp hsome
        obtain ⟨hx, run, post, hjobs, hrun⟩ := List.find?_eq_some_iff_append.mp hfind
        exact ⟨x, run, post, hjobs, by simpa using hrun, by simpa using hx⟩
      obtain ⟨hcontact, hsub, hpost⟩ := (Cancellable.run_iff hrun hx).mp h
      obtain ⟨calls, hinner⟩ := cancelInner_run post available hcontact hsub fun h => hx h.1
      obtain ⟨r, hr, hleft, hback⟩ := ih post.length
        (by simp only [List.length_append, List.length_cons] at hn; omega)
        (available + held run) hpost rfl
      have hloop : cancelLoop req (run ++ x :: post) available =
          some { r with jobs := x :: r.jobs, calls := calls ++ r.calls } := by
        cases run with
        | nil => rw [List.nil_append] at hinner ⊢; rw [cancelLoop_cons hinner, hr]; rfl
        | cons t run =>
            rw [List.cons_append] at hinner ⊢
            rw [cancelLoop_cons hinner, hr]
            rfl
      refine ⟨_, hloop, ?_, ?_⟩
      · rw [remaining_run hrun hx, ← hleft]
      · rw [requested_run hrun hx, ← add_assoc]
        exact hback

/-- A cancellation leaves no requested job if and only if all of them can be cancelled, and then
it gives back what they hold. -/
lemma cancelLoop_iff (req : List ℤ) (jobs : List (Resources ℚ)) (available : Amounts ℚ) :
    (∃ r, cancelLoop req jobs available = some r ∧ (∀ t ∈ r.jobs, t.id ∉ req) ∧
        r.available = available + requested req jobs) ↔ Cancellable req jobs := by
  constructor
  · rintro ⟨r, hr, hnone, -⟩
    exact (cancelLoop_cleared hr hnone).1
  · intro h
    obtain ⟨r, hr, hleft, hback⟩ := cancelLoop_of_cancellable available h
    refine ⟨r, hr, fun t ht => ?_, hback⟩
    rw [hleft] at ht
    simpa using (List.mem_filter.mp ht).2

end JobMgr
