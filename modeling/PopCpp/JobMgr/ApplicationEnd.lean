/-
# What the end of an application frees

`Reserve` puts a copy of its entry into the list and writes the id of the application into its
own copy after that, so every job in the list has the empty id.  `ApplicationEnd` compares with
the ids in the list: with the id of an application it frees nothing, with the empty one it frees
everything.

Whose job it is, is kept beside the list here: a job that is left by an operation keeps its
owner, and one that is put behind the others belongs to the application of the call.
-/
import PopCpp.JobMgr.Accounting
import PopCpp.JobMgr.Reserve

namespace JobMgr

open Transition

/-! ### Jobs and their owners -/

/-- A job with the application that it was reserved for, if it was one of `Reserve`. -/
abbrev Owned := Resources ℚ × Option String

/-- The same job, and the same owner. -/
structure SameOwner (o' o : Owned) : Prop where
  job : SameJob o'.1 o.1
  owner : o'.2 = o.2

lemma SameOwner.refl (o : Owned) : SameOwner o o := ⟨Std.Refl.refl _, rfl⟩

/-- The list has become `jobs'`: the jobs that are left keep their owners, and one that has been
put behind them gets the new owner. -/
structure Hands (owner : Option String) (owned : List Owned) (jobs' : List (Resources ℚ))
    (owned' : List Owned) : Prop where
  jobs : owned'.map Prod.fst = jobs'
  kept : ∃ kept, List.SublistForall₂ SameOwner kept owned ∧
    owned' = kept ++ (jobs'.drop owned.length).map fun t => (t, owner)

/-- One operation, with what becomes of the call of `Reserve` to the search node and the
application that the reservation is for. -/
structure Call where
  op : Op ℚ
  addJobOk : Bool
  popAppId : String

/-- The operation, without the application. -/
def Call.asked (a : Call) : Op ℚ × Bool := (a.op, a.addJobOk)

/-- The owner of a job that the call creates. -/
def Call.owner (a : Call) : Option String :=
  match a.op with
  | .reserve .. => some a.popAppId
  | _ => none

/-- A run from one machine to another, with the owners of the jobs. -/
inductive OwnedRun (c : Config ℚ) :
    Machine ℚ → List Owned → List Call → Machine ℚ → List Owned → Prop
  | nil {s : Machine ℚ} {owned : List Owned} : OwnedRun c s owned [] s owned
  | cons {s t u : Machine ℚ} {owned owned' owned'' : List Owned} {a : Call}
      {calls : List Call} (hstep : stepCalling c s a.asked = some t)
      (hands : Hands a.owner owned t.manager.jobs owned')
      (rest : OwnedRun c t owned' calls u owned'') :
      OwnedRun c s owned (a :: calls) u owned''

variable {c : Config ℚ} {s t : Machine ℚ} {owned owned' : List Owned} {jobs' : List (Resources ℚ)}

lemma exists_owners (h : Survive jobs' (owned.map Prod.fst)) :
    ∃ owned', owned'.map Prod.fst = jobs' ∧ List.SublistForall₂ SameOwner owned' owned := by
  rw [Survive, List.sublistForall₂_map_right_iff] at h
  induction h with
  | nil => exact ⟨[], rfl, .nil⟩
  | @cons t o _ _ hsame _ ih =>
      obtain ⟨owned', hjobs, hsub⟩ := ih
      exact ⟨(t, o.2) :: owned', by rw [List.map_cons, hjobs], hsub.cons ⟨hsame, rfl⟩⟩
  | cons_right _ ih =>
      obtain ⟨owned', hjobs, hsub⟩ := ih
      exact ⟨owned', hjobs, hsub.cons_right⟩

lemma Survive.length_le {jobs : List (Resources ℚ)} (h : Survive jobs' jobs) :
    jobs'.length ≤ jobs.length := by
  simpa using h.ids.length_le

/-- When jobs are only taken out, the owners are those of the jobs that are left. -/
lemma hands_iff_of_length_le {owner : Option String} (h : jobs'.length ≤ owned.length) :
    Hands owner owned jobs' owned' ↔
      owned'.map Prod.fst = jobs' ∧ List.SublistForall₂ SameOwner owned' owned := by
  have hdrop : jobs'.drop owned.length = [] := List.drop_eq_nil_iff.mpr h
  constructor
  · rintro ⟨hjobs, kept, hkept, howned'⟩
    rw [hdrop, List.map_nil, List.append_nil] at howned'
    exact ⟨hjobs, howned' ▸ hkept⟩
  · rintro ⟨hjobs, hsub⟩
    exact ⟨hjobs, owned', hsub, by rw [hdrop, List.map_nil, List.append_nil]⟩

lemma exists_hands_of_survive (owner : Option String)
    (h : Survive jobs' (owned.map Prod.fst)) : ∃ owned', Hands owner owned jobs' owned' := by
  obtain ⟨owned', howned'⟩ := exists_owners h
  have hlen : jobs'.length ≤ owned.length := by simpa using h.length_le
  exact ⟨owned', (hands_iff_of_length_le hlen).mpr howned'⟩

/-! ### The ids in the list -/

/-- An operation takes jobs out, or it puts one without an application behind the others. -/
lemma stepCalling_jobs {op : Op ℚ} {ok : Bool} (h : stepCalling c s (op, ok) = some t) :
    Survive t.manager.jobs s.manager.jobs ∨
      ∃ e, t.manager.jobs = s.manager.jobs ++ [e] ∧ e.popAppId = "" := by
  rcases stepCalling_cases h with ⟨hsurvive, -⟩ | ⟨-, r, now, hjobs, -⟩
  · exact .inl hsurvive
  · exact .inr ⟨entry s.manager r now, hjobs, rfl⟩

lemma exists_hands {a : Call} (h : stepCalling c s a.asked = some t)
    (hjobs : owned.map Prod.fst = s.manager.jobs) :
    ∃ owned', Hands a.owner owned t.manager.jobs owned' := by
  rcases stepCalling_jobs h with hsurvive | ⟨e, he, -⟩
  · rw [← hjobs] at hsurvive
    exact exists_hands_of_survive _ hsurvive
  · have hdrop : t.manager.jobs.drop owned.length = [e] := by
      rw [he, ← hjobs, List.drop_append_of_le_length (by simp)]
      simp
    have hkept : List.SublistForall₂ SameOwner owned owned := by
      have : Std.Refl SameOwner := ⟨SameOwner.refl⟩
      exact (List.Sublist.refl owned).sublistForall₂
    refine ⟨owned ++ [(e, a.owner)], ?_, owned, hkept, by rw [hdrop]; rfl⟩
    rw [List.map_append, hjobs, he]
    rfl

/-- No job in the list has the id of an application. -/
def Unmarked (m : Manager ℚ) : Prop := ∀ t ∈ m.jobs, t.popAppId = ""

lemma Survive.unmarked {jobs : List (Resources ℚ)} (h : Survive jobs' jobs)
    (hjobs : ∀ t ∈ jobs, t.popAppId = "") : ∀ t ∈ jobs', t.popAppId = "" := by
  induction h with
  | nil => exact fun _ ht => absurd ht List.not_mem_nil
  | cons hsame _ ih =>
      obtain ⟨hfirst, hrest⟩ := List.forall_mem_cons.mp hjobs
      exact List.forall_mem_cons.mpr ⟨hsame.popAppId.trans hfirst, ih hrest⟩
  | cons_right _ ih => exact ih (List.forall_mem_cons.mp hjobs).2

lemma Unmarked.step (hs : Unmarked s.manager) {a : Op ℚ × Bool} (h : stepCalling c s a = some t) :
    Unmarked t.manager := by
  rcases stepCalling_jobs h with hsurvive | ⟨e, he, hid⟩
  · exact hsurvive.unmarked hs
  · intro u hu
    rw [he] at hu
    rcases List.mem_append.mp hu with hu | hu
    · exact hs u hu
    · rwa [List.mem_singleton.mp hu]

/-- A run keeps the owners beside their jobs, and leaves no id in the list. -/
lemma OwnedRun.unmarked {calls : List Call} (h : OwnedRun c s owned calls t owned')
    (hjobs : owned.map Prod.fst = s.manager.jobs) (hs : Unmarked s.manager) :
    owned'.map Prod.fst = t.manager.jobs ∧ Unmarked t.manager := by
  induction h with
  | nil => exact ⟨hjobs, hs⟩
  | cons hstep hands _ ih => exact ih hands.jobs (hs.step hstep)

lemma exists_ownedRun {calls : List Call}
    (h : run (stepCalling c) s (calls.map Call.asked) = some t)
    (hjobs : owned.map Prod.fst = s.manager.jobs) :
    ∃ owned', OwnedRun c s owned calls t owned' := by
  induction calls generalizing s owned with
  | nil =>
      obtain rfl := Option.some.inj h
      exact ⟨owned, .nil⟩
  | cons a calls ih =>
      obtain ⟨u, hstep, hrest⟩ := run_cons_eq_some.mp h
      obtain ⟨owned₁, hands⟩ := exists_hands hstep hjobs
      obtain ⟨owned', hrun⟩ := ih hrest hands.jobs
      exact ⟨owned', .cons hstep hands hrun⟩

/-! ### `ApplicationEnd` -/

/-- The end of an application.  The end request of the initiator comes back to the job manager
through the search node of its own machine. -/
def endApplication (s : Machine ℚ) (popAppId : String) (initiator : Bool) : Machine ℚ :=
  let ended := s.release (applicationEnd s.manager popAppId)
  if initiator then ended.release (applicationEnd ended.manager popAppId) else ended

/-- The jobs of an application are freed: the other ones are left, and what the application's
held is available.  The sum is that of exact amounts; `float`s are added job by job, and rounded. -/
structure Frees (popAppId : String) (s : Machine ℚ) (owned : List Owned) (t : Machine ℚ)
    (owned' : List Owned) : Prop where
  left : List.Forall₂ SameOwner owned' (owned.filter fun o => o.2 ≠ some popAppId)
  grown : t.manager.available = s.manager.available +
    held ((owned.filter fun o => o.2 = some popAppId).map Prod.fst)

/-- Whether the id is the empty one or not, the jobs with it in the list are the jobs of the
application. -/
def Endable (popAppId : String) (owned : List Owned) : Prop :=
  if popAppId = "" then ∀ o ∈ owned, o.2 = some "" else ∀ o ∈ owned, o.2 ≠ some popAppId

lemma endLoop_of_ne {popAppId : String} {jobs : List (Resources ℚ)}
    (h : ∀ t ∈ jobs, t.popAppId ≠ popAppId) (available : Amounts ℚ) :
    endLoop popAppId jobs available = (jobs, available, 0) := by
  induction jobs with
  | nil => rfl
  | cons t rest ih =>
      obtain ⟨ht, hrest⟩ := List.forall_mem_cons.mp h
      rw [endLoop, if_neg ht, ih hrest]

lemma endLoop_of_eq {popAppId : String} {jobs : List (Resources ℚ)}
    (h : ∀ t ∈ jobs, t.popAppId = popAppId) (available : Amounts ℚ) :
    endLoop popAppId jobs available = ([], available + held jobs, jobs.length) := by
  induction jobs generalizing available with
  | nil => simp [endLoop]
  | cons t rest ih =>
      obtain ⟨ht, hrest⟩ := List.forall_mem_cons.mp h
      rw [endLoop, if_pos ht, ih hrest, held_cons, add_assoc, List.length_cons]

/-- With an id nothing is freed. -/
lemma endApplication_of_ne (hs : Unmarked s.manager) {popAppId : String} (hid : popAppId ≠ "")
    (initiator : Bool) :
    (endApplication s popAppId initiator).manager.jobs = s.manager.jobs ∧
      (endApplication s popAppId initiator).manager.available = s.manager.available := by
  have hnone : ∀ t ∈ s.manager.jobs, t.popAppId ≠ popAppId := fun t ht =>
    (hs t ht).trans_ne hid.symm
  have hend : applicationEnd s.manager popAppId =
      ⟨s.manager.jobs, s.manager.available, []⟩ := by
    rw [applicationEnd, endLoop_of_ne hnone]
    rfl
  have hended : s.release (applicationEnd s.manager popAppId) = s := by
    rw [hend]
    rfl
  rw [endApplication, hended]
  cases initiator <;> simp [hended]

/-- Without one everything is. -/
lemma endApplication_empty (hs : Unmarked s.manager) (initiator : Bool) :
    (endApplication s "" initiator).manager.jobs = [] ∧
      (endApplication s "" initiator).manager.available =
        s.manager.available + held s.manager.jobs := by
  have hended : (s.release (applicationEnd s.manager "")).manager =
      ⟨[], s.manager.available + held s.manager.jobs, s.manager.counter⟩ := by
    rw [applicationEnd, endLoop_of_eq hs]
    rfl
  rw [endApplication]
  cases initiator with
  | false => exact ⟨congrArg Manager.jobs hended, congrArg Manager.available hended⟩
  | true =>
      rw [if_pos rfl]
      show (applicationEnd _ "").jobs = [] ∧ (applicationEnd _ "").available = _
      rw [hended]
      exact ⟨rfl, rfl⟩

/-- With an id, the owners are what they were. -/
lemma frees_iff_of_ne {popAppId : String} (hjobs : owned.map Prod.fst = s.manager.jobs)
    (ht : t.manager.jobs = s.manager.jobs) (hav : t.manager.available = s.manager.available)
    (hands : Hands none owned t.manager.jobs owned') :
    Frees popAppId s owned t owned' ↔ ∀ o ∈ owned, o.2 ≠ some popAppId := by
  have hlen : t.manager.jobs.length = owned.length := by rw [ht, ← hjobs, List.length_map]
  obtain ⟨howned', hsub⟩ := (hands_iff_of_length_le hlen.le).mp hands
  have hlen' : owned'.length = owned.length := by rw [← hlen, ← howned', List.length_map]
  have hsame : List.Forall₂ SameOwner owned' owned := by
    obtain ⟨mid, hmid, hmidsub⟩ := List.sublistForall₂_iff.mp hsub
    rwa [hmidsub.eq_of_length (hmid.length_eq.symm.trans hlen')] at hmid
  constructor
  · intro h
    have hall := List.length_filter_eq_length_iff.mp (h.left.length_eq.symm.trans hlen')
    exact fun o ho => of_decide_eq_true (hall o ho)
  · intro h
    have hothers : (owned.filter fun o => o.2 ≠ some popAppId) = owned :=
      List.filter_eq_self.mpr fun o ho => decide_eq_true (h o ho)
    have hits : (owned.filter fun o => o.2 = some popAppId) = [] :=
      List.filter_eq_nil_iff.mpr fun o ho => by simpa using h o ho
    refine ⟨by rwa [hothers], ?_⟩
    rw [hits, hav]
    exact (add_zero _).symm

/-- With the empty one there are none left. -/
lemma frees_iff_empty (hjobs : owned.map Prod.fst = s.manager.jobs)
    (ht : t.manager.jobs = [])
    (hav : t.manager.available = s.manager.available + held s.manager.jobs)
    (hands : Hands none owned t.manager.jobs owned') :
    Frees "" s owned t owned' ↔ ∀ o ∈ owned, o.2 = some "" := by
  obtain rfl : owned' = [] := List.map_eq_nil_iff.mp (hands.jobs.trans ht)
  constructor
  · intro h
    have hnone := List.filter_eq_nil_iff.mp (List.forall₂_nil_left_iff.mp h.left)
    exact fun o ho => by simpa using hnone o ho
  · intro h
    have hothers : (owned.filter fun o => o.2 ≠ some "") = [] :=
      List.filter_eq_nil_iff.mpr fun o ho => by simpa using h o ho
    have hits : (owned.filter fun o => o.2 = some "") = owned :=
      List.filter_eq_self.mpr fun o ho => decide_eq_true (h o ho)
    exact ⟨by rw [hothers]; exact .nil, by rw [hits, hjobs, hav]⟩

/-- **The end of an application frees its jobs** if and only if there is nothing to free, or the
application has no id and there are no jobs of others.  Every run has owners for its jobs. -/
theorem applicationEnd_frees_iff (c : Config ℚ) :
    (∀ (calls : List Call) (s : Machine ℚ),
      run (stepCalling c) c.machine (calls.map Call.asked) = some s →
        ∃ owned, OwnedRun c c.machine [] calls s owned) ∧
    ∀ (calls : List Call) (s : Machine ℚ) (owned : List Owned),
      OwnedRun c c.machine [] calls s owned → ∀ (popAppId : String) (initiator : Bool),
        (∃ owned', Hands none owned (endApplication s popAppId initiator).manager.jobs owned') ∧
        ∀ owned', Hands none owned (endApplication s popAppId initiator).manager.jobs owned' →
          (Frees popAppId s owned (endApplication s popAppId initiator) owned' ↔
            Endable popAppId owned) := by
  refine ⟨fun calls s h => exists_ownedRun h rfl,
    fun calls s owned h popAppId initiator => ?_⟩
  obtain ⟨hjobs, hs⟩ := h.unmarked rfl fun _ ht => absurd ht List.not_mem_nil
  by_cases hid : popAppId = ""
  · subst hid
    obtain ⟨hended, hav⟩ := endApplication_empty hs initiator
    refine ⟨exists_hands_of_survive _ ?_, fun owned' hands => ?_⟩
    · rw [hended]
      exact .nil
    · rw [Endable, if_pos rfl]
      exact frees_iff_empty hjobs hended hav hands
  · obtain ⟨hended, hav⟩ := endApplication_of_ne hs hid initiator
    refine ⟨exists_hands_of_survive _ ?_, fun owned' hands => ?_⟩
    · rw [hended, hjobs]
      exact Survive.refl _
    · rw [Endable, if_neg hid]
      exact frees_iff_of_ne hjobs hended hav hands

/-- A reservation for an application, and what it makes of the idle machine. -/
def reserveFor (popAppId : String) : Call := ⟨.reserve (wants 40 (-1)) 0 0, true, popAppId⟩
def oneJob : Machine ℚ :=
  idle.machine.reserve (reserve idle idle.initial (wants 40 (-1)) 0 0 true)

/-- The jobs there are the application's. -/
def ownedBy (popAppId : String) : List Owned :=
  oneJob.manager.jobs.map fun t => (t, some popAppId)

lemma ownedRun_oneJob (popAppId : String) :
    OwnedRun idle idle.machine [] [reserveFor popAppId] oneJob (ownedBy popAppId) :=
  .cons (t := oneJob) rfl ⟨by simp [Function.comp_def], [], .nil, rfl⟩ .nil

/-- An application without an id gives back what its job holds. -/
theorem applicationEnd_frees_iff_empty :
    (∃ owned, OwnedRun idle idle.machine [] [reserveFor ""] oneJob owned) ∧
      oneJob.manager.available .flops = 60 ∧
      ∃ owned', Hands none (ownedBy "") (endApplication oneJob "" true).manager.jobs owned' ∧
        Frees "" oneJob (ownedBy "") (endApplication oneJob "" true) owned' ∧
        (endApplication oneJob "" true).manager.available .flops = 100 := by
  refine ⟨(applicationEnd_frees_iff idle).1 [reserveFor ""] oneJob rfl, by decide +kernel, ?_⟩
  obtain ⟨⟨owned', hands⟩, hiff⟩ := (applicationEnd_frees_iff idle).2 [reserveFor ""] oneJob
    (ownedBy "") (ownedRun_oneJob "") "" true
  refine ⟨owned', hands, (hiff owned' hands).mpr ?_, by decide +kernel⟩
  rw [Endable, if_pos rfl]
  intro o ho
  obtain ⟨t, -, rfl⟩ := List.mem_map.mp ho
  rfl

/-- The job of the application is still there after the application has ended. -/
theorem applicationEnd_keeps_job :
    ∃ s owned, OwnedRun idle idle.machine [] [reserveFor "app"] s owned ∧
      ∃ owned', Hands none owned (endApplication s "app" false).manager.jobs owned' ∧
        ¬Frees "app" s owned (endApplication s "app" false) owned' := by
  obtain ⟨hjobs, hs⟩ := (ownedRun_oneJob "app").unmarked rfl fun _ ht =>
    absurd ht List.not_mem_nil
  obtain ⟨hended, hav⟩ := endApplication_of_ne hs (show "app" ≠ "" by decide) false
  have hsurvive : Survive (endApplication oneJob "app" false).manager.jobs
      ((ownedBy "app").map Prod.fst) := by
    rw [hended, hjobs]
    exact Survive.refl _
  obtain ⟨owned', hands⟩ := exists_hands_of_survive none hsurvive
  refine ⟨oneJob, ownedBy "app", ownedRun_oneJob "app", owned', hands, fun hfrees => ?_⟩
  obtain ⟨t, ht⟩ := List.exists_mem_of_ne_nil oneJob.manager.jobs (by decide +kernel)
  exact (frees_iff_of_ne hjobs hended hav hands).mp hfrees _ (List.mem_map_of_mem ht) rfl

end JobMgr
