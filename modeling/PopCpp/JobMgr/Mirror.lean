/-
# What the search node knows of the job manager

The search node keeps the available amounts and the number of jobs of its machine.  `addJob`
subtracts what a job takes, but `removeJob` sets the amounts to what it is given, and while
`ApplicationEnd` gives it what is available, the other callers give it the amounts of a single
job, and not even of the job that they have released but of the one behind it in the list.
`MatchAndReserve` does not tell the search node at all.

So the two agree after every operation as long as no reservation is made by `MatchAndReserve`
and no job is released but one that stands right before a job which happens to hold exactly
what is available after the release.  Both compute with the same `float`s, and nothing here depends
on how these are rounded.
-/
import PopCpp.JobMgr.Model
import PopCpp.Lib.Binary32

namespace JobMgr

open Transition Binary32

variable {K : Type*}

/-- The search node knows what is available and how many jobs there are. -/
def Mirrors (s : Machine K) : Prop :=
  s.view.amounts = some s.manager.available ∧ s.view.currentJobs = s.manager.jobs.length

/-! ### Reservations -/

section reservations

variable [Sub K] [Div K] [Zero K] [One K] [IntCast K] [LT K] [LE K] [DecidableLT K] [DecidableLE K]
  {c : Config K} {s : Machine K}

lemma Mirrors.reserve (h : Mirrors s) (od : ObjectDescription K) (inoutfitness : K) (now : ℤ) :
    Mirrors (s.reserve (JobMgr.reserve c s.manager od inoutfitness now true)) := by
  rcases reserve_cases c s.manager od inoutfitness now with hr | ⟨r, -, hr⟩
  · rw [hr]
    exact h
  · rw [hr]
    constructor
    · show s.view.amounts.map (fun a => a - (entry s.manager r now).amounts) = _
      rw [h.1]
      rfl
    · show s.view.currentJobs + 1 = ((s.manager.jobs ++ [entry s.manager r now]).length : ℤ)
      rw [h.2, List.length_append]
      rfl

/-- `MatchAndReserve` makes the reservation. -/
def Grants (c : Config K) (m : Manager K) (od : ObjectDescription K) (inoutfitness : K) : Prop :=
  m.jobs.length < c.maxjobs ∧ (od.isEmpty = true ∨ checkMinPower c m od = true) ∧
    (matchResources c m od inoutfitness).isSome

/-- `MatchAndReserve` in both cases. -/
lemma matchAndReserve_eq (c : Config K) (m : Manager K) (od : ObjectDescription K)
    (inoutfitness : K) (now : ℤ) :
    (¬Grants c m od inoutfitness →
      matchAndReserve c m od inoutfitness now = ⟨m, [], 0, inoutfitness⟩) ∧
    (Grants c m od inoutfitness → ∃ r, matchAndReserve c m od inoutfitness now =
      ⟨reserved m r now, [], m.counter, r.fitness⟩) := by
  have hcheck : (!od.isEmpty && !checkMinPower c m od) = true ↔
      ¬(od.isEmpty = true ∨ checkMinPower c m od = true) := by
    cases od.isEmpty <;> cases checkMinPower c m od <;> simp
  constructor
  · intro h
    rw [matchAndReserve]
    split_ifs with hfull hleast
    · rfl
    · rfl
    · cases hr : matchResources c m od inoutfitness with
      | none => rfl
      | some r =>
          exact absurd ⟨not_le.mp hfull, not_not.mp (mt hcheck.mpr hleast), by rw [hr]; rfl⟩ h
  · rintro ⟨hfull, hleast, hsome⟩
    obtain ⟨r, hr⟩ := Option.isSome_iff_exists.mp hsome
    refine ⟨r, ?_⟩
    rw [matchAndReserve, if_neg (not_le.mpr hfull), if_neg fun h => hcheck.mp h hleast, hr]

end reservations

/-! ### The side condition -/

/-- No job is released. -/
def ReleasesNone (freed : ℕ → Resources K → Prop) (jobs : List (Resources K)) : Prop :=
  ∀ k t, jobs[k]? = some t → ¬freed k t

lemma ReleasesNone.cons {freed : ℕ → Resources K → Prop} {t : Resources K}
    {rest : List (Resources K)} (h : ReleasesNone freed (t :: rest)) :
    ¬freed 0 t ∧ ReleasesNone (fun k => freed (k + 1)) rest :=
  ⟨h 0 t rfl, fun k u hu => h (k + 1) u (by simpa using hu)⟩

lemma releasesNone_forall {freed : Resources K → Prop} {jobs : List (Resources K)}
    (h : ReleasesNone (fun _ => freed) jobs) : ∀ t ∈ jobs, ¬freed t := by
  intro t ht
  obtain ⟨k, hk⟩ := List.mem_iff_getElem?.mp ht
  exact h k t hk

/-- The other jobs of a list of which one is released. -/
lemma releasesOne_forall {freed : Resources K → Prop} {before behind : List (Resources K)}
    {t next : Resources K}
    (h : ∀ k u, (before ++ t :: next :: behind)[k]? = some u → freed u → k = before.length) :
    (∀ u ∈ before, ¬freed u) ∧ ¬freed next ∧ ∀ u ∈ behind, ¬freed u := by
  refine ⟨fun u hu hfreed => ?_, fun hfreed => ?_, fun u hu hfreed => ?_⟩
  · obtain ⟨k, hk⟩ := List.mem_iff_getElem?.mp hu
    have hlt : k < before.length := (List.getElem?_eq_some_iff.mp hk).1
    have heq := h k u (by rw [List.getElem?_append_left hlt, hk]) hfreed
    omega
  · have heq := h (before.length + 1) next (by simp) hfreed
    omega
  · obtain ⟨k, hk⟩ := List.mem_iff_getElem?.mp hu
    have hget : (before ++ t :: next :: behind)[before.length + (k + 2)]? = some u := by
      rw [List.getElem?_append_right (Nat.le_add_right _ _), Nat.add_sub_cancel_left]
      simpa using hk
    have heq := h (before.length + (k + 2)) u hget hfreed
    omega

lemma validateLoop_length (id : ℤ) (objcontact appserv : AccessPoint) (now : ℤ)
    (jobs : List (Resources K)) :
    (validateLoop id objcontact appserv now jobs).length = jobs.length := by
  induction jobs with
  | nil => rfl
  | cons t rest ih =>
      rw [validateLoop]
      split_ifs
      · rfl
      · simp [ih]

variable [Add K]

/-- One job is released, and the one behind it holds what is available then. -/
def ReleasesOne (freed : ℕ → Resources K → Prop) (jobs : List (Resources K))
    (available : Amounts K) : Prop :=
  ∃ before t next behind, jobs = before ++ t :: next :: behind ∧ freed before.length t ∧
    (∀ k u, jobs[k]? = some u → freed k u → k = before.length) ∧
    next.amounts = available + t.amounts

/-- The side condition on an operation that releases the jobs in `freed`. -/
def ReleasesUnseen (m : Manager K) (freed : ℕ → Resources K → Prop) : Prop :=
  ReleasesNone freed m.jobs ∨ ReleasesOne freed m.jobs m.available

/-! ### The loops -/

/-- What a loop leaves that releases one job: the job behind it is reported. -/
def releasedOne (before : List (Resources K)) (t next : Resources K) (behind : List (Resources K))
    (available : Amounts K) : Released K :=
  ⟨before ++ next :: behind, available + t.amounts, [.removeJob (some next.amounts) 1]⟩

lemma releaseLoop_none {id : ℤ} {jobs : List (Resources K)} {available : Amounts K}
    (h : ∀ t ∈ jobs, ¬(t.id = id ∧ t.contact ≠ "")) :
    releaseLoop id jobs available = ⟨jobs, available, []⟩ := by
  induction jobs with
  | nil => rfl
  | cons t rest ih =>
      rw [releaseLoop, if_neg (h t List.mem_cons_self),
        ih fun u hu => h u (List.mem_cons_of_mem _ hu)]
      rfl

lemma releaseLoop_one {id : ℤ} {before behind : List (Resources K)} {t next : Resources K}
    {available : Amounts K} (hbefore : ∀ u ∈ before, ¬(u.id = id ∧ u.contact ≠ ""))
    (ht : t.id = id ∧ t.contact ≠ "") :
    releaseLoop id (before ++ t :: next :: behind) available =
      releasedOne before t next behind available := by
  induction before with
  | nil =>
      rw [List.nil_append, releaseLoop, if_pos ht]
      rfl
  | cons u before ih =>
      rw [List.cons_append, releaseLoop, if_neg (hbefore u List.mem_cons_self),
        ih fun v hv => hbefore v (List.mem_cons_of_mem _ hv)]
      rfl

lemma updateLoop_none {T : ℤ} {rounds : ℕ → Round} {i : ℕ} {jobs : List (Resources K)}
    (h : ReleasesNone (fun k => Expired T (rounds (i + k))) jobs) (available : Amounts K) :
    ∃ jobs', updateLoop T rounds i jobs available = ⟨jobs', available, []⟩ ∧
      jobs'.length = jobs.length := by
  induction jobs generalizing i with
  | nil => exact ⟨[], rfl, rfl⟩
  | cons t rest ih =>
      obtain ⟨ht, hrest⟩ := h.cons
      have hshift : ReleasesNone (fun k => Expired T (rounds (i + 1 + k))) rest := by
        intro k u hu
        have hu' : ¬Expired T (rounds (i + (k + 1))) u := hrest k u hu
        rwa [show i + (k + 1) = i + 1 + k by omega] at hu'
      obtain ⟨jobs', heq, hlen⟩ := ih hshift
      refine ⟨refresh (rounds i) t :: jobs', ?_, by simp [hlen]⟩
      rw [updateLoop, if_neg (by simpa using ht), heq]
      rfl

lemma updateLoop_one {T : ℤ} {rounds : ℕ → Round} {i : ℕ} {before behind : List (Resources K)}
    {t next : Resources K} (ht : Expired T (rounds (i + before.length)) t)
    (hone : ∀ k u, (before ++ t :: next :: behind)[k]? = some u →
      Expired T (rounds (i + k)) u → k = before.length) (available : Amounts K) :
    ∃ jobs', updateLoop T rounds i (before ++ t :: next :: behind) available =
        ⟨jobs', available + t.amounts, [.removeJob (some next.amounts) 1]⟩ ∧
      jobs'.length + 1 = (before ++ t :: next :: behind).length := by
  induction before generalizing i with
  | nil =>
      have hnone : ReleasesNone (fun k => Expired T (rounds (i + 1 + k))) (next :: behind) := by
        intro k u hu hexp
        have hk := hone (k + 1) u (by simpa using hu)
          (by rwa [show i + (k + 1) = i + 1 + k by omega])
        simp at hk
      obtain ⟨jobs', heq, hlen⟩ := updateLoop_none hnone (available + t.amounts)
      refine ⟨jobs', ?_, by simp [hlen]⟩
      rw [List.nil_append, updateLoop, if_pos (by simpa using ht), Released.free, heq]
      rfl
  | cons u before ih =>
      have hu : ¬Expired T (rounds i) u := by
        intro hexp
        have hk := hone 0 u rfl (by simpa using hexp)
        simp at hk
      obtain ⟨jobs', heq, hlen⟩ := ih (i := i + 1)
        (by rwa [List.length_cons, show i + (before.length + 1) = i + 1 + before.length by omega]
          at ht)
        (fun k v hv hexp => by
          have hk := hone (k + 1) v (by simpa using hv)
            (by rwa [show i + (k + 1) = i + 1 + k by omega])
          simpa using hk)
      refine ⟨refresh (rounds i) u :: jobs', ?_, by simpa using hlen⟩
      rw [List.cons_append, updateLoop, if_neg hu, heq]
      rfl

section cancel

variable {req : List ℤ} {t next : Resources K} {rest before behind : List (Resources K)}
  {available : Amounts K}

lemma cancelInner_none (ht : ¬(t.id ∈ req ∧ t.contact = "")) :
    cancelInner req (t :: rest) available = some ⟨t :: rest, available, []⟩ := by
  induction req with
  | nil => rfl
  | cons id req ih =>
      have hid : ¬(t.id = id ∧ t.contact = "") :=
        fun h => ht ⟨h.1 ▸ List.mem_cons_self, h.2⟩
      rw [cancelInner, if_neg hid]
      exact ih fun h => ht ⟨List.mem_cons_of_mem _ h.1, h.2⟩

lemma cancelInner_one (ht : t.id ∈ req ∧ t.contact = "")
    (hnext : ¬(next.id ∈ req ∧ next.contact = "")) :
    cancelInner req (t :: next :: rest) available =
      some ⟨next :: rest, available + t.amounts, [.removeJob (some next.amounts) 1]⟩ := by
  induction req with
  | nil => simp at ht
  | cons id req ih =>
      have hnext' : ¬(next.id ∈ req ∧ next.contact = "") :=
        fun h => hnext ⟨List.mem_cons_of_mem _ h.1, h.2⟩
      rw [cancelInner]
      split_ifs with hid
      · rw [cancelInner_none hnext']
        rfl
      · refine ih ⟨?_, ht.2⟩ hnext'
        rcases List.mem_cons.mp ht.1 with heq | hmem
        · exact absurd ⟨heq, ht.2⟩ hid
        · exact hmem

/-- At a job that the inner loop leaves the outer loop goes on behind it. -/
lemma cancelLoop_cons {jobs' : List (Resources K)} {available' : Amounts K}
    {calls : List (NodeCall K)}
    (h : cancelInner req (t :: rest) available = some ⟨next :: jobs', available', calls⟩) :
    cancelLoop req (t :: rest) available =
      (cancelLoop req jobs' available').map fun r =>
        { r with jobs := next :: r.jobs, calls := calls ++ r.calls } := by
  rw [cancelLoop]
  split
  · rename_i heq
    rw [h] at heq
    cases heq
  · rename_i heq
    rw [h] at heq
    cases heq
  · rename_i heq
    rw [h] at heq
    cases heq
    rfl

lemma cancelLoop_none {jobs : List (Resources K)} (h : ∀ t ∈ jobs, ¬(t.id ∈ req ∧ t.contact = "")) :
    cancelLoop req jobs available = some ⟨jobs, available, []⟩ := by
  induction jobs with
  | nil => rw [cancelLoop]
  | cons t rest ih =>
      rw [cancelLoop_cons (cancelInner_none (h t List.mem_cons_self)),
        ih fun u hu => h u (List.mem_cons_of_mem _ hu)]
      rfl

lemma cancelLoop_one (hbefore : ∀ u ∈ before, ¬(u.id ∈ req ∧ u.contact = ""))
    (ht : t.id ∈ req ∧ t.contact = "") (hnext : ¬(next.id ∈ req ∧ next.contact = ""))
    (hbehind : ∀ u ∈ behind, ¬(u.id ∈ req ∧ u.contact = "")) :
    cancelLoop req (before ++ t :: next :: behind) available =
      some (releasedOne before t next behind available) := by
  induction before with
  | nil =>
      rw [List.nil_append, cancelLoop_cons (cancelInner_one ht hnext), cancelLoop_none hbehind]
      rfl
  | cons u before ih =>
      rw [List.cons_append, cancelLoop_cons (cancelInner_none (hbefore u List.mem_cons_self)),
        ih fun v hv => hbefore v (List.mem_cons_of_mem _ hv)]
      rfl

end cancel

/-- The loop of `ApplicationEnd` counts the jobs that it erases. -/
lemma endLoop_length (popAppId : String) (jobs : List (Resources K)) (available : Amounts K) :
    (endLoop popAppId jobs available).1.length + (endLoop popAppId jobs available).2.2 =
      jobs.length := by
  induction jobs generalizing available with
  | nil => rfl
  | cons t rest ih =>
      rw [endLoop]
      split_ifs
      · have hlen := ih (available + t.amounts)
        generalize endLoop popAppId rest (available + t.amounts) = e at hlen ⊢
        obtain ⟨jobs', available', nbJob⟩ := e
        simp only [List.length_cons] at hlen ⊢
        omega
      · have hlen := ih available
        generalize endLoop popAppId rest available = e at hlen ⊢
        obtain ⟨jobs', available', nbJob⟩ := e
        simp only [List.length_cons] at hlen ⊢
        omega

lemma endLoop_available (popAppId : String) (jobs : List (Resources K)) (available : Amounts K)
    (h : (endLoop popAppId jobs available).2.2 = 0) :
    (endLoop popAppId jobs available).2.1 = available := by
  induction jobs with
  | nil => rfl
  | cons t rest ih =>
      rw [endLoop] at h ⊢
      by_cases ht : t.popAppId = popAppId
      · simp [ht] at h
      · rw [if_neg ht] at h ⊢
        exact ih h

/-! ### Operations -/

section release

variable [Sub K] {s : Machine K}

omit [Add K] in
/-- Nothing has been released. -/
lemma Mirrors.release_none (h : Mirrors s) {jobs : List (Resources K)}
    (hlen : jobs.length = s.manager.jobs.length) :
    Mirrors (s.release ⟨jobs, s.manager.available, []⟩) :=
  ⟨h.1, by rw [Machine.release, hlen]; exact h.2⟩

/-- One job has been released, and the job behind it was reported. -/
lemma Mirrors.release_one (h : Mirrors s) {jobs : List (Resources K)} {t next : Resources K}
    (hlen : jobs.length + 1 = s.manager.jobs.length)
    (hnext : next.amounts = s.manager.available + t.amounts) :
    Mirrors (s.release ⟨jobs, s.manager.available + t.amounts,
      [.removeJob (some next.amounts) 1]⟩) := by
  refine ⟨congrArg some hnext, ?_⟩
  show s.view.currentJobs - (1 : ℕ) = (jobs.length : ℤ)
  rw [h.2, ← hlen]
  push_cast
  omega

/-- `ApplicationEnd` tells the search node what is available. -/
lemma Mirrors.applicationEnd (h : Mirrors s) (popAppId : String) :
    Mirrors (s.release (JobMgr.applicationEnd s.manager popAppId)) := by
  have hlen := endLoop_length popAppId s.manager.jobs s.manager.available
  have hsame : (endLoop popAppId s.manager.jobs s.manager.available).2.2 = 0 →
      (endLoop popAppId s.manager.jobs s.manager.available).2.1 = s.manager.available :=
    endLoop_available popAppId _ _
  unfold JobMgr.applicationEnd
  generalize endLoop popAppId s.manager.jobs s.manager.available = e at hlen hsame ⊢
  obtain ⟨jobs, available, nbJob⟩ := e
  simp only at hlen hsame ⊢
  split_ifs with hnb
  · refine ⟨rfl, ?_⟩
    show s.view.currentJobs - (nbJob : ℕ) = (jobs.length : ℤ)
    rw [h.2, ← hlen]
    push_cast
    omega
  · obtain rfl : nbJob = 0 := by omega
    rw [hsame rfl]
    exact h.release_none hlen

end release

variable [Sub K] [Div K] [Zero K] [One K] [IntCast K] [LT K] [LE K] [DecidableLT K] [DecidableLE K]
  {c : Config K} {s : Machine K}

/-- The side condition on an operation. -/
def KeepsView (c : Config K) (s : Machine K) : Op K → Prop
  | .reserve _ _ _ => True
  | .matchAndReserve od inoutfitness _ => ¬Grants c s.manager od inoutfitness
  | .releaseJob id =>
      ReleasesUnseen s.manager fun _ t => 0 < id ∧ t.id = id ∧ t.contact ≠ ""
  | .cancelReservation req => ReleasesUnseen s.manager fun _ t => t.id ∈ req ∧ t.contact = ""
  | .update rounds => ReleasesUnseen s.manager fun k t => Expired c.reserveTimeout (rounds k) t
  | .validateReservation _ _ _ _ => True
  | .applicationEnd _ => True

/-- An operation that meets the side condition is defined and keeps the two in step. -/
lemma Mirrors.step (h : Mirrors s) {op : Op K} (hop : KeepsView c s op) :
    ∃ s', JobMgr.step c s op = some s' ∧ Mirrors s' := by
  cases op with
  | reserve od inoutfitness now => exact ⟨_, rfl, h.reserve od inoutfitness now⟩
  | matchAndReserve od inoutfitness now =>
      refine ⟨_, rfl, ?_⟩
      -- a grant would take a slot that the view has not seen
      rw [(matchAndReserve_eq c s.manager od inoutfitness now).1 hop]
      exact h
  | releaseJob id =>
      refine ⟨_, rfl, ?_⟩
      unfold JobMgr.releaseJob
      split_ifs with hid
      · exact h.release_none rfl
      · rw [not_le] at hid
        simp only [KeepsView, hid, true_and] at hop
        rcases hop with hnone | ⟨before, t, next, behind, hjobs, ht, hone, hnext⟩
        · rw [releaseLoop_none (releasesNone_forall hnone)]
          exact h.release_none rfl
        · rw [hjobs] at hone
          rw [hjobs, releaseLoop_one (releasesOne_forall hone).1 ht]
          exact h.release_one (by simp [hjobs]; omega) hnext
  | cancelReservation req =>
      simp only [JobMgr.step, cancelReservation]
      split_ifs with hreq
      · exact ⟨_, rfl, h.release_none rfl⟩
      · rcases hop with hnone | ⟨before, t, next, behind, hjobs, ht, hone, hnext⟩
        · rw [cancelLoop_none (releasesNone_forall hnone)]
          exact ⟨_, rfl, h.release_none rfl⟩
        · rw [hjobs] at hone
          obtain ⟨hbefore, hbeside, hbehind⟩ := releasesOne_forall hone
          rw [hjobs, cancelLoop_one hbefore ht hbeside hbehind]
          exact ⟨_, rfl, h.release_one (by simp [hjobs]; omega) hnext⟩
  | update rounds =>
      refine ⟨_, rfl, ?_⟩
      -- `Update` runs the check over all jobs: it removes none, or the one of the side condition
      unfold JobMgr.update
      rcases hop with hnone | ⟨before, t, next, behind, hjobs, ht, hone, hnext⟩
      · obtain ⟨jobs', heq, hlen⟩ := updateLoop_none (i := 0) (by simpa using hnone)
          s.manager.available
        rw [heq]
        exact h.release_none hlen
      · rw [hjobs] at hone
        obtain ⟨jobs', heq, hlen⟩ := updateLoop_one (i := 0) (by simpa using ht)
          (by simpa using hone) s.manager.available
        rw [hjobs, heq]
        exact h.release_one (by rw [hlen, hjobs]) hnext
  | validateReservation id objcontact appserv now =>
      refine ⟨_, rfl, h.1, ?_⟩
      show s.view.currentJobs = ((validateLoop id objcontact appserv now _).length : ℤ)
      rw [validateLoop_length]
      exact h.2
  | applicationEnd popAppId => exact ⟨_, rfl, h.applicationEnd popAppId⟩

/-- **The view of the search node.**  In a run whose operations all meet the side condition, from
a machine whose two views agree, every operation is defined and the views agree after it. -/
theorem mirrors_of_run {c : Config K} {s : Machine K} (h : Mirrors s) {ops : List (Op K)}
    (hops : Along (step c) (KeepsView c) s ops) {ops' : List (Op K)} (hpre : ops' <+: ops) :
    ∃ s', run (step c) s ops' = some s' ∧ Mirrors s' := by
  induction ops' generalizing s ops with
  | nil => exact ⟨s, rfl, h⟩
  | cons op ops' ih =>
      obtain ⟨rest, rfl⟩ := hpre
      obtain ⟨hop, hrest⟩ := hops
      obtain ⟨t, ht, hmirrors⟩ := h.step hop
      obtain ⟨u, hu, hmirrors'⟩ := ih hmirrors (hrest t ht) (List.prefix_append ops' rest)
      exact ⟨u, run_cons_eq_some.mpr ⟨t, ht, hu⟩, hmirrors'⟩

/-- A machine with a power of 100 and 100 MB of memory. -/
def smallConfig : Config Number := ⟨(100 : ℤ), 100, 0, 1, 100, 300, none⟩

/-- A power and a memory. -/
def small (flops mem : ℤ) : Amounts K := amounts flops mem 0

/-- A reservation of that power and memory. -/
def smallJob (id flops mem : ℤ) : Resources K :=
  ⟨id, small flops mem, 0, "", "", 0, "", ""⟩

/-- An object that wants a power and a memory. -/
def wants (power memory : ℤ) : ObjectDescription K :=
  ⟨power, (-1 : ℤ), memory, (-1 : ℤ), (-1 : ℤ), (-1 : ℤ), (-1 : ℤ), ""⟩

/-- The first of two reservations is cancelled, and the second one happens to hold what is
available then. -/
theorem mirrors_of_run_cancel :
    ∃ s', run (step smallConfig)
        ⟨⟨[smallJob 1 10 30, smallJob 2 50 50], small 40 20, 3⟩, ⟨some (small 40 20), 2⟩⟩
        [.cancelReservation [1]] = some s' ∧ Mirrors s' := by
  have hops : Along (step smallConfig) (KeepsView smallConfig)
      ⟨⟨[smallJob 1 10 30, smallJob 2 50 50], small 40 20, 3⟩, ⟨some (small 40 20), 2⟩⟩
      [.cancelReservation [1]] := ⟨Or.inr ?_, fun _ _ => trivial⟩
  · exact mirrors_of_run ⟨rfl, rfl⟩ hops (List.prefix_refl _)
  refine ⟨[], smallJob 1 10 30, smallJob 2 50 50, [], rfl, ⟨List.mem_cons_self, rfl⟩, ?_, ?_⟩
  · rintro (_ | _ | k) u hu ⟨hid, -⟩
    · rfl
    · obtain rfl := Option.some.inj hu
      simp [smallJob] at hid
    · simp at hu
  · funext q
    cases q <;> decide +kernel

/-- Two reservations of 30 and of 20 MB are made, and the first one times out: 80 MB are
available then, but the search node is told of the 20 MB that the second one holds. -/
theorem view_diverges :
    ∃ s, run (step smallConfig) smallConfig.machine
        [.reserve (wants 10 30) 0 0, .reserve (wants 10 20) 0 900,
          .update fun _ => ⟨1000, true⟩] = some s ∧
      Mirrors smallConfig.machine ∧ ¬Mirrors s := by
  refine ⟨_, rfl, ⟨rfl, rfl⟩, fun h => ?_⟩
  have hmem := congrArg (Option.map fun a => a Quantity.mem) h.1
  revert hmem
  decide +kernel

end JobMgr
