/-
# What a cancellation should do

`CancelReservation` is to erase the reservations with the requested ids and no other job, to
make exactly what they hold available again, and to report just that to the search node.  It
reports through a reference to the slot of the erased job, in which the next one stands by then:
the report is right only where that job holds as much.
-/
import PopCpp.JobMgr.Cancel
import Mathlib.Data.List.Chain

namespace JobMgr

open Runs

/-- The job is a reservation that is to be cancelled. -/
def Target (req : List ℤ) (t : Resources ℚ) : Prop := t.id ∈ req ∧ t.contact = ""

instance (req : List ℤ) (t : Resources ℚ) : Decidable (Target req t) :=
  inferInstanceAs (Decidable (_ ∧ _))

/-- The report of a job that has been taken out of the list. -/
def report (t : Resources ℚ) : NodeCall ℚ := .removeJob (some t.amounts) 1

/-- Exactly the targets are gone: from the list, to the amounts and in the reports. -/
structure Exact (req : List ℤ) (jobs : List (Resources ℚ)) (available : Amounts ℚ)
    (r : Released ℚ) : Prop where
  left : r.jobs = jobs.filter fun t => ¬Target req t
  back : r.available = available + held (jobs.filter fun t => Target req t)
  reported : r.calls = (jobs.filter fun t => Target req t).map report

/-- The id of a job that can be cancelled. -/
def Resources.reservationId (t : Resources ℚ) : Option ℤ :=
  if t.contact = "" then some t.id else none

/-- The targets can be swept out of the list, and behind each of them stands a job that holds as
much. -/
structure ExactlyCancellable (req : List ℤ) (jobs : List (Resources ℚ)) : Prop where
  sweep : Sweepable (req.map some) (jobs.map Resources.reservationId)
  twins : jobs.IsChain fun t next => Target req t → next.amounts = t.amounts

variable {req : List ℤ} {jobs run post : List (Resources ℚ)} {x : Resources ℚ}
  {available : Amounts ℚ}

lemma reservationId_mem_iff {t : Resources ℚ} : t.reservationId ∈ req.map some ↔ Target req t := by
  rw [Resources.reservationId, Target]
  split
  · next hcontact => simp [hcontact]
  · next hcontact => simp [hcontact]

lemma map_reservationId (hcontact : ∀ t ∈ run, t.contact = "") :
    run.map Resources.reservationId = (run.map Resources.id).map some := by
  rw [List.map_map]
  exact List.map_congr_left fun t ht => if_pos (hcontact t ht)

lemma map_some_sublist_iff {ids ids' : List ℤ} :
    (ids.map some).Sublist (ids'.map some) ↔ ids.Sublist ids' := by
  refine ⟨fun h => ?_, fun h => h.map some⟩
  have hids := h.filterMap id
  rwa [List.filterMap_map, List.filterMap_map, Function.id_comp, List.filterMap_some,
    List.filterMap_some] at hids

/-- The reports of a run are right if and only if all jobs behind its jobs hold as much. -/
lemma reports_eq_iff (hrun : ∀ t ∈ run, Target req t) :
    reports run (x :: post) = run.map report ↔
      (run ++ [x]).IsChain fun t next => Target req t → next.amounts = t.amounts := by
  induction run with
  | nil => simp [reports]
  | cons t run ih =>
      rw [List.forall_mem_cons] at hrun
      obtain ⟨next, behind, hbehind⟩ : ∃ next behind, run ++ [x] = next :: behind := by
        cases run with
        | nil => exact ⟨x, [], rfl⟩
        | cons u run => exact ⟨u, run ++ [x], rfl⟩
      have hhead : (run ++ x :: post).head? = some next := by
        rw [List.append_cons, hbehind]
        rfl
      rw [reports, List.map_cons, List.cons.injEq, ih hrun.2, List.cons_append, hbehind,
        List.isChain_cons_cons, hhead, report]
      simp [hrun.1]

lemma filter_target_run (hrun : ∀ t ∈ run, Target req t) (hx : ¬Target req x) :
    (run ++ x :: post).filter (fun t => Target req t) =
      run ++ post.filter fun t => Target req t := by
  have hall : run.filter (fun t => Target req t) = run := by
    simpa [List.filter_eq_self] using hrun
  rw [List.filter_append, hall, List.filter_cons_of_neg (by simpa using hx)]

lemma filter_not_target_run (hrun : ∀ t ∈ run, Target req t) (hx : ¬Target req x) :
    (run ++ x :: post).filter (fun t => ¬Target req t) =
      x :: post.filter fun t => ¬Target req t := by
  have hnone : run.filter (fun t => ¬Target req t) = [] := by
    simpa [List.filter_eq_nil_iff] using hrun
  rw [List.filter_append, hnone, List.nil_append, List.filter_cons_of_pos (by simpa using hx)]

/-- The first run of targets and the job that ends it. -/
lemma ExactlyCancellable.run_iff (hrun : ∀ t ∈ run, Target req t) (hx : ¬Target req x) :
    ExactlyCancellable req (run ++ x :: post) ↔
      (run.map Resources.id).Sublist req ∧ reports run (x :: post) = run.map report ∧
        ExactlyCancellable req post := by
  have hkeys : ∀ k ∈ run.map Resources.reservationId, k ∈ req.map some := by
    intro k hk
    obtain ⟨t, ht, rfl⟩ := List.mem_map.mp hk
    exact reservationId_mem_iff.mpr (hrun t ht)
  have hsweep : Sweepable (req.map some) ((run ++ x :: post).map Resources.reservationId) ↔
      (run.map Resources.id).Sublist req ∧
        Sweepable (req.map some) (post.map Resources.reservationId) := by
    rw [List.map_append, List.map_cons,
      Sweepable.append_cons_iff hkeys fun h => hx (reservationId_mem_iff.mp h),
      map_reservationId fun t ht => (hrun t ht).2, map_some_sublist_iff]
  have htail : (x :: post).IsChain (fun t next => Target req t → next.amounts = t.amounts) ↔
      post.IsChain fun t next => Target req t → next.amounts = t.amounts := by
    cases post with
    | nil => simp
    | cons y post => simp [List.isChain_cons_cons, hx]
  rw [reports_eq_iff hrun]
  constructor
  · intro h
    have htwins := List.isChain_split.mp h.twins
    exact ⟨(hsweep.mp h.sweep).1, htwins.1, (hsweep.mp h.sweep).2, htail.mp htwins.2⟩
  · rintro ⟨hsub, htwins, hpost⟩
    exact ⟨hsweep.mpr ⟨hsub, hpost.sweep⟩, List.isChain_split.mpr ⟨htwins, htail.mpr hpost.twins⟩⟩

/-- A sweep that ends in a run has exactly its targets gone if this is so for what is behind the
run and the reports of the run are right. -/
lemma exact_run_iff {r : Released ℚ} {calls : List (NodeCall ℚ)} (hrun : ∀ t ∈ run, Target req t)
    (hx : ¬Target req x) (hlen : calls.length = run.length) :
    Exact req (run ++ x :: post) available
        { r with jobs := x :: r.jobs, calls := calls ++ r.calls } ↔
      calls = run.map report ∧ Exact req post (available + held run) r := by
  constructor
  · intro h
    have hleft := h.left
    have hback := h.back
    have hreported := h.reported
    rw [filter_not_target_run hrun hx] at hleft
    rw [filter_target_run hrun hx, held_append, ← add_assoc] at hback
    rw [filter_target_run hrun hx, List.map_append] at hreported
    obtain ⟨hcalls, hrest⟩ := List.append_inj hreported (by rw [hlen, List.length_map])
    exact ⟨hcalls, (List.cons.inj hleft).2, hback, hrest⟩
  · rintro ⟨rfl, h⟩
    refine ⟨?_, ?_, ?_⟩
    · rw [filter_not_target_run hrun hx, ← h.left]
    · rw [filter_target_run hrun hx, held_append, ← add_assoc]
      exact h.back
    · rw [filter_target_run hrun hx, List.map_append, ← h.reported]

lemma length_reports (run rest : List (Resources ℚ)) : (reports run rest).length = run.length := by
  induction run with
  | nil => rfl
  | cons t run ih => rw [reports, List.length_cons, ih, List.length_cons]

/-- Where exactly the targets are gone, they could be cancelled. -/
lemma cancelLoop_exact {r : Released ℚ} (h : cancelLoop req jobs available = some r)
    (hexact : Exact req jobs available r) : ExactlyCancellable req jobs := by
  fun_induction cancelLoop req jobs available generalizing r with
  | case1 available => exact ⟨Sweepable.nil _, by simp⟩
  | case2 => cases h
  | case3 => cases h
  | case4 available t rest t' rest' available' calls hinner ih =>
      obtain ⟨r', hr', rfl⟩ := Option.map_eq_some_iff.mp h
      obtain ⟨run, hjobs, hcontact, hsub, hav, hcalls⟩ := cancelInner_erases hinner
      have hrun : ∀ u ∈ run, Target req u := fun u hu =>
        ⟨hsub.subset (List.mem_map_of_mem hu), hcontact u hu⟩
      have hx : ¬Target req t' := by
        have hmem : t' ∈ (t :: rest).filter fun t => ¬Target req t := by
          rw [← hexact.left]
          exact List.mem_cons_self
        simpa using (List.mem_filter.mp hmem).2
      simp only at hjobs hav hcalls
      rw [hjobs] at hexact ⊢
      subst hav hcalls
      obtain ⟨hreports, hrest⟩ :=
        (exact_run_iff hrun hx (length_reports run _)).mp hexact
      exact (ExactlyCancellable.run_iff hrun hx).mpr ⟨hsub, hreports, ih hr' hrest⟩

/-- Targets that can be cancelled exactly are: by induction on the number of jobs, run by run. -/
lemma cancelLoop_of_exactlyCancellable (available : Amounts ℚ) (h : ExactlyCancellable req jobs) :
    ∃ r, cancelLoop req jobs available = some r ∧ Exact req jobs available r := by
  induction hn : jobs.length using Nat.strong_induction_on generalizing jobs available with
  | _ n ih =>
    by_cases hnil : jobs = []
    · subst hnil
      exact ⟨_, by rw [cancelLoop], ⟨rfl, by simp, rfl⟩⟩
    · -- the first job that stays ends the first run
      obtain ⟨x, run, post, rfl, hrun, hx⟩ : ∃ x run post, jobs = run ++ x :: post ∧
          (∀ t ∈ run, Target req t) ∧ ¬Target req x := by
        obtain ⟨k, hk, hnot⟩ := h.sweep.exists_not_mem (by simpa using hnil)
        obtain ⟨t, ht, rfl⟩ := List.mem_map.mp hk
        rw [reservationId_mem_iff] at hnot
        have hsome : (jobs.find? fun t => ¬Target req t).isSome :=
          List.find?_isSome.mpr ⟨t, ht, by simpa using hnot⟩
        obtain ⟨x, hfind⟩ := Option.isSome_iff_exists.mp hsome
        obtain ⟨hx, run, post, hjobs, hrun⟩ := List.find?_eq_some_iff_append.mp hfind
        exact ⟨x, run, post, hjobs, by simpa using hrun, by simpa using hx⟩
      obtain ⟨hsub, hreports, hpost⟩ := (ExactlyCancellable.run_iff hrun hx).mp h
      obtain ⟨calls, hinner⟩ :=
        cancelInner_run post available (fun t ht => (hrun t ht).2) hsub hx
      have hcalls : calls = reports run (x :: post) := by
        obtain ⟨run', hjobs, -, -, -, hcalls⟩ := cancelInner_erases hinner
        rwa [← List.append_cancel_right hjobs] at hcalls
      obtain ⟨r, hr, hexact⟩ := ih post.length
        (by simp only [List.length_append, List.length_cons] at hn; omega)
        (available + held run) hpost rfl
      have hloop : cancelLoop req (run ++ x :: post) available =
          some { r with jobs := x :: r.jobs, calls := calls ++ r.calls } := by
        cases run with
        | nil => rw [List.nil_append] at hinner ⊢; rw [cancelLoop_cons hinner, hr]; rfl
        | cons t run =>
            rw [List.cons_append] at hinner ⊢
            rw [cancelLoop_cons hinner, hr]
            rfl
      refine ⟨_, hloop, (exact_run_iff hrun hx ?_).mpr ⟨hcalls.trans hreports, hexact⟩⟩
      rw [hcalls, length_reports]

/-- **Cancellations are exact** if and only if the targets that stand together follow the order
of the request, the last job is no target, and behind each target stands a job that holds as
much. -/
theorem cancelReservation_exact_iff (m : Manager ℚ) (req : List ℤ) :
    (∃ r, cancelReservation m req = some r ∧ Exact req m.jobs m.available r) ↔
      ExactlyCancellable req m.jobs := by
  have hloop : cancelReservation m req = cancelLoop req m.jobs m.available := by
    rw [cancelReservation]
    split
    · next hnil =>
        obtain rfl := List.isEmpty_iff.mp hnil
        exact (cancelLoop_none fun t _ h => absurd h.1 List.not_mem_nil).symm
    · rfl
  rw [hloop]
  constructor
  · rintro ⟨r, hr, hexact⟩
    exact cancelLoop_exact hr hexact
  · exact cancelLoop_of_exactlyCancellable m.available

/-- A reservation with nothing but an id. -/
def bare (id : ℤ) : Resources ℚ where
  id := id
  amounts := 0
  walltime := 0
  popAppId := ""
  reqID := ""
  start := 0
  contact := ""
  appservice := ""

/-- Of two reservations the second one is cancelled, and is the last of the list. -/
theorem cancelReservation_last :
    ¬∃ r, cancelReservation ⟨[bare 1, bare 2], 0, 3⟩ [2] = some r ∧
      Exact [2] [bare 1, bare 2] 0 r := by
  rintro ⟨r, hr, hexact⟩
  have hcan := cancelLoop_exact hr hexact
  have htarget : Target [2] (bare 2) := ⟨List.mem_cons_self, rfl⟩
  exact hcan.sweep.last (bare 2).reservationId rfl (reservationId_mem_iff.mpr htarget)

end JobMgr
