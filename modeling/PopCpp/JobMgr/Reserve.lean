/-
# Which reservations are granted, and what a refused one leaves

`Reserve` and `MatchAndReserve` are two copies of one match.  Both read the minimum of the power
and only `MatchAndReserve` looks at it.

`Reserve` puts its entry into the list before it calls the search node, and subtracts the
amounts and moves the counter on after that.  When the call throws, the reservation is refused
with the entry in the list and its fitness given out, and the next reservation gets the same id.
-/
import PopCpp.JobMgr.Mirror
import Mathlib.Data.List.Forall2

namespace JobMgr

open Transition Binary32

variable {K : Type*}

/-! ### What an object needs -/

section needs

variable [Zero K] [LT K] [DecidableLT K]

/-- The least power that the object can do with, if it says so. -/
def ObjectDescription.leastPower (od : ObjectDescription K) : Option K :=
  if od.minPower < 0 then if 0 < od.power then some od.power else none else some od.minPower

/-- The least memory that the object can do with, if it says so. -/
def ObjectDescription.leastMemory (od : ObjectDescription K) : Option K :=
  if od.minMemory < 0 then if 0 < od.memory then some od.memory else none else some od.minMemory

variable [IntCast K] (c : Config K) (m : Manager K) (od : ObjectDescription K)

/-- The least power and the least memory are not more than what is available and than the
limit. -/
structure HasLeast : Prop where
  power : ∀ least ∈ od.leastPower, ¬least > m.available .flops ∧ ¬least > c.limit .flops
  memory : ∀ least ∈ od.leastMemory, ¬least > m.available .mem ∧ ¬least > c.limit .mem

variable {c m od}

lemma HasLeast.checkMinPower (h : HasLeast c m od) : checkMinPower c m od = true := by
  simp only [JobMgr.checkMinPower, decide_eq_true_eq, not_or]
  intro hpower
  refine h.power _ ?_
  rw [ObjectDescription.leastPower]
  split_ifs <;> rfl

end needs

/-! ### The checks that both make -/

section checks

variable [Div K] [LT K] [DecidableLT K] (c : Config K) (m : Manager K) (od : ObjectDescription K)
  (inoutfitness : K)

/-- The fitness of the memory, where some is required. -/
def memoryFitness : K :=
  if od.memory > m.available .mem then m.available .mem / od.memory
  else od.memory / m.available .mem

variable {c m od inoutfitness}

lemma grantMemory_snd : (grantMemory m od.memory).2 = memoryFitness m od := by
  rw [grantMemory, memoryFitness]
  split <;> rfl

variable [Zero K]

lemma matchMemory_eq_none_iff {fitness : K} :
    matchMemory m od inoutfitness fitness = none ↔ 0 < od.memory ∧
      ((m.available .mem < if od.minMemory < 0 then od.memory else od.minMemory) ∨
        memoryFitness m od < fitness ∧ memoryFitness m od < inoutfitness) := by
  rw [matchMemory, grantMemory_snd]
  generalize (if od.minMemory < 0 then od.memory else od.minMemory) = least
  split_ifs with hmemory hleast hfitness hlow <;> grind

variable [One K] [IntCast K]

variable (c m od) in
/-- The fitness of the power, 1 when none is required. -/
def powerFitness : K :=
  if od.power > 0 then lesser (m.available .flops) (c.limit .flops) / od.power else 1

lemma matchPower_eq : matchPower c m od inoutfitness =
    if 0 < od.power ∧ powerFitness c m od < inoutfitness then none
    else some (if od.power > 0 then (grantPower c m od.power).1 else 0, powerFitness c m od) := by
  have hfitness : od.power > 0 → (grantPower c m od.power).2 = powerFitness c m od := by
    intro h
    rw [powerFitness, if_pos h, grantPower]
    split <;> rfl
  rw [matchPower]
  by_cases h : od.power > 0
  · rw [if_pos h, if_pos h, hfitness h]
    by_cases hlow : powerFitness c m od < inoutfitness
    · rw [if_pos hlow, if_pos ⟨h, hlow⟩]
    · rw [if_neg hlow, if_neg fun h => hlow h.2, ← hfitness h]
  · rw [if_neg h, if_neg h, if_neg fun h' => h h'.1, powerFitness, if_neg h]

variable [LE K] [DecidableLE K]

variable (c m od inoutfitness) in
/-- A check that both functions make refuses the object, which is not empty. -/
inductive Unsuited : Prop
  | power (hempty : od.isEmpty = false) (hpower : 0 < od.power)
      (h : powerFitness c m od < inoutfitness)
  | memory (hempty : od.isEmpty = false) (hmemory : 0 < od.memory)
      (h : m.available .mem < if od.minMemory < 0 then od.memory else od.minMemory)
  | memoryFitness (hempty : od.isEmpty = false) (hmemory : 0 < od.memory)
      (hpower : memoryFitness m od < powerFitness c m od) (h : memoryFitness m od < inoutfitness)
  | walltime (hempty : od.isEmpty = false) (h : matchWalltime c od = none)

/-- **The match fails** if and only if one of its checks refuses the object. -/
lemma matchResources_eq_none_iff :
    matchResources c m od inoutfitness = none ↔ Unsuited c m od inoutfitness := by
  rw [matchResources, matchPower_eq]
  generalize (if od.power > 0 then (grantPower c m od.power).1 else 0) = flops
  constructor
  · intro h
    split_ifs at h with hempty hpower
    · exact .power (by simpa using hempty) hpower.1 hpower.2
    · have hempty : od.isEmpty = false := by simpa using hempty
      cases hmemory : matchMemory m od inoutfitness (powerFitness c m od) with
      | none =>
          obtain ⟨hpos, hleast | ⟨hlower, hlow⟩⟩ := matchMemory_eq_none_iff.mp hmemory
          · exact .memory hempty hpos hleast
          · exact .memoryFitness hempty hpos hlower hlow
      | some p =>
          cases hwalltime : matchWalltime c od with
          | none => exact .walltime hempty hwalltime
          | some w => simp [hmemory, hwalltime] at h
  · intro h
    have hempty : od.isEmpty = false := by
      cases h <;> assumption
    rw [if_neg (by simp [hempty])]
    split_ifs with hpower
    · rfl
    · have hmemory : 0 < od.memory ∧ _ →
          matchMemory m od inoutfitness (powerFitness c m od) = none :=
        matchMemory_eq_none_iff.mpr
      cases h with
      | power _ hpos h => exact absurd ⟨hpos, h⟩ hpower
      | memory _ hpos h => simp [hmemory ⟨hpos, Or.inl h⟩]
      | memoryFitness _ hpos hlower h => simp [hmemory ⟨hpos, Or.inr ⟨hlower, h⟩⟩]
      | walltime _ h =>
          cases hm : matchMemory m od inoutfitness (powerFitness c m od) <;> simp [h]

end checks

/-! ### The two functions -/

lemma jobs_reserved_ne [Sub K] [Zero K] {m : Manager K} (r : Match K) (now : ℤ) :
    (reserved m r now).jobs ≠ m.jobs := by
  intro h
  simpa [reserved] using congrArg List.length h

section

variable [Sub K] [Div K] [Zero K] [One K] [IntCast K] [LT K] [LE K] [DecidableLT K] [DecidableLE K]
variable (c : Config K) (m : Manager K) (od : ObjectDescription K) (inoutfitness : K)

/-- `Reserve`, whose call to the search node succeeds, and `MatchAndReserve` make the same
decision, leave the same entry and fitness, and grant only what is enough for the object. -/
structure Agree (now : ℤ) : Prop where
  manager : (reserve c m od inoutfitness now true).manager =
    (matchAndReserve c m od inoutfitness now).manager
  id : (reserve c m od inoutfitness now true).id = (matchAndReserve c m od inoutfitness now).id
  fitness : (reserve c m od inoutfitness now true).fitness =
    (matchAndReserve c m od inoutfitness now).fitness
  least : (reserve c m od inoutfitness now true).manager.jobs ≠ m.jobs ∨
    (matchAndReserve c m od inoutfitness now).manager.jobs ≠ m.jobs → HasLeast c m od

variable {c m od inoutfitness}

/-- **The two reservations agree** if and only if the list is full, one of the checks that both
make refuses the object, or it can have its least power and memory. -/
theorem agree_iff (c : Config K) (m : Manager K) (od : ObjectDescription K) (inoutfitness : K)
    (now : ℤ) :
    Agree c m od inoutfitness now ↔
      c.maxjobs ≤ m.jobs.length ∨ Unsuited c m od inoutfitness ∨ HasLeast c m od := by
  by_cases hfull : m.jobs.length ≥ c.maxjobs
  · have hreserve : reserve c m od inoutfitness now true = ⟨m, [], 0, inoutfitness⟩ := if_pos hfull
    have hmatch : matchAndReserve c m od inoutfitness now = ⟨m, [], 0, inoutfitness⟩ :=
      if_pos hfull
    refine iff_of_true ⟨?_, ?_, ?_, ?_⟩ (Or.inl hfull) <;> simp [hreserve, hmatch]
  · cases hr : matchResources c m od inoutfitness with
    | none =>
        have hreserve : reserve c m od inoutfitness now true = ⟨m, [], 0, inoutfitness⟩ := by
          simp [reserve, hfull, hr]
        have hmatch : matchAndReserve c m od inoutfitness now = ⟨m, [], 0, inoutfitness⟩ := by
          simp [matchAndReserve, hfull, hr]
        refine iff_of_true ⟨?_, ?_, ?_, ?_⟩
          (Or.inr (Or.inl (matchResources_eq_none_iff.mp hr))) <;> simp [hreserve, hmatch]
    | some r =>
        have hreserve : reserve c m od inoutfitness now true =
            ⟨reserved m r now, [.addJob (entry m r now).amounts], m.counter, r.fitness⟩ := by
          simp [reserve, hfull, hr]
        constructor
        · intro h
          refine Or.inr (Or.inr (h.least (Or.inl ?_)))
          rw [hreserve]
          exact jobs_reserved_ne r now
        · rintro (hfull' | hunsuited | hleast)
          · exact absurd hfull' hfull
          · rw [matchResources_eq_none_iff.mpr hunsuited] at hr
            cases hr
          · have hmatch : matchAndReserve c m od inoutfitness now =
                ⟨reserved m r now, [], m.counter, r.fitness⟩ := by
              simp [matchAndReserve, hfull, hr, hleast.checkMinPower]
            refine ⟨?_, ?_, ?_, fun _ => hleast⟩ <;> rw [hreserve, hmatch]

/-- A machine of 100 Mflops with 50 of them left, and an object that wants 100 and can do with
80. -/
def halfUsed : Config Number × Manager Number :=
  (⟨(100 : ℤ), 0, 0, 1, 10, 300, none⟩, ⟨[], small 50 0, 1⟩)
def wantsMore : ObjectDescription Number := { wants 100 (-1) with minPower := (80 : ℤ) }

/-- `Reserve` grants 50 Mflops, `MatchAndReserve` refuses. -/
theorem reserve_below_minimum : ¬Agree halfUsed.1 halfUsed.2 wantsMore 0 0 := by
  intro h
  have hlength := congrArg (fun m => m.jobs.length) h.manager
  revert hlength
  decide +kernel

/-! ### Refused reservations -/

lemma reserve_refused (c : Config K) (m : Manager K) (od : ObjectDescription K) (inoutfitness : K)
    (now : ℤ) (ok : Bool)
    (h : c.maxjobs ≤ m.jobs.length ∨ Unsuited c m od inoutfitness) :
    reserve c m od inoutfitness now ok = ⟨m, [], 0, inoutfitness⟩ := by
  rw [reserve]
  split
  · rfl
  · next hfull =>
      rw [matchResources_eq_none_iff.mpr (h.resolve_left hfull)]

lemma exists_reserve_eq (c : Config K) (m : Manager K) (od : ObjectDescription K) (inoutfitness : K)
    (now : ℤ) (ok : Bool)
    (h : ¬(c.maxjobs ≤ m.jobs.length ∨ Unsuited c m od inoutfitness)) :
    ∃ r, reserve c m od inoutfitness now ok =
      if ok then
        ⟨reserved m r now, [.addJob (entry m r now).amounts], m.counter, r.fitness⟩
      else ⟨{ m with jobs := m.jobs ++ [entry m r now] }, [], 0, r.fitness⟩ := by
  rw [not_or] at h
  cases hr : matchResources c m od inoutfitness with
  | none => exact absurd (matchResources_eq_none_iff.mp hr) h.2
  | some r => exact ⟨r, by rw [reserve, if_neg h.1, hr]⟩

/-- A reservation that is refused leaves the manager and the fitness of the caller alone. -/
def RefusesCleanly (c : Config K) (m : Manager K) (od : ObjectDescription K) (inoutfitness : K)
    (now : ℤ) (ok : Bool) : Prop :=
  (reserve c m od inoutfitness now ok).id = 0 →
    (reserve c m od inoutfitness now ok).manager = m ∧
      (reserve c m od inoutfitness now ok).fitness = inoutfitness

/-- When a refused reservation changes nothing. -/
lemma refusesCleanly_iff {now : ℤ} {ok : Bool} (hcounter : m.counter ≠ 0) :
    RefusesCleanly c m od inoutfitness now ok ↔
      c.maxjobs ≤ m.jobs.length ∨ Unsuited c m od inoutfitness ∨ ok = true := by
  rw [RefusesCleanly, ← or_assoc]
  by_cases hrefused : c.maxjobs ≤ m.jobs.length ∨ Unsuited c m od inoutfitness
  · rw [reserve_refused c m od inoutfitness now ok hrefused]
    exact iff_of_true (fun _ => ⟨rfl, rfl⟩) (Or.inl hrefused)
  · obtain ⟨r, hr⟩ := exists_reserve_eq c m od inoutfitness now ok hrefused
    rw [hr]
    cases ok with
    | true => exact iff_of_true (fun hid => absurd hid hcounter) (Or.inr rfl)
    | false =>
        refine iff_of_false (fun h => ?_) (by simpa using hrefused)
        have hjobs := congrArg (fun m => m.jobs.length) (h rfl).1
        simp at hjobs

end

/-! ### Ids -/

/-- The ids of the jobs. -/
def Manager.ids (m : Manager K) : List ℤ := m.jobs.map Resources.id

lemma ids_append_entry [Zero K] (m : Manager K) (r : Match K) (now : ℤ) :
    (m.jobs ++ [entry m r now]).map Resources.id = m.ids ++ [m.counter] := by
  rw [List.map_append]
  rfl

lemma nodup_append_counter {ids : List ℤ} {counter : ℤ} (h : ids.Nodup) :
    (ids ++ [counter]).Nodup ↔ counter ∉ ids := by
  rw [List.nodup_append]
  constructor
  · rintro ⟨-, -, hne⟩ hmem
    exact hne counter hmem counter (List.mem_singleton_self counter) rfl
  · intro hnot
    refine ⟨h, by simp, fun id hid id' hid' heq => hnot ?_⟩
    rwa [← List.mem_singleton.mp hid', ← heq]

lemma counter_reserved_pos [Sub K] [Zero K] (m : Manager K) (r : Match K) (now : ℤ) :
    0 < (reserved m r now).counter := by
  show 0 < m.counter % 1000000000 + 1
  omega

/-! ### The loops keep the order of the jobs -/

/-- The same job: its contact, its application service and its start may have been set anew. -/
structure SameJob (t' t : Resources K) : Prop where
  id : t'.id = t.id
  amounts : t'.amounts = t.amounts
  popAppId : t'.popAppId = t.popAppId

instance : Std.Refl (@SameJob K) := ⟨fun _ => ⟨rfl, rfl, rfl⟩⟩

instance : IsTrans (Resources K) SameJob :=
  ⟨fun _ _ _ h h' => ⟨h.id.trans h'.id, h.amounts.trans h'.amounts,
    h.popAppId.trans h'.popAppId⟩⟩

/-- Some of the jobs are left, in their order. -/
abbrev Survive : List (Resources K) → List (Resources K) → Prop := List.SublistForall₂ SameJob

lemma Survive.refl (jobs : List (Resources K)) : Survive jobs jobs :=
  (List.Sublist.refl jobs).sublistForall₂

lemma Survive.keep {t : Resources K} {jobs' jobs : List (Resources K)} (h : Survive jobs' jobs) :
    Survive (t :: jobs') (t :: jobs) :=
  List.SublistForall₂.cons (Std.Refl.refl t) h

lemma Survive.ids {jobs' jobs : List (Resources K)} (h : Survive jobs' jobs) :
    (jobs'.map Resources.id).Sublist (jobs.map Resources.id) := by
  induction h with
  | nil => exact List.nil_sublist _
  | cons hsame _ ih =>
      rw [List.map_cons, List.map_cons, hsame.id]
      exact ih.cons_cons _
  | cons_right _ ih => exact ih.cons _

lemma validateLoop_survive (id : ℤ) (objcontact appserv : AccessPoint) (now : ℤ)
    (jobs : List (Resources K)) : Survive (validateLoop id objcontact appserv now jobs) jobs := by
  induction jobs with
  | nil => exact Survive.refl []
  | cons t rest ih =>
      rw [validateLoop]
      split
      · exact (Survive.refl rest).cons ⟨rfl, rfl, rfl⟩
      · exact ih.keep

variable [Add K]

lemma releaseLoop_survive (id : ℤ) (jobs : List (Resources K)) (available : Amounts K) :
    Survive (releaseLoop id jobs available).jobs jobs := by
  induction jobs with
  | nil => exact Survive.refl []
  | cons t rest ih =>
      rw [releaseLoop]
      split
      · exact (Survive.refl rest).cons_right
      · exact ih.keep

lemma updateLoop_survive (reserveTimeout : ℤ) (rounds : ℕ → Round) (i : ℕ)
    (jobs : List (Resources K)) (available : Amounts K) :
    Survive (updateLoop reserveTimeout rounds i jobs available).jobs jobs := by
  induction jobs generalizing i available with
  | nil => exact Survive.refl []
  | cons t rest ih =>
      rw [updateLoop]
      split
      · exact (ih (i + 1) _).cons_right
      · have hsame : SameJob (refresh (rounds i) t) t := by
          rw [refresh]
          split <;> exact ⟨rfl, rfl, rfl⟩
        exact (ih (i + 1) available).cons hsame

lemma endLoop_survive (popAppId : String) (jobs : List (Resources K)) (available : Amounts K) :
    Survive (endLoop popAppId jobs available).1 jobs := by
  induction jobs generalizing available with
  | nil => exact Survive.refl []
  | cons t rest ih =>
      rw [endLoop]
      split
      · exact (ih _).cons_right
      · exact (ih available).keep

lemma cancelLoop_survive {req : List ℤ} {jobs : List (Resources K)} {available : Amounts K}
    {r : Released K} (h : cancelLoop req jobs available = some r) : Survive r.jobs jobs := by
  fun_induction cancelLoop req jobs available generalizing r with
  | case1 available =>
      obtain rfl := Option.some.inj h
      exact Survive.refl []
  | case2 => cases h
  | case3 => cases h
  | case4 available t rest t' rest' available' calls hinner ih =>
      obtain ⟨r', hr', rfl⟩ := Option.map_eq_some_iff.mp h
      have hleft : Survive (t' :: rest') (t :: rest) :=
        (cancelInner_suffix hinner).sublist.sublistForall₂
      exact IsTrans.trans _ _ _ (ih hr').keep hleft

/-! ### Runs -/

variable [Sub K] [Div K] [Zero K] [One K] [IntCast K] [LT K] [LE K] [DecidableLT K] [DecidableLE K]
variable {c : Config K} {m : Manager K} {od : ObjectDescription K} {inoutfitness : K}

/-- One operation, where the call of `Reserve` to the search node succeeds or throws. -/
def stepCalling (c : Config K) (s : Machine K) : Op K × Bool → Option (Machine K)
  | (.reserve od inoutfitness now, ok) =>
      some (s.reserve (reserve c s.manager od inoutfitness now ok))
  | (op, _) => step c s op

/-- What one operation should keep: the ids are distinct, and a refused `Reserve` changes
nothing. -/
def KeepsIds (c : Config K) (s : Machine K) : Op K × Bool → Prop
  | (op, ok) =>
      (∀ t, stepCalling c s (op, ok) = some t → t.manager.ids.Nodup) ∧
      ∀ od inoutfitness now, op = .reserve od inoutfitness now →
        RefusesCleanly c s.manager od inoutfitness now ok

/-- The search node does not throw when a suited object is reserved, and no live job still has
the id that the counter has come round to when a reservation is made. -/
def Numbered (c : Config K) (s : Machine K) : Op K × Bool → Prop
  | (.reserve od inoutfitness _, ok) =>
      c.maxjobs ≤ s.manager.jobs.length ∨ Unsuited c s.manager od inoutfitness ∨
        ok = true ∧ s.manager.counter ∉ s.manager.ids
  | (.matchAndReserve od inoutfitness _, _) =>
      Grants c s.manager od inoutfitness → s.manager.counter ∉ s.manager.ids
  | _ => True

/-- The operation may put a job into the list. -/
def Op.Reserves : Op K → Prop
  | .reserve .. | .matchAndReserve .. => True
  | _ => False

/-- The operations that make no reservation only take jobs out. -/
lemma step_survive {s t : Machine K} {op : Op K} (h : step c s op = some t) (hop : ¬op.Reserves) :
    Survive t.manager.jobs s.manager.jobs ∧ t.manager.counter = s.manager.counter := by
  cases op with
  | reserve od fitness now => exact absurd trivial hop
  | matchAndReserve od fitness now => exact absurd trivial hop
  | releaseJob id =>
      obtain rfl := Option.some.inj h
      refine ⟨?_, rfl⟩
      show Survive (releaseJob s.manager id).jobs _
      rw [releaseJob]
      split
      · exact Survive.refl _
      · exact releaseLoop_survive id _ _
  | cancelReservation req =>
      obtain ⟨r, hr, rfl⟩ := Option.map_eq_some_iff.mp h
      refine ⟨?_, rfl⟩
      rw [cancelReservation] at hr
      split at hr
      · obtain rfl := Option.some.inj hr
        exact Survive.refl _
      · exact cancelLoop_survive hr
  | update rounds =>
      obtain rfl := Option.some.inj h
      exact ⟨updateLoop_survive _ _ _ _ _, rfl⟩
  | validateReservation id objcontact appserv now =>
      obtain rfl := Option.some.inj h
      exact ⟨validateLoop_survive id objcontact appserv now _, rfl⟩
  | applicationEnd popAppId =>
      obtain rfl := Option.some.inj h
      exact ⟨endLoop_survive _ _ _, rfl⟩

/-- What an operation does to the list: it takes jobs out, or it puts one behind the others, with
the counter as its id.  The counter goes on unless the search node has thrown. -/
lemma stepCalling_cases {s t : Machine K} {op : Op K} {ok : Bool}
    (h : stepCalling c s (op, ok) = some t) :
    Survive t.manager.jobs s.manager.jobs ∧ t.manager.counter = s.manager.counter ∨
      op.Reserves ∧ ∃ r now, t.manager.jobs = s.manager.jobs ++ [entry s.manager r now] ∧
        (t.manager.counter = s.manager.counter ∨
          t.manager.counter = (reserved s.manager r now).counter) := by
  by_cases hop : op.Reserves
  · cases op with
    | reserve od inoutfitness now =>
        obtain rfl := Option.some.inj h
        simp only [Machine.reserve]
        by_cases hrefused : c.maxjobs ≤ s.manager.jobs.length ∨
            Unsuited c s.manager od inoutfitness
        · rw [reserve_refused c s.manager od inoutfitness now ok hrefused]
          exact .inl ⟨Survive.refl _, rfl⟩
        · obtain ⟨r, hr⟩ := exists_reserve_eq c s.manager od inoutfitness now ok hrefused
          rw [hr]
          cases ok with
          | true => exact .inr ⟨hop, r, now, rfl, .inr rfl⟩
          | false => exact .inr ⟨hop, r, now, rfl, .inl rfl⟩
    | matchAndReserve od inoutfitness now =>
        obtain rfl := Option.some.inj h
        simp only [Machine.reserve]
        rcases matchAndReserve_cases c s.manager od inoutfitness now with hr | ⟨r, -, hr⟩
        · rw [hr]
          exact .inl ⟨Survive.refl _, rfl⟩
        · rw [hr]
          exact .inr ⟨hop, r, now, rfl, .inr rfl⟩
    | _ => exact hop.elim
  · have hstep : step c s op = some t := by
      cases op with
      | reserve od inoutfitness now => exact absurd trivial hop
      | _ => exact h
    exact .inl (step_survive hstep hop)

/-- The ids are distinct, and the counter gives one that is not 0. -/
structure Counts (m : Manager K) : Prop where
  nodup : m.ids.Nodup
  counter : 0 < m.counter

lemma Counts.keepsIds_iff {s : Machine K} (h : Counts s.manager) (a : Op K × Bool) :
    KeepsIds c s a ↔ Numbered c s a := by
  obtain ⟨op, ok⟩ := a
  -- only the two operations that reserve can repeat an identifier
  have hother : ¬op.Reserves → KeepsIds c s (op, ok) := by
    intro hop
    refine ⟨fun t ht => ?_, fun od inoutfitness now heq => absurd (heq ▸ trivial) hop⟩
    rcases stepCalling_cases ht with ⟨hsurvive, -⟩ | ⟨hreserves, -⟩
    · exact hsurvive.ids.nodup h.nodup
    · exact absurd hreserves hop
  cases op with
  | reserve od inoutfitness now =>
      have hkeeps : KeepsIds c s (.reserve od inoutfitness now, ok) ↔
          (reserve c s.manager od inoutfitness now ok).manager.ids.Nodup ∧
            RefusesCleanly c s.manager od inoutfitness now ok := by
        constructor
        · rintro ⟨hnodup, hrefuses⟩
          exact ⟨hnodup _ rfl, hrefuses _ _ _ rfl⟩
        · rintro ⟨hnodup, hrefuses⟩
          refine ⟨fun t ht => ?_, fun od' inoutfitness' now' hop => ?_⟩
          · obtain rfl := Option.some.inj ht
            exact hnodup
          · cases hop
            exact hrefuses
      rw [hkeeps, refusesCleanly_iff h.counter.ne', Numbered]
      by_cases hrefused : c.maxjobs ≤ s.manager.jobs.length ∨ Unsuited c s.manager od inoutfitness
      · rw [reserve_refused c s.manager od inoutfitness now ok hrefused]
        rw [← or_assoc, ← or_assoc]
        exact iff_of_true ⟨h.nodup, Or.inl hrefused⟩ (Or.inl hrefused)
      · obtain ⟨r, hr⟩ := exists_reserve_eq c s.manager od inoutfitness now ok hrefused
        -- a new identifier is the counter, so it must not be in use
        have hnodup : (reserve c s.manager od inoutfitness now ok).manager.ids.Nodup ↔
            s.manager.counter ∉ s.manager.ids := by
          rw [← nodup_append_counter h.nodup, ← ids_append_entry s.manager r now, hr]
          cases ok <;> rfl
        rw [hnodup, ← or_assoc, ← or_assoc, or_iff_right hrefused, or_iff_right hrefused, and_comm]
  | matchAndReserve od inoutfitness now =>
      have hkeeps : KeepsIds c s (.matchAndReserve od inoutfitness now, ok) ↔
          (matchAndReserve c s.manager od inoutfitness now).manager.ids.Nodup := by
        constructor
        · rintro ⟨hnodup, -⟩
          exact hnodup _ rfl
        · intro hnodup
          refine ⟨fun t ht => ?_, fun od' inoutfitness' now' hop => by cases hop⟩
          obtain rfl := Option.some.inj ht
          exact hnodup
      obtain ⟨hrefuses, hgrants⟩ := matchAndReserve_eq c s.manager od inoutfitness now
      rw [hkeeps, Numbered]
      by_cases hg : Grants c s.manager od inoutfitness
      · obtain ⟨r, hr⟩ := hgrants hg
        rw [hr, ← nodup_append_counter h.nodup, ← ids_append_entry s.manager r now]
        exact ⟨fun hnodup _ => hnodup, fun hnodup => hnodup hg⟩
      · rw [hrefuses hg]
        exact iff_of_true h.nodup fun hg' => absurd hg' hg
  | releaseJob _ => exact iff_of_true (hother id) trivial
  | cancelReservation req => exact iff_of_true (hother id) trivial
  | update rounds => exact iff_of_true (hother id) trivial
  | validateReservation _ objcontact appserv now => exact iff_of_true (hother id) trivial
  | applicationEnd popAppId => exact iff_of_true (hother id) trivial

/-- The counter stays positive. -/
lemma counter_pos_step {s t : Machine K} {a : Op K × Bool} (h : 0 < s.manager.counter)
    (hstep : stepCalling c s a = some t) : 0 < t.manager.counter := by
  rcases stepCalling_cases hstep with ⟨-, heq⟩ | ⟨-, r, now, -, heq | heq⟩
  · rwa [heq]
  · rwa [heq]
  · rw [heq]
    exact counter_reserved_pos s.manager r now

/-- **Refused reservations and ids.**  A refused `Reserve` changes nothing if and only if it was
not the search node that made it fail.  A run keeps the ids distinct and refuses cleanly, step by
step, if and only if the search node does not throw in it and no id is given again while a job
still has it. -/
theorem reserve_refused_iff [Mul K] (c : Config K) :
    (∀ (m : Manager K) (od : ObjectDescription K) (inoutfitness : K) (now : ℤ) (ok : Bool),
      m.counter ≠ 0 → (RefusesCleanly c m od inoutfitness now ok ↔
        c.maxjobs ≤ m.jobs.length ∨ Unsuited c m od inoutfitness ∨ ok = true)) ∧
    ∀ ops : List (Op K × Bool), Along (stepCalling c) (KeepsIds c) c.machine ops ↔
      Along (stepCalling c) (Numbered c) c.machine ops := by
  refine ⟨fun m od inoutfitness now ok hcounter => refusesCleanly_iff hcounter, fun ops => ?_⟩
  have hinitial : Counts c.machine.manager := ⟨List.nodup_nil, Int.one_pos⟩
  refine along_iff_of_invariant (I := fun s => Counts s.manager)
    (fun s a hs => hs.keepsIds_iff a) (fun s a t hs hkeeps hst => ?_) hinitial
  obtain ⟨op, ok⟩ := a
  exact ⟨hkeeps.1 t hst, counter_pos_step hs.counter hst⟩

/-- A machine with room for two jobs, and an object that wants nothing. -/
def idle : Config K := ⟨(100 : ℤ), 0, 0, 1, 2, 300, none⟩
def wantsNothing : ObjectDescription K := wants (-1) (-1)

/-- An object that wants ten times the power of that machine, and at least half of what it wants. -/
def wantsTooMuch : ObjectDescription Number := wants 1000 (-1)
def half : Number := 1 / (2 : ℤ)

/-- It is refused, and nothing has changed. -/
theorem reserve_refused_iff_idle :
    (reserve idle idle.initial wantsTooMuch half 0 false).id = 0 ∧
      RefusesCleanly idle idle.initial wantsTooMuch half 0 false :=
  ⟨by decide +kernel, ((reserve_refused_iff idle).1 idle.initial wantsTooMuch half 0 false
    Int.one_ne_zero).mpr
      (.inr (.inl (.power (by decide +kernel) (by decide +kernel) (by decide +kernel))))⟩

/-- The search node throws at the first reservation, which leaves its entry; the second one gets
the same id. -/
theorem reserve_phantom :
    ¬RefusesCleanly idle idle.initial wantsNothing (0 : Number) 0 false ∧
      ∃ s : Machine Number, run (stepCalling idle) idle.machine
        [(.reserve wantsNothing 0 0, false), (.reserve wantsNothing 0 0, true)] = some s ∧
        ¬s.manager.ids.Nodup := by
  refine ⟨fun h => ?_, _, rfl, by decide +kernel⟩
  have hjobs := congrArg (fun m => m.jobs.length) (h (by decide +kernel)).1
  revert hjobs
  decide +kernel

end JobMgr
