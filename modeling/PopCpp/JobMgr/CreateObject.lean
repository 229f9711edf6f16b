/-
# Creating several objects

`CreateObject` makes up to three attempts.  Each one reserves resources for the objects that are
still missing and then, one job manager after the other, starts the objects for which that job
manager has given a reservation.  The reservations of a start that fails are cancelled.  When
objects are missing in the end, those that have been started are killed.

Reservations are lost where one of the remote calls throws between the reservation and the
start, where the discovery ends early or overwrites the reservations of the own machine, and
where one of them has a fitness that is not positive: then the others are cancelled, but not this
one.
-/
import PopCpp.JobMgr.Alloc
import PopCpp.Lib.Transition

namespace JobMgr

open Transition

/-- `OBJECT_NO_RESOURCE`, `POP_JOBSERVICE_FAIL` and `POP_EXEC_FAIL` -/
def OBJECT_NO_RESOURCE : ℤ := 10001

def POP_JOBSERVICE_FAIL : ℤ := 10009

def POP_EXEC_FAIL : ℤ := 10010

/-! ### One attempt -/

/-- What happens when the objects of one job manager are to be started. -/
inductive ExecAnswer where
  /-- No interface can be bound to the job manager. -/
  | unbound
  /-- `ExecObj` throws. -/
  | thrown
  /-- `ExecObj` returns that code and these contacts; where the code is not `0`, the cancellation
  of the reservations goes through or not. -/
  | returned (execRet : ℤ) (objcontacts : ℕ → AccessPoint) (cancelled : Bool)

/-- What happens outside during one attempt. -/
structure Attempt where
  /-- During `AllocResource`. -/
  search : Search
  /-- In the loop that cancels: an interface can be bound to the job manager of the `i`th slot -/
  bound : ℕ → Bool
  /-- and the cancellation of the `i`th reservation goes through. -/
  sent : ℕ → Bool
  /-- In the loop that starts: what happens at the `i`th slot. -/
  exec : ℕ → ExecAnswer

/-- The state of `CreateObject`. -/
structure Creation where
  /-- `count` -/
  count : ℕ
  /-- `ret` -/
  ret : ℤ
  /-- The loop has been left by `break` or by an exception. -/
  stopped : Bool
  /-- The reservations that job managers have made for this call. -/
  granted : List Grant
  /-- The reservations that have been passed to `CancelReservation`. -/
  cancelled : List Grant
  /-- The first `count` entries of `objcontacts`, and the reservations for these objects. -/
  started : List (Grant × AccessPoint)
  /-- `remotejobcontacts` -/
  remotejobcontacts : ℕ → AccessPoint

section attempt

/-- The reservations behind a slot that are cancelled with it, up to a call that throws. -/
def cancelSame (sent : ℕ → Bool) (acstr : AccessPoint) :
    ℕ → List Slot → List Slot × List Grant
  | _, [] => ([], [])
  | j, s :: rest =>
      if s.fitness > 0 ∧ acstr = s.contact then
        if sent j then
          let r := cancelSame sent acstr (j + 1) rest
          (⟨0, "", s.reserveID⟩ :: r.1, s.grant :: r.2)
        else (⟨0, "", s.reserveID⟩ :: rest, [])
      else
        let r := cancelSame sent acstr (j + 1) rest
        (s :: r.1, r.2)

lemma length_cancelSame (sent : ℕ → Bool) (acstr : AccessPoint) (j : ℕ) (slots : List Slot) :
    (cancelSame sent acstr j slots).1.length = slots.length := by
  induction slots generalizing j with
  | nil => rfl
  | cons s rest ih =>
      rw [cancelSame]
      split_ifs
      · simp [ih]
      · simp
      · simp [ih]

/-- The loop that cancels, from the `i`th slot on. -/
def cancelSlots (bound sent : ℕ → Bool) : ℕ → List Slot → List Grant
  | _, [] => []
  | i, s :: rest =>
      if s.contact ≠ "" ∧ s.fitness > 0 then
        if bound i = true ∧ sent i = true then
          s.grant :: (cancelSame sent s.contact (i + 1) rest).2 ++
            cancelSlots bound sent (i + 1) (cancelSame sent s.contact (i + 1) rest).1
        else cancelSlots bound sent (i + 1) rest
      else cancelSlots bound sent (i + 1) rest
termination_by _ slots => slots.length
decreasing_by
  · simp [length_cancelSame]
  · simp
  · simp

/-- The slots behind a slot whose objects are started with its own. -/
def sameContact (acstr : AccessPoint) (slots : List Slot) : List Slot :=
  slots.filter fun s => acstr = s.contact

/-- The slots afterwards: these have no contact any more. -/
def clearContact (acstr : AccessPoint) (slots : List Slot) : List Slot :=
  slots.map fun s => if acstr = s.contact then { s with contact := "" } else s

/-- The loop that starts the objects, from the `i`th slot on. -/
def execLoop (exec : ℕ → ExecAnswer) : ℕ → List Slot → Creation → Creation
  | _, [], s => s
  | i, t :: rest, s =>
      if t.contact = "" then execLoop exec (i + 1) rest s
      else
        match exec i with
        | .unbound => execLoop exec (i + 1) rest s
        | .thrown =>
            execLoop exec (i + 1) (clearContact t.contact rest)
              { s with
                remotejobcontacts := Function.update s.remotejobcontacts s.count t.contact }
        | .returned execRet objcontacts cancelled =>
            let tmpids := t.grant :: (sameContact t.contact rest).map Slot.grant
            let remotejobcontacts := Function.update s.remotejobcontacts s.count t.contact
            if execRet ≠ 0 then
              execLoop exec (i + 1) (clearContact t.contact rest)
                { s with
                  remotejobcontacts
                  cancelled := s.cancelled ++ if cancelled then tmpids else [] }
            else
              execLoop exec (i + 1) (clearContact t.contact rest)
                { s with
                  remotejobcontacts
                  count := s.count + tmpids.length
                  started := s.started ++ tmpids.mapIdx fun k g => (g, objcontacts k) }
termination_by _ slots => slots.length
decreasing_by all_goals simp [clearContact]

variable (c : Allocator) (howmany : ℕ)

/-- One round of the loop of `CreateObject`. -/
def attempt (s : Creation) (o : Attempt) : Creation :=
  let a := allocResource c o.search 0 (fresh (howmany - s.count))
  let s := { s with granted := s.granted ++ a.granted, cancelled := s.cancelled ++ a.cancelled }
  match a.ret with
  | none => { s with ret := POP_JOBSERVICE_FAIL, stopped := true }
  | some false => { s with ret := OBJECT_NO_RESOURCE, stopped := true }
  | some true =>
      if ∃ t ∈ a.slots, t.fitness ≤ 0 then
        { s with
          cancelled := s.cancelled ++ cancelSlots o.bound o.sent 0 a.slots
          ret := OBJECT_NO_RESOURCE
          stopped := true }
      else execLoop o.exec 0 a.slots s

/-- The loop goes on. -/
def Creation.Runs (s : Creation) : Prop := s.count < howmany ∧ s.stopped = false

instance Creation.instDecidableRuns (s : Creation) : Decidable (s.Runs howmany) :=
  inferInstanceAs (Decidable (_ ∧ _))

/-- The loop of `CreateObject`, with as many attempts as there are left. -/
def createLoop : List Attempt → Creation → Creation
  | [], s => s
  | o :: attempts, s =>
      if s.Runs howmany then createLoop attempts (attempt c howmany s o) else s

end attempt

/-! ### The whole call -/

/-- What `CreateObject` reads of its arguments. -/
structure CreateCall where
  /-- The job manager and the object description. -/
  allocator : Allocator
  /-- `howmany` -/
  howmany : ℕ

/-- What happens outside during the call. -/
structure Creating where
  /-- The three attempts. -/
  first : Attempt
  second : Attempt
  third : Attempt
  /-- The object of the `i`th contact can be reached and killed. -/
  killed : ℕ → Bool

/-- How `CreateObject` ends. -/
structure Created where
  /-- The return value. -/
  code : ℤ
  /-- The contacts of the objects that have been started. -/
  objcontacts : List AccessPoint
  /-- `remotejobcontacts` -/
  remotejobcontacts : ℕ → AccessPoint
  /-- The reservations that job managers have made for the call. -/
  granted : List Grant
  /-- The reservations that have been passed to `CancelReservation`. -/
  cancelled : List Grant
  /-- The reservations whose objects have been started and killed. -/
  killed : List Grant

/-- The state before the loop. -/
def creationStart : Creation := ⟨0, 0, false, [], [], [], fun _ => ""⟩

/-- The state behind the loop. -/
def created (c : CreateCall) (o : Creating) : Creation :=
  createLoop c.allocator c.howmany [o.first, o.second, o.third] creationStart

/-- The reservations of the objects that are killed when some are missing. -/
def killedGrants (killed : ℕ → Bool) (s : Creation) : List Grant :=
  ((s.started.map Prod.fst).zipIdx.filter fun g => killed g.2).map Prod.fst

/-- `JobMgr::CreateObject` -/
def createObject (c : CreateCall) (o : Creating) : Created :=
  if c.howmany ≤ 0 then ⟨0, [], fun _ => "", [], [], []⟩
  else
    let s := created c o
    let objcontacts := s.started.map Prod.snd
    if s.count ≥ c.howmany then
      ⟨0, objcontacts, s.remotejobcontacts, s.granted, s.cancelled, []⟩
    else
      ⟨if s.ret = 0 then POP_EXEC_FAIL else s.ret, objcontacts, s.remotejobcontacts, s.granted,
        s.cancelled, killedGrants o.killed s⟩

/-! ### What is still pending -/

/-- The reservations in the arrays with a fitness that is positive. -/
def fitting (slots : List Slot) : List Grant :=
  (slots.filter fun s => s.contact ≠ "" ∧ s.fitness > 0).map Slot.grant

/-- Whether one reservation passes a filter. -/
lemma map_grant_filter_cons (p : Slot → Prop) [DecidablePred p] (s : Slot) (rest : List Slot) :
    ((s :: rest).filter fun s => p s).map Slot.grant =
      if p s then s.grant :: (rest.filter fun s => p s).map Slot.grant
      else (rest.filter fun s => p s).map Slot.grant := by
  split
  · next h => rw [List.filter_cons_of_pos (by simpa using h), List.map_cons]
  · next h => rw [List.filter_cons_of_neg (by simpa using h)]

lemma fitting_cons (s : Slot) (rest : List Slot) :
    fitting (s :: rest) =
      if s.contact ≠ "" ∧ s.fitness > 0 then s.grant :: fitting rest else fitting rest :=
  map_grant_filter_cons (fun s => s.contact ≠ "" ∧ s.fitness > 0) s rest

lemma pending_cons (s : Slot) (rest : List Slot) :
    pending (s :: rest) = if s.contact ≠ "" then s.grant :: pending rest else pending rest :=
  map_grant_filter_cons (fun s => s.contact ≠ "") s rest

lemma fitting_sublist (slots : List Slot) : (fitting slots).Sublist (pending slots) := by
  induction slots with
  | nil => exact List.Sublist.refl []
  | cons s rest ih =>
      rw [fitting_cons, pending_cons]
      by_cases hcontact : s.contact ≠ ""
      · by_cases hfit : s.fitness > 0
        · rw [if_pos ⟨hcontact, hfit⟩, if_pos hcontact]
          exact ih.cons_cons _
        · rw [if_neg fun h => hfit h.2, if_pos hcontact]
          exact ih.cons _
      · rw [if_neg fun h => hcontact h.1, if_neg hcontact]
        exact ih

/-- A reservation whose fitness is not positive is not among them. -/
lemma length_fitting_lt {slots : List Slot} (h : ∃ s ∈ slots, s.contact ≠ "" ∧ s.fitness ≤ 0) :
    (fitting slots).length < (pending slots).length := by
  induction slots with
  | nil =>
      obtain ⟨s, hs, -⟩ := h
      simp at hs
  | cons t rest ih =>
      have hle := (fitting_sublist rest).length_le
      rw [fitting_cons, pending_cons]
      obtain ⟨s, hs, hcontact, hfit⟩ := h
      rcases List.mem_cons.mp hs with rfl | hs
      · rw [if_pos hcontact, if_neg fun h => absurd h.2 (not_lt.mpr hfit), List.length_cons]
        omega
      · have hlt := ih ⟨s, hs, hcontact, hfit⟩
        split_ifs with h1 h2 h2
        · simpa using hlt
        · exact absurd h1.1 h2
        · rw [List.length_cons]
          omega
        · exact hlt

section cancelSlots

variable (bound sent : ℕ → Bool)

/-- The reservations that one group cancels leave the arrays. -/
lemma cancelSame_subperm {acstr : AccessPoint} (hne : acstr ≠ "") (j : ℕ) (slots : List Slot) :
    ((cancelSame sent acstr j slots).2 ++ fitting (cancelSame sent acstr j slots).1).Subperm
      (fitting slots) := by
  induction slots generalizing j with
  | nil => exact List.Subperm.refl _
  | cons s rest ih =>
      rw [cancelSame]
      by_cases hs : s.fitness > 0 ∧ acstr = s.contact
      · have hfit : fitting (s :: rest) = s.grant :: fitting rest := by
          rw [fitting_cons, if_pos ⟨hs.2 ▸ hne, hs.1⟩]
        rw [if_pos hs, hfit]
        split_ifs
        · rw [fitting_cons, if_neg (by simp), List.cons_append]
          exact (List.subperm_cons _).mpr (ih (j + 1))
        · -- the call throws, and the slot has lost its reservation
          rw [fitting_cons, if_neg (by simp), List.nil_append]
          exact (List.sublist_cons_self _ _).subperm
      · rw [if_neg hs, fitting_cons, fitting_cons]
        split_ifs
        · refine (List.perm_middle.subperm_right).mpr ?_
          exact (List.subperm_cons _).mpr (ih (j + 1))
        · exact ih (j + 1)

/-- The loop cancels reservations in the arrays with a positive fitness only, and each once. -/
lemma cancelSlots_subperm (i : ℕ) (slots : List Slot) :
    (cancelSlots bound sent i slots).Subperm (fitting slots) := by
  fun_induction cancelSlots bound sent i slots with
  | case1 => exact List.Subperm.refl _
  | case2 i s rest hs hcall ih =>
      rw [fitting_cons, if_pos hs, List.cons_append]
      refine (List.subperm_cons _).mpr ?_
      refine List.Subperm.trans ?_ (cancelSame_subperm sent hs.1 (i + 1) rest)
      exact (List.subperm_append_left _).mpr ih
  | case3 i s rest hs hcall ih =>
      rw [fitting_cons, if_pos hs]
      exact ih.trans (List.sublist_cons_self _ _).subperm
  | case4 i s rest hs ih =>
      rw [fitting_cons, if_neg hs]
      exact ih

end cancelSlots

/-! ### The objects of one job manager after the other -/

/-- The reservations at that slot do not stay pending: their objects are started, or the
cancellation goes through. -/
def ExecAnswer.Settles : ExecAnswer → Prop
  | .unbound => False
  | .thrown => False
  | .returned execRet _ cancelled => execRet = 0 ∨ cancelled = true

/-- At each slot with the first reservation of its job manager the reservations are settled. -/
def SettlesAll (exec : ℕ → ExecAnswer) (slots : List Slot) : Prop :=
  ∀ (k : ℕ) t, slots[k]? = some t → t.contact ≠ "" →
    (∀ j < k, ∀ u, slots[j]? = some u → u.contact ≠ t.contact) → (exec k).Settles

section settlesAll

variable {exec : ℕ → ExecAnswer} {t : Slot} {rest : List Slot}

lemma settlesAll_cons_empty (h : t.contact = "") :
    SettlesAll exec (t :: rest) ↔ SettlesAll (fun k => exec (k + 1)) rest := by
  constructor
  · intro hall k u hu hcontact hfirst
    refine hall (k + 1) u hu hcontact fun j hj v hv => ?_
    cases j with
    | zero =>
        obtain rfl := Option.some.inj hv
        exact fun heq => hcontact (heq ▸ h)
    | succ j => exact hfirst j (Nat.lt_of_succ_lt_succ hj) v hv
  · intro hall k u hu hcontact hfirst
    cases k with
    | zero =>
        obtain rfl := Option.some.inj hu
        exact absurd h hcontact
    | succ k =>
        exact hall k u hu hcontact fun j hj v hv => hfirst (j + 1) (Nat.succ_lt_succ hj) v hv

/-- A slot that still has a contact after others have lost theirs. -/
lemma getElem?_clearContact {acstr : AccessPoint} {k : ℕ} {u : Slot} (hu : u.contact ≠ "") :
    (clearContact acstr rest)[k]? = some u ↔ rest[k]? = some u ∧ acstr ≠ u.contact := by
  rw [clearContact, List.getElem?_map, Option.map_eq_some_iff]
  constructor
  · rintro ⟨v, hv, rfl⟩
    split_ifs at hu ⊢ with hsame
    · exact absurd rfl hu
    · exact ⟨hv, hsame⟩
  · rintro ⟨hv, hne⟩
    exact ⟨u, hv, if_neg hne⟩

lemma settlesAll_cons (h : t.contact ≠ "") :
    SettlesAll exec (t :: rest) ↔
      (exec 0).Settles ∧ SettlesAll (fun k => exec (k + 1)) (clearContact t.contact rest) := by
  constructor
  · intro hall
    refine ⟨hall 0 t rfl h fun j hj => absurd hj (Nat.not_lt_zero j), ?_⟩
    intro k u hu hcontact hfirst
    obtain ⟨hu, hne⟩ := (getElem?_clearContact hcontact).mp hu
    refine hall (k + 1) u hu hcontact fun j hj v hv heq => ?_
    cases j with
    | zero =>
        obtain rfl := Option.some.inj hv
        exact hne heq
    | succ j =>
        have hv' := (getElem?_clearContact (heq ▸ hcontact)).mpr ⟨hv, heq ▸ hne⟩
        exact hfirst j (Nat.lt_of_succ_lt_succ hj) v hv' heq
  · rintro ⟨h0, hall⟩ k u hu hcontact hfirst
    cases k with
    | zero => exact h0
    | succ k =>
        have hne : t.contact ≠ u.contact := hfirst 0 (Nat.succ_pos k) t rfl
        refine hall k u ((getElem?_clearContact hcontact).mpr ⟨hu, hne⟩) hcontact ?_
        intro j hj v hv heq
        obtain ⟨hv, -⟩ := (getElem?_clearContact (heq ▸ hcontact)).mp hv
        exact hfirst (j + 1) (Nat.succ_lt_succ hj) v hv heq

end settlesAll

/-- The reservations of one job manager and the ones that stay in the arrays. -/
lemma sameContact_perm {acstr : AccessPoint} (hne : acstr ≠ "") (slots : List Slot) :
    ((sameContact acstr slots).map Slot.grant ++ pending (clearContact acstr slots)).Perm
      (pending slots) := by
  induction slots with
  | nil => exact List.Perm.refl _
  | cons s rest ih =>
      rw [clearContact, List.map_cons, ← clearContact, sameContact, List.filter_cons,
        ← sameContact, pending_cons, pending_cons]
      by_cases hs : acstr = s.contact
      · have hcontact : s.contact ≠ "" := hs ▸ hne
        simpa [hs, hcontact] using ih
      · by_cases hcontact : s.contact ≠ ""
        · simp only [hs, decide_false, Bool.false_eq_true, if_false, if_pos hcontact]
          exact List.perm_middle.trans (ih.cons _)
        · simpa [hs, hcontact] using ih

/-- What the loop that starts the objects does to the reservations in the arrays. -/
structure Starts (slots : List Slot) (s s' : Creation) (cancelled : List Grant)
    (started : List (Grant × AccessPoint)) : Prop where
  cancelled_eq : s'.cancelled = s.cancelled ++ cancelled
  started_eq : s'.started = s.started ++ started
  count_eq : s'.count = s.count + started.length
  granted_eq : s'.granted = s.granted
  stopped_eq : s'.stopped = s.stopped
  ret_eq : s'.ret = s.ret
  /-- Each reservation is cancelled or used at most once. -/
  subperm : (cancelled ++ started.map Prod.fst).Subperm (pending slots)

namespace Starts

variable {slots rest : List Slot} {t : Slot} {s s' : Creation} {cancelled : List Grant}
  {started : List (Grant × AccessPoint)}

/-- All reservations in the arrays are settled. -/
def All (slots : List Slot) (cancelled : List Grant) (started : List (Grant × AccessPoint)) :
    Prop :=
  (cancelled ++ started.map Prod.fst).length = (pending slots).length

lemma nil (s : Creation) : Starts [] s s [] [] :=
  ⟨by simp, by simp, by simp, rfl, rfl, rfl, List.Subperm.refl _⟩

lemma length_le (h : Starts slots s s' cancelled started) :
    (cancelled ++ started.map Prod.fst).length ≤ (pending slots).length :=
  h.subperm.length_le

/-- The first slot has no contact. -/
lemma cons_empty (h : Starts rest s s' cancelled started) (ht : t.contact = "") :
    Starts (t :: rest) s s' cancelled started := by
  refine ⟨h.cancelled_eq, h.started_eq, h.count_eq, h.granted_eq, h.stopped_eq, h.ret_eq, ?_⟩
  rw [pending_cons, if_neg (by simpa using ht)]
  exact h.subperm

/-- The reservation of the first slot stays in the arrays and is passed over. -/
lemma cons_skip (h : Starts rest s s' cancelled started) :
    Starts (t :: rest) s s' cancelled started := by
  refine ⟨h.cancelled_eq, h.started_eq, h.count_eq, h.granted_eq, h.stopped_eq, h.ret_eq, ?_⟩
  rw [pending_cons]
  split_ifs
  · exact h.subperm.trans (List.sublist_cons_self _ _).subperm
  · exact h.subperm

/-- The reservations of one job manager are taken out of the arrays. -/
lemma pending_perm (ht : t.contact ≠ "") (rest : List Slot) :
    (t.grant :: (sameContact t.contact rest).map Slot.grant ++
      pending (clearContact t.contact rest)).Perm (pending (t :: rest)) := by
  rw [pending_cons, if_pos ht, List.cons_append]
  exact (sameContact_perm ht rest).cons _

/-- The reservations of one job manager are taken out of the arrays and nothing comes of them. -/
lemma cons_lost {s₀ : Creation} (h : Starts (clearContact t.contact rest) s s' cancelled started)
    (ht : t.contact ≠ "") (hcancelled : s.cancelled = s₀.cancelled)
    (hstarted : s.started = s₀.started) (hcount : s.count = s₀.count)
    (hgranted : s.granted = s₀.granted) (hstopped : s.stopped = s₀.stopped)
    (hret : s.ret = s₀.ret) : Starts (t :: rest) s₀ s' cancelled started := by
  refine ⟨hcancelled ▸ h.cancelled_eq, hstarted ▸ h.started_eq, hcount ▸ h.count_eq,
    hgranted ▸ h.granted_eq, hstopped ▸ h.stopped_eq, hret ▸ h.ret_eq, ?_⟩
  refine h.subperm.trans (List.Subperm.trans ?_ (pending_perm ht rest).subperm)
  exact (List.sublist_append_right _ _).subperm

/-- The reservations of one job manager are taken out of the arrays, and all of them are
cancelled or used. -/
lemma cons_settled (s₀ : Creation) (cs : List Grant) (es : List (Grant × AccessPoint))
    (h : Starts (clearContact t.contact rest) s s' cancelled started) (ht : t.contact ≠ "")
    (hcancelled : s.cancelled = s₀.cancelled ++ cs) (hstarted : s.started = s₀.started ++ es)
    (hcount : s.count = s₀.count + es.length) (hgranted : s.granted = s₀.granted)
    (hstopped : s.stopped = s₀.stopped) (hret : s.ret = s₀.ret)
    (hall : cs ++ es.map Prod.fst = t.grant :: (sameContact t.contact rest).map Slot.grant) :
    Starts (t :: rest) s₀ s' (cs ++ cancelled) (es ++ started) ∧
      (All (t :: rest) (cs ++ cancelled) (es ++ started) ↔
        All (clearContact t.contact rest) cancelled started) := by
  have hperm : (cs ++ cancelled ++ (es ++ started).map Prod.fst).Perm
      ((cs ++ es.map Prod.fst) ++ (cancelled ++ started.map Prod.fst)) := by
    rw [List.map_append, List.append_assoc, List.append_assoc]
    refine List.Perm.append_left cs ?_
    rw [← List.append_assoc, ← List.append_assoc]
    exact List.perm_append_comm.append_right _
  constructor
  · refine ⟨?_, ?_, ?_, hgranted ▸ h.granted_eq, hstopped ▸ h.stopped_eq, hret ▸ h.ret_eq, ?_⟩
    · rw [h.cancelled_eq, hcancelled, List.append_assoc]
    · rw [h.started_eq, hstarted, List.append_assoc]
    · rw [h.count_eq, hcount, List.length_append, Nat.add_assoc]
    · refine hperm.subperm.trans (List.Subperm.trans ?_ (pending_perm ht rest).subperm)
      rw [hall]
      exact (List.subperm_append_left _).mpr h.subperm
  · rw [All, All, hperm.length_eq, ← (pending_perm ht rest).length_eq, hall]
    simp only [List.length_append]
    omega

lemma length_pending_lt (ht : t.contact ≠ "") (rest : List Slot) :
    (pending (clearContact t.contact rest)).length < (pending (t :: rest)).length := by
  have hlen := (pending_perm ht rest).length_eq
  simp only [List.length_append, List.length_cons] at hlen
  omega

end Starts

/-- The loop over the slots: it settles all reservations in the arrays if and only if this
succeeds for each job manager. -/
lemma execLoop_starts (exec : ℕ → ExecAnswer) (i : ℕ) (slots : List Slot) (s : Creation) :
    ∃ cancelled started, Starts slots s (execLoop exec i slots s) cancelled started ∧
      (Starts.All slots cancelled started ↔ SettlesAll (fun k => exec (i + k)) slots) := by
  fun_induction execLoop exec i slots s with
  -- the induction is on the loop: the arrays end, an empty slot, and the four ways a slot ends
  | case1 i s =>
      exact ⟨[], [], Starts.nil s, iff_of_true rfl fun k t hk => by simp at hk⟩
  | case2 i t rest s ht ih =>
      obtain ⟨cs, es, hstarts, hall⟩ := ih
      refine ⟨cs, es, hstarts.cons_empty ht, ?_⟩
      rw [settlesAll_cons_empty ht, Starts.All, pending_cons, if_neg (by simpa using ht)]
      simpa [Starts.All, Nat.add_assoc, Nat.add_comm 1] using hall
  -- no interface can be bound to the job manager: the slot is skipped
  | case3 i t rest s ht hexec ih =>
      obtain ⟨cs, es, hstarts, -⟩ := ih
      refine ⟨cs, es, hstarts.cons_skip, iff_of_false (fun hall => ?_) fun hall => ?_⟩
      · have hle := hstarts.length_le
        rw [Starts.All, pending_cons, if_pos ht, List.length_cons] at hall
        omega
      · have h0 := ((settlesAll_cons ht).mp hall).1
        simp [hexec, ExecAnswer.Settles] at h0
  -- the call threw: the jobs are lost
  | case4 i t rest s ht hexec ih =>
      obtain ⟨cs, es, hstarts, -⟩ := ih
      refine ⟨cs, es, hstarts.cons_lost ht rfl rfl rfl rfl rfl rfl, iff_of_false (fun hall => ?_)
        fun hall => ?_⟩
      · have hle := hstarts.length_le
        have hlt := Starts.length_pending_lt ht rest
        rw [Starts.All] at hall
        omega
      · have h0 := ((settlesAll_cons ht).mp hall).1
        simp [hexec, ExecAnswer.Settles] at h0
  -- refused, and the cancellation may be lost too
  | case5 i t rest s ht execRet objcontacts cancelled hexec tmpids remotejobcontacts hret ih =>
      obtain ⟨cs, es, hstarts, hall⟩ := ih
      cases cancelled with
      | false =>
          refine ⟨cs, es, hstarts.cons_lost ht (by simp) rfl rfl rfl rfl rfl,
            iff_of_false (fun hall => ?_) fun hall => ?_⟩
          · have hle := hstarts.length_le
            have hlt := Starts.length_pending_lt ht rest
            rw [Starts.All] at hall
            omega
          · have h0 := ((settlesAll_cons ht).mp hall).1
            simp [hexec, ExecAnswer.Settles, hret] at h0
      | true =>
          obtain ⟨hcons, hiff⟩ := hstarts.cons_settled s tmpids [] ht
            (by simp) (by simp) (by simp) rfl rfl rfl (by simp [tmpids])
          refine ⟨_, _, hcons, hiff.trans (hall.trans ?_)⟩
          rw [settlesAll_cons ht, and_iff_right (by simp [hexec, ExecAnswer.Settles])]
          simp only [Nat.add_assoc, Nat.add_comm 1]
  -- started
  | case6 i t rest s ht execRet objcontacts cancelled hexec tmpids remotejobcontacts hret ih =>
      obtain ⟨cs, es, hstarts, hall⟩ := ih
      have hfst : (tmpids.mapIdx fun k g => (g, objcontacts k)).map Prod.fst = tmpids := by
        ext1 k
        simp [Function.comp_def]
      obtain ⟨hcons, hiff⟩ := hstarts.cons_settled s []
        (tmpids.mapIdx fun k g => (g, objcontacts k)) ht (by simp) rfl (by simp) rfl rfl rfl hfst
      refine ⟨_, _, hcons, hiff.trans (hall.trans ?_)⟩
      have h0 : execRet = 0 := not_not.mp hret
      rw [settlesAll_cons ht, and_iff_right (by simp [hexec, ExecAnswer.Settles, h0])]
      simp only [Nat.add_assoc, Nat.add_comm 1]

/-! ### One attempt -/

/-- The side condition on one attempt for that many objects. -/
structure Attempt.Keeps (c : Allocator) (howmany : ℕ) (o : Attempt) : Prop where
  /-- Where the own machine matches all objects, the start there does not throw. -/
  matches_settles : o.search.Matches c howmany → (o.exec 0).Settles
  /-- Where there is a discovery, the own machine has not made any reservation before. -/
  match_refused : o.search.Discovers c howmany → c.searchSet = false → o.search.TriesMatch →
    (matchOne c o.search 0 0).id ≤ 0
  /-- The discovery yields nothing, or a reservation with a positive fitness for each object and
  then no start throws. -/
  discovery : o.search.Discovers c howmany → o.search.FindsNone ∨
    ∃ slots, o.search.FindsAll howmany slots ∧ (∀ t ∈ slots, 0 < t.fitness) ∧
      SettlesAll o.exec slots

/-- The reservations that are neither cancelled nor used. -/
def Creation.outstanding (s : Creation) : ℤ :=
  s.granted.length - (s.cancelled.length + s.started.length)

/-- Only reservations that have been made are cancelled or used, each at most once. -/
structure Creation.Sound (s : Creation) : Prop where
  count_eq : s.count = s.started.length
  subperm : (s.cancelled ++ s.started.map Prod.fst).Subperm s.granted

/-- What an attempt adds to the lists. -/
structure Adds (s s' : Creation) (granted cancelled : List Grant)
    (started : List (Grant × AccessPoint)) : Prop where
  granted_eq : s'.granted = s.granted ++ granted
  cancelled_eq : s'.cancelled = s.cancelled ++ cancelled
  started_eq : s'.started = s.started ++ started
  count_eq : s'.count = s.count + started.length
  subperm : (cancelled ++ started.map Prod.fst).Subperm granted

namespace Adds

variable {s s' : Creation} {granted cancelled : List Grant} {started : List (Grant × AccessPoint)}

lemma sound (h : Adds s s' granted cancelled started) (hs : s.Sound) : s'.Sound := by
  refine ⟨by rw [h.count_eq, h.started_eq, hs.count_eq, List.length_append], ?_⟩
  rw [h.granted_eq, h.cancelled_eq, h.started_eq, List.map_append]
  have hperm : (s.cancelled ++ cancelled ++ (s.started.map Prod.fst ++ started.map Prod.fst)).Perm
      (s.cancelled ++ s.started.map Prod.fst ++ (cancelled ++ started.map Prod.fst)) := by
    rw [List.append_assoc, List.append_assoc]
    refine List.Perm.append_left _ ?_
    rw [← List.append_assoc, ← List.append_assoc]
    exact List.perm_append_comm.append_right _
  exact hperm.subperm.trans (hs.subperm.append h.subperm)

lemma outstanding (h : Adds s s' granted cancelled started) :
    s.outstanding ≤ s'.outstanding ∧
      (s'.outstanding = s.outstanding ↔
        (cancelled ++ started.map Prod.fst).length = granted.length) := by
  have hle := h.subperm.length_le
  unfold Creation.outstanding
  rw [h.granted_eq, h.cancelled_eq, h.started_eq]
  simp only [List.length_append, List.length_map, Nat.cast_add] at hle ⊢
  constructor
  · omega
  · constructor <;> intro heq <;> omega

end Adds

/-- The contacts that the discovery yields can be bound to. -/
lemma findsAll_contact {o : Search} {howmany : ℕ} {slots : List Slot}
    (h : o.FindsAll howmany slots) : ∀ s ∈ slots, s.contact ≠ "" := by
  obtain ⟨spare, -, asked, -, rfl, -, -⟩ := h
  intro s hs
  obtain ⟨a, -, rfl⟩ := List.mem_map.mp hs
  exact a.1.2

/-- On the own machine all objects are started at once. -/
lemma settlesAll_const {exec : ℕ → ExecAnswer} {slots : List Slot} {ap : Contact}
    (hne : slots ≠ []) (hcontact : ∀ s ∈ slots, s.contact = ap) :
    SettlesAll exec slots ↔ (exec 0).Settles := by
  obtain ⟨t, rest, rfl⟩ := List.exists_cons_of_ne_nil hne
  have ht : t.contact = ap := hcontact t List.mem_cons_self
  constructor
  · intro h
    exact h 0 t rfl (ht ▸ ap.2) fun j hj => absurd hj (Nat.not_lt_zero j)
  · intro h k u hu _ hfirst
    cases k with
    | zero => exact h
    | succ k =>
        have hu' := hcontact u (List.mem_of_getElem? hu)
        exact absurd (ht.trans hu'.symm) (hfirst 0 (Nat.succ_pos k) t rfl)

section attempt

variable {c : Allocator} {howmany : ℕ} {s : Creation} {o : Attempt}

/-- The attempt ends behind `AllocResource`. -/
lemma attempt_stopped {a : Alloc} (ha : allocResource c o.search 0 (fresh (howmany - s.count)) = a)
    (hret : a.ret ≠ some true) (hcancelled : a.cancelled = []) :
    Adds s (attempt c howmany s o) a.granted [] [] := by
  unfold attempt
  rw [ha]
  rcases hr : a.ret with _ | _ | _
  · simp only [hr, hcancelled, List.append_nil]
    exact ⟨rfl, by simp, by simp, rfl, List.nil_subperm⟩
  · simp only [hr, hcancelled, List.append_nil]
    exact ⟨rfl, by simp, by simp, rfl, List.nil_subperm⟩
  · exact absurd hr hret

/-- A reservation has a fitness that is not positive: the others are cancelled. -/
lemma attempt_cancels {a : Alloc} (ha : allocResource c o.search 0 (fresh (howmany - s.count)) = a)
    (hret : a.ret = some true) (hcancelled : a.cancelled = [])
    (hpending : (pending a.slots).Subperm a.granted) (hfit : ∃ t ∈ a.slots, t.fitness ≤ 0) :
    Adds s (attempt c howmany s o) a.granted (cancelSlots o.bound o.sent 0 a.slots) [] := by
  unfold attempt
  rw [ha]
  simp only [hret, if_pos hfit]
  refine ⟨rfl, by simp [hcancelled], by simp, rfl, ?_⟩
  rw [List.map_nil, List.append_nil]
  exact ((cancelSlots_subperm o.bound o.sent 0 a.slots).trans
    (fitting_sublist a.slots).subperm).trans hpending

/-- The objects are started. -/
lemma attempt_starts {a : Alloc} (ha : allocResource c o.search 0 (fresh (howmany - s.count)) = a)
    (hret : a.ret = some true) (hcancelled : a.cancelled = [])
    (hpending : (pending a.slots).Subperm a.granted) (hfit : ∀ t ∈ a.slots, 0 < t.fitness) :
    ∃ cancelled started, Adds s (attempt c howmany s o) a.granted cancelled started ∧
      (cancelled ++ started.map Prod.fst).length ≤ (pending a.slots).length ∧
      ((cancelled ++ started.map Prod.fst).length = (pending a.slots).length ↔
        SettlesAll o.exec a.slots) := by
  have hnone : ¬∃ t ∈ a.slots, t.fitness ≤ 0 := by
    rintro ⟨t, ht, hle⟩
    exact absurd (hfit t ht) (not_lt.mpr hle)
  unfold attempt
  rw [ha]
  simp only [hret, if_neg hnone, hcancelled, List.append_nil]
  obtain ⟨cs, es, hstarts, hall⟩ := execLoop_starts o.exec 0 a.slots
    { s with granted := s.granted ++ a.granted }
  refine ⟨cs, es, ⟨hstarts.granted_eq, hstarts.cancelled_eq, hstarts.started_eq,
    hstarts.count_eq, hstarts.subperm.trans hpending⟩, hstarts.length_le, ?_⟩
  simpa [Starts.All] using hall

/-- Nothing is reserved on the own machine before the discovery. -/
lemma keptGrants_eq_nil {o : Search} {howmany : ℕ} (hpos : 0 < howmany) :
    (if c.searchSet then [] else localGrants c o howmany) = [] ↔
      (c.searchSet = false → o.TriesMatch → (matchOne c o 0 0).id ≤ 0) := by
  unfold localGrants
  split_ifs with hs htry
  · simp [hs]
  · rw [List.map_eq_nil_iff, matched_eq_nil, or_iff_right hpos.ne']
    exact ⟨fun h _ _ => h, fun h => h (by simpa using hs) htry⟩
  · exact iff_of_true rfl fun _ h => absurd h htry

/-- What an attempt does: it leaves none of its reservations behind if and only if it meets the
side condition. -/
lemma attempt_adds (hpos : s.count < howmany) :
    ∃ granted cancelled started, Adds s (attempt c howmany s o) granted cancelled started ∧
      ((cancelled ++ started.map Prod.fst).length = granted.length ↔
        o.Keeps c (howmany - s.count)) := by
  have hn : 0 < howmany - s.count := Nat.sub_pos_of_lt hpos
  by_cases hm : o.search.Matches c (howmany - s.count)
  · -- all objects are matched on the own machine
    have hnd : ¬o.search.Discovers c (howmany - s.count) := by
      rintro (hs | ⟨-, -, hnot⟩)
      · rw [hm.1] at hs
        cases hs
      · exact hnot hm.2.2
    have ha := allocResource_matches hn hm
    have hall := (matched_all c o.search (k := 0) (m := howmany - s.count)).mpr
      fun j hj => by simpa using hm.2.2.2 j hj
    have hcontact : ∀ t ∈ (matched c o.search 0 (howmany - s.count)).reverse,
        t.contact = c.accesspoint := fun t ht => mem_matched c o.search (List.mem_reverse.mp ht)
    have hpending : (pending (matched c o.search 0 (howmany - s.count)).reverse).Perm
        ((matched c o.search 0 (howmany - s.count)).map Slot.grant) := by
      rw [pending_of_contacts fun t ht => hcontact t ht ▸ c.accesspoint.2]
      exact (List.reverse_perm _).map _
    have hne : (matched c o.search 0 (howmany - s.count)).reverse ≠ [] := by
      intro hnil
      have hlen := hall.1
      rw [List.reverse_eq_nil_iff.mp hnil] at hlen
      exact absurd hlen hn.ne
    obtain ⟨cs, es, hadds, -, hiff⟩ := attempt_starts ha rfl rfl hpending.subperm
      fun t ht => lt_of_lt_of_le zero_lt_one (hall.2 t (List.mem_reverse.mp ht))
    refine ⟨_, cs, es, hadds, ?_⟩
    rw [← hpending.length_eq, hiff, settlesAll_const hne hcontact]
    exact ⟨fun h => ⟨fun _ => h, fun hd => absurd hd hnd, fun hd => absurd hd hnd⟩,
      fun h => h.matches_settles hm⟩
  · by_cases hd : o.search.Discovers c (howmany - s.count)
    · obtain ⟨slots, ret, hslots, ha⟩ := allocResource_discovers hn hd
      have hne : slots ≠ [] := by
        rintro rfl
        exact absurd hslots hn.ne
      have hnone := discover_granted_eq_nil (o := o.search) ret hne
      have hall := fun slots' => discover_eq_some_true (o := o.search) ret hne slots'
      rw [hslots] at hall
      have hkeeps : o.Keeps c (howmany - s.count) ↔
          (if c.searchSet then [] else localGrants c o.search (howmany - s.count)) = [] ∧
            (o.search.FindsNone ∨ ∃ slots, o.search.FindsAll (howmany - s.count) slots ∧
              (∀ t ∈ slots, 0 < t.fitness) ∧ SettlesAll o.exec slots) := by
        rw [keptGrants_eq_nil hn]
        exact ⟨fun h => ⟨h.match_refused hd, h.discovery hd⟩,
          fun h => ⟨fun hm' => absurd hm' hm, fun _ => h.1, fun _ => h.2⟩⟩
      generalize (if c.searchSet then [] else localGrants c o.search (howmany - s.count)) = kept
        at ha hkeeps
      generalize hr : discover o.search slots ret = r at ha hnone hall
      by_cases htrue : r.ret = some true
      · -- there is a reservation for each object
        have hfinds := (hall r.slots).mp ⟨htrue, rfl⟩
        have hcontact := findsAll_contact hfinds
        have hgranted : r.granted = pending r.slots ∧ r.slots.length = slots.length := by
          rw [← hr] at htrue ⊢
          exact discover_granted htrue
        have hlen : 0 < (pending r.slots).length := by
          rw [pending_of_contacts hcontact, List.length_map, hgranted.2, hslots]
          exact hn
        have hnotnone : ¬o.search.FindsNone := by
          rw [← hnone, hgranted.1]
          exact fun hnil => absurd (List.length_eq_zero_iff.mpr hnil) hlen.ne'
        have hpending : (pending r.slots).Subperm (kept ++ r.granted) := by
          rw [hgranted.1]
          exact (List.sublist_append_right _ _).subperm
        by_cases hfit : ∃ t ∈ r.slots, t.fitness ≤ 0
        · refine ⟨_, _, [], attempt_cancels ha htrue rfl hpending hfit, ?_⟩
          refine iff_of_false (fun heq => ?_) fun hk => ?_
          · obtain ⟨t, ht, hle⟩ := hfit
            have hlt := length_fitting_lt ⟨t, ht, hcontact t ht, hle⟩
            have hsub := (cancelSlots_subperm o.bound o.sent 0 r.slots).length_le
            have heq' : (cancelSlots o.bound o.sent 0 r.slots).length =
                kept.length + (pending r.slots).length := by
              simpa [hgranted.1] using heq
            omega
          · obtain ⟨slots', hfinds', hpos', -⟩ := (hkeeps.mp hk).2.resolve_left hnotnone
            obtain ⟨-, rfl⟩ := (hall slots').mpr hfinds'
            obtain ⟨t, ht, hle⟩ := hfit
            exact absurd (hpos' t ht) (not_lt.mpr hle)
        · push Not at hfit
          obtain ⟨cs, es, hadds, hle, hiff⟩ := attempt_starts ha htrue rfl hpending hfit
          refine ⟨_, cs, es, hadds, ?_⟩
          have hexists : (∃ slots, o.search.FindsAll (howmany - s.count) slots ∧
              (∀ t ∈ slots, 0 < t.fitness) ∧ SettlesAll o.exec slots) ↔
              SettlesAll o.exec r.slots := by
            constructor
            · rintro ⟨slots', hfinds', -, hsettles⟩
              obtain ⟨-, rfl⟩ := (hall slots').mpr hfinds'
              exact hsettles
            · exact fun hsettles => ⟨r.slots, hfinds, hfit, hsettles⟩
          have hsum : (kept ++ r.granted).length = kept.length + (pending r.slots).length := by
            rw [List.length_append, hgranted.1]
          have hle' : (cs ++ es.map Prod.fst).length ≤ (pending r.slots).length := hle
          rw [hkeeps, or_iff_right hnotnone, hexists, ← hiff, hsum, ← List.length_eq_zero_iff]
          show _ ↔ _ ∧ _ = (pending r.slots).length
          omega
      · refine ⟨_, [], [], attempt_stopped ha htrue rfl, ?_⟩
        rw [hkeeps]
        have hnot : ¬∃ slots, o.search.FindsAll (howmany - s.count) slots ∧
            (∀ t ∈ slots, 0 < t.fitness) ∧ SettlesAll o.exec slots := by
          rintro ⟨slots', hfinds, -⟩
          exact htrue ((hall slots').mpr hfinds).1
        rw [or_iff_left hnot, ← hnone]
        simp only [List.map_nil, List.append_nil, List.length_nil, List.length_append]
        rw [← List.length_eq_zero_iff, ← List.length_eq_zero_iff]
        omega
    · -- nothing is asked at all
      obtain ⟨hret, hgranted, hcancelled⟩ := allocResource_refused hd hm
      refine ⟨_, [], [], attempt_stopped rfl (by rw [hret]; simp) hcancelled, ?_⟩
      rw [hgranted]
      exact iff_of_true rfl
        ⟨fun h => absurd h hm, fun h => absurd h hd, fun h => absurd h hd⟩

end attempt

/-! ### The whole call -/

/-- The loop as a system that takes one attempt after the other. -/
def createStep (c : CreateCall) (s : Creation) (o : Attempt) : Option Creation :=
  some (if s.Runs c.howmany then attempt c.allocator c.howmany s o else s)

/-- The side condition on an attempt, in the state before it: where it is made, it leaves none of
its reservations behind. -/
def KeepsGrants (c : CreateCall) (s : Creation) (o : Attempt) : Prop :=
  s.Runs c.howmany → o.Keeps c.allocator (c.howmany - s.count)

lemma run_createStep (c : CreateCall) (attempts : List Attempt) (s : Creation) :
    run (createStep c) s attempts = some (createLoop c.allocator c.howmany attempts s) := by
  induction attempts generalizing s with
  | nil => rfl
  | cons o attempts ih =>
      rw [createLoop, run, createStep, Option.bind_some]
      split_ifs with hruns
      · exact ih _
      · rw [ih]
        -- the loop has ended, and it stays so
        cases attempts with
        | nil => rfl
        | cons o' attempts => rw [createLoop, if_neg hruns]

lemma createStep_sound {c : CreateCall} {s s' : Creation} {o : Attempt} (h : s.Sound)
    (hstep : createStep c s o = some s') : s'.Sound := by
  obtain rfl := Option.some.inj hstep
  split_ifs with hruns
  · obtain ⟨g, cs, es, hadds, -⟩ := attempt_adds (c := c.allocator) (o := o) hruns.1
    exact hadds.sound h
  · exact h

/-- Nothing is outstanding behind the loop if and only if every attempt meets the side
condition. -/
lemma created_sound (c : CreateCall) (o : Creating) :
    (created c o).Sound ∧ ((created c o).outstanding = 0 ↔
      Along (createStep c) (KeepsGrants c) creationStart [o.first, o.second, o.third]) := by
  have hstart : creationStart.Sound := ⟨rfl, List.Subperm.refl _⟩
  have hrun := run_createStep c [o.first, o.second, o.third] creationStart
  have hsound : (created c o).Sound := by
    refine run_invariant_along (P := fun _ _ => True) (I := Creation.Sound) ?_ hstart
      (along_of_forall fun _ _ _ => trivial) hrun
    exact fun s a t hs _ hst => createStep_sound hs hst
  refine ⟨hsound, ?_⟩
  refine (run_measure_eq_iff_of_invariant (P := KeepsGrants c) (I := Creation.Sound)
    (f := Creation.outstanding) (fun s a t hs hst => createStep_sound hs hst) ?_ ?_ hstart hrun).2
  · intro s a t hs hst hkeeps
    obtain rfl := Option.some.inj hst
    split_ifs with hruns
    · obtain ⟨g, cs, es, hadds, hiff⟩ := attempt_adds (c := c.allocator) (o := a) hruns.1
      exact hadds.outstanding.2.mpr (hiff.mpr (hkeeps hruns))
    · rfl
  · intro s a t hs hst hnot
    obtain rfl := Option.some.inj hst
    obtain ⟨hruns, hkeeps⟩ := Classical.not_imp.mp hnot
    rw [if_pos hruns]
    obtain ⟨g, cs, es, hadds, hiff⟩ := attempt_adds (c := c.allocator) (o := a) hruns.1
    obtain ⟨hle, heq⟩ := hadds.outstanding
    exact lt_of_le_of_ne hle fun h => hkeeps (hiff.mp (heq.mp h.symm))

/-- The killed objects are all that have been started if and only if each of them can be
killed. -/
lemma length_killedGrants (killed : ℕ → Bool) (s : Creation) :
    (killedGrants killed s).length ≤ s.started.length ∧
      ((killedGrants killed s).length = s.started.length ↔
        ∀ i < s.started.length, killed i = true) := by
  have hlen : (s.started.map Prod.fst).zipIdx.length = s.started.length := by simp
  unfold killedGrants
  rw [List.length_map, ← hlen]
  refine ⟨List.length_filter_le _ _, ?_⟩
  rw [List.length_filter_eq_length_iff]
  constructor
  · intro h i hi
    have hi' : i < (s.started.map Prod.fst).length := by simpa using hi
    exact h ((s.started.map Prod.fst)[i], i)
      (List.mem_zipIdx_iff_getElem?.mpr (List.getElem?_eq_getElem hi'))
  · intro h g hg
    refine h g.2 ?_
    have hget := List.mem_zipIdx_iff_getElem?.mp hg
    simpa using (List.getElem?_eq_some_iff.mp hget).1

lemma killedGrants_sublist (killed : ℕ → Bool) (s : Creation) :
    (killedGrants killed s).Sublist (s.started.map Prod.fst) := by
  have h : ((s.started.map Prod.fst).zipIdx.map Prod.fst) = s.started.map Prod.fst :=
    List.zipIdx_map_fst 0 _
  unfold killedGrants
  nth_rewrite 2 [← h]
  exact List.filter_sublist.map _

/-- **Failed creations.**  When `CreateObject` fails, each reservation that a job manager has made
for the call has been cancelled, or its object has been started and killed, if and only if every
attempt meets the side condition and every object that has been started can be killed. -/
theorem createObject_leaves_nothing_iff (c : CreateCall) (o : Creating)
    (hfail : (createObject c o).code ≠ 0) :
    (createObject c o).granted.Subperm
        ((createObject c o).cancelled ++ (createObject c o).killed) ↔
      Along (createStep c) (KeepsGrants c) creationStart [o.first, o.second, o.third] ∧
        ∀ i < (created c o).count, o.killed i = true := by
  have hpos : ¬c.howmany ≤ 0 := by
    intro hle
    simp [createObject, hle] at hfail
  have hmissing : ¬(created c o).count ≥ c.howmany := by
    intro hge
    simp [createObject, hpos, hge] at hfail
  obtain ⟨hsound, hout⟩ := created_sound c o
  obtain ⟨hle, hkilled⟩ := length_killedGrants o.killed (created c o)
  rw [hsound.count_eq, ← hkilled, ← hout]
  have hsub : ((created c o).cancelled ++ killedGrants o.killed (created c o)).Subperm
      (created c o).granted :=
    ((List.subperm_append_left _).mpr
      (killedGrants_sublist o.killed (created c o)).subperm).trans hsound.subperm
  have hlen := hsub.length_le
  have hsum := hsound.subperm.length_le
  rw [createObject, if_neg hpos]
  simp only [if_neg hmissing]
  unfold Creation.outstanding
  simp only [List.length_append, List.length_map] at hlen hsum
  constructor
  · intro h
    have hge := h.length_le
    rw [List.length_append] at hge
    omega
  · intro h
    refine (hsub.perm_of_length_le ?_).symm.subperm
    rw [List.length_append]
    omega

/-- A request for two objects of which all reservations come from a search. -/
def searchCall : CreateCall :=
  ⟨⟨⟨100, 100, 0, 1, 100, 300, none⟩, ⟨"jm", by decide⟩, ⟨10, -1, 10, -1, -1, -1, -1, ""⟩, true⟩, 2⟩

/-- Two nodes answer to the search, and the calls of `Reserve` are answered so; no start
succeeds. -/
def searchAttempt (reserve : ℕ → Option (Contact × ℤ × ℚ)) : Attempt where
  search := ⟨true, false, some false, fun _ => (⟨⟨[], 0, 1⟩, Int.one_pos⟩, 0), fun _ => true,
    some 2, reserve⟩
  bound := fun _ => true
  sent := fun _ => true
  exec := fun _ => .returned POP_EXEC_FAIL (fun _ => "") true

/-- The same answers in each of the three attempts. -/
def searching (reserve : ℕ → Option (Contact × ℤ × ℚ)) : Creating :=
  ⟨searchAttempt reserve, searchAttempt reserve, searchAttempt reserve, fun _ => true⟩

/-- The first node makes a reservation whenever it is asked, and so does the other one. -/
def grantsAlways : ℕ → Option (Contact × ℤ × ℚ) := fun _ => some (⟨"jm1", by decide⟩, 7, 1)

/-- An attempt of which all reservations are cancelled since the start fails. -/
lemma attempt_grantsAlways {s : Creation} (h : s.count = 0) :
    (attempt searchCall.allocator 2 s (searchAttempt grantsAlways)).count = 0 := by
  have halloc : allocResource searchCall.allocator (searchAttempt grantsAlways).search 0 (fresh 2) =
      ⟨some true, [⟨1, "jm1", 7⟩, ⟨1, "jm1", 7⟩], [⟨"jm1", 7⟩, ⟨"jm1", 7⟩], []⟩ := by
    simp [allocResource, searchCall, searchAttempt, discover, reserveLoop, grantsAlways, fresh,
      List.replicate]
  have hexec : (searchAttempt grantsAlways).exec 0 = .returned POP_EXEC_FAIL (fun _ => "") true :=
    rfl
  unfold attempt
  rw [h, show 2 - 0 = 2 from rfl, halloc]
  simp only
  split_ifs
  · rfl
  · simp [execLoop, hexec, POP_EXEC_FAIL, clearContact]

lemma keeps_grantsAlways (s : Creation) :
    KeepsGrants searchCall s (searchAttempt grantsAlways) := by
  intro hruns
  have hn : 0 < searchCall.howmany - s.count := Nat.sub_pos_of_lt hruns.1
  generalize searchCall.howmany - s.count = n at hn
  have hfinds : (searchAttempt grantsAlways).search.FindsAll n
      (List.replicate n ⟨1, "jm1", 7⟩) := by
    refine ⟨1, rfl, List.replicate n (⟨"jm1", by decide⟩, 7, 1), fun j hj => ?_, ?_, by simp, ?_⟩
    · rw [List.getElem?_replicate, if_pos (by simpa using hj)]
      rfl
    · simp [grantedSlots]
    · simp [refusals, List.countP_replicate]
  refine ⟨fun hm => ?_, fun _ hs => ?_, fun _ => Or.inr ⟨_, hfinds, ?_, fun k t _ _ _ => ?_⟩⟩
  · exact absurd hm.1 (by decide)
  · exact absurd hs (by decide)
  · intro t ht
    rw [List.eq_of_mem_replicate ht]
    exact zero_lt_one
  · exact Or.inr rfl

lemma created_grantsAlways : (created searchCall (searching grantsAlways)).count = 0 := by
  have hloop : ∀ (attempts : List Attempt) (s : Creation),
      (∀ a ∈ attempts, a = searchAttempt grantsAlways) → s.count = 0 →
      (createLoop searchCall.allocator 2 attempts s).count = 0 := by
    intro attempts
    induction attempts with
    | nil => exact fun s _ hs => hs
    | cons a attempts ih =>
        intro s hall hs
        rw [createLoop]
        split_ifs
        · refine ih _ (fun b hb => hall b (List.mem_cons_of_mem _ hb)) ?_
          rw [hall a List.mem_cons_self]
          exact attempt_grantsAlways hs
        · exact hs
  exact hloop _ _ (by simp [searching]) rfl

/-- Three times both objects get a reservation, and their start fails: all six reservations are
cancelled. -/
theorem createObject_leaves_nothing_iff_grantsAlways :
    (createObject searchCall (searching grantsAlways)).granted.Subperm
      ((createObject searchCall (searching grantsAlways)).cancelled ++
        (createObject searchCall (searching grantsAlways)).killed) := by
  refine (createObject_leaves_nothing_iff searchCall (searching grantsAlways) ?_).mpr
    ⟨along_of_forall fun s a ha => ?_, fun i hi => rfl⟩
  · have hmissing : ¬(created searchCall (searching grantsAlways)).count ≥ searchCall.howmany := by
      rw [created_grantsAlways]
      decide
    rw [createObject, if_neg (by decide)]
    simp only [if_neg hmissing]
    split_ifs with hret
    · decide
    · exact hret
  · have ha' : a = searchAttempt grantsAlways := by simpa [searching] using ha
    exact ha' ▸ keeps_grantsAlways s

/-- The first node makes a reservation, and then both refuse. -/
def grantsOnce : ℕ → Option (Contact × ℤ × ℚ)
  | 0 => some (⟨"jm1", by decide⟩, 7, 1)
  | _ => some (⟨"jm2", by decide⟩, 0, 0)

/-- The first attempt ends the call. -/
lemma created_grantsOnce :
    (created searchCall (searching grantsOnce)).count = 0 ∧
      (created searchCall (searching grantsOnce)).ret = OBJECT_NO_RESOURCE ∧
      (created searchCall (searching grantsOnce)).granted = [⟨"jm1", 7⟩] ∧
      (created searchCall (searching grantsOnce)).cancelled = [] ∧
      (created searchCall (searching grantsOnce)).started = [] := by
  have halloc : allocResource searchCall.allocator (searchAttempt grantsOnce).search 0 (fresh 2) =
      ⟨some false, [⟨1, "jm1", 7⟩, ⟨0, "", 0⟩], [⟨"jm1", 7⟩], []⟩ := by
    simp [allocResource, searchCall, searchAttempt, discover, reserveLoop, grantsOnce, fresh,
      List.replicate]
  have hattempt : attempt searchCall.allocator 2 creationStart (searchAttempt grantsOnce) =
      ⟨0, OBJECT_NO_RESOURCE, true, [⟨"jm1", 7⟩], [], [], fun _ => ""⟩ := by
    unfold attempt
    rw [show 2 - creationStart.count = 2 from rfl, halloc]
    rfl
  have hloop : created searchCall (searching grantsOnce) =
      ⟨0, OBJECT_NO_RESOURCE, true, [⟨"jm1", 7⟩], [], [], fun _ => ""⟩ := by
    show createLoop searchCall.allocator 2 [searchAttempt grantsOnce, _, _] creationStart = _
    rw [createLoop, if_pos ⟨Nat.two_pos, rfl⟩, hattempt, createLoop, if_neg fun h => ?_]
    exact absurd h.2 (by decide)
  rw [hloop]
  exact ⟨rfl, rfl, rfl, rfl, rfl⟩

/-- The reservation of the first node is not cancelled when the request is refused. -/
theorem createObject_leaves_grant :
    (createObject searchCall (searching grantsOnce)).code ≠ 0 ∧
      ¬(createObject searchCall (searching grantsOnce)).granted.Subperm
        ((createObject searchCall (searching grantsOnce)).cancelled ++
          (createObject searchCall (searching grantsOnce)).killed) := by
  obtain ⟨hcount, hret, hgranted, hcancelled, hstarted⟩ := created_grantsOnce
  have hmissing : ¬(created searchCall (searching grantsOnce)).count ≥ searchCall.howmany := by
    rw [hcount]
    decide
  rw [createObject, if_neg (by decide)]
  simp only [if_neg hmissing, hret, hgranted, hcancelled, killedGrants, hstarted]
  exact ⟨by decide, fun h => absurd h.length_le (by decide)⟩

end JobMgr
