/-
# Starting the objects of a request

`ExecObj` looks the reserved jobs up, asks the code manager for the executable, starts it and
waits for one answer of each object on a socket of its own; an answer that holds an address
makes the reservation of its object a job.  At each of the points where this can fail it calls
`CancelReservation` with all the ids that it was given.

Some of them are not cancelled: those that an earlier answer has given a contact, those at the
end of the list and those that stand together in another order than in the request.  A
reservation that is missing is read before it is compared with `nullptr`, an answer that is too
short ends the call by an exception, and the `errno` that is returned when no answer arrives may
be zero.
-/
import PopCpp.JobMgr.Cancel

namespace JobMgr

open Runs

/-! ### The call and what happens outside -/

/-- `EINVAL`, `ENOENT` and `ECANCELED`. -/
def EINVAL : ℤ := 22

def ENOENT : ℤ := 2

def ECANCELED : ℤ := 125

/-- The arguments of `ExecObj`, with what it reads of the object description. -/
structure ExecCall where
  /-- `objname` -/
  objname : String
  /-- `od.getCwd()` -/
  cwd : String
  /-- `od.getCheckConnection()` -/
  checkConnection : Bool
  /-- `reserveIDs`, of which there are `howmany` -/
  reserveIDs : List ℤ
  /-- `localservice` -/
  localservice : AccessPoint
  /-- `GetAccessPoint()` of the job manager -/
  jobservice : AccessPoint

/-- What the arguments and the environment of the new process are made of. -/
structure Launch where
  /-- `mycodefile`, cut at blanks -/
  mycodefile : String
  /-- `-object=` -/
  objname : String
  /-- `-jobservice=` -/
  jobservice : AccessPoint
  /-- `-appservice=`, left out when it is empty -/
  localservice : AccessPoint
  /-- `-callback=` -/
  cburl : String
  /-- `-checkConnection` -/
  checkConnection : Bool
  /-- `-cwd=`, left out when it is empty -/
  cwd : String
  /-- `POPC_NP` -/
  howmany : ℕ
  /-- `POPC_JOB_WALLTIME` -/
  walltime : Option ℚ
  /-- `crtPopAppId` -/
  popAppId : String
  /-- `crtReqID` -/
  reqID : String

/-- One answer on the socket for the new objects. -/
inductive Answer where
  /-- `Recv` fails and leaves that `errno`. -/
  | lost (errno : ℤ)
  /-- The status and the address, `none` from where the message ends. -/
  | received (status : Option ℤ) (address : Option AccessPoint)

/-- What happens outside of the job manager during one call. -/
structure Outside where
  /-- `CodeMgr::QueryCode` and the file that it finds, `none` when it throws -/
  queryCode : Option (Bool × String)
  /-- `tmpsock.Create`: the URL of the socket, or `errno` -/
  create : Except ℤ String
  /-- The return value of `Exec` and `pid` -/
  exec : ℤ × ℤ
  /-- The answers in the order in which they are received -/
  answers : ℕ → Answer
  /-- `time(nullptr)` at the look-up and at the validation of the `i`th id -/
  verified : ℕ → ℤ
  validated : ℕ → ℤ

/-- How `ExecObj` ends when it fails. -/
structure Failed where
  /-- The return value. -/
  code : ℤ
  /-- The job manager afterwards. -/
  manager : Manager ℚ
  /-- The calls to the search node. -/
  calls : List (NodeCall ℚ)
  /-- The process that has been started, unless it has not. -/
  launch : Option Launch
  /-- `popc_kill` has been called for it. -/
  killed : Bool
  /-- The application service has been put into the pause list. -/
  paused : Bool

/-- How `ExecObj` ends. -/
inductive Exit where
  /-- It returns `0`, and `objcontacts` are the addresses of the objects. -/
  | started (manager : Manager ℚ) (launch : Launch) (objcontacts : List AccessPoint)
  /-- It gives up. -/
  | failed (f : Failed)
  /-- An exception leaves it. -/
  | thrown (manager : Manager ℚ)
  /-- It reads through a null pointer or outside the list of jobs. -/
  | undefined

/-! ### `ExecObj` -/

/-- `JobMgr::VerifyReservation` with `updatetime`: the first job of that id. -/
def verifyReservation (id now : ℤ) : List (Resources ℚ) → Option (Resources ℚ × List (Resources ℚ))
  | [] => none
  | t :: rest =>
      if t.id = id then some ({ t with start := now }, { t with start := now } :: rest)
      else (verifyReservation id now rest).map fun r => (r.1, t :: r.2)

/-- What the look-up of the ids collects. -/
structure Verified where
  /-- The jobs, with their new `start`. -/
  jobs : List (Resources ℚ)
  /-- `env_walltime` -/
  walltime : Option ℚ
  /-- `crtPopAppId` -/
  popAppId : String
  /-- `crtReqID` -/
  reqID : String

/-- The look-up of the ids from the `i`th on.  It is `none` at a missing one, whose `popAppId` is
read before it is compared with `nullptr`. -/
def verifyLoop (now : ℕ → ℤ) : ℕ → List ℤ → Verified → Option Verified
  | _, [], v => some v
  | i, id :: ids, v =>
      match verifyReservation id (now i) v.jobs with
      | none => none
      | some (r, jobs) =>
          let walltime := if r.walltime > 0 ∧ v.walltime = none then some r.walltime
            else v.walltime
          verifyLoop now (i + 1) ids ⟨jobs, walltime, r.popAppId, r.reqID⟩

section exec

variable (o : Outside) (c : ExecCall)

/-- An exit that cancels the reservations first. -/
def abandon (m : Manager ℚ) (code : ℤ) (launch : Option Launch) (killed paused : Bool) : Exit :=
  match cancelReservation m c.reserveIDs with
  | none => .undefined
  | some r => .failed ⟨code, ⟨r.jobs, r.available, m.counter⟩, r.calls, launch, killed, paused⟩

/-- The loop over the answers from the `i`th on, with `ids` still to come. -/
def replyLoop (launch : Launch) :
    ℕ → List ℤ → List AccessPoint → Manager ℚ → Exit
  | _, [], objcontacts, m => .started m launch objcontacts
  | i, id :: ids, objcontacts, m =>
      match o.answers i with
      | .lost errno => abandon c m errno (some launch) (o.exec.2 > 0) true
      | .received none _ => .thrown m
      | .received (some status) address =>
          if status ≠ 0 then abandon c m status (some launch) (o.exec.2 > 0) true
          else
            match address with
            | none => .thrown m
            | some objcontact =>
                if id ∈ m.jobs.map Resources.id then
                  let jobs := validateLoop id objcontact c.localservice (o.validated i) m.jobs
                  replyLoop launch (i + 1) ids (objcontacts ++ [objcontact]) { m with jobs }
                else abandon c m ECANCELED (some launch) (o.exec.2 > 0) false

/-- The process for the objects. -/
def launch (v : Verified) (mycodefile cburl : String) : Launch where
  mycodefile := mycodefile
  objname := c.objname
  jobservice := c.jobservice
  localservice := c.localservice
  cburl := cburl
  checkConnection := c.checkConnection
  cwd := c.cwd
  howmany := c.reserveIDs.length
  walltime := v.walltime
  popAppId := v.popAppId
  reqID := v.reqID

/-- `ExecObj` behind the look-up of the ids. -/
def execVerified (v : Verified) (m : Manager ℚ) : Exit :=
  match o.queryCode with
  | none => abandon c m ENOENT none false false
  | some (found, mycodefile) =>
      if !found || mycodefile.isEmpty then abandon c m ENOENT none false false
      else
        match o.create with
        | .error errno => abandon c m errno none false false
        | .ok cburl =>
            if o.exec.1 ≠ 0 then
              abandon c m o.exec.1 (some (launch c v mycodefile cburl)) false true
            else replyLoop o c (launch c v mycodefile cburl) 0 c.reserveIDs [] m

/-- `JobMgr::ExecObj` -/
def execObj (m : Manager ℚ) : Exit :=
  if c.reserveIDs.length ≤ 0 then .failed ⟨EINVAL, m, [], none, false, false⟩
  else
    match verifyLoop o.verified 0 c.reserveIDs ⟨m.jobs, none, "", ""⟩ with
    | none => .undefined
    | some v => execVerified o c v { m with jobs := v.jobs }

end exec

/-! ### What has been answered -/

/-- The address in an answer that does not end the loop. -/
def Answer.address? : Answer → Option AccessPoint
  | .received (some 0) address => address
  | _ => none

lemma Answer.address?_of_ne {status : ℤ} (h : status ≠ 0) (address : Option AccessPoint) :
    (Answer.received (some status) address).address? = none := by
  unfold Answer.address?
  split
  · rename_i heq
    exact absurd (Option.some.inj (Answer.received.inj heq).1) h
  · rfl

/-- The ids from the `i`th on with the addresses that are answered for them, up to the first
answer that ends the loop. -/
def answered (answers : ℕ → Answer) : ℕ → List ℤ → List (ℤ × AccessPoint)
  | _, [] => []
  | i, id :: ids =>
      match (answers i).address? with
      | none => []
      | some address => (id, address) :: answered answers (i + 1) ids

/-- The contact of the `k`th job `t` of the list after these answers: only the first job of an
id gets an address, and the last one answered for the id stays. -/
def contactAfter (pairs : List (ℤ × AccessPoint)) (jobs : List (Resources ℚ)) (k : ℕ)
    (t : Resources ℚ) : AccessPoint :=
  if jobs.findIdx (fun u => u.id = t.id) = k then (pairs.reverse.lookup t.id).getD t.contact
  else t.contact

/-- How the outside ends a call whose ids are all known. -/
inductive Ending where
  /-- All objects answer with an address. -/
  | success
  /-- There is a failure with that code, after these answers. -/
  | failure (code : ℤ) (pairs : List (ℤ × AccessPoint))
  /-- An answer cannot be read. -/
  | unreadable

/-- The ending that the answer `a` brings about, after the ones in `pairs`. -/
def Answer.ending (pairs : List (ℤ × AccessPoint)) : Answer → Ending
  | .lost errno => .failure errno pairs
  | .received (some status) _ => if status ≠ 0 then .failure status pairs else .unreadable
  | .received none _ => .unreadable

/-- The ending of a call for these ids. -/
def Outside.ending (o : Outside) (ids : List ℤ) : Ending :=
  match o.queryCode with
  | none => .failure ENOENT []
  | some (found, mycodefile) =>
      if !found || mycodefile.isEmpty then .failure ENOENT []
      else
        match o.create with
        | .error errno => .failure errno []
        | .ok _ =>
            if o.exec.1 ≠ 0 then .failure o.exec.1 []
            else
              let pairs := answered o.answers 0 ids
              if pairs.length = ids.length then .success
              else (o.answers pairs.length).ending pairs

/-- After these answers all reservations of the call can be cancelled: their jobs have no contact,
none of them is the last one of the list, and those that stand together follow the order of the
request. -/
structure CanRelease (m : Manager ℚ) (ids : List ℤ) (pairs : List (ℤ × AccessPoint)) : Prop where
  /-- The contacts. -/
  contact : ∀ (k : ℕ) t, m.jobs[k]? = some t → t.id ∈ ids → contactAfter pairs m.jobs k t = ""
  /-- The order. -/
  order : Sweepable ids (m.jobs.map Resources.id)

/-- An ending after which nothing is left of the reservations. -/
def Ending.Releases (m : Manager ℚ) (ids : List ℤ) : Ending → Prop
  | .success => True
  | .failure code pairs => code ≠ 0 ∧ CanRelease m ids pairs
  | .unreadable => False

/-! ### The look-up and the validation -/

/-- `jobs'` are the jobs in `jobs` after these answers, but for the times and the services. -/
def AfterAnswers (pairs : List (ℤ × AccessPoint)) (jobs jobs' : List (Resources ℚ)) : Prop :=
  jobs'.map (fun t => (t.id, t.amounts, t.contact)) =
    jobs.mapIdx fun k t => (t.id, t.amounts, contactAfter pairs jobs k t)

lemma contactAfter_nil (jobs : List (Resources ℚ)) (k : ℕ) (t : Resources ℚ) :
    contactAfter [] jobs k t = t.contact := by
  simp [contactAfter]

lemma findIdx_id (jobs : List (Resources ℚ)) (id : ℤ) :
    jobs.findIdx (fun t => t.id = id) = (jobs.map Resources.id).findIdx (· = id) := by
  rw [List.findIdx_map]
  rfl

/-- The validation changes the first job of the id. -/
lemma validateLoop_eq_modify (id : ℤ) (objcontact appserv : AccessPoint) (now : ℤ)
    (jobs : List (Resources ℚ)) :
    validateLoop id objcontact appserv now jobs =
      jobs.modify (jobs.findIdx fun t => t.id = id) fun t =>
        { t with contact := objcontact, appservice := appserv, start := now } := by
  induction jobs with
  | nil => rfl
  | cons t rest ih =>
      rw [validateLoop, List.findIdx_cons]
      split_ifs with ht
      · simp [ht]
      · simp [ht, ih]

namespace AfterAnswers

variable {pairs : List (ℤ × AccessPoint)} {jobs jobs' : List (Resources ℚ)}

lemma nil (h : jobs'.map (fun t => (t.id, t.amounts, t.contact)) =
    jobs.map fun t => (t.id, t.amounts, t.contact)) : AfterAnswers [] jobs jobs' := by
  refine h.trans (List.ext_getElem? fun k => ?_)
  simp [contactAfter_nil]

/-- The jobs at one position. -/
lemma get (h : AfterAnswers pairs jobs jobs') (k : ℕ) :
    (jobs'[k]?).map (fun t => (t.id, t.amounts, t.contact)) =
      (jobs[k]?).map fun t => (t.id, t.amounts, contactAfter pairs jobs k t) := by
  have heq := congrArg (·[k]?) h
  simpa only [List.getElem?_map, List.getElem?_mapIdx] using heq

/-- A job at one position is the job that was there. -/
lemma exists_get (h : AfterAnswers pairs jobs jobs') {k : ℕ} {t' : Resources ℚ}
    (ht' : jobs'[k]? = some t') :
    ∃ t, jobs[k]? = some t ∧ t'.id = t.id ∧ t'.amounts = t.amounts ∧
      t'.contact = contactAfter pairs jobs k t := by
  have heq := h.get k
  rw [ht'] at heq
  obtain ⟨t, ht, hcore⟩ := Option.map_eq_some_iff.mp heq.symm
  obtain ⟨hid, hrest⟩ := Prod.mk.inj hcore
  obtain ⟨hamounts, hcontact⟩ := Prod.mk.inj hrest
  exact ⟨t, ht, hid.symm, hamounts.symm, hcontact.symm⟩

/-- A part of the jobs that no answer changes. -/
lemma map_eq (h : AfterAnswers pairs jobs jobs') {β : Type*} (f : ℤ → Amounts ℚ → β) :
    jobs'.map (fun t => f t.id t.amounts) = jobs.map fun t => f t.id t.amounts := by
  refine List.ext_getElem? fun k => ?_
  have heq := congrArg (Option.map fun p => f p.1 p.2.1) (h.get k)
  simpa only [List.getElem?_map, Option.map_map, Function.comp_def] using heq

lemma ids (h : AfterAnswers pairs jobs jobs') :
    jobs'.map Resources.id = jobs.map Resources.id :=
  h.map_eq fun id _ => id

lemma requested_eq (h : AfterAnswers pairs jobs jobs') (req : List ℤ) :
    requested req jobs' = requested req jobs := by
  rw [requested_eq_sum, requested_eq_sum,
    h.map_eq fun id amounts => if id ∈ req then amounts else 0]

lemma cancellable_iff (h : AfterAnswers pairs jobs jobs') (req : List ℤ) :
    Cancellable req jobs' ↔
      (∀ (k : ℕ) t, jobs[k]? = some t → t.id ∈ req → contactAfter pairs jobs k t = "") ∧
        Sweepable req (jobs.map Resources.id) := by
  unfold Cancellable
  rw [h.ids]
  refine and_congr_left fun _ => ⟨fun hall k t ht hid => ?_, fun hall t' ht' hid => ?_⟩
  · have heq := h.get k
    rw [ht] at heq
    obtain ⟨t', ht', hcore⟩ := Option.map_eq_some_iff.mp heq
    obtain ⟨hid', hrest⟩ := Prod.mk.inj hcore
    obtain ⟨-, hcontact⟩ := Prod.mk.inj hrest
    rw [← hcontact]
    exact hall t' (List.mem_of_getElem? ht') (hid' ▸ hid)
  · obtain ⟨k, hk⟩ := List.mem_iff_getElem?.mp ht'
    obtain ⟨t, ht, hid', -, hcontact⟩ := h.exists_get hk
    rw [hcontact]
    exact hall k t ht (hid' ▸ hid)

/-- One more answer. -/
lemma snoc (h : AfterAnswers pairs jobs jobs') (id : ℤ) (objcontact appserv : AccessPoint)
    (now : ℤ) :
    AfterAnswers (pairs ++ [(id, objcontact)]) jobs
      (validateLoop id objcontact appserv now jobs') := by
  have hfirst : jobs'.findIdx (fun t => t.id = id) = jobs.findIdx fun t => t.id = id := by
    rw [findIdx_id, findIdx_id, h.ids]
  refine List.ext_getElem? fun k => ?_
  rw [validateLoop_eq_modify, List.getElem?_map, List.getElem?_modify, List.getElem?_mapIdx,
    hfirst]
  cases hk' : jobs'[k]? with
  | none =>
      have hk := h.get k
      rw [hk', Option.map_none] at hk
      rw [Option.map_eq_none_iff.mp hk.symm]
      rfl
  | some t' =>
      obtain ⟨t, hk, hid, hamounts, hcontact⟩ := h.exists_get hk'
      rw [hk]
      show some _ = some _
      congr 1
      by_cases hpos : jobs.findIdx (fun t => t.id = id) = k
      · -- the first job of the id, which gets the address
        have ht : t.id = id := by
          have hget : jobs[jobs.findIdx fun t => t.id = id]? = some t := hpos.symm ▸ hk
          have hdec := List.findIdx_of_getElem?_eq_some hget
          simpa using hdec
        simp [hpos, hid, hamounts, contactAfter, ht]
      · by_cases ht : t.id = id
        · simp [hpos, hid, hamounts, hcontact, contactAfter, ht]
        · have hbeq : (t.id == id) = false := beq_eq_false_iff_ne.mpr ht
          simp [hpos, hid, hamounts, hcontact, contactAfter, List.lookup_cons, hbeq]

end AfterAnswers

lemma verifyReservation_eq_none {id now : ℤ} {jobs : List (Resources ℚ)} :
    verifyReservation id now jobs = none ↔ id ∉ jobs.map Resources.id := by
  induction jobs with
  | nil => simp [verifyReservation]
  | cons t rest ih =>
      rw [verifyReservation]
      split_ifs with ht
      · simp [ht]
      · rw [Option.map_eq_none_iff, ih, List.map_cons, List.mem_cons, not_or]
        exact ⟨fun h => ⟨Ne.symm ht, h⟩, fun h => h.2⟩

/-- The look-up changes the time of one job. -/
lemma verifyReservation_core {r : Resources ℚ} {id now : ℤ} {jobs jobs' : List (Resources ℚ)}
    (h : verifyReservation id now jobs = some (r, jobs')) :
    jobs'.map (fun t => (t.id, t.amounts, t.contact)) =
      jobs.map fun t => (t.id, t.amounts, t.contact) := by
  induction jobs generalizing r jobs' with
  | nil => simp [verifyReservation] at h
  | cons t rest ih =>
      rw [verifyReservation] at h
      split_ifs at h with ht
      · obtain ⟨-, rfl⟩ := Prod.mk.inj (Option.some.inj h)
        rfl
      · obtain ⟨⟨u, rest'⟩, hrest, heq⟩ := Option.map_eq_some_iff.mp h
        obtain ⟨-, rfl⟩ := Prod.mk.inj heq
        rw [List.map_cons, List.map_cons, ih hrest]

section verifyLoop

variable {now : ℕ → ℤ} {i : ℕ} {ids : List ℤ} {v : Verified}

lemma verifyLoop_core {v' : Verified} (h : verifyLoop now i ids v = some v') :
    v'.jobs.map (fun t => (t.id, t.amounts, t.contact)) =
      v.jobs.map fun t => (t.id, t.amounts, t.contact) := by
  induction ids generalizing i v with
  | nil =>
      obtain rfl := Option.some.inj h
      rfl
  | cons id ids ih =>
      rw [verifyLoop] at h
      cases hid : verifyReservation id (now i) v.jobs with
      | none => simp [hid] at h
      | some r =>
          rw [hid] at h
          exact (ih h).trans (verifyReservation_core hid)

lemma verifyLoop_eq_none :
    verifyLoop now i ids v = none ↔ ¬∀ id ∈ ids, id ∈ v.jobs.map Resources.id := by
  induction ids generalizing i v with
  | nil => simp [verifyLoop]
  | cons id ids ih =>
      rw [verifyLoop, List.forall_mem_cons]
      cases hid : verifyReservation id (now i) v.jobs with
      | none => simp [verifyReservation_eq_none.mp hid]
      | some r =>
          have hmem : id ∈ v.jobs.map Resources.id := by
            by_contra hnot
            rw [verifyReservation_eq_none.mpr hnot] at hid
            cases hid
          have hids : r.2.map Resources.id = v.jobs.map Resources.id := by
            have hcore := congrArg (List.map Prod.fst) (verifyReservation_core (r := r.1) hid)
            simpa [List.map_map, Function.comp_def] using hcore
          simp only [ih, hids, hmem, true_and]

end verifyLoop

/-! ### The exits -/

/-- A failing end at which the caller learns of the failure, and nothing is left of the
reservations. -/
def Exit.Releases (m : Manager ℚ) (ids : List ℤ) : Exit → Prop
  | .started _ _ _ => True
  | .failed f =>
      f.code ≠ 0 ∧ (∀ t ∈ f.manager.jobs, t.id ∉ ids) ∧
        f.manager.available = m.available + requested ids m.jobs
  | .thrown _ => False
  | .undefined => False

section exits

variable {o : Outside} {c : ExecCall} {m m' : Manager ℚ} {pairs : List (ℤ × AccessPoint)}

lemma abandon_releases_iff (hne : c.reserveIDs ≠ []) (hav : m'.available = m.available)
    (h : AfterAnswers pairs m.jobs m'.jobs) (code : ℤ) (l : Option Launch)
    (killed paused : Bool) :
    (abandon c m' code l killed paused).Releases m c.reserveIDs ↔
      (Ending.failure code pairs).Releases m c.reserveIDs := by
  have hcancel : cancelReservation m' c.reserveIDs =
      cancelLoop c.reserveIDs m'.jobs m'.available := by
    rw [cancelReservation, if_neg (by simpa using hne)]
  have hiff := cancelLoop_iff c.reserveIDs m'.jobs m'.available
  rw [h.cancellable_iff, h.requested_eq, hav] at hiff
  have hcan : CanRelease m c.reserveIDs pairs ↔ _ :=
    ⟨fun hr => hiff.mpr ⟨hr.contact, hr.order⟩, fun hr => ⟨(hiff.mp hr).1, (hiff.mp hr).2⟩⟩
  rw [Ending.Releases, hcan, abandon, hcancel, hav]
  cases hloop : cancelLoop c.reserveIDs m'.jobs m.available with
  | none => simp [Exit.Releases]
  | some r => simp [Exit.Releases]

/-- The answers from the `i`th on, by induction on the ids for which one is still to come; the
invariant of the loop is `AfterAnswers`. -/
lemma replyLoop_releases_iff (hne : c.reserveIDs ≠ []) (l : Launch) {ids : List ℤ}
    (hids : ∀ id ∈ ids, id ∈ m.jobs.map Resources.id) (i : ℕ) (objcontacts : List AccessPoint)
    (hav : m'.available = m.available) (h : AfterAnswers pairs m.jobs m'.jobs) :
    (replyLoop o c l i ids objcontacts m').Releases m c.reserveIDs ↔
      (if (answered o.answers i ids).length = ids.length then Ending.success
        else (o.answers (i + (answered o.answers i ids).length)).ending
          (pairs ++ answered o.answers i ids)).Releases m c.reserveIDs := by
  induction ids generalizing i objcontacts m' pairs with
  | nil => simp [replyLoop, answered, Exit.Releases, Ending.Releases]
  | cons id ids ih =>
      obtain ⟨hid, hids⟩ := List.forall_mem_cons.mp hids
      rw [replyLoop, answered]
      cases hans : o.answers i with
      | lost errno =>
          simpa [Answer.address?, Answer.ending, hans] using
            abandon_releases_iff hne hav h errno (some l) (o.exec.2 > 0) true
      | received status address =>
          rcases status with _ | status
          · simp [Answer.address?, Answer.ending, hans, Exit.Releases, Ending.Releases]
          · by_cases hstatus : status = 0
            · subst hstatus
              cases address with
              | none => simp [Answer.address?, Answer.ending, hans, Exit.Releases,
                  Ending.Releases]
              | some objcontact =>
                  -- the job of this id gets its address, and the loop goes on
                  have hmem : id ∈ m'.jobs.map Resources.id := by
                    rw [h.ids]
                    exact hid
                  have hsnoc := h.snoc id objcontact c.localservice (o.validated i)
                  let m'' : Manager ℚ := ⟨validateLoop id objcontact c.localservice
                    (o.validated i) m'.jobs, m'.available, m'.counter⟩
                  have hrest := @ih m'' _ hids (i + 1) (objcontacts ++ [objcontact]) hav hsnoc
                  simpa [Answer.address?, hmem, Nat.add_assoc, Nat.add_comm 1] using hrest
            · have hnone := Answer.address?_of_ne hstatus address
              simpa [hnone, hstatus, hans, Answer.ending] using
                abandon_releases_iff hne hav h status (some l) (o.exec.2 > 0) true

/-- The points behind the look-up at which the call can fail. -/
lemma execVerified_releases_iff (hne : c.reserveIDs ≠ []) (v : Verified)
    (hids : ∀ id ∈ c.reserveIDs, id ∈ m.jobs.map Resources.id)
    (hav : m'.available = m.available) (h : AfterAnswers [] m.jobs m'.jobs) :
    (execVerified o c v m').Releases m c.reserveIDs ↔
      (o.ending c.reserveIDs).Releases m c.reserveIDs := by
  have habandon := abandon_releases_iff hne hav h
  rw [execVerified, Outside.ending]
  cases o.queryCode with
  | none => exact habandon ..
  | some found =>
      dsimp only
      by_cases hfound : (!found.1 || found.2.isEmpty) = true
      · rw [if_pos hfound, if_pos hfound]
        exact habandon ..
      · rw [if_neg hfound, if_neg hfound]
        cases o.create with
        | error errno => exact habandon ..
        | ok cburl =>
            dsimp only
            by_cases hexec : o.exec.1 ≠ 0
            · rw [if_pos hexec, if_pos hexec]
              exact habandon ..
            · have hreply := replyLoop_releases_iff (o := o) hne (launch c v found.2 cburl)
                hids 0 [] hav h
              rw [if_neg hexec, if_neg hexec, hreply, Nat.zero_add, List.nil_append]

/-- A missing reservation is read. -/
lemma execObj_missing (h : ¬∀ id ∈ c.reserveIDs, id ∈ m.jobs.map Resources.id) :
    execObj o c m = .undefined := by
  have hne : ¬c.reserveIDs.length ≤ 0 := by
    intro hlen
    have hnil : c.reserveIDs = [] := by simpa using hlen
    rw [hnil] at h
    simp at h
  rw [execObj, if_neg hne, verifyLoop_eq_none.mpr h]

/-- A call whose ids are all known. -/
lemma execObj_known (hne : c.reserveIDs ≠ [])
    (hids : ∀ id ∈ c.reserveIDs, id ∈ m.jobs.map Resources.id) :
    (execObj o c m).Releases m c.reserveIDs ↔
      (o.ending c.reserveIDs).Releases m c.reserveIDs := by
  rw [execObj, if_neg (by simpa using hne)]
  cases hv : verifyLoop o.verified 0 c.reserveIDs ⟨m.jobs, none, "", ""⟩ with
  | none => exact absurd hids (verifyLoop_eq_none.mp hv)
  | some v => exact execVerified_releases_iff hne v hids rfl (AfterAnswers.nil (verifyLoop_core hv))

end exits

/-- **Failed executions.**  Whenever `ExecObj` fails it tells so by a code other than `0` and
leaves nothing of the reservations, if and only if there are no ids at all, or all of them are
known and the failure, if there is one, has such a code and comes when all of them can be
cancelled. -/
theorem execObj_releases_iff (o : Outside) (c : ExecCall) (m : Manager ℚ) :
    (execObj o c m).Releases m c.reserveIDs ↔
      c.reserveIDs = [] ∨ (∀ id ∈ c.reserveIDs, id ∈ m.jobs.map Resources.id) ∧
        (o.ending c.reserveIDs).Releases m c.reserveIDs := by
  by_cases hnil : c.reserveIDs = []
  · simp [execObj, hnil, Exit.Releases, EINVAL, requested]
  · rw [or_iff_right hnil]
    by_cases hids : ∀ id ∈ c.reserveIDs, id ∈ m.jobs.map Resources.id
    · rw [and_iff_right hids]
      exact execObj_known hnil hids
    · rw [execObj_missing hids]
      exact ⟨False.elim, fun h => hids h.1⟩

/-- Three reservations. -/
def threeJobs : Manager ℚ :=
  ⟨[smallJob 1 10 10, smallJob 2 10 10, smallJob 3 10 10], amounts 70 70 0, 4⟩

/-- A request for objects with these reservations. -/
def execCall (reserveIDs : List ℤ) : ExecCall := ⟨"Obj", "", false, reserveIDs, "app", "jm"⟩

/-- The executable is found and started, and the answers are these. -/
def startsWith (answers : ℕ → Answer) : Outside :=
  ⟨some (true, "obj"), .ok "url", (0, 1), answers, 0, 0⟩

/-- A reservation that is not in the list is read; and when the second of two objects does not
answer, the reservation of the first one stays in the list. -/
theorem execObj_leaves :
    ¬(execObj (startsWith fun _ => .lost 110) (execCall [4]) threeJobs).Releases threeJobs [4] ∧
      ¬(execObj (startsWith fun i => if i = 0 then .received (some 0) (some "obj") else .lost 110)
        (execCall [1, 2]) threeJobs).Releases threeJobs [1, 2] := by
  constructor
  · intro h
    exact h
  · intro h
    have hfail : (Ending.failure 110 [(1, "obj")]).Releases threeJobs [1, 2] :=
      (execObj_known (by simp [execCall]) (by simp [execCall, threeJobs, smallJob])).mp h
    have hcontact := hfail.2.contact 0 (smallJob 1 10 10) rfl (by simp [smallJob])
    simp [contactAfter, threeJobs, smallJob, List.findIdx_cons] at hcontact

end JobMgr
