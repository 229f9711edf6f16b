/-
# The job manager's reservations

A `JobMgr` gives the power, memory and bandwidth of one machine to jobs.  `Reserve` and
`MatchAndReserve` take amounts out of what is available and put a job into the list;
`ReleaseJob`, `CancelReservation`, `Update` and `ApplicationEnd` take jobs out of the list and
give their amounts back.  The search node of the machine keeps a copy of the available amounts
and of the number of jobs, which the job manager updates by `addJob` and `removeJob`.

The list is a `std::vector` and is edited while it is iterated over.  A reference to an element
that has been erased then names the element that has moved into its place, or nothing when the
erased element was the last one.

Amounts are `float`s, whose sums, quotients and comparisons are rounded.  The model has them in a
type `K` with these operations and without any law: what is proved for every `K` holds of the
arithmetic of the machine, whatever it rounds, as of exact numbers.
-/
import Mathlib.Algebra.Order.Ring.Rat
import Mathlib.Algebra.BigOperators.Group.List.Basic
import Mathlib.Algebra.Field.Rat
import PopCpp.Lib.CInt
import PopCpp.Lib.Transition

namespace JobMgr

/-! ### Amounts and jobs -/

/-- What a machine has to give: `flops`, `mem` and `bandwidth` of `Resources`. -/
inductive Quantity where
  | flops
  | mem
  | bandwidth
deriving DecidableEq

variable {K : Type*}

/-- An amount of each quantity. -/
abbrev Amounts (K : Type*) := Quantity → K

/-- The three amounts. -/
def amounts (flops mem bandwidth : K) : Amounts K
  | .flops => flops
  | .mem => mem
  | .bandwidth => bandwidth

/-- `pop_accesspoint`, by its access string. -/
abbrev AccessPoint := String

/-- `Resources`: a job, or a reservation for one as long as it has no contact. -/
structure Resources (K : Type*) where
  /-- `Id` -/
  id : ℤ
  /-- `flops`, `mem` and `bandwidth` -/
  amounts : Amounts K
  /-- `walltime` -/
  walltime : K
  /-- `popAppId` -/
  popAppId : String
  /-- `reqID` -/
  reqID : String
  /-- `start` -/
  start : ℤ
  /-- `contact` -/
  contact : AccessPoint
  /-- `appservice` -/
  appservice : AccessPoint

/-- `pop_od`, with the fields that a reservation reads. -/
structure ObjectDescription (K : Type*) where
  /-- `mflops` and `min_mflops` -/
  power : K
  minPower : K
  /-- `ram` and `min_ram` -/
  memory : K
  minMemory : K
  /-- `net` and `min_net` -/
  net : K
  minNet : K
  /-- `time` -/
  wallTime : K
  /-- `hostname` -/
  hostname : String

/-- `pop_od::IsEmpty` -/
def ObjectDescription.isEmpty [Zero K] [LT K] [DecidableLT K] (od : ObjectDescription K) : Bool :=
  od.power < 0 && od.minPower < 0 && od.memory < 0 && od.minMemory < 0 && od.net < 0 &&
    od.minNet < 0 && od.wallTime < 0 && od.hostname.isEmpty

/-- The configuration of a job manager, as its constructor reads it. -/
structure Config (K : Type*) where
  /-- `power`, `ram` and `bandwidth` -/
  power : K
  ram : ℤ
  bandwidth : ℤ
  /-- `np`, the number of processors -/
  np : ℤ
  /-- `maxjobs` -/
  maxjobs : ℕ
  /-- `reserve_timeout` -/
  reserveTimeout : ℤ
  /-- The numbers that `sscanf` reads from the value of `walltime`, at most four. -/
  walltime : Option (List ℤ)

/-- `total`: the configured amounts, the power once for each processor. -/
def Config.total [Mul K] [IntCast K] (c : Config K) : Amounts K :=
  amounts (if c.np > 0 then c.power * c.np else c.power) c.ram c.bandwidth

/-- `limit`: what one job can have. -/
def Config.limit [IntCast K] (c : Config K) : Amounts K := amounts c.power c.ram c.bandwidth

/-- The state of a job manager. -/
structure Manager (K : Type*) where
  /-- `jobs` -/
  jobs : List (Resources K)
  /-- `available` -/
  available : Amounts K
  /-- `counter` -/
  counter : ℤ

/-- The job manager after its constructor. -/
def Config.initial [Mul K] [IntCast K] (c : Config K) : Manager K := ⟨[], c.total, 1⟩

/-- A call to the search node of the machine.  The amounts are `none` when they are read through
a reference to an element past the end of the list. -/
inductive NodeCall (K : Type*) where
  /-- `POPCSearchNode::addJob` -/
  | addJob (given : Amounts K)
  /-- `POPCSearchNode::removeJob` -/
  | removeJob (given : Option (Amounts K)) (nbJob : ℕ)

/-! ### Reservations -/

/-- The macro `min(a, b)`. -/
def lesser [LT K] [DecidableLT K] (a b : K) : K := if a < b then a else b

section reserve

variable [Sub K] [Div K] [Zero K] [One K] [IntCast K] [LT K] [LE K] [DecidableLT K] [DecidableLE K]
variable (c : Config K) (m : Manager K) (od : ObjectDescription K)

/-- The power that a job gets and the fitness of it, for a required power that is positive. -/
def grantPower (require : K) : K × K :=
  if require > m.available .flops ∨ require > c.limit .flops then
    (lesser (m.available .flops) (c.limit .flops),
      lesser (m.available .flops) (c.limit .flops) / require)
  else (require, lesser (m.available .flops) (c.limit .flops) / require)

/-- The power part of `Reserve`, `none` when it is refused. -/
def matchPower (inoutfitness : K) : Option (K × K) :=
  if od.power > 0 then
    if (grantPower c m od.power).2 < inoutfitness then none else some (grantPower c m od.power)
  else some (0, 1)

/-- The minimum of the power that `MatchAndReserve` checks before. -/
def checkMinPower : Bool :=
  od.power > 0 →
    ¬((if od.minPower < 0 then od.power else od.minPower) > m.available .flops ∨
      (if od.minPower < 0 then od.power else od.minPower) > c.limit .flops)

/-- The memory that a job gets and the fitness of it, for a required memory that is positive. -/
def grantMemory (require : K) : K × K :=
  if require > m.available .mem then (m.available .mem, m.available .mem / require)
  else (require, require / m.available .mem)

/-- The memory part, which keeps the lower one of the two fitnesses. -/
def matchMemory (inoutfitness fitness : K) : Option (K × K) :=
  if od.memory > 0 then
    if (if od.minMemory < 0 then od.memory else od.minMemory) > m.available .mem then none
    else if (grantMemory m od.memory).2 < fitness then
      if (grantMemory m od.memory).2 < inoutfitness then none else some (grantMemory m od.memory)
    else some ((grantMemory m od.memory).1, fitness)
  else some (0, fitness)

/-- The seconds of a walltime of days, hours, minutes and seconds, of which the first ones may be
left out: an `int`, which is converted. -/
def maxWalltime (ns : List ℤ) : K :=
  match (List.replicate (4 - ns.length) 0 ++ ns : List ℤ) with
  | [d, h, min, s] => (CInt.wrap (s + 60 * min + 3600 * (h + 24 * d)) : ℤ)
  | _ => 0

/-- The walltime part. -/
def matchWalltime : Option K :=
  let walltime := if od.wallTime < 0 then 0 else od.wallTime
  match c.walltime with
  | none | some [] => some walltime
  | some ns =>
      if (walltime ≤ 0 ∧ (maxWalltime ns : K) > 0) ∨ walltime > maxWalltime ns then none
      else some walltime

/-- What a match yields: the power, the memory, the walltime and the fitness. -/
structure Match (K : Type*) where
  /-- `flops` -/
  flops : K
  /-- `mem` -/
  mem : K
  /-- `walltime` -/
  walltime : K
  /-- `fitness` -/
  fitness : K

/-- The checks that `Reserve` and `MatchAndReserve` have in common. -/
def matchResources (inoutfitness : K) : Option (Match K) :=
  if od.isEmpty then some ⟨0, 0, 0, 1⟩
  else do
    let (flops, fitness) ← matchPower c m od inoutfitness
    let (mem, fitness) ← matchMemory m od inoutfitness fitness
    let walltime ← matchWalltime c od
    return ⟨flops, mem, walltime, fitness⟩

/-- The entry that is put into the list: without the ids of the application and of the request,
which `Reserve` sets only in its own copy. -/
def entry (r : Match K) (now : ℤ) : Resources K :=
  { id := m.counter, amounts := amounts r.flops r.mem 0, walltime := r.walltime, popAppId := "",
    reqID := "", start := now, contact := "", appservice := "" }

/-- The manager after a reservation has been made. -/
def reserved (r : Match K) (now : ℤ) : Manager K where
  jobs := m.jobs ++ [entry m r now]
  available := m.available - (entry m r now).amounts
  counter := m.counter % 1000000000 + 1

/-- The outcome of a reservation. -/
structure Reservation (K : Type*) where
  /-- The manager afterwards. -/
  manager : Manager K
  /-- The calls to the search node. -/
  calls : List (NodeCall K)
  /-- The id of the reservation, `0` when it is refused. -/
  id : ℤ
  /-- `inoutfitness` afterwards. -/
  fitness : K

/-- `JobMgr::Reserve`.  When the call to the search node fails the entry stays in the list. -/
def reserve (inoutfitness : K) (now : ℤ) (addJobOk : Bool) : Reservation K :=
  if m.jobs.length ≥ c.maxjobs then ⟨m, [], 0, inoutfitness⟩
  else
    match matchResources c m od inoutfitness with
    | none => ⟨m, [], 0, inoutfitness⟩
    | some r =>
        if addJobOk then
          ⟨reserved m r now, [.addJob (entry m r now).amounts], m.counter, r.fitness⟩
        else ⟨{ m with jobs := m.jobs ++ [entry m r now] }, [], 0, r.fitness⟩

/-- `JobMgr::MatchAndReserve` for one object.  It does not tell the search node. -/
def matchAndReserve (inoutfitness : K) (now : ℤ) : Reservation K :=
  if m.jobs.length ≥ c.maxjobs then ⟨m, [], 0, inoutfitness⟩
  else if !od.isEmpty && !checkMinPower c m od then ⟨m, [], 0, inoutfitness⟩
  else
    match matchResources c m od inoutfitness with
    | none => ⟨m, [], 0, inoutfitness⟩
    | some r => ⟨reserved m r now, [], m.counter, r.fitness⟩

/-- A reservation is refused, or it has been made as its match says. -/
lemma reserve_cases (inoutfitness : K) (now : ℤ) :
    reserve c m od inoutfitness now true = ⟨m, [], 0, inoutfitness⟩ ∨
    ∃ r, matchResources c m od inoutfitness = some r ∧
      reserve c m od inoutfitness now true =
        ⟨reserved m r now, [.addJob (entry m r now).amounts], m.counter, r.fitness⟩ := by
  unfold reserve
  by_cases hmax : m.jobs.length ≥ c.maxjobs
  · rw [if_pos hmax]
    exact Or.inl rfl
  · rw [if_neg hmax]
    cases h : matchResources c m od inoutfitness with
    | none => exact Or.inl rfl
    | some r => exact Or.inr ⟨r, rfl, rfl⟩

lemma matchAndReserve_cases (inoutfitness : K) (now : ℤ) :
    matchAndReserve c m od inoutfitness now = ⟨m, [], 0, inoutfitness⟩ ∨
    ∃ r, matchResources c m od inoutfitness = some r ∧
      matchAndReserve c m od inoutfitness now =
        ⟨reserved m r now, [], m.counter, r.fitness⟩ := by
  unfold matchAndReserve
  split_ifs with hmax hmin
  · exact Or.inl rfl
  · exact Or.inl rfl
  · cases h : matchResources c m od inoutfitness with
    | none => exact Or.inl rfl
    | some r => exact Or.inr ⟨r, rfl, rfl⟩

end reserve

/-! ### Releases -/

section release

variable [Add K]

/-- The outcome of a loop over the list that releases jobs. -/
structure Released (K : Type*) where
  /-- The jobs that are left. -/
  jobs : List (Resources K)
  /-- `available` -/
  available : Amounts K
  /-- The calls to the search node. -/
  calls : List (NodeCall K)

/-- The job `t` is erased, with `rest` behind it: its amounts are given back, and `removeJob` is
called with what the reference to it names now. -/
def Released.free (t : Resources K) (rest : List (Resources K)) (loop : Amounts K → Released K)
    (available : Amounts K) : Released K :=
  let r := loop (available + t.amounts)
  { r with calls := .removeJob (rest.head?.map Resources.amounts) 1 :: r.calls }

/-- The job `t` stays in the list. -/
def Released.keep (t : Resources K) (r : Released K) : Released K := { r with jobs := t :: r.jobs }

/-- The loop of `JobMgr::ReleaseJob`: the first job of that id that has a contact. -/
def releaseLoop (id : ℤ) : List (Resources K) → Amounts K → Released K
  | [], available => ⟨[], available, []⟩
  | t :: rest, available =>
      if t.id = id ∧ t.contact ≠ "" then
        Released.free t rest (fun available => ⟨rest, available, []⟩) available
      else (releaseLoop id rest available).keep t

/-- `JobMgr::ReleaseJob` -/
def releaseJob (m : Manager K) (id : ℤ) : Released K :=
  if id ≤ 0 then ⟨m.jobs, m.available, []⟩ else releaseLoop id m.jobs m.available

/-- What `Update` learns from outside in one round of its loop. -/
structure Round where
  /-- `time(nullptr)` -/
  now : ℤ
  /-- `ObjectAlive` -/
  alive : Bool

/-- The job is released: a reservation that has timed out, or a job whose object is gone. -/
def Expired (reserveTimeout : ℤ) (round : Round) (t : Resources K) : Prop :=
  if t.contact = "" then reserveTimeout > 0 ∧ round.now - t.start > reserveTimeout
  else round.now - t.start > 5 ∧ round.alive = false

instance (reserveTimeout : ℤ) (round : Round) (t : Resources K) :
    Decidable (Expired reserveTimeout round t) :=
  inferInstanceAs (Decidable (ite ..))

/-- A job that stays: one whose object has been found alive starts anew. -/
def refresh (round : Round) (t : Resources K) : Resources K :=
  if t.contact ≠ "" ∧ round.now - t.start > 5 then { t with start := round.now } else t

/-- The loop of `JobMgr::Update`, from round `i` on. -/
def updateLoop (reserveTimeout : ℤ) (rounds : ℕ → Round) :
    ℕ → List (Resources K) → Amounts K → Released K
  | _, [], available => ⟨[], available, []⟩
  | i, t :: rest, available =>
      if Expired reserveTimeout (rounds i) t then
        Released.free t rest (updateLoop reserveTimeout rounds (i + 1) rest) available
      else (updateLoop reserveTimeout rounds (i + 1) rest available).keep (refresh (rounds i) t)

/-- `JobMgr::Update` -/
def update (c : Config K) (m : Manager K) (rounds : ℕ → Round) : Released K :=
  updateLoop c.reserveTimeout rounds 0 m.jobs m.available

/-- The inner loop of `JobMgr::CancelReservation` over the ids, at one position of the list with
`rest` from there on.  `none` when it reads past the end. -/
def cancelInner : List ℤ → List (Resources K) → Amounts K → Option (Released K)
  | [], rest, available => some ⟨rest, available, []⟩
  | _ :: _, [], _ => none
  | id :: req, t :: rest, available =>
      if t.id = id ∧ t.contact = "" then
        (cancelInner req rest (available + t.amounts)).map fun r =>
          { r with calls := .removeJob (rest.head?.map Resources.amounts) 1 :: r.calls }
      else cancelInner req (t :: rest) available

/-- Jobs are erased from the position on. -/
lemma cancelInner_suffix {req : List ℤ} {rest : List (Resources K)} {available : Amounts K}
    {r : Released K} (h : cancelInner req rest available = some r) : r.jobs <:+ rest := by
  induction req generalizing rest available r with
  | nil =>
      obtain rfl := Option.some.inj h
      exact List.suffix_refl rest
  | cons id req ih =>
      cases rest with
      | nil => simp [cancelInner] at h
      | cons t rest =>
          simp only [cancelInner] at h
          split_ifs at h
          · obtain ⟨r', hr', rfl⟩ := Option.map_eq_some_iff.mp h
            exact (ih hr').trans (List.suffix_cons t rest)
          · exact ih h

/-- The outer loop.  Its iterator is behind the position of the inner loop, so after an erasure
it skips one job, and when the last job has been erased it is past the end. -/
def cancelLoop (req : List ℤ) (jobs : List (Resources K)) (available : Amounts K) :
    Option (Released K) :=
  match jobs with
  | [] => some ⟨[], available, []⟩
  | t :: rest =>
      match _h : cancelInner req (t :: rest) available with
      | none => none
      | some ⟨[], _, _⟩ => none
      | some ⟨t' :: rest', available', calls⟩ =>
          (cancelLoop req rest' available').map fun r =>
            { r with jobs := t' :: r.jobs, calls := calls ++ r.calls }
termination_by jobs.length
decreasing_by
  have hlen := (cancelInner_suffix ‹_›).length_le
  simp only [List.length_cons] at hlen ⊢
  omega

/-- `JobMgr::CancelReservation` -/
def cancelReservation (m : Manager K) (req : List ℤ) : Option (Released K) :=
  if req.isEmpty then some ⟨m.jobs, m.available, []⟩ else cancelLoop req m.jobs m.available

/-- `JobMgr::ValidateReservation`: the first job of that id gets its contact. -/
def validateLoop (id : ℤ) (objcontact appserv : AccessPoint) (now : ℤ) :
    List (Resources K) → List (Resources K)
  | [] => []
  | t :: rest =>
      if t.id = id then
        { t with contact := objcontact, appservice := appserv, start := now } :: rest
      else t :: validateLoop id objcontact appserv now rest

/-- The loop of `JobMgr::ApplicationEnd`: the jobs that are left, `available` and `nbJob`. -/
def endLoop (popAppId : String) :
    List (Resources K) → Amounts K → List (Resources K) × Amounts K × ℕ
  | [], available => ([], available, 0)
  | t :: rest, available =>
      if t.popAppId = popAppId then
        let (jobs, available, nbJob) := endLoop popAppId rest (available + t.amounts)
        (jobs, available, nbJob + 1)
      else
        let (jobs, available, nbJob) := endLoop popAppId rest available
        (t :: jobs, available, nbJob)

/-- `JobMgr::ApplicationEnd`, without the end request that the initiator launches: the search
node is told what is available now. -/
def applicationEnd (m : Manager K) (popAppId : String) : Released K :=
  let (jobs, available, nbJob) := endLoop popAppId m.jobs m.available
  ⟨jobs, available, if nbJob > 0 then [.removeJob (some available) nbJob] else []⟩

end release

/-! ### The machine -/

/-- What the search node knows of the job manager: the amounts, unless it has been given one
that is not defined, and `psn_currentJobs`. -/
structure View (K : Type*) where
  /-- `nodeInfo.power`, `nodeInfo.memorySize` and `nodeInfo.networkBandwidth` -/
  amounts : Option (Amounts K)
  /-- `psn_currentJobs` -/
  currentJobs : ℤ

/-- `POPCSearchNode::addJob` and `removeJob`.  The first one subtracts, the second one sets. -/
def View.call [Sub K] (v : View K) : NodeCall K → View K
  | .addJob given => ⟨v.amounts.map fun a => a - given, v.currentJobs + 1⟩
  | .removeJob given nbJob => ⟨given, v.currentJobs - nbJob⟩

/-- A job manager and the search node of its machine. -/
structure Machine (K : Type*) where
  /-- The job manager. -/
  manager : Manager K
  /-- What the search node knows. -/
  view : View K

/-- The operations of the job manager, with what they learn from outside. -/
inductive Op (K : Type*) where
  | reserve (od : ObjectDescription K) (inoutfitness : K) (now : ℤ)
  | matchAndReserve (od : ObjectDescription K) (inoutfitness : K) (now : ℤ)
  | releaseJob (id : ℤ)
  | cancelReservation (req : List ℤ)
  | update (rounds : ℕ → Round)
  | validateReservation (id : ℤ) (objcontact appserv : AccessPoint) (now : ℤ)
  | applicationEnd (popAppId : String)

/-- The machine after a reservation. -/
def Machine.reserve [Sub K] (s : Machine K) (r : Reservation K) : Machine K :=
  ⟨r.manager, r.calls.foldl View.call s.view⟩

/-- The machine after jobs have been released. -/
def Machine.release [Sub K] (s : Machine K) (r : Released K) : Machine K :=
  ⟨⟨r.jobs, r.available, s.manager.counter⟩, r.calls.foldl View.call s.view⟩

section step

variable [Add K] [Sub K] [Mul K] [Div K] [Zero K] [One K] [IntCast K] [LT K] [LE K] [DecidableLT K]
  [DecidableLE K]

/-- One operation, all calls to the search node succeeding.  `none` when it reads outside the
list of jobs and goes on from there. -/
def step (c : Config K) (s : Machine K) : Op K → Option (Machine K)
  | .reserve od fitness now => some (s.reserve (reserve c s.manager od fitness now true))
  | .matchAndReserve od fitness now =>
      some (s.reserve (matchAndReserve c s.manager od fitness now))
  | .releaseJob id => some (s.release (releaseJob s.manager id))
  | .cancelReservation req => (cancelReservation s.manager req).map s.release
  | .update rounds => some (s.release (update c s.manager rounds))
  | .validateReservation id objcontact appserv now =>
      some { s with manager.jobs := validateLoop id objcontact appserv now s.manager.jobs }
  | .applicationEnd popAppId => some (s.release (applicationEnd s.manager popAppId))

end step

/-- The machine after the constructor of the job manager. -/
def Config.machine [Mul K] [IntCast K] (c : Config K) : Machine K := ⟨c.initial, ⟨some c.total, 0⟩⟩

end JobMgr
