/-
# The results of the discoveries of one search node

Every call of `launchDiscovery` runs in a thread of its own.  It registers its request in
`actualReq`, asks the grid, waits, and takes the answers out of `actualReq` again; the answers
come in by `callbackResult`, each in a thread of its own too.  With the timeout 0 the wait is
for a semaphore that the first answer posts, or a timer that calls `unlockDiscovery` from
outside; the semaphores are in a second map, `reqsem`, that no lock protects.

The steps are the statements of these threads that read or write what they share.  A section
under `actualReqSyn` is one step.  Semaphores are opened without an error.
-/
import Mathlib.Logic.Function.Basic
import PopCpp.Lib.Transition

namespace Discovery

/-! ### Node infos -/

/-- `POPCSearchNodeInfo`, without the access point `jobmgr`, which is not passed on. -/
structure POPCSearchNodeInfo where
  /-- The access string of the node. -/
  nodeId : String
  /-- The operating system. -/
  operatingSystem : String
  /-- The power, a `float` by its bits, as are the two others. -/
  power : BitVec 32
  /-- The speed of the CPU. -/
  cpuSpeed : BitVec 32
  /-- The memory. -/
  memorySize : BitVec 32
  /-- The bandwidth. -/
  networkBandwidth : BitVec 32
  /-- The disk space. -/
  diskSpace : BitVec 32
  /-- The protocol. -/
  protocol : String
  /-- The encoding. -/
  encoding : String
  /-- The public key. -/
  pki : String
deriving DecidableEq

/-- An element of a `POPBuffer`, as the infos use it. -/
inductive InfoItem where
  /-- A `std::string`. -/
  | string (s : String)
  /-- A `float`, by its bits. -/
  | float (bits : BitVec 32)
  /-- An `int`. -/
  | int (n : BitVec 32)
  /-- The number of the elements of a list, an `int` as well. -/
  | size (n : ℕ)
deriving DecidableEq

namespace POPCSearchNodeInfo

/-- `POPCSearchNodeInfo::Serialize` with `pack`. -/
def pack (info : POPCSearchNodeInfo) : List InfoItem :=
  [.string info.nodeId, .string info.operatingSystem, .float info.power, .int info.cpuSpeed,
    .float info.memorySize, .float info.networkBandwidth, .int info.diskSpace,
    .string info.protocol, .string info.encoding, .string info.pki]

/-- `POPCSearchNodeInfo::Serialize` without `pack`. -/
def unPack : List InfoItem → Option (POPCSearchNodeInfo × List InfoItem)
  | .string nodeId :: .string operatingSystem :: .float power :: .int cpuSpeed ::
      .float memorySize :: .float networkBandwidth :: .int diskSpace :: .string protocol ::
      .string encoding :: .string pki :: buf =>
      some (⟨nodeId, operatingSystem, power, cpuSpeed, memorySize, networkBandwidth, diskSpace,
        protocol, encoding, pki⟩, buf)
  | _ => none

lemma unPack_pack (info : POPCSearchNodeInfo) (buf : List InfoItem) :
    unPack (info.pack ++ buf) = some (info, buf) := rfl

end POPCSearchNodeInfo

/-- `POPCSearchNodeInfos`: the list `_nodeInfos`. -/
abbrev POPCSearchNodeInfos := List POPCSearchNodeInfo

namespace POPCSearchNodeInfos

/-- `POPCSearchNodeInfos::addANodeInfo` -/
def addANodeInfo (infos : POPCSearchNodeInfos) (info : POPCSearchNodeInfo) :
    POPCSearchNodeInfos := infos ++ [info]

/-- `POPCSearchNodeInfos::Serialize` with `pack`. -/
def pack (infos : POPCSearchNodeInfos) : List InfoItem :=
  .size infos.length :: infos.flatMap POPCSearchNodeInfo.pack

/-- The loop of `Serialize` that unpacks: the infos are added to those that are there. -/
def unPackLoop : ℕ → POPCSearchNodeInfos → List InfoItem →
    Option (POPCSearchNodeInfos × List InfoItem)
  | 0, infos, buf => some (infos, buf)
  | n + 1, infos, buf =>
      (POPCSearchNodeInfo.unPack buf).bind fun r => unPackLoop n (infos ++ [r.1]) r.2

/-- `POPCSearchNodeInfos::Serialize` without `pack`. -/
def unPack (infos : POPCSearchNodeInfos) : List InfoItem →
    Option (POPCSearchNodeInfos × List InfoItem)
  | .size n :: buf => unPackLoop n infos buf
  | _ => none

/-- The list that the caller of a method has: the result of the method, packed and unpacked into
a new list. -/
def returned (infos : POPCSearchNodeInfos) : Option POPCSearchNodeInfos :=
  (unPack [] (pack infos)).map Prod.fst

lemma unPackLoop_pack (infos acc : POPCSearchNodeInfos) (buf : List InfoItem) :
    unPackLoop infos.length acc (infos.flatMap POPCSearchNodeInfo.pack ++ buf) =
      some (acc ++ infos, buf) := by
  induction infos generalizing acc with
  | nil => simp [unPackLoop]
  | cons info infos ih =>
      rw [List.flatMap_cons, List.append_assoc, List.length_cons, unPackLoop,
        POPCSearchNodeInfo.unPack_pack]
      simp [ih]

lemma returned_eq (infos : POPCSearchNodeInfos) : returned infos = some infos := by
  have h := unPackLoop_pack infos [] []
  rw [List.append_nil] at h
  simp [returned, pack, unPack, h]

end POPCSearchNodeInfos

namespace Results

variable {ι : Type*}

/-! ### The threads -/

/-- Where a `launchDiscovery` is, by the statement that comes next. -/
inductive LaunchPc where
  /-- `actualReq[id] = nInfos` -/
  | registering
  /-- `sem_open`, with the timeout 0. -/
  | opening
  /-- `reqsem.insert`, and the test that there is an entry. -/
  | inserting
  /-- `askResourcesDiscovery` on the node itself. -/
  | asking
  /-- `timer->create` -/
  | timing
  /-- `sem_wait` -/
  | waiting
  /-- The second `sem_wait`, after an error of the first. -/
  | waitingAgain
  /-- `timer->stop` -/
  | stopping
  /-- `sem_unlink` and `reqsem.erase`. -/
  | erasing
  /-- The collection of the results. -/
  | collecting
  /-- The call has returned. -/
  | returned
deriving DecidableEq

/-- A call of `launchDiscovery`. -/
structure Launch where
  /-- `timeout` -/
  timeout : ℤ
  /-- The next statement. -/
  pc : LaunchPc
  /-- `current_sem` -/
  currentSem : ℕ
  /-- `results` -/
  results : POPCSearchNodeInfos
deriving DecidableEq

/-- Where a `NodeThread` is. -/
inductive TimerPc where
  /-- In the loop that waits for the timeout. -/
  | looping
  /-- `if (_unlock)` -/
  | checking
  /-- The thread has ended. -/
  | ended
deriving DecidableEq

/-- `NodeThread`: the timer of a discovery. -/
structure NodeThread where
  /-- `_running` -/
  running : Bool
  /-- `_unlock` -/
  unlock : Bool
  /-- The next statement. -/
  pc : TimerPc
deriving DecidableEq

/-- `NodeThread::stop` -/
def NodeThread.stop (t : NodeThread) : NodeThread := { t with unlock := false, running := false }

/-- Where a `callbackResult` is, once the answer has been added. -/
inductive CallbackPc where
  /-- `if (reqsem[_reqid] != NULL)` -/
  | checking
  /-- `sem_post(reqsem[_reqid])` -/
  | posting
deriving DecidableEq

/-- What the sections under `actualReqSyn` have done. -/
inductive Event (ι : Type*) where
  /-- `launchDiscovery` has made the entry of its request. -/
  | registered (id : ι)
  /-- An answer has been delivered. -/
  | delivered (id : ι) (info : POPCSearchNodeInfo)
  /-- `launchDiscovery` has copied its results and erased the entry. -/
  | collected (id : ι)
deriving DecidableEq

/-- A search node with the threads of its discoveries. -/
structure Node (ι : Type*) where
  /-- `actualReq` -/
  actualReq : ι → Option POPCSearchNodeInfos
  /-- `reqsem`.  An entry may be a null pointer. -/
  reqsem : ι → Option (Option ℕ)
  /-- The values of the semaphores. -/
  semValue : ℕ → ℕ
  /-- `sem_logicalClock`: the number of the next semaphore. -/
  semLogicalClock : ℕ
  /-- The calls of `launchDiscovery` by the id of their request. -/
  launches : ι → Option Launch
  /-- The timers. -/
  timers : ι → Option NodeThread
  /-- The calls of `unlockDiscovery` in flight. -/
  unlocks : List ι
  /-- The calls of `callbackResult` that have added their answer. -/
  callbacks : List (ι × CallbackPc)
  /-- What has been done to `actualReq` so far. -/
  log : List (Event ι)
  /-- What `sem_post` has been applied to so far. -/
  posts : List (Option ℕ)
  /-- The ids that were looked up in `reqsem` before a semaphore was inserted for them. -/
  early : List ι

/-- The search node at its start. -/
def init : Node ι :=
  ⟨fun _ => none, fun _ => none, fun _ => 0, 0, fun _ => none, fun _ => none, [], [], [], [], []⟩

/-- What can happen. -/
inductive Action (ι : Type*) where
  /-- A call of `launchDiscovery`. -/
  | launchDiscovery (id : ι) (endRequest : Bool) (timeout : ℤ)
  /-- The next statement of the launch of the request. -/
  | advance (id : ι)
  /-- The `sem_wait` of the launch returns with an error. -/
  | interrupt (id : ι)
  /-- The time of the timer is over, or it has been stopped. -/
  | elapse (id : ι)
  /-- The timer reads `_unlock`. -/
  | checkUnlock (id : ι)
  /-- The delivery of the `i`th call of `unlockDiscovery`. -/
  | unlockDiscovery (i : ℕ)
  /-- The delivery of an answer. -/
  | callbackResult (id : ι) (info : POPCSearchNodeInfo)
  /-- The test of the `i`th call of `callbackResult`. -/
  | checkSem (i : ℕ)
  /-- The post of the `i`th call of `callbackResult`. -/
  | postSem (i : ℕ)
deriving DecidableEq

/-! ### The semaphores -/

/-- The launch has a semaphore that it has inserted and not yet erased. -/
def Launch.HoldsSem (l : Launch) : Prop :=
  l.timeout = 0 ∧ l.pc ∉ [.registering, .opening, .inserting, .collecting, .returned]

instance (l : Launch) : Decidable l.HoldsSem := inferInstanceAs (Decidable (_ ∧ _))

/-- The launch has inserted its semaphore and erased it. -/
def Launch.Erased (l : Launch) : Prop := l.timeout = 0 ∧ l.pc ∈ [.collecting, .returned]

instance (l : Launch) : Decidable l.Erased := inferInstanceAs (Decidable (_ ∧ _))

namespace Node

/-- No semaphore has been inserted for the request. -/
def NotInserted (s : Node ι) (id : ι) : Prop :=
  ∀ l ∈ s.launches id, ¬l.HoldsSem ∧ ¬l.Erased

instance (s : Node ι) (id : ι) : Decidable (s.NotInserted id) :=
  inferInstanceAs (Decidable (∀ l ∈ s.launches id, ¬l.HoldsSem ∧ ¬l.Erased))

section handlers

variable [DecidableEq ι]

/-- `reqsem[id]`: `operator[]` makes a null entry where there is none. -/
def lookUp (s : Node ι) (id : ι) : Node ι :=
  { s with
    reqsem := Function.update s.reqsem id (some ((s.reqsem id).getD none))
    early := if s.NotInserted id then id :: s.early else s.early }

/-- `sem_post(reqsem[id])` -/
def semPost (s : Node ι) (id : ι) : Node ι :=
  let sem := (s.reqsem id).getD none
  { s.lookUp id with
    posts := s.posts ++ [sem]
    semValue :=
      match sem with
      | some k => Function.update s.semValue k (s.semValue k + 1)
      | none => s.semValue }

/-- The launch of the request is now `l`. -/
def setLaunch (s : Node ι) (id : ι) (l : Launch) : Node ι :=
  { s with launches := Function.update s.launches id (some l) }

/-! ### The statements -/

/-- The next statement of `launchDiscovery`. -/
def advance (s : Node ι) (id : ι) (l : Launch) : Node ι :=
  match l.pc with
  | .registering =>
      { s.setLaunch id { l with pc := if l.timeout = 0 then .opening else .asking } with
        actualReq := Function.update s.actualReq id (some [])
        log := s.log ++ [.registered id] }
  | .opening =>
      { s.setLaunch id { l with pc := .inserting, currentSem := s.semLogicalClock } with
        semValue := Function.update s.semValue s.semLogicalClock 0
        semLogicalClock := s.semLogicalClock + 1 }
  | .inserting =>
      -- `insert` keeps an entry that is there, a null pointer as well.
      { s.setLaunch id { l with pc := .asking } with
        reqsem := Function.update s.reqsem id (some ((s.reqsem id).getD (some l.currentSem))) }
  | .asking => s.setLaunch id { l with pc := if l.timeout = 0 then .timing else .collecting }
  | .timing =>
      { s.setLaunch id { l with pc := .waiting } with
        timers := Function.update s.timers id (some ⟨true, true, .looping⟩) }
  | .waiting | .waitingAgain =>
      { s.setLaunch id { l with pc := .stopping } with
        semValue := Function.update s.semValue l.currentSem (s.semValue l.currentSem - 1) }
  | .stopping =>
      { s.setLaunch id { l with pc := .erasing } with
        timers := Function.update s.timers id ((s.timers id).map NodeThread.stop) }
  | .erasing =>
      { s.setLaunch id { l with pc := .collecting } with
        reqsem := Function.update s.reqsem id none }
  | .collecting =>
      { s.setLaunch id { l with pc := .returned, results := (s.actualReq id).getD [] } with
        actualReq := Function.update s.actualReq id none
        log := s.log ++ [.collected id] }
  | .returned => s

/-- `POPCSearchNode::callbackResult` up to the end of its section under `actualReqSyn`. -/
def callbackResult (s : Node ι) (id : ι) (info : POPCSearchNodeInfo) : Node ι :=
  { s with
    actualReq :=
      match s.actualReq id with
      | some infos => Function.update s.actualReq id (some (infos.addANodeInfo info))
      | none => s.actualReq
    log := s.log ++ [.delivered id info]
    callbacks := s.callbacks ++ [(id, .checking)] }

/-- The launch may take its next statement. -/
def CanAdvance (s : Node ι) (l : Launch) : Prop :=
  l.pc ≠ .returned ∧ (l.pc = .waiting ∨ l.pc = .waitingAgain → 0 < s.semValue l.currentSem)

instance (s : Node ι) (l : Launch) : Decidable (s.CanAdvance l) :=
  inferInstanceAs (Decidable (_ ∧ _))

end handlers

end Node

variable [DecidableEq ι]

/-- One step of the search node. -/
def step (s : Node ι) : Action ι → Option (Node ι)
  | .launchDiscovery id endRequest timeout =>
      if s.launches id = none then
        some (s.setLaunch id ⟨if endRequest then 1 else timeout, .registering, 0, []⟩)
      else none
  | .advance id =>
      (s.launches id).bind fun l => if s.CanAdvance l then some (s.advance id l) else none
  | .interrupt id =>
      (s.launches id).bind fun l =>
        match l.pc with
        | .waiting => some (s.setLaunch id { l with pc := .waitingAgain })
        | .waitingAgain => some (s.setLaunch id { l with pc := .stopping })
        | _ => none
  | .elapse id =>
      (s.timers id).bind fun t =>
        if t.pc = .looping then
          let t' := { t with running := false, pc := .checking }
          some { s with timers := Function.update s.timers id (some t') }
        else none
  | .checkUnlock id =>
      (s.timers id).bind fun t =>
        if t.pc = .checking then
          some { s with
            timers := Function.update s.timers id (some { t with pc := .ended })
            unlocks := if t.unlock then s.unlocks ++ [id] else s.unlocks }
        else none
  | .unlockDiscovery i =>
      s.unlocks[i]?.map fun id => { s with unlocks := s.unlocks.eraseIdx i }.semPost id
  | .callbackResult id info => some (s.callbackResult id info)
  | .checkSem i =>
      match s.callbacks[i]? with
      | some (id, .checking) =>
          if (s.reqsem id).getD none = none then
            some ({ s with callbacks := s.callbacks.eraseIdx i }.lookUp id)
          else some ({ s with callbacks := s.callbacks.set i (id, .posting) }.lookUp id)
      | _ => none
  | .postSem i =>
      match s.callbacks[i]? with
      | some (id, .posting) =>
          some ({ s with callbacks := s.callbacks.eraseIdx i }.semPost id)
      | _ => none

/-- What a step has found and done. -/
inductive Moves (s t : Node ι) : Action ι → Prop where
  | launchDiscovery {id : ι} {endRequest : Bool} {timeout : ℤ} (hnone : s.launches id = none)
      (ht : t = s.setLaunch id ⟨if endRequest then 1 else timeout, .registering, 0, []⟩) :
      Moves s t (.launchDiscovery id endRequest timeout)
  | advance {id : ι} {l : Launch} (hl : s.launches id = some l) (hcan : s.CanAdvance l)
      (ht : t = s.advance id l) : Moves s t (.advance id)
  | interrupt {id : ι} {l : Launch} {pc : LaunchPc} (hl : s.launches id = some l)
      (hpc : l.pc = .waiting ∧ pc = .waitingAgain ∨ l.pc = .waitingAgain ∧ pc = .stopping)
      (ht : t = s.setLaunch id { l with pc := pc }) : Moves s t (.interrupt id)
  | elapse {id : ι} {th : NodeThread} (hth : s.timers id = some th) (hpc : th.pc = .looping)
      (ht : t = { s with
        timers := Function.update s.timers id
          (some { th with running := false, pc := .checking }) }) : Moves s t (.elapse id)
  | checkUnlock {id : ι} {th : NodeThread} (hth : s.timers id = some th) (hpc : th.pc = .checking)
      (ht : t = { s with
        timers := Function.update s.timers id (some { th with pc := .ended })
        unlocks := if th.unlock then s.unlocks ++ [id] else s.unlocks }) :
      Moves s t (.checkUnlock id)
  | unlockDiscovery {i : ℕ} {id : ι} (hid : s.unlocks[i]? = some id)
      (ht : t = { s with unlocks := s.unlocks.eraseIdx i }.semPost id) :
      Moves s t (.unlockDiscovery i)
  | callbackResult {id : ι} {info : POPCSearchNodeInfo} (ht : t = s.callbackResult id info) :
      Moves s t (.callbackResult id info)
  | checkSem {i : ℕ} {id : ι} (hid : s.callbacks[i]? = some (id, .checking))
      (ht : t = { s with
        callbacks :=
          if (s.reqsem id).getD none = none then s.callbacks.eraseIdx i
          else s.callbacks.set i (id, .posting) }.lookUp id) : Moves s t (.checkSem i)
  | postSem {i : ℕ} {id : ι} (hid : s.callbacks[i]? = some (id, .posting))
      (ht : t = { s with callbacks := s.callbacks.eraseIdx i }.semPost id) : Moves s t (.postSem i)

lemma Moves.of_step {s t : Node ι} {a : Action ι} (hst : step s a = some t) : Moves s t a := by
  cases a with
  | launchDiscovery id endRequest timeout =>
      simp only [step, Option.ite_none_right_eq_some, Option.some.injEq] at hst
      exact .launchDiscovery hst.1 hst.2.symm
  | advance id =>
      obtain ⟨l, hl, hst⟩ := Option.bind_eq_some_iff.mp hst
      simp only [Option.ite_none_right_eq_some, Option.some.injEq] at hst
      exact .advance hl hst.1 hst.2.symm
  | interrupt id =>
      obtain ⟨l, hl, hst⟩ := Option.bind_eq_some_iff.mp hst
      split at hst
      · next hpc => exact .interrupt hl (Or.inl ⟨hpc, rfl⟩) (Option.some.inj hst).symm
      · next hpc => exact .interrupt hl (Or.inr ⟨hpc, rfl⟩) (Option.some.inj hst).symm
      · cases hst
  | elapse id =>
      obtain ⟨th, hth, hst⟩ := Option.bind_eq_some_iff.mp hst
      simp only [Option.ite_none_right_eq_some, Option.some.injEq] at hst
      exact .elapse hth hst.1 hst.2.symm
  | checkUnlock id =>
      obtain ⟨th, hth, hst⟩ := Option.bind_eq_some_iff.mp hst
      simp only [Option.ite_none_right_eq_some, Option.some.injEq] at hst
      exact .checkUnlock hth hst.1 hst.2.symm
  | unlockDiscovery i =>
      obtain ⟨id, hid, hst⟩ := Option.map_eq_some_iff.mp hst
      exact .unlockDiscovery hid hst.symm
  | callbackResult id info => exact .callbackResult (Option.some.inj hst).symm
  | checkSem i =>
      simp only [step] at hst
      split at hst
      · next id hid =>
          refine .checkSem hid ?_
          split at hst
          · next hnull => rw [if_pos hnull, Option.some.inj hst]
          · next hsem => rw [if_neg hsem, Option.some.inj hst]
      · cases hst
  | postSem i =>
      simp only [step] at hst
      split at hst
      · next id hid => exact .postSem hid (Option.some.inj hst).symm
      · cases hst

/-! ### What the sections under the lock do -/

/-- How far a launch is, as far as `actualReq` is concerned. -/
inductive Phase where
  /-- It has no entry yet. -/
  | before
  /-- It has its entry. -/
  | during
  /-- It has taken these results and its entry is erased. -/
  | after (results : POPCSearchNodeInfos)

/-- The phase of a launch. -/
def Launch.phase (l : Launch) : Phase :=
  match l.pc with
  | .registering => .before
  | .returned => .after l.results
  | _ => .during

/-- The phase of a request. -/
def Node.phase (s : Node ι) (id : ι) : Phase :=
  match s.launches id with
  | some l => l.phase
  | none => .before

/-- What a section does to the entry of the request `id`. -/
def Event.record (id : ι) (entry : Option POPCSearchNodeInfos) :
    Event ι → Option POPCSearchNodeInfos
  | .registered i => if i = id then some [] else entry
  | .delivered i info => if i = id then entry.map fun infos => infos.addANodeInfo info else entry
  | .collected i => if i = id then none else entry

/-- The event is the registration or the collection of the request. -/
def Event.IsMark (id : ι) : Event ι → Prop
  | .registered i => i = id
  | .delivered _ _ => False
  | .collected i => i = id

/-- What a step can do to the entry of one request: nothing but deliveries, or the registration
or the collection of the request. -/
inductive Effect (s t : Node ι) (id : ι) : Prop where
  /-- Deliveries, and what is done to other requests. -/
  | stay (evs : List (Event ι)) (hlog : t.log = s.log ++ evs)
      (hentry : t.actualReq id = evs.foldl (Event.record id) (s.actualReq id))
      (hmark : ∀ e ∈ evs, ¬e.IsMark id) (hphase : t.phase id = s.phase id)
  /-- The registration. -/
  | register (hlog : t.log = s.log ++ [.registered id]) (hentry : t.actualReq id = some [])
      (hbefore : s.phase id = .before) (hphase : t.phase id = .during)
  /-- The collection. -/
  | collect (hlog : t.log = s.log ++ [.collected id]) (hentry : t.actualReq id = none)
      (hduring : s.phase id = .during) (hphase : t.phase id = .after ((s.actualReq id).getD []))

variable {s t : Node ι} {id : ι}

lemma Effect.of_eq (hlog : t.log = s.log) (hentry : t.actualReq = s.actualReq)
    (hphase : t.phase id = s.phase id) : Effect s t id :=
  .stay [] (by simp [hlog]) (by simp [hentry]) (by simp) hphase

omit [DecidableEq ι] in
lemma phase_congr {s t : Node ι} (h : t.launches id = s.launches id) :
    t.phase id = s.phase id := by
  simp [Node.phase, h]

/-- A launch that goes on without touching `actualReq`. -/
lemma Effect.of_setLaunch {i : ι} {l l' : Launch} (hl : s.launches i = some l)
    (hlog : t.log = s.log) (hentry : t.actualReq = s.actualReq)
    (hlaunches : t.launches = Function.update s.launches i (some l'))
    (hphase : l'.phase = l.phase) : Effect s t id := by
  refine .of_eq hlog hentry ?_
  by_cases hi : id = i
  · subst hi
    simp [Node.phase, hlaunches, hl, hphase]
  · exact phase_congr (by simp [hlaunches, hi])

lemma effect_advance {i : ι} {l : Launch} (hl : s.launches i = some l) :
    Effect s (s.advance i l) id := by
  obtain ⟨timeout, pc, currentSem, results⟩ := l
  cases pc with
  | registering =>
      by_cases hi : id = i
      · subst hi
        refine .register rfl (by simp [Node.advance]) (by simp [Node.phase, hl, Launch.phase]) ?_
        by_cases hzero : timeout = 0 <;>
          simp [Node.advance, Node.phase, Node.setLaunch, Launch.phase, hzero]
      · refine .stay [.registered i] rfl ?_ (by simpa [Event.IsMark] using Ne.symm hi) ?_
        · simp [Node.advance, Event.record, hi, Ne.symm hi]
        · exact phase_congr (by simp [Node.advance, Node.setLaunch, hi])
  | collecting =>
      by_cases hi : id = i
      · subst hi
        refine .collect rfl (by simp [Node.advance]) (by simp [Node.phase, hl, Launch.phase]) ?_
        simp [Node.advance, Node.phase, Node.setLaunch, Launch.phase]
      · refine .stay [.collected i] rfl ?_ (by simpa [Event.IsMark] using Ne.symm hi) ?_
        · simp [Node.advance, Event.record, hi, Ne.symm hi]
        · exact phase_congr (by simp [Node.advance, Node.setLaunch, hi])
  | asking =>
      refine .of_setLaunch hl rfl rfl rfl ?_
      by_cases hzero : timeout = 0 <;> simp [Launch.phase, hzero]
  | returned => exact .of_eq rfl rfl rfl
  | _ => exact .of_setLaunch hl rfl rfl rfl rfl

lemma effect_callbackResult (i : ι) (info : POPCSearchNodeInfo) :
    Effect s (s.callbackResult i info) id := by
  refine .stay [.delivered i info] rfl ?_ (by simp [Event.IsMark]) rfl
  by_cases hi : id = i
  · subst hi
    cases h : s.actualReq id <;> simp [Node.callbackResult, Event.record, h]
  · cases h : s.actualReq i <;> simp [Node.callbackResult, Event.record, h, hi, Ne.symm hi]

/-- What a step can do. -/
lemma effect_step {a : Action ι} (hst : step s a = some t) (id : ι) : Effect s t id := by
  cases Moves.of_step hst with
  | @launchDiscovery i endRequest timeout hnone ht =>
      subst ht
      refine .of_eq rfl rfl ?_
      by_cases hi : id = i
      · subst hi
        simp [Node.phase, Node.setLaunch, Launch.phase, hnone]
      · exact phase_congr (by simp [Node.setLaunch, hi])
  | advance hl _ ht => exact ht ▸ effect_advance hl
  | interrupt hl hpc ht =>
      rcases hpc with ⟨hpc, rfl⟩ | ⟨hpc, rfl⟩
      · exact ht ▸ .of_setLaunch hl rfl rfl rfl (by simp [Launch.phase, hpc])
      · exact ht ▸ .of_setLaunch hl rfl rfl rfl (by simp [Launch.phase, hpc])
  | callbackResult ht => exact ht ▸ effect_callbackResult _ _
  | elapse _ _ ht | checkUnlock _ _ ht | unlockDiscovery _ ht | checkSem _ ht | postSem _ ht =>
      exact ht ▸ .of_eq rfl rfl rfl

/-! ### What a discovery returns -/

/-- The infos of the answers to the request, in the order of their delivery. -/
def infosOf (id : ι) (log : List (Event ι)) : POPCSearchNodeInfos :=
  log.filterMap fun
    | .delivered i info => if i = id then some info else none
    | _ => none

/-- No registration or collection of the request. -/
def Unmarked (id : ι) (log : List (Event ι)) : Prop := ∀ e ∈ log, ¬e.IsMark id

omit [DecidableEq ι] in
lemma Unmarked.append {l₁ l₂ : List (Event ι)} (h₁ : Unmarked id l₁) (h₂ : Unmarked id l₂) :
    Unmarked id (l₁ ++ l₂) := by
  intro e he
  rcases List.mem_append.mp he with he | he
  · exact h₁ e he
  · exact h₂ e he

/-- Between the marks of a request its entry collects the answers to it. -/
lemma foldl_record {evs : List (Event ι)} (h : Unmarked id evs)
    (entry : Option POPCSearchNodeInfos) :
    evs.foldl (Event.record id) entry = entry.map fun infos => infos ++ infosOf id evs := by
  induction evs generalizing entry with
  | nil => cases entry <;> simp [infosOf]
  | cons e evs ih =>
      have he : ¬e.IsMark id := h e List.mem_cons_self
      rw [List.foldl_cons, ih fun e he => h e (List.mem_cons_of_mem _ he)]
      cases e with
      | registered i =>
          have hi : ¬i = id := he
          simp [Event.record, infosOf, hi]
      | collected i =>
          have hi : ¬i = id := he
          simp [Event.record, infosOf, hi]
      | delivered i info =>
          by_cases hi : i = id
          · cases entry <;> simp [Event.record, infosOf, POPCSearchNodeInfos.addANodeInfo, hi]
          · simp [Event.record, infosOf, hi]

/-- The log of a node agrees with the entry of a request and with the phase of its launch. -/
def Recorded (s : Node ι) (id : ι) : Prop :=
  match s.phase id with
  | .before => Unmarked id s.log ∧ s.actualReq id = none
  | .during => ∃ l₁ l₂, s.log = l₁ ++ .registered id :: l₂ ∧ Unmarked id l₁ ∧ Unmarked id l₂ ∧
      s.actualReq id = some (infosOf id l₂)
  | .after results => ∃ l₁ l₂ l₃,
      s.log = l₁ ++ .registered id :: (l₂ ++ .collected id :: l₃) ∧ Unmarked id l₁ ∧
      Unmarked id l₂ ∧ Unmarked id l₃ ∧ results = infosOf id l₂ ∧ s.actualReq id = none

lemma Recorded.step {a : Action ι} (h : Recorded s id) (hst : Results.step s a = some t) :
    Recorded t id := by
  unfold Recorded at h ⊢
  cases effect_step hst id with
  | stay evs hlog hentry hmark hphase =>
      rw [hphase]
      rw [foldl_record hmark] at hentry
      cases hp : s.phase id with
      | before =>
          simp only [hp] at h ⊢
          obtain ⟨hun, hnone⟩ := h
          exact ⟨hlog ▸ hun.append hmark, by simp [hentry, hnone]⟩
      | during =>
          simp only [hp] at h ⊢
          obtain ⟨l₁, l₂, heq, h₁, h₂, hsome⟩ := h
          refine ⟨l₁, l₂ ++ evs, by simp [hlog, heq], h₁, h₂.append hmark, ?_⟩
          simp [hentry, hsome, infosOf]
      | after results =>
          simp only [hp] at h ⊢
          obtain ⟨l₁, l₂, l₃, heq, h₁, h₂, h₃, hres, hnone⟩ := h
          refine ⟨l₁, l₂, l₃ ++ evs, by simp [hlog, heq], h₁, h₂, h₃.append hmark, hres, ?_⟩
          simp [hentry, hnone]
  | register hlog hentry hbefore hphase =>
      simp only [hbefore] at h
      simp only [hphase]
      exact ⟨s.log, [], hlog, h.1, by simp [Unmarked], by simpa [infosOf] using hentry⟩
  | collect hlog hentry hduring hphase =>
      simp only [hduring] at h
      simp only [hphase]
      obtain ⟨l₁, l₂, heq, h₁, h₂, hsome⟩ := h
      refine ⟨l₁, l₂, [], by simp [hlog, heq], h₁, h₂, by simp [Unmarked], ?_, hentry⟩
      simp [hsome]

lemma recorded_of_reachable (h : Transition.Reachable Results.step init s) (id : ι) :
    Recorded s id :=
  h.invariant (I := fun s => Recorded s id) ⟨by simp [Unmarked, init], rfl⟩
    fun _ _ _ _ hs hst => hs.step hst

/-- **Results.**  What a `launchDiscovery` that has returned gives its caller are the infos of
the answers to its request that were delivered between its registration and its collection,
each once and in the order of their delivery. -/
theorem returned_eq_infosOf (h : Transition.Reachable Results.step init s) {l : Launch}
    (hl : s.launches id = some l) (hreturned : l.pc = .returned) :
    ∃ l₁ l₂ l₃, s.log = l₁ ++ .registered id :: (l₂ ++ .collected id :: l₃) ∧
      Unmarked id l₁ ∧ Unmarked id l₂ ∧ Unmarked id l₃ ∧
      POPCSearchNodeInfos.returned l.results = some (infosOf id l₂) := by
  have hrec := recorded_of_reachable h id
  have hphase : s.phase id = .after l.results := by simp [Node.phase, hl, Launch.phase, hreturned]
  simp only [Recorded, hphase] at hrec
  obtain ⟨l₁, l₂, l₃, heq, h₁, h₂, h₃, hres, -⟩ := hrec
  exact ⟨l₁, l₂, l₃, heq, h₁, h₂, h₃, by rw [POPCSearchNodeInfos.returned_eq, hres]⟩

/-- The info of a node. -/
def sampleInfo (nodeId : String) : POPCSearchNodeInfo :=
  ⟨nodeId, "Linux", 100#32, 2000#32, 512#32, 100#32, 10#32, "socket", "xdr", ""⟩

/-- Two discoveries at a time; the answer "c" comes for an id that nobody has, and "d" when the
first discovery has collected its results. -/
def twoDiscoveries : List (Action ℕ) :=
  [.launchDiscovery 0 false 10, .launchDiscovery 1 false 10, .advance 0, .advance 1, .advance 0,
    .callbackResult 0 (sampleInfo "a"), .callbackResult 1 (sampleInfo "b"),
    .callbackResult 2 (sampleInfo "c"), .advance 0, .callbackResult 0 (sampleInfo "d")]

/-- The first of the two discoveries returns its one answer. -/
theorem returned_eq_infosOf_two :
    ∃ s l, Transition.run Results.step init twoDiscoveries = some s ∧ s.launches 0 = some l ∧
      l.results = [sampleInfo "a"] ∧
      ∃ l₁ l₂ l₃, s.log = l₁ ++ .registered 0 :: (l₂ ++ .collected 0 :: l₃) ∧
        Unmarked 0 l₁ ∧ Unmarked 0 l₂ ∧ Unmarked 0 l₃ ∧
        POPCSearchNodeInfos.returned l.results = some (infosOf 0 l₂) := by
  have hrun : (Transition.run Results.step init twoDiscoveries).bind (fun s => s.launches 0) =
      some ⟨10, .returned, 0, [sampleInfo "a"]⟩ := rfl
  obtain ⟨s, hs, hl⟩ := Option.bind_eq_some_iff.mp hrun
  exact ⟨s, _, hs, hl, rfl, returned_eq_infosOf ⟨_, hs⟩ hl rfl⟩

end Results

end Discovery
