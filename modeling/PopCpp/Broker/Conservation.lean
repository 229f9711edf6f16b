/-
# No request is lost and none is executed twice

A request travels by copy: from the receive thread into the queue, into a variable of the
serving thread, into a thread object.  This file shows that the copies never multiply: the
requests for which `RegisterRequest` has been called are, each exactly once, in the hands of
a receive thread, in `request_fifo`, handed to an execution, finished, or left behind by an
exception in sending a reply.  Since every request is new when it is registered, the lists
of these places are disjoint, and a request begins at most once.
-/
import PopCpp.Broker.Locks
import Mathlib.Data.List.Nodup

namespace PopCpp.Broker

/-! ### Places -/

/-- The requests that were appended to `request_fifo`, in that order. -/
def appended (trace : List Event) : List Request :=
  trace.filterMap fun
    | .append r => some r
    | _ => none

/-- The requests whose method body has begun, in that order. -/
def started (trace : List Event) : List Request :=
  trace.filterMap fun
    | .start r => some r
    | _ => none

/-- The requests the broker is done with. -/
def finished (trace : List Event) : List Request :=
  trace.filterMap fun
    | .retire r => some r
    | .drop r => some r
    | _ => none

/-- The requests whose counter was left behind by an exception in sending a reply. -/
def leaked (trace : List Event) : List Request :=
  trace.filterMap fun
    | .leak r => some r
    | _ => none

/-- The requests in `RegisterRequest` that have been neither queued nor handed to an
execution. -/
def registering (s : State) : List Request := s.recv.flatMap RecvPc.registering

/-- The requests in `RegisterRequest` that are about to be queued; `mutexCount` has been
raised for the mutex requests among them. -/
def announced (s : State) : List Request := s.recv.flatMap RecvPc.announced

/-- The requests handed to an execution: in the hands of the serving thread or of a thread
object. -/
def handed (s : State) : List Request :=
  s.recv.flatMap RecvPc.handing ++ s.serve.held ++ s.threads.map Invocation.request

/-- The executions of concurrent requests, from the making of the thread object to its
destruction. -/
def executions (s : State) : List Request :=
  s.recv.flatMap RecvPc.handing ++ s.serve.handing ++ s.threads.map Invocation.request

/-- Sending an exception reply throws. -/
def Action.replyFails : Action → Bool
  | .createThrows _ _ => true
  | .serveCreateThrows _ _ => true
  | .replyThrows _ _ => true
  | _ => false

/-! ### The balance of requests -/

section Balance

variable (p : Request → Bool)

/-- Where a request counted by `p` can be, against the requests that entered. -/
def balance : Weight where
  recv pc := pc.registering.countP p + pc.handing.countP p
  serve pc := pc.held.countP p
  thread x := [x.request].countP p
  queued r := [r].countP p
  event
    | .enter r => -[r].countP p
    | .retire r => [r].countP p
    | .drop r => [r].countP p
    | .leak r => [r].countP p
    | _ => 0

/-- The request in the hands of the serving thread whose body has not begun there. -/
def ServePc.unstarted : ServePc → List Request
  | .waiting r => [r]
  | .serving r => [r]
  | .creating r => [r]
  | _ => []

/-- The request of a thread whose body has not begun. -/
def Invocation.unstarted : Invocation → List Request
  | ⟨r, .created⟩ => [r]
  | _ => []

/-- Where a request that has not begun can be, and those that have begun, against the
requests that entered. -/
def starts : Weight where
  recv pc := pc.registering.countP p + pc.handing.countP p
  serve pc := pc.unstarted.countP p
  thread x := x.unstarted.countP p
  queued r := [r].countP p
  event
    | .enter r => -[r].countP p
    | .start r => [r].countP p
    | _ => 0

variable {p} {s : State} {a : Action}

/-- Every action moves one request or none. -/
lemma gain_balance (he : Enabled s a) : (balance p).gain s a = 0 := by
  cases a with
  | get =>
      obtain ⟨r, -, hpc, hgain⟩ := (balance p).gain_get he
      rw [hgain]
      rcases hpc with hpc | ⟨hpc, -⟩ <;> simp [hpc, balance, ServePc.held]
  | registerRequest t r =>
      by_cases hcm : r.isConc = true ∨ r.isMutex = true <;>
        simp [Weight.gain, balance, RecvPc.registering, RecvPc.handing, hcm]
  | testMutex t r =>
      by_cases hmc : s.mutexCount ≤ 0 <;>
        simp [Weight.gain, balance, RecvPc.registering, RecvPc.handing, hmc]
  | push t r =>
      by_cases hc : r.isConc = true <;>
        simp [Weight.gain, balance, RecvPc.registering, RecvPc.handing, hc]
  | serveCreate r =>
      rcases afterServe_cases s r with hpc | hpc <;>
        simp [Weight.gain, balance, ServePc.held, hpc]
  | serveCreateFails r =>
      rcases afterServe_cases s r with hpc | hpc <;>
        simp [Weight.gain, balance, ServePc.held, hpc]
  | release r =>
      rcases afterServe_cases s r with hpc | hpc <;>
        simp [Weight.gain, balance, ServePc.held, hpc]
  | _ =>
      simp [Weight.gain, balance, RecvPc.registering, RecvPc.handing, ServePc.held]

/-- An action that begins a body takes the request from those that have not begun. -/
lemma gain_starts (he : Enabled s a) : (starts p).gain s a ≤ 0 := by
  cases a with
  | get =>
      obtain ⟨r, -, hpc, hgain⟩ := (starts p).gain_get he
      rw [hgain]
      rcases hpc with hpc | ⟨hpc, -⟩ <;> simp [hpc, starts, ServePc.unstarted]
  | registerRequest t r =>
      by_cases hcm : r.isConc = true ∨ r.isMutex = true <;>
        simp [Weight.gain, starts, RecvPc.registering, RecvPc.handing, hcm]
  | testMutex t r =>
      by_cases hmc : s.mutexCount ≤ 0 <;>
        simp [Weight.gain, starts, RecvPc.registering, RecvPc.handing, hmc]
  | push t r =>
      by_cases hc : r.isConc = true <;>
        simp [Weight.gain, starts, RecvPc.registering, RecvPc.handing, hc]
  | serveCreate r =>
      rcases afterServe_cases s r with hpc | hpc <;>
        simp [Weight.gain, starts, ServePc.unstarted, Invocation.unstarted, hpc]
  -- four actions give a request up before its body begins
  | createFails t r =>
      have hcount := Int.natCast_nonneg ([r].countP p)
      simpa [Weight.gain, starts, RecvPc.registering, RecvPc.handing] using hcount
  | createThrows t r =>
      have hcount := Int.natCast_nonneg ([r].countP p)
      simpa [Weight.gain, starts, RecvPc.registering, RecvPc.handing] using hcount
  | serveCreateFails r =>
      have hcount := Int.natCast_nonneg ([r].countP p)
      rcases afterServe_cases s r with hpc | hpc
      · simpa [Weight.gain, starts, ServePc.unstarted, hpc] using hcount
      · simpa [Weight.gain, starts, ServePc.unstarted, hpc] using hcount
  | serveCreateThrows r aborts =>
      have hcount := Int.natCast_nonneg ([r].countP p)
      simpa [Weight.gain, starts, ServePc.unstarted] using hcount
  | release r =>
      rcases afterServe_cases s r with hpc | hpc <;>
        simp [Weight.gain, starts, ServePc.unstarted, hpc]
  | _ =>
      simp [Weight.gain, starts, RecvPc.registering, RecvPc.handing, ServePc.unstarted,
        Invocation.unstarted]

lemma sum_event_balance (trace : List Event) :
    (trace.map (balance p).event).sum =
      (finished trace).countP p + (leaked trace).countP p - (entered trace).countP p := by
  induction trace with
  | nil => rfl
  | cons e trace ih =>
      rw [List.map_cons, List.sum_cons, ih]
      cases e <;>
        simp [balance, finished, leaked, entered, List.countP_cons] <;> ring

lemma sum_event_starts (trace : List Event) :
    (trace.map (starts p).event).sum = (started trace).countP p - (entered trace).countP p := by
  induction trace with
  | nil => rfl
  | cons e trace ih =>
      rw [List.map_cons, List.sum_cons, ih]
      cases e <;> simp [starts, started, entered, List.countP_cons] <;> ring

variable {n : ℕ}

lemma Reachable.balance_eq (h : Reachable n s) : (balance p).total s = 0 := by
  refine Transition.Reachable.invariant (I := fun s => (balance p).total s = 0) h
    ((balance p).total_init n rfl rfl) fun s a t _ hs hst => ?_
  obtain ⟨he, rfl⟩ := step_eq_some.mp hst
  rw [(balance p).total_next he, hs, gain_balance he, add_zero]

lemma Reachable.starts_le (h : Reachable n s) : (starts p).total s ≤ 0 := by
  refine Transition.Reachable.invariant (I := fun s => (starts p).total s ≤ 0) h
    ((starts p).total_init n rfl rfl).le fun s a t _ hs hst => ?_
  obtain ⟨he, rfl⟩ := step_eq_some.mp hst
  rw [(starts p).total_next he]
  exact add_nonpos hs (gain_starts he)

/-- **Conservation.**  The requests of each kind, counted place by place. -/
theorem Reachable.countP_entered (h : Reachable n s) (p : Request → Bool) :
    (entered s.trace).countP p = (registering s).countP p + s.fifo.countP p +
      (handed s).countP p + (finished s.trace).countP p + (leaked s.trace).countP p := by
  have htotal := h.balance_eq (p := p)
  have hrecv : (s.recv.map (balance p).recv).sum =
      (registering s).countP p + (s.recv.flatMap RecvPc.handing).countP p := by
    rw [registering, ← ListEdit.sum_map_countP, ← ListEdit.sum_map_countP, ← List.sum_map_add]
    rfl
  have hthreads : (s.threads.map (balance p).thread).sum =
      ((s.threads.map Invocation.request).countP p : ℤ) :=
    ListEdit.sum_map_countP_singleton Invocation.request p s.threads
  have hfifo : (s.fifo.map (balance p).queued).sum = (s.fifo.countP p : ℤ) := by
    have hmap := ListEdit.sum_map_countP_singleton id p s.fifo
    rw [List.map_id] at hmap
    exact hmap
  have hserve : (balance p).serve s.serve = (s.serve.held.countP p : ℤ) := rfl
  rw [Weight.total, hrecv, hthreads, hfifo, hserve, sum_event_balance] at htotal
  simp only [handed, List.countP_append]
  omega

lemma Reachable.countP_started_le (h : Reachable n s) (p : Request → Bool) :
    (started s.trace).countP p ≤ (entered s.trace).countP p := by
  have htotal := h.starts_le (p := p)
  have hrecv := Weight.sum_map_nonneg (f := (starts p).recv)
    (fun pc => by simp only [starts]; omega) s.recv
  have hserve : 0 ≤ (starts p).serve s.serve := Int.natCast_nonneg _
  have hthreads := Weight.sum_map_nonneg (f := (starts p).thread)
    (fun _ => Int.natCast_nonneg _) s.threads
  have hfifo := Weight.sum_map_nonneg (f := (starts p).queued)
    (fun _ => Int.natCast_nonneg _) s.fifo
  rw [Weight.total, sum_event_starts] at htotal
  omega

end Balance

/-! ### Every request is new when it is registered -/

variable {n : ℕ} {s : State}

@[simp] lemma entered_append (tr tr' : List Event) :
    entered (tr ++ tr') = entered tr ++ entered tr' :=
  List.filterMap_append ..

lemma Reachable.map_uid_entered (h : Reachable n s) :
    (entered s.trace).map Request.uid = List.range (entered s.trace).length := by
  refine Transition.Reachable.invariant
    (I := fun s => (entered s.trace).map Request.uid = List.range (entered s.trace).length)
    h rfl fun s a t _ hs hst => ?_
  obtain ⟨he, rfl⟩ := step_eq_some.mp hst
  rw [trace_next, entered_append]
  cases a with
  | registerRequest t r =>
      have hone : entered (Action.registerRequest t r).events = [r] := rfl
      rw [hone, List.map_append, hs, List.length_append, List.length_singleton, List.range_succ,
        List.map_singleton, he.2.2]
  | _ => simpa [Action.events, entered] using hs

lemma Reachable.nodup_entered (h : Reachable n s) : (entered s.trace).Nodup := by
  refine List.Nodup.of_map Request.uid ?_
  rw [h.map_uid_entered]
  exact List.nodup_range

/-- A request is in one place at most, and at most once. -/
lemma Reachable.count_places_le (h : Reachable n s) (r : Request) :
    (registering s).count r + s.fifo.count r + (handed s).count r + (finished s.trace).count r +
      (leaked s.trace).count r ≤ 1 := by
  have hcount := h.countP_entered (· == r)
  have hle := List.nodup_iff_count.mp h.nodup_entered r
  simp only [List.count] at hle ⊢
  omega

/-- No request is executed twice. -/
lemma Reachable.nodup_started (h : Reachable n s) : (started s.trace).Nodup := by
  refine List.nodup_iff_count.mpr fun r => ?_
  have hle := List.nodup_iff_count.mp h.nodup_entered r
  exact le_trans (h.countP_started_le (· == r)) hle

/-! ### Runs in which every reply can be sent -/

lemma leaked_eq_nil {as : List Action} (hrun : Transition.run step (init n) as = some s)
    (hreply : ∀ a ∈ as, a.replyFails = false) : leaked s.trace = [] := by
  refine Transition.run_invariant_along (P := fun _ a => a.replyFails = false)
    (I := fun s => leaked s.trace = []) (fun s a t hs hok hst => ?_) rfl
    (Transition.along_of_forall fun _ => hreply) hrun
  obtain ⟨-, rfl⟩ := step_eq_some.mp hst
  rw [trace_next, leaked, List.filterMap_append, ← leaked, hs]
  cases a <;> first | rfl | exact absurd hok (by simp [Action.replyFails])

lemma sum_event_objects (trace : List Event) :
    (trace.map objects.event).sum = (leaked trace).countP Request.isConc := by
  induction trace with
  | nil => rfl
  | cons e trace ih =>
      rw [List.map_cons, List.sum_cons, ih]
      cases e <;> simp [objects, leaked, List.countP_cons, add_comm]

lemma sum_event_mutexes (trace : List Event) :
    (trace.map mutexes.event).sum = (leaked trace).countP Request.isMutex := by
  induction trace with
  | nil => rfl
  | cons e trace ih =>
      rw [List.map_cons, List.sum_cons, ih]
      cases e <;> simp [mutexes, leaked, List.countP_cons, add_comm]

/-- `instanceCount` counts the executions of concurrent requests. -/
lemma Safe.instanceCount_eq (h : Safe s) (hleak : leaked s.trace = []) :
    s.instanceCount = (executions s).length := by
  have hrecv : (s.recv.map objects.recv).sum = ((s.recv.flatMap RecvPc.handing).length : ℤ) := by
    have hsum := ListEdit.sum_map_countP RecvPc.handing (fun _ => true) s.recv
    simp only [List.countP_true] at hsum
    exact hsum
  have hserve : objects.serve s.serve = (s.serve.handing.length : ℤ) := rfl
  rw [h.instance_eq, Weight.total, hrecv, hserve, sum_event_objects, hleak]
  simp [executions, objects, add_assoc]

/-- `mutexCount` counts the mutex requests that have been announced and are not finished. -/
lemma Safe.mutexCount_eq (h : Safe s) (hleak : leaked s.trace = []) :
    s.mutexCount = ((announced s ++ s.fifo ++ handed s).countP Request.isMutex : ℤ) := by
  have hrecv : (s.recv.map mutexes.recv).sum = ((announced s).countP Request.isMutex : ℤ) :=
    ListEdit.sum_map_countP RecvPc.announced Request.isMutex s.recv
  have hserve : mutexes.serve s.serve = (s.serve.held.countP Request.isMutex : ℤ) := rfl
  have hfifo : (s.fifo.map mutexes.queued).sum = (s.fifo.countP Request.isMutex : ℤ) := by
    have := ListEdit.sum_map_countP_singleton id Request.isMutex s.fifo
    simpa [mutexes, List.countP_singleton] using this
  -- the requests of thread objects are concurrent
  have hhanding : (s.recv.flatMap RecvPc.handing).countP Request.isMutex = 0 := by
    refine List.countP_eq_zero.mpr fun r hr => ?_
    obtain ⟨pc, hpc, hrpc⟩ := List.mem_flatMap.mp hr
    have hty := h.recv_typed pc hpc
    cases pc with
    | creating q =>
        obtain rfl : r = q := by simpa [RecvPc.handing] using hrpc
        simp [hty.2.isMutex_eq_false hty.1]
    | _ => simp [RecvPc.handing] at hrpc
  have hthreads : (s.threads.map Invocation.request).countP Request.isMutex = 0 := by
    refine List.countP_eq_zero.mpr fun r hr => ?_
    obtain ⟨x, hx, rfl⟩ := List.mem_map.mp hr
    have hty := h.threads_typed x hx
    simp [hty.2.isMutex_eq_false hty.1]
  rw [h.mutex_eq, Weight.total, hrecv, hserve, hfifo, sum_event_mutexes, hleak]
  simp [handed, hhanding, hthreads, mutexes]
  ring

lemma count_true_eq_one {a b c d : ℕ} (h : a + b + c + d = 1) :
    [decide (0 < a), decide (0 < b), decide (0 < c), decide (0 < d)].count true = 1 := by
  obtain ⟨rfl, rfl, rfl, rfl⟩ | ⟨rfl, rfl, rfl, rfl⟩ | ⟨rfl, rfl, rfl, rfl⟩ | ⟨rfl, rfl, rfl, rfl⟩ :
      (a = 1 ∧ b = 0 ∧ c = 0 ∧ d = 0) ∨ (a = 0 ∧ b = 1 ∧ c = 0 ∧ d = 0) ∨
        (a = 0 ∧ b = 0 ∧ c = 1 ∧ d = 0) ∨ (a = 0 ∧ b = 0 ∧ c = 0 ∧ d = 1) := by omega
  all_goals decide

/-- **Request conservation.**  In every run in which exception replies can be sent, no
request is executed twice, every request given to `RegisterRequest` is in exactly one of four
places, and the two counters count what they are for. -/
theorem request_conservation (n : ℕ) (as : List Action) (s : State)
    (hrun : Transition.run step (init n) as = some s)
    (hreply : ∀ a ∈ as, a.replyFails = false) :
    (started s.trace).Nodup ∧
      (∀ r ∈ entered s.trace,
        [decide (r ∈ registering s), decide (r ∈ s.fifo), decide (r ∈ handed s),
          decide (r ∈ finished s.trace)].count true = 1) ∧
      s.instanceCount = (executions s).length ∧
      s.mutexCount = ((announced s ++ s.fifo ++ handed s).countP Request.isMutex : ℤ) := by
  have hreach : Reachable n s := ⟨as, hrun⟩
  have hleak := leaked_eq_nil hrun hreply
  refine ⟨hreach.nodup_started, fun r hr => ?_, hreach.safe.instanceCount_eq hleak,
    hreach.safe.mutexCount_eq hleak⟩
  have hcount := hreach.countP_entered (· == r)
  have hone : (entered s.trace).count r = 1 :=
    List.count_eq_one_of_mem hreach.nodup_entered hr
  rw [hleak, List.countP_nil, ← List.count, hone] at hcount
  simp only [← List.count_pos_iff]
  exact count_true_eq_one hcount.symm

/-- A mutex request is executed, a concurrent one is being executed, and a third has been counted
by `RegisterRequest` and is not yet queued. -/
def executedRun : List Action :=
  let m : Request := ⟨0, INVOKE_MUTEX⟩
  let c : Request := ⟨1, INVOKE_CONC⟩
  let d : Request := ⟨2, INVOKE_MUTEX⟩
  [.registerRequest 0 m, .countMutex 0 m, .push 0 m, .returnRegister 0 1, .callGet, .get,
    .mutexReady m, .startServe m, .registerRequest 0 c, .testMutex 0 c, .push 0 c,
    .countConc 0 c 1, .finishServe m ⟨false, false⟩, .release m, .callGet, .get,
    .serveConstruct c, .serveCreate c, .startInvoke 0 c, .returnRegister 0 1,
    .registerRequest 0 d, .countMutex 0 d]

theorem request_conservation_executedRun :
    ∃ s, Transition.run step (init 1) executedRun = some s ∧
      started s.trace = [⟨0, INVOKE_MUTEX⟩, ⟨1, INVOKE_CONC⟩] ∧ (started s.trace).Nodup ∧
      (∀ r ∈ entered s.trace,
        [decide (r ∈ registering s), decide (r ∈ s.fifo), decide (r ∈ handed s),
          decide (r ∈ finished s.trace)].count true = 1) ∧
      s.instanceCount = (executions s).length ∧
      s.mutexCount = ((announced s ++ s.fifo ++ handed s).countP Request.isMutex : ℤ) := by
  obtain ⟨s, hrun, hstarted⟩ : ∃ s, Transition.run step (init 1) executedRun = some s ∧
      started s.trace = [⟨0, INVOKE_MUTEX⟩, ⟨1, INVOKE_CONC⟩] := ⟨_, rfl, rfl⟩
  exact ⟨s, hrun, hstarted, request_conservation 1 executedRun s hrun (by decide)⟩

/-- A mutex request that `RegisterRequest` has counted and not yet queued. -/
def announceRun : List Action :=
  [.registerRequest 0 ⟨0, INVOKE_MUTEX⟩, .countMutex 0 ⟨0, INVOKE_MUTEX⟩]

/-- Between `mutexCount++` and `push_back` no thread is in a critical section, `mutexCount`
is 1, and the request is neither in the queue nor handed to an execution nor finished; no
request has been appended at all. -/
theorem announced_in_no_place :
    ∃ s, Transition.run step (init 1) announceRun = some s ∧
      (∀ a ∈ announceRun, a.replyFails = false) ∧ s.mutexCond = none ∧
      entered s.trace = [⟨0, INVOKE_MUTEX⟩] ∧ s.mutexCount = 1 ∧ appended s.trace = [] ∧
      ⟨0, INVOKE_MUTEX⟩ ∉ s.fifo ∧ ⟨0, INVOKE_MUTEX⟩ ∉ handed s ∧
      ⟨0, INVOKE_MUTEX⟩ ∉ finished s.trace :=
  ⟨_, rfl, by decide, rfl, rfl, rfl, rfl, by decide, by decide, by decide⟩

end PopCpp.Broker
