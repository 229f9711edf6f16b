/-
# The counter of pending concurrent requests

`concPendings` is there to tell `GetRequest` whether the scan for a concurrent request is
worth it.  `RegisterRequest` raises it after the request is in the queue and `execCond` has
been released, and `GetRequest` lowers it when the scan finds a request.  In between the
serving thread can see a concurrent request at the front with `concPendings` still 0, and
takes it like any other without counting it down.  The counter is then too high by one, and
nothing ever brings it back: this file shows that the difference between the counter and the
number of concurrent requests in the queue is exactly the number of times this has happened.
-/
import PopCpp.Broker.Step

namespace PopCpp.Broker

/-- The concurrent requests that `concPendings` should count. -/
def pendings : Weight where
  recv
    | .pushed _ _ => -1
    | _ => 0
  serve _ := 0
  thread _ := 0
  queued r := if r.isConc then 1 else 0
  event _ := 0

/-- By how much `concPendings` is too high. -/
def drift (s : State) : ℤ := s.concPendings - pendings.total s

/-- The first request of the queue is concurrent and `concPendings` is 0. -/
def Uncounted (s : State) : Prop := s.concPendings = 0 ∧ ∃ r ∈ s.fifo.head?, r.isConc = true

/-- The step is not a `GetRequest` on an uncounted request. -/
def Counted (s : State) (a : Action) : Prop := a = .get → ¬Uncounted s

/-- No thread is inside `RegisterRequest` or `GetRequest`. -/
def Quiet (s : State) : Prop :=
  (∀ pc ∈ s.recv, pc = .idle ∨ pc = .stopped) ∧ s.serve ≠ .getting ∧ ∀ r, s.serve ≠ .waiting r

variable {s : State} {a : Action}

lemma drift_next (he : Enabled s a) :
    drift (next s a) =
      drift s + ((next s a).concPendings - s.concPendings - pendings.gain s a) := by
  rw [drift, drift, pendings.total_next he]
  ring

/-- The scan counts the request it takes; a request from the front is not counted. -/
lemma drift_get (he : Enabled s .get) :
    (Uncounted s → drift (next s .get) = drift s + 1) ∧
      (¬Uncounted s → drift (next s .get) = drift s) := by
  obtain ⟨pc, rest, n, hget, hnext⟩ := exists_next_get he
  have hgain : pendings.gain s .get =
      (rest.map pendings.queued).sum - (s.fifo.map pendings.queued).sum := by
    simp [Weight.gain, hnext, pendings]
  rw [drift_next he, hgain, hnext]
  rcases getRequest_cases hget with
    ⟨r, l₁, l₂, -, hl, rfl, hc, -, hn, rfl⟩ | ⟨r, -, hl, hfront, rfl⟩
  · have hun : ¬Uncounted s := fun h => hn h.1
    refine ⟨fun h => absurd h hun, fun _ => ?_⟩
    simp [hl, pendings, hc]
  · by_cases hc : r.isConc = true
    · have hun : Uncounted s := ⟨hfront hc, r, by simp [hl], hc⟩
      refine ⟨fun _ => ?_, fun h => absurd hun h⟩
      simp [hl, pendings, hc]
    · have hun : ¬Uncounted s := by
        rintro ⟨-, r', hr', hc'⟩
        obtain rfl : r = r' := by simpa [hl] using hr'
        exact hc hc'
      refine ⟨fun h => absurd h hun, fun _ => ?_⟩
      simp [hl, pendings, hc]

/-- Every other action keeps the counter in step with the queue. -/
lemma drift_of_ne_get (he : Enabled s a) (ha : a ≠ .get) : drift (next s a) = drift s := by
  rw [drift_next he]
  cases a with
  | get => exact absurd rfl ha
  | registerRequest t r =>
      by_cases hcm : r.isConc = true ∨ r.isMutex = true <;>
        simp [next, Weight.gain, pendings, hcm]
  | testMutex t r =>
      by_cases hmc : s.mutexCount ≤ 0 <;> simp [next, Weight.gain, pendings, hmc]
  | push t r =>
      by_cases hc : r.isConc = true <;> simp [next, Weight.gain, pendings, hc]
  | _ => simp [next, Weight.gain, pendings, endBody]

lemma drift_of_counted {t : State} (hst : step s a = some t) (h : Counted s a) :
    drift t = drift s := by
  obtain ⟨he, rfl⟩ := step_eq_some.mp hst
  by_cases ha : a = .get
  · subst ha
    exact (drift_get he).2 (h rfl)
  · exact drift_of_ne_get he ha

lemma drift_of_not_counted {t : State} (hst : step s a = some t) (h : ¬Counted s a) :
    drift s < drift t := by
  obtain ⟨he, rfl⟩ := step_eq_some.mp hst
  obtain ⟨rfl, hun⟩ : a = .get ∧ Uncounted s := by simpa [Counted] using h
  rw [(drift_get he).1 hun]
  exact lt_add_one _

lemma drift_of_quiet (h : Quiet s) :
    drift s = s.concPendings - s.fifo.countP Request.isConc := by
  have hrecv : (s.recv.map pendings.recv).sum = 0 := by
    refine List.sum_eq_zero fun x hx => ?_
    obtain ⟨pc, hpc, rfl⟩ := List.mem_map.mp hx
    rcases h.1 pc hpc with rfl | rfl <;> rfl
  have hfifo := ListEdit.sum_map_countP_singleton id Request.isConc s.fifo
  simp only [List.map_id, List.countP_singleton, id] at hfifo
  rw [drift, Weight.total, hrecv, ← hfifo]
  simp [pendings]

/-- **The pending counter.**  In a state that a run reaches with no thread inside
`RegisterRequest` or `GetRequest`, `concPendings` is the number of concurrent requests in the
queue exactly when `GetRequest` never ran, in that run, with `concPendings` 0 and a concurrent
request at the front. -/
theorem concPendings_eq_iff (n : ℕ) (as : List Action) (s : State)
    (hrun : Transition.run step (init n) as = some s) (hquiet : Quiet s) :
    s.concPendings = s.fifo.countP Request.isConc ↔
      Transition.Along step Counted (init n) as := by
  have hzero : drift (init n) = 0 := by
    rw [drift, pendings.total_init n rfl rfl]
    rfl
  have hmeasure := (Transition.run_measure_eq_iff (P := Counted) (f := drift)
    (fun _ _ _ => drift_of_counted) (fun _ _ _ => drift_of_not_counted) hrun).2
  rw [hzero, drift_of_quiet hquiet] at hmeasure
  rw [← hmeasure]
  exact sub_eq_zero.symm

/-- A concurrent request is queued behind a mutex request that is being executed. -/
def pendingRun : List Action :=
  let m : Request := ⟨0, INVOKE_MUTEX⟩
  let c : Request := ⟨1, INVOKE_CONC⟩
  [.registerRequest 0 m, .countMutex 0 m, .push 0 m, .returnRegister 0 1, .callGet, .get,
    .mutexReady m, .registerRequest 0 c, .testMutex 0 c, .push 0 c, .countConc 0 c 1,
    .returnRegister 0 1]

theorem concPendings_eq_iff_pendingRun :
    ∃ s, Transition.run step (init 1) pendingRun = some s ∧ Quiet s ∧ s.concPendings = 1 ∧
      Transition.Along step Counted (init 1) pendingRun := by
  obtain ⟨s, hrun, hquiet, hone, heq⟩ : ∃ s, Transition.run step (init 1) pendingRun = some s ∧
      Quiet s ∧ s.concPendings = 1 ∧ s.concPendings = s.fifo.countP Request.isConc :=
    ⟨_, rfl, ⟨by decide, by decide, nofun⟩, rfl, rfl⟩
  exact ⟨s, hrun, hquiet, hone, (concPendings_eq_iff 1 pendingRun s hrun hquiet).mp heq⟩

/-- While receive thread 0 is about to queue a mutex request it has announced, receive
thread 1 queues a concurrent request, and the serving thread takes it before thread 1 gets to
`concPendings++`. -/
def driftRun : List Action :=
  let m : Request := ⟨0, INVOKE_MUTEX⟩
  let c : Request := ⟨1, INVOKE_CONC⟩
  [.registerRequest 0 m, .countMutex 0 m, .registerRequest 1 c, .testMutex 1 c, .push 1 c,
    .callGet, .get, .countConc 1 c 1, .returnRegister 1 1, .push 0 m, .returnRegister 0 1]

theorem concPendings_drifts :
    ∃ s, Transition.run step (init 2) driftRun = some s ∧ Quiet s ∧ s.concPendings = 1 ∧
      s.fifo.countP Request.isConc = 0 :=
  ⟨_, rfl, ⟨by decide, by decide, nofun⟩, rfl, rfl⟩

end PopCpp.Broker
