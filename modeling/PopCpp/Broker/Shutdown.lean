/-
# The end of the serve loop

`Run` leaves its serve loop when `GetRequest` finds no request and the object has no
reference left, or when a constructor has left no object.  It then waits until
`request_fifo` is empty, although nothing takes a request out any more, and sets
`POP_STATE_EXIT`.  Meanwhile the receive threads go on: they accept and close connections
(`OnNewConnection`, `OnCloseConnection`) and register requests.

The broker of `PopCpp.Broker.Model` is put together with the connections that are open, so
that a request, `AddRef` or `DecRef` needs a connection to come in by.  In a run in which the
reference count is not below the number of open connections when the loop is left, no
connection is accepted afterwards, and no constructor fails while others use the broker,
the queue stays empty until `POP_STATE_EXIT`.
-/
import PopCpp.Broker.Locks

namespace PopCpp.Broker

/-! ### The broker and its connections -/

/-- The actions of the broker that no client causes. -/
def Action.isInternal : Action → Bool
  | .registerRequest .. | .addRef | .decRef => false
  | _ => true

/-- The receive thread has a request in hand that is not with the serving thread yet. -/
def RecvPc.busy : RecvPc → Bool
  | .idle | .stopped => false
  | _ => true

/-- `Run` has left its serve loop while the broker is running, and has not set
`POP_STATE_EXIT`. -/
def State.HasLeft (s : State) : Prop := s.serve = .left ∧ s.state = .running

/-- No request is queued or being registered. -/
def State.Quiet (s : State) : Prop := s.fifo = [] ∧ ∀ pc ∈ s.recv, pc.busy = false

/-- There is no object, and no constructor is executing in a thread of its own. -/
def State.Objectless (s : State) : Prop :=
  s.obj = none ∧ ∀ x ∈ s.threads, x.request.isConstructor = false

instance (s : State) : Decidable s.HasLeft := inferInstanceAs (Decidable (_ ∧ _))
instance (s : State) : Decidable s.Quiet := inferInstanceAs (Decidable (_ ∧ _))
instance (s : State) : Decidable s.Objectless := inferInstanceAs (Decidable (_ ∧ _))

namespace Connected

/-- The broker, and for each open connection the receive thread whose box has it. -/
structure State where
  broker : Broker.State
  conns : List ℕ
deriving DecidableEq, Repr

def init (n : ℕ) : State := ⟨Broker.init n, []⟩

/-- What receive thread `t` finds in `Wait`, and the steps of the broker on its own.  The box of
a Unix domain socket accepts and closes connections without a `callback`. -/
inductive Action where
  | accept (t : ℕ) (callback : Bool)
  | close (t : ℕ) (callback : Bool)
  | request (t : ℕ) (r : Request)
  | addRef (t : ℕ)
  | decRef (t : ℕ)
  | internal (a : Broker.Action)
deriving DecidableEq, Repr

/-- When an action can be taken.  `ServeRequest` and `RegisterRequest` read any semantics, so
a request may be concurrent and mutex at once.  A receive thread that an exception ended has
closed its box, and with it the connections. -/
def Enabled (s : State) : Action → Prop
  | .accept t _ => s.broker.recv[t]? = some .idle
  | .close t _ =>
      t ∈ s.conns ∧ (s.broker.recv[t]? = some .idle ∨ s.broker.recv[t]? = some .stopped)
  | .request t r =>
      t ∈ s.conns ∧ s.broker.recv[t]? = some .idle ∧ r.uid = (entered s.broker.trace).length
  | .addRef t => t ∈ s.conns ∧ s.broker.recv[t]? = some .idle ∧ s.broker.obj ≠ none
  | .decRef t => t ∈ s.conns ∧ s.broker.recv[t]? = some .idle ∧ s.broker.obj ≠ none
  | .internal a => a.isInternal = true ∧ Broker.Enabled s.broker a

instance (s : State) : (a : Action) → Decidable (Enabled s a)
  | .accept .. => inferInstanceAs (Decidable (_ = _))
  | .close .. => inferInstanceAs (Decidable (_ ∧ _))
  | .request .. => inferInstanceAs (Decidable (_ ∧ _))
  | .addRef .. => inferInstanceAs (Decidable (_ ∧ _))
  | .decRef .. => inferInstanceAs (Decidable (_ ∧ _))
  | .internal .. => inferInstanceAs (Decidable (_ ∧ _))

/-- What the action does to the broker: `OnNewConnection` counts the object up and
`OnCloseConnection` counts it down, once there is one. -/
def Action.next (s : Broker.State) : Action → Broker.State
  | .accept _ callback => if callback then Broker.next s .addRef else s
  | .close _ callback => if callback then Broker.next s .decRef else s
  | .request t r => Broker.next s (.registerRequest t r)
  | .addRef _ => Broker.next s .addRef
  | .decRef _ => Broker.next s .decRef
  | .internal a => Broker.next s a

def Action.conns (l : List ℕ) : Action → List ℕ
  | .accept t _ => t :: l
  | .close t _ => l.erase t
  | _ => l

/-- One step of the broker and its connections. -/
def step (s : State) (a : Action) : Option State :=
  if Enabled s a then some ⟨a.next s.broker, a.conns s.conns⟩ else none

lemma step_eq_some {s t : State} {a : Action} :
    step s a = some t ↔ Enabled s a ∧ t = ⟨a.next s.broker, a.conns s.conns⟩ := by
  rw [step]
  split
  · next h => simp [h, eq_comm]
  · next h => simp [h]

/-- The steps that cannot strand a request. -/
def Orderly (s : State) : Action → Prop
  -- no connection is accepted while `Run` waits for the queue
  | .accept .. => s.broker.HasLeft → s.broker.obj = none
  -- no request comes in after a constructor that left no object
  | .request _ _ => s.broker.HasLeft → s.broker.obj ≠ none
  -- the loop is left for want of references only when every open connection is counted
  | .internal .getFalse => s.broker.state = .running → ∀ n ∈ s.broker.obj, s.conns.length ≤ n
  -- a constructor leaves no object only when nobody else uses the broker
  | .internal (.release r) | .internal (.serveCreateFails r) =>
      r.isConstructor = true → s.broker.obj = none → s.broker.Quiet ∧ s.broker.Objectless
  | .internal (.serveCreate r) => r.isConstructor = true → s.broker.obj ≠ none
  | _ => True

instance (s : State) (a : Action) : Decidable (Orderly s a) :=
  match a with
  | .accept .. | .request .. | .internal .getFalse | .internal (.release _)
  | .internal (.serveCreateFails _) | .internal (.serveCreate _) =>
      inferInstanceAs (Decidable (_ → _))
  | .close .. | .addRef _ | .decRef _ => isTrue trivial
  | .internal b => by
      cases b <;> first | exact isTrue trivial | exact inferInstanceAs (Decidable (_ → _))

end Connected

/-! ### What the broker does on its own -/

variable {s t : State} {a : Action}

/-- Only a receive thread with a request in hand moves. -/
lemma recv_next (ha : a.isInternal = true) (he : Enabled s a) :
    (next s a).recv = s.recv ∨
      ∃ u pc pc', s.recv[u]? = some pc ∧ pc.busy = true ∧ (next s a).recv = s.recv.set u pc' := by
  cases a with
  | registerRequest | addRef | decRef => simp [Action.isInternal] at ha
  | testMutex u r => exact Or.inr ⟨u, _, _, he.1, rfl, rfl⟩
  | countMutex u r => exact Or.inr ⟨u, _, _, he.1, rfl, rfl⟩
  | construct u r => exact Or.inr ⟨u, _, _, he, rfl, rfl⟩
  | create u r => exact Or.inr ⟨u, _, _, he, rfl, rfl⟩
  | createFails u r => exact Or.inr ⟨u, _, _, he, rfl, rfl⟩
  | createThrows u r => exact Or.inr ⟨u, _, _, he.1, rfl, rfl⟩
  | unlockDirect u => exact Or.inr ⟨u, _, _, he, rfl, rfl⟩
  | push u r => exact Or.inr ⟨u, _, _, he, rfl, rfl⟩
  | countConc u r n => exact Or.inr ⟨u, _, _, he, rfl, rfl⟩
  | returnRegister u n => exact Or.inr ⟨u, _, _, he.1, rfl, rfl⟩
  | get => exact Or.inl (by rw [next_get_eq])
  | _ => exact Or.inl rfl

/-- No receive thread gets a request in hand. -/
lemma busy_next (ha : a.isInternal = true) (he : Enabled s a) {u : ℕ} {pc : RecvPc}
    (hu : (next s a).recv[u]? = some pc) (hpc : pc.busy = true) :
    ∃ pc', s.recv[u]? = some pc' ∧ pc'.busy = true := by
  rcases recv_next ha he with hrecv | ⟨v, pc₁, pc₂, hv, hbusy, hrecv⟩
  · exact ⟨pc, hrecv ▸ hu, hpc⟩
  · rw [hrecv] at hu
    rcases getElem?_set_cases hu with ⟨rfl, -⟩ | ⟨-, hu⟩
    · exact ⟨pc₁, hv, hbusy⟩
    · exact ⟨pc, hu, hpc⟩

/-- `POP_STATE_RUNNING` is never set again. -/
lemma running_of_next (h : (next s a).state = .running) : s.state = .running := by
  cases a with
  | get => rwa [next_get_eq] at h
  | serveCreateThrows r aborts | replyThrows r aborts =>
      cases aborts
      · exact h
      · simp [next] at h
  | finishServe r o | finishInvoke i r o =>
      simp only [next, endBody] at h
      split at h
      · simp at h
      · exact h
  | exitRun => simp [next] at h
  | _ => exact h

lemma afterServe_eq_left {r : Request} :
    afterServe s r = .left ↔ r.isConstructor = true ∧ s.obj = none := by
  rw [afterServe]
  split
  · next h => simpa using h
  · next h => simpa using h

/-- The ways out of the serve loop. -/
lemma left_of_next (he : Enabled s a) (hl : (next s a).HasLeft) :
    s.HasLeft ∨ a = .getFalse ∧ s.fifo = [] ∧ (∃ n ∈ s.obj, n ≤ 0) ∨
      ∃ r, r.isConstructor = true ∧ s.obj = none ∧
        (a = .release r ∨ a = .serveCreate r ∨ a = .serveCreateFails r) := by
  obtain ⟨hserve, hstate⟩ := hl
  have hrun := running_of_next hstate
  cases a with
  | getFalse =>
      obtain ⟨-, hfifo, hobj | hnot⟩ := he
      · exact Or.inr (Or.inl ⟨rfl, hfifo, hobj⟩)
      · exact absurd hrun hnot
  | release r =>
      obtain ⟨hctor, hobj⟩ := afterServe_eq_left.mp hserve
      exact Or.inr (Or.inr ⟨r, hctor, hobj, Or.inl rfl⟩)
  | serveCreate r =>
      obtain ⟨hctor, hobj⟩ := afterServe_eq_left.mp hserve
      exact Or.inr (Or.inr ⟨r, hctor, hobj, Or.inr (Or.inl rfl)⟩)
  | serveCreateFails r =>
      obtain ⟨hctor, hobj⟩ := afterServe_eq_left.mp hserve
      exact Or.inr (Or.inr ⟨r, hctor, hobj, Or.inr (Or.inr rfl)⟩)
  | leaveLoop => exact absurd hrun he.2
  | get =>
      obtain ⟨pc, rest, n, hget, hnext⟩ := exists_next_get he
      obtain ⟨r, -, -, hpc, -⟩ := getRequest_split hget
      rw [hnext] at hserve
      obtain rfl : pc = .left := hserve
      simp at hpc
  | callGet | mutexReady | serveConstruct | serveCreateThrows | startServe | finishServe
  | replyThrows | exitRun => simp [next] at hserve
  | _ => exact Or.inl ⟨hserve, hrun⟩

/-- Only a receive thread with a request in hand calls `push_back`. -/
lemma quiet_next (ha : a.isInternal = true) (he : Enabled s a) (hq : s.Quiet) :
    (next s a).Quiet := by
  obtain ⟨hfifo, hrecv⟩ := hq
  refine ⟨?_, fun pc hpc => ?_⟩
  · cases a with
    | push u r => exact absurd (hrecv _ (List.mem_of_getElem? he)) (by simp [RecvPc.busy])
    | get => exact absurd hfifo he.2
    | _ => exact hfifo
  · rcases recv_next ha he with heq | ⟨u, pc₁, pc₂, hu, hbusy, -⟩
    · exact hrecv pc (heq ▸ hpc)
    · exact absurd (hrecv pc₁ (List.mem_of_getElem? hu)) (by simp [hbusy])

/-- Without an object and without a constructor in a thread of its own none comes to be. -/
lemma objectless_next (ha : a.isInternal = true) (he : Enabled s a) (hl : s.serve = .left)
    (hq : s.Quiet) (ho : s.Objectless) : (next s a).Objectless := by
  obtain ⟨hobj, hthreads⟩ := ho
  have hno {u : ℕ} {pc : RecvPc} (hu : s.recv[u]? = some pc) : ¬pc.busy = true := by
    simp [hq.2 pc (List.mem_of_getElem? hu)]
  cases a with
  | registerRequest | addRef | decRef => simp [Action.isInternal] at ha
  | create u r => exact absurd rfl (hno he)
  | startInvoke i r =>
      have hr : r.isConstructor = false := hthreads _ (List.mem_of_getElem? he)
      exact ⟨hobj, ListEdit.forall_mem_set hthreads hr⟩
  | finishInvoke i r o =>
      have hr := hthreads _ (List.mem_of_getElem? he.1)
      have hmakes : o.makesObject = false := by
        by_contra hm
        rw [he.2.1 (by simpa using hm)] at hr
        exact absurd hr (by simp)
      refine ⟨by simp [next, endBody, hmakes, hobj], ?_⟩
      exact ListEdit.forall_mem_set hthreads hr
  | destroyInvoke i r =>
      exact ⟨hobj, fun x hx => hthreads x (List.mem_of_mem_eraseIdx hx)⟩
  | finishServe | serveCreate => simp_all [Enabled]
  | get => rw [next_get_eq]; exact ⟨hobj, hthreads⟩
  | _ => exact ⟨hobj, hthreads⟩

/-- A step of the broker on its own leaves the object alone but for a constructor. -/
lemma obj_next (ha : a.isInternal = true) (hobj : s.obj ≠ none) : (next s a).obj ≠ none := by
  cases a with
  | registerRequest | addRef | decRef => simp [Action.isInternal] at ha
  | get => rwa [next_get_eq]
  | finishServe r o | finishInvoke i r o =>
      simp only [next, endBody]
      split
      · simp
      · exact hobj
  | _ => exact hobj

namespace Connected

open Transition

variable {s t : State} {a : Action} {as : List Action}

/-! ### The invariant -/

/-- A request comes in by an open connection, and once the loop is left there is no
connection for one to come in by, or nobody left to use the one there is. -/
structure Drained (s : State) : Prop where
  connected : ∀ u pc, s.broker.recv[u]? = some pc → pc.busy = true → u ∈ s.conns
  left : s.broker.HasLeft →
    s.broker.Quiet ∧ (s.conns = [] ∧ s.broker.obj ≠ none ∨ s.broker.Objectless)

lemma drained_init (n : ℕ) : Drained (init n) := by
  constructor
  · intro u pc hu hpc
    obtain rfl := List.eq_of_mem_replicate (List.mem_of_getElem? hu)
    simp [RecvPc.busy] at hpc
  · intro hl
    exact absurd hl.1 (by simp [init, Broker.init])

/-- A client that has an open connection to an object of a broker that has left its loop. -/
lemma Drained.not_hasLeft {u : ℕ} (h : Drained s) (hu : u ∈ s.conns) (hobj : s.broker.obj ≠ none) :
    ¬s.broker.HasLeft := by
  intro hl
  rcases (h.left hl).2 with ⟨hconns, -⟩ | ⟨hnone, -⟩
  · simp [hconns] at hu
  · exact hobj hnone

lemma Drained.internal {b : Broker.Action} (h : Drained s) (ha : b.isInternal = true)
    (he : Broker.Enabled s.broker b) (ho : Orderly s (.internal b)) :
    Drained ⟨next s.broker b, s.conns⟩ := by
  constructor
  · intro u pc hu hpc
    obtain ⟨pc', hu', hpc'⟩ := busy_next ha he hu hpc
    exact h.connected u pc' hu' hpc'
  · intro hl
    rcases left_of_next he hl with hl | ⟨rfl, hfifo, n, hn, hle⟩ | ⟨r, hctor, hobj, hr⟩
    · obtain ⟨hq, hend⟩ := h.left hl
      refine ⟨quiet_next ha he hq, ?_⟩
      rcases hend with ⟨hconns, hobj⟩ | hnone
      · exact Or.inl ⟨hconns, obj_next ha hobj⟩
      · exact Or.inr (objectless_next ha he hl.1 hq hnone)
    · have hlen := ho (running_of_next hl.2) n hn
      have hconns : s.conns = [] := List.eq_nil_of_length_eq_zero (by omega)
      refine ⟨⟨hfifo, fun pc hpc => ?_⟩, Or.inl ⟨hconns, ?_⟩⟩
      · by_contra hbusy
        obtain ⟨u, hu⟩ := List.mem_iff_getElem?.mp hpc
        have hmem := h.connected u pc hu (by simpa using hbusy)
        simp [hconns] at hmem
      · rintro hnone
        simp [show s.broker.obj = none from hnone] at hn
    · rcases hr with rfl | rfl | rfl
      · exact ⟨(ho hctor hobj).1, Or.inr (ho hctor hobj).2⟩
      · exact absurd hobj (ho hctor)
      · exact ⟨(ho hctor hobj).1, Or.inr (ho hctor hobj).2⟩

/-- A callback changes the count of the object and nothing else. -/
lemma next_callback {b : Broker.State} (ha : (∃ u c, a = .accept u c) ∨ ∃ u c, a = .close u c) :
    ∃ obj, (obj = none ↔ b.obj = none) ∧ a.next b = { b with obj := obj } := by
  rcases ha with ⟨u, c, rfl⟩ | ⟨u, c, rfl⟩ <;> cases c
  · exact ⟨b.obj, Iff.rfl, rfl⟩
  · exact ⟨b.obj.map (· + 1), Option.map_eq_none_iff, rfl⟩
  · exact ⟨b.obj, Iff.rfl, rfl⟩
  · exact ⟨b.obj.map (· - 1), Option.map_eq_none_iff, rfl⟩

lemma Drained.step (h : Drained s) (ho : Orderly s a) (hst : step s a = some t) : Drained t := by
  obtain ⟨he, rfl⟩ := step_eq_some.mp hst
  cases a with
  | accept u callback =>
      obtain ⟨obj, hobj, hnext⟩ := next_callback (b := s.broker) (Or.inl ⟨u, callback, rfl⟩)
      rw [hnext]
      constructor
      · intro v pc hv hpc
        exact List.mem_cons_of_mem u (h.connected v pc hv hpc)
      · intro hl
        obtain ⟨hq, ⟨-, hsome⟩ | ⟨hnone, hthreads⟩⟩ := h.left hl
        · exact absurd (ho hl) hsome
        · exact ⟨hq, Or.inr ⟨hobj.mpr hnone, hthreads⟩⟩
  | close u callback =>
      obtain ⟨obj, hobj, hnext⟩ := next_callback (b := s.broker) (Or.inr ⟨u, callback, rfl⟩)
      rw [hnext]
      constructor
      · intro v pc hv hpc
        have hvu : v ≠ u := by
          rintro rfl
          have hpc' : s.broker.recv[v]? = some pc := hv
          rcases he.2 with hidle | hstopped
          · obtain rfl : pc = .idle := Option.some.inj (hpc'.symm.trans hidle)
            simp [RecvPc.busy] at hpc
          · obtain rfl : pc = .stopped := Option.some.inj (hpc'.symm.trans hstopped)
            simp [RecvPc.busy] at hpc
        exact (List.mem_erase_of_ne hvu).mpr (h.connected v pc hv hpc)
      · intro hl
        obtain ⟨hq, ⟨hconns, -⟩ | ⟨hnone, hthreads⟩⟩ := h.left hl
        · have hu : u ∈ s.conns := he.1
          simp [hconns] at hu
        · exact ⟨hq, Or.inr ⟨hobj.mpr hnone, hthreads⟩⟩
  | request u r =>
      have hl : ¬s.broker.HasLeft := fun hl => h.not_hasLeft he.1 (ho hl) hl
      refine ⟨fun v pc hv hpc => ?_, fun hl' => absurd hl' hl⟩
      rcases getElem?_set_cases hv with ⟨rfl, -⟩ | ⟨-, hv⟩
      · exact he.1
      · exact h.connected v pc hv hpc
  | addRef u =>
      exact ⟨h.connected, fun hl => absurd hl (h.not_hasLeft he.1 he.2.2)⟩
  | decRef u =>
      exact ⟨h.connected, fun hl => absurd hl (h.not_hasLeft he.1 he.2.2)⟩
  | internal b => exact h.internal he.1 he.2 ho

/-- **No request is stranded** in a run of orderly steps: between the end of the serve loop
and `POP_STATE_EXIT` the queue is empty. -/
theorem fifo_eq_nil_of_hasLeft {n : ℕ} (hrun : run step (init n) as = some s)
    (ho : Along step Orderly (init n) as) (hl : s.broker.HasLeft) : s.broker.fifo = [] := by
  have hdrained : Drained s :=
    run_invariant_along (fun s a t hs ho hst => hs.step ho hst) (drained_init n) ho hrun
  exact (hdrained.left hl).1.1

/-- A client makes the object, calls a method and goes away; the loop is left with the queue
empty. -/
def serveAndLeave : List Action :=
  [.accept 0 true, .request 0 ⟨0, 5⟩, .internal (.push 0 ⟨0, 5⟩), .internal (.returnRegister 0 1),
    .internal .callGet, .internal .get, .internal (.startServe ⟨0, 5⟩),
    .internal (.finishServe ⟨0, 5⟩ ⟨true, false⟩), .internal (.release ⟨0, 5⟩),
    .internal .callGet, .close 0 true, .internal .getFalse]

theorem fifo_eq_nil_of_hasLeft_serveAndLeave :
    ∃ s, run step (init 1) serveAndLeave = some s ∧ s.broker.HasLeft ∧ s.broker.fifo = [] := by
  obtain ⟨s, hs⟩ : ∃ s, run step (init 1) serveAndLeave = some s :=
    Option.isSome_iff_exists.mp (by decide)
  have hl : s.broker.HasLeft := by
    revert s
    decide
  exact ⟨s, hs, hl, fifo_eq_nil_of_hasLeft hs (by decide) hl⟩

/-! ### A request that comes in too late -/

/-- `Run` waits for a queue that nothing empties. -/
def Stranded (s : Broker.State) : Prop := s.HasLeft ∧ s.obj ≠ none ∧ s.fifo ≠ []

/-- A client that connects again before `POP_STATE_EXIT`. -/
theorem request_stranded_of_late_accept :
    ∃ s, run step (init 1) (serveAndLeave ++ [.accept 0 true, .request 0 ⟨1, 1⟩,
      .internal (.push 0 ⟨1, 1⟩)]) = some s ∧ s.broker.HasLeft ∧ s.broker.fifo = [⟨1, 1⟩] := by
  obtain ⟨s, hs⟩ : ∃ s, run step (init 1) (serveAndLeave ++ [.accept 0 true, .request 0 ⟨1, 1⟩,
      .internal (.push 0 ⟨1, 1⟩)]) = some s := Option.isSome_iff_exists.mp (by decide)
  refine ⟨s, hs, ?_⟩
  revert s
  decide

/-- Whoever has a connection once the loop is left can strand a request. -/
theorem exists_stranded {u : ℕ} (hl : s.broker.HasLeft) (hobj : s.broker.obj ≠ none)
    (hu : u ∈ s.conns) (hidle : s.broker.recv[u]? = some .idle) :
    ∃ bs t, run step s bs = some t ∧ Stranded t.broker := by
  let r : Request := ⟨(entered s.broker.trace).length, 0⟩
  have hlen : u < s.broker.recv.length := (List.getElem?_eq_some_iff.mp hidle).1
  have hrequest := step_eq_some.mpr
    ⟨show Enabled s (.request u r) from ⟨hu, hidle, rfl⟩, rfl⟩
  have hpush := step_eq_some.mpr
    ⟨show Enabled ⟨Broker.next s.broker (.registerRequest u r), s.conns⟩
        (.internal (.push u r)) from
      ⟨rfl, by simp [Broker.Enabled, Broker.next, hlen, r, Request.isConc, Request.isMutex]⟩, rfl⟩
  refine ⟨[.request u r, .internal (.push u r)], _,
    run_cons_eq_some.mpr ⟨_, hrequest, run_cons_eq_some.mpr ⟨_, hpush, rfl⟩⟩, hl, hobj, ?_⟩
  simp [Action.next, Broker.next]

lemma Stranded.next {b : Broker.Action} (h : Stranded s.broker) (ha : b.isInternal = true)
    (he : Broker.Enabled s.broker b) :
    (Broker.next s.broker b).serve = .left ∧ (Broker.next s.broker b).fifo ≠ [] := by
  obtain ⟨⟨hserve, hstate⟩, hobj, hfifo⟩ := h
  cases b with
  | exitRun => exact absurd (he.2 hobj hstate).2 hfifo
  | get => exact absurd (hserve.symm.trans he.1) (by simp)
  | push u r => exact ⟨hserve, by simp [Broker.next]⟩
  | serveCreate | serveCreateFails => exact absurd (hserve.symm.trans he) (by simp)
  | callGet | getFalse | mutexReady | serveConstruct | serveCreateThrows | startServe | finishServe
  | release | replyThrows | leaveLoop => exact absurd (hserve.symm.trans he.1) (by simp)
  | _ => exact ⟨hserve, hfifo⟩

lemma Stranded.step (h : Stranded s.broker) (hst : Connected.step s a = some t) :
    Stranded t.broker ∨ t.broker.state ≠ .running := by
  obtain ⟨he, rfl⟩ := step_eq_some.mp hst
  by_cases hstate : (a.next s.broker).state = .running
  · left
    obtain ⟨hl, hobj, hfifo⟩ := h
    cases a with
    | internal b =>
        obtain ⟨hserve, hfifo'⟩ := Stranded.next ⟨hl, hobj, hfifo⟩ he.1 he.2
        exact ⟨⟨hserve, hstate⟩, obj_next he.1 hobj, hfifo'⟩
    | request u r => exact ⟨hl, hobj, hfifo⟩
    | addRef | decRef => exact ⟨hl, by simpa [Action.next, Broker.next] using hobj, hfifo⟩
    | accept u callback =>
        obtain ⟨obj, hsome, hnext⟩ := next_callback (b := s.broker) (Or.inl ⟨u, callback, rfl⟩)
        rw [hnext]
        exact ⟨hl, fun hnone => hobj (hsome.mp hnone), hfifo⟩
    | close u callback =>
        obtain ⟨obj, hsome, hnext⟩ := next_callback (b := s.broker) (Or.inr ⟨u, callback, rfl⟩)
        rw [hnext]
        exact ⟨hl, fun hnone => hobj (hsome.mp hnone), hfifo⟩
  · exact Or.inr hstate

/-- **A stranded request keeps `Run` from returning**, as long as no method aborts the broker. -/
theorem stranded_of_run (h : Stranded s.broker) (hrun : run Connected.step s as = some t) :
    Stranded t.broker ∨ t.broker.state ≠ .running := by
  refine run_invariant_along (P := fun _ _ => True)
    (I := fun s => Stranded s.broker ∨ s.broker.state ≠ .running) (fun s a t hs _ hst => ?_)
    (Or.inl h) (along_of_forall fun _ _ _ => trivial) hrun
  rcases hs with hs | hs
  · exact hs.step hst
  · obtain ⟨-, rfl⟩ := step_eq_some.mp hst
    refine Or.inr fun hrunning => hs ?_
    cases a with
    | accept u callback =>
        obtain ⟨obj, -, hnext⟩ := next_callback (b := s.broker) (Or.inl ⟨u, callback, rfl⟩)
        rwa [hnext] at hrunning
    | close u callback =>
        obtain ⟨obj, -, hnext⟩ := next_callback (b := s.broker) (Or.inr ⟨u, callback, rfl⟩)
        rwa [hnext] at hrunning
    | _ => exact running_of_next hrunning

end Connected

end PopCpp.Broker
