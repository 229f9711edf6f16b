/-
# The request scheduling of the object broker

A parallel object is served by one broker (`pop_broker`).  Receive threads, one for each
communication box, hand every request to `RegisterRequest`; the serving thread takes
requests out of `request_fifo` with `GetRequest` and executes them with `ServeRequest`;
concurrent requests run in threads of their own (`pop_invokethread`).  The source is
`lib/dynamic/broker_receive.cc`, `lib/core/broker_serve.cc` and `lib/core/broker.cc`.

The model has one program counter for each thread and one action for each piece of code
between two points at which another thread can come in.  The sections under `execCond`
contain no other lock and are single actions; the section under `mutexCond` contains
sections under `execCond`, so the thread that holds `mutexCond` is part of the state.  A
wait on a condition is an action that is not enabled until its loop is left.

The only part of the state that the code does not have is `trace`, the list of what has
happened so far.
-/
import PopCpp.Lib.Transition
import PopCpp.Lib.ListEdit
import Mathlib.Tactic.Ring

namespace PopCpp.Broker

/-! ### Requests -/

def INVOKE_SYNC : UInt32 := 1
def INVOKE_CONSTRUCTOR : UInt32 := 4
def INVOKE_CONC : UInt32 := 8
def INVOKE_MUTEX : UInt32 := 16

def POP_QUEUE_NORMAL : ℕ := 50
def POP_QUEUE_MAX : ℕ := 200

/-- A `pop_request`.  Its `data` buffer is allocated by `ReceiveRequest` for this request
alone and travels with every copy of it, so it is the request's identity: `uid`.
`semantics` is `methodId[2]`; `from` is null exactly when `INVOKE_SYNC` is not set, since
`RegisterRequest` clears it then. -/
structure Request where
  uid : ℕ
  semantics : UInt32
deriving DecidableEq, Repr

namespace Request

def isSync (r : Request) : Bool := r.semantics &&& INVOKE_SYNC != 0
def isConstructor (r : Request) : Bool := r.semantics &&& INVOKE_CONSTRUCTOR != 0
def isConc (r : Request) : Bool := r.semantics &&& INVOKE_CONC != 0
def isMutex (r : Request) : Bool := r.semantics &&& INVOKE_MUTEX != 0

/-- The request has one semantics: concurrent, mutex, or sequential when neither flag is
set. -/
def Single (r : Request) : Prop := ¬(r.isConc = true ∧ r.isMutex = true)

instance (r : Request) : Decidable r.Single := inferInstanceAs (Decidable (¬_))

end Request

/-! ### Program counters -/

/-- Where a receive thread is in `RegisterRequest`. -/
inductive RecvPc where
  /-- Outside `RegisterRequest`. -/
  | idle
  /-- A concurrent or mutex request, before `mutexCond.lock()`. -/
  | entered (r : Request)
  /-- Under `mutexCond` with `mutexCount <= 0`: in `ServeRequest`, before the thread object. -/
  | direct (r : Request)
  /-- Under `mutexCond`: the thread object exists, its thread is being created. -/
  | creating (r : Request)
  /-- Under `mutexCond`: `ServeRequest` has returned. -/
  | unlocking
  /-- Before `request_fifo.push_back(req)`, for a concurrent request under `mutexCond`. -/
  | appending (r : Request)
  /-- A concurrent request, under `mutexCond`, before `concPendings++`. -/
  | pushed (r : Request) (count : ℕ)
  /-- In the slow-down at the end, with the queue length that was read. -/
  | throttled (count : ℕ)
  /-- An exception left `RegisterRequest` and ended the thread, with `mutexCond` locked. -/
  | stopped
deriving DecidableEq, Repr

/-- Where the serving thread is in `Run`. -/
inductive ServePc where
  /-- At the head of the loop of `Run`. -/
  | loop
  /-- In `GetRequest`, before a request is taken. -/
  | getting
  /-- In `GetRequest`, a mutex request in hand, waiting for `instanceCount` to be 0. -/
  | waiting (r : Request)
  /-- At the beginning of `ServeRequest`. -/
  | serving (r : Request)
  /-- The thread object of a concurrent request exists, its thread is being created. -/
  | creating (r : Request)
  /-- The method body is executing. -/
  | running (r : Request)
  /-- The method body is over. -/
  | ended (r : Request)
  /-- After the loop of `Run`. -/
  | left
  /-- `state` has been set to `POP_STATE_EXIT`. -/
  | exited
deriving DecidableEq, Repr

/-- Where the thread of a `pop_invokethread` is. -/
inductive InvokePc where
  | created
  | running
  | ended
deriving DecidableEq, Repr

/-- A `pop_invokethread` whose thread exists. -/
structure Invocation where
  request : Request
  pc : InvokePc
deriving DecidableEq, Repr

/-- The values of `pop_broker::state`. -/
inductive RunState where
  | running
  | exit
  | abort
deriving DecidableEq, Repr

/-- What can happen to a request. -/
inductive Event where
  /-- `RegisterRequest` is called with it. -/
  | enter (r : Request)
  /-- It is appended to `request_fifo`. -/
  | append (r : Request)
  /-- Its method body begins. -/
  | start (r : Request)
  /-- Its method body is over. -/
  | finish (r : Request)
  /-- The broker is done with it. -/
  | retire (r : Request)
  /-- The broker is done with it and no body was executed: its thread was refused. -/
  | drop (r : Request)
  /-- Sending an exception reply threw: the broker is done with it and has left its counter. -/
  | leak (r : Request)
deriving DecidableEq, Repr

structure State where
  /-- The receive threads. -/
  recv : List RecvPc
  serve : ServePc
  /-- The threads of the concurrent requests. -/
  threads : List Invocation
  /-- The receive thread that holds `mutexCond`. -/
  mutexCond : Option ℕ
  mutexCount : ℤ
  concPendings : ℤ
  instanceCount : ℤ
  fifo : List Request
  /-- The reference count of the object, once there is one. -/
  obj : Option ℤ
  state : RunState
  trace : List Event
deriving DecidableEq, Repr

/-- The broker after its constructor, with `n` receive threads. -/
def init (n : ℕ) : State where
  recv := List.replicate n .idle
  serve := .loop
  threads := []
  mutexCond := none
  mutexCount := 0
  concPendings := 0
  instanceCount := 0
  fifo := []
  obj := none
  state := .running
  trace := []

/-! ### The choice of the next request -/

/-- The scan of `GetRequest`: the first concurrent request in front of every mutex request,
and the queue without it. -/
def scanConc : List Request → Option (Request × List Request)
  | [] => none
  | r :: rest =>
      if r.isConc then some (r, rest)
      else if r.isMutex then none
      else (scanConc rest).map fun x => (x.1, r :: x.2)

/-- `GetRequest` on a queue: where the serving thread goes on, the queue and `concPendings`
afterwards; `none` when the queue is empty.  Only a request taken from the front waits for
the running threads. -/
def getRequest (concPendings : ℤ) (fifo : List Request) :
    Option (ServePc × List Request × ℤ) :=
  match if concPendings ≠ 0 then scanConc fifo else none with
  | some (r, rest) => some (.serving r, rest, concPendings - 1)
  | none =>
      match fifo with
      | [] => none
      | r :: rest =>
          some (if r.isMutex then .waiting r else .serving r, rest, concPendings)

/-! ### Actions -/

/-- How a method body ends, as far as the broker's state is concerned: whether it made the
object (a constructor), and whether it ended in `UnhandledException` with an application
service to report to. -/
structure Outcome where
  makesObject : Bool
  aborts : Bool
deriving DecidableEq, Repr

/-- A constructor makes the object; `UnhandledException` is called for requests without a
connection to reply to. -/
def Outcome.Possible (o : Outcome) (r : Request) : Prop :=
  (o.makesObject = true → r.isConstructor = true) ∧ (o.aborts = true → r.isSync = false)

instance (o : Outcome) (r : Request) : Decidable (o.Possible r) :=
  inferInstanceAs (Decidable (_ ∧ _))

/-- The actions of receive thread `t`, of the serving thread and of the thread at position
`i` of `threads`. -/
inductive Action where
  | registerRequest (t : ℕ) (r : Request)
  | testMutex (t : ℕ) (r : Request)
  | countMutex (t : ℕ) (r : Request)
  | construct (t : ℕ) (r : Request)
  | create (t : ℕ) (r : Request)
  | createFails (t : ℕ) (r : Request)
  | createThrows (t : ℕ) (r : Request)
  | unlockDirect (t : ℕ)
  | push (t : ℕ) (r : Request)
  | countConc (t : ℕ) (r : Request) (count : ℕ)
  | returnRegister (t : ℕ) (count : ℕ)
  | callGet
  | getFalse
  | get
  | mutexReady (r : Request)
  | serveConstruct (r : Request)
  | serveCreate (r : Request)
  | serveCreateFails (r : Request)
  | serveCreateThrows (r : Request) (aborts : Bool)
  | startServe (r : Request)
  | finishServe (r : Request) (o : Outcome)
  | release (r : Request)
  | replyThrows (r : Request) (aborts : Bool)
  | leaveLoop
  | exitRun
  | startInvoke (i : ℕ) (r : Request)
  | finishInvoke (i : ℕ) (r : Request) (o : Outcome)
  | destroyInvoke (i : ℕ) (r : Request)
  | addRef
  | decRef
deriving DecidableEq, Repr

/-- The requests for which `RegisterRequest` has been called, in that order. -/
def entered (trace : List Event) : List Request :=
  trace.filterMap fun
    | .enter r => some r
    | _ => none

/-- When an action can be taken. -/
def Enabled (s : State) : Action → Prop
  | .registerRequest t r =>
      s.recv[t]? = some .idle ∧ r.Single ∧ r.uid = (entered s.trace).length
  | .testMutex t r => s.recv[t]? = some (.entered r) ∧ r.isConc = true ∧ s.mutexCond = none
  | .countMutex t r =>
      s.recv[t]? = some (.entered r) ∧ r.isConc = false ∧ r.isMutex = true ∧ s.mutexCond = none
  | .construct t r => s.recv[t]? = some (.direct r)
  | .create t r => s.recv[t]? = some (.creating r)
  | .createFails t r => s.recv[t]? = some (.creating r)
  | .createThrows t r => s.recv[t]? = some (.creating r) ∧ r.isSync = true
  | .unlockDirect t => s.recv[t]? = some .unlocking
  | .push t r => s.recv[t]? = some (.appending r)
  | .countConc t r n => s.recv[t]? = some (.pushed r n)
  | .returnRegister t n =>
      s.recv[t]? = some (.throttled n) ∧
        (n < POP_QUEUE_NORMAL ∨ n ≤ POP_QUEUE_MAX ∨ s.fifo.length ≤ POP_QUEUE_MAX)
  | .callGet => s.serve = .loop ∧ s.state = .running
  | .getFalse =>
      s.serve = .getting ∧ s.fifo = [] ∧ ((∃ n ∈ s.obj, n ≤ 0) ∨ s.state ≠ .running)
  | .get => s.serve = .getting ∧ s.fifo ≠ []
  | .mutexReady r => s.serve = .waiting r ∧ s.instanceCount ≤ 0
  | .serveConstruct r => s.serve = .serving r ∧ r.isConc = true
  | .serveCreate r => s.serve = .creating r
  | .serveCreateFails r => s.serve = .creating r
  | .serveCreateThrows r _ => s.serve = .creating r ∧ r.isSync = true
  | .startServe r => s.serve = .serving r ∧ r.isConc = false
  | .finishServe r o => s.serve = .running r ∧ o.Possible r
  | .release r => s.serve = .ended r ∧ (r.isMutex = true → s.mutexCond = none)
  | .replyThrows r _ => s.serve = .ended r ∧ r.isSync = true
  | .leaveLoop => s.serve = .loop ∧ s.state ≠ .running
  | .exitRun =>
      s.serve = .left ∧
        (s.obj ≠ none → s.state = .running → s.instanceCount ≤ 0 ∧ s.fifo = [])
  | .startInvoke i r => s.threads[i]? = some ⟨r, .created⟩
  | .finishInvoke i r o => s.threads[i]? = some ⟨r, .running⟩ ∧ o.Possible r
  | .destroyInvoke i r => s.threads[i]? = some ⟨r, .ended⟩
  | .addRef => s.obj ≠ none
  | .decRef => s.obj ≠ none

instance (s : State) : (a : Action) → Decidable (Enabled s a)
  | .registerRequest .. => inferInstanceAs (Decidable (_ ∧ _))
  | .testMutex .. => inferInstanceAs (Decidable (_ ∧ _))
  | .countMutex .. => inferInstanceAs (Decidable (_ ∧ _))
  | .construct .. => inferInstanceAs (Decidable (_ = _))
  | .create .. => inferInstanceAs (Decidable (_ = _))
  | .createFails .. => inferInstanceAs (Decidable (_ = _))
  | .createThrows .. => inferInstanceAs (Decidable (_ ∧ _))
  | .unlockDirect .. => inferInstanceAs (Decidable (_ = _))
  | .push .. => inferInstanceAs (Decidable (_ = _))
  | .countConc .. => inferInstanceAs (Decidable (_ = _))
  | .returnRegister .. => inferInstanceAs (Decidable (_ ∧ _))
  | .callGet => inferInstanceAs (Decidable (_ ∧ _))
  | .getFalse => inferInstanceAs (Decidable (_ ∧ _))
  | .get => inferInstanceAs (Decidable (_ ∧ _))
  | .mutexReady .. => inferInstanceAs (Decidable (_ ∧ _))
  | .serveConstruct .. => inferInstanceAs (Decidable (_ ∧ _))
  | .serveCreate .. => inferInstanceAs (Decidable (_ = _))
  | .serveCreateFails .. => inferInstanceAs (Decidable (_ = _))
  | .serveCreateThrows .. => inferInstanceAs (Decidable (_ ∧ _))
  | .startServe .. => inferInstanceAs (Decidable (_ ∧ _))
  | .finishServe .. => inferInstanceAs (Decidable (_ ∧ _))
  | .release .. => inferInstanceAs (Decidable (_ ∧ _))
  | .replyThrows .. => inferInstanceAs (Decidable (_ ∧ _))
  | .leaveLoop => inferInstanceAs (Decidable (_ ∧ _))
  | .exitRun => inferInstanceAs (Decidable (_ ∧ _))
  | .startInvoke .. => inferInstanceAs (Decidable (_ = _))
  | .finishInvoke .. => inferInstanceAs (Decidable (_ ∧ _))
  | .destroyInvoke .. => inferInstanceAs (Decidable (_ = _))
  | .addRef => inferInstanceAs (Decidable (_ ≠ _))
  | .decRef => inferInstanceAs (Decidable (_ ≠ _))

/-- `Run` after `ServeRequest(req)`: a constructor that left no object ends the loop. -/
def afterServe (s : State) (r : Request) : ServePc :=
  if r.isConstructor && s.obj.isNone then .left else .loop

/-- The effect of the end of a method body on the object and on `pop_broker::state`. -/
def endBody (s : State) (o : Outcome) : State :=
  { s with
    obj := if o.makesObject then some 1 else s.obj
    state := if o.aborts then .abort else s.state }

/-- The state after an action. -/
def next (s : State) : Action → State
  -- `RegisterRequest`: a sequential request goes straight to the queue
  | .registerRequest t r =>
      { s with
        recv := s.recv.set t (if r.isConc || r.isMutex then .entered r else .appending r)
        trace := s.trace ++ [.enter r] }
  -- `mutexCond.lock(); if (mutexCount <= 0)`
  | .testMutex t r =>
      { s with
        recv := s.recv.set t (if s.mutexCount ≤ 0 then .direct r else .appending r)
        mutexCond := some t }
  -- `mutexCond.lock(); mutexCount++; mutexCond.unlock()`
  | .countMutex t r =>
      { s with
        recv := s.recv.set t (.appending r)
        mutexCount := s.mutexCount + 1 }
  -- the constructor of `pop_invokethread`
  | .construct t r =>
      { s with
        recv := s.recv.set t (.creating r)
        instanceCount := s.instanceCount + 1 }
  | .create t r =>
      { s with
        recv := s.recv.set t .unlocking
        threads := s.threads ++ [⟨r, .created⟩] }
  -- every attempt failed: the exception is sent and `delete thr` counts the thread down
  | .createFails t r =>
      { s with
        recv := s.recv.set t .unlocking
        instanceCount := s.instanceCount - 1
        trace := s.trace ++ [.drop r] }
  -- the exception leaves `RegisterRequest` before `delete thr` and ends `ReceiveThread`
  | .createThrows t r =>
      { s with
        recv := s.recv.set t .stopped
        trace := s.trace ++ [.leak r] }
  | .unlockDirect t =>
      { s with
        recv := s.recv.set t .idle
        mutexCond := none }
  -- `execCond.lock(); request_fifo.push_back(req); ...; execCond.unlock()`
  | .push t r =>
      { s with
        recv := s.recv.set t
          (if r.isConc then .pushed r (s.fifo.length + 1) else .throttled (s.fifo.length + 1))
        fifo := s.fifo ++ [r]
        trace := s.trace ++ [.append r] }
  -- `concPendings++; mutexCond.unlock()`
  | .countConc t _ n =>
      { s with
        recv := s.recv.set t (.throttled n)
        concPendings := s.concPendings + 1
        mutexCond := none }
  | .returnRegister t _ => { s with recv := s.recv.set t .idle }
  | .callGet => { s with serve := .getting }
  | .getFalse => { s with serve := .left }
  | .get =>
      match getRequest s.concPendings s.fifo with
      | none => s
      | some (pc, rest, n) => { s with serve := pc, fifo := rest, concPendings := n }
  | .mutexReady r => { s with serve := .serving r }
  | .serveConstruct r =>
      { s with
        serve := .creating r
        instanceCount := s.instanceCount + 1 }
  | .serveCreate r =>
      { s with
        serve := afterServe s r
        threads := s.threads ++ [⟨r, .created⟩] }
  | .serveCreateFails r =>
      { s with
        serve := afterServe s r
        instanceCount := s.instanceCount - 1
        trace := s.trace ++ [.drop r] }
  -- the exception leaves `ServeRequest` before `delete thr` and is caught in `Run`
  | .serveCreateThrows r aborts =>
      { s with
        serve := .loop
        state := if aborts then .abort else s.state
        trace := s.trace ++ [.leak r] }
  | .startServe r =>
      { s with
        serve := .running r
        trace := s.trace ++ [.start r] }
  | .finishServe r o =>
      { endBody s o with
        serve := .ended r
        trace := s.trace ++ [.finish r] }
  -- the end of `ServeRequest`, with `mutexCount--` for a mutex request
  | .release r =>
      { s with
        serve := afterServe s r
        mutexCount := if r.isMutex then s.mutexCount - 1 else s.mutexCount
        trace := s.trace ++ [.retire r] }
  -- the exception leaves `ServeRequest` before `mutexCount--` and is caught in `Run`
  | .replyThrows r aborts =>
      { s with
        serve := .loop
        state := if aborts then .abort else s.state
        trace := s.trace ++ [.leak r] }
  | .leaveLoop => { s with serve := .left }
  | .exitRun => { s with serve := .exited, state := .exit }
  | .startInvoke i r =>
      { s with
        threads := s.threads.set i ⟨r, .running⟩
        trace := s.trace ++ [.start r] }
  | .finishInvoke i r o =>
      { endBody s o with
        threads := s.threads.set i ⟨r, .ended⟩
        trace := s.trace ++ [.finish r] }
  -- the destructor of `pop_invokethread`
  | .destroyInvoke i r =>
      { s with
        threads := s.threads.eraseIdx i
        instanceCount := s.instanceCount - 1
        trace := s.trace ++ [.retire r] }
  | .addRef => { s with obj := s.obj.map (· + 1) }
  | .decRef => { s with obj := s.obj.map (· - 1) }

/-- One step of the broker. -/
def step (s : State) (a : Action) : Option State :=
  if Enabled s a then some (next s a) else none

lemma step_eq_some {s t : State} {a : Action} :
    step s a = some t ↔ Enabled s a ∧ t = next s a := by
  rw [step]
  split
  · next h => simp [h, eq_comm]
  · next h => simp [h]

end PopCpp.Broker
