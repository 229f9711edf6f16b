/-
# The methods of an object do not come in between each other

The broker runs the bodies of methods in several threads on one object.  Here a body is a
sequence of small steps on the object, and between two steps of one body the other threads and
the broker itself can take any number of theirs.  A mutex method is alone with the object from
its first step to its last; and if the concurrent methods leave the object as it is, the
sequential and mutex methods have the effect and the results that they have when they are
called one after the other, in the order in which `RegisterRequest` has put them into the queue.
-/
import PopCpp.Lib.Atomic
import PopCpp.Broker.Order

namespace PopCpp.Broker

open Atomic

/-! ### An object behind the broker -/

variable {κ σ ρ : Type*}

/-- The object, what the methods have beside it, with the object as it was when the body began,
and the bodies that are over. -/
structure Execution (κ σ ρ : Type*) where
  object : σ
  frame : Request → κ × σ
  log : List (Entry Request σ ρ)

namespace Execution

variable (m : Methods Request κ σ ρ)

/-- A body begins, or is over: it has a result then. -/
def event (x : Execution κ σ ρ) : Event → Option (Execution κ σ ρ)
  | .start r => some { x with frame := Function.update x.frame r (m.entry r, x.object) }
  | .finish r =>
      match m.move r (x.frame r).1 x.object with
      | .inl _ => none
      | .inr v => some { x with log := x.log ++ [⟨r, (x.frame r).2, v, x.object⟩] }
  | _ => some x

/-- A body takes a step. -/
def move (x : Execution κ σ ρ) (r : Request) : Option (Execution κ σ ρ) :=
  match m.move r (x.frame r).1 x.object with
  | .inl (l, y) =>
      some { x with object := y, frame := Function.update x.frame r (l, (x.frame r).2) }
  | .inr _ => none

end Execution

/-- The broker takes an action, or a body that is executing takes a step. -/
inductive ObjectAction where
  | broker (a : Action)
  | move (r : Request)

/-- A step of the broker and of its object. -/
def objectStep (m : Methods Request κ σ ρ) (s : State × Execution κ σ ρ) :
    ObjectAction → Option (State × Execution κ σ ρ)
  | .broker a =>
      (step s.1 a).bind fun t => (a.events.foldlM (Execution.event m) s.2).map fun x => (t, x)
  | .move r => if r ∈ executing s.1 then (s.2.move m r).map fun x => (s.1, x) else none

/-- The broker with `n` receive threads, before there is anything to execute. -/
def objectInit (m : Methods Request κ σ ρ) (n : ℕ) (x₀ : σ) : State × Execution κ σ ρ :=
  (init n, { object := x₀, frame := fun r => (m.entry r, x₀), log := [] })

/-! ### A counter -/

/-- A counter: a concurrent method reads it, and every other one reads it, writes what comes next
and returns what it has read. -/
def counter : Methods Request (Option ℕ × Bool) ℕ ℕ where
  entry _ := (none, false)
  move r l x :=
    match r.isConc, l with
    | true, _ => .inr x
    | false, (none, _) => .inl ((some x, false), x)
    | false, (some y, false) => .inl ((some y, true), y + 1)
    | false, (some y, true) => .inr y

/-- Two receive threads: a mutex request has been executed, a sequential one has read the counter,
and a concurrent one has read it in between. -/
def counterRun : List ObjectAction :=
  let m : Request := ⟨0, INVOKE_MUTEX⟩
  let q : Request := ⟨1, 0⟩
  let c : Request := ⟨2, INVOKE_CONC⟩
  [.broker (.registerRequest 0 m), .broker (.countMutex 0 m), .broker (.push 0 m),
    .broker (.registerRequest 1 q), .broker (.push 1 q), .broker .callGet, .broker .get,
    .broker (.mutexReady m), .broker (.startServe m), .move m, .move m,
    .broker (.finishServe m ⟨false, false⟩), .broker (.release m), .broker .callGet, .broker .get,
    .broker (.returnRegister 0 1), .broker (.registerRequest 0 c), .broker (.testMutex 0 c),
    .broker (.construct 0 c), .broker (.create 0 c), .broker (.startServe q), .move q,
    .broker (.startInvoke 0 c), .move q, .broker (.finishInvoke 0 c ⟨false, false⟩),
    .broker (.finishServe q ⟨false, false⟩)]

/-- What the calls of a run have returned. -/
def results (S : State × Execution κ σ ρ) : List (ℕ × ρ) :=
  S.2.log.map fun e => (e.call.uid, e.result)

/-! ### The bodies that are executing -/

/-- The requests whose method body is over, in that order. -/
def ended (trace : List Event) : List Request :=
  trace.filterMap fun
    | .finish r => some r
    | _ => none

@[simp] lemma ended_append (tr tr' : List Event) : ended (tr ++ tr') = ended tr ++ ended tr' :=
  List.filterMap_append ..

variable {s t : State} {a : Action}

section Bodies

variable (p : Request → Bool)

/-- The bodies that are executing, those that are over, and, taken off, those that have begun. -/
def bodies : Weight where
  recv _ := 0
  serve pc := pc.body.countP p
  thread x := x.body.countP p
  queued _ := 0
  event
    | .start r => -(if p r then 1 else 0)
    | .finish r => if p r then 1 else 0
    | _ => 0

variable {p}

/-- A body is executing from the time it begins until it is over. -/
lemma gain_bodies (he : Enabled s a) : (bodies p).gain s a = 0 := by
  cases a with
  | get =>
      obtain ⟨r, -, hpc, hgain⟩ := (bodies p).gain_get he
      rw [hgain]
      rcases hpc with hpc | ⟨hpc, -⟩ <;> simp [hpc, bodies, ServePc.body]
  | serveCreate r =>
      rcases afterServe_cases s r with hpc | hpc <;>
        simp [Weight.gain, bodies, ServePc.body, Invocation.body, hpc]
  | serveCreateFails r =>
      rcases afterServe_cases s r with hpc | hpc <;>
        simp [Weight.gain, bodies, ServePc.body, hpc]
  | release r =>
      rcases afterServe_cases s r with hpc | hpc <;>
        simp [Weight.gain, bodies, ServePc.body, hpc]
  | _ => simp [Weight.gain, bodies, ServePc.body, Invocation.body]

lemma sum_event_bodies (trace : List Event) :
    (trace.map (bodies p).event).sum = (ended trace).countP p - (started trace).countP p := by
  induction trace with
  | nil => rfl
  | cons e trace ih =>
      rw [List.map_cons, List.sum_cons, ih]
      cases e <;> simp [bodies, ended, started, List.countP_cons] <;> split <;> omega

end Bodies

variable {n : ℕ}

/-- What has begun is over or is executing. -/
lemma Reachable.started_perm (h : Reachable n s) :
    List.Perm (started s.trace) (ended s.trace ++ executing s) := by
  refine List.perm_iff_count.mpr fun r => ?_
  have htotal : (bodies (· == r)).total s = 0 := by
    refine Transition.Reachable.invariant (I := fun s => (bodies (· == r)).total s = 0) h
      ((bodies _).total_init n rfl rfl) fun s a t _ hs hst => ?_
    obtain ⟨he, rfl⟩ := step_eq_some.mp hst
    rw [(bodies _).total_next he, hs, gain_bodies he, add_zero]
  have hthreads : (s.threads.map (bodies (· == r)).thread).sum =
      ((s.threads.flatMap Invocation.body).countP (· == r) : ℤ) :=
    ListEdit.sum_map_countP _ _ _
  have hserve : (bodies (· == r)).serve s.serve = (s.serve.body.countP (· == r) : ℤ) := rfl
  have hrecv : (s.recv.map (bodies (· == r)).recv).sum = 0 := by simp [bodies]
  have hfifo : (s.fifo.map (bodies (· == r)).queued).sum = 0 := by simp [bodies]
  rw [Weight.total, hrecv, hthreads, hserve, hfifo, sum_event_bodies] at htotal
  show (started s.trace).countP (· == r) = (ended s.trace ++ executing s).countP (· == r)
  rw [executing, List.countP_append, List.countP_append]
  omega

lemma Reachable.executing_next (h : Reachable n s) (hstep : step s a = some t) :
    List.Perm (started a.events ++ executing s) (ended a.events ++ executing t) := by
  have hnext : Reachable n t := by
    obtain ⟨as, hrun⟩ := h
    exact ⟨as ++ [a], Transition.run_concat hrun hstep⟩
  obtain ⟨-, rfl⟩ := step_eq_some.mp hstep
  have hafter := hnext.started_perm
  rw [trace_next, started_append, ended_append, List.append_assoc] at hafter
  have hbefore := h.started_perm.append_right (started a.events)
  rw [List.append_assoc] at hbefore
  exact List.perm_append_comm.trans
    ((List.perm_append_left_iff _).mp (hbefore.symm.trans hafter))

lemma Reachable.nodup_executing (h : Reachable n s) : (executing s).Nodup :=
  (List.nodup_append.mp (h.started_perm.nodup_iff.mp h.nodup_started)).2.1

/-- A sequential or mutex method is executed by the serving thread. -/
lemma Reachable.serve_eq_of_mem_executing (h : Reachable n s) {r : Request} (hr : r ∈ executing s)
    (hc : r.isConc = false) : s.serve = .running r := by
  rcases List.mem_append.mp hr with hr | hr
  · exact ServePc.body_eq hr
  · exact absurd (h.safe.isConc_of_mem_threads hr) (by simp [hc])

/-- Two sequential or mutex methods are not executed at the same time. -/
lemma Reachable.eq_of_mem_executing (h : Reachable n s) {r r' : Request} (hr : r ∈ executing s)
    (hr' : r' ∈ executing s) (hc : r.isConc = false) (hc' : r'.isConc = false) : r' = r := by
  have hserve := h.serve_eq_of_mem_executing hr hc
  rw [h.serve_eq_of_mem_executing hr' hc'] at hserve
  exact ServePc.running.inj hserve

/-- No other method is executed at the same time as a mutex method. -/
lemma Reachable.eq_of_isMutex (h : Reachable n s) {r r' : Request} (hr : r ∈ executing s)
    (hr' : r' ∈ executing s) (hm : r.isMutex = true) : r' = r := by
  have hs := h.safe
  have hserve : s.serve = .running r := by
    rcases List.mem_append.mp hr with hr | hr
    · exact ServePc.body_eq hr
    · obtain ⟨x, hx, hrx⟩ := List.mem_flatMap.mp hr
      obtain ⟨hc, hsingle⟩ := hs.threads_typed x hx
      rw [Invocation.mem_body hrx] at hm
      exact absurd ⟨hc, hm⟩ hsingle
  have hthreads : s.threads = [] := by
    have hinst := hs.admitted_instance r (by simp [hserve, ServePc.admitted]) hm
    have heq := hs.instance_eq
    have hle := objects_nonneg.threads_le s
    have hlen : (s.threads.map objects.thread).sum = s.threads.length := by simp [objects]
    exact List.eq_nil_of_length_eq_zero (by omega)
  rw [executing, hserve, hthreads] at hr'
  simpa [ServePc.body] using hr'

/-- The sequential and mutex methods are over in the order in which they began. -/
lemma Reachable.started_eq (h : Reachable n s) :
    nonConc (started s.trace) = nonConc (ended s.trace) ++ s.serve.body := by
  refine Transition.Reachable.invariant
    (I := fun s => nonConc (started s.trace) = nonConc (ended s.trace) ++ s.serve.body) h rfl
    fun s a t hreach hs hst => ?_
  obtain ⟨he, rfl⟩ := step_eq_some.mp hst
  have hsafe := Reachable.safe hreach
  rw [trace_next, started_append, ended_append, nonConc_append, nonConc_append]
  cases a with
  | get =>
      obtain ⟨r, -, hpc, -⟩ := mutexes.gain_get he
      rw [he.1] at hs
      rcases hpc with hpc | ⟨hpc, -⟩ <;>
        simpa [hpc, Action.events, started, ended, ServePc.body] using hs
  | startServe r =>
      rw [he.1] at hs
      have hone : nonConc [r] = [r] := by simp [nonConc, he.2]
      simpa [Action.events, started, ended, next, ServePc.body, hone] using hs
  | finishServe r o =>
      have htyped := hsafe.serve_typed
      rw [he.1] at hs htyped
      have hone : nonConc [r] = [r] := by simp [nonConc, htyped.1]
      simpa [Action.events, started, ended, next, endBody, ServePc.body, hone] using hs
  | startInvoke i r =>
      have hnone := nonConc_singleton_of_isConc (hsafe.threads_typed _ (List.mem_of_getElem? he)).1
      simpa [Action.events, started, ended, next, hnone] using hs
  | finishInvoke i r o =>
      have hnone := nonConc_singleton_of_isConc
        (hsafe.threads_typed _ (List.mem_of_getElem? he.1)).1
      simpa [Action.events, started, ended, next, endBody, hnone] using hs
  | serveCreate r =>
      have hserve : s.serve = .creating r := he
      rw [hserve] at hs
      rcases afterServe_cases s r with hpc | hpc <;>
        simpa [Action.events, started, ended, next, ServePc.body, hpc] using hs
  | serveCreateFails r =>
      have hserve : s.serve = .creating r := he
      rw [hserve] at hs
      rcases afterServe_cases s r with hpc | hpc <;>
        simpa [Action.events, started, ended, next, ServePc.body, hpc] using hs
  | release r =>
      rw [he.1] at hs
      rcases afterServe_cases s r with hpc | hpc <;>
        simpa [Action.events, started, ended, next, ServePc.body, hpc] using hs
  | callGet => rw [he.1] at hs; simpa [Action.events, started, ended, next, ServePc.body] using hs
  | getFalse => rw [he.1] at hs; simpa [Action.events, started, ended, next, ServePc.body] using hs
  | mutexReady r =>
      rw [he.1] at hs
      simpa [Action.events, started, ended, next, ServePc.body] using hs
  | serveConstruct r =>
      rw [he.1] at hs
      simpa [Action.events, started, ended, next, ServePc.body] using hs
  | serveCreateThrows r aborts =>
      rw [he.1] at hs
      simpa [Action.events, started, ended, next, ServePc.body] using hs
  | replyThrows r aborts =>
      rw [he.1] at hs
      simpa [Action.events, started, ended, next, ServePc.body] using hs
  | leaveLoop => rw [he.1] at hs; simpa [Action.events, started, ended, next, ServePc.body] using hs
  | exitRun => rw [he.1] at hs; simpa [Action.events, started, ended, next, ServePc.body] using hs
  | _ => simpa [Action.events, started, ended, next] using hs

/-! ### What a step can do -/

/-- What a step does to the bodies that are executing, to those that are over and to the object. -/
inductive ObjectStep (m : Methods Request κ σ ρ) :
    State × Execution κ σ ρ → State × Execution κ σ ρ → Prop
  | idle {s t : State} {x : Execution κ σ ρ} (hover : ended t.trace = ended s.trace)
      (hperm : List.Perm (executing s) (executing t)) : ObjectStep m (s, x) (t, x)
  | start {s t : State} {x : Execution κ σ ρ} (r : Request) (hover : ended t.trace = ended s.trace)
      (hperm : List.Perm (r :: executing s) (executing t)) :
      ObjectStep m (s, x)
        (t, { x with frame := Function.update x.frame r (m.entry r, x.object) })
  | finish {s t : State} {x : Execution κ σ ρ} (r : Request) (v : ρ)
      (hover : ended t.trace = ended s.trace ++ [r])
      (hperm : List.Perm (executing s) (r :: executing t))
      (hmove : m.move r (x.frame r).1 x.object = .inr v) :
      ObjectStep m (s, x) (t, { x with log := x.log ++ [⟨r, (x.frame r).2, v, x.object⟩] })
  | move {s : State} {x : Execution κ σ ρ} (r : Request) (l : κ) (y : σ) (hr : r ∈ executing s)
      (hmove : m.move r (x.frame r).1 x.object = .inl (l, y)) :
      ObjectStep m (s, x)
        (s, { x with object := y, frame := Function.update x.frame r (l, (x.frame r).2) })

lemma objectStep_cases {m : Methods Request κ σ ρ} {s t : State × Execution κ σ ρ}
    {α : ObjectAction} (hreach : Reachable n s.1) (h : objectStep m s α = some t) :
    ObjectStep m s t := by
  obtain ⟨s, x⟩ := s
  cases α with
  | broker a =>
      obtain ⟨u, hstep, hfold⟩ := Option.bind_eq_some_iff.mp h
      obtain ⟨x', hx', rfl⟩ := Option.map_eq_some_iff.mp hfold
      have hperm := hreach.executing_next hstep
      obtain ⟨he, rfl⟩ := step_eq_some.mp hstep
      have hover := congrArg ended (trace_next s a)
      rw [ended_append] at hover
      rcases a.events_cases with hnone | ⟨e, hone⟩
      · rw [hnone] at hx' hperm hover
        obtain rfl : x = x' := Option.some.inj hx'
        exact .idle (hover.trans (List.append_nil _)) hperm
      · rw [hone] at hx' hperm hover
        have hx' : x.event m e = some x' := by
          simpa [List.foldlM] using hx'
        cases e with
        | start r =>
            obtain rfl := Option.some.inj hx'
            exact .start r (hover.trans (List.append_nil _)) hperm
        | finish r =>
            rw [Execution.event] at hx'
            split at hx'
            · exact absurd hx' (Option.some_ne_none _).symm
            · next v hmove =>
                obtain rfl := Option.some.inj hx'
                exact .finish r v hover hperm hmove
        | _ =>
            obtain rfl := Option.some.inj hx'
            exact .idle (hover.trans (List.append_nil _)) hperm
  | move r =>
      rw [objectStep] at h
      split at h
      · next hr =>
          obtain ⟨x', hx', rfl⟩ := Option.map_eq_some_iff.mp h
          rw [Execution.move] at hx'
          split at hx'
          · next l y hmove =>
              obtain rfl := Option.some.inj hx'
              exact .move r l y hr hmove
          · exact absurd hx' (Option.some_ne_none _).symm
      · exact absurd h (Option.some_ne_none _).symm

/-! ### Methods that are alone -/

section Alone

variable {m : Methods Request κ σ ρ} {E : Request → Bool} {x₀ : σ}
  {S T : State × Execution κ σ ρ}

/-- While a body of this kind executes, no other one changes the object. -/
def LeftAlone (m : Methods Request κ σ ρ) (E : Request → Bool) : Prop :=
  ∀ ⦃n s⦄, Reachable n s → ∀ r ∈ executing s, E r = true → ∀ r' ∈ executing s, r' ≠ r →
    ∀ l y l' y', m.move r' l y = .inl (l', y') → y' = y

/-- The bodies of this kind have been alone with the object since they began, and were until they
were over. -/
structure Undisturbed (m : Methods Request κ σ ρ) (E : Request → Bool)
    (S : State × Execution κ σ ρ) : Prop where
  log : ∀ e ∈ S.2.log, E e.call = true → m.Complete e
  executing : ∀ r ∈ executing S.1, E r = true →
    m.Reaches r (S.2.frame r).2 ((S.2.frame r).1, S.2.object)

lemma Undisturbed.next (h : Undisturbed m E S) (hleft : LeftAlone m E) (hreach : Reachable n S.1)
    (hreach' : Reachable n T.1) (hstep : ObjectStep m S T) : Undisturbed m E T := by
  cases hstep with
  | idle hover hperm =>
      exact ⟨h.log, fun r hr => h.executing r (hperm.mem_iff.mpr hr)⟩
  | @start s t x r hover hperm =>
      refine ⟨h.log, fun r' hr' hE => ?_⟩
      rcases List.mem_cons.mp (hperm.mem_iff.mpr hr') with rfl | hbefore
      · show m.Reaches r' (Function.update x.frame r' _ r').2
          ((Function.update x.frame r' _ r').1, x.object)
        rw [Function.update_self]
        exact .refl
      · have hne : r' ≠ r := by
          have hnodup := hperm.nodup_iff.mpr hreach'.nodup_executing
          rintro rfl
          exact (List.nodup_cons.mp hnodup).1 hbefore
        show m.Reaches r' (Function.update x.frame r _ r').2
          ((Function.update x.frame r _ r').1, x.object)
        rw [Function.update_of_ne hne]
        exact h.executing r' hbefore hE
  | @finish s t x r v hover hperm hmove =>
      refine ⟨fun e he hE => ?_, fun r' hr' => ?_⟩
      · rcases List.mem_append.mp he with he | he
        · exact h.log e he hE
        · obtain rfl := List.mem_singleton.mp he
          exact ⟨_, h.executing r (hperm.mem_iff.mpr List.mem_cons_self) hE, hmove⟩
      · exact h.executing r' (hperm.mem_iff.mpr (List.mem_cons_of_mem _ hr'))
  | @move s x r l y hr hmove =>
      refine ⟨h.log, fun r' hr' hE => ?_⟩
      by_cases heq : r' = r
      · obtain rfl := heq
        show m.Reaches r' (Function.update x.frame r' _ r').2
          ((Function.update x.frame r' _ r').1, y)
        rw [Function.update_self]
        exact (h.executing r' hr' hE).tail hmove
      · -- the other body leaves the object as it is
        obtain rfl := hleft hreach r' hr' hE r hr (Ne.symm heq) _ _ _ _ hmove
        show m.Reaches r' (Function.update x.frame r _ r').2
          ((Function.update x.frame r _ r').1, x.object)
        rw [Function.update_of_ne heq]
        exact h.executing r' hr' hE

/-- The broker of a system with an object behind it is a broker. -/
lemma reachable_of_run {αs : List ObjectAction}
    (hrun : Transition.run (objectStep m) (objectInit m n x₀) αs = some S) : Reachable n S.1 := by
  refine Transition.Reachable.invariant (I := fun S => Reachable n S.1) ⟨αs, hrun⟩ ⟨[], rfl⟩
    fun S α T _ hs hstep => ?_
  cases α with
  | broker a =>
      obtain ⟨u, hu, hfold⟩ := Option.bind_eq_some_iff.mp hstep
      obtain ⟨x', -, rfl⟩ := Option.map_eq_some_iff.mp hfold
      obtain ⟨as, has⟩ := hs
      exact ⟨as ++ [a], Transition.run_concat has hu⟩
  | move r =>
      rw [objectStep] at hstep
      split at hstep
      · obtain ⟨x', -, rfl⟩ := Option.map_eq_some_iff.mp hstep
        exact hs
      · exact absurd hstep (Option.some_ne_none _).symm

/-- **Invariants of a broker with an object.** -/
lemma object_invariant {I : State × Execution κ σ ρ → Prop} {αs : List ObjectAction}
    (hinit : I (objectInit m n x₀))
    (hnext : ∀ S T, I S → Reachable n S.1 → Reachable n T.1 → ObjectStep m S T → I T)
    (hrun : Transition.run (objectStep m) (objectInit m n x₀) αs = some S) : I S := by
  refine Transition.Reachable.invariant (I := I) ⟨αs, hrun⟩ hinit fun S α T hreach hs hstep => ?_
  obtain ⟨as, has⟩ := hreach
  have hS := reachable_of_run has
  exact hnext S T hs hS (reachable_of_run (Transition.run_concat has hstep))
    (objectStep_cases hS hstep)

lemma undisturbed {αs : List ObjectAction} (hleft : LeftAlone m E)
    (hrun : Transition.run (objectStep m) (objectInit m n x₀) αs = some S) : Undisturbed m E S :=
  object_invariant ⟨fun _ he => absurd he List.not_mem_nil, fun _ hr => absurd hr List.not_mem_nil⟩
    (fun _ _ h hS hT hstep => h.next hleft hS hT hstep) hrun

/-- **A mutex method is alone with the object.**  Whatever the other methods do to the object, a
body of a mutex method goes from the object as it was when the body began to the object and the
result it ends with by its own steps only. -/
theorem mutex_undisturbed (m : Methods Request κ σ ρ) (n : ℕ) (x₀ : σ) (αs : List ObjectAction)
    (S : State × Execution κ σ ρ)
    (hrun : Transition.run (objectStep m) (objectInit m n x₀) αs = some S) :
    Undisturbed m Request.isMutex S := by
  refine undisturbed (fun n s hs r hr hm r' hr' hne => ?_) hrun
  exact absurd (hs.eq_of_isMutex hr hr' hm) hne

theorem mutex_undisturbed_counterRun :
    ∃ S, Transition.run (objectStep counter) (objectInit counter 2 0) counterRun = some S ∧
      results S = [(0, 0), (2, 2), (1, 1)] ∧ Undisturbed counter Request.isMutex S := by
  obtain ⟨S, hrun, hresults⟩ :
      ∃ S, Transition.run (objectStep counter) (objectInit counter 2 0) counterRun = some S ∧
        results S = [(0, 0), (2, 2), (1, 1)] := ⟨_, rfl, by decide⟩
  exact ⟨S, hrun, hresults, mutex_undisturbed counter 2 0 counterRun S hrun⟩

/-! ### Methods one after the other -/

/-- The calls that have been made of sequential and mutex methods. -/
def calls (log : List (Entry Request σ ρ)) : List (Entry Request σ ρ) :=
  log.filter fun e => !e.call.isConc

/-- The calls of sequential and mutex methods replay, and the one that is executing goes on from
the object they have left. -/
def InTurn (m : Methods Request κ σ ρ) (x₀ : σ) (S : State × Execution κ σ ρ) : Prop :=
  ∃ y, m.Replay x₀ (calls S.2.log) y ∧
    (∀ r ∈ executing S.1, r.isConc = false → (S.2.frame r).2 = y) ∧
    ((∀ r ∈ executing S.1, r.isConc = true) → S.2.object = y)

lemma InTurn.next (h : InTurn m x₀ S) (hall : Undisturbed m (fun r => !r.isConc) S)
    (hconc : ∀ r, r.isConc = true → ∀ l y l' y', m.move r l y = .inl (l', y') → y' = y)
    (hreach : Reachable n S.1) (hreach' : Reachable n T.1) (hstep : ObjectStep m S T) :
    InTurn m x₀ T := by
  obtain ⟨y, hreplay, hbegan, hrest⟩ := h
  cases hstep with
  | idle hover hperm =>
      exact ⟨y, hreplay, fun r hr => hbegan r (hperm.mem_iff.mpr hr),
        fun hall => hrest fun r hr => hall r (hperm.mem_iff.mp hr)⟩
  | @start s t x r hover hperm =>
      have hr := hperm.mem_iff.mp List.mem_cons_self
      refine ⟨y, hreplay, fun r' hr' hc' => ?_, fun hall => hrest fun r' hr' => ?_⟩
      · show (Function.update x.frame r (m.entry r, x.object) r').2 = y
        by_cases heq : r' = r
        · -- no other sequential or mutex method was executing, so that the object is at rest
          rw [heq, Function.update_self]
          refine hrest fun q hq => ?_
          by_contra hqc
          have hqr := hreach'.eq_of_mem_executing (hperm.mem_iff.mp (List.mem_cons_of_mem _ hq)) hr
            (by simpa using hqc) (heq ▸ hc')
          have hnodup := hperm.nodup_iff.mpr hreach'.nodup_executing
          exact (List.nodup_cons.mp hnodup).1 (hqr ▸ hq)
        · rw [Function.update_of_ne heq]
          rcases List.mem_cons.mp (hperm.mem_iff.mpr hr') with hsame | hbefore
          · exact absurd hsame heq
          · exact hbegan r' hbefore hc'
      · exact hall r' (hperm.mem_iff.mp (List.mem_cons_of_mem _ hr'))
  | @finish s t x r v hover hperm hmove =>
      have hr := hperm.mem_iff.mpr List.mem_cons_self
      by_cases hc : r.isConc = true
      · have hlog : calls (x.log ++ [⟨r, (x.frame r).2, v, x.object⟩]) = calls x.log := by
          simp [calls, hc]
        refine ⟨y, hlog ▸ hreplay, fun r' hr' => hbegan r' ?_, fun hall => hrest fun r' hr' => ?_⟩
        · exact hperm.mem_iff.mpr (List.mem_cons_of_mem _ hr')
        · rcases List.mem_cons.mp (hperm.mem_iff.mp hr') with rfl | hr'
          · exact hc
          · exact hall r' hr'
      · have hc' : r.isConc = false := by simpa using hc
        have hlog : calls (x.log ++ [⟨r, (x.frame r).2, v, x.object⟩]) =
            calls x.log ++ [⟨r, (x.frame r).2, v, x.object⟩] := by
          simp [calls, hc']
        refine ⟨x.object, ?_, fun r' hr' hrc => ?_, fun _ => rfl⟩
        · show m.Replay x₀ (calls (x.log ++ [⟨r, (x.frame r).2, v, x.object⟩])) x.object
          rw [hlog]
          exact hreplay.concat (hbegan r hr hc') ⟨_, hall.executing r hr (by simp [hc']), hmove⟩
        · -- it was the only one
          have heq := hreach.eq_of_mem_executing hr
            (hperm.mem_iff.mpr (List.mem_cons_of_mem _ hr')) hc' hrc
          have hnodup := hperm.nodup_iff.mp hreach.nodup_executing
          exact absurd (heq ▸ hr') (List.nodup_cons.mp hnodup).1
  | @move s x r l z hr hmove =>
      refine ⟨y, hreplay, fun r' hr' hc' => ?_, fun hall => ?_⟩
      · show (Function.update x.frame r (l, (x.frame r).2) r').2 = y
        by_cases heq : r' = r
        · rw [heq, Function.update_self]
          exact hbegan r hr (heq ▸ hc')
        · rw [Function.update_of_ne heq]
          exact hbegan r' hr' hc'
      · obtain rfl := hconc r (hall r hr) _ _ _ _ hmove
        exact hrest hall

/-- What is in the log is over. -/
lemma log_eq_ended {αs : List ObjectAction}
    (hrun : Transition.run (objectStep m) (objectInit m n x₀) αs = some S) :
    S.2.log.map Entry.call = ended S.1.trace := by
  refine object_invariant (I := fun S => S.2.log.map Entry.call = ended S.1.trace) rfl
    (fun S T h _ _ hstep => ?_) hrun
  cases hstep with
  | idle hover => exact h.trans hover.symm
  | start r hover => exact h.trans hover.symm
  | @finish s t x r v hover =>
      show (x.log ++ [_]).map Entry.call = ended t.trace
      rw [List.map_append, hover]
      exact congrArg (· ++ [r]) h
  | move => exact h

/-- Concurrent methods that leave the object as it is. -/
def Reading (m : Methods Request κ σ ρ) : Prop :=
  ∀ r, r.isConc = true → ∀ l y l' y', m.move r l y = .inl (l', y') → y' = y

lemma Reading.comap {b : Methods Request κ σ ρ} (h : Reading b) {asks : Request → Request}
    (hconc : ∀ r, (asks r).isConc = r.isConc) : Reading (b.comap asks) :=
  fun r hr => h (asks r) ((hconc r).trans hr)

lemma reading_counter : Reading counter := by
  intro r hr l y l' y' hmove
  simp only [counter, hr] at hmove
  exact absurd hmove Sum.inr_ne_inl

lemma inTurn_of_run {αs : List ObjectAction} (hconc : Reading m)
    (hrun : Transition.run (objectStep m) (objectInit m n x₀) αs = some S) : InTurn m x₀ S := by
  have hleft : LeftAlone m fun r => !r.isConc := by
    intro n s hs r hr hc r' hr' hne l y l' y' hmove
    refine hconc r' ?_ l y l' y' hmove
    by_contra hc'
    exact hne (hs.eq_of_mem_executing hr hr' (by simpa using hc) (by simpa using hc'))
  have hboth : InTurn m x₀ S ∧ Undisturbed m (fun r => !r.isConc) S := by
    refine object_invariant (I := fun S => InTurn m x₀ S ∧ Undisturbed m (fun r => !r.isConc) S)
      ⟨⟨x₀, rfl, fun _ hr => absurd hr List.not_mem_nil, fun _ => rfl⟩,
        fun _ he => absurd he List.not_mem_nil, fun _ hr => absurd hr List.not_mem_nil⟩
      (fun S T h hS hT hstep => ?_) hrun
    exact ⟨h.1.next h.2 hconc hS hT hstep, h.2.next hleft hS hT hstep⟩
  exact hboth.1

/-- The calls are in the order of the queue. -/
lemma calls_isPrefix {αs : List ObjectAction}
    (hrun : Transition.run (objectStep m) (objectInit m n x₀) αs = some S) :
    (calls S.2.log).map Entry.call <+: nonConc (appended S.1.trace) := by
  have hreach := reachable_of_run hrun
  have hcalls : (calls S.2.log).map Entry.call = nonConc (ended S.1.trace) := by
    rw [← log_eq_ended hrun, calls, nonConc, List.filter_map]
    rfl
  rw [hcalls, hreach.inOrder, hreach.started_eq, List.append_assoc, List.append_assoc]
  exact List.prefix_append _ _

/-- **The sequential and mutex methods are executed one after the other.**  If the concurrent
methods leave the object as it is, then whatever the threads do, the calls of the other methods
have had the effects and the results of calling them one after the other, in the order in which
they were put into the queue. -/
theorem sequential_execution (m : Methods Request κ σ ρ) (hconc : Reading m) (n : ℕ) (x₀ : σ)
    (αs : List ObjectAction) (S : State × Execution κ σ ρ)
    (hrun : Transition.run (objectStep m) (objectInit m n x₀) αs = some S) :
    (calls S.2.log).map Entry.call <+: nonConc (appended S.1.trace) ∧
      ∃ y, m.Replay x₀ (calls S.2.log) y ∧
        ((∀ r ∈ executing S.1, r.isConc = true) → S.2.object = y) :=
  ⟨calls_isPrefix hrun, (inTurn_of_run hconc hrun).imp fun _ h => ⟨h.1, h.2.2⟩⟩

theorem sequential_execution_counterRun :
    ∃ S, Transition.run (objectStep counter) (objectInit counter 2 0) counterRun = some S ∧
      S.2.object = 2 ∧ (calls S.2.log).map Entry.call <+: nonConc (appended S.1.trace) ∧
      ∃ y, counter.Replay 0 (calls S.2.log) y ∧
        ((∀ r ∈ executing S.1, r.isConc = true) → S.2.object = y) := by
  obtain ⟨S, hrun, hobject⟩ :
      ∃ S, Transition.run (objectStep counter) (objectInit counter 2 0) counterRun = some S ∧
        S.2.object = 2 := ⟨_, rfl, by decide⟩
  exact ⟨S, hrun, hobject, sequential_execution counter reading_counter 2 0 counterRun S hrun⟩

/-- What the calls ask for is in the order of the queue. -/
lemma map_call_calls {χ : Type*} (asks : Request → χ) (log : List (Entry Request σ ρ)) :
    ((calls log).map (Entry.map asks)).map Entry.call = ((calls log).map Entry.call).map asks := by
  rw [List.map_map, List.map_map]
  rfl

/-- **The order in the queue decides the results.**  Two brokers with objects that are alike, each
with its own numbers for the requests: `asks` and `asks'` tell which call a request asks for.  If
what the sequential and mutex requests ask for came into the queue in the same order, these calls
have the same results and the same objects before and after them, as far as both have come,
whatever else the threads have done. -/
theorem results_of_order {χ : Type*} (b : Methods χ κ σ ρ) (asks asks' : Request → χ)
    (hconc : Reading (b.comap asks)) (hconc' : Reading (b.comap asks')) (n n' : ℕ) (x₀ : σ)
    (αs αs' : List ObjectAction) (S T : State × Execution κ σ ρ)
    (hrun : Transition.run (objectStep (b.comap asks)) (objectInit (b.comap asks) n x₀) αs = some S)
    (hrun' : Transition.run (objectStep (b.comap asks')) (objectInit (b.comap asks') n' x₀) αs' =
      some T)
    (horder : (nonConc (appended S.1.trace)).map asks <+:
      (nonConc (appended T.1.trace)).map asks') :
    (calls S.2.log).map (Entry.map asks) <+: (calls T.2.log).map (Entry.map asks') ∨
      (calls T.2.log).map (Entry.map asks') <+: (calls S.2.log).map (Entry.map asks) := by
  obtain ⟨y, hreplay, -⟩ := inTurn_of_run hconc hrun
  obtain ⟨y', hreplay', -⟩ := inTurn_of_run hconc' hrun'
  have hprefix := ((calls_isPrefix hrun).map asks).trans horder
  have hprefix' := (calls_isPrefix hrun').map asks'
  rw [← map_call_calls] at hprefix hprefix'
  rcases List.prefix_or_prefix_of_prefix hprefix hprefix' with hcalls | hcalls
  · exact .inl (hreplay.map.prefix_of_prefix hreplay'.map hcalls)
  · exact .inr (hreplay'.map.prefix_of_prefix hreplay.map hcalls)

/-- Of a request the counter only looks at the semantics. -/
def anonymous (r : Request) : Request := { r with uid := 0 }

/-- One receive thread, and a concurrent request that comes first: the others have other numbers,
with the same order in the queue. -/
def singleRun : List ObjectAction :=
  let c : Request := ⟨0, INVOKE_CONC⟩
  let m : Request := ⟨1, INVOKE_MUTEX⟩
  let q : Request := ⟨2, 0⟩
  [.broker (.registerRequest 0 c), .broker (.testMutex 0 c), .broker (.construct 0 c),
    .broker (.create 0 c), .broker (.unlockDirect 0), .broker (.registerRequest 0 m),
    .broker (.countMutex 0 m), .broker (.push 0 m), .broker .callGet, .broker .get,
    .broker (.startInvoke 0 c), .broker (.finishInvoke 0 c ⟨false, false⟩),
    .broker (.destroyInvoke 0 c), .broker (.mutexReady m), .broker (.startServe m), .move m,
    .broker (.returnRegister 0 1), .move m, .broker (.registerRequest 0 q), .broker (.push 0 q),
    .broker (.finishServe m ⟨false, false⟩)]

theorem results_of_order_singleRun :
    ∃ S T, Transition.run (objectStep (counter.comap anonymous))
        (objectInit (counter.comap anonymous) 1 0) singleRun = some S ∧
      Transition.run (objectStep (counter.comap anonymous))
        (objectInit (counter.comap anonymous) 2 0) counterRun = some T ∧
      results S = [(0, 0), (1, 0)] ∧
      ((calls S.2.log).map (Entry.map anonymous) <+: (calls T.2.log).map (Entry.map anonymous) ∨
        (calls T.2.log).map (Entry.map anonymous) <+:
          (calls S.2.log).map (Entry.map anonymous)) := by
  obtain ⟨S, hrun, hresults, happended⟩ :
      ∃ S, Transition.run (objectStep (counter.comap anonymous))
          (objectInit (counter.comap anonymous) 1 0) singleRun = some S ∧
        results S = [(0, 0), (1, 0)] ∧
        nonConc (appended S.1.trace) = [⟨1, INVOKE_MUTEX⟩, ⟨2, 0⟩] := ⟨_, rfl, by decide, by decide⟩
  obtain ⟨T, hrun', happended'⟩ :
      ∃ T, Transition.run (objectStep (counter.comap anonymous))
          (objectInit (counter.comap anonymous) 2 0) counterRun = some T ∧
        nonConc (appended T.1.trace) = [⟨0, INVOKE_MUTEX⟩, ⟨1, 0⟩] := ⟨_, rfl, by decide⟩
  have horder : (nonConc (appended S.1.trace)).map anonymous <+:
      (nonConc (appended T.1.trace)).map anonymous := by
    rw [happended, happended']
    exact List.prefix_rfl
  exact ⟨S, T, hrun, hrun', hresults, results_of_order counter anonymous anonymous
    (reading_counter.comap fun _ => rfl) (reading_counter.comap fun _ => rfl) 1 2 0 singleRun
    counterRun S T hrun hrun' horder⟩

end Alone

end PopCpp.Broker
