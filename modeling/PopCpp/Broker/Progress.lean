/-
# The broker comes to rest

Locks, counters and conditions are there to delay a request, not to lose it.  This file shows
that the broker cannot delay one for ever.

* No livelock: whatever the interleaving, the actions that the broker takes are paid for by
  the calls of `RegisterRequest`, at most twelve for each.
* No deadlock: as long as exception replies can be sent, the broker stops only at rest.  Then
  no thread of a request is left and `mutexCond` is free, and every request that was
  registered has been served, unless the serving thread is gone and left it in the queue.

The first part rests on a `Weight` that every action of the broker lowers.  The second one
looks at what each thread waits for: a receive thread for `mutexCond`, whose holder never
waits, or for the queue to shrink; the serving thread for the threads of concurrent requests,
which wait for nobody, or for `mutexCond`.
-/
import PopCpp.Broker.Conservation
import PopCpp.Lib.Progress

namespace PopCpp.Broker

/-! ### The actions of the broker and the calls from outside -/

/-- A call of `RegisterRequest`. -/
def Action.isRegister : Action → Bool
  | .registerRequest _ _ => true
  | _ => false

/-- An action that the broker takes on its own: everything but a request that comes in and a
reference that is taken or given back. -/
def Action.isOwn : Action → Bool
  | .registerRequest _ _ => false
  | .addRef => false
  | .decRef => false
  | _ => true

/-- No action of the broker can be taken, but for a reply that fails. -/
def Stuck (s : State) : Prop :=
  ∀ a : Action, a.isOwn = true → a.replyFails = false → ¬Enabled s a

/-! ### No livelock -/

/-- A bound on the actions that are still to be taken for what is in a place. -/
def work : Weight where
  recv
    | .idle => 0
    | .entered _ => 12
    | .direct _ => 6
    | .creating _ => 5
    | .unlocking => 1
    | .appending _ => 11
    | .pushed _ _ => 2
    | .throttled _ => 1
    | .stopped => 0
  serve
    | .loop => 3
    | .getting => 2
    | .waiting _ => 9
    | .serving _ => 8
    | .creating _ => 7
    | .running _ => 5
    | .ended _ => 4
    | .left => 1
    | .exited => 0
  thread x :=
    match x.pc with
    | .created => 3
    | .running => 2
    | .ended => 1
  queued _ := 8
  event _ := 0

lemma work_nonneg : work.Nonneg := by
  refine ⟨fun pc => ?_, fun pc => ?_, fun x => ?_, fun _ => by simp [work], fun _ => le_rfl⟩
  · cases pc <;> simp [work]
  · cases pc <;> simp [work]
  · obtain ⟨r, pc⟩ := x
    cases pc <;> simp [work]

lemma Weight.Nonneg.total_nonneg {w : Weight} (h : w.Nonneg) (s : State) : 0 ≤ w.total s :=
  (h.serve s.serve).trans (h.serve_le s)

variable {s : State} {a : Action}

lemma Action.isRegister_of_isOwn (h : a.isOwn = true) : a.isRegister = false := by
  cases a <;> first | rfl | exact absurd h Bool.false_ne_true

lemma work_afterServe_le (s : State) (r : Request) : work.serve (afterServe s r) ≤ 3 := by
  rcases afterServe_cases s r with h | h <;> rw [h] <;> simp [work]

/-- Every action of the broker lowers what is left to do; a request that comes in raises it
by 12 at most. -/
lemma gain_work (he : Enabled s a) :
    work.gain s a + (if a.isOwn then 1 else 0) ≤ if a.isRegister then 12 else 0 := by
  cases a with
  | registerRequest t r =>
      by_cases hcm : r.isConc = true ∨ r.isMutex = true <;>
        simp [Weight.gain, work, Action.isOwn, Action.isRegister, hcm]
  | testMutex t r =>
      by_cases hmc : s.mutexCount ≤ 0 <;>
        simp [Weight.gain, work, Action.isOwn, Action.isRegister, hmc]
  | push t r =>
      by_cases hc : r.isConc = true <;>
        simp [Weight.gain, work, Action.isOwn, Action.isRegister, hc]
  | get =>
      obtain ⟨r, -, hpc, hgain⟩ := work.gain_get he
      rw [hgain]
      rcases hpc with hpc | ⟨hpc, -⟩ <;> simp [work, Action.isOwn, Action.isRegister, hpc]
  | serveCreate r =>
      have hle := work_afterServe_le s r
      have hcreating : work.serve (.creating r) = 7 := rfl
      have hthread : work.thread ⟨r, .created⟩ = 3 := rfl
      simp only [Weight.gain, Action.isOwn, Action.isRegister, hcreating, hthread]
      simp only [if_true, Bool.false_eq_true, if_false]
      omega
  | serveCreateFails r =>
      have hle := work_afterServe_le s r
      have hcreating : work.serve (.creating r) = 7 := rfl
      have hevent : work.event (.drop r) = 0 := rfl
      simp only [Weight.gain, Action.isOwn, Action.isRegister, hcreating, hevent]
      simp only [if_true, Bool.false_eq_true, if_false]
      omega
  | release r =>
      have hle := work_afterServe_le s r
      have hended : work.serve (.ended r) = 4 := rfl
      have hevent : work.event (.retire r) = 0 := rfl
      simp only [Weight.gain, Action.isOwn, Action.isRegister, hended, hevent]
      simp only [if_true, Bool.false_eq_true, if_false]
      omega
  | _ => simp [Weight.gain, work, Action.isOwn, Action.isRegister]

/-- What is left to do, as a natural number. -/
def State.toDo (s : State) : ℕ := (work.total s).toNat

lemma toDo_next (he : Enabled s a) :
    (if a.isOwn then 1 else 0) + (next s a).toDo ≤ s.toDo + if a.isRegister then 12 else 0 := by
  have hgain := gain_work he
  have htotal := work.total_next he
  have hbefore := work_nonneg.total_nonneg s
  have hafter := work_nonneg.total_nonneg (next s a)
  simp only [State.toDo]
  cases hown : a.isOwn <;> cases hreg : a.isRegister <;>
    simp only [hown, hreg, Bool.false_eq_true, if_true, if_false] at hgain ⊢ <;> omega

/-- The actions of the broker and what is left to do are paid for by the requests. -/
lemma own_actions_add_toDo_le {n : ℕ} {as : List Action}
    (hrun : Transition.run step (init n) as = some s) :
    as.countP Action.isOwn + s.toDo ≤ 12 * as.countP Action.isRegister + 3 := by
  have hpaid := Transition.run_sum_cost_add_le (P := fun _ _ => True) (I := fun _ => True)
    (f := State.toDo) (fun a => if a.isOwn then 1 else 0) (fun a => if a.isRegister then 12 else 0)
    (fun s a t _ _ hst => by
      obtain ⟨he, rfl⟩ := step_eq_some.mp hst
      exact ⟨trivial, toDo_next he⟩)
    trivial (Transition.along_of_forall fun _ _ _ => trivial) hrun
  have hinit : (init n).toDo = 3 := by
    simp [State.toDo, Weight.total, init, work]
  rw [Transition.sum_map_ite_eq_countP, Transition.sum_map_ite_eq_countP, hinit] at hpaid
  omega

/-- **No livelock.**  In every run, from its beginning, the broker takes at most twelve actions
for each request that is registered, and three more. -/
theorem own_actions_le (n : ℕ) (as : List Action) (s : State)
    (hrun : Transition.run step (init n) as = some s) :
    as.countP Action.isOwn ≤ 12 * as.countP Action.isRegister + 3 :=
  (Nat.le_add_right _ _).trans (own_actions_add_toDo_le hrun)

/-- A mutex request, a concurrent one behind it, and the serving thread. -/
def servedRun : List Action :=
  let m : Request := ⟨0, INVOKE_MUTEX⟩
  let c : Request := ⟨1, INVOKE_CONC⟩
  [.registerRequest 0 m, .countMutex 0 m, .push 0 m, .returnRegister 0 1,
    .registerRequest 1 c, .testMutex 1 c, .push 1 c, .callGet, .get, .mutexReady m,
    .startServe m]

theorem own_actions_le_servedRun :
    ∃ s, Transition.run step (init 2) servedRun = some s ∧
      servedRun.countP Action.isOwn ≤ 12 * servedRun.countP Action.isRegister + 3 := by
  obtain ⟨s, hrun⟩ : ∃ s, Transition.run step (init 2) servedRun = some s := ⟨_, rfl⟩
  exact ⟨s, hrun, own_actions_le 2 servedRun s hrun⟩

/-! ### What the threads wait for -/

/-- What progress relies on besides the counters: the holder of `mutexCond` is one of the
receive threads, and a request that waits for `mutexCond` is concurrent or mutex. -/
structure Live (s : State) : Prop where
  holder_lt : ∀ t, s.mutexCond = some t → t < s.recv.length
  entered_kind : ∀ r, .entered r ∈ s.recv → (r.isConc || r.isMutex) = true

lemma length_recv_next (s : State) (a : Action) : (next s a).recv.length = s.recv.length := by
  cases a with
  | get => rw [next_get_eq]
  | registerRequest | testMutex | countMutex | construct | create | createFails | createThrows
  | unlockDirect | push | countConc | returnRegister => exact List.length_set
  | _ => rfl

lemma Live.holder_lt_next (h : Live s) (he : Enabled s a) :
    ∀ t, (next s a).mutexCond = some t → t < (next s a).recv.length := by
  rw [length_recv_next]
  have hlt := h.holder_lt
  cases a with
  | testMutex u r =>
      intro t ht
      obtain rfl : u = t := by simpa [next] using ht
      exact (List.getElem?_eq_some_iff.mp he.1).1
  | unlockDirect u => simp [next]
  | countConc u r k => simp [next]
  | get =>
      rw [next_get_eq]
      exact hlt
  | _ => exact hlt

lemma mem_of_mem_set_of_ne {l : List RecvPc} {t : ℕ} {pc pc' : RecvPc} (h : pc ∈ l.set t pc')
    (hne : pc' ≠ pc) : pc ∈ l := by
  rcases List.mem_or_eq_of_mem_set h with h | rfl
  · exact h
  · exact absurd rfl hne

lemma Live.entered_kind_next (h : Live s) (he : Enabled s a) :
    ∀ r, .entered r ∈ (next s a).recv → (r.isConc || r.isMutex) = true := by
  have hkind := h.entered_kind
  have hmove : ∀ {t : ℕ} {pc' : RecvPc}, (∀ r, pc' ≠ .entered r) →
      ∀ r, .entered r ∈ s.recv.set t pc' → (r.isConc || r.isMutex) = true :=
    fun hne r hr => hkind r (mem_of_mem_set_of_ne hr (hne r))
  cases a with
  | registerRequest t q =>
      intro r hr
      rcases List.mem_or_eq_of_mem_set hr with hr | hr
      · exact hkind r hr
      · split at hr
        · next hq =>
            obtain rfl : r = q := by simpa using hr
            exact hq
        · exact absurd hr (by simp)
  | testMutex t q => exact hmove fun r => by split <;> simp
  | push t q => exact hmove fun r => by split <;> simp
  | countMutex t q => exact hmove fun r => by simp
  | construct t q => exact hmove fun r => by simp
  | create t q => exact hmove fun r => by simp
  | createFails t q => exact hmove fun r => by simp
  | createThrows t q => exact hmove fun r => by simp
  | unlockDirect t => exact hmove fun r => by simp
  | countConc t q k => exact hmove fun r => by simp
  | returnRegister t k => exact hmove fun r => by simp
  | get =>
      rw [next_get_eq]
      exact hkind
  | _ => exact hkind

lemma Reachable.live {n : ℕ} (h : Reachable n s) : Live s := by
  refine Transition.Reachable.invariant (I := Live) h ⟨by simp [init], by simp [init]⟩
    fun s a t _ hs hst => ?_
  obtain ⟨he, rfl⟩ := step_eq_some.mp hst
  exact ⟨hs.holder_lt_next he, hs.entered_kind_next he⟩

/-- A receive thread ends only when an exception reply fails. -/
lemma stopped_notMem {n : ℕ} {as : List Action}
    (hrun : Transition.run step (init n) as = some s)
    (hreply : ∀ a ∈ as, a.replyFails = false) : .stopped ∉ s.recv := by
  refine Transition.run_invariant_along (P := fun _ a => a.replyFails = false)
    (I := fun s => .stopped ∉ s.recv) (fun s a t hs hok hst => ?_) (by simp [init])
    (Transition.along_of_forall fun _ => hreply) hrun
  obtain ⟨he, rfl⟩ := step_eq_some.mp hst
  have hmove : ∀ {t : ℕ} {pc' : RecvPc}, pc' ≠ .stopped → .stopped ∉ s.recv.set t pc' :=
    fun hne hmem => hs (mem_of_mem_set_of_ne hmem hne)
  cases a with
  | createThrows t q => exact absurd hok (by simp [Action.replyFails])
  | registerRequest t q => exact hmove (by split <;> simp)
  | testMutex t q => exact hmove (by split <;> simp)
  | push t q => exact hmove (by split <;> simp)
  | countMutex t q => exact hmove (by simp)
  | construct t q => exact hmove (by simp)
  | create t q => exact hmove (by simp)
  | createFails t q => exact hmove (by simp)
  | unlockDirect t => exact hmove (by simp)
  | countConc t q k => exact hmove (by simp)
  | returnRegister t k => exact hmove (by simp)
  | get =>
      rw [next_get_eq]
      exact hs
  | _ => exact hs

/-! ### No deadlock -/

/-- The holder of `mutexCond` can always go on. -/
lemma Stuck.mutexCond_eq_none (h : Stuck s) (hsafe : Safe s) (hlive : Live s)
    (hstop : .stopped ∉ s.recv) : s.mutexCond = none := by
  by_contra hne
  obtain ⟨t, ht⟩ := Option.ne_none_iff_exists'.mp hne
  obtain ⟨pc, hpc⟩ : ∃ pc, s.recv[t]? = some pc :=
    ⟨_, List.getElem?_eq_getElem (hlive.holder_lt t ht)⟩
  have hholds : pc.holds = true := (hsafe.owner t pc hpc).mpr ht
  cases pc with
  | direct r => exact h (.construct t r) rfl rfl hpc
  | creating r => exact h (.create t r) rfl rfl hpc
  | unlocking => exact h (.unlockDirect t) rfl rfl hpc
  | appending r => exact h (.push t r) rfl rfl hpc
  | pushed r k => exact h (.countConc t r k) rfl rfl hpc
  | stopped => exact hstop (List.mem_of_getElem? hpc)
  | idle => simp [RecvPc.holds] at hholds
  | entered r => simp [RecvPc.holds] at hholds
  | throttled k => simp [RecvPc.holds] at hholds

/-- The threads of concurrent requests wait for nobody. -/
lemma Stuck.threads_eq_nil (h : Stuck s) : s.threads = [] := by
  cases hthreads : s.threads with
  | nil => rfl
  | cons x rest =>
      exfalso
      obtain ⟨r, pc⟩ := x
      cases pc with
      | created => exact h (.startInvoke 0 r) rfl rfl (by simp [Enabled, hthreads])
      | running =>
          exact h (.finishInvoke 0 r ⟨false, false⟩) rfl rfl
            (by simp [Enabled, hthreads, Outcome.Possible])
      | ended => exact h (.destroyInvoke 0 r) rfl rfl (by simp [Enabled, hthreads])

/-- Once `mutexCond` is free, a receive thread that has not returned waits for the queue. -/
lemma Stuck.recv_cases (h : Stuck s) (hlive : Live s) (hfree : s.mutexCond = none)
    (hstop : .stopped ∉ s.recv) :
    ∀ pc ∈ s.recv, pc = .idle ∨ (∃ k, pc = .throttled k) ∧ POP_QUEUE_MAX < s.fifo.length := by
  intro pc hpc
  obtain ⟨t, ht⟩ := List.getElem?_of_mem hpc
  cases pc with
  | idle => exact .inl rfl
  | throttled k =>
      refine .inr ⟨⟨k, rfl⟩, ?_⟩
      by_contra hle
      exact h (.returnRegister t k) rfl rfl ⟨ht, .inr (.inr (not_lt.mp hle))⟩
  | entered r =>
      exfalso
      have hkind := hlive.entered_kind r hpc
      cases hc : r.isConc with
      | true => exact h (.testMutex t r) rfl rfl ⟨ht, hc, hfree⟩
      | false =>
          rw [hc, Bool.false_or] at hkind
          exact h (.countMutex t r) rfl rfl ⟨ht, hc, hkind, hfree⟩
  | direct r => exact absurd ht (h (.construct t r) rfl rfl)
  | creating r => exact absurd ht (h (.create t r) rfl rfl)
  | unlocking => exact absurd ht (h (.unlockDirect t) rfl rfl)
  | appending r => exact absurd ht (h (.push t r) rfl rfl)
  | pushed r k => exact absurd ht (h (.countConc t r k) rfl rfl)
  | stopped => exact absurd hpc hstop

/-- Where the serving thread is when nothing is left to wait for but the queue. -/
inductive Parked (s : State) : Prop where
  /-- It waits in `GetRequest` for a request. -/
  | getting (hserve : s.serve = .getting) (hstate : s.state = .running) (hfifo : s.fifo = [])
  /-- It has left the loop of `Run` and waits for a queue that nobody empties. -/
  | left (hserve : s.serve = .left) (hstate : s.state = .running) (hobj : s.obj ≠ none)
      (hfifo : s.fifo ≠ [])
  /-- It has ended. -/
  | exited (hserve : s.serve = .exited)

lemma Stuck.parked (h : Stuck s) (hfree : s.mutexCond = none) (hinst : s.instanceCount ≤ 0) :
    Parked s := by
  cases hpc : s.serve with
  | exited => exact .exited hpc
  | loop =>
      exfalso
      by_cases hst : s.state = .running
      · exact h .callGet rfl rfl ⟨hpc, hst⟩
      · exact h .leaveLoop rfl rfl ⟨hpc, hst⟩
  | getting =>
      by_cases hfifo : s.fifo = []
      · refine .getting hpc ?_ hfifo
        by_contra hst
        exact h .getFalse rfl rfl ⟨hpc, hfifo, .inr hst⟩
      · exact absurd ⟨hpc, hfifo⟩ (h .get rfl rfl)
  | waiting r => exact absurd ⟨hpc, hinst⟩ (h (.mutexReady r) rfl rfl)
  | serving r =>
      exfalso
      cases hc : r.isConc with
      | true => exact h (.serveConstruct r) rfl rfl ⟨hpc, hc⟩
      | false => exact h (.startServe r) rfl rfl ⟨hpc, hc⟩
  | creating r => exact absurd hpc (h (.serveCreate r) rfl rfl)
  | running r =>
      exact absurd ⟨hpc, by simp [Outcome.Possible]⟩ (h (.finishServe r ⟨false, false⟩) rfl rfl)
  | ended r => exact absurd ⟨hpc, fun _ => hfree⟩ (h (.release r) rfl rfl)
  | left =>
      have hexit := h .exitRun rfl rfl
      by_cases hobj : s.obj = none
      · exact absurd ⟨hpc, fun hne => absurd hobj hne⟩ hexit
      · by_cases hst : s.state = .running
        · by_cases hfifo : s.fifo = []
          · exact absurd ⟨hpc, fun _ _ => ⟨hinst, hfifo⟩⟩ hexit
          · exact .left hpc hst hobj hfifo
        · exact absurd ⟨hpc, fun _ hst' => absurd hst' hst⟩ hexit

/-- The broker at rest. -/
structure AtRest (s : State) : Prop where
  threads : s.threads = []
  free : s.mutexCond = none
  recv : ∀ pc ∈ s.recv, pc = .idle ∨ (∃ k, pc = .throttled k) ∧ POP_QUEUE_MAX < s.fifo.length
  parked : Parked s
  /-- Every request is in the queue or done with. -/
  settled : (entered s.trace).Perm (s.fifo ++ finished s.trace)

lemma Parked.held_eq_nil (h : Parked s) : s.serve.held = [] := by
  rcases h with ⟨hserve⟩ | ⟨hserve⟩ | ⟨hserve⟩ <;> rw [hserve] <;> rfl

lemma flatMap_recv_eq_nil {f : RecvPc → List Request} {l : List RecvPc} (hidle : f .idle = [])
    (hthrottled : ∀ k, f (.throttled k) = [])
    (h : ∀ pc ∈ l, pc = .idle ∨ ∃ k, pc = .throttled k) : l.flatMap f = [] := by
  refine List.flatMap_eq_nil_iff.mpr fun pc hpc => ?_
  rcases h pc hpc with rfl | ⟨k, rfl⟩
  · exact hidle
  · exact hthrottled k

/-- **No deadlock.** -/
lemma Stuck.atRest {n : ℕ} {as : List Action} (h : Stuck s)
    (hrun : Transition.run step (init n) as = some s)
    (hreply : ∀ a ∈ as, a.replyFails = false) : AtRest s := by
  have hreach : Reachable n s := ⟨as, hrun⟩
  have hstop := stopped_notMem hrun hreply
  have hleak := leaked_eq_nil hrun hreply
  have hfree := h.mutexCond_eq_none hreach.safe hreach.live hstop
  have hrecv := h.recv_cases hreach.live hfree hstop
  have hthreads := h.threads_eq_nil
  have hkinds : ∀ pc ∈ s.recv, pc = .idle ∨ ∃ k, pc = .throttled k :=
    fun pc hpc => (hrecv pc hpc).imp_right And.left
  have hhanding : s.recv.flatMap RecvPc.handing = [] :=
    flatMap_recv_eq_nil rfl (fun _ => rfl) hkinds
  have hregistering : registering s = [] := flatMap_recv_eq_nil rfl (fun _ => rfl) hkinds
  -- the serving thread is not making a thread object, or it could go on
  have hserving : s.serve.handing = [] := by
    cases hpc : s.serve with
    | creating r => exact absurd hpc (h (.serveCreate r) rfl rfl)
    | _ => rfl
  have hinst : s.instanceCount ≤ 0 := by
    rw [hreach.safe.instanceCount_eq hleak]
    simp [executions, hhanding, hserving, hthreads]
  have hparked := h.parked hfree hinst
  refine ⟨hthreads, hfree, hrecv, hparked, List.perm_iff_count.mpr fun r => ?_⟩
  have hcount := hreach.countP_entered (· == r)
  have hhanded : handed s = [] := by
    simp [handed, hhanding, hthreads, hparked.held_eq_nil]
  rw [hregistering, hhanded, hleak] at hcount
  simpa [List.count, List.countP_append] using hcount

/-- **The broker comes to rest.**  After every run in which exception replies can be sent, the
broker can go on by itself until it is stuck; and where it is stuck, now or then, it is at
rest, with every request that was registered in the queue or done with. -/
theorem comes_to_rest (n : ℕ) (as : List Action) (s : State)
    (hrun : Transition.run step (init n) as = some s)
    (hreply : ∀ a ∈ as, a.replyFails = false) :
    (Stuck s → AtRest s) ∧
      ∃ bs u, (∀ b ∈ bs, b.isOwn = true ∧ b.replyFails = false) ∧
        Transition.run step s bs = some u ∧ bs.length ≤ 12 * as.countP Action.isRegister + 3 ∧
        Stuck u ∧ AtRest u := by
  refine ⟨fun hstuck => hstuck.atRest hrun hreply, ?_⟩
  have hdecrease : ∀ s a t, True → (a.isOwn = true ∧ a.replyFails = false) →
      step s a = some t → True ∧ t.toDo < s.toDo := by
    intro s a t _ ha hst
    obtain ⟨he, rfl⟩ := step_eq_some.mp hst
    have hpaid := toDo_next he
    rw [ha.1, Action.isRegister_of_isOwn ha.1] at hpaid
    simp only [if_true, Bool.false_eq_true, if_false] at hpaid
    exact ⟨trivial, by omega⟩
  obtain ⟨bs, u, hbs, hbu, hend⟩ := Transition.exists_run_stuck hdecrease (s := s) trivial
  have hwhole : Transition.run step (init n) (as ++ bs) = some u :=
    Transition.run_append_eq_some.mpr ⟨s, hrun, hbu⟩
  have hstuck : Stuck u := fun a hown hfail he => by
    have hnone := hend a ⟨hown, hfail⟩
    rw [step, if_pos he] at hnone
    exact absurd hnone (by simp)
  refine ⟨bs, u, hbs, hbu, ?_, hstuck, hstuck.atRest hwhole fun a ha => ?_⟩
  · -- the calls of the whole run are those before `s`
    have hpaid := own_actions_add_toDo_le hwhole
    have hown : bs.countP Action.isOwn = bs.length :=
      List.countP_eq_length.mpr fun b hb => (hbs b hb).1
    have hreg : bs.countP Action.isRegister = 0 := by
      refine List.countP_eq_zero.mpr fun b hb => ?_
      rw [Action.isRegister_of_isOwn (hbs b hb).1]
      exact Bool.false_ne_true
    rw [List.countP_append, List.countP_append, hown, hreg] at hpaid
    omega
  · rcases List.mem_append.mp ha with ha | ha
    · exact hreply a ha
    · exact (hbs a ha).2

theorem comes_to_rest_servedRun :
    ∃ s bs u, Transition.run step (init 2) servedRun = some s ∧
      Transition.run step s bs = some u ∧ AtRest u := by
  obtain ⟨s, hrun⟩ : ∃ s, Transition.run step (init 2) servedRun = some s := ⟨_, rfl⟩
  obtain ⟨-, bs, u, -, hbu, -, -, hrest⟩ := comes_to_rest 2 servedRun s hrun (by decide)
  exact ⟨s, bs, u, hrun, hbu, hrest⟩

end PopCpp.Broker
