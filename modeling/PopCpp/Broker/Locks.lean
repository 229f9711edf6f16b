/-
# Locks, counters and mutual exclusion in the broker

The broker keeps three counters.  This file says what two of them count in every reachable
state, and who can be where while `mutexCond` is held:

* `mutexCond` is held by exactly the receive thread whose program counter says so;
* `instanceCount` counts the thread objects that have been made and not destroyed;
* `mutexCount` counts the mutex requests from the moment `RegisterRequest` has announced
  them until `ServeRequest` is done with them;
* a receive thread that is starting a concurrent request directly has seen
  `mutexCount <= 0`, and nobody can change that while it holds `mutexCond`.

Mutual exclusion follows: a mutex request that has passed the wait of `GetRequest` keeps
`mutexCount` above 0, so no thread object can be made until it is done.
-/
import PopCpp.Broker.Step

namespace PopCpp.Broker

open ListEdit

/-! ### What a program counter says -/

namespace RecvPc

/-- The thread holds `mutexCond`. -/
def holds : RecvPc → Bool
  | .direct _ => true
  | .creating _ => true
  | .unlocking => true
  | .appending r => r.isConc
  | .pushed _ _ => true
  | .stopped => true
  | _ => false

/-- The request that is neither in the queue nor handed to an execution yet. -/
def registering : RecvPc → List Request
  | .entered r => [r]
  | .direct r => [r]
  | .appending r => [r]
  | _ => []

/-- The request whose thread object has been made by this thread. -/
def handing : RecvPc → List Request
  | .creating r => [r]
  | _ => []

/-- The request that has been announced to `mutexCount`, if it is a mutex request, and not
been appended. -/
def announced : RecvPc → List Request
  | .appending r => [r]
  | _ => []

/-- The thread is starting a concurrent request without the queue. -/
def starts : RecvPc → Bool
  | .direct _ => true
  | .creating _ => true
  | _ => false

/-- The kind of request that can be at this point. -/
def Typed : RecvPc → Prop
  | .entered r => r.Single
  | .direct r => r.isConc = true ∧ r.Single
  | .creating r => r.isConc = true ∧ r.Single
  | .appending r => r.Single
  | .pushed r _ => r.isConc = true ∧ r.Single
  | _ => True

lemma holds_of_starts {pc : RecvPc} (h : pc.starts = true) : pc.holds = true := by
  cases pc <;> simp_all [starts, holds]

end RecvPc

namespace ServePc

/-- The request in the hands of the serving thread. -/
def held : ServePc → List Request
  | .waiting r => [r]
  | .serving r => [r]
  | .creating r => [r]
  | .running r => [r]
  | .ended r => [r]
  | _ => []

/-- The request whose thread object has been made by the serving thread. -/
def handing : ServePc → List Request
  | .creating r => [r]
  | _ => []

/-- The request in the hands of the serving thread that has passed the wait of
`GetRequest`. -/
def admitted : ServePc → List Request
  | .serving r => [r]
  | .running r => [r]
  | .ended r => [r]
  | _ => []

/-- The request whose method body the serving thread is executing. -/
def body : ServePc → List Request
  | .running r => [r]
  | _ => []

/-- The kind of request that can be at this point. -/
def Typed : ServePc → Prop
  | .waiting r => r.isMutex = true ∧ r.Single
  | .serving r => r.Single
  | .creating r => r.isConc = true ∧ r.Single
  | .running r => r.isConc = false ∧ r.Single
  | .ended r => r.isConc = false ∧ r.Single
  | _ => True

end ServePc

/-- The request whose method body a thread is executing. -/
def Invocation.body : Invocation → List Request
  | ⟨r, .running⟩ => [r]
  | _ => []

/-- The method bodies that are executing. -/
def executing (s : State) : List Request :=
  s.serve.body ++ s.threads.flatMap Invocation.body

lemma Request.Single.isMutex_eq_false {r : Request} (h : r.Single) (hc : r.isConc = true) :
    r.isMutex = false := by
  by_contra hm
  exact h ⟨hc, by simpa using hm⟩

/-! ### The invariant -/

/-- The `pop_invokethread` objects. -/
def objects : Weight where
  recv pc := pc.handing.length
  serve pc := pc.handing.length
  thread _ := 1
  queued _ := 0
  event
    | .leak r => if r.isConc then 1 else 0
    | _ => 0

/-- The mutex requests that have been announced and not been counted down. -/
def mutexes : Weight where
  recv pc := pc.announced.countP Request.isMutex
  serve pc := pc.held.countP Request.isMutex
  thread _ := 0
  queued r := if r.isMutex then 1 else 0
  event
    | .leak r => if r.isMutex then 1 else 0
    | _ => 0

lemma objects_nonneg : objects.Nonneg := by
  refine ⟨fun _ => by simp [objects], fun _ => by simp [objects], fun _ => by simp [objects],
    fun _ => le_rfl, fun e => ?_⟩
  cases e <;> simp only [objects] <;> (try split) <;> omega

lemma mutexes_nonneg : mutexes.Nonneg := by
  refine ⟨fun _ => by simp [mutexes], fun _ => by simp [mutexes], fun _ => le_rfl,
    fun r => ?_, fun e => ?_⟩
  · simp only [mutexes]
    split <;> omega
  · cases e <;> simp only [mutexes] <;> (try split) <;> omega

/-- Everything the counters and locks are relied on for. -/
structure Safe (s : State) : Prop where
  owner : ∀ t pc, s.recv[t]? = some pc → (pc.holds = true ↔ s.mutexCond = some t)
  recv_typed : ∀ pc ∈ s.recv, pc.Typed
  serve_typed : s.serve.Typed
  fifo_typed : ∀ r ∈ s.fifo, r.Single
  threads_typed : ∀ x ∈ s.threads, x.request.isConc = true ∧ x.request.Single
  instance_eq : s.instanceCount = objects.total s
  mutex_eq : s.mutexCount = mutexes.total s
  starts_mutex : ∀ pc ∈ s.recv, pc.starts = true → s.mutexCount ≤ 0
  admitted_instance : ∀ r ∈ s.serve.admitted, r.isMutex = true → s.instanceCount ≤ 0

lemma safe_init (n : ℕ) : Safe (init n) := by
  have hidle : ∀ pc ∈ (init n).recv, pc = .idle := fun pc h => List.eq_of_mem_replicate h
  refine ⟨?_, ?_, trivial, by simp [init], by simp [init], ?_, ?_, ?_,
    by simp [init, ServePc.admitted]⟩
  · intro t pc h
    rw [hidle pc (List.mem_of_getElem? h)]
    simp [RecvPc.holds, init]
  · intro pc h
    rw [hidle pc h]
    trivial
  · exact (objects.total_init n rfl rfl).symm
  · exact (mutexes.total_init n rfl rfl).symm
  · intro pc h hs
    rw [hidle pc h] at hs
    exact absurd hs (by simp [RecvPc.starts])

/-! ### Preservation, one field at a time -/

section Owner

variable {recv : List RecvPc} {mc : Option ℕ} {t : ℕ} {pc pc' : RecvPc}

/-- `mutexCond` is held by the thread whose program counter says so. -/
def Owner (recv : List RecvPc) (mc : Option ℕ) : Prop :=
  ∀ t pc, recv[t]? = some pc → (pc.holds = true ↔ mc = some t)

lemma getElem?_set_cases {u : ℕ} {x : RecvPc} (h : (recv.set t pc')[u]? = some x) :
    (u = t ∧ x = pc') ∨ (u ≠ t ∧ recv[u]? = some x) := by
  rw [List.getElem?_set] at h
  split at h
  · next htu =>
      split at h
      · exact Or.inl ⟨htu.symm, (Option.some.inj h).symm⟩
      · exact absurd h (by simp)
  · next htu => exact Or.inr ⟨fun h' => htu h'.symm, h⟩

lemma Owner.stay (h : Owner recv mc) (ht : recv[t]? = some pc) (hh : pc'.holds = pc.holds) :
    Owner (recv.set t pc') mc := by
  intro u x hx
  rcases getElem?_set_cases hx with ⟨rfl, rfl⟩ | ⟨-, hx⟩
  · rw [hh]
    exact h u pc ht
  · exact h u x hx

lemma Owner.lock (h : Owner recv none) (hh : pc'.holds = true) :
    Owner (recv.set t pc') (some t) := by
  intro u x hx
  rcases getElem?_set_cases hx with ⟨rfl, rfl⟩ | ⟨hut, hx⟩
  · simp [hh]
  · have hfree := h u x hx
    simp only [reduceCtorEq, iff_false] at hfree
    simp [hfree, Ne.symm hut]

lemma Owner.unlock (h : Owner recv mc) (ht : recv[t]? = some pc) (hpc : pc.holds = true)
    (hh : pc'.holds = false) : Owner (recv.set t pc') none := by
  have hmc : mc = some t := (h t pc ht).mp hpc
  intro u x hx
  rcases getElem?_set_cases hx with ⟨rfl, rfl⟩ | ⟨hut, hx⟩
  · simp [hh]
  · have hfree := h u x hx
    rw [hmc] at hfree
    simp only [Option.some.injEq, Ne.symm hut, iff_false] at hfree
    simp [hfree]

end Owner

variable {s : State} {a : Action}

lemma Safe.owner_next (h : Safe s) (he : Enabled s a) :
    Owner (next s a).recv (next s a).mutexCond := by
  have hown : Owner s.recv s.mutexCond := h.owner
  cases a with
  | registerRequest t r =>
      refine hown.stay he.1 ?_
      by_cases hcm : r.isConc || r.isMutex
      · simp only [hcm, if_true]
        rfl
      · simp only [hcm]
        simp only [Bool.or_eq_true, not_or, Bool.not_eq_true] at hcm
        exact hcm.1
  | testMutex t r =>
      have hfree : Owner s.recv none := he.2.2 ▸ hown
      refine hfree.lock ?_
      split
      · rfl
      · exact he.2.1
  | countMutex t r => exact hown.stay he.1 he.2.1
  | construct t r => exact hown.stay he rfl
  | create t r => exact hown.stay he rfl
  | createFails t r => exact hown.stay he rfl
  | createThrows t r => exact hown.stay he.1 rfl
  | unlockDirect t => exact hown.unlock he rfl rfl
  | push t r =>
      refine hown.stay he ?_
      cases hc : r.isConc <;> simp [RecvPc.holds, hc]
  | countConc t r n => exact hown.unlock he rfl rfl
  | returnRegister t n => exact hown.stay he.1 rfl
  | get =>
      obtain ⟨pc, rest, n, -, hnext⟩ := exists_next_get he
      rw [hnext]
      exact hown
  | _ => exact hown

lemma Safe.recv_typed_next (h : Safe s) (he : Enabled s a) :
    ∀ pc ∈ (next s a).recv, pc.Typed := by
  have hty := h.recv_typed
  have hat : ∀ {t : ℕ} {pc : RecvPc}, s.recv[t]? = some pc → pc.Typed :=
    fun ht => hty _ (List.mem_of_getElem? ht)
  cases a with
  | registerRequest t r =>
      refine forall_mem_set hty ?_
      split
      · exact he.2.1
      · exact he.2.1
  | testMutex t r =>
      have hr : r.Single := hat he.1
      refine forall_mem_set hty ?_
      split
      · exact ⟨he.2.1, hr⟩
      · exact hr
  | countMutex t r => exact forall_mem_set hty (hat he.1 : r.Single)
  | construct t r => exact forall_mem_set hty (hat he : r.isConc = true ∧ r.Single)
  | create t r => exact forall_mem_set hty trivial
  | createFails t r => exact forall_mem_set hty trivial
  | createThrows t r => exact forall_mem_set hty trivial
  | unlockDirect t => exact forall_mem_set hty trivial
  | push t r =>
      have hr : r.Single := hat he
      refine forall_mem_set hty ?_
      split
      · next hc => exact ⟨hc, hr⟩
      · trivial
  | countConc t r n => exact forall_mem_set hty trivial
  | returnRegister t n => exact forall_mem_set hty trivial
  | get =>
      obtain ⟨pc, rest, n, -, hnext⟩ := exists_next_get he
      rw [hnext]
      exact hty
  | _ => exact hty

lemma afterServe_cases (s : State) (r : Request) :
    afterServe s r = .left ∨ afterServe s r = .loop := by
  rw [afterServe]
  split
  · exact Or.inl rfl
  · exact Or.inr rfl

lemma afterServe_typed (s : State) (r : Request) : (afterServe s r).Typed := by
  rcases afterServe_cases s r with h | h <;> rw [h] <;> trivial

lemma afterServe_admitted (s : State) (r : Request) : (afterServe s r).admitted = [] := by
  rcases afterServe_cases s r with h | h <;> rw [h] <;> rfl

lemma Safe.serve_typed_next (h : Safe s) (he : Enabled s a) : (next s a).serve.Typed := by
  have hty := h.serve_typed
  cases a with
  | get =>
      obtain ⟨pc, rest, n, hget, hnext⟩ := exists_next_get he
      obtain ⟨r, l₁, l₂, hpc, hl, -⟩ := getRequest_split hget
      have hr : r.Single := h.fifo_typed r (by simp [hl])
      rw [hnext]
      rcases hpc with rfl | ⟨rfl, hm⟩
      · exact hr
      · exact ⟨hm, hr⟩
  | callGet => trivial
  | getFalse => trivial
  | mutexReady r =>
      rw [he.1] at hty
      exact hty.2
  | serveConstruct r =>
      rw [he.1] at hty
      exact ⟨he.2, hty⟩
  | serveCreate r => exact afterServe_typed s r
  | serveCreateFails r => exact afterServe_typed s r
  | serveCreateThrows r aborts => trivial
  | startServe r =>
      rw [he.1] at hty
      exact ⟨he.2, hty⟩
  | finishServe r o =>
      rw [he.1] at hty
      exact hty
  | release r => exact afterServe_typed s r
  | replyThrows r aborts => trivial
  | leaveLoop => trivial
  | exitRun => trivial
  | _ => exact hty

lemma Safe.fifo_typed_next (h : Safe s) (he : Enabled s a) : ∀ r ∈ (next s a).fifo, r.Single := by
  have hty := h.fifo_typed
  cases a with
  | push t r =>
      have hr : r.Single := h.recv_typed _ (List.mem_of_getElem? he)
      intro x hx
      rcases List.mem_append.mp hx with hx | hx
      · exact hty x hx
      · rw [List.mem_singleton.mp hx]
        exact hr
  | get =>
      obtain ⟨pc, rest, n, hget, hnext⟩ := exists_next_get he
      obtain ⟨r, l₁, l₂, -, hl, rfl⟩ := getRequest_split hget
      rw [hnext]
      intro x hx
      exact hty x (by rw [hl]; simp only [List.mem_append, List.mem_cons] at hx ⊢; tauto)
  | _ => exact hty

lemma Safe.threads_typed_next (h : Safe s) (he : Enabled s a) :
    ∀ x ∈ (next s a).threads, x.request.isConc = true ∧ x.request.Single := by
  have hty := h.threads_typed
  have hat : ∀ {i : ℕ} {x : Invocation}, s.threads[i]? = some x →
      x.request.isConc = true ∧ x.request.Single :=
    fun hi => hty _ (List.mem_of_getElem? hi)
  have happ : ∀ {r : Request}, r.isConc = true ∧ r.Single →
      ∀ x ∈ s.threads ++ [⟨r, .created⟩], x.request.isConc = true ∧ x.request.Single := by
    intro r hr x hx
    rcases List.mem_append.mp hx with hx | hx
    · exact hty x hx
    · rw [List.mem_singleton.mp hx]
      exact hr
  cases a with
  | create t r => exact happ (h.recv_typed _ (List.mem_of_getElem? he))
  | serveCreate r =>
      have hr := h.serve_typed
      rw [he] at hr
      exact happ hr
  | startInvoke i r => exact forall_mem_set hty (hat he : r.isConc = true ∧ r.Single)
  | finishInvoke i r o => exact forall_mem_set hty (hat he.1 : r.isConc = true ∧ r.Single)
  | destroyInvoke i r => exact fun x hx => hty x (List.mem_of_mem_eraseIdx hx)
  | get =>
      obtain ⟨pc, rest, n, -, hnext⟩ := exists_next_get he
      rw [hnext]
      exact hty
  | _ => exact hty

/-- The actions that touch a thread object or `instanceCount` make or destroy one object. -/
lemma Safe.instance_eq_next (h : Safe s) (he : Enabled s a) :
    (next s a).instanceCount = objects.total (next s a) := by
  rw [objects.total_next he, ← h.instance_eq]
  cases a with
  | get =>
      obtain ⟨r, -, hpc, hgain⟩ := objects.gain_get he
      rw [hgain, next_get_eq]
      rcases hpc with hpc | ⟨hpc, -⟩ <;> simp [hpc, objects, ServePc.handing]
  | registerRequest t r =>
      by_cases hcm : r.isConc = true ∨ r.isMutex = true <;>
        simp [next, Weight.gain, objects, RecvPc.handing, hcm]
  | testMutex t r =>
      by_cases hmc : s.mutexCount ≤ 0 <;> simp [next, Weight.gain, objects, RecvPc.handing, hmc]
  | push t r =>
      by_cases hc : r.isConc = true <;> simp [next, Weight.gain, objects, RecvPc.handing, hc]
  | createThrows t r =>
      -- `delete thr` is not reached, so the object stays counted
      have hr : r.isConc = true ∧ r.Single := h.recv_typed _ (List.mem_of_getElem? he.1)
      simp [next, Weight.gain, objects, RecvPc.handing, hr.1]
  | serveCreateThrows r aborts =>
      have hr := h.serve_typed
      rw [he.1] at hr
      simp [next, Weight.gain, objects, ServePc.handing, hr.1]
  | replyThrows r aborts =>
      have hr := h.serve_typed
      rw [he.1] at hr
      simp [next, Weight.gain, objects, ServePc.handing, hr.1]
  | serveCreate r =>
      rcases afterServe_cases s r with hpc | hpc <;>
        simp [next, Weight.gain, objects, ServePc.handing, hpc]
  | serveCreateFails r =>
      rcases afterServe_cases s r with hpc | hpc <;>
        simp [next, Weight.gain, objects, ServePc.handing, hpc, ← sub_eq_add_neg]
  | release r =>
      rcases afterServe_cases s r with hpc | hpc <;>
        simp [next, Weight.gain, objects, ServePc.handing, hpc]
  | _ =>
      simp [next, Weight.gain, objects, RecvPc.handing, ServePc.handing, endBody,
        ← sub_eq_add_neg]

/-- `mutexCount` goes up when a mutex request is announced and down when `ServeRequest` is
done with it; in between the request only changes places. -/
lemma Safe.mutex_eq_next (h : Safe s) (he : Enabled s a) :
    (next s a).mutexCount = mutexes.total (next s a) := by
  rw [mutexes.total_next he, ← h.mutex_eq]
  cases a with
  | get =>
      obtain ⟨r, -, hpc, hgain⟩ := mutexes.gain_get he
      rw [hgain, next_get_eq]
      rcases hpc with hpc | ⟨hpc, -⟩ <;> simp [hpc, mutexes, ServePc.held, List.countP_singleton]
  | registerRequest t r =>
      by_cases hcm : r.isConc = true ∨ r.isMutex = true
      · simp [next, Weight.gain, mutexes, RecvPc.announced, hcm]
      · simp only [not_or, Bool.not_eq_true] at hcm
        simp [next, Weight.gain, mutexes, RecvPc.announced, hcm.1, hcm.2]
  | testMutex t r =>
      have hr : r.Single := h.recv_typed _ (List.mem_of_getElem? he.1)
      by_cases hmc : s.mutexCount ≤ 0 <;>
        simp [next, Weight.gain, mutexes, RecvPc.announced, hmc, hr.isMutex_eq_false he.2.1]
  | countMutex t r => simp [next, Weight.gain, mutexes, RecvPc.announced, he.2.2.1]
  | push t r =>
      by_cases hc : r.isConc = true <;>
        simp [next, Weight.gain, mutexes, RecvPc.announced, hc, List.countP_singleton]
  | createThrows t r =>
      have hr : r.isConc = true ∧ r.Single := h.recv_typed _ (List.mem_of_getElem? he.1)
      simp [next, Weight.gain, mutexes, RecvPc.announced, hr.2.isMutex_eq_false hr.1]
  | serveCreate r =>
      have hr := h.serve_typed
      rw [he] at hr
      rcases afterServe_cases s r with hpc | hpc <;>
        simp [next, Weight.gain, mutexes, ServePc.held, hpc, hr.2.isMutex_eq_false hr.1]
  | serveCreateFails r =>
      have hr := h.serve_typed
      rw [he] at hr
      rcases afterServe_cases s r with hpc | hpc <;>
        simp [next, Weight.gain, mutexes, ServePc.held, hpc, hr.2.isMutex_eq_false hr.1]
  | serveCreateThrows r aborts =>
      have hr := h.serve_typed
      rw [he.1] at hr
      simp [next, Weight.gain, mutexes, ServePc.held, hr.2.isMutex_eq_false hr.1]
  | release r =>
      rcases afterServe_cases s r with hpc | hpc <;> by_cases hm : r.isMutex = true <;>
        simp [next, Weight.gain, mutexes, ServePc.held, hpc, hm, ← sub_eq_add_neg]
  | _ =>
      simp [next, Weight.gain, mutexes, RecvPc.announced, ServePc.held, endBody,
        List.countP_singleton]

/-- While `mutexCond` is free no receive thread is starting a request directly. -/
lemma Safe.starts_of_free (h : Safe s) (hfree : s.mutexCond = none) :
    ∀ pc ∈ s.recv, pc.starts = false := by
  intro pc hpc
  obtain ⟨t, ht⟩ := List.getElem?_of_mem hpc
  have hown := h.owner t pc ht
  rw [hfree] at hown
  by_contra hs
  simp only [Bool.not_eq_false] at hs
  exact absurd (hown.mp (RecvPc.holds_of_starts hs)) (by simp)

lemma Safe.starts_mutex_next (h : Safe s) (he : Enabled s a) :
    ∀ pc ∈ (next s a).recv, pc.starts = true → (next s a).mutexCount ≤ 0 := by
  have hst := h.starts_mutex
  -- a receive thread moves to a point that starts nothing
  have hmove : ∀ {t : ℕ} {y : RecvPc}, y.starts = false →
      ∀ pc ∈ s.recv.set t y, pc.starts = true → s.mutexCount ≤ 0 := by
    intro t y hy
    refine forall_mem_set hst fun hs => ?_
    rw [hy] at hs
    exact absurd hs (by simp)
  cases a with
  | registerRequest t r => exact hmove (by split <;> rfl)
  | testMutex t r =>
      refine forall_mem_set hst fun hs => ?_
      by_contra hmc
      have hle : ¬s.mutexCount ≤ 0 := hmc
      rw [if_neg hle] at hs
      exact absurd hs (by simp [RecvPc.starts])
  | countMutex t r =>
      have hfree := h.starts_of_free he.2.2.2
      intro pc hpc hs
      rcases List.mem_or_eq_of_mem_set hpc with hpc | rfl
      · rw [hfree pc hpc] at hs
        exact absurd hs (by simp)
      · exact absurd hs (by simp [RecvPc.starts])
  | construct t r =>
      exact forall_mem_set hst fun _ => hst _ (List.mem_of_getElem? he) rfl
  | create t r => exact hmove rfl
  | createFails t r => exact hmove rfl
  | createThrows t r => exact hmove rfl
  | unlockDirect t => exact hmove rfl
  | push t r => exact hmove (by split <;> rfl)
  | countConc t r n => exact hmove rfl
  | returnRegister t n => exact hmove rfl
  | get =>
      obtain ⟨pc, rest, n, -, hnext⟩ := exists_next_get he
      rw [hnext]
      exact hst
  | release r =>
      intro pc hpc hs
      by_cases hm : r.isMutex = true
      · rw [h.starts_of_free (he.2 hm) pc hpc] at hs
        exact absurd hs (by simp)
      · simp only [next, if_neg hm]
        exact hst pc hpc hs
  | _ => exact hst

/-- A mutex request in the hands of the serving thread keeps `mutexCount` above 0. -/
lemma Safe.mutexCount_pos (h : Safe s) {r : Request} (hr : r ∈ s.serve.held)
    (hm : r.isMutex = true) : 0 < s.mutexCount := by
  have hpos : 0 < s.serve.held.countP Request.isMutex := List.countP_pos_iff.mpr ⟨r, hr, hm⟩
  have hle := mutexes_nonneg.serve_le s
  have hserve : mutexes.serve s.serve = s.serve.held.countP Request.isMutex := rfl
  have heq := h.mutex_eq
  omega

lemma ServePc.mem_held_of_mem_admitted {pc : ServePc} {r : Request} (h : r ∈ pc.admitted) :
    r ∈ pc.held := by
  cases pc <;> simp_all [ServePc.admitted, ServePc.held]

lemma Safe.admitted_instance_next (h : Safe s) (he : Enabled s a) :
    ∀ r ∈ (next s a).serve.admitted, r.isMutex = true → (next s a).instanceCount ≤ 0 := by
  have hadm := h.admitted_instance
  cases a with
  | construct t r =>
      -- a thread object would be made while a mutex request is admitted
      intro x hx hm
      have hpos := h.mutexCount_pos (ServePc.mem_held_of_mem_admitted hx) hm
      have hle := h.starts_mutex _ (List.mem_of_getElem? he) rfl
      omega
  | createFails t r =>
      intro x hx hm
      have := hadm x hx hm
      simp only [next]
      omega
  | callGet => exact fun x hx => absurd hx (by simp [next, ServePc.admitted])
  | getFalse => exact fun x hx => absurd hx (by simp [next, ServePc.admitted])
  | get =>
      obtain ⟨pc, rest, n, hget, hnext⟩ := exists_next_get he
      rw [hnext]
      intro x hx hm
      rcases getRequest_cases hget with ⟨r, l₁, l₂, rfl, hl, -, hr, -⟩ | ⟨r, rfl, -⟩
      · obtain rfl : x = r := by simpa [ServePc.admitted] using hx
        have := (h.fifo_typed x (by simp [hl])).isMutex_eq_false hr
        rw [this] at hm
        exact absurd hm (by simp)
      · split at hx
        · exact absurd hx (by simp [ServePc.admitted])
        · next hrm =>
            obtain rfl : x = r := by simpa [ServePc.admitted] using hx
            exact absurd hm hrm
  | mutexReady r => exact fun _ _ _ => he.2
  | serveConstruct r => exact fun x hx => absurd hx (by simp [next, ServePc.admitted])
  | serveCreate r => exact fun x hx => absurd hx (by simp [next, afterServe_admitted])
  | serveCreateFails r => exact fun x hx => absurd hx (by simp [next, afterServe_admitted])
  | serveCreateThrows r aborts => exact fun x hx => absurd hx (by simp [next, ServePc.admitted])
  | startServe r =>
      rw [he.1] at hadm
      exact hadm
  | finishServe r o =>
      rw [he.1] at hadm
      exact hadm
  | release r => exact fun x hx => absurd hx (by simp [next, afterServe_admitted])
  | replyThrows r aborts => exact fun x hx => absurd hx (by simp [next, ServePc.admitted])
  | leaveLoop => exact fun x hx => absurd hx (by simp [next, ServePc.admitted])
  | exitRun => exact fun x hx => absurd hx (by simp [next, ServePc.admitted])
  | destroyInvoke i r =>
      intro x hx hm
      have := hadm x hx hm
      simp only [next]
      omega
  | _ => exact hadm

/-- **One step keeps the invariant.** -/
theorem Safe.next (h : Safe s) (he : Enabled s a) : Safe (next s a) where
  owner := h.owner_next he
  recv_typed := h.recv_typed_next he
  serve_typed := h.serve_typed_next he
  fifo_typed := h.fifo_typed_next he
  threads_typed := h.threads_typed_next he
  instance_eq := h.instance_eq_next he
  mutex_eq := h.mutex_eq_next he
  starts_mutex := h.starts_mutex_next he
  admitted_instance := h.admitted_instance_next he

/-- The states that a run of the broker with `n` receive threads can reach. -/
def Reachable (n : ℕ) (s : State) : Prop := Transition.Reachable step (init n) s

lemma Reachable.safe {n : ℕ} (h : Reachable n s) : Safe s := by
  refine Transition.Reachable.invariant (I := Safe) h (safe_init n) fun s a t _ hs hst => ?_
  obtain ⟨he, rfl⟩ := step_eq_some.mp hst
  exact hs.next he

/-! ### Mutual exclusion -/

lemma Invocation.mem_body {x : Invocation} {r : Request} (h : r ∈ x.body) : r = x.request := by
  obtain ⟨q, pc⟩ := x
  cases pc <;> simp_all [Invocation.body]

lemma Safe.isConc_of_mem_threads (h : Safe s) {r : Request}
    (hr : r ∈ s.threads.flatMap Invocation.body) : r.isConc = true := by
  obtain ⟨x, hx, hrx⟩ := List.mem_flatMap.mp hr
  rw [Invocation.mem_body hrx]
  exact (h.threads_typed x hx).1

lemma ServePc.body_eq {pc : ServePc} {r : Request} (h : r ∈ pc.body) : pc = .running r := by
  cases pc <;> simp_all [ServePc.body]

/-- **Mutual exclusion.**  In every reachable state the body of a mutex method executes
alone, and at most one body of a sequential or mutex method executes. -/
theorem mutual_exclusion (n : ℕ) (s : State) (h : Reachable n s) :
    (∀ r ∈ executing s, r.isMutex = true → executing s = [r]) ∧
      ((executing s).filter fun r => !r.isConc).length ≤ 1 := by
  have hs := h.safe
  constructor
  · intro r hr hm
    rcases List.mem_append.mp hr with hr | hr
    · have hpc : s.serve = .running r := ServePc.body_eq hr
      have hinst := hs.admitted_instance r (by simp [hpc, ServePc.admitted]) hm
      have heq := hs.instance_eq
      have hle := objects_nonneg.threads_le s
      have hlen : (s.threads.map objects.thread).sum = s.threads.length := by simp [objects]
      have hthreads : s.threads = [] := List.eq_nil_of_length_eq_zero (by omega)
      simp [executing, hpc, hthreads, ServePc.body]
    · -- the threads run concurrent methods only
      obtain ⟨x, hx, hrx⟩ := List.mem_flatMap.mp hr
      obtain ⟨hc, hsingle⟩ := hs.threads_typed x hx
      rw [Invocation.mem_body hrx] at hm
      exact absurd ⟨hc, hm⟩ hsingle
  · have hthreads : (s.threads.flatMap Invocation.body).filter (fun r => !r.isConc) = [] := by
      refine List.filter_eq_nil_iff.mpr fun r hr => ?_
      simp [hs.isConc_of_mem_threads hr]
    have hserve : s.serve.body.length ≤ 1 := by
      cases s.serve <;> simp [ServePc.body]
    rw [executing, List.filter_append, hthreads, List.append_nil]
    exact le_trans (List.length_filter_le ..) hserve

/-- Two receive threads: a mutex request is executing and a concurrent one that came after it
waits in the queue. -/
def mutexRun : List Action :=
  let m : Request := ⟨0, INVOKE_MUTEX⟩
  let c : Request := ⟨1, INVOKE_CONC⟩
  [.registerRequest 0 m, .countMutex 0 m, .push 0 m, .registerRequest 1 c, .testMutex 1 c,
    .push 1 c, .countConc 1 c 2, .callGet, .get, .mutexReady m, .startServe m]

theorem mutual_exclusion_mutexRun :
    ∃ s, Reachable 2 s ∧ ⟨0, INVOKE_MUTEX⟩ ∈ executing s ∧ ⟨1, INVOKE_CONC⟩ ∈ s.fifo ∧
      executing s = [⟨0, INVOKE_MUTEX⟩] := by
  obtain ⟨s, hrun, hbody, hfifo⟩ : ∃ s, Transition.run step (init 2) mutexRun = some s ∧
      ⟨0, INVOKE_MUTEX⟩ ∈ executing s ∧ ⟨1, INVOKE_CONC⟩ ∈ s.fifo :=
    ⟨_, rfl, by decide, by decide⟩
  exact ⟨s, ⟨mutexRun, hrun⟩, hbody, hfifo,
    (mutual_exclusion 2 s ⟨mutexRun, hrun⟩).1 _ hbody (by decide)⟩

end PopCpp.Broker
