/-
# The order in which requests begin

Sequential and mutex requests only ever travel along one path: from the end of
`request_fifo` to its front, and from there into the hands of the serving thread.  Along
this path they keep their order, so they begin in the order in which they were appended.

Concurrent requests overtake in two ways, by the direct start of `RegisterRequest` and by
the scan of `GetRequest`.  Neither passes a mutex request: while an appended mutex request
is unfinished `mutexCount` is above 0, so a concurrent request that is registered then goes
to the queue, behind it; and the scan stops at the first mutex request.
-/
import PopCpp.Broker.Conservation

namespace PopCpp.Broker

open ListEdit

variable {n : ℕ} {s : State} {a : Action} {m c : Request}

@[simp] lemma appended_append (tr tr' : List Event) :
    appended (tr ++ tr') = appended tr ++ appended tr' :=
  List.filterMap_append ..

@[simp] lemma started_append (tr tr' : List Event) :
    started (tr ++ tr') = started tr ++ started tr' :=
  List.filterMap_append ..

/-- The sequential and mutex requests of a list. -/
def nonConc (l : List Request) : List Request := l.filter fun r => !r.isConc

@[simp] lemma nonConc_append (l l' : List Request) : nonConc (l ++ l') = nonConc l ++ nonConc l' :=
  List.filter_append ..

@[simp] lemma nonConc_nil : nonConc [] = [] := rfl

lemma nonConc_singleton_of_isConc {r : Request} (h : r.isConc = true) : nonConc [r] = [] := by
  simp [nonConc, h]

/-! ### Sequential and mutex requests -/

/-- The queue and the hands of the serving thread hold what was appended and has not begun,
in order. -/
def InOrder (s : State) : Prop :=
  nonConc (appended s.trace) =
    nonConc (started s.trace) ++ nonConc s.serve.unstarted ++ nonConc s.fifo

lemma inOrder_get (he : Enabled s .get) (h : InOrder s) : InOrder (next s .get) := by
  obtain ⟨pc, rest, k, hget, hnext⟩ := exists_next_get he
  rw [InOrder, he.1] at h
  rw [InOrder, hnext]
  rcases getRequest_cases hget with ⟨r, l₁, l₂, rfl, hl, rfl, hc, -⟩ | ⟨r, rfl, hl, -⟩
  · -- the scan takes a concurrent request out of the middle
    have hcons : nonConc (r :: l₂) = nonConc l₂ := by simp [nonConc, hc]
    rw [hl, nonConc_append, hcons] at h
    simpa [ServePc.unstarted, nonConc_singleton_of_isConc hc] using h
  · have hpc : (if r.isMutex = true then ServePc.waiting r else .serving r).unstarted = [r] := by
      split <;> rfl
    rw [hl, ← List.singleton_append, nonConc_append] at h
    simp only [hpc]
    simpa [ServePc.unstarted] using h

lemma Reachable.inOrder (h : Reachable n s) : InOrder s := by
  refine Transition.Reachable.invariant (I := InOrder) h rfl fun s a t hreach hs hst => ?_
  obtain ⟨he, rfl⟩ := step_eq_some.mp hst
  have hsafe := Reachable.safe hreach
  cases a with
  | get => exact inOrder_get he hs
  | push t r =>
      have hone : appended [.append r] = [r] := rfl
      have hnone : started [.append r] = [] := rfl
      simp only [InOrder, next, appended_append, started_append, hone, hnone, nonConc_append,
        List.append_nil]
      rw [hs, List.append_assoc]
  | startServe r =>
      rw [InOrder, he.1] at hs
      have hnone : appended [.start r] = [] := rfl
      have hone : started [.start r] = [r] := rfl
      simp only [InOrder, next, appended_append, started_append, hone, hnone, List.append_nil,
        nonConc_append]
      simpa [ServePc.unstarted, nonConc] using hs
  | startInvoke i r =>
      -- the threads run concurrent methods only
      have hc : r.isConc = true := (hsafe.threads_typed _ (List.mem_of_getElem? he)).1
      have hnone : appended [.start r] = [] := rfl
      have hone : started [.start r] = [r] := rfl
      simp only [InOrder, next, appended_append, started_append, hone, hnone, List.append_nil,
        nonConc_append, nonConc_singleton_of_isConc hc]
      exact hs
  | serveConstruct r =>
      rw [InOrder, he.1] at hs
      exact hs
  | serveCreate r =>
      have hr := hsafe.serve_typed
      rw [InOrder, he] at hs
      rw [he] at hr
      rcases afterServe_cases s r with hpc | hpc <;>
        simpa [InOrder, next, hpc, ServePc.unstarted, nonConc, hr.1] using hs
  | serveCreateFails r =>
      have hr := hsafe.serve_typed
      rw [InOrder, he] at hs
      rw [he] at hr
      rcases afterServe_cases s r with hpc | hpc <;>
        simpa [InOrder, next, hpc, ServePc.unstarted, nonConc, hr.1, appended, started] using hs
  | serveCreateThrows r aborts =>
      have hr := hsafe.serve_typed
      rw [InOrder, he.1] at hs
      rw [he.1] at hr
      simpa [InOrder, next, ServePc.unstarted, nonConc, hr.1, appended, started] using hs
  | release r =>
      rw [InOrder, he.1] at hs
      rcases afterServe_cases s r with hpc | hpc <;>
        simpa [InOrder, next, hpc, ServePc.unstarted, appended, started] using hs
  | callGet => rw [InOrder, he.1] at hs; exact hs
  | getFalse => rw [InOrder, he.1] at hs; exact hs
  | mutexReady r => rw [InOrder, he.1] at hs; exact hs
  | leaveLoop => rw [InOrder, he.1] at hs; exact hs
  | exitRun => rw [InOrder, he.1] at hs; exact hs
  | finishServe r o =>
      rw [InOrder, he.1] at hs
      simpa [InOrder, next, endBody, ServePc.unstarted, appended, started] using hs
  | replyThrows r aborts =>
      rw [InOrder, he.1] at hs
      simpa [InOrder, next, ServePc.unstarted, appended, started] using hs
  | _ => simpa [InOrder, next, endBody, appended, started] using hs

/-! ### Concurrent requests behind a mutex request -/

/-- The mutex request in the hands of the serving thread whose body is not over. -/
def ServePc.unfinished : ServePc → List Request
  | .waiting r => [r]
  | .serving r => [r]
  | .running r => [r]
  | _ => []

/-- The request on its way to the queue, or before the test of `mutexCount`. -/
def RecvPc.queuing : RecvPc → List Request
  | .entered r => [r]
  | .appending r => [r]
  | _ => []

lemma ServePc.mem_held_of_mem_unfinished {pc : ServePc} {r : Request} (h : r ∈ pc.unfinished) :
    r ∈ pc.held := by
  cases pc <;> simp_all [ServePc.unfinished, ServePc.held]

/-- `m` is in the queue, or in the hands of the serving thread with its body not over. -/
def Pending (m : Request) (s : State) : Prop := m ∈ s.fifo ∨ m ∈ s.serve.unfinished

/-- `c` is on its way to the queue, or in the queue behind `m`, or in the queue while the
serving thread has `m`. -/
def Behind (m c : Request) (s : State) : Prop :=
  c ∈ s.recv.flatMap RecvPc.queuing ∨ [m, c].Sublist s.fifo ∨
    m ∈ s.serve.unfinished ∧ c ∈ s.fifo

/-- An unfinished mutex request keeps `mutexCount` above 0. -/
lemma Safe.mutexCount_pos_of_pending (h : Safe s) (hm : m.isMutex = true) (hp : Pending m s) :
    0 < s.mutexCount := by
  rcases hp with hp | hp
  · have hle := mutexes_nonneg.fifo_le s
    have hfifo := ListEdit.sum_map_countP_singleton id Request.isMutex s.fifo
    simp only [List.map_id, List.countP_singleton, id] at hfifo
    have hpos : 0 < s.fifo.countP Request.isMutex := List.countP_pos_iff.mpr ⟨m, hp, hm⟩
    have hq : (s.fifo.map mutexes.queued).sum = s.fifo.countP Request.isMutex := by
      rw [← hfifo]
      simp [mutexes]
    rw [h.mutex_eq]
    omega
  · exact h.mutexCount_pos (ServePc.mem_held_of_mem_unfinished hp) hm

/-- The serving thread does not let go of a mutex request before its body is over. -/
lemma unfinished_next (hsafe : Safe s) (he : Enabled s a) (hm : m.isMutex = true)
    (hp : m ∈ s.serve.unfinished) :
    .finish m ∈ a.events ∨ m ∈ (next s a).serve.unfinished := by
  cases a with
  | finishServe r o =>
      obtain rfl : m = r := by simpa [he.1, ServePc.unfinished] using hp
      exact Or.inl (List.mem_singleton.mpr rfl)
  | mutexReady r =>
      rw [he.1] at hp
      exact Or.inr hp
  | startServe r =>
      rw [he.1] at hp
      exact Or.inr hp
  | serveConstruct r =>
      obtain rfl : m = r := by simpa [he.1, ServePc.unfinished] using hp
      have hty := hsafe.serve_typed
      rw [he.1] at hty
      exact absurd ⟨he.2, hm⟩ hty
  | get => simp [he.1, ServePc.unfinished] at hp
  | callGet => simp [he.1, ServePc.unfinished] at hp
  | getFalse => simp [he.1, ServePc.unfinished] at hp
  | serveCreate r =>
      have hserve : s.serve = .creating r := he
      simp [hserve, ServePc.unfinished] at hp
  | serveCreateFails r =>
      have hserve : s.serve = .creating r := he
      simp [hserve, ServePc.unfinished] at hp
  | serveCreateThrows r aborts => simp [he.1, ServePc.unfinished] at hp
  | release r => simp [he.1, ServePc.unfinished] at hp
  | replyThrows r aborts => simp [he.1, ServePc.unfinished] at hp
  | leaveLoop => simp [he.1, ServePc.unfinished] at hp
  | exitRun => simp [he.1, ServePc.unfinished] at hp
  | _ => exact Or.inr hp

/-- A pending mutex request stays pending until its body is over. -/
lemma Pending.next (hsafe : Safe s) (he : Enabled s a) (hm : m.isMutex = true)
    (hp : Pending m s) : .finish m ∈ a.events ∨ Pending m (next s a) := by
  rcases hp with hp | hp
  · right
    cases a with
    | get =>
        obtain ⟨pc, rest, k, hget, hnext⟩ := exists_next_get he
        obtain ⟨r, l₁, l₂, hpc, hl, rfl⟩ := getRequest_split hget
        rw [hnext]
        by_cases hmr : m = r
        · subst hmr
          right
          rcases hpc with rfl | ⟨rfl, -⟩ <;> simp [ServePc.unfinished]
        · left
          rw [hl] at hp
          simpa [hmr] using hp
    | push t r => exact Or.inl (List.mem_append_left _ hp)
    | _ => exact Or.inl hp
  · exact (unfinished_next hsafe he hm hp).imp_right Or.inr

/-- An appended mutex request is pending until its body is over. -/
lemma Reachable.pending (h : Reachable n s) (hm : m.isMutex = true)
    (happ : .append m ∈ s.trace) : .finish m ∈ s.trace ∨ Pending m s := by
  revert happ
  refine Transition.Reachable.invariant
    (I := fun s => .append m ∈ s.trace → .finish m ∈ s.trace ∨ Pending m s) h
    (fun h => absurd h (by simp [init])) fun s a t hreach hs hst happ => ?_
  obtain ⟨he, rfl⟩ := step_eq_some.mp hst
  have hsafe := Reachable.safe hreach
  rw [trace_next, List.mem_append] at happ
  rw [trace_next, List.mem_append]
  rcases happ with happ | happ
  · rcases hs happ with hfin | hp
    · exact Or.inl (Or.inl hfin)
    · rcases hp.next hsafe he hm with hfin | hp
      · exact Or.inl (Or.inr hfin)
      · exact Or.inr hp
  · cases a with
    | push t r =>
        obtain rfl : m = r := by simpa [Action.events] using happ
        exact Or.inr (Or.inl (by simp [next]))
    | _ => simp [Action.events] at happ

/-- `GetRequest` does not take a concurrent request past a mutex request. -/
lemma Behind.get (hsafe : Safe s) (he : Enabled s .get) (hm : m.isMutex = true)
    (hb : Behind m c s) : Behind m c (next s .get) := by
  obtain ⟨pc, rest, k, hget, hnext⟩ := exists_next_get he
  rw [hnext]
  rcases hb with hb | hb | ⟨hb, -⟩
  · exact Or.inl hb
  · rcases getRequest_cases hget with
      ⟨r, l₁, l₂, rfl, hl, rfl, hr, hl₁, -⟩ | ⟨r, rfl, hl, -⟩
    · -- the scan has seen no mutex request, so `m` comes after what it takes
      have hm₁ : m ∉ l₁ ++ [r] := by
        intro hmem
        rcases List.mem_append.mp hmem with hmem | hmem
        · rw [(hl₁ m hmem).2] at hm
          exact absurd hm (by simp)
        · obtain rfl : m = r := by simpa using hmem
          exact hsafe.fifo_typed m (by simp [hl]) ⟨hr, hm⟩
      rw [hl, List.append_cons] at hb
      have htail := pair_sublist_of_notMem hb hm₁
      exact Or.inr (Or.inl (htail.trans (List.sublist_append_right l₁ l₂)))
    · rw [hl] at hb
      by_cases hmr : m = r
      · -- the serving thread takes `m`, and `c` stays
        subst hmr
        right
        right
        have hcrest : c ∈ rest := by
          rcases List.sublist_cons_iff.mp hb with hb | ⟨r', heq, hb⟩
          · exact hb.subset (by simp)
          · obtain rfl : [c] = r' := by simpa using heq
            exact hb.subset (by simp)
        exact ⟨by simp [hm, ServePc.unfinished], hcrest⟩
      · rcases List.sublist_cons_iff.mp hb with hb | ⟨r', heq, -⟩
        · exact Or.inr (Or.inl hb)
        · exact absurd (by simpa using heq) (fun h : m = r ∧ _ => hmr h.1)
  · simp [he.1, ServePc.unfinished] at hb

/-- **No concurrent request gets past a pending mutex request.** -/
lemma Behind.next (hsafe : Safe s) (he : Enabled s a) (hm : m.isMutex = true)
    (hp : Pending m s) (hb : Behind m c s) : .finish m ∈ a.events ∨ Behind m c (next s a) := by
  -- a receive thread moves and does not lose `c`
  have hmove : ∀ {t : ℕ} {x y : RecvPc}, s.recv[t]? = some x →
      (c ∈ x.queuing → c ∈ y.queuing) → c ∈ (s.recv.set t y).flatMap RecvPc.queuing ∨
        [m, c].Sublist s.fifo ∨ m ∈ s.serve.unfinished ∧ c ∈ s.fifo := by
    intro t x y ht hxy
    exact hb.imp_left fun hb => mem_flatMap_set ht hb hxy
  cases a with
  | registerRequest t r => exact Or.inr (hmove he.1 (by simp [RecvPc.queuing]))
  | testMutex t r =>
      have hpos := hsafe.mutexCount_pos_of_pending hm hp
      right
      refine hmove he.1 ?_
      rw [if_neg (by omega)]
      exact id
  | countMutex t r => exact Or.inr (hmove he.1 id)
  | construct t r => exact Or.inr (hmove he (by simp [RecvPc.queuing]))
  | create t r => exact Or.inr (hmove he (by simp [RecvPc.queuing]))
  | createFails t r => exact Or.inr (hmove he (by simp [RecvPc.queuing]))
  | createThrows t r => exact Or.inr (hmove he.1 (by simp [RecvPc.queuing]))
  | unlockDirect t => exact Or.inr (hmove he (by simp [RecvPc.queuing]))
  | push t r =>
      right
      by_cases hcr : c = r
      · -- `c` joins the queue, in which `m` is or which `m` has just left
        subst hcr
        right
        rcases hp with hp | hp
        · exact Or.inl (pair_sublist_concat_of_mem hp)
        · exact Or.inr ⟨hp, by simp [next]⟩
      · rcases hmove (y := if r.isConc then .pushed r (s.fifo.length + 1)
          else .throttled (s.fifo.length + 1)) he (by simp [RecvPc.queuing, hcr]) with hb | hb | hb
        · exact Or.inl hb
        · exact Or.inr (Or.inl (hb.trans (List.sublist_append_left _ _)))
        · exact Or.inr (Or.inr ⟨hb.1, List.mem_append_left _ hb.2⟩)
  | countConc t r k => exact Or.inr (hmove he (by simp [RecvPc.queuing]))
  | returnRegister t k => exact Or.inr (hmove he.1 (by simp [RecvPc.queuing]))
  | get => exact Or.inr (hb.get hsafe he hm)
  | _ =>
      -- the queue and the receive threads are left alone
      rcases hb with hb | hb | ⟨hm', hb⟩
      · exact Or.inr (Or.inl hb)
      · exact Or.inr (Or.inr (Or.inl hb))
      · exact (unfinished_next hsafe he hm hm').imp_right fun h => Or.inr (Or.inr ⟨h, hb⟩)

lemma Action.events_cases (a : Action) : a.events = [] ∨ ∃ e, a.events = [e] := by
  cases a <;> simp [Action.events]

/-- A concurrent request registered after a mutex request was appended stays behind it until
its body is over. -/
lemma Reachable.behind (h : Reachable n s) (hm : m.isMutex = true) (hc : c.isConc = true)
    (horder : [.append m, .enter c].Sublist s.trace) :
    .finish m ∈ s.trace ∨ Pending m s ∧ Behind m c s := by
  revert horder
  refine Transition.Reachable.invariant
    (I := fun s => [.append m, .enter c].Sublist s.trace →
      .finish m ∈ s.trace ∨ Pending m s ∧ Behind m c s) h
    (fun h => absurd h.length_le (by simp [init])) fun s a t hreach hs hst horder => ?_
  obtain ⟨he, rfl⟩ := step_eq_some.mp hst
  have hsafe := Reachable.safe hreach
  rw [trace_next] at horder
  rw [trace_next, List.mem_append]
  by_cases hold : [Event.append m, .enter c].Sublist s.trace
  · rcases hs hold with hfin | ⟨hp, hb⟩
    · exact Or.inl (Or.inl hfin)
    · rcases hp.next hsafe he hm with hfin | hp'
      · exact Or.inl (Or.inr hfin)
      · rcases hb.next hsafe he hm hp with hfin | hb'
        · exact Or.inl (Or.inr hfin)
        · exact Or.inr ⟨hp', hb'⟩
  · -- `c` is registered by this very step
    have hnew : .append m ∈ s.trace ∧ a.events = [.enter c] := by
      rcases a.events_cases with hnil | ⟨e, hone⟩
      · rw [hnil, List.append_nil] at horder
        exact absurd horder hold
      · rw [hone] at horder
        rcases pair_sublist_concat horder with horder | ⟨happ, hec⟩
        · exact absurd horder hold
        · exact ⟨happ, by rw [hone, hec]⟩
    obtain ⟨happ, hev⟩ := hnew
    cases a with
    | registerRequest t r =>
        obtain rfl : r = c := by simpa [Action.events] using hev
        rcases Reachable.pending hreach hm happ with hfin | hp
        · exact Or.inl (Or.inl hfin)
        · refine Or.inr ⟨hp, Or.inl (mem_flatMap_set_self he.1 ?_)⟩
          simp [hc, RecvPc.queuing]
    | _ => simp [Action.events] at hev

lemma RecvPc.mem_registering_of_mem_queuing {pc : RecvPc} {r : Request} (h : r ∈ pc.queuing) :
    r ∈ pc.registering := by
  cases pc <;> simp_all [RecvPc.queuing, RecvPc.registering]

/-- A request that is behind a mutex request is in no thread object. -/
lemma Behind.notMem_threads (hreach : Reachable n s) (hb : Behind m c s) {i : ℕ}
    {pc : InvokePc} : s.threads[i]? ≠ some ⟨c, pc⟩ := by
  intro hi
  have hle := hreach.count_places_le c
  have hhanded : 0 < (handed s).count c := by
    refine List.count_pos_iff.mpr (List.mem_append_right _ ?_)
    exact List.mem_map.mpr ⟨_, List.mem_of_getElem? hi, rfl⟩
  have hwaits : 0 < (registering s).count c ∨ 0 < s.fifo.count c := by
    rcases hb with hb | hb | ⟨-, hb⟩
    · left
      obtain ⟨pc, hpc, hc⟩ := List.mem_flatMap.mp hb
      exact List.count_pos_iff.mpr
        (List.mem_flatMap.mpr ⟨pc, hpc, RecvPc.mem_registering_of_mem_queuing hc⟩)
    · exact Or.inr (List.count_pos_iff.mpr (hb.subset (by simp)))
    · exact Or.inr (List.count_pos_iff.mpr hb)
  omega

/-- A step that begins a concurrent request comes after the end of every mutex request
that was appended before the concurrent one was registered. -/
lemma Reachable.finish_of_start (h : Reachable n s) (he : Enabled s a)
    (hm : m.isMutex = true) (hc : c.isConc = true) (hev : a.events = [.start c])
    (horder : [.append m, .enter c].Sublist s.trace) : .finish m ∈ s.trace := by
  rcases h.behind hm hc horder with hfin | ⟨-, hb⟩
  · exact hfin
  · exfalso
    cases a with
    | startServe r =>
        obtain rfl : r = c := by simpa [Action.events] using hev
        rw [he.2] at hc
        exact absurd hc (by simp)
    | startInvoke i r =>
        obtain rfl : r = c := by simpa [Action.events] using hev
        exact hb.notMem_threads h he
    | _ => simp [Action.events] at hev

/-- **The order of requests.**  In every reachable state the sequential and mutex requests
have begun in the order in which they were appended, and a concurrent request registered
after a mutex request was appended has not begun before that request's body was over. -/
theorem begin_order (n : ℕ) (s : State) (h : Reachable n s) :
    nonConc (started s.trace) <+: nonConc (appended s.trace) ∧
      ∀ m c : Request, m.isMutex = true → c.isConc = true →
        ∀ p q, s.trace = p ++ .start c :: q → [.append m, .enter c].Sublist p →
          .finish m ∈ p := by
  refine ⟨?_, fun m c hm hc => ?_⟩
  · rw [h.inOrder, List.append_assoc]
    exact List.prefix_append _ _
  · refine Transition.Reachable.invariant
      (I := fun s => ∀ p q, s.trace = p ++ .start c :: q → [.append m, .enter c].Sublist p →
        .finish m ∈ p) h (fun p q htr => absurd htr (by simp [init]))
      fun s a t hreach hs hst p q htr horder => ?_
    obtain ⟨he, rfl⟩ := step_eq_some.mp hst
    rw [trace_next] at htr
    rcases a.events_cases with hnil | ⟨e, hone⟩
    · rw [hnil, List.append_nil] at htr
      exact hs p q htr horder
    · rw [hone] at htr
      -- the beginning of `c` is the last event, or an earlier one
      rcases List.eq_nil_or_concat' q with rfl | ⟨q, e', rfl⟩
      · obtain ⟨rfl, rfl⟩ : s.trace = p ∧ e = .start c := by
          have := List.append_inj' htr rfl
          exact ⟨this.1, by simpa using this.2⟩
        exact Reachable.finish_of_start hreach he hm hc hone horder
      · have hold : s.trace = p ++ .start c :: q := by
          rw [← List.cons_append, ← List.append_assoc] at htr
          exact (List.append_inj' htr rfl).1
        exact hs p q hold horder

/-- A concurrent request waits in the queue for the end of a mutex request. -/
def orderRun : List Action :=
  let m : Request := ⟨0, INVOKE_MUTEX⟩
  let c : Request := ⟨1, INVOKE_CONC⟩
  [.registerRequest 0 m, .countMutex 0 m, .push 0 m, .returnRegister 0 1, .registerRequest 0 c,
    .testMutex 0 c, .push 0 c, .countConc 0 c 2, .callGet, .get, .mutexReady m, .startServe m,
    .finishServe m ⟨false, false⟩, .release m, .callGet, .get, .serveConstruct c,
    .serveCreate c, .startInvoke 0 c]

theorem begin_order_orderRun :
    ∃ s p, Reachable 1 s ∧ s.trace = p ++ .start ⟨1, INVOKE_CONC⟩ :: [] ∧
      [.append ⟨0, INVOKE_MUTEX⟩, .enter ⟨1, INVOKE_CONC⟩].Sublist p ∧
      .finish ⟨0, INVOKE_MUTEX⟩ ∈ p := by
  obtain ⟨s, p, hrun, htr, horder⟩ : ∃ s p, Transition.run step (init 1) orderRun = some s ∧
      s.trace = p ++ .start ⟨1, INVOKE_CONC⟩ :: [] ∧
      [.append ⟨0, INVOKE_MUTEX⟩, .enter ⟨1, INVOKE_CONC⟩].Sublist p :=
    ⟨_, [.enter ⟨0, INVOKE_MUTEX⟩, .append ⟨0, INVOKE_MUTEX⟩, .enter ⟨1, INVOKE_CONC⟩,
      .append ⟨1, INVOKE_CONC⟩, .start ⟨0, INVOKE_MUTEX⟩, .finish ⟨0, INVOKE_MUTEX⟩,
      .retire ⟨0, INVOKE_MUTEX⟩], rfl, rfl, by decide⟩
  have hreach : Reachable 1 s := ⟨orderRun, hrun⟩
  exact ⟨s, p, hreach, htr, horder,
    (begin_order 1 s hreach).2 _ _ (by decide) (by decide) p [] htr horder⟩

end PopCpp.Broker
