/-
# What one step of the broker does

Two ways of saying it once for all the invariants.  `getRequest_cases` lists what
`GetRequest` can do with the queue.  `Weight.total_next` is for everything that is counted:
a `Weight` gives a number to each program counter, to each queued request and to each event
of the trace, and an action changes the sum over the whole state by a `gain` that can be
read off the action.  An equation between a counter of the broker and the number of requests
in certain places is then a comparison of small closed terms, action by action.
-/
import PopCpp.Broker.Model
import Mathlib.Algebra.Order.BigOperators.Group.List

namespace PopCpp.Broker

open ListEdit

/-! ### The choice of the next request -/

lemma scanConc_eq_some {l rest : List Request} {r : Request} (h : scanConc l = some (r, rest)) :
    ∃ l₁ l₂, l = l₁ ++ r :: l₂ ∧ rest = l₁ ++ l₂ ∧ r.isConc = true ∧
      ∀ x ∈ l₁, x.isConc = false ∧ x.isMutex = false := by
  induction l generalizing rest with
  | nil => simp [scanConc] at h
  | cons x l ih =>
      rw [scanConc] at h
      split at h
      · next hc =>
          obtain ⟨rfl, rfl⟩ : x = r ∧ l = rest := by simpa using h
          exact ⟨[], l, rfl, rfl, hc, by simp⟩
      · next hc =>
          split at h
          · exact absurd h (by simp)
          · next hm =>
              obtain ⟨⟨r', rest'⟩, hscan, heq⟩ := Option.map_eq_some_iff.mp h
              obtain ⟨rfl, rfl⟩ : r' = r ∧ x :: rest' = rest := by simpa using heq
              obtain ⟨l₁, l₂, rfl, rfl, hr, hl₁⟩ := ih hscan
              refine ⟨x :: l₁, l₂, rfl, rfl, hr, ?_⟩
              intro y hy
              rcases List.mem_cons.mp hy with rfl | hy
              · exact ⟨by simpa using hc, by simpa using hm⟩
              · exact hl₁ y hy

lemma scanConc_cons_of_isConc {r : Request} (h : r.isConc = true) (rest : List Request) :
    scanConc (r :: rest) = some (r, rest) := by
  rw [scanConc, if_pos h]

/-- `GetRequest` takes the first concurrent request in front of every mutex request, or the
front of the queue; it takes a concurrent request from the front only when `concPendings`
is 0. -/
lemma getRequest_cases {n n' : ℤ} {l rest : List Request} {pc : ServePc}
    (h : getRequest n l = some (pc, rest, n')) :
    (∃ r l₁ l₂, pc = .serving r ∧ l = l₁ ++ r :: l₂ ∧ rest = l₁ ++ l₂ ∧ r.isConc = true ∧
        (∀ x ∈ l₁, x.isConc = false ∧ x.isMutex = false) ∧ n ≠ 0 ∧ n' = n - 1) ∨
      (∃ r, pc = (if r.isMutex then .waiting r else .serving r) ∧ l = r :: rest ∧
        (r.isConc = true → n = 0) ∧ n' = n) := by
  unfold getRequest at h
  split at h
  · next r rest' hscan =>
      left
      have hn : n ≠ 0 := by
        rintro rfl
        simp at hscan
      rw [if_pos hn] at hscan
      obtain ⟨l₁, l₂, hl, hrest, hr, hl₁⟩ := scanConc_eq_some hscan
      simp only [Option.some.injEq, Prod.mk.injEq] at h
      obtain ⟨rfl, rfl, rfl⟩ := h
      exact ⟨r, l₁, l₂, rfl, hl, hrest, hr, hl₁, hn, rfl⟩
  · next hscan =>
      right
      cases l with
      | nil => simp at h
      | cons r rest' =>
          simp only [Option.some.injEq, Prod.mk.injEq] at h
          obtain ⟨rfl, rfl, rfl⟩ := h
          refine ⟨r, rfl, rfl, fun hr => ?_, rfl⟩
          by_contra hn
          rw [if_pos hn, scanConc_cons_of_isConc hr] at hscan
          exact absurd hscan (by simp)

/-- What `GetRequest` does to the queue, whichever request it takes. -/
lemma getRequest_split {n n' : ℤ} {l rest : List Request} {pc : ServePc}
    (h : getRequest n l = some (pc, rest, n')) :
    ∃ r l₁ l₂, (pc = .serving r ∨ pc = .waiting r ∧ r.isMutex = true) ∧
      l = l₁ ++ r :: l₂ ∧ rest = l₁ ++ l₂ := by
  rcases getRequest_cases h with ⟨r, l₁, l₂, hpc, hl, hrest, -⟩ | ⟨r, hpc, hl, -⟩
  · exact ⟨r, l₁, l₂, Or.inl hpc, hl, hrest⟩
  · refine ⟨r, [], rest, ?_, hl, rfl⟩
    split at hpc
    · next hm => exact Or.inr ⟨hpc, hm⟩
    · exact Or.inl hpc

lemma exists_getRequest {l : List Request} (n : ℤ) (h : l ≠ []) :
    ∃ pc rest n', getRequest n l = some (pc, rest, n') := by
  unfold getRequest
  split
  · exact ⟨_, _, _, rfl⟩
  · cases l with
    | nil => exact absurd rfl h
    | cons r rest => exact ⟨_, _, _, rfl⟩

lemma exists_next_get {s : State} (h : Enabled s .get) :
    ∃ pc rest n, getRequest s.concPendings s.fifo = some (pc, rest, n) ∧
      next s .get = { s with serve := pc, fifo := rest, concPendings := n } := by
  obtain ⟨pc, rest, n, hget⟩ := exists_getRequest s.concPendings h.2
  exact ⟨pc, rest, n, hget, by simp only [next, hget]⟩

/-- `GetRequest` leaves everything alone but the queue, `concPendings` and its own thread. -/
lemma next_get_eq (s : State) :
    next s .get = { s with
      serve := (next s .get).serve
      fifo := (next s .get).fifo
      concPendings := (next s .get).concPendings } := by
  simp only [next]
  split <;> rfl

/-- What an action records in the trace. -/
def Action.events : Action → List Event
  | .registerRequest _ r => [.enter r]
  | .createFails _ r => [.drop r]
  | .createThrows _ r => [.leak r]
  | .push _ r => [.append r]
  | .serveCreateFails r => [.drop r]
  | .serveCreateThrows r _ => [.leak r]
  | .startServe r => [.start r]
  | .finishServe r _ => [.finish r]
  | .release r => [.retire r]
  | .replyThrows r _ => [.leak r]
  | .startInvoke _ r => [.start r]
  | .finishInvoke _ r _ => [.finish r]
  | .destroyInvoke _ r => [.retire r]
  | _ => []

lemma trace_next (s : State) (a : Action) : (next s a).trace = s.trace ++ a.events := by
  cases a with
  | get =>
      rw [next_get_eq]
      exact (List.append_nil _).symm
  | _ => simp [next, Action.events]

/-! ### Weights -/

/-- A number for everything that can stand for a request in a state. -/
structure Weight where
  recv : RecvPc → ℤ
  serve : ServePc → ℤ
  thread : Invocation → ℤ
  queued : Request → ℤ
  event : Event → ℤ

namespace Weight

variable (w : Weight)

def total (s : State) : ℤ :=
  (s.recv.map w.recv).sum + w.serve s.serve + (s.threads.map w.thread).sum +
    (s.fifo.map w.queued).sum + (s.trace.map w.event).sum

/-- What an action adds to the total: the weight of where its thread goes, less the weight of
where it was, and the weight of the request it queues, the thread it makes and the event it
records. -/
def gain (s : State) : Action → ℤ
  | .registerRequest _ r =>
      w.recv (if r.isConc || r.isMutex then .entered r else .appending r) - w.recv .idle +
        w.event (.enter r)
  | .testMutex _ r =>
      w.recv (if s.mutexCount ≤ 0 then .direct r else .appending r) - w.recv (.entered r)
  | .countMutex _ r => w.recv (.appending r) - w.recv (.entered r)
  | .construct _ r => w.recv (.creating r) - w.recv (.direct r)
  | .create _ r => w.recv .unlocking - w.recv (.creating r) + w.thread ⟨r, .created⟩
  | .createFails _ r => w.recv .unlocking - w.recv (.creating r) + w.event (.drop r)
  | .createThrows _ r => w.recv .stopped - w.recv (.creating r) + w.event (.leak r)
  | .unlockDirect _ => w.recv .idle - w.recv .unlocking
  | .push _ r =>
      w.recv (if r.isConc then .pushed r (s.fifo.length + 1) else .throttled (s.fifo.length + 1)) -
        w.recv (.appending r) + w.queued r + w.event (.append r)
  | .countConc _ r n => w.recv (.throttled n) - w.recv (.pushed r n)
  | .returnRegister _ n => w.recv .idle - w.recv (.throttled n)
  | .callGet => w.serve .getting - w.serve .loop
  | .getFalse => w.serve .left - w.serve .getting
  | .get =>
      w.serve (next s .get).serve - w.serve .getting +
        (((next s .get).fifo.map w.queued).sum - (s.fifo.map w.queued).sum)
  | .mutexReady r => w.serve (.serving r) - w.serve (.waiting r)
  | .serveConstruct r => w.serve (.creating r) - w.serve (.serving r)
  | .serveCreate r => w.serve (afterServe s r) - w.serve (.creating r) + w.thread ⟨r, .created⟩
  | .serveCreateFails r => w.serve (afterServe s r) - w.serve (.creating r) + w.event (.drop r)
  | .serveCreateThrows r _ => w.serve .loop - w.serve (.creating r) + w.event (.leak r)
  | .startServe r => w.serve (.running r) - w.serve (.serving r) + w.event (.start r)
  | .finishServe r _ => w.serve (.ended r) - w.serve (.running r) + w.event (.finish r)
  | .release r => w.serve (afterServe s r) - w.serve (.ended r) + w.event (.retire r)
  | .replyThrows r _ => w.serve .loop - w.serve (.ended r) + w.event (.leak r)
  | .leaveLoop => w.serve .left - w.serve .loop
  | .exitRun => w.serve .exited - w.serve .left
  | .startInvoke _ r => w.thread ⟨r, .running⟩ - w.thread ⟨r, .created⟩ + w.event (.start r)
  | .finishInvoke _ r _ => w.thread ⟨r, .ended⟩ - w.thread ⟨r, .running⟩ + w.event (.finish r)
  | .destroyInvoke _ r => - w.thread ⟨r, .ended⟩ + w.event (.retire r)
  | .addRef => 0
  | .decRef => 0

/-- **One step changes the total by the gain of its action.** -/
theorem total_next {s : State} {a : Action} (he : Enabled s a) :
    w.total (next s a) = w.total s + w.gain s a := by
  cases a with
  | get =>
      obtain ⟨pc, rest, n, -, hnext⟩ := exists_next_get he
      simp only [total, gain, hnext, he.1]
      ring
  | destroyInvoke i r =>
      simp only [total, gain, next, List.map_append, List.sum_append, List.map_singleton,
        List.sum_singleton, sum_map_eraseIdx w.thread he]
      ring
  | startInvoke i r =>
      simp only [total, gain, next, List.map_append, List.sum_append, List.map_singleton,
        List.sum_singleton, sum_map_set w.thread he]
      ring
  | finishInvoke i r o =>
      simp only [total, gain, next, endBody, List.map_append, List.sum_append,
        List.map_singleton, List.sum_singleton, sum_map_set w.thread he.1]
      ring
  | addRef => simp only [total, gain, next, add_zero]
  | decRef => simp only [total, gain, next, add_zero]
  -- the receivers: one slot of `recv` is set, and a list may grow
  | construct t r =>
      simp only [total, gain, next, sum_map_set w.recv he]
      ring
  | create t r =>
      simp only [total, gain, next, sum_map_set w.recv he, List.map_append, List.sum_append,
        List.map_singleton, List.sum_singleton]
      ring
  | createFails t r =>
      simp only [total, gain, next, sum_map_set w.recv he, List.map_append, List.sum_append,
        List.map_singleton, List.sum_singleton]
      ring
  | unlockDirect t =>
      simp only [total, gain, next, sum_map_set w.recv he]
      ring
  | push t r =>
      simp only [total, gain, next, sum_map_set w.recv he, List.map_append, List.sum_append,
        List.map_singleton, List.sum_singleton]
      ring
  | countConc t r n =>
      simp only [total, gain, next, sum_map_set w.recv he]
      ring
  | registerRequest t r =>
      simp only [total, gain, next, sum_map_set w.recv he.1, List.map_append, List.sum_append,
        List.map_singleton, List.sum_singleton]
      ring
  | testMutex t r =>
      simp only [total, gain, next, sum_map_set w.recv he.1]
      ring
  | countMutex t r =>
      simp only [total, gain, next, sum_map_set w.recv he.1]
      ring
  | createThrows t r =>
      simp only [total, gain, next, sum_map_set w.recv he.1, List.map_append, List.sum_append,
        List.map_singleton, List.sum_singleton]
      ring
  | returnRegister t n =>
      simp only [total, gain, next, sum_map_set w.recv he.1]
      ring
  -- the serving loop
  | serveCreate r =>
      have hserve : s.serve = .creating r := he
      simp only [total, gain, next, hserve, List.map_append, List.sum_append,
        List.map_singleton, List.sum_singleton]
      ring
  | serveCreateFails r =>
      have hserve : s.serve = .creating r := he
      simp only [total, gain, next, hserve, List.map_append, List.sum_append,
        List.map_singleton, List.sum_singleton]
      ring
  | _ =>
      simp only [total, gain, next, endBody, he.1, List.map_append, List.sum_append,
        List.map_singleton, List.sum_singleton]
      ring

/-- What `GetRequest` adds to the total. -/
lemma gain_get {s : State} (he : Enabled s .get) :
    ∃ r ∈ s.fifo, ((next s .get).serve = .serving r ∨
        (next s .get).serve = .waiting r ∧ r.isMutex = true) ∧
      w.gain s .get = w.serve (next s .get).serve - w.serve .getting - w.queued r := by
  obtain ⟨pc, rest, n, hget, hnext⟩ := exists_next_get he
  obtain ⟨r, l₁, l₂, hpc, hl, rfl⟩ := getRequest_split hget
  refine ⟨r, by simp [hl], by rw [hnext]; exact hpc, ?_⟩
  simp only [gain, hnext, hl, List.map_append, List.map_cons, List.sum_append, List.sum_cons]
  ring

lemma total_init (n : ℕ) (hrecv : w.recv .idle = 0) (hserve : w.serve .loop = 0) :
    w.total (init n) = 0 := by
  simp [total, init, hrecv, hserve]

/-- No weight is negative. -/
structure Nonneg : Prop where
  recv : ∀ pc, 0 ≤ w.recv pc
  serve : ∀ pc, 0 ≤ w.serve pc
  thread : ∀ x, 0 ≤ w.thread x
  queued : ∀ r, 0 ≤ w.queued r
  event : ∀ e, 0 ≤ w.event e

variable {w}

lemma sum_map_nonneg {α : Type*} {f : α → ℤ} (h : ∀ x, 0 ≤ f x) (l : List α) :
    0 ≤ (l.map f).sum := by
  refine List.sum_nonneg fun y hy => ?_
  obtain ⟨x, -, rfl⟩ := List.mem_map.mp hy
  exact h x

lemma Nonneg.serve_le (h : w.Nonneg) (s : State) : w.serve s.serve ≤ w.total s := by
  have hrecv := sum_map_nonneg h.recv s.recv
  have hthreads := sum_map_nonneg h.thread s.threads
  have hfifo := sum_map_nonneg h.queued s.fifo
  have htrace := sum_map_nonneg h.event s.trace
  simp only [total]
  omega

lemma Nonneg.threads_le (h : w.Nonneg) (s : State) : (s.threads.map w.thread).sum ≤ w.total s := by
  have hrecv := sum_map_nonneg h.recv s.recv
  have hserve := h.serve s.serve
  have hfifo := sum_map_nonneg h.queued s.fifo
  have htrace := sum_map_nonneg h.event s.trace
  simp only [total]
  omega

lemma Nonneg.fifo_le (h : w.Nonneg) (s : State) : (s.fifo.map w.queued).sum ≤ w.total s := by
  have hrecv := sum_map_nonneg h.recv s.recv
  have hserve := h.serve s.serve
  have hthreads := sum_map_nonneg h.thread s.threads
  have htrace := sum_map_nonneg h.event s.trace
  simp only [total]
  omega

end Weight

end PopCpp.Broker
