/-
# The event queue

`PostEvent` puts an event at the end of a queue and wakes all waiting threads; `WaitEvent` takes
the oldest event that it waits for, and waits on a condition variable while there is none.  The
timed wait of `pop_condition` returns `true` when the thread was woken and `false` when its time
is up, but `WaitEvent` gives up when the result is not 0: any wake-up ends a timed wait, also
one for the right event, and when the time is up the thread waits again.

The queue is only touched with the mutex locked, so that what a thread does from locking it to
unlocking it, or to waiting, is one step.  (A wait whose time limit the system refuses does not
unlock it; that other threads may go on there adds runs and loses none.)  The number of threads
and the order of their steps are not bounded, a wait may end without a reason, and a time limit
may pass at any moment.  Events are numbered in the order in which they were posted.
-/
import PopCpp.Lib.Transition
import PopCpp.Lib.Ledger
import Mathlib.Logic.Function.Basic

namespace PopCpp.Event

open Transition Ledger

/-! ### Threads -/

def ANY_EVENT : ℤ := -1

/-- The arguments of a `WaitEvent`.  The last member is not in the code: it says that the
timeout has elapsed once and no matching event was in the queue then. -/
structure Wait where
  e : ℤ
  timeout : ℤ
  lapsed : Bool
deriving DecidableEq, Repr

/-- Where a thread is. -/
inductive Thread where
  | idle
  /-- In `PostEvent`, after `unlock` and before `broadcast`. -/
  | posted
  /-- In `WaitEvent`, at the start of the loop, after a timeout or not. -/
  | looping (w : Wait) (expired : Bool)
  /-- In a wait on the condition variable. -/
  | waiting (w : Wait)
  /-- Woken in a timed wait, which is to return `true`. -/
  | signalled (w : Wait)
deriving DecidableEq, Repr

/-- A `WaitEvent` that has returned, and the event that it has taken from the queue. -/
structure Return where
  wait : Wait
  taken : Option (ℤ × ℕ)
deriving DecidableEq, Repr

/-- What it has returned. -/
def Return.ret (r : Return) : ℤ :=
  match r.taken with
  | some x => x.1
  | none => -1

/-- The members of the queue, with the numbers of the events, and where the threads are; what
was posted and what was returned so far. -/
structure EventQueue where
  queue : List (ℤ × ℕ)
  threads : ℕ → Thread
  posts : List ℤ
  returns : List Return

def init : EventQueue := ⟨[], fun _ => .idle, [], []⟩

/-- `e == ANY_EVENT || e == ev`. -/
def Matches (e ev : ℤ) : Prop := e = ANY_EVENT ∨ e = ev

instance (e ev : ℤ) : Decidable (Matches e ev) := inferInstanceAs (Decidable (_ ∨ _))

/-- The loop over the queue: the first event that matches, and the queue without it. -/
def takeEvent (e : ℤ) : List (ℤ × ℕ) → Option ((ℤ × ℕ) × List (ℤ × ℕ))
  | [] => none
  | x :: queue =>
      if Matches e x.1 then some (x, queue)
      else (takeEvent e queue).map fun r => (r.1, x :: r.2)

/-- What `broadcast`, or a wake-up without a reason, does to a thread.  An untimed wait goes
back to the loop. -/
def Thread.wake : Thread → Thread
  | .waiting w => if w.timeout < 0 then .looping w false else .signalled w
  | t => t

/-- Whether `pthread_cond_timedwait` takes the time at which `wait(timeout)` is to end; `usec`
are the microseconds of the clock.  If not, it fails at once. -/
def ValidTime (usec : ℕ) (timeout : ℤ) : Prop :=
  ((usec : ℤ) + timeout % 1000 * 1000) * 1000 < 1000000000

instance (usec : ℕ) (timeout : ℤ) : Decidable (ValidTime usec timeout) :=
  inferInstanceAs (Decidable (_ < _))

/-! ### Steps -/

/-- The steps of the threads, by the number of the thread, and what the system does to them. -/
inductive Action where
  /-- `PostEvent(e)` up to `unlock`. -/
  | postEvent (i : ℕ) (e : ℤ)
  /-- The rest of `PostEvent`. -/
  | broadcast (i : ℕ)
  /-- `WaitEvent(e, timeout)` up to the loop. -/
  | waitEvent (i : ℕ) (e timeout : ℤ)
  /-- The body of the loop of `WaitEvent`, up to a return or a wait. -/
  | loop (i usec : ℕ)
  /-- The time limit of a wait passes. -/
  | expire (i : ℕ)
  /-- A wait ends without a reason. -/
  | spurious (i : ℕ)
  /-- `wait(timeout)` returns `true`, and `WaitEvent` returns -1. -/
  | giveUp (i : ℕ)
deriving DecidableEq, Repr

namespace EventQueue

def setThread (s : EventQueue) (i : ℕ) (t : Thread) : EventQueue :=
  { s with threads := Function.update s.threads i t }

/-- A `WaitEvent` returns. -/
def finish (s : EventQueue) (i : ℕ) (w : Wait) (taken : Option (ℤ × ℕ)) : EventQueue :=
  { s.setThread i .idle with returns := s.returns ++ [⟨w, taken⟩] }

end EventQueue

/-- The body of the loop, when thread `i` is in it. -/
def loopBody (s : EventQueue) (i : ℕ) (w : Wait) (expired : Bool) (usec : ℕ) : EventQueue :=
  match takeEvent w.e s.queue with
  | some (x, queue) => { s with queue := queue }.finish i w (some x)
  | none =>
      if w.timeout < 0 then s.setThread i (.waiting w)
      else if w.timeout = 0 then s.finish i w none
      else
        let w := { w with lapsed := w.lapsed || expired }
        if ValidTime usec w.timeout then s.setThread i (.waiting w)
        else s.setThread i (.looping w false)

def step (s : EventQueue) : Action → Option EventQueue
  | .postEvent i e =>
      if s.threads i = .idle then
        some { s.setThread i .posted with
          queue := s.queue ++ [(e, s.posts.length)], posts := s.posts ++ [e] }
      else none
  | .broadcast i =>
      if s.threads i = .posted then
        some { s with threads := fun j => (Function.update s.threads i .idle j).wake }
      else none
  | .waitEvent i e timeout =>
      if s.threads i = .idle then some (s.setThread i (.looping ⟨e, timeout, false⟩ false))
      else none
  | .loop i usec =>
      match s.threads i with
      | .looping w expired => some (loopBody s i w expired usec)
      | _ => none
  | .expire i =>
      match s.threads i with
      | .waiting w => if w.timeout > 0 then some (s.setThread i (.looping w true)) else none
      | _ => none
  | .spurious i =>
      match s.threads i with
      | .waiting w => some (s.setThread i (Thread.waiting w).wake)
      | _ => none
  | .giveUp i =>
      match s.threads i with
      | .signalled w => some (s.finish i w none)
      | _ => none

/-! ### What a user may expect -/

/-- The numbers of the events that these calls have returned. -/
def numbers (rs : List Return) : List ℕ := rs.filterMap fun r => r.taken.map Prod.snd

/-- Every event is returned once at most, and to a call that waits for it and for which no older
one is left; the others stay in the queue, in order. -/
structure Delivered (s : EventQueue) : Prop where
  once : (numbers s.returns).Nodup
  oldest : ∀ i r x, s.returns[i]? = some r → r.taken = some x →
    s.posts[x.2]? = some x.1 ∧ Matches r.wait.e x.1 ∧
      ∀ k < x.2, ∀ ev, s.posts[k]? = some ev → Matches r.wait.e ev →
        k ∈ numbers (s.returns.take i)
  queue : s.queue = left s.posts (numbers s.returns)

/-- A `WaitEvent` with a positive timeout has returned -1 only after this has elapsed without a
matching event in the queue. -/
def Timed (s : EventQueue) : Prop :=
  ∀ r ∈ s.returns, 0 < r.wait.timeout → r.ret = -1 → r.wait.lapsed = true

/-- A thread waits with a positive timeout that has not elapsed yet. -/
def Thread.InTime (t : Thread) : Prop := ∃ w, t = .waiting w ∧ 0 < w.timeout ∧ w.lapsed = false

/-- No such thread is woken, nor does a call that is still in time come upon the event -1. -/
def Clean (s : EventQueue) : Action → Prop
  | .broadcast _ => ∀ j, ¬(s.threads j).InTime
  | .spurious i => ¬(s.threads i).InTime
  | .loop i _ => ∀ w expired x queue, s.threads i = .looping w expired →
      takeEvent w.e s.queue = some (x, queue) → 0 < w.timeout → w.lapsed = false → x.1 ≠ -1
  | _ => True

/-! ### What a step does to the queue -/

lemma takeEvent_eq_some {e : ℤ} {queue rest : List (ℤ × ℕ)} {x : ℤ × ℕ}
    (h : takeEvent e queue = some (x, rest)) : ∃ pre post, queue = pre ++ x :: post ∧
      rest = pre ++ post ∧ Matches e x.1 ∧ ∀ y ∈ pre, ¬Matches e y.1 := by
  induction queue generalizing rest with
  | nil => cases h
  | cons y queue ih =>
      rw [takeEvent] at h
      split at h
      · next hmatches =>
          cases h
          exact ⟨[], _, rfl, rfl, hmatches, by simp⟩
      · next hmatches =>
          obtain ⟨⟨x', rest'⟩, htake, heq⟩ := Option.map_eq_some_iff.mp h
          cases heq
          obtain ⟨pre, post, hqueue, hrest, hx, hpre⟩ := ih htake
          refine ⟨y :: pre, post, by rw [hqueue]; rfl, by rw [hrest]; rfl, hx, ?_⟩
          exact List.forall_mem_cons.mpr ⟨hmatches, hpre⟩

/-- The ledger is left alone, or one event is posted, or one call returns. -/
inductive Entry (s t : EventQueue) : Prop where
  | none (hqueue : t.queue = s.queue) (hposts : t.posts = s.posts)
      (hreturns : t.returns = s.returns)
  | post (e : ℤ) (hqueue : t.queue = s.queue ++ [(e, s.posts.length)])
      (hposts : t.posts = s.posts ++ [e]) (hreturns : t.returns = s.returns)
  | give (w : Wait) (hqueue : t.queue = s.queue) (hposts : t.posts = s.posts)
      (hreturns : t.returns = s.returns ++ [⟨w, .none⟩])
  | take (w : Wait) (x : ℤ × ℕ) (htake : takeEvent w.e s.queue = some (x, t.queue))
      (hposts : t.posts = s.posts) (hreturns : t.returns = s.returns ++ [⟨w, some x⟩])

lemma entry_loopBody (s : EventQueue) (i : ℕ) (w : Wait) (expired : Bool) (usec : ℕ) :
    Entry s (loopBody s i w expired usec) := by
  rw [loopBody]
  split
  · next x queue htake => exact .take w x htake rfl rfl
  · split
    · exact .none rfl rfl rfl
    · split
      · exact .give w rfl rfl rfl
      · simp only
        split <;> exact .none rfl rfl rfl

section

variable {s t : EventQueue} {i : ℕ}

lemma step_postEvent {e : ℤ} : step s (.postEvent i e) = some t ↔ s.threads i = .idle ∧
    t = { s.setThread i .posted with
      queue := s.queue ++ [(e, s.posts.length)], posts := s.posts ++ [e] } := by
  rw [step, Option.ite_none_right_eq_some, Option.some_inj, @eq_comm _ t]

lemma step_broadcast : step s (.broadcast i) = some t ↔ s.threads i = .posted ∧
    t = { s with threads := fun j => (Function.update s.threads i .idle j).wake } := by
  rw [step, Option.ite_none_right_eq_some, Option.some_inj, @eq_comm _ t]

lemma step_waitEvent {e timeout : ℤ} : step s (.waitEvent i e timeout) = some t ↔
    s.threads i = .idle ∧ t = s.setThread i (.looping ⟨e, timeout, false⟩ false) := by
  rw [step, Option.ite_none_right_eq_some, Option.some_inj, @eq_comm _ t]

lemma step_loop {usec : ℕ} : step s (.loop i usec) = some t ↔
    ∃ w expired, s.threads i = .looping w expired ∧ t = loopBody s i w expired usec := by
  rw [step]
  cases s.threads i with
  | looping w expired =>
      constructor
      · intro h
        exact ⟨w, expired, rfl, (Option.some.inj h).symm⟩
      · rintro ⟨_, _, ⟨⟩, rfl⟩
        rfl
  | _ => simp

lemma step_expire : step s (.expire i) = some t ↔
    ∃ w, s.threads i = .waiting w ∧ 0 < w.timeout ∧ t = s.setThread i (.looping w true) := by
  rw [step]
  cases s.threads i <;> simp [eq_comm]

lemma step_spurious : step s (.spurious i) = some t ↔
    ∃ w, s.threads i = .waiting w ∧ t = s.setThread i (Thread.waiting w).wake := by
  rw [step]
  cases s.threads i <;> simp [eq_comm]

lemma step_giveUp : step s (.giveUp i) = some t ↔
    ∃ w, s.threads i = .signalled w ∧ t = s.finish i w none := by
  rw [step]
  cases s.threads i <;> simp [eq_comm]

lemma entry_of_step {a : Action} (h : step s a = some t) : Entry s t := by
  cases a with
  | postEvent i e =>
      obtain ⟨-, rfl⟩ := step_postEvent.mp h
      exact .post e rfl rfl rfl
  | broadcast i =>
      obtain ⟨-, rfl⟩ := step_broadcast.mp h
      exact .none rfl rfl rfl
  | waitEvent i e timeout =>
      obtain ⟨-, rfl⟩ := step_waitEvent.mp h
      exact .none rfl rfl rfl
  | loop i usec =>
      obtain ⟨w, expired, -, rfl⟩ := step_loop.mp h
      exact entry_loopBody ..
  | expire i =>
      obtain ⟨w, -, -, rfl⟩ := step_expire.mp h
      exact .none rfl rfl rfl
  | spurious i =>
      obtain ⟨w, -, rfl⟩ := step_spurious.mp h
      exact .none rfl rfl rfl
  | giveUp i =>
      obtain ⟨w, -, rfl⟩ := step_giveUp.mp h
      exact .give w rfl rfl rfl

/-! ### The ledger -/

lemma numbers_concat (rs : List Return) (r : Return) :
    numbers (rs ++ [r]) = numbers rs ++ (r.taken.map Prod.snd).toList := by
  rw [numbers, List.filterMap_append, numbers]
  cases htaken : r.taken <;> simp [htaken]

lemma lt_of_mem_numbers (h : Delivered s) {k : ℕ} (hk : k ∈ numbers s.returns) :
    k < s.posts.length := by
  obtain ⟨r, hr, hnumber⟩ := List.mem_filterMap.mp hk
  obtain ⟨x, hx, rfl⟩ := Option.map_eq_some_iff.mp hnumber
  obtain ⟨i, hi⟩ := List.mem_iff_getElem?.mp hr
  exact (List.getElem?_eq_some_iff.mp (h.oldest i r x hi hx).1).1

/-- What was true of the calls that had returned remains true of them. -/
lemma oldest_concat (h : Delivered s) (e : ℤ) {i : ℕ} {r : Return} {x : ℤ × ℕ}
    (hr : s.returns[i]? = some r) (hx : r.taken = some x) :
    (s.posts ++ [e])[x.2]? = some x.1 ∧ Matches r.wait.e x.1 ∧
      ∀ k < x.2, ∀ ev, (s.posts ++ [e])[k]? = some ev → Matches r.wait.e ev →
        k ∈ numbers (s.returns.take i) := by
  obtain ⟨hpost, hmatches, hold⟩ := h.oldest i r x hr hx
  have hlt : x.2 < s.posts.length := (List.getElem?_eq_some_iff.mp hpost).1
  rw [List.getElem?_append_left hlt]
  refine ⟨hpost, hmatches, fun k hk ev hev => ?_⟩
  rw [List.getElem?_append_left (hk.trans hlt)] at hev
  exact hold k hk ev hev

/-- One more call returns. -/
lemma Delivered.returned (h : Delivered s) {w : Wait} {taken : Option (ℤ × ℕ)}
    (hposts : t.posts = s.posts) (hreturns : t.returns = s.returns ++ [⟨w, taken⟩])
    (hnew : ∀ x, taken = some x → s.posts[x.2]? = some x.1 ∧ Matches w.e x.1 ∧
      (∀ k < x.2, ∀ ev, s.posts[k]? = some ev → Matches w.e ev → k ∈ numbers s.returns) ∧
      x.2 ∉ numbers s.returns)
    (hqueue : t.queue = left s.posts (numbers s.returns ++ (taken.map Prod.snd).toList)) :
    Delivered t := by
  have hnumbers : numbers t.returns = numbers s.returns ++ (taken.map Prod.snd).toList := by
    rw [hreturns, numbers_concat]
  refine ⟨?_, fun i r x hr hx => ?_, by rw [hqueue, hposts, hnumbers]⟩
  · rw [hnumbers, List.nodup_append]
    refine ⟨h.once, by cases taken <;> simp, fun k hk k' hk' => ?_⟩
    rintro rfl
    rw [Option.mem_toList, Option.map_eq_some_iff] at hk'
    obtain ⟨x, hx, rfl⟩ := hk'
    exact (hnew x hx).2.2.2 hk
  · rw [hreturns] at hr ⊢
    rw [hposts]
    rcases Nat.lt_or_ge i s.returns.length with hi | hi
    · rw [List.getElem?_append_left hi] at hr
      rw [List.take_append_of_le_length hi.le]
      exact h.oldest i r x hr hx
    · -- the call that returns now
      rw [List.getElem?_append_right hi] at hr
      obtain ⟨hzero, rfl⟩ : i - s.returns.length = 0 ∧ ⟨w, taken⟩ = r := by
        simpa [List.getElem?_singleton] using hr
      obtain rfl : i = s.returns.length := by omega
      rw [List.take_left]
      obtain ⟨hpost, hmatches, hold, -⟩ := hnew x hx
      exact ⟨hpost, hmatches, hold⟩

lemma Delivered.step (h : Delivered s) {a : Action} (hst : step s a = some t) :
    Delivered t := by
  cases entry_of_step hst with
  | none hqueue hposts hreturns =>
      obtain ⟨honce, holdest, hleft⟩ := h
      exact ⟨by rwa [hreturns], by rwa [hreturns, hposts], by rw [hqueue, hreturns, hposts, hleft]⟩
  | post e hqueue hposts hreturns =>
      refine ⟨by rw [hreturns]; exact h.once, fun i r x hr hx => ?_, ?_⟩
      · rw [hreturns] at hr ⊢
        rw [hposts]
        exact oldest_concat h e hr hx
      · rw [hqueue, hreturns, hposts, left_concat (fun k => lt_of_mem_numbers h), h.queue]
  | give w hqueue hposts hreturns =>
      refine h.returned hposts hreturns (fun x hx => absurd hx (by simp)) ?_
      rw [hqueue, h.queue]
      simp
  | take w x htake hposts hreturns =>
      obtain ⟨pre, post, hsplit, hrest, hmatches, hpre⟩ := takeEvent_eq_some htake
      rw [h.queue] at hsplit
      have hmem : x ∈ left s.posts (numbers s.returns) := by
        rw [hsplit]
        exact List.mem_append_right _ List.mem_cons_self
      obtain ⟨hpost, hnot⟩ := mem_left.mp hmem
      refine h.returned hposts hreturns (fun y hy => ?_) ?_
      · cases hy
        exact ⟨hpost, hmatches, fun k hk ev => mem_taken_of_first hsplit hpre hk, hnot⟩
      · exact hrest.trans (left_take hsplit).symm

lemma delivered_init : Delivered init :=
  ⟨List.nodup_nil, by simp [init], rfl⟩

/-! ### Time limits -/

/-- A woken thread is about to return -1, and may do so. -/
def Thread.MayGiveUp (t : Thread) : Prop :=
  ∀ w, t = .signalled w → 0 < w.timeout → w.lapsed = true

/-- So far, and as far as the threads that have been woken are concerned. -/
structure InOrder (s : EventQueue) : Prop where
  timed : Timed s
  threads : ∀ j, (s.threads j).MayGiveUp

lemma Thread.MayGiveUp.wake {th : Thread} (h : th.MayGiveUp) (hin : ¬th.InTime) :
    th.wake.MayGiveUp := by
  cases th with
  | waiting w =>
      rw [Thread.wake]
      split
      · intro w' hw'
        cases hw'
      · rintro w' hw' hpos
        cases hw'
        by_contra hlapsed
        exact hin ⟨w, rfl, hpos, by simpa using hlapsed⟩
  | _ => exact h

lemma InOrder.update (h : InOrder s) {th : Thread} (hth : th.MayGiveUp) (j : ℕ) :
    (Function.update s.threads i th j).MayGiveUp := by
  by_cases hj : j = i
  · subst hj
    rwa [Function.update_self]
  · rw [Function.update_of_ne hj]
    exact h.threads j

/-- Only a thread that has been woken is about to give up. -/
lemma mayGiveUp_of_ne {th : Thread} (h : ∀ w, th ≠ .signalled w) : th.MayGiveUp :=
  fun w hw => absurd hw (h w)

lemma InOrder.setThread (h : InOrder s) {th : Thread} (hth : th.MayGiveUp) :
    InOrder (s.setThread i th) :=
  ⟨h.timed, h.update hth⟩

lemma InOrder.finish (h : InOrder s) {w : Wait} {taken : Option (ℤ × ℕ)}
    (hret : 0 < w.timeout → (Return.mk w taken).ret = -1 → w.lapsed = true) :
    InOrder (s.finish i w taken) := by
  refine ⟨fun r hr => ?_, h.update (mayGiveUp_of_ne (by simp))⟩
  rcases List.mem_append.mp hr with hr | hr
  · exact h.timed r hr
  · obtain rfl := List.mem_singleton.mp hr
    exact hret

/-- The body of the loop, unless it comes upon the event -1 in time. -/
lemma InOrder.loopBody (h : InOrder s) {w : Wait} {expired : Bool} {usec : ℕ}
    (hx : ∀ x queue, takeEvent w.e s.queue = some (x, queue) → 0 < w.timeout →
      w.lapsed = false → x.1 ≠ -1) : InOrder (loopBody s i w expired usec) := by
  rw [Event.loopBody]
  split
  · next x queue htake =>
      have hqueue : InOrder { s with queue := queue } := ⟨h.timed, h.threads⟩
      refine hqueue.finish fun hpos hret => ?_
      by_contra hlapsed
      exact hx x queue htake hpos (by simpa using hlapsed) hret
  · split
    · exact h.setThread (mayGiveUp_of_ne (by simp))
    · split
      · next hzero => exact h.finish fun hpos => absurd hzero hpos.ne'
      · simp only
        split <;> exact h.setThread (mayGiveUp_of_ne (by simp))

lemma InOrder.step (h : InOrder s) {a : Action} (hclean : Clean s a) (hst : step s a = some t) :
    InOrder t := by
  cases a with
  | postEvent i e =>
      obtain ⟨-, rfl⟩ := step_postEvent.mp hst
      exact ⟨h.timed, h.update (mayGiveUp_of_ne (by simp))⟩
  | broadcast i =>
      obtain ⟨hi, rfl⟩ := step_broadcast.mp hst
      refine ⟨h.timed, fun j => (h.update (mayGiveUp_of_ne (by simp)) j).wake ?_⟩
      by_cases hj : j = i
      · subst hj
        rw [Function.update_self]
        rintro ⟨w, hw, -⟩
        cases hw
      · rw [Function.update_of_ne hj]
        exact hclean j
  | waitEvent i e timeout =>
      obtain ⟨-, rfl⟩ := step_waitEvent.mp hst
      exact h.setThread (mayGiveUp_of_ne (by simp))
  | loop i usec =>
      obtain ⟨w, expired, hthread, rfl⟩ := step_loop.mp hst
      exact h.loopBody fun x queue => hclean w expired x queue hthread
  | expire i =>
      obtain ⟨w, -, -, rfl⟩ := step_expire.mp hst
      exact h.setThread (mayGiveUp_of_ne (by simp))
  | spurious i =>
      obtain ⟨w, hthread, rfl⟩ := step_spurious.mp hst
      rw [Clean, hthread] at hclean
      exact h.setThread ((mayGiveUp_of_ne (by simp)).wake hclean)
  | giveUp i =>
      -- the code does not look into the queue again
      obtain ⟨w, hthread, rfl⟩ := step_giveUp.mp hst
      exact h.finish fun hpos _ => h.threads i w hthread hpos

lemma inOrder_init : InOrder init :=
  ⟨by simp [Timed, init], fun _ => mayGiveUp_of_ne (by simp [init])⟩

/-- A thread that is woken in time gives up. -/
lemma not_timed_of_signalled {j : ℕ} {w : Wait} (hthread : s.threads j = .signalled w)
    (hpos : 0 < w.timeout) (hlapsed : w.lapsed = false) :
    ∃ u, run step s [.giveUp j] = some u ∧ ¬Timed u := by
  refine ⟨s.finish j w none, ?_, fun h => ?_⟩
  · rw [run, step_giveUp.mpr ⟨w, hthread, rfl⟩]
    rfl
  · have htrue := h ⟨w, none⟩ (List.mem_append_right _ List.mem_cons_self) hpos rfl
    exact absurd (htrue.symm.trans hlapsed) (by decide)

lemma wake_of_inTime {w : Wait} (hpos : 0 < w.timeout) :
    (Thread.waiting w).wake = .signalled w := by
  rw [Thread.wake, if_neg (by omega)]

/-- After any other step there is a step, or none is needed, by which -1 is returned in time. -/
lemma not_timed_of_not_clean {a : Action} (hclean : ¬Clean s a) (hst : step s a = some t) :
    ∃ bs u, run step t bs = some u ∧ ¬Timed u := by
  cases a with
  | broadcast i =>
      obtain ⟨hi, rfl⟩ := step_broadcast.mp hst
      simp only [Clean, not_forall, not_not] at hclean
      obtain ⟨j, w, hw, hpos, hlapsed⟩ := hclean
      have hj : j ≠ i := by
        rintro rfl
        rw [hi] at hw
        cases hw
      refine ⟨[.giveUp j], not_timed_of_signalled ?_ hpos hlapsed⟩
      simp only [Function.update_of_ne hj, hw]
      exact wake_of_inTime hpos
  | spurious i =>
      obtain ⟨w, hthread, rfl⟩ := step_spurious.mp hst
      simp only [Clean, not_not] at hclean
      obtain ⟨w', hw', hpos, hlapsed⟩ := hclean
      rw [hthread] at hw'
      cases hw'
      refine ⟨[.giveUp i], not_timed_of_signalled ?_ hpos hlapsed⟩
      exact (Function.update_self ..).trans (wake_of_inTime hpos)
  | loop i usec =>
      obtain ⟨w, expired, hthread, rfl⟩ := step_loop.mp hst
      simp only [Clean, not_forall, not_not, exists_prop] at hclean
      obtain ⟨w', expired', x, queue, hthread', htake, hpos, hlapsed, hx⟩ := hclean
      rw [hthread] at hthread'
      cases hthread'
      refine ⟨[], _, rfl, fun h => ?_⟩
      rw [loopBody, htake] at h
      have htrue := h ⟨w, some x⟩ (List.mem_append_right _ List.mem_cons_self) hpos hx
      exact absurd (htrue.symm.trans hlapsed) (by decide)
  | _ => exact absurd trivial hclean

end

/-- **The event queue.**  In every run each event is returned once at most, to a call that waits
for it and for which it is the oldest one left.  In the runs in which no thread is woken in a
timed wait before its time is up, and no timed wait takes the event -1 before, no such wait
returns -1 too early; any other step can be followed by one that does. -/
theorem eventQueue_runs {as : List Action} {s : EventQueue} (hrun : run step init as = some s) :
    Delivered s ∧ (Along step Clean init as → Timed s) ∧
      ∀ a t, step s a = some t → ¬Clean s a → ∃ bs u, run step t bs = some u ∧ ¬Timed u := by
  refine ⟨?_, fun hclean => ?_, fun a t hst hclean => not_timed_of_not_clean hclean hst⟩
  · exact run_invariant_along (P := fun _ _ => True) (fun s a t h _ hst => h.step hst)
      delivered_init (along_of_forall fun _ _ _ => trivial) hrun
  · exact (run_invariant_along (fun s a t h hP hst => h.step hP hst) inOrder_init hclean hrun).timed

/-- A thread waits for an event, for a second at most.  The second passes, another event is posted,
and the thread, woken by that, returns -1. -/
def expiredRun : List Action :=
  [.waitEvent 0 5 1000, .loop 0 0, .expire 0, .loop 0 0, .postEvent 1 7, .broadcast 1, .giveUp 0]

theorem eventQueue_runs_expired :
    ∃ s, run step init expiredRun = some s ∧ s.queue = [(7, 0)] ∧
      s.returns = [⟨⟨5, 1000, true⟩, none⟩] ∧ Delivered s ∧ Timed s := by
  obtain ⟨s, hrun, hqueue, hreturns⟩ : ∃ s, run step init expiredRun = some s ∧
      s.queue = [(7, 0)] ∧ s.returns = [⟨⟨5, 1000, true⟩, none⟩] := ⟨_, rfl, rfl, rfl⟩
  obtain ⟨hdelivered, htimed, -⟩ := eventQueue_runs hrun
  refine ⟨s, hrun, hqueue, hreturns, hdelivered, htimed ⟨trivial, ?_⟩⟩
  have hempty : ∀ {u : EventQueue} {i usec : ℕ}, u.queue = [] → Clean u (.loop i usec) := by
    intro u i usec hu w expired x queue _ htake
    rw [hu] at htake
    cases htake
  rintro _ ⟨⟩
  refine ⟨hempty rfl, ?_⟩
  rintro _ ⟨⟩
  refine ⟨trivial, ?_⟩
  rintro _ ⟨⟩
  refine ⟨hempty rfl, ?_⟩
  rintro _ ⟨⟩
  refine ⟨trivial, ?_⟩
  rintro _ ⟨⟩
  -- the time of the only thread that waits is up
  refine ⟨?_, ?_⟩
  · rintro (_ | _ | j) ⟨w, hw, hpos, hlapsed⟩
    · cases hw
      exact absurd hlapsed (by decide)
    · cases hw
    · cases hw
  · rintro _ ⟨⟩
    exact ⟨trivial, fun _ _ => trivial⟩

/-- A thread waits for an event, for a second at most; the event is posted at once, and the
thread returns -1. -/
theorem woken_too_early :
    ¬∀ (as : List Action) (s : EventQueue), run step init as = some s → Timed s := by
  intro h
  have htimed := h [.waitEvent 0 5 1000, .loop 0 0, .postEvent 1 5, .broadcast 1, .giveUp 0] _ rfl
  exact absurd (htimed ⟨⟨5, 1000, false⟩, none⟩ List.mem_cons_self (by decide) rfl) (by decide)

end PopCpp.Event
