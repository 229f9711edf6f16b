/-
# The deadline of a timed wait

`wait(timeout)` reads the clock, adds the milliseconds of the timeout, and waits on the condition
variable until then.  It adds the seconds to the seconds and the rest to the microseconds, but
carries no second: where the rest comes to a second or more, the nanoseconds are not those of a
time, and `pthread_cond_timedwait` fails at once with `EINVAL`.

Which timeouts this concerns depends on the clock.  A timeout of 900 ms fails in all but the first
tenth of each second.  `WaitEvent` takes the failure for a timeout that is over, and so for a
reason to wait again: it goes round its loop, with the mutex locked, until the next second
(`step_loop_of_not_valid`).
-/
import PopCpp.Event.EventQueue

namespace PopCpp.Event

/-! ### `pop_condition::wait` -/

/-- `struct timeval`, as `gettimeofday` sets it. -/
structure Timeval where
  sec : ℤ
  usec : ℕ
  sec_fits : -2 ^ 63 ≤ sec ∧ sec < 2 ^ 63
  usec_lt : usec < 1000000

structure Timespec where
  sec : ℤ
  nsec : ℤ
deriving DecidableEq, Repr

/-- The nanoseconds are those of a time. -/
def Timespec.Valid (t : Timespec) : Prop := 0 ≤ t.nsec ∧ t.nsec < 1000000000

def EINVAL : ℤ := 22
def ETIMEDOUT : ℤ := 110

/-- What a call of `pthread_cond_timedwait` returns, by its deadline. -/
structure CondTimedwait where
  ret : Timespec → ℤ
  ret_eq_einval : ∀ t, ret t = EINVAL ↔ ¬t.Valid

instance (t : Timespec) : Decidable t.Valid := inferInstanceAs (Decidable (_ ∧ _))

/-- `pthread_cond_timedwait` on a condition that is signalled in time, or is not. -/
def pthreadCondTimedwait (signalled : Bool) : CondTimedwait where
  ret t := if ¬t.Valid then EINVAL else if signalled then 0 else ETIMEDOUT
  ret_eq_einval t := by
    cases signalled <;> by_cases h : t.Valid <;> simp [h, EINVAL, ETIMEDOUT]

/-- A `time_t`. -/
def timeT (x : ℤ) : ℤ := (x + 2 ^ 63) % 2 ^ 64 - 2 ^ 63

/-- The deadline.  Its nanoseconds are a `long`, and no `int` on the way is near its limits. -/
def abstimeout (now : Timeval) (timeout : ℤ) : Timespec where
  sec := timeT (now.sec + timeout.tdiv 1000)
  nsec := (now.usec + timeout.tmod 1000 * 1000) * 1000

/-- `wait(timeout)`: whether it was woken. -/
def wait (cond : CondTimedwait) (now : Timeval) (timeout : ℤ) : Bool :=
  if timeout < 0 then true else cond.ret (abstimeout now timeout) = 0

/-! ### Times -/

/-- The time in nanoseconds. -/
def Timespec.nanoseconds (t : Timespec) : ℤ := t.sec * 1000000000 + t.nsec

def Timeval.nanoseconds (t : Timeval) : ℤ := t.sec * 1000000000 + t.usec * 1000

/-- The seconds and nanoseconds of a time. -/
def Timespec.ofNanoseconds (n : ℤ) : Timespec := ⟨n / 1000000000, n % 1000000000⟩

/-- There is one way only to write a time. -/
lemma Timespec.eq_ofNanoseconds_iff {t : Timespec} {n : ℤ} :
    t = ofNanoseconds n ↔ t.Valid ∧ t.nanoseconds = n := by
  obtain ⟨sec, nsec⟩ := t
  simp only [ofNanoseconds, Timespec.mk.injEq, Valid, nanoseconds]
  omega

lemma timeT_eq_self_iff {x : ℤ} (h : -2 ^ 63 ≤ x) : timeT x = x ↔ x < 2 ^ 63 := by
  unfold timeT
  omega

section

variable {now : Timeval} {timeout : ℤ}

lemma abstimeout_sec (h : 0 ≤ timeout) :
    (abstimeout now timeout).sec = timeT (now.sec + timeout / 1000) := by
  rw [abstimeout, Int.tdiv_eq_ediv_of_nonneg h]

lemma abstimeout_nsec (h : 0 ≤ timeout) :
    (abstimeout now timeout).nsec = (now.usec + timeout % 1000 * 1000) * 1000 := by
  rw [abstimeout, Int.tmod_eq_emod_of_nonneg h]

/-- A deadline is one if no second is to be carried. -/
lemma valid_abstimeout_iff (h : 0 ≤ timeout) :
    (abstimeout now timeout).Valid ↔ now.usec + timeout % 1000 * 1000 < 1000000 := by
  rw [Timespec.Valid, abstimeout_nsec h]
  omega

/-- Carried or not, nothing of the timeout is lost, unless the clock is at its end. -/
lemma nanoseconds_abstimeout_iff (h : 0 ≤ timeout) :
    (abstimeout now timeout).nanoseconds = now.nanoseconds + timeout * 1000000 ↔
      now.sec + timeout / 1000 < 2 ^ 63 := by
  have hsec := now.sec_fits.1
  rw [← timeT_eq_self_iff (by omega), Timespec.nanoseconds, Timeval.nanoseconds,
    abstimeout_sec h, abstimeout_nsec h]
  omega

/-- `WaitEvent` asks the same of the clock. -/
lemma validTime_iff (h : 0 ≤ timeout) :
    ValidTime now.usec timeout ↔ (abstimeout now timeout).Valid := by
  rw [valid_abstimeout_iff h, ValidTime]
  omega

end

/-! ### `WaitEvent` -/

section

variable {now : Timeval} {s : EventQueue} {i : ℕ} {w : Wait} {expired : Bool}

/-- With a deadline that is one, `WaitEvent` waits. -/
lemma step_loop_of_valid (hthread : s.threads i = .looping w expired)
    (htake : takeEvent w.e s.queue = none) (htimeout : 0 < w.timeout)
    (h : (abstimeout now w.timeout).Valid) :
    step s (.loop i now.usec) =
      some (s.setThread i (.waiting { w with lapsed := w.lapsed || expired })) := by
  have hvalid := (validTime_iff htimeout.le).mpr h
  rw [step_loop]
  refine ⟨w, expired, hthread, ?_⟩
  simp only [loopBody, htake, htimeout.not_gt, htimeout.ne', if_false, if_pos hvalid]

/-- **Polling.**  With one that is not, the wait returns `false`, and `WaitEvent` is where it was:
it has not waited, and nobody else has done anything. -/
theorem step_loop_of_not_valid (cond : CondTimedwait) (hthread : s.threads i = .looping w false)
    (htake : takeEvent w.e s.queue = none) (htimeout : 0 < w.timeout)
    (h : ¬(abstimeout now w.timeout).Valid) :
    wait cond now w.timeout = false ∧ step s (.loop i now.usec) = some s := by
  have hvalid := mt (validTime_iff htimeout.le).mp h
  constructor
  · rw [wait, if_neg htimeout.not_gt, (cond.ret_eq_einval _).mpr h]
    rfl
  · rw [step_loop]
    refine ⟨w, false, hthread, ?_⟩
    simp only [loopBody, htake, htimeout.not_gt, htimeout.ne', if_false, if_neg hvalid,
      Bool.or_false]
    rw [EventQueue.setThread, ← hthread, Function.update_eq_self]

end

/-! ### What a wait is to do -/

/-- The deadline is a time, and the right one, which the system does not refuse; a `WaitEvent`
that has nothing to take waits until then. -/
structure Timely (now : Timeval) (timeout : ℤ) : Prop where
  valid : (abstimeout now timeout).Valid
  nanoseconds : (abstimeout now timeout).nanoseconds = now.nanoseconds + timeout * 1000000
  accepted : ∀ cond : CondTimedwait, cond.ret (abstimeout now timeout) ≠ EINVAL
  waits : 0 < timeout → ∀ (s t : EventQueue) (i : ℕ) (w : Wait) (expired : Bool),
    s.threads i = .looping w expired → w.timeout = timeout → takeEvent w.e s.queue = none →
      step s (.loop i now.usec) = some t → ∃ w', t.threads i = .waiting w'

/-- The deadline is then what a carry would have made of it. -/
theorem Timely.abstimeout_eq {now : Timeval} {timeout : ℤ} (h : Timely now timeout) :
    abstimeout now timeout = .ofNanoseconds (now.nanoseconds + timeout * 1000000) :=
  Timespec.eq_ofNanoseconds_iff.mpr ⟨h.valid, h.nanoseconds⟩

/-- **Timed wait.**  A wait does so if the microseconds of the clock and the milliseconds of the
timeout come to less than a second, and the seconds to a `time_t`. -/
theorem timely_iff (now : Timeval) {timeout : ℤ} (h : 0 ≤ timeout) :
    Timely now timeout ↔
      now.usec + timeout % 1000 * 1000 < 1000000 ∧ now.sec + timeout / 1000 < 2 ^ 63 := by
  rw [← valid_abstimeout_iff h, ← nanoseconds_abstimeout_iff h]
  constructor
  · intro ht
    exact ⟨ht.valid, ht.nanoseconds⟩
  · rintro ⟨hvalid, hnanoseconds⟩
    refine ⟨hvalid, hnanoseconds, fun cond heq => (cond.ret_eq_einval _).mp heq hvalid, ?_⟩
    rintro hpos s t i w expired hthread rfl htake hstep
    rw [step_loop_of_valid hthread htake hpos hvalid] at hstep
    cases hstep
    exact ⟨_, Function.update_self ..⟩

/-- In the first half of a second, half a second is waited for, and whether the condition is
signalled is returned. -/
theorem timely_iff_first_half :
    Timely ⟨0, 499999, by decide, by decide⟩ 500 ∧ ∀ signalled,
      wait (pthreadCondTimedwait signalled) ⟨0, 499999, by decide, by decide⟩ 500 = signalled := by
  refine ⟨(timely_iff ⟨0, 499999, by decide, by decide⟩ (by decide)).mpr (by decide), ?_⟩
  rintro (_ | _) <;> decide

/-- In the second half it is not. -/
theorem not_timely_second_half :
    abstimeout ⟨0, 600000, by decide, by decide⟩ 500 = ⟨0, 1100000000⟩ ∧
      ¬Timely ⟨0, 600000, by decide, by decide⟩ 500 := by
  refine ⟨by decide, fun h => ?_⟩
  have hvalid := h.valid
  rw [valid_abstimeout_iff (by decide)] at hvalid
  exact absurd hvalid (by decide)

end PopCpp.Event
