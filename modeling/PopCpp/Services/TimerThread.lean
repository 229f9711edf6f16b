/-
# The timer of the job manager

`paroc_timerthread` registers the service with its parents again and again, and ends it after a
timeout.  It sleeps up to whichever comes first, and takes the time of an update off the timeout.
Without a timeout it only registers.

Without updates, `parent_update` being 0, it should only wait for the timeout.  But 0 is less than
the timeout, so that it sleeps no time at all and registers, and takes nothing off: it registers
all the time and never ends (`registered_of_zero`).  Otherwise it does what it should
(`timesOut_iff`).

`popc_sleep` can be interrupted and returns what is left of the time.  The time that is counted is
what is slept; a call of `SelfRegister` takes none of it.
-/
import PopCpp.Lib.CInt
import PopCpp.Lib.FairProgress
import Mathlib.Algebra.Order.Ring.Int
import Mathlib.Data.List.Range

namespace PopCpp.Services

open CInt

/-! ### `paroc_timerthread::start` -/

/-- The calls of `popc_sleep` to come, by their numbers: what is left when so many seconds were
asked for.  A signal may end a sleep early, but not so that no call ever sleeps any more. -/
structure Sleep where
  left : ℕ → ℕ → ℕ
  left_le : ∀ k seconds, left k seconds ≤ seconds
  sleeps : ∀ k, ∃ j ≥ k, ∀ seconds, 0 < seconds → left j seconds < seconds

/-- Sleeps that are never interrupted. -/
def Sleep.sound : Sleep where
  left _ _ := 0
  left_le _ seconds := Nat.zero_le seconds
  sleeps k := ⟨k, le_rfl, fun _ h => h⟩

/-- `paroc_timerthread`; of `jobmgr` whether it is a null pointer. -/
structure TimerThread where
  parentUpdate : ℤ
  serviceTimeout : ℤ
  hasJobmgr : Bool

/-- What a thread comes to. -/
inductive Status where
  | running
  | returned
  | exited (code : ℤ)
deriving DecidableEq

/-- The thread at a call of `popc_sleep`: its variables, the number of calls before, the seconds
that were slept, and when `SelfRegister` was called. -/
structure Thread where
  serviceTimeout : ℤ
  updateaction : Bool
  nextwakeup : ℤ
  calls : ℕ
  slept : ℕ
  registered : List ℕ
  status : Status
deriving DecidableEq

/-- The outer loop up to `popc_sleep`. -/
def turn (parentUpdate : ℤ) (s : Thread) : Thread :=
  if s.serviceTimeout ≤ 0 ∨ parentUpdate < s.serviceTimeout then
    { s with
      updateaction := true
      nextwakeup := parentUpdate
      serviceTimeout :=
        if s.serviceTimeout > parentUpdate then wrap (s.serviceTimeout - parentUpdate)
        else s.serviceTimeout }
  else { s with updateaction := false, nextwakeup := s.serviceTimeout }

/-- A call of `popc_sleep`, and what is done up to the next one. -/
def step (sleep : Sleep) (parentUpdate : ℤ) (s : Thread) : Thread :=
  if s.status ≠ .running then s
  else
    let seconds := uInt s.nextwakeup
    let left := sleep.left s.calls seconds
    let s := { s with
      nextwakeup := wrap left
      calls := s.calls + 1
      slept := s.slept + (seconds - left) }
    if s.nextwakeup > 0 then s
    else if s.updateaction then
      turn parentUpdate { s with registered := s.registered ++ [s.slept] }
    else { s with status := .exited 1 }

/-- `start`, up to the first call of `popc_sleep`. -/
def begin (t : TimerThread) : Thread :=
  let s : Thread := ⟨t.serviceTimeout, false, 0, 0, 0, [], .running⟩
  if (t.parentUpdate ≤ 0 ∧ t.serviceTimeout ≤ 0) ∨ t.hasJobmgr = false then
    { s with status := .returned }
  else turn t.parentUpdate s

/-- `start`, after so many calls of `popc_sleep`. -/
def start (sleep : Sleep) (t : TimerThread) (n : ℕ) : Thread :=
  (step sleep t.parentUpdate)^[n] (begin t)

/-! ### When to register -/

/-- The multiples of the period before a time. -/
def registrations (period time : ℕ) : List ℕ :=
  (List.range time).filter fun t => 0 < t ∧ period ∣ t

/-- The service is ended after the timeout, and has registered after each period before it. -/
def TimesOut (sleep : Sleep) (period timeout : ℕ) : Prop :=
  ∃ n, let s := start sleep ⟨period, timeout, true⟩ n
    s.status = .exited 1 ∧ s.slept = timeout ∧ s.registered = registrations period timeout

section

variable {period time time' : ℕ}

lemma registrations_succ_of_dvd (hpos : 0 < time) (hdvd : period ∣ time) :
    registrations period (time + 1) = registrations period time ++ [time] := by
  rw [registrations, List.range_succ, List.filter_append, registrations,
    List.filter_singleton, decide_eq_true ⟨hpos, hdvd⟩]
  rfl

/-- Nothing is to be done between two multiples. -/
lemma registrations_of_le (hle : time ≤ time')
    (h : ∀ t, time ≤ t → t < time' → ¬(0 < t ∧ period ∣ t)) :
    registrations period time' = registrations period time := by
  induction time', hle using Nat.le_induction with
  | base => rfl
  | succ n hn ih =>
      rw [registrations, List.range_succ, List.filter_append, ← registrations,
        ih fun t ht hlt => h t ht (by omega), List.filter_singleton,
        decide_eq_false (h n hn (Nat.lt_succ_self n))]
      exact List.append_nil _

end

/-! ### With updates -/

section

variable {sleep : Sleep} {period timeout : ℕ} {s : Thread}

/-- The thread sleeps until the next thing is due: an update, or the timeout. -/
structure Waits (period timeout : ℕ) (s : Thread) : Prop where
  running : s.status = .running
  pos : 0 < s.nextwakeup
  due : ∃ due : ℕ, s.slept + s.nextwakeup = due ∧ due ≤ timeout ∧
    s.registered = registrations period due ∧
      if s.updateaction then period ∣ due ∧ due < timeout ∧ s.serviceTimeout = timeout - due
      else due = timeout

/-- The thread has ended as it should. -/
def Ended (period timeout : ℕ) (s : Thread) : Prop :=
  s.status = .exited 1 ∧ s.slept = timeout ∧ s.registered = registrations period timeout

lemma turn_slept (parentUpdate : ℤ) (s : Thread) : (turn parentUpdate s).slept = s.slept := by
  unfold turn
  split_ifs <;> rfl

lemma turn_calls (parentUpdate : ℤ) (s : Thread) : (turn parentUpdate s).calls = s.calls := by
  unfold turn
  split_ifs <;> rfl

/-- What comes after a multiple of the period. -/
lemma waits_turn (hperiod : 0 < period) (hmax : timeout < 2 ^ 31) (hrunning : s.status = .running)
    (hdvd : period ∣ s.slept) (hlt : s.slept < timeout)
    (htimeout : s.serviceTimeout = timeout - s.slept)
    (hregistered : s.registered = registrations period (s.slept + 1)) :
    Waits period timeout (turn period s) := by
  have hnone : ∀ due, due ≤ s.slept + period → s.slept + 1 ≤ due →
      s.registered = registrations period due := by
    intro due hdue hle
    refine hregistered.trans (registrations_of_le hle fun t ht hlt' ⟨_, hdvd'⟩ => ?_).symm
    have hle := Nat.le_of_dvd (by omega) ((Nat.dvd_sub_iff_left (by omega) hdvd).mpr hdvd')
    omega
  by_cases hupdate : (period : ℤ) < s.serviceTimeout
  · have hturn : turn period s =
        { s with updateaction := true, nextwakeup := period,
                 serviceTimeout := s.serviceTimeout - period } := by
      rw [turn, if_pos (.inr hupdate), if_pos hupdate, wrap_eq_self]
      exact ⟨by omega, by omega⟩
    rw [hturn]
    refine ⟨hrunning, Int.natCast_pos.mpr hperiod, s.slept + period, ?_, by omega,
      hnone _ le_rfl (by omega), ?_⟩
    · push_cast
      rfl
    · rw [if_pos rfl]
      refine ⟨(Nat.dvd_add_right hdvd).mpr dvd_rfl, by omega, ?_⟩
      dsimp only
      omega
  · have hturn : turn period s =
        { s with updateaction := false, nextwakeup := s.serviceTimeout } := by
      rw [turn, if_neg (by omega)]
    rw [hturn]
    refine ⟨hrunning, by dsimp only; omega, timeout, by dsimp only; omega, le_rfl,
      hnone _ (by omega) hlt, ?_⟩
    rw [if_neg Bool.false_ne_true]

/-- A call of `popc_sleep`, with the arguments and results as they are. -/
lemma step_eq (sleep : Sleep) (parentUpdate : ℤ) {seconds : ℕ} (hrunning : s.status = .running)
    (hnext : s.nextwakeup = seconds) (hmax : seconds < 2 ^ 31) :
    step sleep parentUpdate s =
      let left := sleep.left s.calls seconds
      let s' : Thread := { s with
        nextwakeup := left, calls := s.calls + 1, slept := s.slept + (seconds - left) }
      if 0 < left then s'
      else if s.updateaction then
        turn parentUpdate { s' with registered := s.registered ++ [s'.slept] }
      else { s' with status := .exited 1 } := by
  have hseconds : uInt s.nextwakeup = seconds := by
    rw [hnext, uInt]
    omega
  have hle := sleep.left_le s.calls seconds
  have hleft : wrap (sleep.left s.calls seconds) = sleep.left s.calls seconds :=
    wrap_natCast (by omega)
  rw [step, if_neg (not_not.mpr hrunning)]
  simp only [hseconds, hleft, gt_iff_lt, Int.natCast_pos]

/-- A call of `popc_sleep` ends the thread, or it goes on to wait and has slept for longer, if the
call sleeps at all. -/
lemma Waits.step (hperiod : 0 < period) (hmax : timeout < 2 ^ 31) (h : Waits period timeout s) :
    Ended period timeout (step sleep period s) ∨
      Waits period timeout (step sleep period s) ∧
        (step sleep period s).calls = s.calls + 1 ∧
        timeout - (step sleep period s).slept ≤ timeout - s.slept ∧
        ((∀ seconds, 0 < seconds → sleep.left s.calls seconds < seconds) →
          timeout - (step sleep period s).slept < timeout - s.slept) := by
  obtain ⟨hrunning, hpos, due, hdue, hle, hregistered, hkind⟩ := h
  obtain ⟨seconds, hnext⟩ := Int.eq_ofNat_of_zero_le hpos.le
  have hleft := sleep.left_le s.calls seconds
  rw [hnext] at hpos hdue
  have hdue' : s.slept + seconds = due := by exact_mod_cast hdue
  have hseconds : 0 < seconds := by exact_mod_cast hpos
  rw [step_eq sleep period hrunning hnext (by omega)]
  dsimp only
  by_cases hmore : 0 < sleep.left s.calls seconds
  · rw [if_pos hmore]
    refine .inr ⟨⟨hrunning, Int.natCast_pos.mpr hmore, due, ?_, hle, hregistered, hkind⟩, rfl, ?_,
      fun hgood => ?_⟩
    · dsimp only
      omega
    · dsimp only
      omega
    · have hlt := hgood seconds hseconds
      dsimp only
      omega
  · have hzero : sleep.left s.calls seconds = 0 := by omega
    rw [if_neg hmore, hzero, Nat.sub_zero, hdue']
    cases hupdate : s.updateaction with
    | true =>
        rw [hupdate, if_pos rfl] at hkind
        obtain ⟨hdvd, hlt, htimeout⟩ := hkind
        have hdue_pos : 0 < due := by omega
        rw [if_pos rfl, turn_slept, turn_calls]
        refine .inr ⟨waits_turn hperiod hmax hrunning hdvd hlt htimeout ?_, rfl, ?_, fun _ => ?_⟩
        · dsimp only
          rw [registrations_succ_of_dvd hdue_pos hdvd, hregistered]
        · dsimp only
          omega
        · dsimp only
          omega
    | false =>
        rw [hupdate, if_neg Bool.false_ne_true] at hkind
        rw [if_neg Bool.false_ne_true]
        subst hkind
        exact .inl ⟨rfl, rfl, hregistered⟩

/-- With a timeout the thread does not return at once. -/
lemma begin_eq (parentUpdate : ℤ) (htimeout : 0 < timeout) :
    begin ⟨parentUpdate, timeout, true⟩ =
      turn parentUpdate ⟨timeout, false, 0, 0, 0, [], .running⟩ := by
  have hguard : ¬((parentUpdate ≤ 0 ∧ (timeout : ℤ) ≤ 0) ∨ true = false) := by
    rintro (⟨-, h⟩ | h)
    · omega
    · exact Bool.noConfusion h
  rw [begin, if_neg hguard]

lemma waits_begin (hperiod : 0 < period) (htimeout : 0 < timeout) (hmax : timeout < 2 ^ 31) :
    Waits period timeout (begin ⟨period, timeout, true⟩) := by
  rw [begin_eq period htimeout]
  refine waits_turn hperiod hmax rfl (dvd_zero period) htimeout ?_ rfl
  dsimp only
  omega

end

/-! ### Without updates -/

/-- Without updates the thread registers at once, again and again, and its timeout stays as it
is. -/
theorem registered_of_zero (sleep : Sleep) {timeout : ℕ} (htimeout : 0 < timeout)
    (hmax : timeout < 2 ^ 31) (n : ℕ) :
    start sleep ⟨0, timeout, true⟩ n = ⟨timeout, true, 0, n, 0, List.replicate n 0, .running⟩ := by
  have hpos : (0 : ℤ) < timeout := Int.natCast_pos.mpr htimeout
  have hturn : ∀ s : Thread, s.serviceTimeout = timeout →
      turn 0 s = { s with updateaction := true, nextwakeup := 0 } := by
    intro s hs
    have hwrap : wrap (s.serviceTimeout - 0) = s.serviceTimeout := by
      rw [Int.sub_zero]
      exact wrap_eq_self ⟨by omega, by omega⟩
    rw [turn, hs, if_pos (.inr hpos), if_pos hpos, ← hs, hwrap]
  induction n with
  | zero =>
      rw [start, Function.iterate_zero, id, begin_eq 0 htimeout, hturn _ rfl]
      rfl
  | succ n ih =>
      have hleft : sleep.left n 0 = 0 := Nat.le_zero.mp (sleep.left_le n 0)
      rw [start, Function.iterate_succ_apply', ← start, ih,
        step_eq sleep 0 rfl Nat.cast_zero.symm (by decide)]
      dsimp only
      rw [hleft, if_neg (lt_irrefl 0), if_pos rfl, hturn _ rfl, List.replicate_succ']

/-- **Service timer.**  The thread ends after the timeout, and registers after each period before
it, exactly if there is a period. -/
theorem timesOut_iff (sleep : Sleep) {period timeout : ℕ} (htimeout : 0 < timeout)
    (hmax : timeout < 2 ^ 31) : TimesOut sleep period timeout ↔ 0 < period := by
  constructor
  · rintro ⟨n, hexited, -⟩
    rw [Nat.pos_iff_ne_zero]
    rintro rfl
    have hstart := registered_of_zero sleep htimeout hmax n
    rw [Nat.cast_zero, hstart] at hexited
    exact Status.noConfusion hexited
  · intro hperiod
    have hadvances : FairProgress.Advances (step sleep period) (Waits period timeout)
        (Ended period timeout) (fun s => timeout - s.slept) Thread.calls
        fun k => ∀ seconds, 0 < seconds → sleep.left k seconds < seconds :=
      fun s hs => hs.step hperiod hmax
    exact hadvances.exists_done sleep.sleeps (waits_begin hperiod htimeout hmax)

/-- A timeout that is no multiple of the period. -/
theorem timesOut_iff_ten : TimesOut .sound 10 25 :=
  (timesOut_iff .sound (by decide) (by decide)).mpr (by decide)

/-- With a timeout of a minute and no updates. -/
theorem not_timesOut_without_updates :
    ¬TimesOut .sound 0 60 ∧
      ∀ n, (start .sound ⟨0, 60, true⟩ n).status = .running ∧
        (start .sound ⟨0, 60, true⟩ n).registered.length = n := by
  have hstart := registered_of_zero .sound (show 0 < 60 by decide) (by decide)
  constructor
  · rintro ⟨n, hexited, -⟩
    exact Status.noConfusion ((congrArg Thread.status (hstart n)).symm.trans hexited)
  · intro n
    rw [show ((60 : ℕ) : ℤ) = 60 from rfl] at hstart
    rw [hstart n]
    exact ⟨rfl, List.length_replicate⟩

end PopCpp.Services
