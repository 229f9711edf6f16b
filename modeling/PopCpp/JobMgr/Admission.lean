/-
# The pause list and the request trace

Before `AllocResource` looks at its own machine it asks two lists.  `AddRequest` keeps the ids of
the requests that have come by, so that none is looked at twice: an id is dropped when it is
older than twice the reservation timeout, and only when another one is added.
`CheckPauseList` tells whether an application has been paused after an error.  Its iterator moves
on only by erasing, so at the first entry that is neither over nor meant for the application it
stays for ever.

The service timer gives exact rationals.
-/
import PopCpp.JobMgr.Model
import Mathlib.Data.BitVec
import Mathlib.Tactic.NormNum

namespace JobMgr

/-! ### The pause list -/

/-- `PauseInfo` -/
structure PauseInfo where
  /-- `until_time` -/
  untilTime : ℚ
  /-- `app` -/
  app : AccessPoint
deriving DecidableEq

/-- `JobMgr::Pause`, at the time `elapsed`. -/
def pause (elapsed : ℚ) (pauseApps : List PauseInfo) (app : AccessPoint) (duration : ℤ) :
    List PauseInfo :=
  pauseApps ++ [⟨elapsed + duration, app⟩]

section checkPauseList

variable (now : ℚ) (app : AccessPoint)

/-- The time of the entry has passed. -/
def PauseInfo.Over (t : PauseInfo) : Prop := now > t.untilTime

instance (t : PauseInfo) : Decidable (t.Over now) := inferInstanceAs (Decidable (_ > _))

/-- The entry is for all applications, or for this one. -/
def PauseInfo.Concerns (t : PauseInfo) : Prop := t.app = "" ∨ t.app = app

instance (t : PauseInfo) : Decidable (t.Concerns app) := inferInstanceAs (Decidable (_ ∨ _))

/-- The loop of `JobMgr::CheckPauseList`, with the iterator at position `it`. -/
def checkLoop : ℕ → ℕ → List PauseInfo → Option (Bool × List PauseInfo)
  | 0, _, _ => none
  | fuel + 1, it, pauseApps =>
      match pauseApps[it]? with
      | none => some (false, pauseApps)
      | some t =>
          if t.Over now then checkLoop fuel it (pauseApps.eraseIdx it)
          else if t.Concerns app then some (true, pauseApps)
          -- the iterator stays where it is
          else checkLoop fuel it pauseApps

/-- `JobMgr::CheckPauseList`: the answer and the list that is left. -/
def checkPauseList (fuel : ℕ) (pauseApps : List PauseInfo) : Option (Bool × List PauseInfo) :=
  checkLoop now app fuel 0 pauseApps

/-- The check ends, takes out only entries that are over, and tells whether one that is not over
concerns the application. -/
def ChecksPauses (pauseApps : List PauseInfo) : Prop :=
  ∃ fuel answer left, checkPauseList now app fuel pauseApps = some (answer, left) ∧
    left.Sublist pauseApps ∧
    (left.filter fun t => ¬t.Over now) = pauseApps.filter (fun t => ¬t.Over now) ∧
    (answer = true ↔ ∃ t ∈ pauseApps, ¬t.Over now ∧ t.Concerns app)

/-- The first entry that is not over. -/
def firstPause (pauseApps : List PauseInfo) : Option PauseInfo :=
  pauseApps.find? fun t => ¬t.Over now

variable {now app} {t : PauseInfo} {pauseApps : List PauseInfo} {fuel : ℕ}

lemma checkPauseList_over (h : t.Over now) :
    checkPauseList now app (fuel + 1) (t :: pauseApps) =
      checkPauseList now app fuel pauseApps := by
  simp only [checkPauseList, checkLoop, List.getElem?_cons_zero, List.eraseIdx_cons_zero, if_pos h]

lemma checkPauseList_concerns (h : ¬t.Over now) (hconcerns : t.Concerns app) :
    checkPauseList now app (fuel + 1) (t :: pauseApps) = some (true, t :: pauseApps) := by
  simp only [checkPauseList, checkLoop, List.getElem?_cons_zero, if_neg h, if_pos hconcerns]

/-- At an entry that is for another application the check stays. -/
lemma checkPauseList_stays (h : ¬t.Over now) (hother : ¬t.Concerns app) :
    checkPauseList now app fuel (t :: pauseApps) = none := by
  induction fuel with
  | zero => rfl
  | succ fuel ih =>
      rw [checkPauseList] at ih ⊢
      rw [checkLoop, List.getElem?_cons_zero]
      simp only [if_neg h, if_neg hother]
      exact ih

lemma firstPause_cons_over (h : t.Over now) :
    firstPause now (t :: pauseApps) = firstPause now pauseApps := by
  rw [firstPause, List.find?_cons_of_neg (by simpa using h)]
  rfl

lemma firstPause_cons (h : ¬t.Over now) : firstPause now (t :: pauseApps) = some t := by
  rw [firstPause, List.find?_cons_of_pos (by simpa using h)]

lemma ChecksPauses.cons_over (h : t.Over now) (hrest : ChecksPauses now app pauseApps) :
    ChecksPauses now app (t :: pauseApps) := by
  obtain ⟨fuel, answer, left, hcheck, hsub, hleft, hanswer⟩ := hrest
  refine ⟨fuel + 1, answer, left, (checkPauseList_over h).trans hcheck,
    hsub.trans (List.sublist_cons_self _ _), ?_, ?_⟩
  · rw [hleft, List.filter_cons_of_neg (by simpa using h)]
  · rw [hanswer, List.exists_mem_cons_iff]
    exact ⟨Or.inr, fun hexists => hexists.resolve_left fun hnot => hnot.1 h⟩

/-- The check goes well if the first entry that is not over concerns the application. -/
lemma checksPauses_of_firstPause
    (h : ∀ t ∈ firstPause now pauseApps, t.Concerns app) : ChecksPauses now app pauseApps := by
  induction pauseApps with
  | nil => exact ⟨1, false, [], rfl, List.Sublist.refl [], rfl, by simp⟩
  | cons t pauseApps ih =>
      by_cases hover : t.Over now
      · rw [firstPause_cons_over hover] at h
        exact (ih h).cons_over hover
      · have hconcerns := h t (firstPause_cons hover)
        refine ⟨1, true, _, checkPauseList_concerns hover hconcerns, List.Sublist.refl _, rfl, ?_⟩
        exact iff_of_true rfl ⟨t, List.mem_cons_self, hover, hconcerns⟩

/-- If it is for another application the check does not end. -/
lemma checkPauseList_eq_none (hfirst : firstPause now pauseApps = some t)
    (hother : ¬t.Concerns app) (fuel : ℕ) : checkPauseList now app fuel pauseApps = none := by
  induction pauseApps generalizing fuel with
  | nil => cases hfirst
  | cons u pauseApps ih =>
      by_cases hover : u.Over now
      · rw [firstPause_cons_over hover] at hfirst
        cases fuel with
        | zero => rfl
        | succ fuel => rw [checkPauseList_over hover, ih hfirst]
      · rw [firstPause_cons hover] at hfirst
        obtain rfl := Option.some.inj hfirst
        exact checkPauseList_stays hover hother

/-- **The pause list is checked** if and only if the first entry that is not over, if there is
one, concerns the application. -/
theorem checksPauses_iff (now : ℚ) (app : AccessPoint) (pauseApps : List PauseInfo) :
    ChecksPauses now app pauseApps ↔ ∀ t ∈ firstPause now pauseApps, t.Concerns app := by
  constructor
  · rintro ⟨fuel, answer, left, hcheck, -⟩ t hfirst
    by_contra hother
    cases (checkPauseList_eq_none hfirst hother fuel).symm.trans hcheck
  · exact checksPauses_of_firstPause

/-- An application has been paused for ten seconds, and five seconds later another one is
looked up. -/
theorem checkPauseList_never_ends :
    ¬ChecksPauses 5 "app2" (pause 0 [] "app1" 10) := by
  rintro ⟨fuel, answer, left, hcheck, -⟩
  have hover : ¬PauseInfo.Over 5 ⟨0 + 10, "app1"⟩ := by decide +kernel
  have hother : ¬PauseInfo.Concerns "app2" ⟨0 + 10, "app1"⟩ := by decide
  cases (checkPauseList_stays hover hother).symm.trans hcheck

end checkPauseList

/-! ### The request trace -/

/-- The id of a request, of three numbers. -/
abbrev RequestID := Vector (BitVec 32) 3

/-- `RequestTrace` -/
structure RequestTrace where
  /-- `requestID` -/
  requestID : RequestID
  /-- `timestamp` -/
  timestamp : ℚ
deriving DecidableEq

/-- A call of `AddRequest`, with what the service timer shows at its beginning and when the list
has been looked through. -/
structure AddCall where
  reqId : RequestID
  start : ℚ
  stamp : ℚ

section addRequest

variable (reserveTimeout : BitVec 32)

/-- How long an id is kept.  The product is an `int`. -/
def keptFor : ℚ := if reserveTimeout.toInt > 0 then (2 * reserveTimeout).toInt else 300

/-- `JobMgr::AddRequest` -/
def addRequest (tracelist : List RequestTrace) (a : AddCall) : Bool × List RequestTrace :=
  let oldest := a.start - keptFor reserveTimeout
  if tracelist.any fun t => t.requestID == a.reqId then (false, tracelist)
  else
    (true, (tracelist.filter fun t => ¬t.timestamp < oldest) ++ [⟨a.reqId, a.stamp⟩])

/-- The list after some calls. -/
def traces (calls : List AddCall) : List RequestTrace :=
  calls.foldl (fun tracelist a => (addRequest reserveTimeout tracelist a).2) []

/-- The ids in the list after some calls. -/
def traced (calls : List AddCall) : List RequestID :=
  (traces reserveTimeout calls).map RequestTrace.requestID

/-- The call returns true after the others. -/
def Accepts (calls : List AddCall) (a : AddCall) : Prop :=
  (addRequest reserveTimeout (traces reserveTimeout calls) a).1 = true

/-- Twice the reservation timeout, or five minutes. -/
def window : ℚ := if reserveTimeout.toInt > 0 then 2 * reserveTimeout.toInt else 300

/-- The timer does not go back. -/
def Timed (calls : List AddCall) : Prop :=
  (calls.flatMap fun a => [a.start, a.stamp]).Pairwise (· ≤ ·)

instance instDecidableTimed (calls : List AddCall) : Decidable (Timed calls) :=
  inferInstanceAs (Decidable (List.Pairwise _ _))

/-- No id is in the list twice, the ids in the list are the ones that are refused, and an id is
not accepted again within the window. -/
structure Traces (calls : List AddCall) : Prop where
  nodup : (traced reserveTimeout calls).Nodup
  accepts : ∀ a, Accepts reserveTimeout calls a ↔ a.reqId ∉ traced reserveTimeout calls
  apart : ∀ before a between b, calls = before ++ a :: (between ++ [b]) → a.reqId = b.reqId →
    Accepts reserveTimeout before a → Accepts reserveTimeout (before ++ a :: between) b →
    window reserveTimeout < b.start - a.stamp

variable {reserveTimeout} {calls : List AddCall} {a : AddCall} {tracelist : List RequestTrace}

lemma traces_concat (calls : List AddCall) (a : AddCall) :
    traces reserveTimeout (calls ++ [a]) =
      (addRequest reserveTimeout (traces reserveTimeout calls) a).2 := by
  rw [traces, List.foldl_append]
  rfl

lemma any_requestID_iff (tracelist : List RequestTrace) (id : RequestID) :
    (tracelist.any fun t => t.requestID == id) = true ↔
      id ∈ tracelist.map RequestTrace.requestID := by
  rw [List.any_eq_true, List.mem_map]
  simp only [beq_iff_eq]

/-- A call adds its id, or finds it in the list. -/
lemma addRequest_cases (reserveTimeout : BitVec 32) (tracelist : List RequestTrace) (a : AddCall) :
    a.reqId ∈ tracelist.map RequestTrace.requestID ∧
        addRequest reserveTimeout tracelist a = (false, tracelist) ∨
      a.reqId ∉ tracelist.map RequestTrace.requestID ∧
        addRequest reserveTimeout tracelist a =
          (true, (tracelist.filter fun t => ¬t.timestamp < a.start - keptFor reserveTimeout) ++
            [⟨a.reqId, a.stamp⟩]) := by
  rw [← any_requestID_iff, addRequest]
  by_cases h : (tracelist.any fun t => t.requestID == a.reqId) = true
  · rw [if_pos h]
    exact .inl ⟨h, rfl⟩
  · rw [if_neg h]
    exact .inr ⟨h, rfl⟩

lemma accepts_iff : Accepts reserveTimeout calls a ↔ a.reqId ∉ traced reserveTimeout calls := by
  rw [Accepts, traced]
  rcases addRequest_cases reserveTimeout (traces reserveTimeout calls) a with
    ⟨hmem, heq⟩ | ⟨hnot, heq⟩
  · rw [heq]
    exact iff_of_false Bool.false_ne_true (not_not.mpr hmem)
  · rw [heq]
    exact iff_of_true rfl hnot

lemma nodup_traced (calls : List AddCall) : (traced reserveTimeout calls).Nodup := by
  induction calls using List.reverseRecOn with
  | nil => exact List.nodup_nil
  | append_singleton calls a ih =>
      rw [traced, traces_concat]
      rcases addRequest_cases reserveTimeout (traces reserveTimeout calls) a with
        ⟨-, heq⟩ | ⟨hnot, heq⟩
      · rw [heq]
        exact ih
      · have hsub := ((traces reserveTimeout calls).filter_sublist (p := fun t =>
          ¬t.timestamp < a.start - keptFor reserveTimeout)).map RequestTrace.requestID
        rw [heq, List.map_append, List.map_singleton]
        refine List.Nodup.append (hsub.nodup ih) (List.nodup_singleton _) ?_
        rw [List.disjoint_singleton]
        exact fun hmem => hnot (hsub.subset hmem)

/-- An entry stays, or has been dropped by a later call that accepts. -/
lemma mem_traces_or {t : RequestTrace} (between : List AddCall)
    (h : t ∈ traces reserveTimeout calls) :
    t ∈ traces reserveTimeout (calls ++ between) ∨
      ∃ c ∈ between, t.timestamp < c.start - keptFor reserveTimeout := by
  induction between using List.reverseRecOn with
  | nil =>
      rw [List.append_nil]
      exact .inl h
  | append_singleton between c ih =>
      rcases ih with ih | ⟨d, hd, hlt⟩
      · rw [← List.append_assoc, traces_concat]
        rcases addRequest_cases reserveTimeout (traces reserveTimeout (calls ++ between)) c with
          ⟨-, heq⟩ | ⟨-, heq⟩
        · rw [heq]
          exact .inl ih
        · rw [heq]
          by_cases hlt : t.timestamp < c.start - keptFor reserveTimeout
          · exact .inr ⟨c, by simp, hlt⟩
          · exact .inl (List.mem_append_left _ (List.mem_filter.mpr ⟨ih, by simpa using hlt⟩))
      · exact .inr ⟨d, List.mem_append_left _ hd, hlt⟩

lemma start_le_of_timed {before between : List AddCall} {b c : AddCall}
    (h : Timed (before ++ a :: (between ++ [b]))) (hc : c ∈ between) : c.start ≤ b.start := by
  rw [Timed, List.flatMap_append, List.flatMap_cons, List.flatMap_append] at h
  have hrest := (List.pairwise_append.mp (List.pairwise_append.mp h).2.1).2.1
  refine (List.pairwise_append.mp hrest).2.2 c.start ?_ b.start (by simp)
  exact List.mem_flatMap.mpr ⟨c, hc, List.mem_cons_self⟩

lemma toInt_two_mul (reserveTimeout : BitVec 32) :
    (2 * reserveTimeout).toInt = (2 * reserveTimeout.toInt).bmod (2 ^ 32) := by
  rw [BitVec.toInt_mul]
  rfl

/-- As long as the product does not overflow the ids are kept for the window. -/
lemma keptFor_eq (h : reserveTimeout.toInt < 2 ^ 30) :
    keptFor reserveTimeout = window reserveTimeout := by
  rw [keptFor, window]
  split_ifs with hpos
  · have hmul : (2 * reserveTimeout).toInt = 2 * reserveTimeout.toInt := by
      rw [toInt_two_mul, Int.bmod_def]
      omega
    rw [hmul, Int.cast_mul]
    rfl
  · rfl

/-- Otherwise it is negative. -/
lemma keptFor_neg (h : ¬reserveTimeout.toInt < 2 ^ 30) : keptFor reserveTimeout < 0 := by
  have hlt := BitVec.toInt_lt (x := reserveTimeout)
  have hmul : (2 * reserveTimeout).toInt < 0 := by
    rw [toInt_two_mul, Int.bmod_def]
    omega
  rw [keptFor, if_pos (by omega)]
  exact_mod_cast hmul

/-- An id that is accepted again has been dropped by a call in between. -/
lemma window_lt (hshort : reserveTimeout.toInt < 2 ^ 30) {before between : List AddCall}
    {b : AddCall} (htimed : Timed (before ++ a :: (between ++ [b]))) (hid : a.reqId = b.reqId)
    (ha : Accepts reserveTimeout before a)
    (hb : Accepts reserveTimeout (before ++ a :: between) b) :
    window reserveTimeout < b.start - a.stamp := by
  have hadded : (⟨a.reqId, a.stamp⟩ : RequestTrace) ∈ traces reserveTimeout (before ++ [a]) := by
    rw [traces_concat]
    rcases addRequest_cases reserveTimeout (traces reserveTimeout before) a with
      ⟨hmem, -⟩ | ⟨-, heq⟩
    · exact absurd hmem (accepts_iff.mp ha)
    · rw [heq]
      exact List.mem_append_right _ (List.mem_singleton_self _)
  rcases mem_traces_or between hadded with hstays | ⟨c, hc, hlt⟩
  · rw [List.append_assoc, List.singleton_append] at hstays
    refine absurd (List.mem_map.mpr ⟨_, hstays, ?_⟩) (accepts_iff.mp hb)
    exact hid
  · have hle := start_le_of_timed htimed hc
    rw [keptFor_eq hshort] at hlt
    have hbound := sub_le_sub_right hle a.stamp
    exact (lt_sub_comm.mp hlt).trans_le hbound

/-- A request comes by at the beginning, another one, and the first one again. -/
def again (i : BitVec 32) : AddCall := ⟨#v[i, 0, 0], 0, 0⟩

lemma accepts_again (h : keptFor reserveTimeout < 0) :
    Accepts reserveTimeout [again 1, again 2] (again 1) := by
  have hkept : (0 : ℚ) < 0 - keptFor reserveTimeout := by rwa [zero_sub, neg_pos]
  have hone : traces reserveTimeout [again 1] = [⟨#v[1, 0, 0], 0⟩] := rfl
  have htwo : traces reserveTimeout [again 1, again 2] = [⟨#v[2, 0, 0], 0⟩] := by
    rw [← List.singleton_append, traces_concat, hone, addRequest, if_neg (by decide),
      List.filter_cons_of_neg (by rw [decide_eq_true_eq, not_not]; exact hkept)]
    rfl
  rw [accepts_iff, traced, htwo]
  decide

/-- **The request trace** is kept as it should be, along all calls, if and only if twice the
reservation timeout is an `int`. -/
theorem traces_iff (reserveTimeout : BitVec 32) :
    (∀ calls, Timed calls → Traces reserveTimeout calls) ↔ reserveTimeout.toInt < 2 ^ 30 := by
  constructor
  · intro h
    by_contra hlong
    have hneg := keptFor_neg hlong
    have htimed : Timed [again 1, again 2, again 1] := by decide +kernel
    have hlt := (h _ htimed).apart [] (again 1) [again 2] (again 1) rfl rfl rfl
      (accepts_again hneg)
    have hpos : 0 < window reserveTimeout := by
      rw [window, if_pos (by omega)]
      exact_mod_cast (by omega : 0 < 2 * reserveTimeout.toInt)
    have hzero : (again 1).start - (again 1).stamp = 0 := sub_self 0
    rw [hzero] at hlt
    exact absurd hlt hpos.not_gt
  · intro hshort calls htimed
    refine ⟨nodup_traced calls, fun a => accepts_iff, ?_⟩
    intro before a between b heq hid ha hb
    rw [heq] at htimed
    exact window_lt hshort htimed hid ha hb

/-- With a reservation timeout of `2 ^ 30` seconds a request is accepted twice in one moment. -/
theorem accepts_twice :
    Timed [again 1, again 2, again 1] ∧ ¬Traces (BitVec.ofNat 32 (2 ^ 30))
      [again 1, again 2, again 1] := by
  refine ⟨by decide +kernel, fun h => ?_⟩
  have hlong : ¬(BitVec.ofNat 32 (2 ^ 30)).toInt < 2 ^ 30 := by decide
  have hlt := h.apart [] (again 1) [again 2] (again 1) rfl rfl rfl
    (accepts_again (keptFor_neg hlong))
  revert hlt
  decide +kernel

end addRequest

end JobMgr
