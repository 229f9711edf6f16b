/-
# Finding resources for several objects

`AllocResource` tries to reserve resources for all objects of a request.  Unless the object
description asks for a search, it first matches them on its own machine, by `MatchAndReserve` for
one object after the other, and it is done when each of them is matched fully.  Otherwise it
launches a discovery and asks the job managers of the nodes that answered, one after the other
and from the beginning again, until there is a reservation for each object or as many refusals as
nodes.

The reservations of the discovery are written over those of the own machine, and when it ends
early, by an exception or by too many refusals, nothing is cancelled.
-/
import PopCpp.JobMgr.Accounting
import Mathlib.Data.List.Perm.Subperm

namespace JobMgr

/-! ### Reservations in the arrays -/

/-- An access point that an interface can be bound to. -/
abbrev Contact := { a : AccessPoint // a ≠ "" }

/-- What the three arrays hold for one object. -/
structure Slot where
  /-- `fitness[i]` -/
  fitness : ℚ
  /-- `jobcontacts[i]` -/
  contact : AccessPoint
  /-- `reserveIDs[i]` -/
  reserveID : ℤ
deriving DecidableEq

/-- A reservation: a job manager and the id that it has given. -/
structure Grant where
  /-- The job manager. -/
  jobmgr : AccessPoint
  /-- The id. -/
  id : ℤ
deriving DecidableEq

/-- The reservation that a slot names. -/
def Slot.grant (s : Slot) : Grant := ⟨s.contact, s.reserveID⟩

/-- The reservations in the arrays: the slots with a contact. -/
def pending (slots : List Slot) : List Grant :=
  (slots.filter fun s => s.contact ≠ "").map Slot.grant

/-- `MAX_HOPS` -/
def MAX_HOPS : ℤ := 20

/-- A job manager whose next id is positive.  It starts at 1, and every operation keeps it so
(`counter_pos_step`). -/
abbrev Numbering := { m : Manager ℚ // 0 < m.counter }

/-- What the job manager is for `AllocResource`, with what it reads of the arguments. -/
structure Allocator where
  /-- The configuration of the job manager. -/
  config : Config ℚ
  /-- `GetAccessPoint()` -/
  accesspoint : Contact
  /-- `od` -/
  od : ObjectDescription ℚ
  /-- `od.isSearchSet()` -/
  searchSet : Bool

/-- What happens outside during one call of `AllocResource`. -/
structure Search where
  /-- `AddRequest` -/
  addRequest : Bool
  /-- `CheckPauseList` -/
  paused : Bool
  /-- `QueryCode` of the code manager, `none` when it cannot be asked -/
  queryCode : Option Bool
  /-- The job manager and the time at the `k`th call of `MatchAndReserve` for one object -/
  managers : ℕ → Numbering × ℤ
  /-- The reservation at a position could be cancelled before a new one took its place -/
  replaced : ℕ → Bool
  /-- The number of nodes that answered, `none` when one of the calls up to there throws -/
  discovery : Option ℕ
  /-- The job manager of the node that is asked in the `k`th place, the id that `Reserve`
  returns and the fitness, `none` when one of these calls throws -/
  reserve : ℕ → Option (Contact × ℤ × ℚ)

/-! ### `MatchAndReserve` for several objects -/

/-- What a part of `AllocResource` leaves. -/
structure Alloc where
  /-- The return value, `none` when an exception leaves it. -/
  ret : Option Bool
  /-- The three arrays. -/
  slots : List Slot
  /-- The reservations that have been made. -/
  granted : List Grant
  /-- The reservations that have been cancelled. -/
  cancelled : List Grant

/-- One comparison of the sort. -/
def swapIndex (fitness : ℕ → ℚ) (index : List ℕ) (j : ℕ) : List ℕ :=
  if fitness (index.getD j 0) > fitness (index.getD (j - 1) 0) then
    (index.set j (index.getD (j - 1) 0)).set (j - 1) (index.getD j 0)
  else index

/-- The positions, sorted by their fitness in descending order. -/
def sortIndex (fitness : ℕ → ℚ) (howmany : ℕ) : List ℕ :=
  (List.range howmany).foldl
    (fun index i =>
      (List.range' (i + 1) (howmany - 1 - i)).reverse.foldl (swapIndex fitness) index)
    (List.range howmany)

section alloc

variable (c : Allocator) (o : Search)

/-- The `k`th call of `MatchAndReserve` for one object. -/
def matchOne (k : ℕ) (fitness : ℚ) : Reservation ℚ :=
  matchAndReserve c.config (o.managers k).1.1 c.od fitness (o.managers k).2

/-- The loop over the positions, from the one with the lowest fitness on. -/
def matchLoop : ℕ → List ℕ → List Slot → Bool → Alloc
  | _, [], slots, ret => ⟨some ret, slots, [], []⟩
  | k, pos :: index, slots, ret =>
      match slots[pos]? with
      | none => ⟨some ret, slots, [], []⟩
      | some t =>
          let r := matchOne c o k t.fitness
          if t.fitness ≥ 1 then ⟨some ret, slots, [], []⟩
          else if r.id ≤ 0 then
            ⟨some ret, slots.set pos { t with fitness := r.fitness }, [], []⟩
          else
            let rest := matchLoop (k + 1) index
              (slots.set pos ⟨r.fitness, c.accesspoint, r.id⟩) true
            { rest with
              granted := ⟨c.accesspoint, r.id⟩ :: rest.granted
              cancelled :=
                if t.fitness > 0 ∧ t.contact ≠ "" ∧ o.replaced pos = true then
                  t.grant :: rest.cancelled
                else rest.cancelled }

/-- `JobMgr::MatchAndReserve` for several objects -/
def matchAndReserveAll (slots : List Slot) : Alloc :=
  if slots.length ≤ 0 then ⟨some false, slots, [], []⟩
  else
    let fitness := fun i => (slots.map Slot.fitness).getD i 0
    matchLoop c o 0 (sortIndex fitness slots.length).reverse slots false

/-- `JobMgr::MatchUser` -/
def matchUser : Bool := true

/-- The match on the own machine. -/
def matchLocally (slots : List Slot) : Alloc :=
  if o.paused then ⟨some false, slots, [], []⟩
  else if matchUser then
    match o.queryCode with
    | none => ⟨none, slots, [], []⟩
    | some true => matchAndReserveAll c o slots
    | some false => ⟨some false, slots, [], []⟩
  else ⟨some false, slots, [], []⟩

/-! ### The nodes that are found -/

/-- The loop over the slots, at the `k`th call of `Reserve` and with `spare` refusals to go before
the last one. -/
def reserveLoop (reserve : ℕ → Option (Contact × ℤ × ℚ)) : ℕ → ℕ → List Slot → Bool → Alloc
  | _, _, [], ret => ⟨some ret, [], [], []⟩
  | k, spare, s :: rest, _ =>
      match reserve k with
      | none => ⟨none, s :: rest, [], []⟩
      | some (jobmgr, id, t) =>
          if id = 0 then
            match spare with
            | 0 => ⟨some false, { s with reserveID := 0 } :: rest, [], []⟩
            | spare + 1 =>
                reserveLoop reserve (k + 1) spare ({ s with reserveID := 0 } :: rest) true
          else
            let r := reserveLoop reserve (k + 1) spare rest true
            { r with slots := ⟨t, jobmgr, id⟩ :: r.slots, granted := ⟨jobmgr, id⟩ :: r.granted }
termination_by _ spare slots => spare + slots.length

/-- `AllocResource` from the request for a discovery on. -/
def discover (slots : List Slot) (ret : Bool) : Alloc :=
  match o.discovery with
  | none | some 0 => ⟨none, slots, [], []⟩
  | some (spare + 1) => reserveLoop o.reserve 0 spare slots ret

/-- `JobMgr::AllocResource` -/
def allocResource (tracesize : ℤ) (slots : List Slot) : Alloc :=
  if c.searchSet then discover o slots false
  else if slots.length < 1 then ⟨some false, slots, [], []⟩
  else if !o.addRequest then ⟨some false, slots, [], []⟩
  else
    let m := matchLocally c o slots
    match m.ret with
    | none => { m with ret := some false }
    | some ret =>
        if ret = true ∧ ∀ s ∈ m.slots, ¬s.fitness < 1 then { m with ret := some true }
        else if tracesize < 0 ∨ tracesize ≥ MAX_HOPS then { m with ret := some ret }
        else
          let r := discover o m.slots ret
          { r with granted := m.granted ++ r.granted, cancelled := m.cancelled ++ r.cancelled }

/-! ### The match on the own machine, from empty arrays -/

/-- The arrays before `AllocResource` is called.  The ids that are left there from an earlier
attempt are not read. -/
def fresh (howmany : ℕ) : List Slot := List.replicate howmany ⟨0, "", 0⟩

/-- The slots that calls of `MatchAndReserve` fill, from the `k`th call on and for at most that
many objects. -/
def matched : ℕ → ℕ → List Slot
  | _, 0 => []
  | k, m + 1 =>
      if (matchOne c o k 0).id ≤ 0 then []
      else ⟨(matchOne c o k 0).fitness, c.accesspoint, (matchOne c o k 0).id⟩ ::
        matched (k + 1) m

/-- A refusal leaves the fitness as it was. -/
lemma matchOne_refused {k : ℕ} {fitness : ℚ} (h : (matchOne c o k fitness).id ≤ 0) :
    (matchOne c o k fitness).fitness = fitness := by
  unfold matchOne at h ⊢
  rcases matchAndReserve_cases c.config (o.managers k).1.1 c.od fitness (o.managers k).2 with
    heq | ⟨r, -, heq⟩
  · rw [heq]
  · rw [heq] at h
    exact absurd h (not_le.mpr (o.managers k).1.2)

lemma swapIndex_const (index : List ℕ) (j : ℕ) : swapIndex (fun _ => 0) index j = index :=
  if_neg (lt_irrefl _)

/-- Slots of the same fitness are taken in their order. -/
lemma sortIndex_const (howmany : ℕ) : sortIndex (fun _ => 0) howmany = List.range howmany := by
  refine List.foldl_fixed' (fun i => ?_) _
  exact List.foldl_fixed' (fun j => swapIndex_const _ j) _

/-- The loop fills the slots from the last one on, up to the first refusal; the slots in `done`
are filled already. -/
lemma matchLoop_fresh (k m : ℕ) (done : List Slot) (ret : Bool) :
    matchLoop c o k (List.range m).reverse (fresh m ++ done) ret =
      ⟨some (ret || !(matched c o k m).isEmpty),
        fresh (m - (matched c o k m).length) ++ (matched c o k m).reverse ++ done,
        (matched c o k m).map Slot.grant, []⟩ := by
  induction m generalizing k done ret with
  | zero => simp [matchLoop, matched]
  | succ m ih =>
      have hget : (fresh (m + 1) ++ done)[m]? = some ⟨0, "", 0⟩ := by
        rw [List.getElem?_append_left (by simp [fresh])]
        simp [fresh]
      have hset : ∀ t : Slot, (fresh (m + 1) ++ done).set m t = fresh m ++ t :: done := by
        intro t
        rw [fresh, List.replicate_succ', List.append_assoc, List.singleton_append,
          List.set_append_right _ _ (by simp)]
        simp [fresh]
      rw [List.range_succ, List.reverse_append, List.reverse_singleton, List.singleton_append,
        matchLoop, hget, matched]
      simp only
      rw [if_neg (by norm_num)]
      by_cases hid : (matchOne c o k 0).id ≤ 0
      · rw [if_pos hid, if_pos hid, hset, matchOne_refused c o hid]
        simp [fresh, List.replicate_succ']
      · rw [if_neg hid, if_neg hid, hset, ih]
        simp [Slot.grant]

/-- Every object is matched fully on the own machine. -/
def MatchesAll (howmany : ℕ) : Prop :=
  ∀ k < howmany, 0 < (matchOne c o k 0).id ∧ 1 ≤ (matchOne c o k 0).fitness

lemma mem_matched {k m : ℕ} {s : Slot} (h : s ∈ matched c o k m) :
    s.contact = c.accesspoint := by
  induction m generalizing k with
  | zero => simp [matched] at h
  | succ m ih =>
      rw [matched] at h
      split_ifs at h
      · simp at h
      · rcases List.mem_cons.mp h with rfl | h
        · rfl
        · exact ih h

lemma length_matched_le (k m : ℕ) : (matched c o k m).length ≤ m := by
  induction m generalizing k with
  | zero => simp [matched]
  | succ m ih =>
      rw [matched]
      split_ifs
      · simp
      · simpa using ih (k + 1)

lemma matched_eq_nil {k m : ℕ} : matched c o k m = [] ↔ m = 0 ∨ (matchOne c o k 0).id ≤ 0 := by
  cases m with
  | zero => simp [matched]
  | succ m => simp [matched]

lemma matched_all {k m : ℕ} :
    (matched c o k m).length = m ∧ (∀ s ∈ matched c o k m, 1 ≤ s.fitness) ↔
      ∀ j < m, 0 < (matchOne c o (k + j) 0).id ∧ 1 ≤ (matchOne c o (k + j) 0).fitness := by
  induction m generalizing k with
  | zero => simp [matched]
  | succ m ih =>
      have hshift : (∀ j < m + 1, 0 < (matchOne c o (k + j) 0).id ∧
          1 ≤ (matchOne c o (k + j) 0).fitness) ↔
          (0 < (matchOne c o k 0).id ∧ 1 ≤ (matchOne c o k 0).fitness) ∧
            ∀ j < m, 0 < (matchOne c o (k + 1 + j) 0).id ∧
              1 ≤ (matchOne c o (k + 1 + j) 0).fitness := by
        constructor
        · intro h
          refine ⟨h 0 (Nat.succ_pos m), fun j hj => ?_⟩
          have hj' := h (j + 1) (Nat.succ_lt_succ hj)
          rwa [show k + (j + 1) = k + 1 + j by omega] at hj'
        · rintro ⟨h0, h⟩ j hj
          cases j with
          | zero => exact h0
          | succ j =>
              have hj' := h j (Nat.lt_of_succ_lt_succ hj)
              rwa [show k + 1 + j = k + (j + 1) by omega] at hj'
      rw [hshift, ← ih, matched]
      by_cases hid : (matchOne c o k 0).id ≤ 0
      · rw [if_pos hid]
        exact ⟨fun h => absurd h.1 (by simp), fun h => absurd h.1.1 (not_lt.mpr hid)⟩
      · rw [if_neg hid]
        simp only [List.length_cons, Nat.succ_inj, List.forall_mem_cons, not_le.mp hid, true_and]
        tauto

/-! ### The discovery -/

/-- The first answers from the `k`th call of `Reserve` on. -/
def Asked (reserve : ℕ → Option (Contact × ℤ × ℚ)) (k : ℕ)
    (asked : List (Contact × ℤ × ℚ)) : Prop :=
  ∀ j < asked.length, reserve (k + j) = asked[j]?

/-- The answers with a reservation, as slots. -/
def grantedSlots (asked : List (Contact × ℤ × ℚ)) : List Slot :=
  (asked.filter fun a => a.2.1 ≠ 0).map fun a => ⟨a.2.2, a.1, a.2.1⟩

/-- The number of refusals. -/
def refusals (asked : List (Contact × ℤ × ℚ)) : ℕ := asked.countP fun a => a.2.1 = 0

/-- All calls of `Reserve` before the last one that is made are refused, and the last one is
refused or throws: there is no reservation at all. -/
def GrantsNone (reserve : ℕ → Option (Contact × ℤ × ℚ)) (k spare : ℕ) : Prop :=
  ∃ asked, Asked reserve k asked ∧ grantedSlots asked = [] ∧
    (asked.length = spare + 1 ∨ asked.length ≤ spare ∧ reserve (k + asked.length) = none)

/-- There is a reservation for each object before there are too many refusals. -/
def GrantsAll (reserve : ℕ → Option (Contact × ℤ × ℚ)) (k spare howmany : ℕ)
    (slots : List Slot) : Prop :=
  ∃ asked, Asked reserve k asked ∧ grantedSlots asked = slots ∧ slots.length = howmany ∧
    refusals asked ≤ spare

variable {reserve : ℕ → Option (Contact × ℤ × ℚ)}

lemma asked_cons {k : ℕ} {a : Contact × ℤ × ℚ} {asked : List (Contact × ℤ × ℚ)} :
    Asked reserve k (a :: asked) ↔ reserve k = some a ∧ Asked reserve (k + 1) asked := by
  constructor
  · intro h
    refine ⟨h 0 (Nat.succ_pos _), fun j hj => ?_⟩
    have hj' := h (j + 1) (Nat.succ_lt_succ hj)
    rwa [show k + (j + 1) = k + 1 + j by omega] at hj'
  · rintro ⟨h0, h⟩ j hj
    cases j with
    | zero => exact h0
    | succ j =>
        rw [show k + (j + 1) = k + 1 + j by omega]
        exact h j (Nat.lt_of_succ_lt_succ hj)

@[simp] lemma asked_nil {k : ℕ} : Asked reserve k [] := fun _ h => absurd h (Nat.not_lt_zero _)

/-- The answers begin with the one to the `k`th call, if it does not throw. -/
lemma exists_asked_iff {k : ℕ} {P : List (Contact × ℤ × ℚ) → Prop} :
    (∃ asked, Asked reserve k asked ∧ P asked) ↔
      P [] ∨ ∃ a asked, reserve k = some a ∧ Asked reserve (k + 1) asked ∧ P (a :: asked) := by
  constructor
  · rintro ⟨_ | ⟨a, asked⟩, hasked, hP⟩
    · exact Or.inl hP
    · obtain ⟨ha, hasked⟩ := asked_cons.mp hasked
      exact Or.inr ⟨a, asked, ha, hasked, hP⟩
  · rintro (hP | ⟨a, asked, ha, hasked, hP⟩)
    · exact ⟨[], asked_nil, hP⟩
    · exact ⟨a :: asked, asked_cons.mpr ⟨ha, hasked⟩, hP⟩

section answer

variable {k spare howmany : ℕ} {slots : List Slot} {a : Contact × ℤ × ℚ}

lemma grantsNone_thrown (h : reserve k = none) : GrantsNone reserve k spare :=
  ⟨[], asked_nil, rfl, Or.inr ⟨Nat.zero_le _, h⟩⟩

lemma grantsNone_last (h : reserve k = some a) (ha : a.2.1 = 0) : GrantsNone reserve k 0 :=
  ⟨[a], asked_cons.mpr ⟨h, asked_nil⟩, by simp [grantedSlots, ha], Or.inl rfl⟩

lemma grantsNone_refused (h : reserve k = some a) (ha : a.2.1 = 0) :
    GrantsNone reserve k (spare + 1) ↔ GrantsNone reserve (k + 1) spare := by
  unfold GrantsNone
  rw [exists_asked_iff]
  constructor
  · rintro (⟨-, h0 | ⟨-, h0⟩⟩ | ⟨b, asked, hb, hasked, hnone, hend⟩)
    · simp at h0
    · rw [List.length_nil, Nat.add_zero, h] at h0
      cases h0
    · obtain rfl := Option.some.inj (h.symm.trans hb)
      refine ⟨asked, hasked, by simpa [grantedSlots, ha] using hnone, ?_⟩
      simpa [Nat.add_assoc, Nat.add_comm 1] using hend
  · rintro ⟨asked, hasked, hnone, hend⟩
    refine Or.inr ⟨a, asked, h, hasked, by simpa [grantedSlots, ha] using hnone, ?_⟩
    simpa [Nat.add_assoc, Nat.add_comm 1] using hend

lemma not_grantsNone (h : reserve k = some a) (ha : a.2.1 ≠ 0) : ¬GrantsNone reserve k spare := by
  unfold GrantsNone
  rw [exists_asked_iff]
  rintro (⟨-, h0 | ⟨-, h0⟩⟩ | ⟨b, asked, hb, -, hnone, -⟩)
  · simp at h0
  · rw [List.length_nil, Nat.add_zero, h] at h0
    cases h0
  · obtain rfl := Option.some.inj (h.symm.trans hb)
    simp [grantedSlots, ha] at hnone

lemma grantsAll_zero : GrantsAll reserve k spare 0 slots ↔ slots = [] := by
  constructor
  · rintro ⟨-, -, -, hlen, -⟩
    exact List.length_eq_zero_iff.mp hlen
  · rintro rfl
    exact ⟨[], asked_nil, rfl, rfl, Nat.zero_le _⟩

lemma not_grantsAll_thrown (h : reserve k = none) :
    ¬GrantsAll reserve k spare (howmany + 1) slots := by
  unfold GrantsAll
  rw [exists_asked_iff]
  rintro (⟨rfl, hlen, -⟩ | ⟨b, -, hb, -⟩)
  · simp [grantedSlots] at hlen
  · rw [h] at hb
    cases hb

lemma grantsAll_refused (h : reserve k = some a) (ha : a.2.1 = 0) :
    GrantsAll reserve k spare (howmany + 1) slots ↔
      0 < spare ∧ GrantsAll reserve (k + 1) (spare - 1) (howmany + 1) slots := by
  unfold GrantsAll
  rw [exists_asked_iff]
  constructor
  · rintro (⟨rfl, hlen, -⟩ | ⟨b, asked, hb, hasked, heq, hlen, hspare⟩)
    · simp [grantedSlots] at hlen
    · obtain rfl := Option.some.inj (h.symm.trans hb)
      have hcount : refusals asked + 1 ≤ spare := by simpa [refusals, ha] using hspare
      refine ⟨by omega, asked, hasked, by simpa [grantedSlots, ha] using heq, hlen, by omega⟩
  · rintro ⟨hpos, asked, hasked, heq, hlen, hspare⟩
    refine Or.inr ⟨a, asked, h, hasked, by simpa [grantedSlots, ha] using heq, hlen, ?_⟩
    have hcount : refusals (a :: asked) = refusals asked + 1 := by simp [refusals, ha]
    omega

lemma grantsAll_granted (h : reserve k = some a) (ha : a.2.1 ≠ 0) :
    GrantsAll reserve k spare (howmany + 1) slots ↔
      ∃ rest, slots = ⟨a.2.2, a.1, a.2.1⟩ :: rest ∧
        GrantsAll reserve (k + 1) spare howmany rest := by
  unfold GrantsAll
  rw [exists_asked_iff]
  constructor
  · rintro (⟨rfl, hlen, -⟩ | ⟨b, asked, hb, hasked, heq, hlen, hspare⟩)
    · simp [grantedSlots] at hlen
    · obtain rfl := Option.some.inj (h.symm.trans hb)
      have hcons : grantedSlots (a :: asked) = ⟨a.2.2, a.1, a.2.1⟩ :: grantedSlots asked := by
        simp [grantedSlots, ha]
      rw [hcons] at heq
      subst heq
      refine ⟨_, rfl, asked, hasked, rfl, by simpa using hlen, by simpa [refusals, ha] using hspare⟩
  · rintro ⟨rest, rfl, asked, hasked, heq, hlen, hspare⟩
    refine Or.inr ⟨a, asked, h, hasked, ?_, by simpa using hlen,
      by simpa [refusals, ha] using hspare⟩
    rw [← heq]
    simp [grantedSlots, ha]

end answer

/-- The loop ends without a reservation. -/
lemma reserveLoop_granted_eq_nil {k spare : ℕ} {slots : List Slot} (hne : slots ≠ [])
    (ret : Bool) :
    (reserveLoop reserve k spare slots ret).granted = [] ↔ GrantsNone reserve k spare := by
  fun_induction reserveLoop reserve k spare slots ret with
  | case1 => exact absurd rfl hne
  | case2 k spare s rest ret hk => exact iff_of_true rfl (grantsNone_thrown hk)
  | case3 k s rest ret jobmgr t hk => exact iff_of_true rfl (grantsNone_last hk rfl)
  | case4 k s rest ret jobmgr t spare hk ih =>
      rw [grantsNone_refused hk rfl]
      exact ih (List.cons_ne_nil _ _)
  | case5 k spare s rest ret jobmgr id t hk hid r ih =>
      exact iff_of_false (List.cons_ne_nil _ _) (not_grantsNone hk hid)

/-- The loop ends with a reservation for each object, and which ones these are. -/
lemma reserveLoop_eq_some_true {k spare : ℕ} {slots : List Slot} {ret : Bool}
    (hret : slots = [] → ret = true) (slots' : List Slot) :
    (reserveLoop reserve k spare slots ret).ret = some true ∧
        (reserveLoop reserve k spare slots ret).slots = slots' ↔
      GrantsAll reserve k spare slots.length slots' := by
  fun_induction reserveLoop reserve k spare slots ret generalizing slots' with
  | case1 k spare ret =>
      rw [List.length_nil, grantsAll_zero, hret rfl]
      exact ⟨fun h => h.2.symm, fun h => ⟨rfl, h.symm⟩⟩
  | case2 k spare s rest ret hk =>
      exact iff_of_false (fun h => by simp at h) (not_grantsAll_thrown hk)
  | case3 k s rest ret jobmgr t hk =>
      refine iff_of_false (fun h => by simp at h) fun h => ?_
      exact absurd ((grantsAll_refused hk rfl).mp h).1 (lt_irrefl 0)
  | case4 k s rest ret jobmgr t spare hk ih =>
      rw [ih (fun h => absurd h (List.cons_ne_nil _ _)), List.length_cons, List.length_cons,
        grantsAll_refused hk rfl]
      exact ⟨fun h => ⟨Nat.succ_pos _, h⟩, fun h => h.2⟩
  | case5 k spare s rest ret jobmgr id t hk hid r ih =>
      rw [List.length_cons, grantsAll_granted hk hid]
      constructor
      · rintro ⟨htrue, rfl⟩
        exact ⟨r.slots, rfl, (ih (fun _ => rfl) r.slots).mp ⟨htrue, rfl⟩⟩
      · rintro ⟨rest', rfl, hrest⟩
        obtain ⟨htrue, heq⟩ := (ih (fun _ => rfl) rest').mpr hrest
        exact ⟨htrue, congrArg _ heq⟩

/-- The reservations of the loop that are in the arrays at its end, when it fills all of them. -/
lemma reserveLoop_granted {k spare : ℕ} {slots : List Slot} {ret : Bool}
    (h : (reserveLoop reserve k spare slots ret).ret = some true) :
    (reserveLoop reserve k spare slots ret).granted =
        pending (reserveLoop reserve k spare slots ret).slots ∧
      (reserveLoop reserve k spare slots ret).slots.length = slots.length := by
  fun_induction reserveLoop reserve k spare slots ret with
  | case1 => exact ⟨rfl, rfl⟩
  | case2 => simp at h
  | case3 => simp at h
  | case4 k s rest ret jobmgr t spare hk ih =>
      obtain ⟨hgranted, hlen⟩ := ih h
      exact ⟨hgranted, by simpa using hlen⟩
  | case5 k spare s rest ret jobmgr id t hk hid r ih =>
      obtain ⟨hgranted, hlen⟩ := ih h
      refine ⟨?_, by simpa using hlen⟩
      rw [pending, List.filter_cons_of_pos (by simpa using jobmgr.2), List.map_cons, hgranted]
      rfl

/-- Nothing is cancelled by the loop. -/
lemma reserveLoop_cancelled (reserve : ℕ → Option (Contact × ℤ × ℚ)) (k spare : ℕ)
    (slots : List Slot) (ret : Bool) :
    (reserveLoop reserve k spare slots ret).cancelled = [] := by
  fun_induction reserveLoop reserve k spare slots ret with
  | case1 => rfl
  | case2 => rfl
  | case3 => rfl
  | case4 k s rest ret jobmgr t spare hk ih => exact ih
  | case5 k spare s rest ret jobmgr id t hk hid r ih => exact ih

/-! ### `AllocResource` from empty arrays -/

@[simp] lemma length_fresh (howmany : ℕ) : (fresh howmany).length = howmany :=
  List.length_replicate

lemma pending_of_contacts {slots : List Slot} (h : ∀ s ∈ slots, s.contact ≠ "") :
    pending slots = slots.map Slot.grant := by
  rw [pending, List.filter_eq_self.mpr fun s hs => by simpa using h s hs]

/-- The own machine is asked for a match. -/
def Search.TriesMatch (o : Search) : Prop := o.paused = false ∧ o.queryCode = some true

instance Search.instDecidableTriesMatch (o : Search) : Decidable o.TriesMatch :=
  inferInstanceAs (Decidable (_ ∧ _))

/-- The discovery yields no reservation: it throws, no node answers, or it is refused by all. -/
def Search.FindsNone (o : Search) : Prop :=
  ∀ spare, o.discovery = some (spare + 1) → GrantsNone o.reserve 0 spare

/-- The discovery yields these reservations, one for each object. -/
def Search.FindsAll (o : Search) (howmany : ℕ) (slots : List Slot) : Prop :=
  ∃ spare, o.discovery = some (spare + 1) ∧ GrantsAll o.reserve 0 spare howmany slots

/-- The reservations of the match on the own machine. -/
def localGrants (howmany : ℕ) : List Grant :=
  if o.TriesMatch then (matched c o 0 howmany).map Slot.grant else []

lemma matchLocally_tried (h : o.TriesMatch) {howmany : ℕ} (hpos : 0 < howmany) :
    matchLocally c o (fresh howmany) =
      ⟨some !(matched c o 0 howmany).isEmpty,
        fresh (howmany - (matched c o 0 howmany).length) ++ (matched c o 0 howmany).reverse,
        (matched c o 0 howmany).map Slot.grant, []⟩ := by
  have hzero : (fun i => ((fresh howmany).map Slot.fitness).getD i 0) = fun _ => 0 := by
    funext i
    rw [fresh, List.map_replicate, List.getD_eq_getElem?_getD, List.getElem?_replicate]
    split_ifs <;> rfl
  have hloop := matchLoop_fresh c o 0 howmany [] false
  rw [List.append_nil, List.append_nil, Bool.false_or] at hloop
  simp only [matchLocally, h.1, h.2, matchUser, matchAndReserveAll, length_fresh, hzero,
    sortIndex_const, hloop, Bool.false_eq_true, if_false, if_true]
  rw [if_neg (not_le.mpr hpos)]

/-- All slots are matched fully if and only if all calls yield a full match. -/
lemma forall_matched_iff {howmany : ℕ} (hpos : 0 < howmany) :
    ((!(matched c o 0 howmany).isEmpty) = true ∧
        ∀ s ∈ fresh (howmany - (matched c o 0 howmany).length) ++ (matched c o 0 howmany).reverse,
          ¬s.fitness < 1) ↔ MatchesAll c o howmany := by
  have hall := matched_all c o (k := 0) (m := howmany)
  simp only [Nat.zero_add] at hall
  rw [MatchesAll, ← hall]
  have hle := length_matched_le c o 0 howmany
  constructor
  · rintro ⟨-, h⟩
    have hlen : (matched c o 0 howmany).length = howmany := by
      by_contra hne
      have hmem : (⟨0, "", 0⟩ : Slot) ∈ fresh (howmany - (matched c o 0 howmany).length) :=
        List.mem_replicate.mpr ⟨by omega, rfl⟩
      exact h _ (List.mem_append_left _ hmem) zero_lt_one
    exact ⟨hlen, fun s hs => not_lt.mp (h s (List.mem_append_right _ (by simpa using hs)))⟩
  · rintro ⟨hlen, h⟩
    refine ⟨?_, fun s hs => ?_⟩
    · rw [Bool.not_eq_true', List.isEmpty_eq_false_iff]
      rintro hnil
      rw [hnil] at hlen
      exact absurd hlen (by simpa using hpos.ne)
    · rw [hlen, Nat.sub_self] at hs
      exact not_lt.mpr (h s (by simpa [fresh] using hs))

section discover

variable {o} {slots : List Slot} (ret : Bool)

lemma discover_granted_eq_nil (hne : slots ≠ []) :
    (discover o slots ret).granted = [] ↔ o.FindsNone := by
  unfold discover Search.FindsNone
  split
  · rename_i h
    simp [h]
  · rename_i h
    simp [h]
  · rename_i spare h
    rw [reserveLoop_granted_eq_nil hne, h]
    refine ⟨fun hnone spare' heq => ?_, fun hnone => hnone spare rfl⟩
    obtain rfl := Nat.succ.inj (Option.some.inj heq)
    exact hnone

lemma discover_eq_some_true (hne : slots ≠ []) (slots' : List Slot) :
    (discover o slots ret).ret = some true ∧ (discover o slots ret).slots = slots' ↔
      o.FindsAll slots.length slots' := by
  unfold discover Search.FindsAll
  split
  · rename_i h
    simp [h]
  · rename_i h
    simp [h]
  · rename_i spare h
    rw [reserveLoop_eq_some_true (fun hnil => absurd hnil hne), h]
    refine ⟨fun hall => ⟨spare, rfl, hall⟩, ?_⟩
    rintro ⟨spare', heq, hall⟩
    obtain rfl := Nat.succ.inj (Option.some.inj heq)
    exact hall

lemma discover_granted {ret : Bool} (h : (discover o slots ret).ret = some true) :
    (discover o slots ret).granted = pending (discover o slots ret).slots ∧
      (discover o slots ret).slots.length = slots.length := by
  unfold discover at h ⊢
  split at h
  · cases h
  · cases h
  · exact reserveLoop_granted h

lemma discover_cancelled (slots : List Slot) : (discover o slots ret).cancelled = [] := by
  unfold discover
  split
  · rfl
  · rfl
  · exact reserveLoop_cancelled _ _ _ _ _

end discover

section cases

variable {c o} {howmany : ℕ}

/-- The call goes on to the discovery. -/
def Search.Discovers (c : Allocator) (o : Search) (howmany : ℕ) : Prop :=
  c.searchSet = true ∨ o.addRequest = true ∧ (o.paused = true ∨ o.queryCode ≠ none) ∧
    ¬(o.TriesMatch ∧ MatchesAll c o howmany)

/-- The call is done after the match on the own machine. -/
def Search.Matches (c : Allocator) (o : Search) (howmany : ℕ) : Prop :=
  c.searchSet = false ∧ o.addRequest = true ∧ o.TriesMatch ∧ MatchesAll c o howmany

lemma allocResource_refused (hd : ¬o.Discovers c howmany) (hm : ¬o.Matches c howmany) :
    (allocResource c o 0 (fresh howmany)).ret = some false ∧
      (allocResource c o 0 (fresh howmany)).granted = [] ∧
      (allocResource c o 0 (fresh howmany)).cancelled = [] := by
  have hsearch : c.searchSet = false := by
    by_contra hs
    exact hd (Or.inl (by simpa using hs))
  unfold allocResource
  rw [hsearch, if_neg Bool.false_ne_true]
  by_cases hlen : (fresh howmany).length < 1
  · rw [if_pos hlen]
    exact ⟨rfl, rfl, rfl⟩
  · rw [if_neg hlen]
    cases hadd : o.addRequest with
    | false => exact ⟨rfl, rfl, rfl⟩
    | true =>
        have hthrown : o.paused = false ∧ o.queryCode = none := by
          by_contra hnot
          have hask : o.paused = true ∨ o.queryCode ≠ none := by
            cases hp : o.paused with
            | true => exact Or.inl rfl
            | false => exact Or.inr fun hq => hnot ⟨hp, hq⟩
          by_cases hall : o.TriesMatch ∧ MatchesAll c o howmany
          · exact hm ⟨hsearch, hadd, hall⟩
          · exact hd (Or.inr ⟨hadd, hask, hall⟩)
        simp [matchLocally, hthrown.1, hthrown.2, matchUser]

lemma allocResource_matches (hpos : 0 < howmany) (h : o.Matches c howmany) :
    allocResource c o 0 (fresh howmany) =
      ⟨some true, (matched c o 0 howmany).reverse, (matched c o 0 howmany).map Slot.grant, []⟩ := by
  obtain ⟨hsearch, hadd, htry, hall⟩ := h
  have hmatched := (matched_all c o (k := 0) (m := howmany)).mpr
    fun j hj => by simpa using hall j hj
  have hall' := (forall_matched_iff c o hpos).mpr hall
  have hlen : ¬(fresh howmany).length < 1 := by simpa using hpos.ne'
  unfold allocResource
  rw [hsearch, if_neg Bool.false_ne_true, if_neg hlen, hadd, if_neg (by decide),
    matchLocally_tried c o htry hpos]
  simp only
  rw [if_pos hall', hmatched.1, Nat.sub_self]
  rfl

/-- The reservations of the own machine are lost from the arrays when the discovery begins. -/
lemma allocResource_discovers (hpos : 0 < howmany) (h : o.Discovers c howmany) :
    ∃ slots ret, slots.length = howmany ∧
      allocResource c o 0 (fresh howmany) =
        ⟨(discover o slots ret).ret, (discover o slots ret).slots,
          (if c.searchSet then [] else localGrants c o howmany) ++ (discover o slots ret).granted,
          []⟩ := by
  unfold allocResource
  by_cases hsearch : c.searchSet = true
  · refine ⟨fresh howmany, false, length_fresh howmany, ?_⟩
    rw [if_pos hsearch, if_pos hsearch, List.nil_append,
      ← discover_cancelled false (fresh howmany)]
  · have hlen : ¬(fresh howmany).length < 1 := by simpa using hpos.ne'
    obtain ⟨hadd, hask, hnot⟩ := h.resolve_left hsearch
    rw [if_neg hsearch, if_neg hsearch, if_neg hlen, hadd, if_neg (by decide)]
    by_cases htry : o.TriesMatch
    · have hall := mt (forall_matched_iff c o hpos).mp fun hall => hnot ⟨htry, hall⟩
      have hle := length_matched_le c o 0 howmany
      rw [matchLocally_tried c o htry hpos, localGrants, if_pos htry]
      simp only
      rw [if_neg hall, if_neg (by decide)]
      refine ⟨fresh (howmany - (matched c o 0 howmany).length) ++ (matched c o 0 howmany).reverse,
        !(matched c o 0 howmany).isEmpty, ?_, ?_⟩
      · rw [List.length_append, length_fresh, List.length_reverse]
        omega
      · rw [discover_cancelled, List.append_nil]
    · have hlocal : matchLocally c o (fresh howmany) = ⟨some false, fresh howmany, [], []⟩ := by
        unfold matchLocally
        cases hp : o.paused with
        | true => rfl
        | false =>
            have hq : o.queryCode ≠ none := hask.resolve_left (by rw [hp]; decide)
            cases hq' : o.queryCode with
            | none => exact absurd hq' hq
            | some found =>
                cases found with
                | true => exact absurd ⟨hp, hq'⟩ htry
                | false => rfl
      refine ⟨fresh howmany, false, length_fresh howmany, ?_⟩
      rw [hlocal, localGrants, if_neg htry]
      simp only
      rw [if_neg fun h => Bool.false_ne_true h.1, if_neg (by decide), discover_cancelled]
      rfl

end cases

end alloc

end JobMgr
