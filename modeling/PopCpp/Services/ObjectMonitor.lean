/-
# The object monitor

`CheckObjects(true)` goes once through the monitored objects.  In the same pass it looks for an
object that is active and, where neither it nor the round before has found one, lowers the
reference count of each object that is idle: it has not looked at the objects behind that one yet.
So after a round without activity it releases the idle objects in front of the first active one.
No object is released beside an active one exactly if there is none in front of it
(`onlyIdle_iff`), and this holds for every order of the objects exactly if there is nothing to be
released, or nothing active (`orderFree_iff`).
-/
import PopCpp.Lib.Transition
import Mathlib.Data.List.Perm.Basic
import Mathlib.Data.List.TakeWhile

namespace PopCpp.ObjectMonitor

open Transition

/-! ### `ObjectMonitor` -/

/-- What a call of an object comes to: an exception if it cannot be reached. -/
inductive Status where
  | active
  | inactive
  | unreachable
deriving DecidableEq

/-- `ObjectMonitor`, with the access strings of the objects. -/
structure Monitor (α : Type) where
  objects : List α
  isActive : Bool

section

variable {α : Type} (isActive : Bool) (status : α → Status)

/-- What the loop of `CheckObjects` leaves: the objects that it sends `DecRef` to, `objects`, and
`active`. -/
structure Check (α : Type) where
  released : List α
  objects : List α
  active : Bool

/-- The loop of `CheckObjects`. -/
def checkLoop : Bool → List α → Check α
  | active, [] => ⟨[], [], active⟩
  | active, t :: objects =>
      if status t = .unreachable then checkLoop active objects
      else
        let active := active || status t = .active
        let rest := checkLoop active objects
        ⟨if !active && !isActive then t :: rest.released else rest.released, t :: rest.objects,
          rest.active⟩

variable {isActive status}

/-- `CheckObjects(true)`: the objects that are released, and the monitor after it. -/
def checkObjects (m : Monitor α) (status : α → Status) : List α × Monitor α :=
  let check := checkLoop m.isActive status false m.objects
  (check.released, ⟨check.objects, check.active⟩)

/-- `ManageObject` -/
def manageObject [DecidableEq α] (m : Monitor α) (p : α) : Monitor α :=
  if p ∈ m.objects then m else { m with objects := m.objects ++ [p] }

/-- `UnManageObject` -/
def unManageObject [DecidableEq α] (m : Monitor α) (p : α) : Monitor α :=
  { m with objects := m.objects.erase p }

/-- `KillAll` -/
def killAll (m : Monitor α) : Monitor α := { m with objects := [] }

end

/-- A call of the monitor. -/
inductive Call (α : Type) where
  | manageObject (p : α)
  | unManageObject (p : α)
  | killAll
  | checkObjects (pingObjects : Bool) (status : α → Status)

/-- The monitor, and the states that were found in the last round. -/
structure Watch (α : Type) where
  monitor : Monitor α
  lastRound : Option (List Status)

/-- A monitor that has just been made. -/
def start (α : Type) : Watch α := ⟨⟨[], true⟩, none⟩

/-- A call. -/
def step {α : Type} [DecidableEq α] (w : Watch α) : Call α → Option (Watch α)
  | .manageObject p => some { w with monitor := manageObject w.monitor p }
  | .unManageObject p => some { w with monitor := unManageObject w.monitor p }
  | .killAll => some { w with monitor := killAll w.monitor }
  | .checkObjects pingObjects status =>
      if pingObjects then
        some ⟨(checkObjects w.monitor status).2, some (w.monitor.objects.map status)⟩
      else some w

/-! ### What the loop does -/

section

variable {α : Type} {isActive active : Bool} {status : α → Status} {objects : List α}

lemma objects_checkLoop : (checkLoop isActive status active objects).objects =
    objects.filter fun t => status t ≠ .unreachable := by
  induction objects generalizing active with
  | nil => rfl
  | cons t objects ih =>
      rw [checkLoop]
      split_ifs with h
      · rw [ih, List.filter_cons_of_neg (by simpa using h)]
      · rw [List.filter_cons_of_pos (by simpa using h)]
        exact congrArg (t :: ·) ih

lemma active_checkLoop : (checkLoop isActive status active objects).active =
    (active || objects.any fun t => status t = .active) := by
  induction objects generalizing active with
  | nil => simp [checkLoop]
  | cons t objects ih =>
      rw [checkLoop]
      split_ifs with h
      · rw [ih, List.any_cons, h]
        rfl
      · rw [List.any_cons, ← Bool.or_assoc]
        exact ih

/-- Nothing is released once an object was active. -/
lemma released_of_active : (checkLoop isActive status true objects).released = [] := by
  induction objects with
  | nil => rfl
  | cons t objects ih =>
      rw [checkLoop]
      split_ifs with h
      · exact ih
      · simpa using ih

/-- **What is released**: nothing after a round with activity, and otherwise the idle objects in
front of the first active one. -/
lemma released_checkLoop : (checkLoop isActive status false objects).released =
    if isActive then []
    else (objects.takeWhile fun t => status t ≠ .active).filter fun t => status t = .inactive := by
  induction objects with
  | nil => cases isActive <;> rfl
  | cons t objects ih =>
      cases hstatus : status t with
      | active =>
          rw [checkLoop, if_neg (by simp [hstatus]), List.takeWhile_cons_of_neg (by simp [hstatus])]
          simp [hstatus, released_of_active]
      | inactive =>
          rw [checkLoop, if_neg (by simp [hstatus]), List.takeWhile_cons_of_pos (by simp [hstatus]),
            List.filter_cons_of_pos (by simp [hstatus])]
          cases isActive <;> simpa [hstatus] using ih
      | unreachable =>
          rw [checkLoop, if_pos hstatus, List.takeWhile_cons_of_pos (by simp [hstatus]),
            List.filter_cons_of_neg (by simp [hstatus])]
          exact ih

end

/-! ### Rounds -/

section

variable {α : Type} {w w' : Watch α} {status : α → Status} {t : α}

/-- `DecRef` goes to an object only if no object is active in this round, and none was active in
the last one. -/
def OnlyIdle (w : Watch α) (status : α → Status) : Prop :=
  ∀ t ∈ (checkObjects w.monitor status).1, (∀ u ∈ w.monitor.objects, status u ≠ .active) ∧
    ∀ round, w.lastRound = some round → .active ∉ round

/-- The objects in another order. -/
def reorder (w : Watch α) (objects : List α) : Watch α :=
  { w with monitor := { w.monitor with objects := objects } }

/-- This holds for every order of the objects, and the same objects are released for all of
them. -/
def OrderFree (w : Watch α) (status : α → Status) : Prop :=
  ∀ objects, objects.Perm w.monitor.objects → OnlyIdle (reorder w objects) status ∧
    ∀ t, t ∈ (checkObjects (reorder w objects).monitor status).1 ↔
      t ∈ (checkObjects w.monitor status).1

/-- `isActive` says whether an object was active in the last round; before the first round it is
set. -/
structure Recorded (w : Watch α) : Prop where
  isActive : w.monitor.isActive = true ↔ ∀ round, w.lastRound = some round → .active ∈ round
  nodup : w.monitor.objects.Nodup

lemma mem_checkObjects : t ∈ (checkObjects w.monitor status).1 ↔
    w.monitor.isActive = false ∧
      t ∈ w.monitor.objects.takeWhile (fun t => status t ≠ .active) ∧ status t = .inactive := by
  rw [checkObjects, released_checkLoop]
  cases w.monitor.isActive <;> simp

lemma Recorded.step [DecidableEq α] {c : Call α} (h : Recorded w) (hstep : step w c = some w') :
    Recorded w' := by
  obtain ⟨hactive, hnodup⟩ := h
  cases c with
  | manageObject p =>
      obtain rfl := Option.some.inj hstep
      dsimp only [manageObject]
      split_ifs with hmem
      · exact ⟨hactive, hnodup⟩
      · exact ⟨hactive, (List.perm_append_singleton p _).nodup_iff.mpr
          (List.nodup_cons.mpr ⟨hmem, hnodup⟩)⟩
  | unManageObject p =>
      obtain rfl := Option.some.inj hstep
      exact ⟨hactive, hnodup.erase p⟩
  | killAll =>
      obtain rfl := Option.some.inj hstep
      exact ⟨hactive, List.nodup_nil⟩
  | checkObjects pingObjects status =>
      rw [ObjectMonitor.step] at hstep
      split_ifs at hstep
      · obtain rfl := Option.some.inj hstep
        refine ⟨?_, ?_⟩
        · simp [checkObjects, active_checkLoop]
        · simp only [checkObjects, objects_checkLoop]
          exact hnodup.filter _
      · obtain rfl := Option.some.inj hstep
        exact ⟨hactive, hnodup⟩

lemma Recorded.of_reachable [DecidableEq α]
    (h : Reachable ObjectMonitor.step (start α) w) : Recorded w :=
  h.invariant ⟨by simp [start], List.nodup_nil⟩ fun _ _ _ _ h hstep => h.step hstep

lemma Recorded.quiet (hw : Recorded w) (hflag : w.monitor.isActive = false) :
    ∀ round, w.lastRound = some round → .active ∉ round := by
  intro round hround hmem
  have hactive : w.monitor.isActive = true := hw.isActive.mpr fun round' hround' => by
    obtain rfl := Option.some.inj (hround.symm.trans hround')
    exact hmem
  rw [hflag] at hactive
  cases hactive

/-- No object is released beside an active one exactly if there is nothing to be released in front
of the first active one. -/
lemma onlyIdle_iff (hw : Recorded w) : OnlyIdle w status ↔
    w.monitor.isActive = true ∨ (∀ t ∈ w.monitor.objects, status t ≠ .active) ∨
      ∀ t ∈ w.monitor.objects.takeWhile (fun t => status t ≠ .active), status t ≠ .inactive := by
  constructor
  · intro h
    by_contra hnot
    push Not at hnot
    obtain ⟨hflag, ⟨u, hu, hactive⟩, t, ht, hinactive⟩ := hnot
    have hmem := mem_checkObjects.mpr ⟨by simpa using hflag, ht, hinactive⟩
    exact (h t hmem).1 u hu hactive
  · intro h t ht
    obtain ⟨hflag, hfront, hinactive⟩ := mem_checkObjects.mp ht
    refine ⟨?_, hw.quiet hflag⟩
    rcases h with h | h | h
    · simp [h] at hflag
    · exact h
    · exact absurd hinactive (h t hfront)

/-- For every order of the objects this holds exactly if there is nothing to be released, or
nothing active. -/
lemma orderFree_iff [DecidableEq α] (hw : Recorded w) : OrderFree w status ↔
    w.monitor.isActive = true ∨ (∀ t ∈ w.monitor.objects, status t ≠ .active) ∨
      ∀ t ∈ w.monitor.objects, status t ≠ .inactive := by
  constructor
  · intro h
    by_contra hnot
    push Not at hnot
    obtain ⟨hflag, ⟨u, hu, hactive⟩, v, hv, hinactive⟩ := hnot
    -- an order with the idle object in front
    have hperm : (v :: w.monitor.objects.erase v).Perm w.monitor.objects :=
      (List.perm_cons_erase hv).symm
    have hfront : v ∈ (v :: w.monitor.objects.erase v).takeWhile fun t => status t ≠ .active := by
      rw [List.takeWhile_cons_of_pos (by simp [hinactive])]
      exact List.mem_cons_self
    have hmem : v ∈ (checkObjects (reorder w (v :: w.monitor.objects.erase v)).monitor status).1 :=
      mem_checkObjects.mpr ⟨by simpa [reorder] using hflag, hfront, hinactive⟩
    exact ((h _ hperm).1 v hmem).1 u (hperm.mem_iff.mpr hu) hactive
  · intro h objects hperm
    have hall : ∀ {P : α → Prop}, (∀ t ∈ w.monitor.objects, P t) ↔ ∀ t ∈ objects, P t :=
      forall_congr' fun t => by rw [hperm.mem_iff]
    have hreorder : Recorded (reorder w objects) := ⟨hw.isActive, hperm.nodup_iff.mpr hw.nodup⟩
    refine ⟨(onlyIdle_iff hreorder).mpr ?_, fun t => ?_⟩
    · refine h.imp_right (Or.imp hall.mp fun hnone t ht => ?_)
      exact hall.mp hnone t ((List.takeWhile_prefix _).subset ht)
    · rw [mem_checkObjects, mem_checkObjects]
      refine and_congr_right fun hflag => and_congr_left fun hinactive => ?_
      rcases h with h | h | h
      · rw [show w.monitor.isActive = false from hflag] at h
        cases h
      · -- nothing stops at an active object
        have hwhole : ∀ {l : List α}, (∀ t ∈ l, status t ≠ .active) →
            l.takeWhile (fun t => status t ≠ .active) = l := fun hl =>
          List.takeWhile_eq_self_iff.mpr fun t ht => by simpa using hl t ht
        have hobjects : (reorder w objects).monitor.objects = objects := rfl
        rw [hobjects, hwhole h, hwhole (hall.mp h)]
        exact hperm.mem_iff
      · have hout : ∀ {l : List α}, (∀ t ∈ l, status t ≠ .inactive) →
            t ∉ l.takeWhile fun t => status t ≠ .active := fun hl ht =>
          hl t ((List.takeWhile_prefix _).subset ht) hinactive
        exact iff_of_false (hout (hall.mp h)) (hout h)

end

/-- **The object monitor.**  In every state that calls lead to, `CheckObjects(true)` releases idle
objects only, in this order of the objects or in all orders, exactly under the conditions above. -/
theorem checkObjects_idle_iff {α : Type} [DecidableEq α] (w : Watch α)
    (hw : Reachable step (start α) w) (status : α → Status) :
    (OnlyIdle w status ↔
      w.monitor.isActive = true ∨ (∀ t ∈ w.monitor.objects, status t ≠ .active) ∨
        ∀ t ∈ w.monitor.objects.takeWhile (fun t => status t ≠ .active), status t ≠ .inactive) ∧
    (OrderFree w status ↔
      w.monitor.isActive = true ∨ (∀ t ∈ w.monitor.objects, status t ≠ .active) ∨
        ∀ t ∈ w.monitor.objects, status t ≠ .inactive) ∧
    (w.monitor.isActive = true ↔ ∀ round, w.lastRound = some round → .active ∈ round) :=
  have hrecorded := Recorded.of_reachable hw
  ⟨onlyIdle_iff hrecorded, orderFree_iff hrecorded, hrecorded.isActive⟩

/-- The monitor after a round in which the objects 1 and 2 were idle. -/
def idleWatch : Watch ℕ := ⟨⟨[1, 2], false⟩, some [.inactive, .inactive]⟩

lemma reachable_idleWatch : Reachable step (start ℕ) idleWatch :=
  ⟨[.manageObject 1, .manageObject 2, .checkObjects true fun _ => .inactive], rfl⟩

/-- A second round without activity. -/
theorem checkObjects_idle_iff_idleWatch : OnlyIdle idleWatch fun _ => .inactive :=
  (checkObjects_idle_iff idleWatch reachable_idleWatch _).1.mpr (.inr (.inl (by decide)))

/-- The object 1 is released in a round in which 2 is active. -/
theorem idle_beside_active : ¬∀ w : Watch ℕ, Reachable step (start ℕ) w →
    ∀ status : ℕ → Status, OnlyIdle w status := by
  intro h
  have hidle := h idleWatch reachable_idleWatch fun t => if t = 2 then .active else .inactive
  exact (hidle 1 (by decide)).1 2 (by decide) rfl

end PopCpp.ObjectMonitor
