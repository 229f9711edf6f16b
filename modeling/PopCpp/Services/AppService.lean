/-
# The service registry

`AppCoreService` keeps a list of services with their names.  `UnregisterService` finds the entry of
a name with an iterator that has moved on already: it deletes the service, clears the name, and
erases the entry behind it.  So a service that was not named is gone, and the entry that should be
gone stays, with a pointer to nothing; and if there is no entry behind it, the iterator is the end
of the list.  The calls of a program are answered as they should be exactly if no call
unregisters a name that is there (`calls_conform_iff`).
-/
import PopCpp.Lib.Conformance
import PopCpp.Utils.MatchWildcard

namespace PopCpp

open Buffer Utils

namespace Utils

/-- A small letter as a capital one. -/
def upper (ch : UInt8) : UInt8 := if 97 ≤ ch ∧ ch ≤ 122 then ch - 32 else ch

/-- The loop of `isncaseEqual`. -/
def isncaseLoop : Str → Str → Bool
  | ch1 :: s1, ch2 :: s2 => if upper ch1 ≠ upper ch2 then false else isncaseLoop s1 s2
  | s1, s2 => s1.isEmpty && s2.isEmpty

/-- `pop_utils::isncaseEqual`, of two different strings. -/
def isncaseEqual (s1 s2 : Str) : Bool :=
  if s1 = [] ∨ s2 = [] then false else isncaseLoop (cut s1) (cut s2)

end Utils

namespace AppService

open Transition

/-- A name that has come in a message. -/
abbrev Name := {s : Str // 0 ∉ s}

/-- `ServiceEntry`; there is no service once it has been deleted. -/
structure ServiceEntry (σ : Type) where
  name : Str
  service : Option σ
deriving DecidableEq

/-- A call of the service, with the copy that `RegisterService` makes, or none if an exception is
thrown there. -/
inductive Call (σ : Type) where
  | registerService (name : Name) (newservice : Option σ)
  | unregisterService (name : Name)
  | queryService (name : Name)

/-- What a call returns. -/
inductive Answer (σ : Type) where
  | returned (b : Bool)
  | service (s : Option σ)
deriving DecidableEq

section

variable {σ γ : Type} (servicelist : List (ServiceEntry σ)) (name : Str)

/-! ### `AppCoreService` -/

/-- `QueryService(name, pop_service_base& service)`: the service, if one is found.  The call is
undefined if that has been deleted. -/
def queryService : Option (Option σ) :=
  if name = [] then some none
  else
    match servicelist.find? fun t => isncaseEqual name t.name with
    | some t => t.service.map some
    | none => some none

/-- `QueryService(name, pop_accesspoint& service)` -/
def queryAccessPoint (getAccessPoint : σ → γ) : Option (Option γ) :=
  if name = [] then some none
  else
    match servicelist.find? fun t => isncaseEqual (cut name) (cut t.name) with
    | some t => t.service.map fun service => some (getAccessPoint service)
    | none => some none

/-- `RegisterService` -/
def registerService (newservice : Option σ) : Bool × List (ServiceEntry σ) :=
  if name = [] then (false, servicelist)
  else
    match newservice with
    | some service => (true, servicelist ++ [⟨name, some service⟩])
    | none => (false, servicelist)

/-- `UnregisterService`: `pos` is behind the entry that is found.  It is undefined if that is the
end. -/
def unregisterService : Option (Bool × List (ServiceEntry σ)) :=
  if name = [] then some (false, servicelist)
  else
    match servicelist.findIdx? fun t => isncaseEqual (cut name) (cut t.name) with
    | some old =>
        if old + 1 < servicelist.length then
          some (true, (servicelist.set old ⟨[], none⟩).eraseIdx (old + 1))
        else none
    | none => some (false, servicelist)

/-- `~AppCoreService`: the services that are stopped.  It is undefined if one of them has been
deleted. -/
def destroy : Option (List σ) := servicelist.mapM ServiceEntry.service

end

/-- The services, and what the calls have returned so far. -/
structure State (σ : Type) where
  servicelist : List (ServiceEntry σ)
  answers : List (Answer σ)

/-- A call. -/
def step {σ : Type} (s : State σ) : Call σ → Option (State σ)
  | .registerService name newservice =>
      let result := registerService s.servicelist name newservice
      some ⟨result.2, s.answers ++ [.returned result.1]⟩
  | .unregisterService name =>
      (unregisterService s.servicelist name).map fun (b, servicelist) =>
        ⟨servicelist, s.answers ++ [.returned b]⟩
  | .queryService name =>
      (queryService s.servicelist name).map fun service =>
        ⟨s.servicelist, s.answers ++ [.service service]⟩

/-! ### The registry -/

/-- The two names are the same, but for small and capital letters. -/
def SameName (a b : Str) : Prop := a.map upper = b.map upper

instance (a b : Str) : Decidable (SameName a b) := inferInstanceAs (Decidable (_ = _))

/-- A name that a service can be registered with. -/
abbrev RegName := {s : Str // 0 ∉ s ∧ s ≠ []}

/-- What the service is for: the services that are registered, in order, and what the calls are to
return. -/
structure Registry (σ : Type) where
  services : List (RegName × σ)
  answers : List (Answer σ)

section

variable {σ : Type}

/-- The first service of that name. -/
def Registry.find (r : Registry σ) (name : Name) : Option σ :=
  (r.services.find? fun e => SameName name.1 e.1.1).map Prod.snd

/-- What a call is to do. -/
def Registry.next (r : Registry σ) : Call σ → Registry σ
  | .registerService name newservice =>
      match newservice with
      | some service =>
          if h : name.1 = [] then ⟨r.services, r.answers ++ [.returned false]⟩
          else ⟨r.services ++ [(⟨name.1, name.2, h⟩, service)], r.answers ++ [.returned true]⟩
      | none => ⟨r.services, r.answers ++ [.returned false]⟩
  | .unregisterService name =>
      ⟨r.services.eraseP fun e => SameName name.1 e.1.1,
        r.answers ++ [.returned (r.services.any fun e => SameName name.1 e.1.1)]⟩
  | .queryService name => ⟨r.services, r.answers ++ [.service (r.find name)]⟩

/-- The call does not unregister a service that is there. -/
def RemovesNothing (r : Registry σ) : Call σ → Prop
  | .unregisterService name => ∀ e ∈ r.services, ¬SameName name.1 e.1.1
  | _ => True

/-- An entry of the registry as the list is to have it. -/
def entry (e : RegName × σ) : ServiceEntry σ := ⟨e.1.1, some e.2⟩

/-- The list has the services of the registry, with their names, all of which can be used, and the
calls have returned what they are to return. -/
structure Conforms (s : State σ) (r : Registry σ) : Prop where
  servicelist : s.servicelist = r.services.map entry
  answers : s.answers = r.answers

/-- There is an entry whose service has been deleted. -/
def Dangling (s : State σ) : Prop := ∃ t ∈ s.servicelist, t.service = none

end

/-! ### Names -/

section

variable {a b : Str}

lemma isncaseLoop_eq_true_iff : isncaseLoop a b = true ↔ SameName a b := by
  induction a generalizing b with
  | nil => cases b <;> simp [isncaseLoop, SameName]
  | cons ch1 a ih =>
      cases b with
      | nil => simp [isncaseLoop, SameName]
      | cons ch2 b =>
          rw [isncaseLoop, SameName, List.map_cons, List.map_cons, List.cons.injEq]
          split_ifs with h
          · exact iff_of_false (by simp) fun heq => h heq.1
          · rw [ih, SameName]
            exact (and_iff_right (not_not.mp h)).symm

lemma isncaseEqual_eq_true_iff (ha : 0 ∉ a) (hb : 0 ∉ b) (hne : b ≠ []) :
    isncaseEqual a b = true ↔ SameName a b := by
  rw [isncaseEqual, cut_eq_self_iff.mpr ha, cut_eq_self_iff.mpr hb]
  split_ifs with h
  · obtain rfl := h.resolve_right hne
    refine iff_of_false (by simp) fun hsame => hne ?_
    exact List.map_eq_nil_iff.mp hsame.symm
  · exact isncaseLoop_eq_true_iff

end

/-! ### The calls -/

section

variable {σ : Type} {s s' : State σ} {r : Registry σ} {name : Name}

/-- The loops stop at an entry exactly if it has the name. -/
lemma isncaseEqual_entry (name : Name) (e : RegName × σ) :
    isncaseEqual name.1 (entry e).name = decide (SameName name.1 e.1.1) := by
  rw [Bool.eq_iff_iff, decide_eq_true_iff]
  exact isncaseEqual_eq_true_iff name.2 e.1.2.1 e.1.2.2

lemma isncaseEqual_cut_entry (name : Name) (e : RegName × σ) :
    isncaseEqual (cut name.1) (cut (entry e).name) = decide (SameName name.1 e.1.1) := by
  have hcut : cut (entry e).name = (entry e).name := cut_eq_self_iff.mpr e.1.2.1
  rw [cut_eq_self_iff.mpr name.2, hcut, isncaseEqual_entry]

/-- No service has the empty name. -/
lemma Registry.find_eq_none (hname : name.1 = []) : r.find name = none := by
  rw [Registry.find, Option.map_eq_none_iff, List.find?_eq_none]
  intro e _ hsame
  rw [decide_eq_true_iff, hname] at hsame
  exact e.1.2.2 (List.map_eq_nil_iff.mp hsame.symm)

/-- `QueryService` finds the service of that name. -/
lemma queryService_eq : queryService (r.services.map entry) name = some (r.find name) := by
  rw [queryService]
  split_ifs with hname
  · rw [Registry.find_eq_none hname]
  · rw [List.find?_map, Registry.find]
    simp only [Function.comp_def, isncaseEqual_entry]
    cases r.services.find? fun e => SameName name.1 e.1.1 <;> rfl

/-- `QueryService` for an access point finds the same service. -/
lemma queryAccessPoint_eq {γ : Type} (getAccessPoint : σ → γ) :
    queryAccessPoint (r.services.map entry) name getAccessPoint =
      some ((r.find name).map getAccessPoint) := by
  rw [queryAccessPoint]
  split_ifs with hname
  · rw [Registry.find_eq_none hname]
    rfl
  · rw [List.find?_map, Registry.find]
    simp only [Function.comp_def, isncaseEqual_cut_entry]
    cases r.services.find? fun e => SameName name.1 e.1.1 <;> rfl

/-- A name that is not there is not removed. -/
lemma unregisterService_eq (hnone : ∀ e ∈ r.services, ¬SameName name.1 e.1.1) :
    unregisterService (r.services.map entry) name = some (false, r.services.map entry) := by
  have hidx : (r.services.findIdx? fun e => SameName name.1 e.1.1) = none :=
    List.findIdx?_eq_none_iff.mpr fun e he => by simpa using hnone e he
  rw [unregisterService, List.findIdx?_map]
  simp only [Function.comp_def, isncaseEqual_cut_entry, hidx, ite_self]

/-- What `UnregisterService` leaves: the list as it was, where the name is not there, or an entry
without its service. -/
lemma unregisterService_cases {servicelist servicelist' : List (ServiceEntry σ)} {b : Bool}
    {name : Str} (h : unregisterService servicelist name = some (b, servicelist')) :
    (servicelist' = servicelist ∧
      (name = [] ∨ ∀ t ∈ servicelist, isncaseEqual (cut name) (cut t.name) = false)) ∨
    ∃ t ∈ servicelist', t.service = none := by
  rw [unregisterService] at h
  split_ifs at h with hname
  · exact .inl ⟨(Prod.mk.inj (Option.some.inj h)).2.symm, .inl hname⟩
  · split at h
    · next old hold =>
        split_ifs at h with hlt
        rw [← (Prod.mk.inj (Option.some.inj h)).2]
        refine .inr ⟨⟨[], none⟩, ?_, rfl⟩
        rw [List.mem_eraseIdx_iff_getElem?]
        exact ⟨old, by omega, List.getElem?_set_self (by omega)⟩
    · next hnone =>
        exact .inl ⟨(Prod.mk.inj (Option.some.inj h)).2.symm,
          .inr (List.findIdx?_eq_none_iff.mp hnone)⟩

/-- A deleted service stays in the list. -/
lemma Dangling.step {c : Call σ} (h : Dangling s) (hstep : step s c = some s') : Dangling s' := by
  obtain ⟨t, ht, hnone⟩ := h
  cases c with
  | registerService name newservice =>
      obtain rfl := Option.some.inj hstep
      refine ⟨t, ?_, hnone⟩
      simp only [registerService]
      split_ifs
      · exact ht
      · cases newservice with
        | none => exact ht
        | some service => exact List.mem_append_left _ ht
  | unregisterService name =>
      obtain ⟨⟨b, servicelist⟩, hun, rfl⟩ := Option.map_eq_some_iff.mp hstep
      rcases unregisterService_cases hun with ⟨heq, -⟩ | hdangling
      · exact ⟨t, heq ▸ ht, hnone⟩
      · exact hdangling
  | queryService name =>
      obtain ⟨service, -, rfl⟩ := Option.map_eq_some_iff.mp hstep
      exact ⟨t, ht, hnone⟩

lemma Conforms.not_dangling (h : Conforms s r) : ¬Dangling s := by
  rintro ⟨t, ht, hnone⟩
  rw [h.servicelist] at ht
  obtain ⟨e, -, rfl⟩ := List.mem_map.mp ht
  cases hnone

/-- A call that removes nothing does what it is to do. -/
lemma Conforms.step {c : Call σ} (h : Conforms s r) (hc : RemovesNothing r c) :
    ∃ s', step s c = some s' ∧ Conforms s' (r.next c) := by
  obtain ⟨hlist, hanswers⟩ := h
  cases c with
  | registerService name newservice =>
      refine ⟨_, rfl, ?_⟩
      simp only [hlist, hanswers, registerService]
      cases newservice with
      | none => split_ifs <;> exact ⟨rfl, rfl⟩
      | some service =>
          split_ifs with hname
          · simp only [Registry.next, dif_pos hname]
            exact ⟨rfl, rfl⟩
          · simp only [Registry.next, dif_neg hname]
            let e : RegName × σ := (⟨name.1, name.2, hname⟩, service)
            have hmap : (r.services ++ [e]).map entry = r.services.map entry ++ [entry e] :=
              List.map_append
            exact ⟨hmap.symm, rfl⟩
  | unregisterService name =>
      have herase : (r.services.eraseP fun e => SameName name.1 e.1.1) = r.services :=
        List.eraseP_of_forall_not fun e he => by simpa using hc e he
      have hany : (r.services.any fun e => SameName name.1 e.1.1) = false := by
        rw [List.any_eq_false]
        exact fun e he => by simpa using hc e he
      refine ⟨⟨s.servicelist, s.answers ++ [.returned false]⟩, ?_, ?_, ?_⟩
      · rw [AppService.step, hlist, unregisterService_eq hc]
        rfl
      · rw [hlist, Registry.next, herase]
      · rw [hanswers, Registry.next, hany]
  | queryService name =>
      refine ⟨⟨s.servicelist, s.answers ++ [.service (r.find name)]⟩, ?_, hlist, ?_⟩
      · rw [AppService.step, hlist, queryService_eq]
        rfl
      · rw [hanswers, Registry.next]

/-- A call that removes something leaves a deleted service, if it returns. -/
lemma Conforms.dangling {c : Call σ} (h : Conforms s r) (hc : ¬RemovesNothing r c)
    (hstep : AppService.step s c = some s') : Dangling s' := by
  cases c with
  | registerService name newservice => exact absurd trivial hc
  | unregisterService name =>
      obtain ⟨⟨b, servicelist⟩, hun, rfl⟩ := Option.map_eq_some_iff.mp hstep
      rcases unregisterService_cases hun with ⟨-, hnone⟩ | hdangling
      · refine absurd (fun e he hsame => ?_) hc
        rw [h.servicelist] at hnone
        rcases hnone with hname | hnone
        · rw [hname] at hsame
          exact e.1.2.2 (List.map_eq_nil_iff.mp hsame.symm)
        · have hfalse := hnone (entry e) (List.mem_map_of_mem he)
          rw [isncaseEqual_cut_entry, decide_eq_false_iff_not] at hfalse
          exact hfalse hsame
      · exact hdangling
  | queryService name => exact absurd trivial hc

end

/-! ### Sequences of calls -/

/-- Nothing is registered yet. -/
def start (σ : Type) : State σ := ⟨[], []⟩

/-- **The service registry.**  After any calls the list has the services that are registered, and
the calls have returned what they are to return, exactly if no call was to remove a service that
was there. -/
theorem calls_conform_iff {σ : Type} (calls : List (Call σ)) :
    (∃ s, run step (start σ) calls = some s ∧ Conforms s (calls.foldl Registry.next ⟨[], []⟩)) ↔
      Along (fun r c => some (r.next c)) RemovesNothing (⟨[], []⟩ : Registry σ) calls :=
  run_conforms_iff (fun _ _ _ h hc => h.step hc) (fun _ _ _ _ h hc hstep => h.dangling hc hstep)
    (fun _ _ _ h hstep => h.step hstep) (fun _ _ h => h.not_dangling) ⟨rfl, rfl⟩

/-- Whoever else reads the list finds the services that are registered too: `QueryService` for an
access point, and the destructor, which stops them all. -/
theorem Conforms.reads {σ : Type} {s : State σ} {r : Registry σ} (h : Conforms s r) :
    (∀ (name : Name) {γ : Type} (getAccessPoint : σ → γ),
      queryAccessPoint s.servicelist name getAccessPoint =
        some ((r.find name).map getAccessPoint)) ∧
      destroy s.servicelist = some (r.services.map Prod.snd) := by
  rw [h.servicelist]
  refine ⟨fun name γ getAccessPoint => queryAccessPoint_eq getAccessPoint, ?_⟩
  rw [destroy]
  induction r.services with
  | nil => rfl
  | cons e services ih =>
      rw [List.map_cons, List.mapM_cons, ih]
      rfl

/-- Of the services `a` and `b`, the first is unregistered: the second cannot be found. -/
theorem other_service_lost : ¬∀ calls : List (Call ℕ), ∃ s, run step (start ℕ) calls = some s ∧
    Conforms s (calls.foldl Registry.next ⟨[], []⟩) := by
  intro h
  obtain ⟨s, hrun, hconforms⟩ := h
    [.registerService ⟨[97], by decide⟩ (some 1), .registerService ⟨[98], by decide⟩ (some 2),
      .unregisterService ⟨[97], by decide⟩, .queryService ⟨[98], by decide⟩]
  obtain rfl := Option.some.inj hrun
  exact absurd hconforms.answers (by decide)

end AppService

end PopCpp
