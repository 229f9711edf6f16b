/-
# How long the object is kept alive

Without constructors from a `NoAddRef` access point the reference count is the number of the
open connections and of the packed references that have not been unpacked, and so the object
is not given up while a client is bound to it or a reference is under way.

A constructor from an access point with `NoAddRef` sends a `DecRef` after its `Bind`, so that the
new interface does not count.  But the close of its connection counts like any other: when it
is released the count is one too low, for good.
-/
import PopCpp.Interface.RefCount

namespace Interface

open Transition

variable {s t : System} {as : List Action}

/-! ### The parts of the count -/

lemma Connection.count_nonneg (c : Connection) : 0 ≤ c.count := by
  unfold Connection.count
  split_ifs <;> omega

lemma imageCount_nonneg (ref : ℤ) : 0 ≤ imageCount ref := by
  unfold imageCount
  split_ifs <;> omega

lemma Pc.owed_nonneg (pc : Pc) : 0 ≤ pc.owed := by
  have hcause : ∀ cause : DecRefCause, 0 ≤ cause.owed := by
    rintro (_ | ref) <;> simp [DecRefCause.owed]
  have hcauses : ∀ cause : Option DecRefCause, 0 ≤ (cause.map DecRefCause.owed).getD 0 := by
    rintro (_ | cause)
    · simp
    · simpa using hcause cause
  cases pc with
  | binding cause | connecting cause | bindStatus cause => exact hcauses cause
  | decRef cause => exact hcause cause
  | packing ref => exact imageCount_nonneg ref
  | _ => exact le_rfl

lemma combox_count_nonneg (x : PopInterface) : 0 ≤ (x.combox.map Connection.count).getD 0 := by
  cases x.combox with
  | none => simp
  | some c => simpa using c.count_nonneg

/-- Every part of the count is at most the whole. -/
lemma System.refcount_of_drift (h : s.drift = 0) :
    s.refcount + s.noAddRefs = s.openConnections + s.packedRefs + s.owed ∧
      0 ≤ s.openConnections ∧ 0 ≤ s.packedRefs ∧ 0 ≤ s.owed := by
  refine ⟨by unfold System.drift at h; linarith, ?_, ?_, ?_⟩
  · refine add_nonneg (List.sum_nonneg ?_) (List.sum_nonneg ?_)
    · intro n hn
      obtain ⟨x, -, rfl⟩ := List.mem_map.mp hn
      exact combox_count_nonneg x
    · intro n hn
      obtain ⟨c, -, rfl⟩ := List.mem_map.mp hn
      exact c.count_nonneg
  · refine List.sum_nonneg fun n hn => ?_
    obtain ⟨ref, -, rfl⟩ := List.mem_map.mp hn
    exact imageCount_nonneg ref
  · refine List.sum_nonneg fun n hn => ?_
    obtain ⟨x, -, rfl⟩ := List.mem_map.mp hn
    exact x.pc.owed_nonneg

/-- The connections that have not been closed by the server. -/
def System.connections (s : System) : List Connection :=
  s.interfaces.filterMap PopInterface.combox ++ s.released

lemma sum_count (l : List Connection) :
    (l.map Connection.count).sum = l.countP Connection.accepted := by
  induction l with
  | nil => rfl
  | cons c l ih => cases hc : c.accepted <;> simp [ih, Connection.count, hc, add_comm]

lemma System.openConnections_eq (s : System) :
    s.openConnections = s.connections.countP Connection.accepted := by
  have hinterfaces : ∀ l : List PopInterface,
      (l.map fun x => (x.combox.map Connection.count).getD 0).sum =
        ((l.filterMap PopInterface.combox).map Connection.count).sum := by
    intro l
    induction l with
    | nil => rfl
    | cons x l ih => cases hx : x.combox <;> simp [ih, hx]
  rw [System.openConnections, hinterfaces, sum_count, sum_count, System.connections,
    List.countP_append, Nat.cast_add]

lemma drift_init : init.drift = 0 := by
  simp [System.drift_eq, init, PopInterface.weight, Connection.count]

lemma ok_init : ∀ x ∈ init.interfaces, x.Ok := by
  simp [init, PopInterface.Ok]

/-! ### Runs without `NoAddRef` -/

/-- The call does not end with the `DecRef` of a constructor. -/
def Pc.Plain : Pc → Prop
  | .binding cause | .connecting cause | .bindStatus cause => cause ≠ some .noAddRef
  | .decRef cause => cause ≠ .noAddRef
  | _ => True

lemma plain_step {a : Action} (ha : a ≠ .construct true) (h : ∀ x ∈ s.interfaces, x.pc.Plain)
    (hst : step s a = some t) : ∀ x ∈ t.interfaces, x.pc.Plain := by
  refine forall_step (P := fun x => x.pc.Plain) hst ?_ ?_ h
  · rintro pc c hpc -
    cases hpc with
    | noAddRef => exact absurd rfl ha
    | construct | copy | unPack => simp [Pc.Plain]
    | _ => trivial
  · rintro _ _ (_ | _ | _ | ⟨c, cause, hacc⟩ | _ | ⟨c, c', pc, cause, hpc⟩ | _ | _) hx
    · simp [Pc.Plain]
    · exact hx
    · exact hx
    · simpa [Pc.Plain] using hx
    · trivial
    · rcases hpc with rfl | rfl <;> exact hx
    · trivial
    · exact hx

/-- The call has nothing to do with packed references. -/
def Pc.NoRef : Pc → Prop
  | .binding cause | .connecting cause | .bindStatus cause => ∀ ref, cause ≠ some (.image ref)
  | .decRef cause => ∀ ref, cause ≠ .image ref
  | .addRef | .packing _ => False
  | _ => True

/-- The step is the `DecRef` of a constructor from an access point with `NoAddRef`: the
constructor has gone through. -/
def Completes (s : System) (a : Action) : Prop :=
  ∃ i c, a = .advance i ∧ s.interfaces[i]? = some ⟨c, .decRef .noAddRef⟩

/-- What a call does to the constructors that have gone through and to the packed interfaces. -/
lemma ledger_advance {i : ℕ} {x : PopInterface} (hok : x.Ok) (h : s.advance i x = some t) :
    t.noAddRefs = (if x.pc = .decRef .noAddRef then s.noAddRefs + 1 else s.noAddRefs) ∧
      (x.pc.NoRef → t.images = s.images) := by
  obtain ⟨combox, pc⟩ := x
  cases pc with
  | idle => cases h
  | assigning | releasing | binding cause | connecting cause =>
      obtain rfl := Option.some.inj h
      exact ⟨rfl, fun _ => rfl⟩
  | packing ref =>
      obtain rfl := Option.some.inj h
      exact ⟨rfl, False.elim⟩
  | bindStatus cause =>
      simp only [System.advance] at h
      split at h
      next c =>
        obtain ⟨-, rfl⟩ : c.accepted = true ∧ _ = t := by simpa using h
        exact ⟨rfl, fun _ => rfl⟩
      next => cases h
  | decRef cause =>
      obtain ⟨c, rfl, hacc⟩ := hok
      obtain rfl : _ = t := by simpa [System.advance, System.decRef, hacc] using h
      cases cause <;> simp
  | addRef =>
      cases combox with
      | none =>
          obtain rfl := Option.some.inj h
          exact ⟨rfl, False.elim⟩
      | some c =>
          obtain ⟨-, rfl⟩ : c.accepted = true ∧ _ = t := by
            simpa [System.advance, System.addRef] using h
          exact ⟨rfl, False.elim⟩

lemma not_completes {a : Action} (h : ∀ i, a ≠ .advance i) : ¬Completes s a := by
  rintro ⟨i, c, ha, -⟩
  exact h i ha

lemma ledger_step {a : Action} (hok : ∀ x ∈ s.interfaces, x.Ok) (hst : step s a = some t) :
    (¬Completes s a → t.noAddRefs = s.noAddRefs) ∧
      (Completes s a → t.noAddRefs = s.noAddRefs + 1) ∧
      ((∀ x ∈ s.interfaces, x.pc.NoRef) → s.images = [] → t.images = []) := by
  cases a with
  | advance i =>
      obtain ⟨⟨c, pc⟩, hx, hst⟩ := Option.bind_eq_some_iff.mp hst
      have hmem := List.mem_of_getElem? hx
      obtain ⟨hrefs, himages⟩ := ledger_advance (hok _ hmem) hst
      rw [hrefs]
      -- the one move that completes is the `DecRef` after a bind without `AddRef`
      have hiff : Completes s (.advance i) ↔ pc = .decRef .noAddRef := by
        constructor
        · rintro ⟨j, c', hj, hx'⟩
          obtain rfl := Action.advance.inj hj
          rw [hx] at hx'
          cases hx'
          rfl
        · rintro rfl
          exact ⟨i, c, rfl, hx⟩
      rw [hiff]
      exact ⟨fun h => if_neg h, fun h => if_pos h,
        fun hnone h => (himages (hnone _ hmem)).trans h⟩
  | create | copy | construct b =>
      obtain rfl := Option.some.inj hst
      exact ⟨fun _ => rfl, fun h => absurd h (not_completes (by simp)), fun _ h => h⟩
  | assign i | pack i | release i =>
      obtain ⟨combox, -, rfl⟩ := call_eq_some hst
      exact ⟨fun _ => rfl, fun h => absurd h (not_completes (by simp)), fun _ h => h⟩
  | unPack i k =>
      obtain ⟨ref, -, hst⟩ := Option.bind_eq_some_iff.mp hst
      dsimp only at hst
      split_ifs at hst
      · obtain ⟨combox, -, rfl⟩ := call_eq_some hst
        exact ⟨fun _ => rfl, fun h => absurd h (not_completes (by simp)), fun _ h => by simp [h]⟩
      · obtain ⟨combox, -, rfl⟩ := call_eq_some hst
        exact ⟨fun _ => rfl, fun h => absurd h (not_completes (by simp)), fun _ h => by simp [h]⟩
  | bindFails i again =>
      -- a failed bind puts an unpacked reference back, and no interface holds one
      have hfails : ∀ {combox c : Option Connection} {pc : Pc} {cause : Option DecRefCause},
          s.interfaces[i]? = some ⟨c, pc⟩ → (pc.NoRef → ∀ ref, cause ≠ some (.image ref)) →
          (∀ x ∈ s.interfaces, x.pc.NoRef) → s.images = [] →
          (s.bindFails i combox cause again).images = [] := by
        intro combox c pc cause hx hcause hnone h
        have href := hcause (hnone _ (List.mem_of_getElem? hx))
        rcases cause with _ | (_ | ref)
        · cases again <;> exact h
        · cases again <;> exact h
        · exact absurd rfl (href ref)
      have hrefs : ∀ {combox : Option Connection} {cause : Option DecRefCause},
          (s.bindFails i combox cause again).noAddRefs = s.noAddRefs := by
        intro combox cause
        cases again <;> rfl
      simp only [step] at hst
      split at hst
      next combox cause hx =>
        obtain rfl := Option.some.inj hst
        exact ⟨fun _ => hrefs, fun h => absurd h (not_completes (by simp)), hfails hx fun h => h⟩
      next combox cause hx =>
        obtain rfl := Option.some.inj hst
        exact ⟨fun _ => hrefs, fun h => absurd h (not_completes (by simp)), hfails hx fun h => h⟩
      next => cases hst
  | accept i | acceptReleased k | close k =>
      simp only [step] at hst
      split at hst
      · obtain rfl := Option.some.inj hst
        exact ⟨fun _ => rfl, fun h => absurd h (not_completes (by simp)), fun _ h => h⟩
      · cases hst

/-! ### The count while a client is bound -/

/-- The interface is bound. -/
def PopInterface.Bound (x : PopInterface) : Prop := ∃ c, x.combox = some c ∧ c.accepted = true

lemma System.packedRefs_eq (s : System) :
    s.packedRefs = s.images.countP fun ref => decide (0 < ref) := by
  have hcount : ∀ l : List ℤ, (l.map imageCount).sum = l.countP fun ref => decide (0 < ref) := by
    intro l
    induction l with
    | nil => rfl
    | cons ref l ih => by_cases h : 0 < ref <;> simp [ih, imageCount, h, add_comm]
  exact hcount s.images

/-- The invariant of runs without `NoAddRef`. -/
structure Plain (s : System) : Prop where
  /-- The count is right. -/
  drift : s.drift = 0
  /-- The interfaces are in line. -/
  ok : ∀ x ∈ s.interfaces, x.Ok
  /-- No call ends with the `DecRef` of a constructor. -/
  plain : ∀ x ∈ s.interfaces, x.pc.Plain
  /-- None has. -/
  noAddRefs : s.noAddRefs = 0

lemma Plain.count_eq (h : Plain s) :
    s.refcount = s.openConnections + s.packedRefs + s.owed := by
  obtain ⟨heq, -⟩ := System.refcount_of_drift h.drift
  simpa [h.noAddRefs] using heq

lemma Plain.step {a : Action} (h : Plain s) (ha : a ≠ .construct true)
    (hst : Interface.step s a = some t) : Plain t := by
  have hcounted : Counted s a := by
    rintro i x - - - -
    obtain ⟨-, hopen, hpacked, howed⟩ := System.refcount_of_drift h.drift
    rw [h.count_eq]
    omega
  have hcomplete : ¬Completes s a := by
    rintro ⟨i, c, -, hx⟩
    exact h.plain _ (List.mem_of_getElem? hx) rfl
  exact ⟨(drift_step h.ok hcounted hst).trans h.drift, ok_step h.ok hst, plain_step ha h.plain hst,
    ((ledger_step h.ok hst).1 hcomplete).trans h.noAddRefs⟩

lemma plain_of_run (hrun : run step init as = some s) (has : Action.construct true ∉ as) :
    Plain s := by
  have hinit : Plain init := ⟨drift_init, ok_init, by simp [init, Pc.Plain], rfl⟩
  refine run_invariant_along (P := fun _ a => a ≠ .construct true)
    (fun s a t hs ha hst => hs.step ha hst) hinit (along_of_forall fun _ a ha => ?_) hrun
  rintro rfl
  exact has ha

/-- **Reference count.**  In a run without `NoAddRef`, whenever no call is in progress the
reference count is the number of the open connections and of the packed references that have
not been unpacked.  In every state it is positive while an interface is bound, a packed
reference is in flight or a call deals with one. -/
theorem refcount_eq (hrun : run step init as = some s) (has : Action.construct true ∉ as) :
    (s.Quiet → s.refcount = s.connections.countP Connection.accepted +
      s.images.countP fun ref => decide (0 < ref)) ∧
    ((∃ x ∈ s.interfaces, x.Bound) ∨ (∃ ref ∈ s.images, 0 < ref) ∨
      (∃ x ∈ s.interfaces, 0 < x.pc.owed) → 0 < s.refcount) := by
  have hplain := plain_of_run hrun has
  obtain ⟨-, hopen, hpacked, howed⟩ := System.refcount_of_drift hplain.drift
  rw [hplain.count_eq]
  constructor
  · intro hquiet
    have hzero : s.owed = 0 := by
      refine List.sum_eq_zero fun n hn => ?_
      obtain ⟨x, hx, rfl⟩ := List.mem_map.mp hn
      rw [hquiet x hx, Pc.owed_idle]
    rw [hzero, add_zero, System.openConnections_eq, System.packedRefs_eq]
  · rintro (⟨x, hx, c, hc, hacc⟩ | ⟨ref, href, hpos⟩ | ⟨x, hx, hpos⟩)
    · have hlt : 0 < s.openConnections := by
        rw [System.openConnections_eq]
        refine Nat.cast_pos.mpr (List.countP_pos_iff.mpr ⟨c, ?_, hacc⟩)
        exact List.mem_append_left _ (List.mem_filterMap.mpr ⟨x, hx, hc⟩)
      omega
    · have hlt : 0 < s.packedRefs := by
        rw [System.packedRefs_eq]
        exact Nat.cast_pos.mpr (List.countP_pos_iff.mpr ⟨ref, href, by simpa using hpos⟩)
      omega
    · have hle : x.pc.owed ≤ s.owed := by
        refine List.single_le_sum (fun n hn => ?_) _ (List.mem_map.mpr ⟨x, hx, rfl⟩)
        obtain ⟨y, -, rfl⟩ := List.mem_map.mp hn
        exact y.pc.owed_nonneg
      omega

/-- The creator packs its interface and goes away: the reference keeps the object alive. -/
def packAndRelease : List Action :=
  [.pack 0, .advance 0, .advance 0, .release 0, .advance 0, .close 0]

theorem refcount_eq_packAndRelease :
    ∃ s, run step init packAndRelease = some s ∧ s.connections = [] ∧ s.images = [2] ∧
      s.refcount = 1 ∧ 0 < s.refcount := by
  have hrun : run step init packAndRelease = some ⟨1, [⟨none, .idle⟩], [], [2], 0⟩ := by decide
  refine ⟨_, hrun, rfl, rfl, rfl, ?_⟩
  exact (refcount_eq hrun (by decide)).2 (Or.inr (Or.inl ⟨2, by simp, by decide⟩))

/-! ### Runs with `NoAddRef` -/

/-- The open connections of the ordinary clients. -/
def System.ordinaryConnections (s : System) : ℕ :=
  s.connections.countP fun c => c.accepted && !c.noAddRef

/-- Every interface that was made by a constructor from an access point with `NoAddRef` has been
released, and its connection is closed. -/
def System.NoAddRefReleased (s : System) : Prop := ∀ c ∈ s.connections, c.noAddRef = false

/-- The invariant of runs in which nothing is packed. -/
structure Unpacked (s : System) : Prop where
  /-- The count is right but for the constructors. -/
  drift : s.drift = 0
  /-- The interfaces are in line. -/
  ok : ∀ x ∈ s.interfaces, x.Ok
  /-- No call deals with a packed reference. -/
  noRef : ∀ x ∈ s.interfaces, x.pc.NoRef
  /-- Nothing is in flight. -/
  images : s.images = []

lemma noRef_step {a : Action} (ha : ∀ i, a ≠ .pack i) (himages : s.images = [])
    (h : ∀ x ∈ s.interfaces, x.pc.NoRef) (hst : step s a = some t) :
    ∀ x ∈ t.interfaces, x.pc.NoRef := by
  refine forall_step (P := fun x => x.pc.NoRef) hst ?_ ?_ h
  · rintro pc c hpc -
    cases hpc with
    | pack i => exact absurd rfl (ha i)
    | unPack i k ref => simp [step, himages] at hst
    | construct | noAddRef | copy => simp [Pc.NoRef]
    | _ => trivial
  · rintro _ _ (_ | _ | _ | ⟨c, cause, hacc⟩ | _ | ⟨c, c', pc, cause, hpc⟩ | _ | _) hx
    · simp [Pc.NoRef]
    · exact hx
    · exact hx
    · simpa [Pc.NoRef] using hx
    · exact hx
    · rcases hpc with rfl | rfl <;> exact hx
    · trivial
    · exact hx

lemma Unpacked.step {a : Action} (h : Unpacked s) (ha : ∀ i, a ≠ .pack i)
    (hst : Interface.step s a = some t) : Unpacked t := by
  have hcounted : Counted s a := by
    intro i x _ hx hpc
    exact absurd (h.noRef x (List.mem_of_getElem? hx)) (by simp [hpc, Pc.NoRef])
  exact ⟨(drift_step h.ok hcounted hst).trans h.drift, ok_step h.ok hst,
    noRef_step ha h.images h.noRef hst, (ledger_step h.ok hst).2.2 h.noRef h.images⟩

lemma unpacked_of_run (hrun : run step init as = some s) (has : ∀ i, Action.pack i ∉ as) :
    Unpacked s := by
  have hinit : Unpacked init := ⟨drift_init, ok_init, by simp [init, Pc.NoRef], rfl⟩
  refine run_invariant_along (P := fun _ a => ∀ i, a ≠ .pack i)
    (fun s a t hs ha hst => hs.step ha hst) hinit (along_of_forall fun _ a ha i => ?_) hrun
  rintro rfl
  exact has i ha

/-- The constructors that have gone through are those of the run. -/
lemma noAddRefs_eq_zero_iff (hrun : run step init as = some s) :
    s.noAddRefs = 0 ↔ Along step (fun s a => ¬Completes s a) init as := by
  have hmeasure := (run_measure_eq_iff_of_invariant (P := fun s a => ¬Completes s a)
    (I := fun s => ∀ x ∈ s.interfaces, x.Ok) (f := fun s => (s.noAddRefs : ℤ))
    (fun s a t hs hst => ok_step hs hst)
    (fun s a t hs hst ha => congrArg Nat.cast ((ledger_step hs hst).1 ha))
    (fun s a t hs hst ha => ?_) ok_init hrun).2
  · rw [← hmeasure]
    exact Nat.cast_eq_zero.symm
  · rw [(ledger_step hs hst).2.1 (not_not.mp ha)]
    omega

/-- **`NoAddRef`.**  In a run without packed references, when no call is in progress and all
interfaces from a `NoAddRef` access point are released, the reference count is the number of
the open connections of the ordinary clients if and only if no such interface was ever made. -/
theorem refcount_eq_ordinary_iff (hrun : run step init as = some s)
    (has : ∀ i, Action.pack i ∉ as) (hquiet : s.Quiet) (hreleased : s.NoAddRefReleased) :
    s.refcount = s.ordinaryConnections ↔ Along step (fun s a => ¬Completes s a) init as := by
  have hun := unpacked_of_run hrun has
  obtain ⟨heq, -⟩ := System.refcount_of_drift hun.drift
  have howed : s.owed = 0 := by
    refine List.sum_eq_zero fun n hn => ?_
    obtain ⟨x, hx, rfl⟩ := List.mem_map.mp hn
    rw [hquiet x hx, Pc.owed_idle]
  have hpacked : s.packedRefs = 0 := by simp [System.packedRefs, hun.images]
  have hordinary : s.openConnections = s.ordinaryConnections := by
    rw [System.openConnections_eq, System.ordinaryConnections]
    refine congrArg Nat.cast (List.countP_congr fun c hc => ?_)
    simp [hreleased c hc]
  rw [← noAddRefs_eq_zero_iff hrun]
  omega

/-- A second client binds and goes away, and nothing is wrong. -/
theorem refcount_eq_ordinary_copied :
    ∃ s, run step init [.copy, .advance 1, .advance 1, .accept 1, .advance 1] = some s ∧
      s.refcount = s.ordinaryConnections := by
  have hrun : run step init [.copy, .advance 1, .advance 1, .accept 1, .advance 1] =
      some ⟨2, [⟨some ⟨true, false⟩, .idle⟩, ⟨some ⟨true, false⟩, .idle⟩], [], [], 0⟩ := by decide
  refine ⟨_, hrun, ?_⟩
  refine (refcount_eq_ordinary_iff hrun (by simp) (by simp [System.Quiet])
    (by simp [System.NoAddRefReleased, System.connections])).mpr ?_
  exact (noAddRefs_eq_zero_iff hrun).mp rfl

/-- An interface is made from an access point with `NoAddRef` and released. -/
def constructAndRelease : List Action :=
  [.construct true, .advance 1, .advance 1, .accept 1, .advance 1, .advance 1, .release 1,
    .advance 1, .close 0]

/-- The count is 0 while the creator is bound. -/
theorem noAddRef_not_neutral :
    ¬∀ (as : List Action) (s : System), run step init as = some s → (∀ i, Action.pack i ∉ as) →
      s.Quiet → s.NoAddRefReleased → s.refcount = s.ordinaryConnections := by
  intro h
  have hcount := h constructAndRelease
    ⟨0, [⟨some ⟨true, false⟩, .idle⟩, ⟨none, .idle⟩], [], [], 1⟩ (by decide)
    (by simp [constructAndRelease]) (by simp [System.Quiet])
    (by simp [System.NoAddRefReleased, System.connections])
  exact absurd hcount (by decide)

end Interface
