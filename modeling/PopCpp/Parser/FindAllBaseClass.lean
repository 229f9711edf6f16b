/-
# The bases in an initialiser list

A constructor of the interface has to call the constructors of its direct bases and of all virtual
ones, however far away.  `FindAllBaseClass` collects them in a breadth-first search from the class.
A class is looked at only when it is found for the first time, and taken for a virtual base if it
is one there: if it is found along an edge that is not virtual, then an edge that is comes too
late.

Whether that happens may depend on the order of the bases in the declarations.  It never happens
if and only if a class that is a virtual base somewhere is one for each of the classes that are
nearest to the start among those that list it (`collected_iff_consistent`).
-/
import Mathlib.Algebra.GroupWithZero.Nat
import PopCpp.Lib.BreadthFirst

namespace Parser

open BreadthFirst

/-! ### The hierarchy -/

/-- A `BaseClass` of a class, with what `FindAllBaseClass` uses of it. -/
structure Base (α : Type) where
  base : α
  baseVirtual : Bool
deriving DecidableEq

/-- Classes with their bases; no class is its own base, and none lists a base twice. -/
structure Hierarchy (α : Type) where
  baseClass : α → List (Base α)
  nodup : ∀ c, ((baseClass c).map Base.base).Nodup
  acyclic : ∀ c n, ¬Path (fun c => (baseClass c).map Base.base) (n + 1) c c

namespace Hierarchy

variable {α : Type}

/-- The direct bases. -/
def bases (H : Hierarchy α) (c : α) : List α := (H.baseClass c).map Base.base

lemma nodup_bases (H : Hierarchy α) (c : α) : (H.bases c).Nodup := H.nodup c

/-- The same bases, in another order. -/
def Reorders (H' H : Hierarchy α) : Prop := ∀ c, (H'.baseClass c).Perm (H.baseClass c)

/-- The class is a virtual base of a class that `C` is derived from, or of `C`. -/
def VirtualBase (H : Hierarchy α) (C X : α) : Prop :=
  ∃ Y n, Path H.bases n C Y ∧ ⟨X, true⟩ ∈ H.baseClass Y

/-- The direct bases and the virtual ones, each once. -/
structure Collected (H : Hierarchy α) (C : α) (r : List α) : Prop where
  nodup : r.Nodup
  mem_iff : ∀ X, X ∈ r ↔ X ∈ H.bases C ∨ H.VirtualBase C X

/-- A virtual base that is not a direct one is virtual for all the classes that list it at the
least distance. -/
def Consistent (H : Hierarchy α) (C : α) : Prop :=
  ∀ X Y n, X ∉ H.bases C → H.VirtualBase C X → At H.bases C n Y → At H.bases C (n + 1) X →
    ⟨X, false⟩ ∉ H.baseClass Y

end Hierarchy

/-! ### `FindAllBaseClass` -/

section FindAllBaseClass

variable {α : Type} [DecidableEq α] (baseClass : α → List (Base α))

/-- One round of the loop: `allbases` and `bases` with what is new in the class. -/
def addBases (cl : α) (allbases bases : List α) : List α × List α :=
  let new := (baseClass cl).filter fun b => b.base ∉ allbases
  (allbases ++ new.map Base.base, bases ++ (new.filter Base.baseVirtual).map Base.base)

/-- The loop. -/
def baseLoop : ℕ → α → ℕ → List α → List α → Option (List α × List α)
  | 0, _, _, _, _ => none
  | fuel + 1, cl, index, allbases, bases =>
      let (allbases, bases) := addBases baseClass cl allbases bases
      match allbases[index]? with
      | some cl => baseLoop fuel cl (index + 1) allbases bases
      | none => some (allbases, bases)

/-- `FindAllBaseClass`: what is in `bases` after it.  Without `virtualBaseOnly` the two lists are
the same. -/
def findAllBaseClass (fuel : ℕ) (t : α) (bases : List α) (virtualBaseOnly : Bool) :
    Option (List α) :=
  (baseLoop baseClass fuel t 0 bases bases).map fun r => if virtualBaseOnly then r.2 else r.1

end FindAllBaseClass

/-! ### The search -/

namespace Hierarchy

variable {α : Type} [DecidableEq α] (H : Hierarchy α)

/-- What a visit adds to `bases`. -/
def collect (y : α) (found out : List α) : List α :=
  out ++ ((H.baseClass y).filter fun b => b.base ∉ found ∧ b.baseVirtual).map Base.base

variable {H}

lemma addBases_eq (cl : α) (allbases out : List α) :
    addBases H.baseClass cl allbases out =
      (allbases ++ fresh H.bases allbases cl, H.collect cl allbases out) := by
  rw [addBases, fresh, collect, bases, List.filter_map, List.filter_filter]
  congr 4
  funext b
  rw [Bool.decide_and, Bool.decide_eq_true, Bool.and_comm]

/-- The loop is the search: what comes before the index has been visited. -/
lemma baseLoop_eq_search : ∀ (fuel : ℕ) {cl : α} {allbases out P Q out' : List α},
    addBases H.baseClass cl allbases out = (P ++ Q, out') →
      baseLoop H.baseClass (fuel + 1) cl P.length allbases out =
        search H.bases H.collect fuel P Q out' := by
  intro fuel
  induction fuel with
  | zero =>
      intro cl allbases out P Q out' h
      rw [baseLoop, h]
      cases Q with
      | nil => simp [search]
      | cons y Q => simp [search, baseLoop]
  | succ fuel ih =>
      intro cl allbases out P Q out' h
      rw [baseLoop, h]
      cases Q with
      | nil => simp [search]
      | cons y Q =>
          have hnext : addBases H.baseClass y (P ++ y :: Q) out' =
              (P ++ [y] ++ (Q ++ fresh H.bases (P ++ y :: Q) y),
                H.collect y (P ++ y :: Q) out') := by
            rw [addBases_eq]
            simp
          have hget : (P ++ y :: Q)[P.length]? = some y := by simp
          have hlen : P.length + 1 = (P ++ [y]).length := by simp
          simp only [hget, search]
          rw [hlen]
          exact ih hnext

/-- With the direct bases in the list already, the first round adds nothing. -/
lemma findAllBaseClass_eq_search (fuel : ℕ) (C : α) :
    findAllBaseClass H.baseClass (fuel + 1) C (H.bases C) true =
      (search H.bases H.collect fuel [] (H.bases C) (H.bases C)).map Prod.snd := by
  have hfirst : addBases H.baseClass C (H.bases C) (H.bases C) = ([] ++ H.bases C, H.bases C) := by
    have hnone : ∀ b ∈ H.baseClass C, ¬b.base ∉ H.bases C := fun b hb =>
      not_not.mpr (List.mem_map_of_mem hb)
    rw [addBases, List.filter_eq_nil_iff.mpr fun b hb => by simpa using hnone b hb]
    simp
  have := baseLoop_eq_search fuel hfirst
  rw [findAllBaseClass, show (0 : ℕ) = ([] : List α).length from rfl, this]
  rfl

/-! ### What is collected -/

/-- The lists while the search runs. -/
structure Collecting (H : Hierarchy α) (C : α) (_d : ℕ) (P Q R out : List α) : Prop where
  nodup : out.Nodup
  direct : ∀ x ∈ H.bases C, x ∈ out
  found : ∀ x ∈ out, x ∈ P ++ (Q ++ R)
  sound : ∀ x ∈ out, x ∈ H.bases C ∨ H.VirtualBase C x
  missed : ∀ x ∈ P ++ (Q ++ R), x ∈ out ∨
    ∃ y n, At H.bases C n y ∧ At H.bases C (n + 1) x ∧ ⟨x, false⟩ ∈ H.baseClass y

lemma mem_collect {y x : α} {found out : List α} :
    x ∈ H.collect y found out ↔ x ∈ out ∨ x ∉ found ∧ ⟨x, true⟩ ∈ H.baseClass y := by
  rw [collect, List.mem_append, List.mem_map]
  refine or_congr_right ⟨?_, fun ⟨hx, hb⟩ => ⟨⟨x, true⟩, by simpa [hb] using hx, rfl⟩⟩
  rintro ⟨⟨b, v⟩, hb, rfl⟩
  obtain ⟨hb, hnew⟩ := List.mem_filter.mp hb
  obtain ⟨hfound, rfl : v = true⟩ := of_decide_eq_true hnew
  exact ⟨hfound, hb⟩

lemma Collecting.visit {C y : α} {d : ℕ} {P Q R out : List α}
    (hfront : Frontier H.bases C d P (y :: Q) R) (h : H.Collecting C d P (y :: Q) R out) :
    H.Collecting C d (P ++ [y]) Q (R ++ fresh H.bases (P ++ (y :: Q ++ R)) y)
      (H.collect y (P ++ (y :: Q ++ R)) out) := by
  have hall : ∀ F, P ++ [y] ++ (Q ++ (R ++ F)) = P ++ (y :: Q ++ R) ++ F := by simp
  have hy := hfront.atQ y List.mem_cons_self
  refine ⟨?_, fun x hx => mem_collect.mpr (.inl (h.direct x hx)), ?_, ?_, ?_⟩
  · rw [collect, List.nodup_append]
    refine ⟨h.nodup, ((List.filter_sublist).map Base.base).nodup (H.nodup y), ?_⟩
    intro x hx z hz heq
    obtain ⟨b, hb, rfl⟩ := List.mem_map.mp hz
    exact (of_decide_eq_true (List.mem_filter.mp hb).2).1 (heq ▸ h.found x hx)
  · intro x hx
    rw [hall]
    rcases mem_collect.mp hx with hx | ⟨hnew, hb⟩
    · exact List.mem_append_left _ (h.found x hx)
    · exact List.mem_append_right _
        (List.mem_filter.mpr ⟨List.mem_map_of_mem hb, decide_eq_true hnew⟩)
  · intro x hx
    rcases mem_collect.mp hx with hx | ⟨-, hb⟩
    · exact h.sound x hx
    · exact .inr ⟨y, d, hy.1, hb⟩
  · intro x hx
    rw [hall] at hx
    rcases List.mem_append.mp hx with hx | hx
    · rcases h.missed x hx with hx | hx
      · exact .inl (mem_collect.mpr (.inl hx))
      · exact .inr hx
    · have hat := hfront.at_of_mem_fresh (H.acyclic C) hx
      obtain ⟨hnext, hnew⟩ := List.mem_filter.mp hx
      obtain ⟨⟨b, v⟩, hb, rfl⟩ := List.mem_map.mp hnext
      cases v with
      | true => exact .inl (mem_collect.mpr (.inr ⟨of_decide_eq_true hnew, hb⟩))
      | false => exact .inr ⟨y, d, hy, hat, hb⟩

omit [DecidableEq α] in
lemma Collecting.turn {C : α} {d : ℕ} {P R out : List α} (h : H.Collecting C d P [] R out) :
    H.Collecting C (d + 1) P R [] out :=
  ⟨h.nodup, h.direct, by simpa using h.found, h.sound, by simpa using h.missed⟩

omit [DecidableEq α] in
/-- A virtual base is at some distance. -/
lemma VirtualBase.exists_at {C X : α} (h : H.VirtualBase C X) :
    ∃ m, 0 < m ∧ At H.bases C m X := by
  obtain ⟨Y, n, hpath, hX⟩ := h
  have hpath : Path H.bases (n + 1) C X := .tail hpath (List.mem_map_of_mem hX)
  obtain ⟨m, -, hat⟩ := hpath.exists_at
  refine ⟨m, Nat.pos_of_ne_zero fun hzero => ?_, hat⟩
  subst hzero
  rw [at_zero_iff] at hat
  exact H.acyclic C n (hat ▸ hpath)

/-- `FindAllBaseClass` returns. -/
lemma exists_findAllBaseClass [Finite α] (H : Hierarchy α) (C : α) :
    ∃ fuel out P d, findAllBaseClass H.baseClass fuel C (H.bases C) true = some out ∧
      Frontier H.bases C d P [] [] ∧ H.Collecting C d P [] [] out := by
  have hstart : H.Collecting C 1 [] (H.bases C) [] (H.bases C) := by
    refine ⟨H.nodup C, fun x hx => hx, by simp, fun x hx => .inl hx, fun x hx => .inl ?_⟩
    simpa using hx
  have hfront : Frontier H.bases C 1 [] (H.bases C) [] := .start (H.nodup C) (H.acyclic C)
  obtain ⟨fuel, P, out, d, hrun, hfront, hend⟩ :=
    exists_search_eq H.nodup_bases (H.acyclic C) Collecting.visit (fun _ => Collecting.turn)
      hfront hstart
  refine ⟨fuel + 1, out, P, d, ?_, hfront, hend⟩
  rw [List.append_nil] at hrun
  rw [findAllBaseClass_eq_search, hrun]
  rfl

/-- The result does not depend on the fuel. -/
lemma findAllBaseClass_unique {C : α} {fuel fuel' : ℕ} {out out' : List α}
    (h : findAllBaseClass H.baseClass fuel C (H.bases C) true = some out)
    (h' : findAllBaseClass H.baseClass fuel' C (H.bases C) true = some out') : out = out' := by
  cases fuel with
  | zero => cases h
  | succ fuel =>
      cases fuel' with
      | zero => cases h'
      | succ fuel' =>
          rw [findAllBaseClass_eq_search, Option.map_eq_some_iff] at h h'
          obtain ⟨r, hr, rfl⟩ := h
          obtain ⟨r', hr', rfl⟩ := h'
          rw [search_unique hr hr']

omit [DecidableEq α] in
lemma Collecting.collected {C : α} {d : ℕ} {P out : List α} (h : H.Collecting C d P [] [] out)
    (hfront : Frontier H.bases C d P [] []) (hconsistent : H.Consistent C) :
    H.Collected C out := by
  refine ⟨h.nodup, fun X => ⟨h.sound X, ?_⟩⟩
  by_cases hdirect : X ∈ H.bases C
  · exact fun _ => h.direct X hdirect
  · intro hX
    have hvirtual := hX.resolve_left hdirect
    have hP := hfront.mem_iff.mpr hvirtual.exists_at
    rcases h.missed X (by simpa using hP) with hout | ⟨y, n, hy, hat, hb⟩
    · exact hout
    · exact absurd hb (hconsistent X y n hdirect hvirtual hy hat)

/-! ### The order of the bases -/

section Reorders

variable {H' : Hierarchy α}

omit [DecidableEq α]

lemma Reorders.symm (h : H'.Reorders H) : H.Reorders H' := fun c => (h c).symm

lemma Reorders.mem_bases (h : H'.Reorders H) {c x : α} : x ∈ H'.bases c ↔ x ∈ H.bases c :=
  ((h c).map Base.base).mem_iff

lemma Reorders.at_iff (h : H'.Reorders H) {C x : α} {n : ℕ} :
    At H'.bases C n x ↔ At H.bases C n x :=
  ⟨At.congr fun _ _ => h.mem_bases, At.congr fun _ _ => h.mem_bases.symm⟩

lemma Reorders.virtualBase_iff (h : H'.Reorders H) {C X : α} :
    H'.VirtualBase C X ↔ H.VirtualBase C X := by
  refine exists_congr fun Y => exists_congr fun n => and_congr ⟨fun hp => ?_, fun hp => ?_⟩
    (h Y).mem_iff
  · exact hp.mono fun _ _ hx => h.mem_bases.mp hx
  · exact hp.mono fun _ _ hx => h.mem_bases.mpr hx

lemma Reorders.collected_iff (h : H'.Reorders H) {C : α} {r : List α} :
    H'.Collected C r ↔ H.Collected C r := by
  have hmem : (∀ X, X ∈ r ↔ X ∈ H'.bases C ∨ H'.VirtualBase C X) ↔
      ∀ X, X ∈ r ↔ X ∈ H.bases C ∨ H.VirtualBase C X :=
    forall_congr' fun X => by rw [h.mem_bases, h.virtualBase_iff]
  exact ⟨fun hr => ⟨hr.nodup, hmem.mp hr.mem_iff⟩, fun hr => ⟨hr.nodup, hmem.mpr hr.mem_iff⟩⟩

lemma Consistent.of_reorders {C : α} (hc : H.Consistent C) (h : H'.Reorders H) :
    H'.Consistent C := by
  intro X Y n hdirect hvirtual hY hX hb
  exact hc X Y n (fun hx => hdirect (h.mem_bases.mpr hx)) (h.virtualBase_iff.mp hvirtual)
    (h.at_iff.mp hY) (h.at_iff.mp hX) ((h Y).mem_iff.mp hb)

end Reorders

/-- The bases with the favourite of each class in front. -/
def favour (H : Hierarchy α) (favourite : α → α) : Hierarchy α where
  baseClass c := (H.baseClass c).filter (fun b => b.base = favourite c) ++
    (H.baseClass c).filter fun b => !decide (b.base = favourite c)
  nodup c := (((List.filter_append_perm _ _).map Base.base).nodup_iff).mpr (H.nodup c)
  acyclic c n h := H.acyclic c n (h.mono fun y _ hx =>
    ((List.filter_append_perm (fun b => decide (b.base = favourite y)) _).map Base.base).mem_iff.mp
      hx)

lemma favour_reorders (favourite : α → α) : (H.favour favourite).Reorders H :=
  fun c => List.filter_append_perm (fun b : Base α => decide (b.base = favourite c)) _

lemma head?_bases_favour {favourite : α → α} {c : α} (h : favourite c ∈ H.bases c) :
    ((H.favour favourite).bases c).head? = some (favourite c) := by
  obtain ⟨b, hb, hbase⟩ := List.mem_map.mp h
  rw [bases, favour, List.map_append]
  cases hl : (H.baseClass c).filter fun b => b.base = favourite c with
  | nil =>
      exact absurd hbase (by simpa using List.filter_eq_nil_iff.mp hl b hb)
  | cons b' l =>
      have hb' : b' ∈ (H.baseClass c).filter fun b => b.base = favourite c :=
        hl ▸ List.mem_cons_self
      simpa using (List.mem_filter.mp hb').2

/-- A shortest path, each vertex of which is the first in the list of the one before, to a class
that lists `X` without `virtual`; `X` is one further away. -/
structure Decoy (H : Hierarchy α) (C : α) (n : ℕ) (p : ℕ → α) (X : α) : Prop where
  at_path : ∀ i ≤ n, At H.bases C i (p i)
  head : ∀ i < n, (H.bases (p i)).head? = some (p (i + 1))
  at_last : At H.bases C (n + 1) X
  last : ⟨X, false⟩ ∈ H.baseClass (p n)

/-- The search from the start of such a path: `X` is not taken. -/
structure Missing (n : ℕ) (p : ℕ → α) (X : α) (d : ℕ) (P Q R out : List α) : Prop where
  notMem : X ∉ out
  first : d ≤ n → p d ∈ P ∨ Q.head? = some (p d)
  next : d + 1 ≤ n → R = [] ∨ R.head? = some (p (d + 1))

section Decoy

variable {C X : α} {n d : ℕ} {p : ℕ → α} {P R out : List α}

omit [DecidableEq α] in
lemma Decoy.mem_bases (h : H.Decoy C n p X) {i : ℕ} (hi : i < n) : p (i + 1) ∈ H.bases (p i) :=
  List.mem_of_mem_head? (h.head i hi)

omit [DecidableEq α] in
/-- What the vertex of the path at the distance `d` lists is further away. -/
lemma Decoy.notMem_of_done {Q : List α} {x : α} (hfront : Frontier H.bases C d P Q [])
    (hx : At H.bases C (d + 1) x) {y : α} (hy : y ∈ P) : x ∉ H.bases y := by
  intro hmem
  have hfound := hfront.closed y (.inr hy) x hmem
  rw [List.append_nil] at hfound
  obtain ⟨m, -, hle, hat⟩ := (hfront.near x).mp hfound
  have := hat.unique hx
  omega

lemma Missing.visit (h : H.Decoy C n p X) {y : α} {Q : List α}
    (hfront : Frontier H.bases C d P (y :: Q) R) (hI : Missing n p X d P (y :: Q) R out) :
    Missing n p X d (P ++ [y]) Q (R ++ fresh H.bases (P ++ (y :: Q ++ R)) y)
      (H.collect y (P ++ (y :: Q ++ R)) out) := by
  have hfirst : d ≤ n → p d ∈ P ∨ y = p d := fun hd => by simpa using hI.first hd
  refine ⟨fun hX => ?_, fun hd => .inl ?_, fun hd => .inr ?_⟩
  · rcases mem_collect.mp hX with hX | ⟨hnew, hb⟩
    · exact hI.notMem hX
    · have hfresh : X ∈ fresh H.bases (P ++ (y :: Q ++ R)) y :=
        List.mem_filter.mpr ⟨List.mem_map_of_mem hb, decide_eq_true hnew⟩
      obtain rfl : d = n := by
        have := (hfront.at_of_mem_fresh (H.acyclic C) hfresh).unique h.at_last
        omega
      rcases hfirst le_rfl with hdone | rfl
      · exact hnew (hfront.closed _ (.inr hdone) X (List.mem_map_of_mem h.last))
      · -- the class would be listed twice
        have := List.inj_on_of_nodup_map (H.nodup (p d)) hb h.last rfl
        simp at this
  · rcases hfirst hd with hdone | rfl
    · exact List.mem_append_left _ hdone
    · exact List.mem_append_right _ (List.mem_singleton_self _)
  · rcases hI.next hd with rfl | hR
    · have hnext := h.at_path (d + 1) hd
      have hmem := h.mem_bases (i := d) (by omega)
      rcases hfirst (by omega) with hdone | rfl
      · exact absurd hmem (Decoy.notMem_of_done hfront hnext hdone)
      · have hnew : p (d + 1) ∉ P ++ (p d :: Q ++ []) := by
          intro hfound
          rw [List.append_nil] at hfound
          obtain ⟨m, -, hle, hat⟩ := (hfront.near _).mp hfound
          have := hat.unique hnext
          omega
        have hhead := h.head d (by omega)
        cases hl : H.bases (p d) with
        | nil => rw [hl] at hhead; cases hhead
        | cons z l =>
            rw [hl] at hhead
            cases hhead
            rw [List.nil_append, fresh, hl, List.filter_cons, if_pos (decide_eq_true hnew)]
            rfl
    · rw [List.head?_append, hR]
      rfl

omit [DecidableEq α] in
lemma Missing.turn (h : H.Decoy C n p X) (hfront : Frontier H.bases C d P [] R)
    (hI : Missing n p X d P [] R out) : Missing n p X (d + 1) P R [] out := by
  refine ⟨hI.notMem, fun hd => ?_, fun _ => .inl rfl⟩
  rcases hI.next hd with rfl | hR
  · have hdone : p d ∈ P := by simpa using hI.first (by omega)
    exact absurd (h.mem_bases (i := d) (by omega))
      (Decoy.notMem_of_done hfront (h.at_path (d + 1) hd) hdone)
  · exact .inr hR

/-- The class `X` is not taken. -/
lemma Decoy.notMem [Finite α] (h : H.Decoy C n p X) (hn : 0 < n) (hdirect : X ∉ H.bases C)
    {fuel : ℕ} (hout : findAllBaseClass H.baseClass fuel C (H.bases C) true = some out) :
    X ∉ out := by
  have hfront : Frontier H.bases C 1 [] (H.bases C) [] := .start (H.nodup C) (H.acyclic C)
  have hzero : p 0 = C := at_zero_iff.mp (h.at_path 0 (Nat.zero_le n))
  have hstart : Missing n p X 1 [] (H.bases C) [] (H.bases C) :=
    ⟨hdirect, fun _ => .inr (hzero ▸ h.head 0 hn), fun _ => .inl rfl⟩
  obtain ⟨fuel', P', out', d', hrun, -, hend⟩ :=
    exists_search_eq H.nodup_bases (H.acyclic C) (Missing.visit h) (Missing.turn h) hfront hstart
  rw [List.append_nil] at hrun
  have hout' : findAllBaseClass H.baseClass (fuel' + 1) C (H.bases C) true = some out' := by
    rw [findAllBaseClass_eq_search, hrun]
    rfl
  exact findAllBaseClass_unique hout hout' ▸ hend.notMem

end Decoy

omit [DecidableEq α] in
/-- The vertices of a shortest path are different, so that each can have the next one as its
favourite. -/
lemma exists_favourite {C : α} {n : ℕ} {p : ℕ → α} (h : ∀ i ≤ n, At H.bases C i (p i)) :
    ∃ favourite : α → α, ∀ i < n, favourite (p i) = p (i + 1) := by
  classical
  refine ⟨fun c => if hc : ∃ i, i ≤ n ∧ p i = c then p (hc.choose + 1) else c, fun i hi => ?_⟩
  have hc : ∃ j, j ≤ n ∧ p j = p i := ⟨i, hi.le, rfl⟩
  obtain ⟨hj, hpj⟩ := hc.choose_spec
  have hat := h _ hj
  rw [hpj] at hat
  dsimp only
  rw [dif_pos hc, hat.unique (h i hi.le)]

/-- If one of the nearest classes lists the class without `virtual`, it can be made the first of
them. -/
lemma exists_decoy {C X Y : α} {n : ℕ} (hY : At H.bases C n Y) (hX : At H.bases C (n + 1) X)
    (hb : ⟨X, false⟩ ∈ H.baseClass Y) :
    ∃ (H' : Hierarchy α) (p : ℕ → α), H'.Reorders H ∧ H'.Decoy C n p X := by
  obtain ⟨p, rfl, hat, hnext⟩ := hY.exists_path
  obtain ⟨favourite, hfavourite⟩ := exists_favourite hat
  have hreorders := H.favour_reorders favourite
  refine ⟨H.favour favourite, p, hreorders, fun i hi => hreorders.at_iff.mpr (hat i hi),
    fun i hi => ?_, hreorders.at_iff.mpr hX, (hreorders (p n)).mem_iff.mpr hb⟩
  have hmem : favourite (p i) ∈ H.bases (p i) := hfavourite i hi ▸ hnext i hi
  rw [head?_bases_favour hmem, hfavourite i hi]

/-- `FindAllBaseClass` collects the direct and the virtual bases, in whatever order the bases are
declared, if and only if each virtual base that is not direct is virtual for all the classes that
list it at the least distance. -/
theorem collected_iff_consistent [Finite α] (H : Hierarchy α) (C : α) :
    (∀ H' : Hierarchy α, H'.Reorders H → ∃ fuel r,
      findAllBaseClass H'.baseClass fuel C (H'.bases C) true = some r ∧ H.Collected C r) ↔
      H.Consistent C := by
  constructor
  · intro hall X Y n hdirect hvirtual hY hX hb
    obtain ⟨H', p, hreorders, hdecoy⟩ := exists_decoy hY hX hb
    have hn : 0 < n := by
      refine Nat.pos_of_ne_zero fun hzero => hdirect ?_
      subst hzero
      rw [at_zero_iff] at hY
      exact hY ▸ List.mem_map_of_mem hb
    obtain ⟨fuel, r, hr, hcollected⟩ := hall H' hreorders
    have hdirect' : X ∉ H'.bases C := fun h => hdirect (hreorders.mem_bases.mp h)
    exact hdecoy.notMem hn hdirect' hr ((hcollected.mem_iff X).mpr (.inr hvirtual))
  · intro hconsistent H' hreorders
    obtain ⟨fuel, out, P, d, hout, hfront, hend⟩ := exists_findAllBaseClass H' C
    exact ⟨fuel, out, hout, hreorders.collected_iff.mp
      (hend.collected hfront (hconsistent.of_reorders hreorders))⟩

local instance neZero_four : NeZero 4 := ⟨by decide⟩

/-- Two bases with a base in common, which is virtual for the second, and for the first if
`isVirtual` says so. -/
def diamondBases (isVirtual : Bool) : Fin 4 → List (Base (Fin 4))
  | 0 => [⟨1, false⟩, ⟨2, false⟩]
  | 1 => [⟨3, isVirtual⟩]
  | 2 => [⟨3, true⟩]
  | 3 => []

lemma lt_of_mem_diamondBases (isVirtual : Bool) :
    ∀ y : Fin 4, ∀ x ∈ (diamondBases isVirtual y).map Base.base, y < x := by
  cases isVirtual <;> decide

/-- The hierarchy. -/
def diamond (isVirtual : Bool) : Hierarchy (Fin 4) where
  baseClass := diamondBases isVirtual
  nodup := by cases isVirtual <;> decide
  acyclic c _ h := (lt_irrefl c) (h.lt (lt_of_mem_diamondBases isVirtual))

theorem collected_diamond : ∃ fuel r,
    findAllBaseClass (diamond true).baseClass fuel 0 ((diamond true).bases 0) true = some r ∧
      (diamond true).Collected 0 r := by
  have hdirect : ∀ X Y, ⟨X, false⟩ ∈ diamondBases true Y →
      X ∈ (diamondBases true 0).map Base.base := by decide
  exact (collected_iff_consistent (diamond true) 0).mpr
    (fun X Y _ hX _ _ _ hb => hX (hdirect X Y hb)) (diamond true) fun _ => .refl _

/-- If the base is not virtual for the first of the two, it is not taken. -/
theorem exists_not_collected : ¬ ∀ (α : Type) [Finite α] [DecidableEq α] (H : Hierarchy α) (C : α),
    ∃ fuel r, findAllBaseClass H.baseClass fuel C (H.bases C) true = some r ∧
      H.Collected C r := by
  intro h
  obtain ⟨fuel, r, hr, hcollected⟩ := h (Fin 4) (diamond false) 0
  have hrun : findAllBaseClass (diamond false).baseClass 4 0 ((diamond false).bases 0) true =
      some [1, 2] := by decide
  have hvirtual : (diamond false).VirtualBase 0 3 :=
    ⟨2, 1, .tail (.refl 0) (by decide), by decide⟩
  have hmem := (hcollected.mem_iff 3).mpr (.inr hvirtual)
  rw [findAllBaseClass_unique hr hrun] at hmem
  exact absurd hmem (by decide)

end Hierarchy

end Parser
