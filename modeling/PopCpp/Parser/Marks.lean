/-
# The marks of `CanMarshal`

`CanMarshal` marks a type while it is asked, so that a type that is reached again from itself is
refused.  But the refusal takes the mark away although the type is still under way, and a class
goes on with its next base: if that leads to the type as well, then the type is asked anew, inside
of the first question, as if nothing had been asked.  In this way `CanMarshal` may not return at
all.

What has lost its mark is harmless as long as it is not asked again before its question is over.
So the question is first asked as it is meant, with the types under way refused and kept.  If no
type under way is met in two parts of one question (`MetOnce`), then no type under way is asked
without its mark, and only then; `CanMarshal` gives the answer that is meant, and the marks are as
they were.  Otherwise it depends on the marks that are left whether a question returns: it does if
and only if none comes up again inside of itself with the same marks.
-/
import PopCpp.Parser.TypeGraph
import Mathlib.Data.Finset.Lattice.Fold
import Mathlib.Data.Finset.Card
import Mathlib.Data.Finset.Powerset
import Mathlib.Data.Finset.Prod
import Mathlib.Order.Lattice.Nat
import Mathlib.Order.WellFounded
import Mathlib.Data.Finite.Defs

namespace Parser

namespace TypeGraph

variable (g : TypeGraph)

/-! ### What a type asks -/

/-- The type is a container. -/
def isContainer (t : ℕ) : Bool :=
  match g t with
  | .template _ _ => true
  | _ => false

/-- The types that a type may ask, in order. -/
def asked (t : ℕ) : List ℕ :=
  match g t with
  | .basic _ => []
  | .array _ b => [b]
  | .ptr nptr _ b => if nptr = 1 then [b] else []
  | .equal b => [b]
  | .classStruct false _ attributes _ => attributes.map Prod.fst
  | .classStruct true name _ bases => if name = none ∨ name = some "pop_base" then [] else bases
  | .template name elements =>
      if elements.isEmpty || !stlType.contains name then [] else elements
  | .parClass => []

/-- The type is marked while it is asked. -/
def marksItself (t : ℕ) : Bool :=
  match g t with
  | .basic _ | .template _ _ | .parClass => false
  | _ => true

/-- The answer of a part that settles the question. -/
def settles (t r : ℕ) : Bool :=
  match g t with
  | .classStruct false _ _ _ => r ≠ 1
  | .classStruct true _ _ _ => r ≠ 0
  | .template _ _ => r = 0
  | _ => true

/-- The answer, when a part has settled the question or none has. -/
def answer (t : ℕ) (r : Option ℕ) : ℕ :=
  match g t with
  | .basic name => if stdType.contains name then 1 else 0
  | .array _ _ | .equal _ => r.getD 0
  | .ptr _ _ _ => if r.getD 0 ≠ 0 then 2 else 0
  | .classStruct false _ _ _ => if r.isSome then 0 else 1
  | .classStruct true name _ _ => if name = some "pop_base" || r.isSome then 1 else 0
  | .template name elements =>
      if elements.isEmpty || !stlType.contains name || r.isSome then 0 else 1
  | .parClass => 1

/-- The types under way, or those that are marked, while the parts of a type are asked. -/
def opened (t : ℕ) (s : Finset ℕ) : Finset ℕ := if g.marksItself t then insert t s else s

/-- The types under way, or those that are marked, when the type has been asked. -/
def closed (t : ℕ) (s : Finset ℕ) : Finset ℕ := if g.marksItself t then s.erase t else s

/-- The types of a program: they refer to each other, and a container has been made of types that
were there before it. -/
structure Program (types : Finset ℕ) (rank : ℕ → ℕ) : Prop where
  closed : ∀ t ∈ types, ∀ u ∈ g.parts t, u ∈ types
  containers : ∀ t ∈ types, ∀ u ∈ g.parts t, g.isContainer t → g.isContainer u → rank u < rank t

/-! ### The question as it is meant -/

/-- The types under way that a question meets, and whether it meets none of them in two parts. -/
structure Met where
  types : Finset ℕ
  once : Bool

/-- What one part meets after another. -/
def Met.after (a b : Met) : Met :=
  ⟨b.types ∪ a.types, b.once && a.once && decide (Disjoint b.types a.types)⟩

/-- Ask one part after the other, up to the first that settles the question. -/
def meantParts (settles : ℕ → Bool) (ask : ℕ → Option (ℕ × Met)) :
    List ℕ → Option (Option ℕ × Met)
  | [] => some (none, ⟨∅, true⟩)
  | u :: us => do
    let r ← ask u
    if settles r.1 then some (some r.1, r.2)
    else (meantParts settles ask us).map fun s => (s.1, s.2.after r.2)

/-- The question for a type as it is meant, with the types that are under way: these are refused.
The questions are nested at most `fuel` deep. -/
def meant : ℕ → Finset ℕ → ℕ → Option (ℕ × Met)
  | 0, _, _ => none
  | fuel + 1, under, t =>
    if g.marksItself t && decide (t ∈ under) then some (0, ⟨{t}, true⟩)
    else (meantParts (g.settles t) (meant fuel (g.opened t under)) (g.asked t)).map fun r =>
      (g.answer t r.1, ⟨g.closed t r.2.types, r.2.once⟩)

/-- No type under way is met in two parts of one question. -/
def MetOnce (t : ℕ) : Prop := ∀ fuel r, g.meant fuel ∅ t = some r → r.2.once = true

/-! ### The parts of a question -/

/-- Ask one part after the other, up to the first that settles the question: which answer was
it? -/
def askFirst (stop : ℕ → Bool) (ask : ℕ → Asks) : List ℕ → Marks → Option (Option ℕ × Marks)
  | [], marks => some (none, marks)
  | t :: ts, marks => do
    let r ← ask t marks
    if stop r.1 then some (some r.1, r.2) else askFirst stop ask ts r.2

/-- The parts of a type are asked. -/
def askParts (fuel t : ℕ) : Asks := fun marks =>
  (askFirst (g.settles t) (g.canMarshal fuel) (g.asked t) marks).map fun r => (g.answer t r.1, r.2)

/-- A question, with the marks that it finds, comes to ask another one. -/
def Comes (q q' : ℕ × Marks) : Prop :=
  ¬(g.marksItself q.1 = true ∧ q.1 ∈ q.2) ∧ ∃ fuel us us', g.asked q.1 = us ++ q'.1 :: us' ∧
    askFirst (g.settles q.1) (g.canMarshal fuel) us (g.opened q.1 q.2) = some (none, q'.2)

/-- Some type under way is asked without its mark. -/
inductive Reenters : Finset ℕ → ℕ × Marks → Prop
  | here {under : Finset ℕ} {q : ℕ × Marks} (hself : g.marksItself q.1 = true)
      (hunder : q.1 ∈ under) (hmark : q.1 ∉ q.2) : Reenters under q
  | part {under : Finset ℕ} {q q' : ℕ × Marks} (hcomes : g.Comes q q')
      (h : Reenters (g.opened q.1 under) q') : Reenters under q

variable {g}

lemma asked_subset_parts (t : ℕ) : g.asked t ⊆ g.parts t := by
  intro u hu
  rw [asked] at hu
  rw [parts]
  split at hu <;> rename_i ht <;> simp only [ht] at hu ⊢
  · exact absurd hu List.not_mem_nil
  · exact hu
  · split_ifs at hu
    · exact hu
    · exact absurd hu List.not_mem_nil
  · exact hu
  · exact List.mem_append_left _ hu
  · split_ifs at hu
    · exact absurd hu List.not_mem_nil
    · exact List.mem_append_right _ hu
  · split_ifs at hu
    · exact absurd hu List.not_mem_nil
    · exact hu
  · exact absurd hu List.not_mem_nil

/-- `askUntil` only tells whether there was a stop. -/
lemma askUntil_eq_askFirst (stop : ℕ → Bool) (ask : ℕ → Asks) (ts : List ℕ) (marks : Marks) :
    askUntil stop ask ts marks = (askFirst stop ask ts marks).map fun r => (r.1.isSome, r.2) := by
  induction ts generalizing marks with
  | nil => rfl
  | cons t ts ih =>
      rw [askUntil, askFirst]
      cases ask t marks with
      | none => rfl
      | some r =>
          dsimp only [Option.bind_eq_bind, Option.bind_some]
          split_ifs
          · rfl
          · exact ih r.2

/-- The only part settles the question, whatever it answers. -/
lemma askFirst_singleton {stop : ℕ → Bool} (ask : ℕ → Asks) (u : ℕ) (marks : Marks)
    (hstop : ∀ r, stop r = true) :
    askFirst stop ask [u] marks = (ask u marks).map fun r => (some r.1, r.2) := by
  rw [askFirst]
  cases ask u marks with
  | none => rfl
  | some r => exact if_pos (hstop r.1)

/-- A type that marks itself is refused when it is marked, and asks its parts otherwise. -/
lemma canMarshal_succ (fuel t : ℕ) (marks : Marks) : g.canMarshal (fuel + 1) t marks =
    if g.marksItself t && decide (t ∈ marks) then some (0, marks.erase t)
    else (g.askParts fuel t (g.opened t marks)).map fun r => (r.1, g.closed t r.2) := by
  cases hg : g t with
  | basic name =>
      simp [canMarshal, askParts, askFirst, asked, answer, opened, closed, marksItself, hg]
  | parClass =>
      simp [canMarshal, askParts, askFirst, asked, answer, opened, closed, marksItself, hg]
  | array cardinal b =>
      simp only [canMarshal, underMark, askParts, asked, answer, opened, closed, marksItself, hg]
      rw [askFirst_singleton _ b _ fun r => by simp [settles, hg]]
      simp [Option.map_map, Function.comp_def]
  | equal b =>
      simp only [canMarshal, underMark, askParts, asked, answer, opened, closed, marksItself, hg]
      rw [askFirst_singleton _ b _ fun r => by simp [settles, hg]]
      simp [Option.map_map, Function.comp_def]
  | ptr nptr size b =>
      simp only [canMarshal, underMark, askParts, asked, answer, opened, closed, marksItself, hg]
      by_cases hnptr : nptr = 1
      · rw [if_pos hnptr, if_pos hnptr, askFirst_singleton _ b _ fun r => by simp [settles, hg]]
        simp [Option.map_map, Function.comp_def]
      · simp [hnptr, askFirst]
  | classStruct isClass name attributes bases =>
      cases isClass with
      | false =>
          have hsettles : g.settles t = fun r => decide (r ≠ 1) := by
            funext r
            simp only [settles, hg]
          simp [canMarshal, underMark, askParts, asked, answer, opened, closed, marksItself, hg,
            askUntil_eq_askFirst, Option.map_map, Function.comp_def, hsettles]
      | true =>
          have hsettles : g.settles t = fun r => decide (r ≠ 0) := by
            funext r
            simp only [settles, hg]
          by_cases hname : name = none
          · simp [canMarshal, underMark, askParts, asked, answer, opened, closed, marksItself, hg,
              hname, askFirst]
          · by_cases hname' : name = some "pop_base"
            · simp [canMarshal, underMark, askParts, asked, answer, opened, closed, marksItself,
                hg, hname', askFirst]
            · simp [canMarshal, underMark, askParts, asked, answer, opened, closed, marksItself,
                hg, hname, hname', askUntil_eq_askFirst, Option.map_map, Function.comp_def,
                hsettles]
  | template name elements =>
      have hsettles : g.settles t = fun r => decide (r = 0) := by
        funext r
        simp only [settles, hg]
      cases hstl : elements.isEmpty || !stlType.contains name with
      | true =>
          simp only [canMarshal, askParts, asked, answer, opened, closed, marksItself, hg, hstl,
            askFirst, if_true, Bool.true_or, Bool.false_and]
          rfl
      | false =>
          simp only [canMarshal, askParts, asked, answer, opened, closed, marksItself, hg, hstl,
            askUntil_eq_askFirst, hsettles, Bool.false_or, Bool.false_and, Bool.false_eq_true,
            if_false, Option.map_map]
          rfl

/-! ### More fuel -/

lemma askFirst_mono {stop : ℕ → Bool} {ask ask' : ℕ → Asks}
    (hask : ∀ u marks r, ask u marks = some r → ask' u marks = some r) :
    ∀ {us : List ℕ} {marks : Marks} {s : Option ℕ × Marks},
      askFirst stop ask us marks = some s → askFirst stop ask' us marks = some s
  | [], _, _, h => h
  | u :: us, marks, s, h => by
    obtain ⟨r, hr, hrest⟩ := Option.bind_eq_some_iff.mp h
    rw [askFirst, hask u marks r hr]
    dsimp only [Option.bind_eq_bind, Option.bind_some]
    split_ifs at hrest with hstop
    · rw [if_pos hstop]
      exact hrest
    · rw [if_neg hstop]
      exact askFirst_mono hask hrest

/-- With more fuel the answer is the same. -/
lemma canMarshal_mono : ∀ {fuel fuel' t : ℕ} {marks : Marks} {r : ℕ × Marks}, fuel ≤ fuel' →
    g.canMarshal fuel t marks = some r → g.canMarshal fuel' t marks = some r := by
  intro fuel
  induction fuel with
  | zero => exact fun _ h => by cases h
  | succ fuel ih =>
      intro fuel' t marks r hle h
      obtain ⟨fuel', rfl⟩ := Nat.exists_eq_succ_of_ne_zero (Nat.ne_zero_of_lt hle)
      rw [canMarshal_succ] at h
      rw [Nat.succ_eq_add_one, canMarshal_succ]
      split_ifs at h ⊢ with hmark
      · exact h
      · obtain ⟨s, hs, rfl⟩ := Option.map_eq_some_iff.mp h
        obtain ⟨u, hu, rfl⟩ := Option.map_eq_some_iff.mp hs
        rw [askParts, askFirst_mono (fun u m a => ih (Nat.le_of_succ_le_succ hle)) hu]
        rfl

/-- Two answers are the same, with whatever fuel. -/
lemma askFirst_unique {fuel fuel' t : ℕ} {us : List ℕ} {marks : Marks} {s s' : Option ℕ × Marks}
    (h : askFirst (g.settles t) (g.canMarshal fuel) us marks = some s)
    (h' : askFirst (g.settles t) (g.canMarshal fuel') us marks = some s') : s = s' := by
  have hmax := askFirst_mono (fun u m a => canMarshal_mono (le_max_left fuel fuel')) h
  rw [askFirst_mono (fun u m a => canMarshal_mono (le_max_right fuel fuel')) h'] at hmax
  exact (Option.some.inj hmax).symm

/-! ### Marks that are left -/

lemma closed_subset {t : ℕ} {s s' : Finset ℕ} (h : s' ⊆ g.opened t s) : g.closed t s' ⊆ s := by
  rw [opened] at h
  rw [closed]
  split_ifs at h ⊢
  · exact Finset.subset_insert_iff.mp h
  · exact h

lemma askFirst_subset {stop : ℕ → Bool} {ask : ℕ → Asks}
    (hask : ∀ u marks r, ask u marks = some r → r.2 ⊆ marks) :
    ∀ {us : List ℕ} {marks : Marks} {s : Option ℕ × Marks},
      askFirst stop ask us marks = some s → s.2 ⊆ marks
  | [], _, _, h => by
    cases h
    exact subset_rfl
  | u :: us, marks, s, h => by
    obtain ⟨r, hr, hrest⟩ := Option.bind_eq_some_iff.mp h
    split_ifs at hrest
    · cases hrest
      exact hask u marks r hr
    · exact (askFirst_subset hask hrest).trans (hask u marks r hr)

/-- A question that returns leaves no mark that was not there. -/
lemma canMarshal_subset : ∀ {fuel t : ℕ} {marks : Marks} {r : ℕ × Marks},
    g.canMarshal fuel t marks = some r → r.2 ⊆ marks := by
  intro fuel
  induction fuel with
  | zero => exact fun h => by cases h
  | succ fuel ih =>
      intro t marks r h
      rw [canMarshal_succ] at h
      split_ifs at h
      · cases h
        exact Finset.erase_subset t marks
      · obtain ⟨s, hs, rfl⟩ := Option.map_eq_some_iff.mp h
        obtain ⟨u, hu, rfl⟩ := Option.map_eq_some_iff.mp hs
        exact closed_subset (askFirst_subset (fun u m a => ih) hu)

/-! ### What a question meets -/

/-- A question that meets, in one part only, types which are marked. -/
def Met.Clean (m : Met) (under : Finset ℕ) (marks : Marks) : Prop :=
  m.once = true ∧ Disjoint m.types (under \ marks)

/-- What a part meets is met in that part only, and what it clears is not met after it. -/
lemma Met.clean_after {a b : Met} {under : Finset ℕ} {marks : Marks} (hsub : b.types ⊆ under) :
    (a.after b).Clean under marks ↔
      b.Clean under marks ∧ a.Clean under (marks \ b.types) := by
  have hunder : under \ (marks \ b.types) = under \ marks ∪ b.types := by
    rw [sdiff_sdiff_right', inf_eq_right.mpr hsub]
    rfl
  simp only [Met.Clean, Met.after, hunder, Finset.disjoint_union_left, Finset.disjoint_union_right,
    Bool.and_eq_true, decide_eq_true_eq, disjoint_comm (a := b.types) (b := a.types)]
  tauto

/-- The answer to a part comes from the parts before it and the part itself. -/
lemma meantParts_cons {settles : ℕ → Bool} {ask : ℕ → Option (ℕ × Met)} {u : ℕ} {us : List ℕ}
    {s : Option ℕ × Met} (h : meantParts settles ask (u :: us) = some s) :
    ∃ r, ask u = some r ∧ (settles r.1 = true ∧ s = (some r.1, r.2) ∨
      settles r.1 = false ∧ ∃ s', meantParts settles ask us = some s' ∧
        s = (s'.1, s'.2.after r.2)) := by
  obtain ⟨r, hr, hrest⟩ := Option.bind_eq_some_iff.mp h
  refine ⟨r, hr, ?_⟩
  split_ifs at hrest with hsettles
  · exact .inl ⟨hsettles, (Option.some.inj hrest).symm⟩
  · obtain ⟨s', hs', heq⟩ := Option.map_eq_some_iff.mp hrest
    exact .inr ⟨eq_false_of_ne_true hsettles, s', hs', heq.symm⟩

lemma meantParts_subset {settles : ℕ → Bool} {ask : ℕ → Option (ℕ × Met)} {under : Finset ℕ}
    (hask : ∀ u r, ask u = some r → r.2.types ⊆ under) : ∀ {us : List ℕ} {s : Option ℕ × Met},
      meantParts settles ask us = some s → s.2.types ⊆ under
  | [], _, h => by
    cases h
    exact Finset.empty_subset under
  | u :: us, s, h => by
    obtain ⟨r, hr, ⟨-, rfl⟩ | ⟨-, s', hs', rfl⟩⟩ := meantParts_cons h
    · exact hask u r hr
    · exact Finset.union_subset (hask u r hr) (meantParts_subset hask hs')

/-- A question meets types under way. -/
lemma meant_subset : ∀ {fuel t : ℕ} {under : Finset ℕ} {r : ℕ × Met},
    g.meant fuel under t = some r → r.2.types ⊆ under := by
  intro fuel
  induction fuel with
  | zero => exact fun h => by cases h
  | succ fuel ih =>
      intro t under r h
      rw [meant] at h
      split_ifs at h with hrefused
      · cases h
        exact Finset.singleton_subset_iff.mpr
          (of_decide_eq_true (Bool.and_eq_true_iff.mp hrefused).2)
      · obtain ⟨s, hs, rfl⟩ := Option.map_eq_some_iff.mp h
        exact closed_subset (meantParts_subset (fun u r => ih) hs)

lemma Met.clean_closed {t : ℕ} {m : Met} {under : Finset ℕ} {marks : Marks}
    (hunder : ¬(g.marksItself t = true ∧ t ∈ under)) :
    (⟨g.closed t m.types, m.once⟩ : Met).Clean under marks ↔
      m.Clean (g.opened t under) (g.opened t marks) := by
  rw [Met.Clean, Met.Clean, closed, opened, opened]
  split_ifs with hself
  · have ht : t ∉ under := fun h => hunder ⟨hself, h⟩
    have hnot : t ∉ under \ marks := fun h => ht (Finset.mem_sdiff.mp h).1
    have hopened : insert t under \ insert t marks = under \ marks := by
      rw [Finset.insert_sdiff_insert, Finset.sdiff_insert, Finset.erase_eq_of_notMem hnot]
    rw [hopened]
    refine and_congr_right fun _ => ?_
    rw [Finset.disjoint_erase_comm, Finset.erase_eq_of_notMem hnot]
  · rfl

lemma not_marked_of_subset {t : ℕ} {under : Finset ℕ} {marks : Marks} (hsub : marks ⊆ under)
    (hunder : ¬(g.marksItself t = true ∧ t ∈ under)) : ¬(g.marksItself t = true ∧ t ∈ marks) :=
  fun h => hunder ⟨h.1, hsub h.2⟩

lemma opened_subset {t : ℕ} {under : Finset ℕ} {marks : Marks} (hsub : marks ⊆ under) :
    g.opened t marks ⊆ g.opened t under := by
  rw [opened, opened]
  split_ifs
  · exact Finset.insert_subset_insert t hsub
  · exact hsub

lemma closed_opened_sdiff {t : ℕ} {marks types : Finset ℕ}
    (hmark : ¬(g.marksItself t = true ∧ t ∈ marks)) :
    g.closed t (g.opened t marks \ types) = marks \ g.closed t types := by
  rw [closed, opened, closed]
  split_ifs with hself
  · have ht : t ∉ marks := fun h => hmark ⟨hself, h⟩
    ext x
    by_cases hx : x = t
    · simp [hx, ht]
    · simp [hx]
  · rfl

/-! ### Questions that go as they are meant -/

/-- The parts that are clean get the answers that are meant, and clear what they meet. -/
lemma askFirst_of_meantParts {settles : ℕ → Bool} {ask : ℕ → Option (ℕ × Met)} {ask' : ℕ → Asks}
    {under : Finset ℕ} (hsubset : ∀ u r, ask u = some r → r.2.types ⊆ under)
    (hask : ∀ u r, ∀ marks ⊆ under, ask u = some r → r.2.Clean under marks →
      ask' u marks = some (r.1, marks \ r.2.types)) :
    ∀ {us : List ℕ} {marks : Marks} {s : Option ℕ × Met}, marks ⊆ under →
      meantParts settles ask us = some s → s.2.Clean under marks →
        askFirst settles ask' us marks = some (s.1, marks \ s.2.types)
  | [], marks, s, _, h, _ => by
    cases h
    exact congrArg (fun m => some (none, m)) Finset.sdiff_empty.symm
  | u :: us, marks, s, hsub, h, hclean => by
    obtain ⟨r, hr, ⟨hsettles, rfl⟩ | ⟨hsettles, s', hs', rfl⟩⟩ := meantParts_cons h
    · rw [askFirst, hask u r marks hsub hr hclean]
      exact if_pos hsettles
    · obtain ⟨hfirst, hrest⟩ := (Met.clean_after (hsubset u r hr)).mp hclean
      have hall := askFirst_of_meantParts hsubset hask (Finset.sdiff_subset.trans hsub) hs' hrest
      rw [askFirst, hask u r marks hsub hr hfirst]
      dsimp only [Option.bind_eq_bind, Option.bind_some]
      rw [hsettles, if_neg Bool.false_ne_true, hall, sdiff_sdiff_left]
      rfl

/-- A clean question gets the answer that is meant, and clears what it meets. -/
lemma canMarshal_of_meant : ∀ {fuel t : ℕ} {under : Finset ℕ} {marks : Marks} {r : ℕ × Met},
    marks ⊆ under → g.meant fuel under t = some r → r.2.Clean under marks →
      g.canMarshal fuel t marks = some (r.1, marks \ r.2.types) := by
  intro fuel
  induction fuel with
  | zero => exact fun _ h => by cases h
  | succ fuel ih =>
      intro t under marks r hsub h hclean
      rw [meant] at h
      rw [canMarshal_succ]
      split_ifs at h with hrefused
      · -- a type under way that has its mark
        cases h
        obtain ⟨hself, hunder⟩ := Bool.and_eq_true_iff.mp hrefused
        have hmark : t ∈ marks := by
          by_contra hmark
          exact Finset.disjoint_left.mp hclean.2 (Finset.mem_singleton_self t)
            (Finset.mem_sdiff.mpr ⟨of_decide_eq_true hunder, hmark⟩)
        rw [if_pos (by simp [hself, hmark]), Finset.sdiff_singleton_eq_erase]
      · have hunder : ¬(g.marksItself t = true ∧ t ∈ under) := by simpa using hrefused
        have hmark := not_marked_of_subset hsub hunder
        obtain ⟨s, hs, rfl⟩ := Option.map_eq_some_iff.mp h
        have hparts := askFirst_of_meantParts (fun u r => meant_subset)
          (fun u r marks hsub hr => ih hsub hr) (opened_subset hsub) hs
          ((Met.clean_closed hunder).mp hclean)
        rw [if_neg (by simpa using hmark), askParts, hparts]
        exact congrArg (fun m => some (g.answer t s.1, m)) (closed_opened_sdiff hmark)

/-! ### Questions that do not -/

/-- Some part is not clean, and those before it go as they are meant. -/
lemma exists_part_of_not_clean {settles : ℕ → Bool} {ask : ℕ → Option (ℕ × Met)} {ask' : ℕ → Asks}
    {under : Finset ℕ} (hsubset : ∀ u r, ask u = some r → r.2.types ⊆ under)
    (hask : ∀ u r, ∀ marks ⊆ under, ask u = some r → r.2.Clean under marks →
      ask' u marks = some (r.1, marks \ r.2.types)) :
    ∀ {us : List ℕ} {marks : Marks} {s : Option ℕ × Met}, marks ⊆ under →
      meantParts settles ask us = some s → ¬s.2.Clean under marks →
        ∃ vs u vs' marks₁ r, us = vs ++ u :: vs' ∧ askFirst settles ask' vs marks =
          some (none, marks₁) ∧ marks₁ ⊆ under ∧ ask u = some r ∧ ¬r.2.Clean under marks₁
  | [], marks, s, _, h, hclean => by
    cases h
    exact absurd ⟨rfl, Finset.disjoint_empty_left _⟩ hclean
  | u :: us, marks, s, hsub, h, hclean => by
    obtain ⟨r, hr, hcases⟩ := meantParts_cons h
    by_cases hfirst : r.2.Clean under marks
    · obtain ⟨hsettles, rfl⟩ | ⟨hsettles, s', hs', rfl⟩ := hcases
      · exact absurd hfirst hclean
      · have hrest : ¬s'.2.Clean under (marks \ r.2.types) := fun hrest =>
          hclean ((Met.clean_after (hsubset u r hr)).mpr ⟨hfirst, hrest⟩)
        obtain ⟨vs, v, vs', marks₁, r', rfl, hbefore, hv⟩ := exists_part_of_not_clean hsubset hask
          (Finset.sdiff_subset.trans hsub) hs' hrest
        refine ⟨u :: vs, v, vs', marks₁, r', rfl, ?_, hv⟩
        rw [askFirst, hask u r marks hsub hr hfirst]
        dsimp only [Option.bind_eq_bind, Option.bind_some]
        rw [hsettles, if_neg Bool.false_ne_true]
        exact hbefore
    · exact ⟨[], u, us, marks, r, rfl, rfl, hsub, hr, hfirst⟩

/-- A question that is not clean comes to a type under way that has lost its mark. -/
lemma reenters_of_not_clean : ∀ {fuel t : ℕ} {under : Finset ℕ} {marks : Marks} {r : ℕ × Met},
    marks ⊆ under → g.meant fuel under t = some r → ¬r.2.Clean under marks →
      g.Reenters under (t, marks) := by
  intro fuel
  induction fuel with
  | zero => exact fun _ h => by cases h
  | succ fuel ih =>
      intro t under marks r hsub h hclean
      rw [meant] at h
      split_ifs at h with hrefused
      · cases h
        obtain ⟨hself, hunder⟩ := Bool.and_eq_true_iff.mp hrefused
        refine .here hself (of_decide_eq_true hunder) fun hmark => hclean ⟨rfl, ?_⟩
        exact Finset.disjoint_singleton_left.mpr fun hgone => (Finset.mem_sdiff.mp hgone).2 hmark
      · have hunder : ¬(g.marksItself t = true ∧ t ∈ under) := by simpa using hrefused
        obtain ⟨s, hs, rfl⟩ := Option.map_eq_some_iff.mp h
        obtain ⟨us, u, us', marks₁, r, hasked, hbefore, hsub₁, hr, hdirty⟩ :=
          exists_part_of_not_clean (fun u r => meant_subset)
            (fun u r marks hsub hr => canMarshal_of_meant hsub hr) (opened_subset hsub) hs
            fun hs => hclean ((Met.clean_closed hunder).mpr hs)
        exact .part ⟨not_marked_of_subset hsub hunder, fuel, us, us', hasked, hbefore⟩
          (ih hsub₁ hr hdirty)

/-- The parts of a clean question are clean. -/
lemma exists_clean_part {settles : ℕ → Bool} {ask : ℕ → Option (ℕ × Met)} {ask' : ℕ → Asks}
    {under : Finset ℕ} (hsubset : ∀ u r, ask u = some r → r.2.types ⊆ under)
    (hask : ∀ u r, ∀ marks ⊆ under, ask u = some r → r.2.Clean under marks →
      ask' u marks = some (r.1, marks \ r.2.types)) :
    ∀ {us us' : List ℕ} {u : ℕ} {marks marks₁ : Marks} {s : Option ℕ × Met}, marks ⊆ under →
      meantParts settles ask (us ++ u :: us') = some s → s.2.Clean under marks →
        askFirst settles ask' us marks = some (none, marks₁) →
          marks₁ ⊆ under ∧ ∃ r, ask u = some r ∧ r.2.Clean under marks₁
  | [], us', u, marks, marks₁, s, hsub, h, hclean, hbefore => by
    cases hbefore
    obtain ⟨r, hr, ⟨-, rfl⟩ | ⟨-, s', -, rfl⟩⟩ := meantParts_cons h
    · exact ⟨hsub, r, hr, hclean⟩
    · exact ⟨hsub, r, hr, ((Met.clean_after (hsubset u r hr)).mp hclean).1⟩
  | v :: us, us', u, marks, marks₁, s, hsub, h, hclean, hbefore => by
    obtain ⟨r, hr, hcases⟩ := meantParts_cons h
    have hfirst : r.2.Clean under marks := by
      obtain ⟨-, rfl⟩ | ⟨-, s', -, rfl⟩ := hcases
      · exact hclean
      · exact ((Met.clean_after (hsubset v r hr)).mp hclean).1
    rw [askFirst, hask v r marks hsub hr hfirst] at hbefore
    dsimp only [Option.bind_eq_bind, Option.bind_some] at hbefore
    obtain ⟨hsettles, -⟩ | ⟨hsettles, s', hs', rfl⟩ := hcases
    · rw [if_pos hsettles] at hbefore
      cases hbefore
    · rw [hsettles, if_neg Bool.false_ne_true] at hbefore
      exact exists_clean_part hsubset hask (Finset.sdiff_subset.trans hsub) hs'
        ((Met.clean_after (hsubset v r hr)).mp hclean).2 hbefore

/-- A clean question comes to no type under way that has lost its mark. -/
lemma not_reenters_of_clean {under : Finset ℕ} {q : ℕ × Marks} (h : g.Reenters under q) :
    ∀ {fuel : ℕ} {r : ℕ × Met}, q.2 ⊆ under → g.meant fuel under q.1 = some r →
      ¬r.2.Clean under q.2 := by
  induction h with
  | @here under q hself hunder hmark =>
      intro fuel r _ hr hclean
      cases fuel with
      | zero => cases hr
      | succ fuel =>
          rw [meant, if_pos (by simp [hself, hunder])] at hr
          cases hr
          exact Finset.disjoint_left.mp hclean.2 (Finset.mem_singleton_self q.1)
            (Finset.mem_sdiff.mpr ⟨hunder, hmark⟩)
  | @part under q q' hcomes h ih =>
      intro fuel r hsub hr hclean
      obtain ⟨hmark, fuel', us, us', hasked, hbefore⟩ := hcomes
      cases fuel with
      | zero => cases hr
      | succ fuel =>
          rw [meant] at hr
          split_ifs at hr with hrefused
          · -- a type that is refused though it has no mark
            cases hr
            obtain ⟨hself, hunder⟩ := Bool.and_eq_true_iff.mp hrefused
            exact Finset.disjoint_left.mp hclean.2 (Finset.mem_singleton_self q.1)
              (Finset.mem_sdiff.mpr ⟨of_decide_eq_true hunder, fun hm => hmark ⟨hself, hm⟩⟩)
          · have hunder : ¬(g.marksItself q.1 = true ∧ q.1 ∈ under) := by simpa using hrefused
            obtain ⟨s, hs, rfl⟩ := Option.map_eq_some_iff.mp hr
            rw [hasked] at hs
            have hmax := askFirst_mono (fun u m a => canMarshal_mono (le_max_right fuel fuel'))
              hbefore
            obtain ⟨hsub', r, hr, hclean'⟩ := exists_clean_part (fun u r => meant_subset)
              (fun u r marks hsub hr hclean => canMarshal_mono (le_max_left fuel fuel')
                (canMarshal_of_meant hsub hr hclean)) (opened_subset hsub) hs
              ((Met.clean_closed hunder).mp hclean) hmax
            exact ih hsub' hr hclean'

/-! ### Questions that end -/

/-- A bound for the questions that are nested in one: each is for a type that was not under way, or
for an earlier container. -/
def depth (g : TypeGraph) (types : Finset ℕ) (rank : ℕ → ℕ) (under : Finset ℕ) (t : ℕ) : ℕ :=
  (types \ under).card * (types.sup rank + 2) + if g.isContainer t then rank t + 1 else 0

section Program

variable {types : Finset ℕ} {rank : ℕ → ℕ}

lemma depth_insert_lt (rank : ℕ → ℕ) {under : Finset ℕ} {t u : ℕ} (ht : t ∈ types)
    (htunder : t ∉ under)
    (hu : u ∈ types) (hcontainer : g.isContainer t = false) :
    g.depth types rank (insert t under) u < g.depth types rank under t := by
  have hcard : (types \ insert t under).card + 1 = (types \ under).card := by
    rw [Finset.sdiff_insert, Finset.card_erase_add_one]
    exact Finset.mem_sdiff.mpr ⟨ht, htunder⟩
  have hrank : rank u ≤ types.sup rank := Finset.le_sup hu
  have hlast : (if g.isContainer u then rank u + 1 else 0) < types.sup rank + 2 := by
    split_ifs <;> omega
  rw [depth, depth, ← hcard, hcontainer, if_neg Bool.false_ne_true, Nat.add_mul, Nat.one_mul]
  omega

lemma Program.depth_lt (hprog : g.Program types rank) (under : Finset ℕ) {t u : ℕ}
    (ht : t ∈ types) (hu : u ∈ g.parts t) (hcontainer : g.isContainer t = true) :
    g.depth types rank under u < g.depth types rank under t := by
  rw [depth, depth, if_pos hcontainer]
  split_ifs with hcontainer'
  · have := hprog.containers t ht u hu hcontainer hcontainer'
    omega
  · omega

lemma exists_meantParts (settles : ℕ → Bool) {ask : ℕ → Option (ℕ × Met)} :
    ∀ {us : List ℕ}, (∀ u ∈ us, ∃ r, ask u = some r) → ∃ s, meantParts settles ask us = some s
  | [], _ => ⟨_, rfl⟩
  | u :: us, hask => by
    obtain ⟨r, hr⟩ := hask u List.mem_cons_self
    obtain ⟨s, hs⟩ := exists_meantParts settles fun v hv => hask v (List.mem_cons_of_mem u hv)
    rw [meantParts, hr]
    dsimp only [Option.bind_eq_bind, Option.bind_some]
    split_ifs
    · exact ⟨_, rfl⟩
    · exact ⟨_, by rw [hs]; rfl⟩

/-- The question that is meant ends, with enough fuel. -/
lemma Program.exists_meant (hprog : g.Program types rank) : ∀ {fuel t : ℕ} {under : Finset ℕ},
    t ∈ types → g.depth types rank under t < fuel → ∃ r, g.meant fuel under t = some r := by
  intro fuel
  induction fuel with
  | zero => exact fun _ h => absurd h (Nat.not_lt_zero _)
  | succ fuel ih =>
      intro t under ht hfuel
      rw [meant]
      split_ifs with hrefused
      · exact ⟨_, rfl⟩
      · have hunder : ¬(g.marksItself t = true ∧ t ∈ under) := by simpa using hrefused
        have hparts : ∀ u ∈ g.asked t, ∃ r, g.meant fuel (g.opened t under) u = some r := by
          intro u hu
          have hpart := asked_subset_parts t hu
          have hmem := hprog.closed t ht u hpart
          have hlt : g.depth types rank (g.opened t under) u < g.depth types rank under t := by
            rw [opened]
            split_ifs with hself
            · refine depth_insert_lt rank ht (fun h => hunder ⟨hself, h⟩) hmem ?_
              cases hg : g t <;> simp_all [marksItself, isContainer]
            · refine hprog.depth_lt under ht hpart ?_
              cases hg : g t <;> simp_all [marksItself, isContainer, asked]
          exact ih hmem (by omega)
        obtain ⟨s, hs⟩ := exists_meantParts (g.settles t) hparts
        exact ⟨_, by rw [hs]; rfl⟩

/-! ### Questions that come up again -/

lemma askFirst_append (stop : ℕ → Bool) (ask : ℕ → Asks) (us vs : List ℕ) (marks : Marks) :
    askFirst stop ask (us ++ vs) marks = (askFirst stop ask us marks).bind fun s =>
      if s.1.isSome then some s else askFirst stop ask vs s.2 := by
  induction us generalizing marks with
  | nil => rfl
  | cons u us ih =>
      rw [List.cons_append, askFirst, askFirst]
      cases ask u marks with
      | none => rfl
      | some r =>
          dsimp only [Option.bind_eq_bind, Option.bind_some]
          split_ifs
          · rfl
          · exact ih r.2

/-- A question that returns comes to questions that return earlier. -/
lemma Comes.returns {q q' : ℕ × Marks} {fuel : ℕ} {r : ℕ × Marks} (h : g.Comes q q')
    (hr : g.canMarshal (fuel + 1) q.1 q.2 = some r) :
    ∃ r', g.canMarshal fuel q'.1 q'.2 = some r' := by
  obtain ⟨hmark, fuel', us, us', hasked, hbefore⟩ := h
  rw [canMarshal_succ, if_neg (by simpa using hmark)] at hr
  obtain ⟨s, hs, -⟩ := Option.map_eq_some_iff.mp hr
  obtain ⟨s, hs, -⟩ := Option.map_eq_some_iff.mp hs
  rw [hasked, askFirst_append] at hs
  obtain ⟨s', hs', hs⟩ := Option.bind_eq_some_iff.mp hs
  obtain rfl := askFirst_unique hs' hbefore
  rw [if_neg (by simp)] at hs
  obtain ⟨r', hr', -⟩ := Option.bind_eq_some_iff.mp hs
  exact ⟨r', hr'⟩

/-- A question returns if all those return to which it comes. -/
lemma exists_canMarshal_of_comes {q : ℕ × Marks}
    (h : ∀ q', g.Comes q q' → ∃ fuel r, g.canMarshal fuel q'.1 q'.2 = some r) :
    ∃ fuel r, g.canMarshal fuel q.1 q.2 = some r := by
  by_cases hmark : g.marksItself q.1 = true ∧ q.1 ∈ q.2
  · refine ⟨1, (0, q.2.erase q.1), ?_⟩
    rw [canMarshal_succ, if_pos (by simpa using hmark)]
  · have hparts : ∀ {vs us : List ℕ} {fuel : ℕ} {marks : Marks}, g.asked q.1 = us ++ vs →
        askFirst (g.settles q.1) (g.canMarshal fuel) us (g.opened q.1 q.2) = some (none, marks) →
        ∃ fuel s, askFirst (g.settles q.1) (g.canMarshal fuel) (us ++ vs) (g.opened q.1 q.2) =
          some s := by
      intro vs
      induction vs with
      | nil =>
          intro us fuel marks _ hbefore
          exact ⟨fuel, _, by rw [List.append_nil]; exact hbefore⟩
      | cons u vs ih =>
          intro us fuel marks hasked hbefore
          obtain ⟨fuel', r, hr⟩ := h (u, marks) ⟨hmark, fuel, us, vs, hasked, hbefore⟩
          have hbefore := askFirst_mono
            (fun u m a => canMarshal_mono (le_max_left fuel fuel')) hbefore
          have hr := canMarshal_mono (le_max_right fuel fuel') hr
          cases hstop : g.settles q.1 r.1 with
          | true =>
              refine ⟨max fuel fuel', (some r.1, r.2), ?_⟩
              rw [askFirst_append, hbefore, Option.bind_some, if_neg (by simp), askFirst, hr]
              exact if_pos hstop
          | false =>
              rw [List.append_cons] at hasked ⊢
              refine @ih (us ++ [u]) (max fuel fuel') r.2 hasked ?_
              rw [askFirst_append, hbefore, Option.bind_some, if_neg (by simp), askFirst, hr]
              exact if_neg (by simp [hstop])
    obtain ⟨fuel, s, hs⟩ := @hparts (g.asked q.1) [] 0 (g.opened q.1 q.2) rfl rfl
    rw [List.nil_append] at hs
    refine ⟨fuel + 1, (g.answer q.1 s.1, g.closed q.1 s.2), ?_⟩
    rw [canMarshal_succ, if_neg (by simpa using hmark), askParts, hs]
    rfl

/-- A question returns if and only if the questions to which it comes are not nested for ever. -/
lemma exists_canMarshal_iff_acc {q : ℕ × Marks} :
    (∃ fuel r, g.canMarshal fuel q.1 q.2 = some r) ↔ Acc (fun q' q => g.Comes q q') q := by
  constructor
  · rintro ⟨fuel, r, hr⟩
    induction fuel generalizing q r with
    | zero => cases hr
    | succ fuel ih =>
        refine .intro q fun q' hq' => ?_
        obtain ⟨r', hr'⟩ := hq'.returns hr
        exact ih r' hr'
  · intro h
    induction h with
    | intro q _ ih => exact exists_canMarshal_of_comes ih

/-- A question that returns does not come up again inside of itself with the same marks. -/
lemma not_transGen_of_canMarshal {q : ℕ × Marks} {fuel : ℕ} {r : ℕ × Marks}
    (h : g.canMarshal fuel q.1 q.2 = some r) : ¬Relation.TransGen g.Comes q q := by
  have hacc := (exists_canMarshal_iff_acc.mp ⟨fuel, r, h⟩).transGen
  clear h
  induction hacc with
  | intro q _ ih => exact fun hagain => ih q (Relation.transGen_swap.mp hagain) hagain

/-- The questions of a program: its types, with some of them marked. -/
lemma Program.comes_mem (hprog : g.Program types rank) {q q' : ℕ × Marks} (h : g.Comes q q')
    (hq : q ∈ types ×ˢ types.powerset) : q' ∈ types ×ˢ types.powerset := by
  obtain ⟨-, fuel, us, us', hasked, hbefore⟩ := h
  obtain ⟨ht, hmarks⟩ := Finset.mem_product.mp hq
  have hpart : q'.1 ∈ g.asked q.1 := hasked ▸ List.mem_append_right us List.mem_cons_self
  have hopened : g.opened q.1 q.2 ⊆ types := by
    rw [opened]
    split_ifs
    · exact Finset.insert_subset ht (Finset.mem_powerset.mp hmarks)
    · exact Finset.mem_powerset.mp hmarks
  refine Finset.mem_product.mpr ⟨hprog.closed _ ht _ (asked_subset_parts _ hpart), ?_⟩
  exact Finset.mem_powerset.mpr
    ((askFirst_subset (fun u m a => canMarshal_subset) hbefore).trans hopened)

/-- `CanMarshal` returns if and only if no question to which it comes comes up again inside of
itself with the same marks. -/
lemma Program.exists_canMarshal_iff (hprog : g.Program types rank) {t : ℕ} (ht : t ∈ types) :
    (∃ fuel r, g.canMarshal fuel t ∅ = some (r, ∅)) ↔
      ∀ q, Relation.ReflTransGen g.Comes (t, ∅) q → ¬Relation.TransGen g.Comes q q := by
  constructor
  · rintro ⟨fuel, r, hr⟩ q hq
    have hacc : Acc (fun q' q => g.Comes q q') q := by
      have hstart : Acc (fun q' q => g.Comes q q') (t, ∅) :=
        exists_canMarshal_iff_acc.mp ⟨fuel, (r, ∅), hr⟩
      clear hr
      induction hq with
      | refl => exact hstart
      | tail _ hcomes ih => exact ih.inv hcomes
    obtain ⟨fuel, r, hr⟩ := exists_canMarshal_iff_acc.mpr hacc
    exact not_transGen_of_canMarshal hr
  · intro h
    -- there are finitely many questions, so that those without a loop are nested finitely deep
    let asks := {q : ℕ × Marks // Relation.ReflTransGen g.Comes (t, ∅) q}
    have hmem : ∀ q : asks, q.1 ∈ types ×ˢ types.powerset := by
      rintro ⟨q, hq⟩
      induction hq with
      | refl => exact Finset.mem_product.mpr ⟨ht, Finset.empty_mem_powerset types⟩
      | tail _ hcomes ih => exact hprog.comes_mem hcomes ih
    have hfinite : Finite asks :=
      Finite.of_injective (fun q : asks => (⟨q.1, hmem q⟩ : {q // q ∈ types ×ˢ types.powerset}))
        fun q q' heq => Subtype.ext (congrArg (fun q => q.1) heq)
    let nested : asks → asks → Prop := fun q' q => Relation.TransGen g.Comes q.1 q'.1
    have hwf : WellFounded nested := by
      have : IsTrans asks nested := ⟨fun _ _ _ hab hbc => hbc.trans hab⟩
      have : Std.Irrefl nested := ⟨fun q => h q.1 q.2⟩
      exact Finite.wellFounded_of_trans_of_irrefl nested
    have hacc : ∀ q : asks, Acc (fun q' q => g.Comes q q') q.1 := by
      intro q
      induction q using hwf.induction with
      | _ q ih => exact .intro q.1 fun q' hq' => ih ⟨q', q.2.tail hq'⟩ (.single hq')
    obtain ⟨fuel, r, hr⟩ := exists_canMarshal_iff_acc.mpr (hacc ⟨(t, ∅), .refl⟩)
    have hnone : r.2 = ∅ := Finset.subset_empty.mp (canMarshal_subset hr)
    exact ⟨fuel, r.1, hr.trans (congrArg some (Prod.ext rfl hnone))⟩

/-- **The marks of `CanMarshal`.**  If no type under way is met in two parts of one question, then
`CanMarshal` returns and leaves no mark: another question finds the types as they were.  Exactly
then no type under way is asked without its mark.  If one is, then `CanMarshal` returns if and only
if no question to which it comes comes up again inside of itself with the same marks. -/
theorem canMarshal_returns (g : TypeGraph) (types : Finset ℕ) (rank : ℕ → ℕ)
    (hprog : g.Program types rank) (t : ℕ) (ht : t ∈ types) :
    (g.MetOnce t → ∃ fuel r, g.canMarshal fuel t ∅ = some (r, ∅)) ∧
    (g.MetOnce t ↔ ¬g.Reenters ∅ (t, ∅)) ∧
    ((∃ fuel r, g.canMarshal fuel t ∅ = some (r, ∅)) ↔
      ∀ q, Relation.ReflTransGen g.Comes (t, ∅) q → ¬Relation.TransGen g.Comes q q) := by
  obtain ⟨r, hr⟩ : ∃ r, g.meant (g.depth types rank ∅ t).succ ∅ t = some r :=
    hprog.exists_meant ht (Nat.lt_succ_self _)
  have hclean : ∀ {m : Met}, m.once = true → m.Clean ∅ ∅ := fun honce =>
    ⟨honce, Finset.disjoint_empty_right _⟩
  refine ⟨fun h => ⟨(g.depth types rank ∅ t).succ, r.1, ?_⟩,
    ⟨fun h hreenters => ?_, fun h fuel r' hr' => ?_⟩, hprog.exists_canMarshal_iff ht⟩
  · rw [canMarshal_of_meant subset_rfl hr (hclean (h _ r hr)), Finset.empty_sdiff]
  · exact not_reenters_of_clean hreenters subset_rfl hr (hclean (h _ r hr))
  · by_contra honce
    exact h (reenters_of_not_clean subset_rfl hr' fun hc => honce hc.1)

end Program

/-! ### Classes -/

/-- The bases of a class. -/
def bases (g : TypeGraph) (t : ℕ) : List ℕ :=
  match g t with
  | .classStruct true _ _ bases => bases
  | _ => []

/-- `struct Node { int value; Node* next; }` -/
def nodeGraph : TypeGraph
  | 0 => .classStruct false (some "Node") [(1, "value"), (2, "next")] []
  | 1 => .basic "int"
  | 2 => .ptr 1 none 0
  | _ => .basic "unknown"

theorem canMarshal_returns_nodeGraph : (∃ fuel r, nodeGraph.canMarshal fuel 0 ∅ = some (r, ∅)) ∧
    ¬nodeGraph.Reenters ∅ (0, ∅) := by
  have hprog : nodeGraph.Program {0, 1, 2} fun _ => 0 := ⟨by decide, by decide⟩
  obtain ⟨hreturns, hiff, -⟩ :=
    canMarshal_returns nodeGraph {0, 1, 2} (fun _ => 0) hprog 0 (by decide)
  have honce : nodeGraph.MetOnce 0 := by
    intro fuel r hr
    match fuel with
    | 0 | 1 | 2 => cases hr
    | fuel + 3 =>
        cases hr
        decide
  exact ⟨hreturns honce, hiff.mp honce⟩

/-- `class C : public vector<C>, public list<C>` -/
def containerGraph : TypeGraph
  | 0 => .classStruct true (some "C") [] [1, 2]
  | 1 => .template "vector" [0]
  | 2 => .template "list" [0]
  | _ => .basic "unknown"

/-- The question for that class does not end, though it is no base of itself. -/
theorem exists_canMarshal_ne : ¬ ∀ (g : TypeGraph) (types : Finset ℕ) (rank : ℕ → ℕ),
    g.Program types rank →
    (∀ t, ¬Relation.TransGen (fun t u => u ∈ g.bases t) t t) →
    ∀ t ∈ types, ∃ fuel r, g.canMarshal fuel t ∅ = some (r, ∅) := by
  intro h
  have hprog : containerGraph.Program {0, 1, 2} fun _ => 0 := ⟨by decide, by decide⟩
  have hbases : ∀ {t u}, Relation.TransGen (fun t u => u ∈ containerGraph.bases t) t u →
      t = 0 ∧ u ≠ 0 := by
    have hedge : ∀ {t u}, u ∈ containerGraph.bases t → t = 0 ∧ u ≠ 0 := by
      intro t u hu
      match t with
      | 0 =>
          have : u = 1 ∨ u = 2 := by simpa [bases, containerGraph] using hu
          omega
      | 1 | 2 | _ + 3 => exact absurd hu List.not_mem_nil
    intro t u hu
    induction hu with
    | single hu => exact hedge hu
    | tail _ hu ih => exact ⟨ih.1, (hedge hu).2⟩
  have hacyclic : ∀ t, ¬Relation.TransGen (fun t u => u ∈ containerGraph.bases t) t t :=
    fun t ht => (hbases ht).2 (hbases ht).1
  obtain ⟨fuel, r, hr⟩ := h containerGraph {0, 1, 2} (fun _ => 0) hprog hacyclic 0 (by decide)
  have hlist : containerGraph.Comes (0, ∅) (2, ∅) :=
    ⟨by decide, 2, [1], [], rfl, by decide⟩
  have hback : containerGraph.Comes (2, ∅) (0, ∅) := ⟨by decide, 0, [], [], rfl, rfl⟩
  exact not_transGen_of_canMarshal hr (.tail (.single hlist) hback)

end TypeGraph

end Parser
