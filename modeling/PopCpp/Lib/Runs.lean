/-
# Sweeping a list in runs

A list is swept by a request: from left to right, every run of elements that are requested is
taken out, and each run has to follow the order of the request.  The sweep cannot end in a run,
since it stops only at an element that it leaves in place.
-/
import Mathlib.Data.List.Infix

namespace Runs

variable {α : Type*} {req run pre post l : List α} {x : α}

/-- The requested elements of a list can be swept out of it. -/
structure Sweepable (req l : List α) : Prop where
  /-- The last element is not requested. -/
  last : ∀ x, l.getLast? = some x → x ∉ req
  /-- Requested elements that stand together follow the order of the request. -/
  runs : ∀ run, run <:+: l → (∀ x ∈ run, x ∈ req) → run.Sublist req

/-- A run does not reach across an element that is not in it. -/
lemma infix_of_infix_append_cons (h : run <:+: pre ++ x :: post) (hx : x ∉ run) :
    run <:+: pre ∨ run <:+: post := by
  obtain ⟨s, t, heq⟩ := h
  rw [List.append_assoc] at heq
  rcases List.append_eq_append_iff.mp heq with ⟨a, hpre, hrun⟩ | ⟨a, rfl, hrest⟩
  · rcases List.append_eq_append_iff.mp hrun with ⟨b, rfl, -⟩ | ⟨b, rfl, hb⟩
    · exact Or.inl ⟨s, b, by rw [hpre, List.append_assoc]⟩
    · cases b with
      | nil => exact Or.inl ⟨s, [], by rw [hpre, List.append_nil, List.append_nil]⟩
      | cons y b =>
          obtain ⟨rfl, -⟩ := List.cons.inj hb
          exact absurd (by simp) hx
  · cases a with
    | nil =>
        cases run with
        | nil => exact Or.inl (List.nil_infix)
        | cons y run =>
            obtain ⟨rfl, -⟩ := List.cons.inj hrest
            exact absurd List.mem_cons_self hx
    | cons y a =>
        obtain ⟨-, rfl⟩ := List.cons.inj hrest
        exact Or.inr ⟨a, t, List.append_assoc a run t⟩

namespace Sweepable

lemma nil (req : List α) : Sweepable req [] where
  last x hx := by simp at hx
  runs run hrun _ := by
    obtain rfl := List.infix_nil.mp hrun
    exact List.nil_sublist req

/-- The first run and the element that ends it. -/
lemma append_cons_iff (hpre : ∀ y ∈ pre, y ∈ req) (hx : x ∉ req) :
    Sweepable req (pre ++ x :: post) ↔ pre.Sublist req ∧ Sweepable req post := by
  constructor
  · intro h
    refine ⟨h.runs pre List.infix_append_left hpre, fun y hy => h.last y ?_, fun run hrun =>
      h.runs run (hrun.trans ⟨pre ++ [x], [], by simp⟩)⟩
    rw [List.getLast?_append, List.getLast?_cons, hy]
    rfl
  · rintro ⟨hsub, hpost⟩
    refine ⟨fun y hy => ?_, fun run hrun hmem => ?_⟩
    · rw [List.getLast?_append, List.getLast?_cons] at hy
      cases hlast : post.getLast? with
      | none =>
          rw [hlast] at hy
          obtain rfl := Option.some.inj hy
          exact hx
      | some z =>
          rw [hlast] at hy
          obtain rfl := Option.some.inj hy
          exact hpost.last z hlast
    · rcases infix_of_infix_append_cons hrun fun h => hx (hmem x h) with hrun | hrun
      · -- a part of the first run, which the request has in this order
        exact hrun.sublist.trans hsub
      · exact hpost.runs run hrun hmem

/-- Where a list that can be swept is not empty, the first run ends. -/
lemma exists_not_mem (h : Sweepable req l) (hl : l ≠ []) : ∃ x ∈ l, x ∉ req :=
  ⟨l.getLast hl, List.getLast_mem hl, h.last _ (List.getLast?_eq_some_getLast hl)⟩

end Sweepable

end Runs
