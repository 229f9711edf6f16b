/-
# Block scoping

The declarations in scope are a list, the innermost first, and an occurrence of a name refers
to the first declaration of that name.  `Resolves name Γ x` says that the name of `x`, written
where `Γ` is in scope, refers to `x` itself; the lemmas say what a further declaration does to
that.
-/
import Mathlib.Data.List.Basic

namespace Scope

variable {α ν : Type*} [DecidableEq ν] (name : α → ν)

/-- The name of `x`, written where `Γ` is in scope, refers to `x`. -/
def Resolves (Γ : List α) (x : α) : Prop := Γ.find? (fun y => name y = name x) = some x

instance [DecidableEq α] (Γ : List α) (x : α) : Decidable (Resolves name Γ x) :=
  inferInstanceAs (Decidable (_ = _))

/-- The name `n`, written where `Γ` is in scope, refers to no declaration of `Γ`. -/
def Free (Γ : List α) (n : ν) : Prop := ∀ y ∈ Γ, name y ≠ n

instance (Γ : List α) (n : ν) : Decidable (Free name Γ n) :=
  inferInstanceAs (Decidable (∀ y ∈ Γ, name y ≠ n))

variable {name} {Γ Δ : List α} {x y : α} {n : ν}

lemma Resolves.mem (h : Resolves name Γ x) : x ∈ Γ := List.mem_of_find?_eq_some h

/-- A declaration is in scope in its own initialiser. -/
lemma resolves_cons_self : Resolves name (x :: Γ) x := by
  simp [Resolves]

/-- A further declaration captures an occurrence exactly when it has its name. -/
lemma resolves_cons_iff (hne : y ≠ x) :
    Resolves name (y :: Γ) x ↔ name y ≠ name x ∧ Resolves name Γ x := by
  by_cases h : name y = name x
  · simp [Resolves, h, hne]
  · simp [Resolves, h]

/-- Declarations of other names capture nothing. -/
lemma resolves_append_iff (hΔ : ∀ y ∈ Δ, name y ≠ name x) :
    Resolves name (Δ ++ Γ) x ↔ Resolves name Γ x := by
  have hnone : Δ.find? (fun y => name y = name x) = none := by
    rw [List.find?_eq_none]
    intro y hy
    simpa using hΔ y hy
  rw [Resolves, List.find?_append, hnone, Option.none_or, Resolves]

lemma Resolves.cons (h : Resolves name Γ x) (hy : name y ≠ name x) : Resolves name (y :: Γ) x :=
  (resolves_append_iff (Δ := [y]) (by simpa using hy)).mpr h

omit [DecidableEq ν] in
lemma free_iff_notMem : Free name Γ n ↔ n ∉ Γ.map name := by
  simp only [Free, List.mem_map, not_exists, not_and]

end Scope
