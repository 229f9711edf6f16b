/-
# Wildcards

A pattern is a list of tokens: a letter, any one letter, or any word.  `Matches` says which words
a pattern matches as a whole.  A token for one letter takes the first letter of the word; what is
behind a token for any word matches some end of the word (`matches_many_iff`), so trying every end
decides the relation (`matchesB`).
-/
import Mathlib.Data.List.Basic
import Mathlib.Data.List.Infix

namespace Wildcard

/-- What a pattern is made of. -/
inductive Token (α : Type*) where
  | char (a : α)
  | any
  | many
deriving DecidableEq, Repr

variable {α : Type*}

/-- The token is one for a letter, and this is such a letter. -/
def Token.Fits : Token α → α → Prop
  | .char b, a => a = b
  | .any, _ => True
  | .many, _ => False

instance [DecidableEq α] : (t : Token α) → (a : α) → Decidable (t.Fits a)
  | .char b, a => inferInstanceAs (Decidable (a = b))
  | .any, _ => inferInstanceAs (Decidable True)
  | .many, _ => inferInstanceAs (Decidable False)

@[simp] lemma Token.fits_char {a b : α} : (Token.char b).Fits a ↔ a = b := Iff.rfl

@[simp] lemma Token.fits_any {a : α} : (Token.any : Token α).Fits a := trivial

@[simp] lemma Token.not_fits_many {a : α} : ¬(Token.many : Token α).Fits a := id

/-- The pattern matches the whole word. -/
inductive Matches : List (Token α) → List α → Prop
  | nil : Matches [] []
  | one {t : Token α} {a : α} {p : List (Token α)} {s : List α} (ht : t.Fits a) (h : Matches p s) :
      Matches (t :: p) (a :: s)
  | stop {p : List (Token α)} {s : List α} (h : Matches p s) : Matches (.many :: p) s
  | more {a : α} {p : List (Token α)} {s : List α} (h : Matches (.many :: p) s) :
      Matches (.many :: p) (a :: s)

variable {p q : List (Token α)} {s : List α} {t : Token α}

@[simp] lemma matches_nil_iff : Matches [] s ↔ s = [] := by
  constructor
  · intro h
    cases h
    rfl
  · rintro rfl
    exact .nil

lemma matches_cons_iff (ht : t ≠ .many) :
    Matches (t :: p) s ↔ ∃ a s', s = a :: s' ∧ t.Fits a ∧ Matches p s' := by
  constructor
  · intro h
    cases h with
    | one hfits h => exact ⟨_, _, rfl, hfits, h⟩
    | stop => exact absurd rfl ht
    | more => exact absurd rfl ht
  · rintro ⟨a, s', rfl, hfits, h⟩
    exact .one hfits h

/-- A letter of the word, where the pattern starts with a token for one. -/
lemma matches_cons_cons_iff (ht : t ≠ .many) {a : α} :
    Matches (t :: p) (a :: s) ↔ t.Fits a ∧ Matches p s := by
  rw [matches_cons_iff ht]
  constructor
  · rintro ⟨b, s', heq, hfits, h⟩
    obtain ⟨rfl, rfl⟩ := List.cons.inj heq
    exact ⟨hfits, h⟩
  · rintro ⟨hfits, h⟩
    exact ⟨a, s, rfl, hfits, h⟩

lemma Matches.many_append (u : List α) (h : Matches p s) : Matches (.many :: p) (u ++ s) := by
  induction u with
  | nil => exact .stop h
  | cons a u ih => exact .more ih

lemma Matches.append {v : List α} (h : Matches p s) (h' : Matches q v) :
    Matches (p ++ q) (s ++ v) := by
  induction h with
  | nil => exact h'
  | one hfits _ ih => exact .one hfits ih
  | stop _ ih => exact .stop ih
  | more _ ih => exact .more ih

/-- A token for any word: what is behind it matches an end of the word. -/
lemma matches_many_iff : Matches (.many :: p) s ↔ ∃ u v, s = u ++ v ∧ Matches p v := by
  constructor
  · intro h
    generalize hq : Token.many :: p = q at h
    induction h with
    | nil => cases hq
    | one hfits _ =>
        cases hq
        exact absurd hfits Token.not_fits_many
    | @stop p' s h =>
        cases hq
        exact ⟨[], s, rfl, h⟩
    | @more a p' s _ ih =>
        obtain ⟨u, v, rfl, hv⟩ := ih hq
        exact ⟨a :: u, v, rfl, hv⟩
  · rintro ⟨u, v, rfl, hv⟩
    exact hv.many_append u

/-- One letter and the rest, behind a token for any word. -/
lemma matches_many_cons_iff (ht : t ≠ .many) : Matches (.many :: t :: p) s ↔
    ∃ u a v, s = u ++ a :: v ∧ t.Fits a ∧ Matches p v := by
  rw [matches_many_iff]
  constructor
  · rintro ⟨u, v, rfl, hv⟩
    obtain ⟨a, v', rfl, hfits, hv'⟩ := (matches_cons_iff ht).mp hv
    exact ⟨u, a, v', rfl, hfits, hv'⟩
  · rintro ⟨u, a, v, rfl, hfits, hv⟩
    exact ⟨u, a :: v, rfl, .one hfits hv⟩

@[simp] lemma matches_many_singleton : Matches [.many] s := by
  rw [← List.append_nil s]
  exact Matches.nil.many_append s

/-- Any word that is not empty. -/
lemma matches_many_any_iff : Matches [.many, .any] s ↔ s ≠ [] := by
  rw [matches_many_cons_iff (by simp)]
  constructor
  · rintro ⟨u, a, v, rfl, -, -⟩
    simp
  · intro hs
    exact ⟨s.dropLast, s.getLast hs, [], (List.dropLast_concat_getLast hs).symm, trivial, .nil⟩

/-- Two tokens for any word are as good as one. -/
lemma matches_many_many_iff : Matches (.many :: .many :: p) s ↔ Matches (.many :: p) s := by
  constructor
  · intro h
    obtain ⟨u, v, rfl, hv⟩ := matches_many_iff.mp h
    obtain ⟨u', v', rfl, hv'⟩ := matches_many_iff.mp hv
    rw [← List.append_assoc]
    exact hv'.many_append _
  · exact .stop

lemma matches_replicate_many_append_iff (k : ℕ) :
    Matches (List.replicate (k + 1) .many ++ p) s ↔ Matches (.many :: p) s := by
  induction k with
  | zero => rfl
  | succ k ih =>
      rw [List.replicate_succ, List.replicate_succ, List.cons_append, List.cons_append,
        matches_many_many_iff]
      exact ih

/-- Only the tokens for any word match the empty word. -/
lemma matches_nil_right_iff : Matches p [] ↔ ∀ t ∈ p, t = .many := by
  induction p with
  | nil => simp
  | cons t p ih =>
      rw [List.forall_mem_cons, ← ih]
      constructor
      · intro h
        cases h with
        | stop h => exact ⟨rfl, h⟩
      · rintro ⟨rfl, h⟩
        exact .stop h

/-- Every word is matched by itself. -/
lemma matches_of_forall₂ (h : List.Forall₂ (fun t a => t = .many ∨ t.Fits a) p s) :
    Matches p s := by
  induction h with
  | nil => exact .nil
  | cons ht _ ih =>
      rcases ht with rfl | hfits
      · exact .more (.stop ih)
      · exact .one hfits ih

/-- A token for any word at the end has no need of a last letter. -/
lemma matches_of_append_any (h : Matches (p ++ [.many, .any]) s) : Matches (p ++ [.many]) s := by
  induction p generalizing s with
  | nil => exact matches_many_singleton
  | cons t p ih =>
      generalize hq : t :: p ++ [.many, .any] = q at h
      induction h with
      | nil => cases hq
      | one hfits h =>
          obtain ⟨rfl, rfl⟩ := List.cons.inj hq
          exact .one hfits (ih h)
      | stop h =>
          obtain ⟨rfl, rfl⟩ := List.cons.inj hq
          exact .stop (ih h)
      | more _ ih' =>
          obtain ⟨rfl, -⟩ := List.cons.inj hq
          exact .more (ih' hq)

/-! ### Deciding it -/

/-- Every end of the word is tried. -/
def matchesB [DecidableEq α] : List (Token α) → List α → Bool
  | [], s => s.isEmpty
  | .many :: p, s => s.tails.any (matchesB p)
  | t :: p, a :: s => decide (t.Fits a) && matchesB p s
  | _ :: _, [] => false

lemma matchesB_iff [DecidableEq α] : matchesB p s = true ↔ Matches p s := by
  induction p generalizing s with
  | nil => rw [matchesB, List.isEmpty_iff, matches_nil_iff]
  | cons t p ih =>
      by_cases ht : t = .many
      · subst ht
        rw [matchesB, List.any_eq_true, matches_many_iff]
        constructor
        · rintro ⟨v, hv, h⟩
          obtain ⟨u, rfl⟩ := (List.mem_tails _ _).mp hv
          exact ⟨u, v, rfl, ih.mp h⟩
        · rintro ⟨u, v, rfl, h⟩
          exact ⟨v, (List.mem_tails _ _).mpr (List.suffix_append u v), ih.mpr h⟩
      · cases s with
        | nil =>
            rw [matchesB, matches_nil_right_iff, List.forall_mem_cons]
            · simp [ht]
            · exact ht
        | cons a s =>
            rw [matchesB, matches_cons_cons_iff ht, Bool.and_eq_true, decide_eq_true_eq, ih]
            exact ht

instance [DecidableEq α] (p : List (Token α)) (s : List α) : Decidable (Matches p s) :=
  decidable_of_iff (matchesB p s = true) matchesB_iff

end Wildcard
