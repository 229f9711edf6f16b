/-
# Strings of the standard library

`find` and `substr` of `std::string`, with positions of type `size_t` and `npos` for a text that is
not there, and `atoi`, which reads the digits at the beginning of a text.  Digits that are followed
by something else are read as far as they go (`atoi_of_digits`).
-/
import Mathlib.Data.List.Infix
import Mathlib.Data.List.TakeWhile
import PopCpp.Lib.CInt

namespace StdString

open CInt

/-! ### `find` -/

section

variable {α : Type} [DecidableEq α] {pre post : List α} {c : α}

/-- `std::string::npos` -/
def npos : ℕ := 2 ^ 64 - 1

/-- `s.find(sub)` -/
def find (s sub : List α) : ℕ :=
  match (List.range (s.length + 1)).find? fun i => sub.isPrefixOf (s.drop i) with
  | some i => i
  | none => npos

/-- The first place where the text stands. -/
lemma find_eq (pre sub post : List α)
    (h : ∀ i < pre.length, ¬sub <+: (pre ++ (sub ++ post)).drop i) :
    find (pre ++ (sub ++ post)) sub = pre.length := by
  have hfind : ((List.range ((pre ++ (sub ++ post)).length + 1)).find? fun i =>
      sub.isPrefixOf ((pre ++ (sub ++ post)).drop i)) = some pre.length := by
    rw [List.find?_range_eq_some]
    refine ⟨?_, ?_, fun i hi => ?_⟩
    · rw [List.drop_left, List.isPrefixOf_iff_prefix]
      exact List.prefix_append sub post
    · rw [List.mem_range, List.length_append]
      omega
    · rw [Bool.not_eq_true', ← Bool.not_eq_true, List.isPrefixOf_iff_prefix]
      exact h i hi
  rw [find, hfind]

/-- The first place of a character. -/
lemma find_singleton (h : c ∉ pre) : find (pre ++ c :: post) [c] = pre.length := by
  refine find_eq pre [c] post fun i hi hprefix => h ?_
  rw [List.drop_append_of_le_length hi.le, List.drop_eq_getElem_cons hi] at hprefix
  have hhead := (List.cons_prefix_cons.mp hprefix).1
  exact hhead ▸ List.getElem_mem hi

end

/-! ### `atoi` -/

section

variable {ds rest : List UInt8}

def isspace (c : UInt8) : Bool := decide (c = 32 ∨ 9 ≤ c.toNat ∧ c.toNat ≤ 13)

def isdigit (c : UInt8) : Bool := decide (48 ≤ c.toNat ∧ c.toNat ≤ 57)

/-- The number that the digits stand for. -/
def digitsValue (ds : List UInt8) : ℕ := ds.foldl (fun n c => 10 * n + (c.toNat - 48)) 0

/-- `strtol(s, nullptr, 10)` with a `long` of 64 bits -/
def strtol (s : List UInt8) : ℤ :=
  let s := s.dropWhile isspace
  if s.head? = some 45 then max (-2 ^ 63) (-digitsValue (s.tail.takeWhile isdigit))
  else
    min (2 ^ 63 - 1) (digitsValue ((if s.head? = some 43 then s.tail else s).takeWhile isdigit))

/-- `atoi(s)`: the lower half of what `strtol` returns. -/
def atoi (s : List UInt8) : ℤ := wrap (strtol s)

lemma isdigit_eq_true_iff {c : UInt8} : isdigit c = true ↔ 48 ≤ c.toNat ∧ c.toNat ≤ 57 :=
  decide_eq_true_iff

/-- Digits are read up to what stands behind them. -/
lemma atoi_of_digits (hne : ds ≠ []) (hds : ∀ c ∈ ds, isdigit c = true)
    (hrest : ∀ c ∈ rest.head?, isdigit c = false) :
    atoi (ds ++ rest) = wrap (min (2 ^ 63 - 1) (digitsValue ds)) := by
  obtain ⟨d, ds, rfl⟩ := List.exists_cons_of_ne_nil hne
  have hd := isdigit_eq_true_iff.mp (hds d List.mem_cons_self)
  have hspace : isspace d = false := by
    rw [isspace, decide_eq_false_iff_not]
    rintro (rfl | ⟨-, h⟩)
    · exact absurd hd.1 (by decide)
    · omega
  have hsign : ∀ c : UInt8, c.toNat < 48 → ¬(d :: ds ++ rest).head? = some c := by
    intro c hc heq
    rw [List.cons_append, List.head?_cons, Option.some_inj] at heq
    rw [heq] at hd
    omega
  have htake : (d :: ds ++ rest).takeWhile isdigit = d :: ds := by
    rw [List.takeWhile_append_of_pos hds]
    cases rest with
    | nil => exact List.append_nil _
    | cons c rest =>
        rw [List.takeWhile_cons_of_neg (by simp [hrest c rfl]), List.append_nil]
  have hdrop : (d :: ds ++ rest).dropWhile isspace = d :: ds ++ rest :=
    List.dropWhile_cons_of_neg (by simp [hspace])
  rw [atoi, strtol, hdrop]
  simp only [if_neg (hsign 45 (by decide)), if_neg (hsign 43 (by decide)), htake]

end

end StdString
