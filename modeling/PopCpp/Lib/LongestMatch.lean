/-
# The longest match

A scanner has a list of rules, each with a regular expression.  On a text it takes the rule with
the longest match, and the first of them if there are several; a rule may be confined to the
beginning of a line.  An empty match counts as none.
-/
import Mathlib.Computability.RegularExpressions
import Mathlib.Data.Nat.Find

namespace LongestMatch

/-! ### Words and classes -/

section Patterns

variable {α : Type}

/-- Just this word. -/
def word (w : List α) : RegularExpression α := (w.map .char).prod

/-- One of these symbols. -/
def oneOf (l : List α) : RegularExpression α := (l.map .char).sum

/-- At least one. -/
def plus (P : RegularExpression α) : RegularExpression α := P * P.star

/-- At most one. -/
def opt (P : RegularExpression α) : RegularExpression α := P + 1

lemma mem_word {w v : List α} : v ∈ (word w).matches' ↔ v = w := by
  induction w generalizing v with
  | nil => exact Language.mem_one v
  | cons a w ih =>
      rw [word, List.map_cons, List.prod_cons, RegularExpression.matches'_mul, Language.mem_mul]
      constructor
      · rintro ⟨x, rfl, y, hy, rfl⟩
        rw [ih.mp hy]
        rfl
      · rintro rfl
        exact ⟨[a], rfl, w, ih.mpr rfl, rfl⟩

lemma mem_oneOf {l v : List α} : v ∈ (oneOf l).matches' ↔ ∃ a ∈ l, v = [a] := by
  induction l with
  | nil => simp [oneOf, Language.notMem_zero]
  | cons a l ih =>
      rw [oneOf, List.map_cons, List.sum_cons, RegularExpression.matches'_add, Language.mem_add,
        List.exists_mem_cons_iff]
      exact or_congr Iff.rfl ih

/-- Only the empty word and single symbols match. -/
def single : RegularExpression α → Bool
  | .plus P Q => single P && single Q
  | .comp _ _ => false
  | .star _ => false
  | _ => true

lemma length_le_one_of_single {P : RegularExpression α} (h : single P) {w : List α}
    (hw : w ∈ P.matches') : w.length ≤ 1 := by
  induction P with
  | zero => exact absurd hw (Language.notMem_zero w)
  | epsilon =>
      rw [(Language.mem_one w).mp hw]
      exact Nat.zero_le 1
  | char a =>
      obtain rfl : w = [a] := hw
      exact Nat.le_refl 1
  | plus P Q hP hQ =>
      obtain ⟨hsP, hsQ⟩ := Bool.and_eq_true_iff.mp h
      rcases hw with hw | hw
      · exact hP hsP hw
      · exact hQ hsQ hw
  | comp P Q => cases h
  | star P => cases h

variable [DecidableEq α]

/-- A match can begin with the symbol. -/
def begins (a : α) : RegularExpression α → Bool
  | .zero => false
  | .epsilon => false
  | .char b => decide (a = b)
  | .plus P Q => begins a P || begins a Q
  | .comp P Q => begins a P || (P.matchEpsilon && begins a Q)
  | .star P => begins a P

lemma begins_of_mem {P : RegularExpression α} {a : α} {w : List α} (h : a :: w ∈ P.matches') :
    begins a P = true := by
  induction P generalizing w with
  | zero => exact absurd h (Language.notMem_zero _)
  | epsilon => exact absurd ((Language.mem_one _).mp h) (List.cons_ne_nil a w)
  | char b =>
      obtain ⟨rfl, -⟩ := List.cons.inj (h : a :: w = [b])
      exact decide_eq_true rfl
  | plus P Q hP hQ =>
      rw [begins, Bool.or_eq_true_iff]
      exact Or.imp hP hQ h
  | comp P Q hP hQ =>
      rw [begins, Bool.or_eq_true_iff, Bool.and_eq_true_iff]
      obtain ⟨x, hx, y, hy, hxy⟩ := Language.mem_mul.mp h
      cases x with
      | nil =>
          have hepsilon : P.rmatch [] = true := (P.rmatch_iff_matches' []).mpr hx
          obtain rfl : y = a :: w := hxy
          exact .inr ⟨hepsilon, hQ hy⟩
      | cons b x =>
          obtain ⟨rfl, -⟩ := List.cons.inj hxy
          exact .inl (hP hx)
  | star P hP =>
      obtain ⟨L, hL, hmem⟩ := Language.mem_kstar_iff_exists_nonempty.mp h
      cases L with
      | nil => cases hL
      | cons x L =>
          obtain ⟨hx, hne⟩ := hmem x List.mem_cons_self
          cases x with
          | nil => exact absurd rfl hne
          | cons b x =>
              obtain ⟨rfl, -⟩ := List.cons.inj hL
              exact hP hx

end Patterns

/-! ### The longest match of a pattern -/

section Longest

variable {α : Type} [DecidableEq α] {P : RegularExpression α} {s : List α} {n : ℕ}

/-- The length of the longest match at the beginning of the text, 0 if there is none. -/
def longest (P : RegularExpression α) (s : List α) : ℕ :=
  Nat.findGreatest (fun n => s.take n ∈ P.matches') s.length

lemma longest_eq_iff (hn : 0 < n) :
    longest P s = n ↔ n ≤ s.length ∧ s.take n ∈ P.matches' ∧
      ∀ m, n < m → m ≤ s.length → s.take m ∉ P.matches' := by
  rw [longest, Nat.findGreatest_eq_iff]
  exact and_congr_right fun _ => and_congr_left fun _ => forall_prop_of_true hn.ne'

lemma take_longest_mem (h : 0 < longest P s) : s.take (longest P s) ∈ P.matches' :=
  ((longest_eq_iff h).mp rfl).2.1

lemma longest_le_length : longest P s ≤ s.length := Nat.findGreatest_le _

lemma longest_eq_zero_of_begins {a : α} (h : begins a P = false) : longest P (a :: s) = 0 := by
  by_contra hne
  have hmem := take_longest_mem (Nat.pos_of_ne_zero hne)
  obtain ⟨n, hn⟩ := Nat.exists_eq_succ_of_ne_zero hne
  rw [hn, List.take_succ_cons] at hmem
  rw [begins_of_mem hmem] at h
  cases h

lemma longest_le_one_of_single (h : single P) : longest P s ≤ 1 := by
  rcases Nat.eq_zero_or_pos (longest P s) with hzero | hpos
  · rw [hzero]
    exact Nat.zero_le 1
  · have hlen := length_le_one_of_single h (take_longest_mem hpos)
    rwa [List.length_take_of_le longest_le_length] at hlen

end Longest

/-! ### The choice of a rule -/

section Rules

/-- A rule of a scanner. -/
structure Rule (α τ : Type) where
  pattern : RegularExpression α
  atLineStart : Bool := false
  action : τ

variable {α τ : Type} [DecidableEq α]

/-- How far the rule reaches. -/
def Rule.reach (lineStart : Bool) (s : List α) (r : Rule α τ) : ℕ :=
  if r.atLineStart && !lineStart then 0 else longest r.pattern s

/-- The action of the first rule with the longest match, and how long the match is. -/
def select (lineStart : Bool) (s : List α) : List (Rule α τ) → Option (τ × ℕ)
  | [] => none
  | r :: rules =>
      let n := r.reach lineStart s
      match select lineStart s rules with
      | none => if n = 0 then none else some (r.action, n)
      | some (t, m) => if m ≤ n then some (r.action, n) else some (t, m)

/-- The action, the text of the match, and the text after it. -/
def next (rules : List (Rule α τ)) (lineStart : Bool) (s : List α) :
    Option (τ × List α × List α) :=
  (select lineStart s rules).map fun (t, n) => (t, s.take n, s.drop n)

variable {lineStart : Bool} {s : List α} {rules : List (Rule α τ)}

lemma reach_le_length (r : Rule α τ) : r.reach lineStart s ≤ s.length := by
  unfold Rule.reach
  split_ifs
  · exact Nat.zero_le _
  · exact longest_le_length

lemma reach_le_longest (r : Rule α τ) : r.reach lineStart s ≤ longest r.pattern s := by
  unfold Rule.reach
  split_ifs
  · exact Nat.zero_le _
  · exact Nat.le_refl _

lemma select_eq_none : ∀ {rules : List (Rule α τ)}, select lineStart s rules = none →
    ∀ r ∈ rules, r.reach lineStart s = 0
  | [], _, _, hr => absurd hr List.not_mem_nil
  | r :: rules, h, r', hr' => by
    rw [select] at h
    cases hrest : select lineStart s rules with
    | none =>
        simp only [hrest] at h
        split_ifs at h with hn
        rcases List.mem_cons.mp hr' with rfl | hr'
        · exact hn
        · exact select_eq_none hrest r' hr'
    | some p =>
        simp only [hrest] at h
        split_ifs at h

/-- A rule is selected that reaches furthest. -/
lemma exists_of_select : ∀ {rules : List (Rule α τ)} {t : τ} {n : ℕ},
    select lineStart s rules = some (t, n) →
      0 < n ∧ (∃ r ∈ rules, r.action = t ∧ r.reach lineStart s = n) ∧
        ∀ r ∈ rules, r.reach lineStart s ≤ n
  | r :: rules, t, n, h => by
    rw [select] at h
    cases hrest : select lineStart s rules with
    | none =>
        simp only [hrest] at h
        split_ifs at h with hn
        obtain ⟨rfl, rfl⟩ := Prod.mk.inj (Option.some.inj h)
        refine ⟨Nat.pos_of_ne_zero hn, ⟨r, List.mem_cons_self, rfl, rfl⟩, fun r' hr' => ?_⟩
        rcases List.mem_cons.mp hr' with rfl | hr'
        · exact Nat.le_refl _
        · rw [select_eq_none hrest r' hr']
          exact Nat.zero_le _
    | some p =>
        obtain ⟨t', m⟩ := p
        obtain ⟨hpos, ⟨r', hr', hact, hreach⟩, hmax⟩ := exists_of_select hrest
        simp only [hrest] at h
        split_ifs at h with hle
        · obtain ⟨rfl, rfl⟩ := Prod.mk.inj (Option.some.inj h)
          refine ⟨hpos.trans_le hle, ⟨r, List.mem_cons_self, rfl, rfl⟩, fun r'' hr'' => ?_⟩
          rcases List.mem_cons.mp hr'' with rfl | hr''
          · exact Nat.le_refl _
          · exact (hmax r'' hr'').trans hle
        · obtain ⟨rfl, rfl⟩ := Prod.mk.inj (Option.some.inj h)
          refine ⟨hpos, ⟨r', List.mem_cons_of_mem _ hr', hact, hreach⟩, fun r'' hr'' => ?_⟩
          rcases List.mem_cons.mp hr'' with rfl | hr''
          · exact (not_le.mp hle).le
          · exact hmax r'' hr''

/-- A rule that reaches further than all rules with another action is selected. -/
lemma select_eq_some {r : Rule α τ} (hr : r ∈ rules) (hpos : 0 < r.reach lineStart s)
    (hothers : ∀ r' ∈ rules, r' = r ∨ r'.reach lineStart s < r.reach lineStart s) :
    select lineStart s rules = some (r.action, r.reach lineStart s) := by
  cases h : select lineStart s rules with
  | none => exact absurd (select_eq_none h r hr) hpos.ne'
  | some p =>
      obtain ⟨t, n⟩ := p
      obtain ⟨-, ⟨r', hr', rfl, rfl⟩, hmax⟩ := exists_of_select h
      rcases hothers r' hr' with rfl | hlt
      · rfl
      · exact absurd (hmax r hr) hlt.not_ge

end Rules

end LongestMatch
