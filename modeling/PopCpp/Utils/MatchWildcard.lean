/-
# Matching with wildcards

`MatchWildcard` compares a string with a pattern of letters, `?` and `*`.  It walks over the common
part in front of the first `*`, and then tries every place where the letter behind the stars
occurs, with a call of itself on what is behind that letter.  Each call begins with the test that
neither text is empty, so a call on an empty end of the string fails, also where only stars are
left of the pattern.  A pattern loses its last stars in this way exactly if they stand behind a
single letter with a star in front of it (`LoneEnd`): then the last stars want a letter.
-/
import PopCpp.Buffer.RoundTrip
import PopCpp.Lib.Wildcard

namespace PopCpp.Utils

open Buffer Wildcard

/-- The bytes of a `std::string`. -/
abbrev Str := List UInt8

/-- `'*'` -/
def star : UInt8 := 42

/-- `'?'` -/
def question : UInt8 := 63

lemma notMem_cut (s : Str) : 0 ∉ cut s := fun h => by simpa using List.mem_takeWhile_imp h

/-! ### `MatchWildcard` -/

/-- The loop over the common part: what is left of `pstr` and `pwil`. -/
def skipCommon : Str → Str → Str × Str
  | c :: pstr, w :: pwil =>
      if (c = w ∨ w = question) ∧ w ≠ star then skipCommon pstr pwil else (c :: pstr, w :: pwil)
  | pstr, pwil => (pstr, pwil)

/-- The loop over `t`: a letter that fits, and a call on what is behind it. -/
def tryFrom (call : Str → Bool) (w : UInt8) : Str → Bool
  | [] => false
  | c :: t => (decide (c = w ∨ w = question) && call t) || tryFrom call w t

lemma suffix_skipCommon (pstr pwil : Str) :
    (skipCommon pstr pwil).1 <:+ pstr ∧ (skipCommon pstr pwil).2 <:+ pwil := by
  fun_induction skipCommon pstr pwil with
  | case1 c pstr w pwil hfits ih =>
      exact ⟨ih.1.trans (List.suffix_cons c pstr), ih.2.trans (List.suffix_cons w pwil)⟩
  | case2 => exact ⟨List.suffix_rfl, List.suffix_rfl⟩
  | case3 => exact ⟨List.suffix_rfl, List.suffix_rfl⟩

lemma length_lt_of_skipCommon {str wildcard pstr pwil rest : Str} {w w' : UInt8}
    (hskip : skipCommon (cut str) (cut wildcard) = (pstr, w :: pwil))
    (hdrop : pwil.dropWhile (· == star) = w' :: rest) : rest.length < wildcard.length := by
  have hpwil := (suffix_skipCommon (cut str) (cut wildcard)).2.length_le
  have hcut : (cut wildcard).length ≤ wildcard.length := (List.takeWhile_prefix _).length_le
  have hstars := (List.dropWhile_suffix (· == star) (l := pwil)).length_le
  rw [hskip, List.length_cons] at hpwil
  rw [hdrop, List.length_cons] at hstars
  omega

/-- `pop_utils::MatchWildcard` -/
def matchWildcard (str wildcard : Str) : Bool :=
  if str = wildcard then true
  else if str = [] ∨ wildcard = [] then false
  else
    match _ : skipCommon (cut str) (cut wildcard) with
    | (pstr, []) => pstr.isEmpty
    | (pstr, w :: pwil) =>
        if w ≠ star then false
        else
          match _ : pwil.dropWhile (· == star) with
          | [] => true
          | w' :: rest => tryFrom (fun t => matchWildcard t rest) w' pstr
termination_by wildcard.length
decreasing_by exact length_lt_of_skipCommon ‹_› ‹_›

/-! ### Patterns -/

/-- What a character of a pattern stands for. -/
def token (w : UInt8) : Token UInt8 :=
  if w = star then .many else if w = question then .any else .char w

def tokens (wildcard : Str) : List (Token UInt8) := wildcard.map token

/-- The pattern matches the string as a whole. -/
def Globs (wildcard str : Str) : Prop := Matches (tokens wildcard) str

instance (wildcard str : Str) : Decidable (Globs wildcard str) :=
  inferInstanceAs (Decidable (Matches _ _))

/-- The pattern ends in stars, behind a single letter that has a star in front of it. -/
def LoneEnd (wildcard : Str) : Prop :=
  ∃ c k, c ≠ star ∧ star :: c :: List.replicate (k + 1) star <:+ wildcard

/-- The pattern matches the string, and has a letter left for its last stars where the function
wants one. -/
def Satisfied (wildcard str : Str) : Prop :=
  Globs wildcard str ∧ (LoneEnd wildcard → Matches (tokens wildcard ++ [.any]) str)

section

variable {c w : UInt8} {pstr pwil rest s p : Str} {k : ℕ}

lemma token_star : token star = .many := if_pos rfl

lemma token_ne_many (hw : w ≠ star) : token w ≠ .many := by
  rw [token, if_neg hw]
  split_ifs <;> simp

lemma fits_token_iff (hw : w ≠ star) : (token w).Fits c ↔ c = w ∨ w = question := by
  rw [token, if_neg hw]
  split_ifs with hq
  · simp [hq]
  · simp [hq]

lemma tokens_replicate_star : tokens (List.replicate k star) = List.replicate k .many := by
  rw [tokens, List.map_replicate, token_star]

/-- A pattern matches its own text. -/
lemma globs_self (p : Str) : Globs p p := by
  refine matches_of_forall₂ ?_
  rw [tokens, List.forall₂_map_left_iff, List.forall₂_same]
  intro c _
  rcases eq_or_ne c star with rfl | hc
  · exact .inl token_star
  · exact .inr ((fits_token_iff hc).mpr (.inl rfl))

lemma loneEnd_cons_iff : LoneEnd (w :: p) ↔
    (w = star ∧ ∃ c k, c ≠ star ∧ p = c :: List.replicate (k + 1) star) ∨ LoneEnd p := by
  constructor
  · rintro ⟨c, k, hc, hend⟩
    rcases List.suffix_cons_iff.mp hend with heq | hend
    · obtain ⟨rfl, rfl⟩ := List.cons.inj heq
      exact .inl ⟨rfl, c, k, hc, rfl⟩
    · exact .inr ⟨c, k, hc, hend⟩
  · rintro (⟨rfl, c, k, hc, rfl⟩ | ⟨c, k, hc, hend⟩)
    · exact ⟨c, k, hc, List.suffix_rfl⟩
    · exact ⟨c, k, hc, hend.trans (List.suffix_cons w p)⟩

lemma loneEnd_cons (hw : w ≠ star) : LoneEnd (w :: p) ↔ LoneEnd p := by
  rw [loneEnd_cons_iff]
  exact or_iff_right fun h => hw h.1

lemma not_loneEnd_nil : ¬LoneEnd [] := by
  rintro ⟨c, k, -, hend⟩
  exact absurd (List.suffix_nil.mp hend) (by simp)

lemma not_loneEnd_stars : ¬LoneEnd (List.replicate k star) := by
  rintro ⟨c, m, hc, hend⟩
  exact hc (List.eq_of_mem_replicate (hend.subset (by simp)))

/-- Stars, a letter, and then not just stars: it is the end behind the letter that counts. -/
lemma loneEnd_stars_iff (hw : w ≠ star) (hrest : ∀ j, rest ≠ List.replicate (j + 1) star) :
    LoneEnd (List.replicate k star ++ w :: rest) ↔ LoneEnd rest := by
  induction k with
  | zero => exact loneEnd_cons hw
  | succ k ih =>
      rw [List.replicate_succ, List.cons_append, loneEnd_cons_iff, ih]
      refine or_iff_right ?_
      rintro ⟨-, c, m, hc, heq⟩
      cases k with
      | zero => exact hrest m (List.cons.inj heq).2
      | succ k => exact hc (List.cons.inj heq).1.symm

lemma LoneEnd.exists_append (h : LoneEnd p) : ∃ q, p = q ++ [star] := by
  obtain ⟨c, k, -, q, rfl⟩ := h
  refine ⟨q ++ star :: c :: List.replicate k star, ?_⟩
  rw [List.replicate_succ', List.append_assoc]
  rfl

lemma tokens_append_star (q : Str) : tokens (q ++ [star]) = tokens q ++ [.many] := by
  rw [tokens, List.map_append, List.map_singleton, token_star, tokens]

/-- A pattern that ends in a star is no easier to match with a letter more. -/
lemma LoneEnd.globs (h : LoneEnd p) (hs : Matches (tokens p ++ [.any]) s) : Globs p s := by
  obtain ⟨q, rfl⟩ := h.exists_append
  rw [tokens_append_star, List.append_assoc] at hs
  rw [Globs, tokens_append_star]
  exact matches_of_append_any hs

/-- The text of a pattern has its last star as the letter that is wanted. -/
lemma satisfied_self (p : Str) : Satisfied p p := by
  refine ⟨globs_self p, fun h => ?_⟩
  obtain ⟨q, rfl⟩ := h.exists_append
  rw [tokens_append_star, List.append_assoc]
  exact (globs_self q).append (matches_many_any_iff.mpr (by simp))

/-! ### One step of the pattern -/

lemma satisfied_nil_iff : Satisfied [] s ↔ s = [] := by
  rw [Satisfied, and_iff_left fun h => absurd h not_loneEnd_nil]
  exact matches_nil_iff

/-- The common part. -/
lemma satisfied_cons_cons_iff (hw : w ≠ star) (hfits : c = w ∨ w = question) :
    Satisfied (w :: p) (c :: s) ↔ Satisfied p s := by
  have hone : ∀ q, Matches (token w :: q) (c :: s) ↔ Matches q s := fun q =>
    (matches_cons_cons_iff (token_ne_many hw)).trans
      (and_iff_right ((fits_token_iff hw).mpr hfits))
  rw [Satisfied, Satisfied, loneEnd_cons hw]
  exact and_congr (hone _) (imp_congr Iff.rfl (hone _))

/-- A letter that is not there. -/
lemma not_satisfied_cons_cons (hw : w ≠ star) (hfits : ¬(c = w ∨ w = question)) :
    ¬Satisfied (w :: p) (c :: s) := by
  rintro ⟨hglobs, -⟩
  obtain ⟨hc, -⟩ := (matches_cons_cons_iff (token_ne_many hw)).mp hglobs
  exact hfits ((fits_token_iff hw).mp hc)

lemma not_satisfied_cons_nil (hw : w ≠ star) : ¬Satisfied (w :: p) [] := by
  rintro ⟨hglobs, -⟩
  exact token_ne_many hw (matches_nil_right_iff.mp hglobs _ List.mem_cons_self)

lemma globs_stars : Globs (List.replicate (k + 1) star) s := by
  rw [Globs, tokens_replicate_star, ← List.append_nil (List.replicate (k + 1) Token.many),
    matches_replicate_many_append_iff]
  exact matches_many_singleton

lemma satisfied_stars : Satisfied (List.replicate (k + 1) star) s :=
  ⟨globs_stars, fun h => absurd h not_loneEnd_stars⟩

/-- Behind stars, a letter that fits is looked for everywhere. -/
lemma matches_stars_iff (hw : w ≠ star) (q : List (Token UInt8)) :
    Matches (List.replicate (k + 1) .many ++ token w :: q) s ↔
      ∃ a c t, s = a ++ c :: t ∧ (c = w ∨ w = question) ∧ Matches q t := by
  rw [matches_replicate_many_append_iff, matches_many_cons_iff (token_ne_many hw)]
  simp only [fits_token_iff hw]

lemma tokens_stars_append (k : ℕ) (w : UInt8) (rest : Str) :
    tokens (List.replicate (k + 1) star ++ w :: rest) =
      List.replicate (k + 1) .many ++ token w :: tokens rest := by
  rw [tokens, List.map_append, List.map_cons, List.map_replicate, token_star, tokens]

lemma globs_stars_append_iff (hw : w ≠ star) :
    Globs (List.replicate (k + 1) star ++ w :: rest) s ↔
      ∃ a c t, s = a ++ c :: t ∧ (c = w ∨ w = question) ∧ Globs rest t := by
  rw [Globs, tokens_stars_append, matches_stars_iff hw]
  rfl

lemma matches_stars_append_any_iff (hw : w ≠ star) :
    Matches (tokens (List.replicate (k + 1) star ++ w :: rest) ++ [.any]) s ↔
      ∃ a c t, s = a ++ c :: t ∧ (c = w ∨ w = question) ∧ Matches (tokens rest ++ [.any]) t := by
  rw [tokens_stars_append, List.append_assoc, List.cons_append, matches_stars_iff hw]

/-- The letter is the lone one, and the last stars want a letter. -/
lemma satisfied_stars_append_stars_iff {j : ℕ} (hw : w ≠ star) :
    Satisfied (List.replicate (k + 1) star ++ w :: List.replicate (j + 1) star) s ↔
      ∃ a c t, s = a ++ c :: t ∧ (c = w ∨ w = question) ∧ t ≠ [] := by
  have hlone : LoneEnd (List.replicate (k + 1) star ++ w :: List.replicate (j + 1) star) := by
    refine ⟨w, j, hw, List.replicate k star, ?_⟩
    rw [show List.replicate (k + 1) star = List.replicate k star ++ [star] from
      List.replicate_succ', List.append_assoc]
    rfl
  have hany : ∀ t, Matches (tokens (List.replicate (j + 1) star) ++ [.any]) t ↔ t ≠ [] := by
    intro t
    rw [tokens_replicate_star, matches_replicate_many_append_iff, matches_many_any_iff]
  rw [Satisfied, globs_stars_append_iff hw, matches_stars_append_any_iff hw]
  simp only [hany, hlone, true_imp_iff]
  refine ⟨And.right, fun h => ⟨?_, h⟩⟩
  obtain ⟨a, c, t, rfl, hfits, -⟩ := h
  exact ⟨a, c, t, rfl, hfits, globs_stars⟩

/-- A pattern that matches the empty text has stars only. -/
lemma eq_nil_of_globs_nil (hglobs : Globs rest [])
    (hstars : ∀ j, rest ≠ List.replicate (j + 1) star) : rest = [] := by
  have hall : ∀ x ∈ rest, x = star := by
    intro x hx
    by_contra hne
    exact token_ne_many hne (matches_nil_right_iff.mp hglobs _ (List.mem_map_of_mem hx))
  rcases rest.eq_nil_or_concat with rfl | ⟨l, x, rfl⟩
  · rfl
  · exact absurd (by simpa using List.eq_replicate_of_mem hall) (hstars l.length)

/-- Behind the letter it is the rest of the pattern that counts. -/
lemma satisfied_stars_append_of_ne (hw : w ≠ star)
    (hstars : ∀ j, rest ≠ List.replicate (j + 1) star) :
    Satisfied (List.replicate (k + 1) star ++ w :: rest) s ↔
      ∃ a c t, s = a ++ c :: t ∧ (c = w ∨ w = question) ∧ Satisfied rest t := by
  rw [Satisfied, globs_stars_append_iff hw, matches_stars_append_any_iff hw,
    loneEnd_stars_iff hw hstars]
  by_cases hlone : LoneEnd rest
  · constructor
    · rintro ⟨-, hend⟩
      obtain ⟨a, c, t, rfl, hfits, ht⟩ := hend hlone
      exact ⟨a, c, t, rfl, hfits, hlone.globs ht, fun _ => ht⟩
    · rintro ⟨a, c, t, rfl, hfits, hglobs, hend⟩
      exact ⟨⟨a, c, t, rfl, hfits, hglobs⟩, fun _ => ⟨a, c, t, rfl, hfits, hend hlone⟩⟩
  · constructor
    · rintro ⟨⟨a, c, t, rfl, hfits, hglobs⟩, -⟩
      exact ⟨a, c, t, rfl, hfits, hglobs, fun h => absurd h hlone⟩
    · rintro ⟨a, c, t, rfl, hfits, hglobs, -⟩
      exact ⟨⟨a, c, t, rfl, hfits, hglobs⟩, fun h => absurd h hlone⟩

/-- **Stars in front of a letter.**  The end behind the letter must not be empty unless the
pattern ends there as well. -/
lemma satisfied_stars_append_iff (hw : w ≠ star) :
    Satisfied (List.replicate (k + 1) star ++ w :: rest) s ↔
      ∃ a c t, s = a ++ c :: t ∧ (c = w ∨ w = question) ∧ (t = [] → rest = []) ∧
        Satisfied rest t := by
  by_cases hstars : ∃ j, rest = List.replicate (j + 1) star
  · obtain ⟨j, rfl⟩ := hstars
    rw [satisfied_stars_append_stars_iff hw]
    refine exists_congr fun a => exists_congr fun c => exists_congr fun t =>
      and_congr_right fun _ => and_congr_right fun _ => ?_
    rw [and_iff_left satisfied_stars]
    exact imp_congr_right fun _ => (iff_false_intro (by simp)).symm
  · have hne : ∀ j, rest ≠ List.replicate (j + 1) star := fun j hj => hstars ⟨j, hj⟩
    rw [satisfied_stars_append_of_ne hw hne]
    refine exists_congr fun a => exists_congr fun c => exists_congr fun t =>
      and_congr_right fun _ => and_congr_right fun _ => (and_iff_right_of_imp ?_).symm
    -- an empty end is matched by an empty pattern only
    rintro ⟨hglobs, -⟩ rfl
    exact eq_nil_of_globs_nil hglobs hne

/-! ### What the function returns -/

lemma tryFrom_eq_true_iff {call : Str → Bool} : tryFrom call w s = true ↔
    ∃ a c t, s = a ++ c :: t ∧ (c = w ∨ w = question) ∧ call t = true := by
  induction s with
  | nil => simp [tryFrom]
  | cons d s ih =>
      rw [tryFrom, Bool.or_eq_true, Bool.and_eq_true, decide_eq_true_eq, ih]
      constructor
      · rintro (⟨hfits, hcall⟩ | ⟨a, c, t, rfl, hfits, hcall⟩)
        · exact ⟨[], d, s, rfl, hfits, hcall⟩
        · exact ⟨d :: a, c, t, rfl, hfits, hcall⟩
      · rintro ⟨a, c, t, heq, hfits, hcall⟩
        cases a with
        | nil =>
            obtain ⟨rfl, rfl⟩ := List.cons.inj heq
            exact .inl ⟨hfits, hcall⟩
        | cons b a =>
            obtain ⟨rfl, rfl⟩ := List.cons.inj heq
            exact .inr ⟨a, c, t, rfl, hfits, hcall⟩

/-- The loop over the common part changes nothing. -/
lemma satisfied_skipCommon (pstr pwil : Str) :
    Satisfied (skipCommon pstr pwil).2 (skipCommon pstr pwil).1 ↔ Satisfied pwil pstr := by
  fun_induction skipCommon pstr pwil with
  | case1 c pstr w pwil hfits ih => exact ih.trans (satisfied_cons_cons_iff hfits.2 hfits.1).symm
  | case2 => rfl
  | case3 => rfl

/-- Where it stops before a letter, that letter is not there. -/
lemma not_satisfied_of_skipCommon {pstr' pwil' : Str} (hw : w ≠ star)
    (hskip : skipCommon pstr pwil = (pstr', w :: pwil')) : ¬Satisfied (w :: pwil') pstr' := by
  fun_induction skipCommon pstr pwil with
  | case1 c pstr w pwil hfits ih => exact ih hskip
  | case2 c pstr w pwil hfits =>
      obtain ⟨rfl, hpwil⟩ := Prod.mk.inj hskip
      obtain ⟨rfl, rfl⟩ := List.cons.inj hpwil
      exact not_satisfied_cons_cons hw fun h => hfits ⟨h, hw⟩
  | case3 pstr pwil hnil =>
      obtain ⟨rfl, rfl⟩ := Prod.mk.inj hskip
      cases pstr with
      | nil => exact not_satisfied_cons_nil hw
      | cons c pstr => exact (hnil c pstr w pwil' rfl rfl).elim

/-- What the loop over the stars leaves. -/
lemma exists_eq_stars_append (pwil : Str) : ∃ k, pwil =
    List.replicate k star ++ pwil.dropWhile (· == star) ∧
      ∀ w rest, pwil.dropWhile (· == star) = w :: rest → w ≠ star := by
  induction pwil with
  | nil => exact ⟨0, rfl, by simp⟩
  | cons c pwil ih =>
      by_cases hc : c = star
      · subst hc
        obtain ⟨k, hpwil, hhead⟩ := ih
        rw [List.dropWhile_cons_of_pos (by simp)]
        refine ⟨k + 1, ?_, hhead⟩
        rw [List.replicate_succ, List.cons_append, ← hpwil]
      · rw [List.dropWhile_cons_of_neg (by simpa using hc)]
        refine ⟨0, rfl, ?_⟩
        rintro w rest heq rfl
        exact hc (List.cons.inj heq).1

/-- What is returned for texts without NUL, by what is returned for shorter patterns. -/
lemma matchWildcard_iff_of_nulFree
    (h : matchWildcard s p = true ↔ s = p ∨ (s ≠ [] ∧ p ≠ [] ∧ Satisfied (cut p) (cut s)))
    (hs : 0 ∉ s) (hp : 0 ∉ p) : matchWildcard s p = true ↔ (s = [] → p = []) ∧ Satisfied p s := by
  rw [h, cut_eq_self_iff.mpr hs, cut_eq_self_iff.mpr hp]
  constructor
  · rintro (rfl | ⟨hs, -, hsat⟩)
    · exact ⟨id, satisfied_self s⟩
    · exact ⟨fun h => absurd h hs, hsat⟩
  · rintro ⟨hnil, hsat⟩
    by_cases hs : s = []
    · exact .inl (hs.trans (hnil hs).symm)
    · refine .inr ⟨hs, ?_, hsat⟩
      rintro rfl
      exact hs (satisfied_nil_iff.mp hsat)

/-- **What `MatchWildcard` returns.**  Of texts that are not the same, and not empty, what stands
in front of a NUL is compared, and a lone end wants one letter more. -/
theorem matchWildcard_eq_true_iff (str wildcard : Str) : matchWildcard str wildcard = true ↔
    str = wildcard ∨ (str ≠ [] ∧ wildcard ≠ [] ∧ Satisfied (cut wildcard) (cut str)) := by
  induction hn : wildcard.length using Nat.strong_induction_on generalizing str wildcard with
  | _ n ih =>
      rw [matchWildcard]
      split_ifs with heq hnil
      · simp [heq]
      · simp only [heq, false_or, false_iff]
        tauto
      · have hne : str ≠ [] ∧ wildcard ≠ [] := by tauto
        rw [← satisfied_skipCommon]
        simp only [heq, hne, ne_eq, not_false_eq_true, true_and, false_or]
        split
        · next pstr hskip =>
            rw [hskip, satisfied_nil_iff, List.isEmpty_iff]
        · next pstr w pwil hskip =>
            rw [hskip]
            by_cases hw : w = star
            · subst hw
              rw [if_neg (by simp)]
              obtain ⟨k, hpwil, hhead⟩ := exists_eq_stars_append pwil
              have hstars : star :: pwil =
                  List.replicate (k + 1) star ++ pwil.dropWhile (· == star) := by
                rw [List.replicate_succ, List.cons_append, ← hpwil]
              split
              · next hdrop =>
                  rw [hstars, hdrop, List.append_nil]
                  simpa using satisfied_stars
              · next w' rest hdrop =>
                  -- the call on an end of the string, for the rest of the pattern
                  have hlt := length_lt_of_skipCommon hskip hdrop
                  have hsuffix := suffix_skipCommon (cut str) (cut wildcard)
                  rw [hskip, hstars, hdrop] at hsuffix
                  have hrest : 0 ∉ rest := fun hmem => notMem_cut wildcard
                    (hsuffix.2.subset (by simp [hmem]))
                  rw [hstars, hdrop, satisfied_stars_append_iff (hhead w' rest hdrop),
                    tryFrom_eq_true_iff]
                  refine exists_congr fun a => exists_congr fun c => exists_congr fun t =>
                    and_congr_right fun hpstr => and_congr_right fun _ => ?_
                  have ht : 0 ∉ t := fun hmem => notMem_cut str
                    (hsuffix.1.subset (by simp [hpstr, hmem]))
                  exact matchWildcard_iff_of_nulFree (ih _ (hn ▸ hlt) t rest rfl) ht hrest
            · rw [if_pos hw]
              simpa using not_satisfied_of_skipCommon hw hskip

end

/-! ### The pattern language -/

/-- The pattern matches, but a test for an empty text is in the way: of the whole text, or of an
end of it that is left for the last stars. -/
def Missed (str wildcard : Str) : Prop :=
  Globs (cut wildcard) (cut str) ∧ (str = [] ∨ wildcard = [] ∨
    (LoneEnd (cut wildcard) ∧ ¬Matches (tokens (cut wildcard) ++ [.any]) (cut str)))

/-- What stands behind a NUL makes a difference. -/
def Hidden (str wildcard : Str) : Prop :=
  ¬(Globs wildcard str ↔ Globs (cut wildcard) (cut str))

/-- Texts that are not the same match where the pattern matches up to the first NUL, and no empty
end is in the way. -/
lemma matchWildcard_iff_not_missed {str wildcard : Str} (hne : str ≠ wildcard) :
    matchWildcard str wildcard = true ↔
      Globs (cut wildcard) (cut str) ∧ ¬Missed str wildcard := by
  rw [matchWildcard_eq_true_iff, Missed, Satisfied]
  tauto

lemma matchWildcard_self (str : Str) : matchWildcard str str = true :=
  (matchWildcard_eq_true_iff str str).mpr (.inl rfl)

/-- **Matching with wildcards.**  `MatchWildcard` agrees with the pattern language exactly where
the texts are the same, or neither an empty end nor a NUL gets in the way; where both do, the
second mistake undoes the first. -/
theorem matchWildcard_globs_iff (str wildcard : Str) :
    (matchWildcard str wildcard = true ↔ Globs wildcard str) ↔
      str = wildcard ∨ (Missed str wildcard ↔ Hidden str wildcard) := by
  by_cases heq : str = wildcard
  · subst heq
    simp [matchWildcard_self str, globs_self str]
  · have hglobs : Missed str wildcard → Globs (cut wildcard) (cut str) := And.left
    rw [matchWildcard_iff_not_missed heq, Hidden]
    tauto

/-- Texts without NUL: the string is empty and the pattern has stars only, or nothing is left for
the last stars behind a lone letter. -/
theorem matchWildcard_globs_iff_of_nulFree {str wildcard : Str} (hs : 0 ∉ str)
    (hw : 0 ∉ wildcard) : (matchWildcard str wildcard = true ↔ Globs wildcard str) ↔
      str = wildcard ∨ ¬(Globs wildcard str ∧ (str = [] ∨
        (LoneEnd wildcard ∧ ¬Matches (tokens wildcard ++ [.any]) str))) := by
  by_cases heq : str = wildcard
  · subst heq
    simp [matchWildcard_self str, globs_self str]
  · rw [matchWildcard_iff_not_missed heq, Missed, cut_eq_self_iff.mpr hs, cut_eq_self_iff.mpr hw]
    -- a pattern that is empty matches the empty text only
    have hnil : Globs wildcard str → wildcard ≠ [] := by
      rintro hglobs rfl
      exact heq (matches_nil_iff.mp hglobs)
    tauto

/-- `ab` is not matched by `a*b*`. -/
theorem ab_not_matched : ¬∀ str wildcard : Str,
    (matchWildcard str wildcard = true ↔ Globs wildcard str) := by
  intro h
  have hab := (matchWildcard_globs_iff_of_nulFree (by decide) (by decide)).mp
    (h [97, 98] [97, star, 98, star])
  refine hab.elim (by decide) fun hmissed => hmissed ⟨by decide, .inr ⟨?_, by decide⟩⟩
  exact ⟨98, 0, by decide, [97], rfl⟩

end PopCpp.Utils
