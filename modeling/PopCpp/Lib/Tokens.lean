/-
# Tokens

A text is cut at separators, and what stands between them is a token where it is not empty.  A
part of the text without a separator lies inside one token (`exists_infix_of_infix`), so whether
such a part occurs is a question about the tokens alone (`infix_iff_exists`).
-/
import Mathlib.Data.List.Basic
import Mathlib.Data.List.Infix

namespace Tokens

variable {α : Type*} {sep : α → Bool} {t l : List α}

/-- The tokens of a text, in order. -/
def tokens (sep : α → Bool) (l : List α) : List (List α) :=
  (l.splitOnP sep).filter fun t => !t.isEmpty

lemma mem_tokens_iff : t ∈ tokens sep l ↔ t ∈ l.splitOnP sep ∧ t ≠ [] := by
  rw [tokens, List.mem_filter]
  simp

lemma exists_splitOnP_eq_cons (sep : α → Bool) (l : List α) :
    ∃ t ts, l.splitOnP sep = t :: ts :=
  List.exists_cons_of_ne_nil (List.splitOnP_ne_nil sep l)

lemma splitOnP_cons_of_pos {a : α} (ha : sep a = true) (l : List α) :
    (a :: l).splitOnP sep = [] :: l.splitOnP sep := by
  rw [List.splitOnP_cons_eq_if_modifyHead, if_pos ha]

lemma splitOnP_cons_of_neg {a : α} (ha : sep a ≠ true) {ts : List (List α)}
    (h : l.splitOnP sep = t :: ts) : (a :: l).splitOnP sep = (a :: t) :: ts := by
  rw [List.splitOnP_cons_eq_if_modifyHead, if_neg ha, h, List.modifyHead_cons]

/-- A part of a longer text: a new one, one of the old ones, or the first of them with a letter
more. -/
lemma mem_splitOnP_cons {a : α} (ht : t ∈ (a :: l).splitOnP sep) :
    t = [] ∨ t ∈ l.splitOnP sep ∨
      sep a = false ∧ ∃ u us, t = a :: u ∧ l.splitOnP sep = u :: us := by
  by_cases ha : sep a = true
  · rw [splitOnP_cons_of_pos ha, List.mem_cons] at ht
    exact ht.imp_right .inl
  · obtain ⟨u, us, heq⟩ := exists_splitOnP_eq_cons sep l
    rw [splitOnP_cons_of_neg ha heq, List.mem_cons] at ht
    rcases ht with rfl | ht
    · exact .inr (.inr ⟨by simpa using ha, u, us, rfl, heq⟩)
    · exact .inr (.inl (heq ▸ List.mem_cons_of_mem _ ht))

/-- There is no separator in a token. -/
lemma eq_false_of_mem_splitOnP (ht : t ∈ l.splitOnP sep) : ∀ a ∈ t, sep a = false := by
  induction l generalizing t with
  | nil =>
      obtain rfl : t = [] := by simpa using ht
      simp
  | cons a l ih =>
      rcases mem_splitOnP_cons ht with rfl | ht | ⟨ha, u, us, rfl, heq⟩
      · simp
      · exact ih ht
      · rw [List.forall_mem_cons]
        exact ⟨ha, ih (heq ▸ List.mem_cons_self)⟩

/-- The first part stands at the beginning of the text. -/
lemma prefix_of_splitOnP {ts : List (List α)} (h : l.splitOnP sep = t :: ts) : t <+: l := by
  induction l generalizing t ts with
  | nil =>
      obtain ⟨rfl, -⟩ := List.cons.inj (show [[]] = t :: ts from h)
      exact List.prefix_rfl
  | cons a l ih =>
      by_cases ha : sep a = true
      · rw [splitOnP_cons_of_pos ha] at h
        obtain ⟨rfl, -⟩ := List.cons.inj h
        exact List.nil_prefix
      · obtain ⟨u, us, heq⟩ := exists_splitOnP_eq_cons sep l
        rw [splitOnP_cons_of_neg ha heq] at h
        obtain ⟨rfl, -⟩ := List.cons.inj h
        exact (List.prefix_cons_inj a).mpr (ih heq)

/-- Every part is a part of the text. -/
lemma infix_of_mem_splitOnP (ht : t ∈ l.splitOnP sep) : t <:+: l := by
  induction l generalizing t with
  | nil =>
      obtain rfl : t = [] := by simpa using ht
      exact List.infix_rfl
  | cons a l ih =>
      rcases mem_splitOnP_cons ht with rfl | ht | ⟨-, u, us, rfl, heq⟩
      · exact List.nil_infix
      · exact (ih ht).trans (List.suffix_cons a l).isInfix
      · exact ((List.prefix_cons_inj a).mpr (prefix_of_splitOnP heq)).isInfix

/-- A beginning without a separator is a beginning of the first part. -/
lemma isPrefix_head {u : List α} {us : List (List α)} (ht : ∀ a ∈ t, sep a = false)
    (hl : t <+: l) (h : l.splitOnP sep = u :: us) : t <+: u := by
  induction t generalizing l u us with
  | nil => exact List.nil_prefix
  | cons a t ih =>
      rw [List.forall_mem_cons] at ht
      obtain ⟨l', rfl⟩ := hl
      obtain ⟨v, vs, heq⟩ := exists_splitOnP_eq_cons sep (t ++ l')
      rw [List.cons_append, splitOnP_cons_of_neg (by simp [ht.1]) heq] at h
      obtain ⟨rfl, -⟩ := List.cons.inj h
      exact (List.prefix_cons_inj a).mpr (ih ht.2 (List.prefix_append t l') heq)

/-- A part of the text without a separator lies inside one of its parts. -/
lemma exists_infix_of_infix (ht : ∀ a ∈ t, sep a = false) (hl : t <:+: l) :
    ∃ u ∈ l.splitOnP sep, t <:+: u := by
  induction l with
  | nil => exact ⟨[], by simp, hl⟩
  | cons a l ih =>
      obtain ⟨u, us, heq⟩ := exists_splitOnP_eq_cons sep (a :: l)
      rcases List.infix_cons_iff.mp hl with hprefix | hinfix
      · exact ⟨u, by simp [heq], (isPrefix_head ht hprefix heq).isInfix⟩
      · obtain ⟨v, hv, htv⟩ := ih hinfix
        by_cases ha : sep a = true
        · exact ⟨v, by rw [splitOnP_cons_of_pos ha]; exact List.mem_cons_of_mem _ hv, htv⟩
        · obtain ⟨w, ws, heq'⟩ := exists_splitOnP_eq_cons sep l
          rw [splitOnP_cons_of_neg ha heq']
          rw [heq', List.mem_cons] at hv
          rcases hv with rfl | hv
          · exact ⟨a :: v, List.mem_cons_self, htv.trans (List.suffix_cons a v).isInfix⟩
          · exact ⟨v, List.mem_cons_of_mem _ hv, htv⟩

/-- **Parts without a separator.**  They occur in the text where they occur in a token. -/
theorem infix_iff_exists (hne : t ≠ []) (ht : ∀ a ∈ t, sep a = false) :
    t <:+: l ↔ ∃ u ∈ tokens sep l, t <:+: u := by
  constructor
  · intro h
    obtain ⟨u, hu, htu⟩ := exists_infix_of_infix ht h
    refine ⟨u, mem_tokens_iff.mpr ⟨hu, ?_⟩, htu⟩
    rintro rfl
    exact hne (List.infix_nil.mp htu)
  · rintro ⟨u, hu, htu⟩
    exact htu.trans (infix_of_mem_splitOnP (mem_tokens_iff.mp hu).1)

end Tokens
