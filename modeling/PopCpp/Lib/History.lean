/-
# Bounded histories

A list keeps the items that came last, at most `b` of them: a new item is put behind the others,
and the oldest one is dropped when there are too many.  So the list is always the end of the
sequence of all items (`latest_concat`).  If only items are added that are not in the list, then
any `b + 1` items that follow one another are distinct (`Spread`), and before an item comes again
at least `b` others have come.
-/
import Mathlib.Data.Finset.Card
import Mathlib.Data.Finset.Dedup
import Mathlib.Data.List.Infix

namespace History

variable {α : Type*} {b : ℕ} {xs : List α} {x : α}

/-- Put an item behind the others, and drop the oldest one when there are more than `b`. -/
def push (b : ℕ) (kept : List α) (x : α) : List α :=
  if (kept ++ [x]).length > b then (kept ++ [x]).tail else kept ++ [x]

/-- The last `b` items. -/
def latest (b : ℕ) (xs : List α) : List α := xs.drop (xs.length - b)

lemma length_latest_le (b : ℕ) (xs : List α) : (latest b xs).length ≤ b := by
  rw [latest, List.length_drop]
  omega

lemma latest_suffix (b : ℕ) (xs : List α) : latest b xs <:+ xs := List.drop_suffix _ _

/-- A short end of the sequence is an end of what is kept. -/
lemma subset_latest {l : List α} (h : l <:+ xs) (hl : l.length ≤ b) : l ⊆ latest b xs := by
  have hlen := h.length_le
  refine (List.suffix_of_suffix_length_le h (latest_suffix b xs) ?_).subset
  rw [latest, List.length_drop]
  omega

lemma latest_concat (hb : 0 < b) (xs : List α) (x : α) :
    latest b (xs ++ [x]) = push b (latest b xs) x := by
  have hlen : (latest b xs).length = min b xs.length := by
    rw [latest, List.length_drop]
    omega
  rw [push, List.length_append, List.length_singleton, hlen]
  split_ifs with hfull
  · have hshift : xs.length + 1 - b = xs.length - b + 1 := by omega
    rw [latest, List.length_append, List.length_singleton, hshift, ← List.drop_drop,
      List.drop_append_of_le_length (Nat.sub_le _ _), List.drop_one]
    rfl
  · have hnone : xs.length + 1 - b = xs.length - b := by omega
    rw [latest, List.length_append, List.length_singleton, hnone,
      List.drop_append_of_le_length (Nat.sub_le _ _)]
    rfl

/-- Items that follow one another are distinct, as far as `b + 1` of them. -/
def Spread (b : ℕ) (xs : List α) : Prop := ∀ l, l <:+: xs → l.length ≤ b + 1 → l.Nodup

lemma spread_nil (b : ℕ) : Spread b ([] : List α) := by
  intro l hl _
  rw [List.infix_nil.mp hl]
  exact List.nodup_nil

lemma Spread.concat (h : Spread b xs) (hx : x ∉ latest b xs) : Spread b (xs ++ [x]) := by
  intro l hl hlen
  rcases List.infix_concat_iff.mp hl with hsuffix | hinfix
  · rcases List.suffix_concat_iff.mp hsuffix with rfl | ⟨l, rfl, hend⟩
    · exact List.nodup_nil
    · rw [List.length_append, List.length_singleton] at hlen
      refine List.Nodup.append (h l hend.isInfix (by omega)) (List.nodup_singleton x) ?_
      rw [List.disjoint_singleton]
      exact fun hmem => hx (subset_latest hend (by omega) hmem)
  · exact h l hinfix hlen

lemma Spread.nodup_latest (h : Spread b xs) : (latest b xs).Nodup :=
  h _ (latest_suffix b xs).isInfix ((length_latest_le b xs).trans (Nat.le_succ b))

/-- Between two occurrences of an item there are at least `b` others. -/
theorem Spread.le_card [DecidableEq α] (h : Spread b xs) {before between after : List α}
    (hxs : xs = before ++ x :: (between ++ x :: after)) :
    b ≤ (between.toFinset.erase x).card := by
  rcases Nat.lt_or_ge between.length b with hlt | hge
  · -- the two occurrences would be among distinct items
    have hinfix : x :: (between ++ [x]) <:+: xs := ⟨before, after, by rw [hxs]; simp⟩
    have hlen : (x :: (between ++ [x])).length ≤ b + 1 := by
      rw [List.length_cons, List.length_append, List.length_singleton]
      omega
    have hnodup := h _ hinfix hlen
    exact absurd (List.mem_append_right between (List.mem_singleton_self x))
      (List.nodup_cons.mp hnodup).1
  · have hinfix : x :: between.take b <:+: xs :=
      ⟨before, between.drop b ++ x :: after, by
        rw [hxs, List.append_assoc, List.cons_append, ← List.append_assoc (between.take b),
          List.take_append_drop]⟩
    have hlen : (between.take b).length = b := List.length_take_of_le hge
    obtain ⟨hnot, hnodup⟩ := List.nodup_cons.mp (h _ hinfix (by
      rw [List.length_cons, hlen]))
    calc b = (between.take b).toFinset.card := by rw [List.toFinset_card_of_nodup hnodup, hlen]
      _ ≤ (between.toFinset.erase x).card := by
        refine Finset.card_le_card fun y hy => ?_
        rw [List.mem_toFinset] at hy
        refine Finset.mem_erase.mpr ⟨fun heq => hnot (heq ▸ hy), ?_⟩
        exact List.mem_toFinset.mpr (List.mem_of_mem_take hy)

end History
