/-
# Entries that are changed or added

A list of entries with keys is searched for a key: the first entry that has it is changed, and if
there is none a new entry is added at the end.  The keys stay different, in the order in which they
came in (`map_key_upsert`).  A search by a property of the keys finds what it found before, changed
if it has the key; and the new entry only if it found nothing (`find?_upsert`).
-/
import Mathlib.Data.List.Basic
import Mathlib.Data.List.Nodup

namespace Upsert

variable {α κ : Type*} [DecidableEq κ]

/-- Changes the first entry with the key `k`, or adds one. -/
def upsert (key : α → κ) (k : κ) (update : α → α) (new : α) (l : List α) : List α :=
  match l.findIdx? fun a => k = key a with
  | some i => l.modify i update
  | none => l ++ [new]

variable {key : α → κ} {k : κ} {update : α → α} {new a : α} {l : List α}

lemma upsert_nil : upsert key k update new [] = [new] := rfl

lemma upsert_cons : upsert key k update new (a :: l) =
    if k = key a then update a :: l else a :: upsert key k update new l := by
  rw [upsert, List.findIdx?_cons, upsert]
  by_cases h : k = key a
  · simp [h]
  · rw [if_neg h, if_neg (by simpa using h)]
    cases l.findIdx? fun a => k = key a <;> rfl

/-- **The keys**, in the order in which they came in. -/
theorem map_key_upsert (hupdate : ∀ a, key (update a) = key a) (hnew : key new = k) :
    (upsert key k update new l).map key =
      if k ∈ l.map key then l.map key else l.map key ++ [k] := by
  induction l with
  | nil => simp [upsert_nil, hnew]
  | cons a l ih =>
      rw [upsert_cons]
      by_cases h : k = key a
      · rw [if_pos h, if_pos (by simp [h]), List.map_cons, List.map_cons, hupdate]
      · have hmem : k ∈ (a :: l).map key ↔ k ∈ l.map key := by
          rw [List.map_cons, List.mem_cons, or_iff_right h]
        rw [if_neg h, List.map_cons, ih]
        simp only [hmem]
        split_ifs <;> rfl

lemma nodup_map_key_upsert (hupdate : ∀ a, key (update a) = key a) (hnew : key new = k)
    (h : (l.map key).Nodup) : ((upsert key k update new l).map key).Nodup := by
  rw [map_key_upsert hupdate hnew]
  split_ifs with hmem
  · exact h
  · exact (List.perm_append_singleton k _).nodup_iff.mpr (List.nodup_cons.mpr ⟨hmem, h⟩)

/-- What holds of the entries. -/
lemma forall_mem_upsert {P : α → Prop} (hupdate : ∀ a, P a → P (update a)) (hnew : P new)
    (h : ∀ a ∈ l, P a) : ∀ a ∈ upsert key k update new l, P a := by
  induction l with
  | nil => simpa [upsert_nil] using hnew
  | cons a l ih =>
      rw [List.forall_mem_cons] at h
      rw [upsert_cons]
      split_ifs
      · exact List.forall_mem_cons.mpr ⟨hupdate a h.1, h.2⟩
      · exact List.forall_mem_cons.mpr ⟨h.1, ih h.2⟩

/-- **Searches by key.** -/
theorem find?_upsert (key : α → κ) (hupdate : ∀ a, key (update a) = key a) (hnew : key new = k)
    (q : κ → Bool) :
    (upsert key k update new l).find? (fun a => q (key a)) =
      ((l.find? fun a => q (key a)).map fun a => if k = key a then update a else a).or
        (if q k then some new else none) := by
  induction l with
  | nil =>
      rw [upsert_nil, List.find?_singleton, hnew]
      rfl
  | cons a l ih =>
      rw [upsert_cons]
      by_cases h : k = key a
      · rw [if_pos h]
        cases hq : q (key a) with
        | true =>
            rw [List.find?_cons_of_pos (by simp [hupdate, hq]),
              List.find?_cons_of_pos (by simp [hq])]
            exact congrArg some (if_pos h).symm
        | false =>
            -- what is found behind it has another key
            have hk : q k = false := by rw [h, hq]
            rw [List.find?_cons_of_neg (by simp [hupdate, hq]),
              List.find?_cons_of_neg (by simp [hq])]
            cases hfind : l.find? fun a => q (key a) with
            | none => simp [hk]
            | some b =>
                have hb := List.find?_some hfind
                have hne : k ≠ key b := fun heq => by
                  rw [heq, hb] at hk
                  cases hk
                exact congrArg some (if_neg hne).symm
      · rw [if_neg h]
        cases hq : q (key a) with
        | true =>
            rw [List.find?_cons_of_pos (by simp [hq]), List.find?_cons_of_pos (by simp [hq])]
            exact congrArg some (if_neg h).symm
        | false =>
            rw [List.find?_cons_of_neg (by simp [hq]), List.find?_cons_of_neg (by simp [hq]), ih]

end Upsert
