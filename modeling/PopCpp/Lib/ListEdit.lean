/-
# Replacing and removing one entry of a list

A list of entries is edited at one position.  The lemmas of this file say what that does to
a sum over the entries (what the old entry contributed is taken off, what the new one
contributes is added) and to a property that all of them have.
-/
import Mathlib.Algebra.BigOperators.Group.List.Basic
import Mathlib.Data.List.Count
import Mathlib.Tactic.Abel

namespace ListEdit

variable {α β : Type*} {l : List α} {i : ℕ} {x y : α}

/-- The list around the entry at position `i`, and what replacing and removing it does. -/
lemma exists_split (h : l[i]? = some x) :
    ∃ l₁ l₂, l = l₁ ++ x :: l₂ ∧ (∀ y, l.set i y = l₁ ++ y :: l₂) ∧ l.eraseIdx i = l₁ ++ l₂ := by
  obtain ⟨hi, rfl⟩ := List.getElem?_eq_some_iff.mp h
  refine ⟨l.take i, l.drop (i + 1), ?_, fun y => List.set_eq_take_append_cons_drop .. ▸ ?_,
    List.eraseIdx_eq_take_drop_succ ..⟩
  · rw [List.getElem_cons_drop, List.take_append_drop]
  · rw [if_pos hi]

section Sum

variable {G : Type*} [AddCommGroup G] (f : α → G)

lemma sum_map_set (h : l[i]? = some x) :
    ((l.set i y).map f).sum = (l.map f).sum + (f y - f x) := by
  obtain ⟨l₁, l₂, hl, hset, -⟩ := exists_split h
  rw [hset y, hl]
  simp only [List.map_append, List.map_cons, List.sum_append, List.sum_cons]
  abel

lemma sum_map_eraseIdx (h : l[i]? = some x) :
    ((l.eraseIdx i).map f).sum = (l.map f).sum - f x := by
  obtain ⟨l₁, l₂, hl, -, herase⟩ := exists_split h
  rw [herase, hl]
  simp only [List.map_append, List.map_cons, List.sum_append, List.sum_cons]
  abel

end Sum

/-- Counting item by item: `f` says which items an entry holds. -/
lemma sum_map_countP (f : α → List β) (p : β → Bool) (l : List α) :
    (l.map fun x => ((f x).countP p : ℤ)).sum = ((l.flatMap f).countP p : ℤ) := by
  induction l with
  | nil => rfl
  | cons x l ih => simp only [List.map_cons, List.sum_cons, List.flatMap_cons,
      List.countP_append, Nat.cast_add, ih]

lemma sum_map_countP_singleton (f : α → β) (p : β → Bool) (l : List α) :
    (l.map fun x => ([f x].countP p : ℤ)).sum = ((l.map f).countP p : ℤ) := by
  rw [sum_map_countP (fun x => [f x]), ← List.map_eq_flatMap]

/-- A property of all entries survives the replacement of one by an entry that has it. -/
lemma forall_mem_set {P : α → Prop} (h : ∀ z ∈ l, P z) (hy : P y) : ∀ z ∈ l.set i y, P z := by
  intro z hz
  rcases List.mem_or_eq_of_mem_set hz with hz | rfl
  · exact h z hz
  · exact hy

/-! ### The entries with a property -/

section Filter

variable {p : α → Bool} (f : α → β)

/-- An entry that loses the property leaves the list of those that have it. -/
lemma filter_map_perm_set (h : l[i]? = some x) (hx : p x = true) (hy : p y = false) :
    ((l.filter p).map f).Perm (f x :: ((l.set i y).filter p).map f) := by
  obtain ⟨l₁, l₂, hl, hset, -⟩ := exists_split h
  rw [hset y, hl, List.filter_append, List.filter_append, List.filter_cons_of_pos hx,
    List.filter_cons_of_neg (by rw [hy]; exact Bool.false_ne_true), List.map_append,
    List.map_append, List.map_cons]
  exact List.perm_middle

/-- An entry without the property may go. -/
lemma filter_eraseIdx (h : l[i]? = some x) (hx : p x = false) :
    (l.eraseIdx i).filter p = l.filter p := by
  obtain ⟨l₁, l₂, hl, -, herase⟩ := exists_split h
  rw [herase, hl, List.filter_append, List.filter_append,
    List.filter_cons_of_neg (by rw [hx]; exact Bool.false_ne_true)]

end Filter

/-! ### Entries seen through a partial function -/

section FilterMap

variable {f : α → Option β}

/-- An entry that is not seen may go. -/
lemma filterMap_eraseIdx_of_none (h : l[i]? = some x) (hx : f x = none) :
    (l.eraseIdx i).filterMap f = l.filterMap f := by
  obtain ⟨l₁, l₂, hl, -, herase⟩ := exists_split h
  rw [herase, hl, List.filterMap_append, List.filterMap_append, List.filterMap_cons_none hx]

/-- An entry that is seen goes where it is seen. -/
lemma filterMap_eraseIdx_of_some {z : β} (h : l[i]? = some x) (hx : f x = some z) :
    ∃ j, (l.filterMap f)[j]? = some z ∧
      (l.eraseIdx i).filterMap f = (l.filterMap f).eraseIdx j := by
  obtain ⟨l₁, l₂, hl, -, herase⟩ := exists_split h
  refine ⟨(l₁.filterMap f).length, ?_, ?_⟩
  · rw [hl, List.filterMap_append, List.filterMap_cons_some hx,
      List.getElem?_append_right le_rfl, Nat.sub_self, List.getElem?_cons_zero]
  · rw [herase, hl, List.filterMap_append, List.filterMap_append, List.filterMap_cons_some hx,
      List.eraseIdx_append_of_length_le le_rfl, Nat.sub_self, List.eraseIdx_cons_zero]

end FilterMap

/-! ### Items held by the entries -/

section Held

variable {f : α → List β} {z : β}

lemma mem_flatMap_set_self (h : l[i]? = some x) (hz : z ∈ f y) : z ∈ (l.set i y).flatMap f := by
  obtain ⟨l₁, l₂, -, hset, -⟩ := exists_split h
  rw [hset y]
  exact List.mem_flatMap.mpr ⟨y, by simp, hz⟩

/-- An item that the old entry passes on to the new one stays. -/
lemma mem_flatMap_set (h : l[i]? = some x) (hz : z ∈ l.flatMap f) (hxy : z ∈ f x → z ∈ f y) :
    z ∈ (l.set i y).flatMap f := by
  obtain ⟨l₁, l₂, hl, hset, -⟩ := exists_split h
  rw [hset y]
  rw [hl] at hz
  simp only [List.flatMap_append, List.flatMap_cons, List.mem_append] at hz ⊢
  rcases hz with hz | hz | hz
  · exact Or.inl hz
  · exact Or.inr (Or.inl (hxy hz))
  · exact Or.inr (Or.inr hz)

end Held

/-! ### Two items in order -/

lemma pair_sublist_concat {u v : α} (h : [u, v].Sublist (l ++ [x])) :
    [u, v].Sublist l ∨ u ∈ l ∧ v = x := by
  induction l with
  | nil => exact absurd h.length_le (by simp)
  | cons w l ih =>
      rcases List.sublist_cons_iff.mp h with h | ⟨r, heq, h⟩
      · rcases ih h with h | ⟨hu, hv⟩
        · exact Or.inl (h.cons w)
        · exact Or.inr ⟨List.mem_cons_of_mem w hu, hv⟩
      · obtain ⟨rfl, rfl⟩ : u = w ∧ [v] = r := by simpa using heq
        rcases List.mem_append.mp (List.singleton_sublist.mp h) with hv | hv
        · exact Or.inl ((List.singleton_sublist.mpr hv).cons_cons u)
        · exact Or.inr ⟨List.mem_cons_self, by simpa using hv⟩

lemma pair_sublist_of_notMem {u v : α} {l₁ l₂ : List α} (h : [u, v].Sublist (l₁ ++ l₂))
    (hu : u ∉ l₁) : [u, v].Sublist l₂ := by
  induction l₁ with
  | nil => exact h
  | cons w l₁ ih =>
      rcases List.sublist_cons_iff.mp h with h | ⟨r, heq, -⟩
      · exact ih h (fun hw => hu (List.mem_cons_of_mem w hw))
      · obtain ⟨rfl, -⟩ : u = w ∧ [v] = r := by simpa using heq
        exact absurd List.mem_cons_self hu

lemma pair_sublist_concat_of_mem {u v : α} (h : u ∈ l) : [u, v].Sublist (l ++ [v]) :=
  List.Sublist.append (List.singleton_sublist.mpr h) (List.Sublist.refl [v])

end ListEdit
