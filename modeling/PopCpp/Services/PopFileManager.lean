/-
# The places of the strips

`findResourcesForStrip` asks one neighbour after the other to create a strip, and writes down in
two arrays where the strips are.  The place of a strip in the arrays is also the number in its
name, so that the names are different as soon as the places are (`stripName_injective`).

The loop stops when the number of the strips is reached, and asks so only after a strip has been
created.  With one strip, which is the local one, the number is reached before the loop begins:
the first strip that is created all the same is written behind the arrays, and nothing stops the
loop after it (`inBounds_findResourcesForStrip_iff`).
-/
import PopCpp.Discovery.UniqueId

namespace PopCpp.PopFileManager

open Buffer Discovery.Serialize

/-! ### `findResourcesForStrip` -/

/-- What is written to `candidates` and `stripNames` under one index. -/
structure Strip (α : Type) where
  index : ℕ
  candidate : α
  stripName : Str
deriving DecidableEq

/-- `"_strip"` -/
def stripSuffix : Str := [95, 115, 116, 114, 105, 112]

/-- The name of the strip with this index. -/
def stripName (stripPrefix : Str) (index : ℕ) : Str :=
  cut stripPrefix ++ stripSuffix ++ decimal index

variable {α : Type}

/-- The loop over the neighbours: what is written, and the index behind it.  `createStrip` gives
the answers of the neighbours, which may differ from one call to the next. -/
def placeStrips (createStrip : ℕ → α → Str → Bool) (maxStrip : ℕ) (stripPrefix : Str) :
    ℕ → ℕ → List α → List (Strip α) × ℕ
  | _, index, [] => ([], index)
  | call, index, it :: rest =>
      let stripname := stripName stripPrefix index
      if createStrip call it stripname then
        let strip := ⟨index, it, stripname⟩
        if index + 1 = maxStrip then ([strip], index + 1)
        else
          let r := placeStrips createStrip maxStrip stripPrefix (call + 1) (index + 1) rest
          (strip :: r.1, r.2)
      else placeStrips createStrip maxStrip stripPrefix (call + 1) index rest

/-- `findResourcesForStrip`: the entries of the arrays that it writes, and what it returns.  A
local strip is in the first entry already. -/
def findResourcesForStrip (neighbors : List α) (createStrip : ℕ → α → Str → Bool) (nb : ℕ)
    (stripPrefix : Str) (isLocal : Bool) : List (Strip α) × ℕ :=
  placeStrips createStrip nb stripPrefix 0 isLocal.toNat neighbors

/-- The strips are in the arrays, under different names, and the number returned is that of the
entries that are filled. -/
structure InBounds (nb : ℕ) (isLocal : Bool) (r : List (Strip α) × ℕ) : Prop where
  index_lt : ∀ s ∈ r.1, s.index < nb
  nodup_stripName : (r.1.map Strip.stripName).Nodup
  le : r.2 ≤ nb
  eq_card : r.2 = (r.1.map Strip.index).toFinset.card + isLocal.toNat

/-! ### Names -/

lemma stripName_injective (stripPrefix : Str) : Function.Injective (stripName stripPrefix) :=
  fun _ _ h => decimal_injective (List.append_cancel_left h)

/-! ### The loop -/

variable (createStrip : ℕ → α → Str → Bool) (maxStrip : ℕ) (stripPrefix : Str)

/-- The entries are filled one after the other. -/
lemma placeStrips_index : ∀ (call index : ℕ) (l : List α),
    let r := placeStrips createStrip maxStrip stripPrefix call index l
    r.1.map Strip.index = List.range' index r.1.length ∧ r.2 = index + r.1.length
  | _, _, [] => by simp [placeStrips]
  | call, index, it :: rest => by
    simp only [placeStrips]
    split_ifs with hok hlast
    · simp
    · obtain ⟨hindex, hnext⟩ := placeStrips_index (call + 1) (index + 1) rest
      refine ⟨?_, ?_⟩
      · rw [List.map_cons, hindex, List.length_cons, List.range'_succ]
      · rw [hnext, List.length_cons]
        omega
    · exact placeStrips_index (call + 1) index rest

/-- The name of a strip is made of its index. -/
lemma placeStrips_stripName : ∀ (call index : ℕ) (l : List α),
    ∀ s ∈ (placeStrips createStrip maxStrip stripPrefix call index l).1,
      s.stripName = stripName stripPrefix s.index
  | _, _, [], _, hs => by simp [placeStrips] at hs
  | call, index, it :: rest, s, hs => by
    simp only [placeStrips] at hs
    split_ifs at hs
    · rw [List.mem_singleton.mp hs]
    · rcases List.mem_cons.mp hs with rfl | hs
      · rfl
      · exact placeStrips_stripName _ _ rest s hs
    · exact placeStrips_stripName _ _ rest s hs

/-- The loop stops at the number of the strips if it begins below it. -/
lemma placeStrips_le : ∀ (call : ℕ) {index : ℕ} (l : List α), index < maxStrip →
    (placeStrips createStrip maxStrip stripPrefix call index l).2 ≤ maxStrip
  | _, _, [], h => by
    rw [placeStrips]
    exact h.le
  | call, index, it :: rest, h => by
    simp only [placeStrips]
    split_ifs with hok hlast
    · exact hlast.le
    · exact placeStrips_le (call + 1) rest (by omega)
    · exact placeStrips_le (call + 1) rest h

/-- Nothing is written if and only if every neighbour refuses. -/
lemma placeStrips_eq_nil_iff : ∀ (call index : ℕ) (l : List α),
    (placeStrips createStrip maxStrip stripPrefix call index l).1 = [] ↔
      ∀ i it, l[i]? = some it → createStrip (call + i) it (stripName stripPrefix index) = false
  | _, _, [] => by simp [placeStrips]
  | call, index, it :: rest => by
    have ih := placeStrips_eq_nil_iff (call + 1) index rest
    simp only [placeStrips]
    split_ifs with hok hlast
    · simp only [false_iff, not_forall]
      exact ⟨0, it, rfl, by simp [hok]⟩
    · simp only [false_iff, not_forall]
      exact ⟨0, it, rfl, by simp [hok]⟩
    · rw [ih]
      constructor
      · rintro h (_ | i) it' hi
        · obtain rfl : it = it' := by simpa using hi
          simpa using hok
        · have := h i it' (by simpa using hi)
          rwa [Nat.add_right_comm] at this
      · intro h i it' hi
        have := h (i + 1) it' (by simpa using hi)
        rwa [← Nat.add_assoc, Nat.add_right_comm] at this

/-! ### The arrays -/

variable {createStrip maxStrip stripPrefix}

lemma nodup_stripName_placeStrips (call index : ℕ) (l : List α) :
    ((placeStrips createStrip maxStrip stripPrefix call index l).1.map Strip.stripName).Nodup := by
  have hindex := (placeStrips_index createStrip maxStrip stripPrefix call index l).1
  have hname : ∀ s ∈ (placeStrips createStrip maxStrip stripPrefix call index l).1,
      s.stripName = (stripName stripPrefix ∘ Strip.index) s :=
    placeStrips_stripName createStrip maxStrip stripPrefix call index l
  rw [List.map_congr_left hname, ← List.map_map, hindex]
  exact (List.nodup_range').map (stripName_injective stripPrefix)

/-- Everything is in its place as soon as the number returned is not too large. -/
lemma inBounds_iff_le (nb : ℕ) (isLocal : Bool) (neighbors : List α)
    (createStrip : ℕ → α → Str → Bool) (stripPrefix : Str) :
    InBounds nb isLocal (findResourcesForStrip neighbors createStrip nb stripPrefix isLocal) ↔
      (findResourcesForStrip neighbors createStrip nb stripPrefix isLocal).2 ≤ nb := by
  obtain ⟨hindex, hnext⟩ :=
    placeStrips_index createStrip nb stripPrefix 0 isLocal.toNat neighbors
  rw [findResourcesForStrip]
  refine ⟨InBounds.le, fun hle => ⟨fun s hs => ?_, nodup_stripName_placeStrips _ _ _, hle, ?_⟩⟩
  · have hmem := List.mem_map_of_mem (f := Strip.index) hs
    rw [hindex] at hmem
    have hbound := (List.mem_range'_1.mp hmem).2
    omega
  · rw [hindex, List.toFinset_card_of_nodup List.nodup_range', List.length_range', hnext]
    exact Nat.add_comm _ _

/-- The strips stay in the arrays if and only if it is not so that the only strip is the local
one and a neighbour would create a strip with the number 1. -/
theorem inBounds_findResourcesForStrip_iff {nb : ℕ} (hnb : 1 ≤ nb) (isLocal : Bool)
    (neighbors : List α) (createStrip : ℕ → α → Str → Bool) (stripPrefix : Str) :
    InBounds nb isLocal (findResourcesForStrip neighbors createStrip nb stripPrefix isLocal) ↔
      ¬ (isLocal ∧ nb = 1 ∧ ∃ i it, neighbors[i]? = some it ∧
        createStrip i it (stripName stripPrefix 1)) := by
  rw [inBounds_iff_le]
  by_cases hone : isLocal = true ∧ nb = 1
  · -- the index is at the limit before the loop begins
    obtain ⟨rfl, rfl⟩ := hone
    obtain ⟨-, hnext⟩ := placeStrips_index createStrip 1 stripPrefix 0 1 neighbors
    have hnil := placeStrips_eq_nil_iff createStrip 1 stripPrefix 0 1 neighbors
    have hle : (findResourcesForStrip neighbors createStrip 1 stripPrefix true).2 ≤ 1 ↔
        (placeStrips createStrip 1 stripPrefix 0 1 neighbors).1 = [] := by
      rw [findResourcesForStrip, Bool.toNat_true, hnext, ← List.length_eq_zero_iff]
      omega
    rw [hle, hnil]
    simp
  · have hlt : isLocal.toNat < nb := by
      cases isLocal with
      | false => exact hnb
      | true =>
          have : nb ≠ 1 := fun h => hone ⟨rfl, h⟩
          rw [Bool.toNat_true]
          omega
    exact iff_of_true (placeStrips_le createStrip nb stripPrefix 0 neighbors hlt)
      fun h => hone ⟨h.1, h.2.1⟩

theorem inBounds_findResourcesForStrip_two : InBounds 2 true
    (findResourcesForStrip [7, 8, 9] (fun call _ _ => call == 1) 2 [47, 102] true) :=
  (inBounds_findResourcesForStrip_iff (by decide) true [7, 8, 9] _ _).mpr (by simp)

/-- With one strip, a local one, and two neighbours that create what they are asked to create,
the entries 1 and 2 of the arrays are written. -/
theorem exists_not_inBounds_findResourcesForStrip :
    ¬ ∀ (neighbors : List ℕ) (createStrip : ℕ → ℕ → Str → Bool) (nb : ℕ) (stripPrefix : Str)
      (isLocal : Bool), 1 ≤ nb →
      InBounds nb isLocal (findResourcesForStrip neighbors createStrip nb stripPrefix isLocal) := by
  intro h
  have := (h [7, 8] (fun _ _ _ => true) 1 [47, 102] true le_rfl).le
  exact absurd this (by decide)

end PopCpp.PopFileManager
