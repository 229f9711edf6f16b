/-
# The contacts of the job manager

`NodeInfoMap` keeps what the job manager knows about its neighbours, and `GetContacts` lists their
contacts so that those with a small heuristic come first.  It keeps two vectors in step, the
contacts and their heuristics, and goes through both for each element of the map: the element is
inserted before the first one whose heuristic is not smaller, or added at the end.

The map is hashed, and the order in which its elements come is not known.  Iterators are positions;
a position that is kept after an insertion is not moved.  A heuristic may be a NaN, which compares
with nothing; then nothing is smaller than it, and it is smaller than nothing.
-/
import PopCpp.Lib.Ieee
import PopCpp.Lib.Insertion

namespace PopCpp.Services

open Ieee Insertion

/-! ### `NodeInfoMap::GetContacts` -/

/-- `NodeInfo`; the other members are not used. -/
structure NodeInfo where
  heuristic : Bits double
deriving DecidableEq

/-- An element of the map: `first` and `second`. -/
abbrev Entry := List UInt8 × NodeInfo

/-- `NodeInfoMap::hashmap`, in the order of iteration. -/
structure NodeInfoMap where
  hashmap : List Entry
  nodup : (hashmap.map Prod.fst).Nodup

/-- The local vectors. -/
structure Vectors where
  contacts : List (List UInt8)
  h : List (Bits double)
deriving DecidableEq

/-- The inner loop, with the heuristics from `hpos` on: `old` where it was left by the `break`, and
the position `cpos`. -/
def searchLoop (heuristic : Bits double) : List (Bits double) → ℕ → ℕ → Option ℕ × ℕ
  | [], _, cpos => (none, cpos)
  | tmp :: h, hpos, cpos =>
      let old := hpos
      if ge tmp heuristic then (some old, cpos) else searchLoop heuristic h (hpos + 1) (cpos + 1)

/-- The body of the loop over the map. -/
def insertContact (v : Vectors) (t : Entry) : Vectors :=
  let heuristic := t.2.heuristic
  let (old, cpos) := searchLoop heuristic v.h 0 0
  let v := match old with
    | some old => ⟨v.contacts.insertIdx cpos t.1, v.h.insertIdx old heuristic⟩
    | none => v
  if cpos = v.contacts.length then ⟨v.contacts ++ [t.1], v.h ++ [heuristic]⟩ else v

/-- `NodeInfoMap::GetContacts` -/
def getContacts (m : NodeInfoMap) : List (List UInt8) :=
  (m.hashmap.foldl insertContact ⟨[], []⟩).contacts

/-- Each contact of the map once, and none whose heuristic is smaller than that of one before. -/
structure Listed (m : NodeInfoMap) (contacts : List (List UInt8)) : Prop where
  perm : contacts.Perm (m.hashmap.map Prod.fst)
  nodup : contacts.Nodup
  sorted : contacts.Pairwise fun a b => ∀ i j, (a, i) ∈ m.hashmap → (b, j) ∈ m.hashmap →
    lt j.heuristic i.heuristic = false

/-! ### One element -/

lemma comparison : Comparison (@ge double) lt where
  irrefl := lt_self
  ge_of_lt := ge_of_lt
  lt_of_lt_of_ge := lt_of_lt_of_ge

/-- `>=` of the heuristics. -/
def geEntry (a b : Entry) : Bool := ge a.2.heuristic b.2.heuristic

/-- `<` of the heuristics. -/
def ltEntry (a b : Entry) : Bool := lt a.2.heuristic b.2.heuristic

lemma comparisonEntry : Comparison geEntry ltEntry :=
  comparison.comap fun t : Entry => t.2.heuristic

/-- The vectors for a list of elements. -/
def vectors (l : List Entry) : Vectors := ⟨l.map Prod.fst, l.map fun t => t.2.heuristic⟩

section

variable (l : List Entry) (t : Entry)

/-- The loop is left at the first element that is not smaller. -/
lemma searchLoop_eq (hpos cpos : ℕ) :
    searchLoop t.2.heuristic (l.map fun t => t.2.heuristic) hpos cpos =
      (if (l.findIdx fun b => geEntry b t) < l.length
        then some (hpos + l.findIdx fun b => geEntry b t) else none,
        cpos + l.findIdx fun b => geEntry b t) := by
  induction l generalizing hpos cpos with
  | nil => rfl
  | cons b l ih =>
      rw [List.map_cons, searchLoop, List.findIdx_cons, geEntry]
      cases hge : ge b.2.heuristic t.2.heuristic with
      | true => rfl
      | false =>
          rw [if_neg Bool.false_ne_true, ih, cond_false, List.length_cons]
          simp only [Nat.add_lt_add_iff_right, Nat.add_assoc, Nat.add_comm 1]

/-- The element is put into both vectors, at the same place. -/
lemma insertContact_vectors :
    insertContact (vectors l) t =
      vectors (l.orderedInsert (fun a b => geEntry b a = true) t) := by
  rw [← insertIdx_findIdx, insertContact, vectors, searchLoop_eq, Nat.zero_add]
  dsimp only
  generalize hplace : (l.findIdx fun b => geEntry b t) = place
  have hle : place ≤ l.length := hplace ▸ List.findIdx_le_length
  by_cases hlt : place < l.length
  · -- inserted, and the end has moved away from the position
    have hlength : ((l.map Prod.fst).insertIdx place t.1).length = l.length + 1 := by
      rw [List.length_insertIdx_of_le_length (by rwa [List.length_map]), List.length_map]
    rw [if_pos hlt]
    dsimp only
    rw [if_neg (by omega), vectors, List.map_insertIdx, List.map_insertIdx]
  · obtain rfl : place = l.length := by omega
    rw [if_neg hlt]
    dsimp only
    rw [if_pos (List.length_map _).symm, List.insertIdx_length_self, vectors, List.map_append,
      List.map_append]
    rfl

end

/-! ### The whole map -/

/-- The elements in the order in which their contacts are returned. -/
def orderedEntries (m : NodeInfoMap) : List Entry :=
  m.hashmap.foldl (fun l t => l.orderedInsert (fun a b => geEntry b a = true) t) []

lemma foldl_insertContact (ts l : List Entry) :
    ts.foldl insertContact (vectors l) =
      vectors (ts.foldl (fun l t => l.orderedInsert (fun a b => geEntry b a = true) t) l) := by
  induction ts generalizing l with
  | nil => rfl
  | cons t ts ih => rw [List.foldl_cons, insertContact_vectors, ih, List.foldl_cons]

lemma getContacts_eq (m : NodeInfoMap) : getContacts m = (orderedEntries m).map Prod.fst := by
  have hempty : (⟨[], []⟩ : Vectors) = vectors [] := rfl
  rw [getContacts, hempty, foldl_insertContact]
  rfl

/-- **Contact ordering.**  Whatever the map has, `GetContacts` returns each of its contacts once,
in the order of their heuristics. -/
theorem getContacts_listed (m : NodeInfoMap) : Listed m (getContacts m) := by
  have hperm : (orderedEntries m).Perm m.hashmap := by
    have h := perm_foldl_orderedInsert geEntry m.hashmap []
    rwa [List.append_nil] at h
  have hkeys : ((orderedEntries m).map Prod.fst).Perm (m.hashmap.map Prod.fst) := hperm.map _
  rw [getContacts_eq]
  refine ⟨hkeys, hkeys.nodup_iff.mpr m.nodup, List.pairwise_map.mpr ?_⟩
  have hsorted : NonDecreasing ltEntry (orderedEntries m) :=
    NonDecreasing.foldl_orderedInsert comparisonEntry m.hashmap .nil
  refine hsorted.imp_of_mem fun {a b} ha hb hlt i j hi hj => ?_
  have hinj := List.inj_on_of_nodup_map m.nodup
  have ha' : a = (a.1, i) := hinj (hperm.subset ha) hi rfl
  have hb' : b = (b.1, j) := hinj (hperm.subset hb) hj rfl
  rw [ltEntry, ha', hb'] at hlt
  exact hlt

end PopCpp.Services
