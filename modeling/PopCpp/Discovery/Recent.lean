/-
# Which neighbour lists an exploration list keeps

`addListNode` clears a neighbour list as soon as there is one more than `NEIGHBORSPATH` of them.
The list that it clears is the first one in the order of the map, which is the order of the
node ids.  So the lists that are left are those of the greatest ids (`tops_ofCalls`); they are
those of the last nodes on the path exactly if every one of these has a greater id than all nodes
before (`keepsRecent_iff`).
-/
import PopCpp.Lib.Greatest
import PopCpp.Discovery.Transfer

namespace Discovery.ExplorationList

variable {N : Type*} [LinearOrder N]

/-- The list after a sequence of calls of `addListNode`. -/
def ofCalls (calls : List (N × List N)) : ExplorationList N :=
  calls.foldl (fun el e => el.addListNode e.1 e.2) []

/-- The nodes of the last `NEIGHBORSPATH` calls, and their neighbours. -/
def recent (calls : List (N × List N)) : List (N × List N) :=
  calls.drop (calls.length - neighborsPath)

/-- The nodes before. -/
def earlier (calls : List (N × List N)) : List (N × List N) :=
  calls.take (calls.length - neighborsPath)

/-- The neighbour lists that are left are those of the last `NEIGHBORSPATH` nodes. -/
def KeepsRecent (calls : List (N × List N)) : Prop :=
  ∀ e, e ∈ (ofCalls calls).filled ↔ e ∈ recent calls

/-- The ids of the nodes with a neighbour list. -/
def filledKeys (el : ExplorationList N) : Finset N := (el.filled.map Prod.fst).toFinset

lemma mem_filledKeys {el : ExplorationList N} {k : N} :
    k ∈ el.filledKeys ↔ ∃ e ∈ el, e.2 ≠ [] ∧ e.1 = k := by
  simp [filledKeys, mem_filled]

lemma Kept.card_filledKeys {el : ExplorationList N} (h : el.Pairwise fun a b => a.1 < b.1) :
    el.filledKeys.card = el.crtNeighborsPath := by
  have hnodup : (el.filled.map Prod.fst).Nodup :=
    List.pairwise_map.mpr ((h.sublist List.filter_sublist).imp fun hlt => hlt.ne)
  rw [filledKeys, List.toFinset_card_of_nodup hnodup, List.length_map, length_filled]

/-! ### One call -/

section Call

variable {el : ExplorationList N} {a : N × List N}

lemma filledKeys_insert (hnew : ∀ f ∈ el, f.1 ≠ a.1) (ha : a.2 ≠ []) :
    (insert a.1 a.2 el).filledKeys = Insert.insert a.1 el.filledKeys := by
  ext k
  simp only [Finset.mem_insert, mem_filledKeys, mem_insert_of_new hnew, or_and_right,
    exists_or, exists_eq_left, ha, ne_eq, not_false_eq_true, true_and, eq_comm]

/-- The list that is cleared is the one of the least id. -/
lemma filledKeys_clearFirst (h : el.Pairwise fun a b => a.1 < b.1)
    (hfilled : 0 < el.crtNeighborsPath) :
    ∃ m ∈ el.filledKeys, (∀ k ∈ el.filledKeys, m ≤ k) ∧
      (clearFirst el).filledKeys = el.filledKeys.erase m := by
  obtain ⟨f, hf, hne, hleast, hmem⟩ := exists_clearFirst h hfilled
  refine ⟨f.1, mem_filledKeys.mpr ⟨f, hf, hne, rfl⟩, fun k hk => ?_, ?_⟩
  · obtain ⟨g, hg, hgne, rfl⟩ := mem_filledKeys.mp hk
    rcases eq_or_ne g.1 f.1 with heq | hne'
    · exact heq.ge
    · exact (hleast g hg hgne hne').le
  · ext k
    rw [Finset.mem_erase, mem_filledKeys, mem_filledKeys]
    constructor
    · rintro ⟨g, hg, hgne, rfl⟩
      rcases (hmem g).mp hg with rfl | ⟨hg, hkey⟩
      · exact absurd rfl hgne
      · exact ⟨hkey, g, hg, hgne, rfl⟩
    · rintro ⟨hkey, g, hg, hgne, rfl⟩
      exact ⟨g, (hmem g).mpr (.inr ⟨hg, hkey⟩), hgne, rfl⟩

end Call

/-! ### All calls -/

/-- The neighbour lists that are left are some of those that were added, for the greatest ids. -/
structure Tops (calls : List (N × List N)) (el : ExplorationList N) : Prop where
  kept : el.Kept
  keys : ∀ k, (∃ f ∈ el, f.1 = k) ↔ ∃ f ∈ calls, f.1 = k
  held : ∀ e ∈ el.filled, e ∈ calls
  top : IsGreatestSubset neighborsPath (calls.map Prod.fst).toFinset el.filledKeys

lemma Tops.nil : Tops ([] : List (N × List N)) [] where
  kept := ⟨List.Pairwise.nil, Nat.zero_le _⟩
  keys := by simp
  held := by simp [filled]
  top := .empty _

lemma Tops.concat {calls : List (N × List N)} {el : ExplorationList N} (h : Tops calls el)
    {a : N × List N} (hnew : ∀ f ∈ calls, f.1 ≠ a.1) (ha : a.2 ≠ []) :
    Tops (calls ++ [a]) (el.addListNode a.1 a.2) := by
  have hel : ∀ f ∈ el, f.1 ≠ a.1 := by
    intro f hf hkey
    obtain ⟨g, hg, hgkey⟩ := (h.keys a.1).mp ⟨f, hf, hkey⟩
    exact hnew g hg hgkey
  have hsorted := sorted_insert a.1 a.2 h.kept.sorted
  have hkeys := filledKeys_insert hel ha
  have hcard := Kept.card_filledKeys hsorted
  have hnotin : a.1 ∉ (calls.map Prod.fst).toFinset := by
    simp only [List.mem_toFinset, List.mem_map, not_exists, not_and]
    exact hnew
  have hcalls : ((calls ++ [a]).map Prod.fst).toFinset =
      Insert.insert a.1 (calls.map Prod.fst).toFinset := by
    ext k
    simp
  have hinserted : ∀ e ∈ (insert a.1 a.2 el).filled, e ∈ calls ++ [a] := by
    intro e he
    obtain ⟨he, hne⟩ := mem_filled.mp he
    rcases (mem_insert_of_new hel).mp he with rfl | he
    · exact List.mem_append_right _ List.mem_cons_self
    · exact List.mem_append_left _ (h.held e (mem_filled.mpr ⟨he, hne⟩))
  refine ⟨h.kept.addListNode a.1 a.2, fun k => ?_, ?_, ?_⟩
  · rw [exists_key_addListNode, h.keys]
    simp [or_and_right, exists_or, or_comm, eq_comm]
  · rw [addListNode]
    split
    · intro e he
      obtain ⟨he, hne⟩ := mem_filled.mp he
      obtain ⟨f, -, -, -, hmem⟩ := exists_clearFirst hsorted (by omega)
      rcases (hmem e).mp he with rfl | ⟨he, -⟩
      · exact absurd rfl hne
      · exact hinserted e (mem_filled.mpr ⟨he, hne⟩)
    · exact hinserted
  · rw [hcalls, addListNode]
    split
    · next hmany =>
        -- one filled element too many: the least, perhaps the new one, is emptied
        obtain ⟨m, hm, hleast, herase⟩ := filledKeys_clearFirst hsorted (by omega)
        rw [herase, hkeys]
        rw [hkeys] at hm hleast hcard
        exact h.top.insert_erase hnotin (by omega) hm hleast
    · next hfew =>
        rw [hkeys] at hcard ⊢
        exact h.top.insert_of_le hnotin (by omega)

lemma tops_ofCalls (calls : List (N × List N)) (hnodup : (calls.map Prod.fst).Nodup)
    (hne : ∀ e ∈ calls, e.2 ≠ []) : Tops calls (ofCalls calls) := by
  induction calls using List.reverseRecOn with
  | nil => exact .nil
  | append_singleton calls a ih =>
      rw [List.map_append, List.nodup_append] at hnodup
      obtain ⟨hcalls, -, hdisjoint⟩ := hnodup
      rw [ofCalls, List.foldl_append]
      refine (ih hcalls fun e he => hne e (List.mem_append_left _ he)).concat (fun f hf => ?_)
        (hne a (by simp))
      exact hdisjoint f.1 (List.mem_map_of_mem hf) a.1 (by simp)

/-! ### The last nodes -/

section Recent

variable {calls : List (N × List N)}

omit [LinearOrder N] in
lemma earlier_append_recent (calls : List (N × List N)) : earlier calls ++ recent calls = calls :=
  List.take_append_drop _ _

lemma isGreatestSubset_recent_iff (hnodup : (calls.map Prod.fst).Nodup) :
    IsGreatestSubset neighborsPath (calls.map Prod.fst).toFinset
        ((recent calls).map Prod.fst).toFinset ↔
      ∀ e ∈ earlier calls, ∀ f ∈ recent calls, e.1 < f.1 := by
  have hsplit := earlier_append_recent calls
  have hdisjoint : ∀ e ∈ earlier calls, ∀ f ∈ recent calls, e.1 ≠ f.1 := by
    rw [← hsplit, List.map_append, List.nodup_append] at hnodup
    exact fun e he f hf => hnodup.2.2 e.1 (List.mem_map_of_mem he) f.1 (List.mem_map_of_mem hf)
  constructor
  · intro h e he f hf
    refine lt_of_le_of_ne (not_lt.mp fun hlt => ?_) (hdisjoint e he f hf)
    -- a greater id of an earlier node would belong to the greatest
    have hmem := h.upper f.1 (List.mem_toFinset.mpr (List.mem_map_of_mem hf)) e.1
      (List.mem_toFinset.mpr (List.mem_map_of_mem (List.mem_of_mem_take he))) hlt
    obtain ⟨g, hg, hkey⟩ := List.mem_map.mp (List.mem_toFinset.mp hmem)
    exact hdisjoint e he g hg hkey.symm
  · intro h
    refine ⟨fun k hk => ?_, fun k hk l hl hlt => ?_, ?_⟩
    · obtain ⟨f, hf, rfl⟩ := List.mem_map.mp (List.mem_toFinset.mp hk)
      exact List.mem_toFinset.mpr (List.mem_map_of_mem (List.mem_of_mem_drop hf))
    · obtain ⟨f, hf, rfl⟩ := List.mem_map.mp (List.mem_toFinset.mp hk)
      obtain ⟨g, hg, rfl⟩ := List.mem_map.mp (List.mem_toFinset.mp hl)
      rw [← hsplit, List.mem_append] at hg
      rcases hg with hg | hg
      · exact absurd (h g hg f hf) hlt.asymm
      · exact List.mem_toFinset.mpr (List.mem_map_of_mem hg)
    · have hrecent : ((recent calls).map Prod.fst).Nodup :=
        hnodup.sublist ((List.drop_sublist _ _).map _)
      rw [List.toFinset_card_of_nodup hrecent, List.toFinset_card_of_nodup hnodup,
        List.length_map, List.length_map, recent, List.length_drop]
      omega

/-- **The most recent neighbours.**  They are kept exactly if the ids of the last nodes are
greater than the ids of all nodes before. -/
theorem keepsRecent_iff (calls : List (N × List N)) (hnodup : (calls.map Prod.fst).Nodup)
    (hne : ∀ e ∈ calls, e.2 ≠ []) :
    KeepsRecent calls ↔ ∀ e ∈ earlier calls, ∀ f ∈ recent calls, e.1 < f.1 := by
  have htops := tops_ofCalls calls hnodup hne
  rw [← isGreatestSubset_recent_iff hnodup]
  constructor
  · intro h
    have hkeys : (ofCalls calls).filledKeys = ((recent calls).map Prod.fst).toFinset := by
      ext k
      simp only [filledKeys, List.mem_toFinset, List.mem_map, h _]
    exact hkeys ▸ htops.top
  · intro h e
    have hkeys := htops.top.eq h
    have hunique : ∀ f ∈ calls, ∀ g ∈ calls, f.1 = g.1 → f = g := fun f hf g hg hkey =>
      List.inj_on_of_nodup_map hnodup hf hg hkey
    constructor
    · intro he
      have hmem : e.1 ∈ (ofCalls calls).filledKeys :=
        List.mem_toFinset.mpr (List.mem_map_of_mem he)
      rw [hkeys] at hmem
      obtain ⟨f, hf, hkey⟩ := List.mem_map.mp (List.mem_toFinset.mp hmem)
      rwa [← hunique f (List.mem_of_mem_drop hf) e (htops.held e he) hkey]
    · intro he
      have hmem : e.1 ∈ ((recent calls).map Prod.fst).toFinset :=
        List.mem_toFinset.mpr (List.mem_map_of_mem he)
      rw [← hkeys] at hmem
      obtain ⟨f, hf, hkey⟩ := List.mem_map.mp (List.mem_toFinset.mp hmem)
      rwa [← hunique f (htops.held f hf) e (List.mem_of_mem_drop he) hkey]

end Recent

end Discovery.ExplorationList

namespace Discovery.Serialize

open ExplorationList

attribute [local instance] byteOrder

/-- Six nodes in the order of their ids. -/
def ascendingPath : List (Str × List Str) :=
  [([97], [[49]]), ([98], [[50]]), ([99], [[51]]), ([100], [[52]]), ([101], [[53]]),
    ([102], [[54]])]

theorem keepsRecent_ascendingPath : KeepsRecent ascendingPath :=
  (keepsRecent_iff ascendingPath (by decide) (by decide)).mpr (by decide)

/-- The node that was visited first has the greatest id: the second one loses its list. -/
theorem recent_not_kept :
    ¬∀ calls : List (Str × List Str), (calls.map Prod.fst).Nodup → (∀ e ∈ calls, e.2 ≠ []) →
      KeepsRecent calls := by
  intro h
  have hkeeps := h
    [([122], [[49]]), ([98], [[50]]), ([99], [[51]]), ([100], [[52]]), ([101], [[53]]),
      ([102], [[54]])] (by decide) (by decide)
  exact absurd ((hkeeps ([98], [[50]])).mpr (by decide)) (by decide)

end Discovery.Serialize
