/-
# Objects of the discovery, passed on

Requests, responses, node infos, ways back and exploration lists are passed to other nodes with
`Serialize`.  Packing should leave the object alone, and unpacking should make any object equal
to the one that was packed, whatever it held before.

A way back is used up as it is packed.  An exploration list is not cleared before the entries of
the other one are added to it, and neither are the node infos; a request keeps what it has in the
members that are not set.
-/
import PopCpp.Discovery.Serialize
import PopCpp.Interface.AccessPoint
import Mathlib.Data.List.Sort

namespace Discovery

/-! ### Exploration lists that are merged -/

namespace ExplorationList

variable {N : Type*}

/-- The entries with a neighbour list. -/
def filled (el : ExplorationList N) : ExplorationList N := el.filter fun e => !e.2.isEmpty

lemma mem_filled {el : ExplorationList N} {e : N × List N} :
    e ∈ el.filled ↔ e ∈ el ∧ e.2 ≠ [] := by
  simp [filled, List.mem_filter]

lemma length_filled (el : ExplorationList N) : el.filled.length = el.crtNeighborsPath :=
  List.countP_eq_length_filter.symm

lemma length_le_crtNeighborsPath (es el : ExplorationList N) (hes : es.Nodup)
    (h : ∀ e ∈ es, e ∈ el ∧ e.2 ≠ []) : es.length ≤ el.crtNeighborsPath := by
  rw [← length_filled]
  exact (List.subperm_of_subset hes fun e he => mem_filled.mpr (h e he)).length_le

variable [LinearOrder N]

/-- A neighbour list that an exploration list has lost again, to five with later keys. -/
structure Spilled (el : ExplorationList N) (e : N × List N) : Prop where
  nonempty : e.2 ≠ []
  cleared : (e.1, []) ∈ el
  full : el.crtNeighborsPath = neighborsPath
  later : ∀ f ∈ el, f.2 ≠ [] → e.1 < f.1

/-- The entry is there, or its neighbour list has been lost again. -/
def Accounts (el : ExplorationList N) (e : N × List N) : Prop := e ∈ el ∨ Spilled el e

/-- The entries of `old`, and for other keys the first ones of `added`, are those of `el`. -/
structure Merges (el old added : ExplorationList N) : Prop where
  held : ∀ e ∈ old, el.Accounts e
  first : ∀ e, added.find? (·.1 = e.1) = some e → (∀ f ∈ old, f.1 ≠ e.1) → el.Accounts e
  keys : ∀ e ∈ el, ∃ f ∈ old ++ added, f.1 = e.1

lemma accounts_nil_iff {el : ExplorationList N} {k : N} :
    el.Accounts (k, []) ↔ (k, []) ∈ el :=
  ⟨fun h => h.elim (fun hmem => hmem) fun hspilled => absurd rfl hspilled.nonempty, Or.inl⟩

lemma Kept.nodup_keys {el : ExplorationList N} (h : el.Kept) : (el.map Prod.fst).Nodup :=
  (List.pairwise_map.mpr (h.sorted.imp fun hlt => hlt)).imp ne_of_lt

lemma Kept.nodup {el : ExplorationList N} (h : el.Kept) : el.Nodup := h.nodup_keys.of_map

/-- There is one entry for a key. -/
lemma Kept.eq_of_key {el : ExplorationList N} (h : el.Kept) {e f : N × List N} (he : e ∈ el)
    (hf : f ∈ el) (hkey : e.1 = f.1) : e = f :=
  List.inj_on_of_nodup_map h.nodup_keys he hf hkey

/-- An exploration list is another one if its entries are accounted for there and no key is
missing. -/
lemma Kept.eq_iff {el old : ExplorationList N} (hel : el.Kept) (hold : old.Kept) :
    old = el ↔ (∀ e ∈ old, el.Accounts e) ∧ ∀ e ∈ el, ∃ f ∈ old, f.1 = e.1 := by
  constructor
  · rintro rfl
    exact ⟨fun e he => Or.inl he, fun e he => ⟨e, he, rfl⟩⟩
  · rintro ⟨hheld, hkeys⟩
    have hfilled : ∀ g ∈ el, g.2 ≠ [] → g ∈ old := by
      intro g hg hne
      obtain ⟨f, hf, hkey⟩ := hkeys g hg
      rcases hheld f hf with hmem | hspilled
      · rwa [hel.eq_of_key hmem hg hkey] at hf
      · have hg' := hel.eq_of_key hspilled.cleared hg hkey
        rw [← hg'] at hne
        exact absurd rfl hne
    have hsub : ∀ e ∈ old, e ∈ el := by
      intro e he
      refine (hheld e he).resolve_right fun hspilled => ?_
      -- Then `old` has this neighbour list and the five of `el`.
      have hnot : e ∉ el.filled := fun h =>
        lt_irrefl _ (hspilled.later e (mem_filled.mp h).1 hspilled.nonempty)
      have hlen := length_le_crtNeighborsPath (e :: el.filled) old
        (List.nodup_cons.mpr ⟨hnot, hel.nodup.filter _⟩) (List.forall_mem_cons.mpr
          ⟨⟨he, hspilled.nonempty⟩, fun g hg =>
            ⟨hfilled g (mem_filled.mp hg).1 (mem_filled.mp hg).2, (mem_filled.mp hg).2⟩⟩)
      have hshort := hold.short
      rw [List.length_cons, length_filled, hspilled.full] at hlen
      omega
    have hperm : List.Perm old el := by
      refine (List.perm_ext_iff_of_nodup hold.nodup hel.nodup).mpr fun e => ⟨hsub e, fun he => ?_⟩
      obtain ⟨f, hf, hkey⟩ := hkeys e he
      rwa [hel.eq_of_key (hsub f hf) he hkey] at hf
    exact hperm.eq_of_pairwise (fun a b _ _ hab hba => absurd hba hab.asymm) hold.sorted
      hel.sorted

/-- The first entry with a neighbour list loses it. -/
lemma exists_clearFirst {el : ExplorationList N} (h : el.Pairwise fun a b => a.1 < b.1)
    (hfilled : 0 < el.crtNeighborsPath) :
    ∃ f ∈ el, f.2 ≠ [] ∧ (∀ g ∈ el, g.2 ≠ [] → g.1 ≠ f.1 → f.1 < g.1) ∧
      ∀ e, e ∈ clearFirst el ↔ e = (f.1, []) ∨ e ∈ el ∧ e.1 ≠ f.1 := by
  induction el with
  | nil => exact absurd hfilled (by simp [crtNeighborsPath])
  | cons a el ih =>
      rw [List.pairwise_cons] at h
      rw [clearFirst]
      split
      · next hnil =>
          rw [List.isEmpty_iff] at hnil
          rw [crtNeighborsPath, List.countP_cons_of_neg (by simp [hnil])] at hfilled
          -- the head is empty already, and the entry is further down
          obtain ⟨f, hf, hne, hleast, hmem⟩ := ih h.2 hfilled
          refine ⟨f, List.mem_cons_of_mem _ hf, hne, ?_, fun e => ?_⟩
          · rintro g hg hgne
            rcases List.mem_cons.mp hg with rfl | hg
            · exact absurd hnil hgne
            · exact hleast g hg hgne
          · have ha : a.1 ≠ f.1 := (h.1 f hf).ne
            rw [List.mem_cons, List.mem_cons, hmem]
            constructor
            · rintro (rfl | rfl | ⟨he, hkey⟩)
              · exact Or.inr ⟨Or.inl rfl, ha⟩
              · exact Or.inl rfl
              · exact Or.inr ⟨Or.inr he, hkey⟩
            · rintro (rfl | ⟨rfl | he, hkey⟩)
              · exact Or.inr (Or.inl rfl)
              · exact Or.inl rfl
              · exact Or.inr (Or.inr ⟨he, hkey⟩)
      · next hne =>
          rw [List.isEmpty_iff] at hne
          -- the head is the entry, and it is the least key of all
          refine ⟨a, List.mem_cons_self, hne, ?_, fun e => ?_⟩
          · rintro g hg - hkey
            rcases List.mem_cons.mp hg with rfl | hg
            · exact absurd rfl hkey
            · exact h.1 g hg
          · rw [List.mem_cons, List.mem_cons]
            constructor
            · rintro (rfl | he)
              · exact Or.inl rfl
              · exact Or.inr ⟨Or.inr he, (h.1 e he).ne'⟩
            · rintro (rfl | ⟨rfl | he, hkey⟩)
              · exact Or.inl rfl
              · exact absurd rfl hkey
              · exact Or.inr he

/-- A neighbour list that is lost to five with later keys, all of them accounted for, is itself
accounted for if and only if its node is left without one. -/
lemma Kept.accounts_iff {el kept : ExplorationList N} (hel : el.Kept) (hkept : kept.Nodup)
    (hfull : kept.crtNeighborsPath = neighborsPath) {f : N × List N} (hne : f.2 ≠ [])
    (hlater : ∀ g ∈ kept, g.2 ≠ [] → f.1 < g.1)
    (hheld : ∀ g ∈ kept, g.2 ≠ [] → el.Accounts g) :
    el.Accounts f ↔ (f.1, []) ∈ el := by
  have hlen : kept.filled.length = neighborsPath := (length_filled kept).trans hfull
  have hshort := hel.short
  constructor
  · rintro (hf | hspilled)
    · -- None of the five is lost itself, so that `el` has six.
      exfalso
      have hnot : f ∉ kept.filled := fun h =>
        lt_irrefl _ (hlater f (mem_filled.mp h).1 hne)
      have hcount := length_le_crtNeighborsPath (f :: kept.filled) el
        (List.nodup_cons.mpr ⟨hnot, hkept.filter _⟩) (List.forall_mem_cons.mpr
          ⟨⟨hf, hne⟩, fun g hg => by
            obtain ⟨hg, hgne⟩ := mem_filled.mp hg
            refine ⟨(hheld g hg hgne).resolve_right fun hspilled => ?_, hgne⟩
            exact lt_asymm (hspilled.later f hf hne) (hlater g hg hgne)⟩)
      rw [List.length_cons, hlen] at hcount
      omega
    · exact hspilled.cleared
  · intro hcleared
    by_cases hlost : ∃ g ∈ kept, g.2 ≠ [] ∧ Spilled el g
    · obtain ⟨g, hg, hgne, hspilled⟩ := hlost
      exact Or.inr ⟨hne, hcleared, hspilled.full, fun h hh hhne =>
        (hlater g hg hgne).trans (hspilled.later h hh hhne)⟩
    · -- The five are those of `el`.
      have hmem : ∀ g ∈ kept.filled, g ∈ el ∧ g.2 ≠ [] := by
        intro g hg
        obtain ⟨hg, hgne⟩ := mem_filled.mp hg
        exact ⟨(hheld g hg hgne).resolve_right fun hspilled => hlost ⟨g, hg, hgne, hspilled⟩, hgne⟩
      have hcount := length_le_crtNeighborsPath _ _ (hkept.filter _) hmem
      have hlen' : el.filled.length = neighborsPath := by
        rw [length_filled]
        exact le_antisymm hshort (hlen.symm.trans_le hcount)
      have hperm := (List.subperm_of_subset (hkept.filter _) fun g hg =>
        mem_filled.mpr (hmem g hg)).perm_of_length_le (hlen'.trans hlen.symm).le
      refine Or.inr ⟨hne, hcleared, (length_filled el).symm.trans hlen', fun h hh hhne => ?_⟩
      have hh' := mem_filled.mp (hperm.mem_iff.mpr (mem_filled.mpr ⟨hh, hhne⟩))
      exact hlater h hh'.1 hhne

lemma insert_of_mem {el : ExplorationList N} (h : el.Pairwise fun a b => a.1 < b.1)
    {f : N × List N} (hf : f ∈ el) (neighbors : List N) : insert f.1 neighbors el = el := by
  induction el with
  | nil => exact absurd hf List.not_mem_nil
  | cons a el ih =>
      rw [List.pairwise_cons] at h
      rw [insert]
      rcases List.mem_cons.mp hf with rfl | hf
      · rw [if_neg (lt_irrefl _), if_pos rfl]
      · rw [if_neg (h.1 f hf).asymm, if_neg (h.1 f hf).ne', ih h.2 hf]

lemma mem_insert_of_new {el : ExplorationList N} {nodeId : N} (hnew : ∀ f ∈ el, f.1 ≠ nodeId)
    {neighbors : List N} {e : N × List N} :
    e ∈ insert nodeId neighbors el ↔ e = (nodeId, neighbors) ∨ e ∈ el := by
  refine ⟨fun h => (mem_insert h).symm, ?_⟩
  rintro (rfl | he)
  · obtain ⟨f, hf, hkey⟩ := key_mem_insert nodeId neighbors el
    rcases mem_insert hf with hf' | rfl
    · exact absurd hkey (hnew f hf')
    · exact hf
  · exact mem_insert_of_mem he

lemma exists_key_insert {el : ExplorationList N} {nodeId : N} (neighbors : List N) {k : N} :
    (∃ f ∈ insert nodeId neighbors el, f.1 = k) ↔ k = nodeId ∨ ∃ f ∈ el, f.1 = k := by
  constructor
  · rintro ⟨f, hf, rfl⟩
    rcases mem_insert hf with hf | rfl
    · exact Or.inr ⟨f, hf, rfl⟩
    · exact Or.inl rfl
  · rintro (rfl | ⟨f, hf, rfl⟩)
    · exact key_mem_insert k neighbors el
    · exact ⟨f, mem_insert_of_mem hf, rfl⟩

lemma exists_key_addListNode (el : ExplorationList N) (nodeId : N) (neighbors : List N) {k : N} :
    (∃ f ∈ el.addListNode nodeId neighbors, f.1 = k) ↔ k = nodeId ∨ ∃ f ∈ el, f.1 = k := by
  rw [← exists_key_insert neighbors, addListNode]
  split
  · simp only [← List.mem_map, map_fst_clearFirst]
  · rfl

/-- Adding an entry for a new key keeps account of all entries exactly if it is accounted for
itself. -/
lemma Kept.forall_accounts_addListNode {el old : ExplorationList N} (hel : el.Kept)
    (hold : old.Kept) {a : N × List N} (hnew : ∀ f ∈ old, f.1 ≠ a.1) :
    (∀ e ∈ old.addListNode a.1 a.2, el.Accounts e) ↔
      el.Accounts a ∧ ∀ e ∈ old, el.Accounts e := by
  have hmem : ∀ e, e ∈ insert a.1 a.2 old ↔ e = a ∨ e ∈ old := fun e => mem_insert_of_new hnew
  have hinsert : (∀ e ∈ insert a.1 a.2 old, el.Accounts e) ↔
      el.Accounts a ∧ ∀ e ∈ old, el.Accounts e := by
    simp only [hmem, forall_eq_or_imp]
  rw [← hinsert, ExplorationList.addListNode]
  split
  · next hmany =>
      have hsorted := sorted_insert a.1 a.2 hold.sorted
      have hkept : (clearFirst (insert a.1 a.2 old)).Kept := by
        have h := hold.addListNode a.1 a.2
        rwa [ExplorationList.addListNode, if_pos hmany] at h
      have hfull : (clearFirst (insert a.1 a.2 old)).crtNeighborsPath = neighborsPath := by
        have hle := crtNeighborsPath_insert_le a.1 a.2 old
        have hshort := hold.short
        rw [crtNeighborsPath_clearFirst]
        omega
      obtain ⟨f, hf, hne, hleast, hclear⟩ := exists_clearFirst hsorted (by omega)
      have hlater : ∀ g ∈ clearFirst (insert a.1 a.2 old), g.2 ≠ [] → f.1 < g.1 := by
        intro g hg hgne
        rcases (hclear g).mp hg with rfl | ⟨hg, hkey⟩
        · exact absurd rfl hgne
        · exact hleast g hg hgne hkey
      constructor
      · intro hheld e he
        by_cases hkey : e.1 = f.1
        · have hef : e = f :=
            List.inj_on_of_nodup_map ((List.pairwise_map.mpr hsorted).imp ne_of_lt) he hf hkey
          rw [hef, hel.accounts_iff hkept.nodup hfull hne hlater fun g hg _ => hheld g hg]
          exact accounts_nil_iff.mp (hheld _ ((hclear _).mpr (Or.inl rfl)))
        · exact hheld e ((hclear e).mpr (Or.inr ⟨he, hkey⟩))
      · intro hheld e he
        rcases (hclear e).mp he with rfl | ⟨he, -⟩
        · rw [accounts_nil_iff, ← hel.accounts_iff hkept.nodup hfull hne hlater ?_]
          · exact hheld f hf
          · intro g hg hgne
            rcases (hclear g).mp hg with rfl | ⟨hg, -⟩
            · exact absurd rfl hgne
            · exact hheld g hg
        · exact hheld e he
  · rfl

/-- **What one more entry changes.** -/
lemma Kept.merges_cons_iff {el old added : ExplorationList N} (hel : el.Kept) (hold : old.Kept)
    (a : N × List N) :
    Merges el old (a :: added) ↔ Merges el (old.addListNode a.1 a.2) added := by
  have hkeys : (∀ e ∈ el, ∃ f ∈ old ++ a :: added, f.1 = e.1) ↔
      ∀ e ∈ el, ∃ f ∈ old.addListNode a.1 a.2 ++ added, f.1 = e.1 := by
    have hor : ∀ (es : ExplorationList N) (k : N), (∃ f ∈ es ++ added, f.1 = k) ↔
        (∃ f ∈ es, f.1 = k) ∨ ∃ f ∈ added, f.1 = k := fun es k => by
      simp only [List.mem_append, or_and_right, exists_or]
    refine forall₂_congr fun e _ => ?_
    rw [hor, exists_key_addListNode, List.append_cons, hor]
    simp only [List.mem_append, List.mem_singleton, or_and_right, exists_or, exists_eq_left]
    rw [or_comm (a := ∃ f ∈ old, f.1 = e.1), eq_comm]
  by_cases hnew : ∀ f ∈ old, f.1 ≠ a.1
  -- a new key: the entry is inserted, and it must be accounted for
  · have hheld := hel.forall_accounts_addListNode hold hnew
    constructor
    · intro h
      have ha : el.Accounts a := h.first a (by simp) hnew
      refine ⟨hheld.mpr ⟨ha, h.held⟩, fun e he hother => h.first e ?_ ?_, hkeys.mp h.keys⟩
      · have hne : a.1 ≠ e.1 := fun hkey => by
          obtain ⟨f, hf, hfkey⟩ := (exists_key_addListNode old a.1 a.2).mpr (Or.inl rfl)
          exact hother f hf (hfkey.trans hkey)
        rwa [List.find?_cons_of_neg (by simpa using hne)]
      · intro f hf hkey
        obtain ⟨g, hg, hgkey⟩ := (exists_key_addListNode old a.1 a.2).mpr (Or.inr ⟨f, hf, rfl⟩)
        exact hother g hg (hgkey.trans hkey)
    · intro h
      obtain ⟨ha, hheld'⟩ := hheld.mp h.held
      refine ⟨hheld', fun e he hother => ?_, hkeys.mpr h.keys⟩
      rcases eq_or_ne a.1 e.1 with hkey | hkey
      · rw [List.find?_cons_of_pos (by simpa using hkey)] at he
        rwa [← Option.some.inj he]
      · rw [List.find?_cons_of_neg (by simpa using hkey)] at he
        refine h.first e he fun f hf hfkey => ?_
        rcases (exists_key_addListNode _ _ _).mp ⟨f, hf, rfl⟩ with hf | ⟨g, hg, hgkey⟩
        · exact hkey (hf.symm.trans hfkey)
        · exact hother g hg (hgkey.trans hfkey)
  · push Not at hnew
    obtain ⟨f, hf, hfkey⟩ := hnew
    -- a key that is held: `insert` keeps the entry that is there
    have hsame : old.addListNode a.1 a.2 = old := by
      rw [ExplorationList.addListNode, ← hfkey, insert_of_mem hold.sorted hf]
      exact if_neg (Nat.not_lt.mpr hold.short)
    rw [hsame] at hkeys ⊢
    have hfind : ∀ e : N × List N, (∀ g ∈ old, g.1 ≠ e.1) →
        (a :: added).find? (·.1 = e.1) = added.find? (·.1 = e.1) := fun e hother =>
      List.find?_cons_of_neg (by simpa using fun hkey => hother f hf (hfkey.trans hkey))
    constructor
    · intro h
      exact ⟨h.held, fun e he hother => h.first e (by rwa [hfind e hother]) hother,
        hkeys.mp h.keys⟩
    · intro h
      exact ⟨h.held, fun e he hother => h.first e (by rwa [hfind e hother] at he) hother,
        hkeys.mpr h.keys⟩

/-- **Merging.**  Adding the entries of a list to another gives `el` if and only if the two have
the keys of `el` and all entries that count are accounted for there. -/
theorem Kept.merge_eq_iff {el old : ExplorationList N} (hel : el.Kept) (hold : old.Kept)
    (added : ExplorationList N) :
    added.foldl (fun acc e => acc.addListNode e.1 e.2) old = el ↔ Merges el old added := by
  induction added generalizing old with
  | nil =>
      rw [List.foldl_nil, hel.eq_iff hold]
      constructor
      · rintro ⟨hheld, hkeys⟩
        exact ⟨hheld, fun e he => absurd he (by simp), by simpa using hkeys⟩
      · rintro h
        exact ⟨h.held, by simpa using h.keys⟩
  | cons a added ih => rw [List.foldl_cons, ih (hold.addListNode a.1 a.2), hel.merges_cons_iff hold]

end ExplorationList

namespace Serialize

open PopCpp.Buffer CInt Binary32 PopCpp.Access

attribute [local instance] byteOrder

/-! ### Serialize -/

/-- `POPCSearchNodeInfo` -/
structure POPCSearchNodeInfo where
  nodeId : Str
  jobmgr : PopAccesspoint
  operatingSystem : Str
  power : Bits
  cpuSpeed : BitVec 32
  memorySize : Bits
  networkBandwidth : Bits
  diskSpace : BitVec 32
  protocol : Str
  encoding : Str
  pki : Str

/-- `Response` -/
structure Response where
  reqUniqueId : Str
  appid : Str
  foundNodeInfo : POPCSearchNodeInfo
  finalExplorationList : ExplorationList Str

/-- `POPWayback::operator=` -/
def assignWayback (t rhs : POPWayback Str) : POPWayback Str := if rhs.isEmpty then t else rhs

/-- `POPCSearchNodeInfo()`, at a place in memory. -/
def POPCSearchNodeInfo.new (memory : POPCSearchNodeInfo) : POPCSearchNodeInfo where
  nodeId := []
  jobmgr := .new
  operatingSystem := []
  power := memory.power
  cpuSpeed := memory.cpuSpeed
  memorySize := memory.memorySize
  networkBandwidth := memory.networkBandwidth
  diskSpace := memory.diskSpace
  protocol := []
  encoding := []
  pki := []

/-- `POPCSearchNodeInfo(info)`, at a place in memory: the copy constructors of the members. -/
def POPCSearchNodeInfo.copy (memory info : POPCSearchNodeInfo) : POPCSearchNodeInfo :=
  { info with jobmgr := memory.jobmgr.copy info.jobmgr }

section

variable (F : Format)

/-- The loop of `POPWayback::Serialize(buf, true)`. -/
def serializeElts : List Str → BufM (POPWayback Str)
  | [] => pure ⟨[]⟩
  | elt :: lstWb => do
      packString F elt
      serializeElts lstWb

/-- `POPWayback::Serialize(buf, true)` -/
def serializeWayback (wb : POPWayback Str) : BufM (POPWayback Str) := do
  packInt1 F (wrap wb.lstWb.length)
  serializeElts F wb.lstWb

/-- `ExplorationList::Serialize(buf, true)`, with the object that is packed. -/
def serializeExplorationList (el : ExplorationList Str) : BufM (ExplorationList Str) := do
  packExplorationList F el
  pure el

/-- What `POPCSearchNodeInfo::Serialize(buf, true)` packs. -/
def POPCSearchNodeInfo.pack (info : POPCSearchNodeInfo) : BufM Unit := do
  packString F info.nodeId
  packString F info.operatingSystem
  packFloat1 F info.power
  packBits1 F info.cpuSpeed
  packFloat1 F info.memorySize
  packFloat1 F info.networkBandwidth
  packBits1 F info.diskSpace
  packString F info.protocol
  packString F info.encoding
  packString F info.pki

/-- `POPCSearchNodeInfo::Serialize(buf, false)` -/
def POPCSearchNodeInfo.unPack (info : POPCSearchNodeInfo) : BufM POPCSearchNodeInfo := do
  let nodeId ← unPackString F
  let operatingSystem ← unPackString F
  let power ← unPackFloat1 F
  let cpuSpeed ← unPackBits1 F
  let memorySize ← unPackFloat1 F
  let networkBandwidth ← unPackFloat1 F
  let diskSpace ← unPackBits1 F
  let protocol ← unPackString F
  let encoding ← unPackString F
  let pki ← unPackString F
  pure {
    nodeId, jobmgr := info.jobmgr, operatingSystem, power, cpuSpeed, memorySize, networkBandwidth,
    diskSpace, protocol, encoding, pki }

/-- The loop of `POPCSearchNodeInfos::Serialize(buf, true)`. -/
def packInfos : List POPCSearchNodeInfo → BufM Unit
  | [] => pure ()
  | info :: infos => do
      info.pack F
      packInfos infos

/-- What `POPCSearchNodeInfos::Serialize(buf, true)` packs. -/
def packNodeInfos (infos : List POPCSearchNodeInfo) : BufM Unit := do
  packInt1 F (wrap infos.length)
  packInfos F infos

/-- `POPCSearchNodeInfos::Serialize(buf, true)`, with the object that is packed. -/
def serializeNodeInfos (infos : List POPCSearchNodeInfo) : BufM (List POPCSearchNodeInfo) := do
  packNodeInfos F infos
  pure infos

/-- The loop of `POPCSearchNodeInfos::Serialize(buf, false)`: each info is unpacked into a new
one and copied into the list.  `stack` and `memory` are what the places of the two hold. -/
def unPackInfos (stack : POPCSearchNodeInfo) :
    ℕ → (ℕ → POPCSearchNodeInfo) → List POPCSearchNodeInfo → BufM (List POPCSearchNodeInfo)
  | 0, _, infos => pure infos
  | n + 1, memory, infos => do
      let info ← (POPCSearchNodeInfo.new stack).unPack F
      unPackInfos stack n (fun i => memory (i + 1)) (infos ++ [(memory 0).copy info])

/-- `POPCSearchNodeInfos::Serialize(buf, false)` -/
def unPackNodeInfos (stack : POPCSearchNodeInfo) (memory : ℕ → POPCSearchNodeInfo)
    (infos : List POPCSearchNodeInfo) : BufM (List POPCSearchNodeInfo) := do
  let nElts ← unPackInt1 F
  unPackInfos F stack nElts.toNat memory infos

/-- What `Response::Serialize(buf, true)` packs. -/
def Response.pack (resp : Response) : BufM Unit := do
  packString F resp.reqUniqueId
  packString F resp.appid
  resp.foundNodeInfo.pack F
  packExplorationList F resp.finalExplorationList

/-- `Response::Serialize(buf, true)`, with the object that is packed. -/
def Response.serialize (resp : Response) : BufM Response := do
  resp.pack F
  pure resp

/-- `Response::Serialize(buf, false)` -/
def Response.unPack (resp : Response) : BufM Response := do
  let reqUniqueId ← unPackString F
  let appid ← unPackString F
  let foundNodeInfo ← resp.foundNodeInfo.unPack F
  let finalExplorationList ← unPackExplorationList F resp.finalExplorationList
  pure { reqUniqueId, appid, foundNodeInfo, finalExplorationList }

end

/-! ### Two laws -/

section

variable {X : Type}

/-- Packing leaves the object as it was. -/
def Keeps (serialize : X → BufM X) (hd : Header) (x : X) : Prop :=
  ∃ b, serialize x (empty hd) = .ok x b

/-- What is packed of `x` is unpacked into `old`, which is then equal to `x`. -/
def Overwrites (serialize unPack : X → BufM X) (hd : Header) (x old : X) : Prop :=
  ∃ x' b b', serialize x (empty hd) = .ok x' b ∧ unPack old b = .ok x b'

variable (hd : Header) (after : X → X) {pack : X → BufM Unit} {serialize unPack : X → BufM X}
  {x old v : X} {k : ℕ}

lemma serialize_of_empty
    (hser : serialize x = pack x >>= fun _ => pure (after x))
    (h : Carries (pack x) (unPack old) k v) (hk : 20 + k < 2 ^ 31) :
    ∃ b b', serialize x (empty hd) = .ok (after x) b ∧ unPack old b = .ok v b' := by
  obtain ⟨b, b', hpack, -, hunpack, -⟩ := h.of_empty hk hd
  refine ⟨b, b', ?_, hunpack⟩
  rw [hser, BufM.bind_ok hpack]
  rfl

lemma keeps_iff (hser : serialize x = pack x >>= fun _ => pure (after x))
    (h : Carries (pack x) (unPack old) k v) (hk : 20 + k < 2 ^ 31) :
    Keeps serialize hd x ↔ after x = x := by
  obtain ⟨b, b', hpack, -⟩ := serialize_of_empty hd after hser h hk
  constructor
  · rintro ⟨c, hc⟩
    rw [hpack] at hc
    exact (Result.ok.inj hc).1
  · intro hx
    rw [hx] at hpack
    exact ⟨b, hpack⟩

lemma overwrites_iff (hser : serialize x = pack x >>= fun _ => pure (after x))
    (h : Carries (pack x) (unPack old) k v) (hk : 20 + k < 2 ^ 31) :
    Overwrites serialize unPack hd x old ↔ v = x := by
  obtain ⟨b, b', hpack, hunpack⟩ := serialize_of_empty hd after hser h hk
  constructor
  · rintro ⟨x', c, c', hc, hc'⟩
    rw [hpack] at hc
    obtain ⟨-, rfl⟩ := Result.ok.inj hc
    rw [hunpack] at hc'
    exact (Result.ok.inj hc').1
  · rintro rfl
    exact ⟨_, b, b', hpack, hunpack⟩

end

/-! ### What arrives -/

/-- How many bytes a node info takes. -/
def POPCSearchNodeInfo.size (info : POPCSearchNodeInfo) : ℕ :=
  stringSize info.nodeId + (stringSize info.operatingSystem + (4 + (4 + (4 + (4 + (4 +
    (stringSize info.protocol + (stringSize info.encoding + stringSize info.pki))))))))

/-- How many bytes a response takes. -/
def Response.size (resp : Response) : ℕ :=
  stringSize resp.reqUniqueId + (stringSize resp.appid + (resp.foundNodeInfo.size +
    (4 + (resp.finalExplorationList.map entrySize).sum)))

/-- The node info that `info` becomes when it is unpacked into `old`. -/
def POPCSearchNodeInfo.received (info old : POPCSearchNodeInfo) : POPCSearchNodeInfo where
  nodeId := cut info.nodeId
  jobmgr := old.jobmgr
  operatingSystem := cut info.operatingSystem
  power := info.power
  cpuSpeed := info.cpuSpeed
  memorySize := info.memorySize
  networkBandwidth := info.networkBandwidth
  diskSpace := info.diskSpace
  protocol := cut info.protocol
  encoding := cut info.encoding
  pki := cut info.pki

/-- The node info that `info` becomes in a list, at a place in memory. -/
def POPCSearchNodeInfo.listed (info memory : POPCSearchNodeInfo) : POPCSearchNodeInfo :=
  { info.received memory with jobmgr := memory.jobmgr.copy .new }

/-- The infos that `infos` become in a list. -/
def listedInfos : List POPCSearchNodeInfo → (ℕ → POPCSearchNodeInfo) → List POPCSearchNodeInfo
  | [], _ => []
  | info :: infos, memory => info.listed (memory 0) :: listedInfos infos fun i => memory (i + 1)

section Transport

variable {F : Format} (hF : F.Transports)
include hF

lemma carries_info (info old : POPCSearchNodeInfo) :
    Carries (info.pack F) (old.unPack F) info.size (info.received old) := by
  refine (hF.stringCut _).bind ((hF.stringCut _).bind ((hF.float1 _).bind ((hF.bits1 _).bind ?_)))
  refine (hF.float1 _).bind ((hF.float1 _).bind ((hF.bits1 _).bind ?_))
  exact (hF.stringCut _).bind ((hF.stringCut _).bind ((hF.stringCut _).map _))

lemma carries_infos (stack : POPCSearchNodeInfo) (infos : List POPCSearchNodeInfo)
    (memory : ℕ → POPCSearchNodeInfo) (old : List POPCSearchNodeInfo) :
    Carries (packInfos F infos) (unPackInfos F stack infos.length memory old)
      (infos.map POPCSearchNodeInfo.size).sum (old ++ listedInfos infos memory) := by
  induction infos generalizing memory old with
  | nil =>
      rw [listedInfos, List.append_nil]
      exact Carries.pure old
  | cons info infos ih =>
      rw [listedInfos, List.append_cons]
      exact (carries_info hF info (.new stack)).bind (ih _ _)

lemma carries_nodeInfos (infos : List POPCSearchNodeInfo) (hint : infos.length < 2 ^ 31)
    (stack : POPCSearchNodeInfo) (memory : ℕ → POPCSearchNodeInfo)
    (old : List POPCSearchNodeInfo) :
    Carries (packNodeInfos F infos) (unPackNodeInfos F stack memory old)
      (4 + (infos.map POPCSearchNodeInfo.size).sum) (old ++ listedInfos infos memory) := by
  refine (hF.int1 (fits_wrap _)).bind ?_
  rw [wrap_natCast (by omega), Int.toNat_natCast]
  exact carries_infos hF stack infos memory old

lemma carries_response (resp old : Response)
    (hint : (resp.finalExplorationList.map entrySize).sum < 2 ^ 31) :
    Carries (resp.pack F) (old.unPack F) resp.size
      ⟨cut resp.reqUniqueId, cut resp.appid, resp.foundNodeInfo.received old.foundNodeInfo,
        (resp.finalExplorationList.map cutEntry).foldl (fun acc e => acc.addListNode e.1 e.2)
          old.finalExplorationList⟩ := by
  have hlen := length_le_sum_entrySize resp.finalExplorationList
  refine (hF.stringCut _).bind ((hF.stringCut _).bind ((carries_info hF _ _).bind ?_))
  exact (carries_explorationList hF _ (by omega) (length_lt_of_sum_entrySize hint) _).map _

end Transport

/-! ### When the two are equal -/

/-- The strings have no NUL. -/
structure POPCSearchNodeInfo.NulFree (info : POPCSearchNodeInfo) : Prop where
  nodeId : 0 ∉ info.nodeId
  operatingSystem : 0 ∉ info.operatingSystem
  protocol : 0 ∉ info.protocol
  encoding : 0 ∉ info.encoding
  pki : 0 ∉ info.pki

lemma POPCSearchNodeInfo.received_eq_iff (info old : POPCSearchNodeInfo) :
    info.received old = info ↔ info.NulFree ∧ old.jobmgr = info.jobmgr := by
  obtain ⟨nodeId, jobmgr, operatingSystem, power, cpuSpeed, memorySize, networkBandwidth, diskSpace,
    protocol, encoding, pki⟩ := info
  rw [received, mk.injEq]
  simp only [cut_eq_self_iff, true_and]
  constructor
  · rintro ⟨hnodeId, hjobmgr, hoperatingSystem, hprotocol, hencoding, hpki⟩
    exact ⟨⟨hnodeId, hoperatingSystem, hprotocol, hencoding, hpki⟩, hjobmgr⟩
  · rintro ⟨h, hjobmgr⟩
    exact ⟨h.nodeId, hjobmgr, h.operatingSystem, h.protocol, h.encoding, h.pki⟩

/-- The access point that a node info gets in a list: a plain one, but for two flags that are as
they were in memory. -/
def plainAt (memory : PopAccesspoint) : PopAccesspoint :=
  ⟨[], memory.service, memory.noaddref, .nonsecure⟩

lemma copy_new_eq (memory : PopAccesspoint) : memory.copy .new = plainAt memory := rfl

lemma POPCSearchNodeInfo.listed_eq_iff (info memory : POPCSearchNodeInfo) :
    info.listed memory = info ↔ info.NulFree ∧ info.jobmgr = plainAt memory.jobmgr := by
  have h := info.received_eq_iff { memory with jobmgr := memory.jobmgr.copy .new }
  rw [copy_new_eq] at h
  rw [eq_comm (a := info.jobmgr), ← h]
  rfl

lemma length_listedInfos (infos : List POPCSearchNodeInfo) (memory : ℕ → POPCSearchNodeInfo) :
    (listedInfos infos memory).length = infos.length := by
  induction infos generalizing memory with
  | nil => rfl
  | cons info infos ih => rw [listedInfos, List.length_cons, ih, List.length_cons]

lemma listedInfos_eq_iff (infos : List POPCSearchNodeInfo) (memory : ℕ → POPCSearchNodeInfo) :
    listedInfos infos memory = infos ↔ ∀ (i : ℕ) (hi : i < infos.length),
      infos[i].NulFree ∧ infos[i].jobmgr = plainAt (memory i).jobmgr := by
  induction infos generalizing memory with
  | nil => simp [listedInfos]
  | cons info infos ih =>
      rw [listedInfos, List.cons.injEq, ih, info.listed_eq_iff]
      constructor
      · rintro ⟨hfirst, hrest⟩ i hi
        cases i with
        | zero => exact hfirst
        | succ i => exact hrest i (Nat.lt_of_succ_lt_succ hi)
      · intro h
        exact ⟨h 0 (Nat.succ_pos _), fun i hi => h (i + 1) (Nat.succ_lt_succ hi)⟩

lemma append_listedInfos_eq_iff (infos old : List POPCSearchNodeInfo)
    (memory : ℕ → POPCSearchNodeInfo) :
    old ++ listedInfos infos memory = infos ↔ old = [] ∧ ∀ (i : ℕ) (hi : i < infos.length),
      infos[i].NulFree ∧ infos[i].jobmgr = plainAt (memory i).jobmgr := by
  rw [← listedInfos_eq_iff]
  constructor
  · intro h
    have hlen := congrArg List.length h
    rw [List.length_append, length_listedInfos] at hlen
    obtain rfl : old = [] := List.eq_nil_of_length_eq_zero (by omega)
    exact ⟨rfl, h⟩
  · rintro ⟨rfl, h⟩
    exact h

lemma Field.received_eq_iff {α : Type} (f old : Field α) :
    f.received old = f ↔ (f.isSet = false → old.value = f.value) := by
  obtain ⟨isSet, value⟩ := f
  cases isSet <;> simp [received]

lemma Field.cut_received_eq_iff (f old : Field Str) :
    f.cut.received old = f ↔
      (f.isSet = true → 0 ∉ f.value) ∧ (f.isSet = false → old.value = f.value) := by
  obtain ⟨isSet, value⟩ := f
  cases isSet <;> simp [received, Field.cut, cut_eq_self_iff]

/-- Everything that unpacking leaves alone in `old` is as in the request: the members that are
not set, and the expected speed of the processor. -/
structure Request.SameUnset (r old : Request) : Prop where
  nodeId : r.nodeId.isSet = false → old.nodeId.value = r.nodeId.value
  operatingSystem : r.operatingSystem.isSet = false →
    old.operatingSystem.value = r.operatingSystem.value
  minCpuSpeed : r.minCpuSpeed.isSet = false → old.minCpuSpeed.value = r.minCpuSpeed.value
  expectedCpuSpeed : old.expectedCpuSpeed.value = r.expectedCpuSpeed.value
  minMemorySize : r.minMemorySize.isSet = false → old.minMemorySize.value = r.minMemorySize.value
  expectedMemorySize : r.expectedMemorySize.isSet = false →
    old.expectedMemorySize.value = r.expectedMemorySize.value
  minNetworkBandwidth : r.minNetworkBandwidth.isSet = false →
    old.minNetworkBandwidth.value = r.minNetworkBandwidth.value
  expectedNetworkBandwidth : r.expectedNetworkBandwidth.isSet = false →
    old.expectedNetworkBandwidth.value = r.expectedNetworkBandwidth.value
  minDiskSpace : r.minDiskSpace.isSet = false → old.minDiskSpace.value = r.minDiskSpace.value
  expectedDiskSpace : r.expectedDiskSpace.isSet = false →
    old.expectedDiskSpace.value = r.expectedDiskSpace.value
  expectedPower : r.expectedPower.isSet = false → old.expectedPower.value = r.expectedPower.value
  minPower : r.minPower.isSet = false → old.minPower.value = r.minPower.value
  protocol : r.protocol.isSet = false → old.protocol.value = r.protocol.value
  encoding : r.encoding.isSet = false → old.encoding.value = r.encoding.value

/-- The strings that are packed, but for those of the exploration list, have no NUL. -/
structure Request.TextsNulFree (r : Request) : Prop where
  uniqueId : 0 ∉ r.uniqueId
  nodeId : r.nodeId.isSet = true → 0 ∉ r.nodeId.value
  operatingSystem : r.operatingSystem.isSet = true → 0 ∉ r.operatingSystem.value
  protocol : r.protocol.isSet = true → 0 ∉ r.protocol.value
  encoding : r.encoding.isSet = true → 0 ∉ r.encoding.value
  pki : 0 ∉ r.pki
  mainPki : 0 ∉ r.mainPki
  popappid : 0 ∉ r.popappid
  wb : ∀ s ∈ r.wb.lstWb, 0 ∉ s

lemma Request.receivedInto_eq_iff (r old : Request) (el : ExplorationList Str) :
    r.receivedInto old el = r ↔
      r.TextsNulFree ∧ r.SameUnset old ∧ el = r.explorationList := by
  constructor
  · intro h
    have hwb : r.wb.lstWb.map cut = r.wb.lstWb := congrArg (fun r => r.wb.lstWb) h
    have hspeed : old.expectedCpuSpeed.value = r.expectedCpuSpeed.value :=
      congrArg (fun r => r.expectedCpuSpeed.value) h
    have hnodeId := (Field.cut_received_eq_iff _ _).mp (congrArg Request.nodeId h)
    have hoperatingSystem := (Field.cut_received_eq_iff _ _).mp (congrArg Request.operatingSystem h)
    have hprotocol := (Field.cut_received_eq_iff _ _).mp (congrArg Request.protocol h)
    have hencoding := (Field.cut_received_eq_iff _ _).mp (congrArg Request.encoding h)
    refine ⟨⟨cut_eq_self_iff.mp (congrArg Request.uniqueId h), hnodeId.1, hoperatingSystem.1,
      hprotocol.1, hencoding.1, cut_eq_self_iff.mp (congrArg Request.pki h),
      cut_eq_self_iff.mp (congrArg Request.mainPki h),
      cut_eq_self_iff.mp (congrArg Request.popappid h), map_cut_eq_self_iff.mp hwb⟩, ?_,
      congrArg Request.explorationList h⟩
    exact ⟨hnodeId.2, hoperatingSystem.2,
      (Field.received_eq_iff _ _).mp (congrArg Request.minCpuSpeed h), hspeed,
      (Field.received_eq_iff _ _).mp (congrArg Request.minMemorySize h),
      (Field.received_eq_iff _ _).mp (congrArg Request.expectedMemorySize h),
      (Field.received_eq_iff _ _).mp (congrArg Request.minNetworkBandwidth h),
      (Field.received_eq_iff _ _).mp (congrArg Request.expectedNetworkBandwidth h),
      (Field.received_eq_iff _ _).mp (congrArg Request.minDiskSpace h),
      (Field.received_eq_iff _ _).mp (congrArg Request.expectedDiskSpace h),
      (Field.received_eq_iff _ _).mp (congrArg Request.expectedPower h),
      (Field.received_eq_iff _ _).mp (congrArg Request.minPower h), hprotocol.2, hencoding.2⟩
  · rintro ⟨htexts, hsame, rfl⟩
    rw [receivedInto, cut_eq_self_iff.mpr htexts.uniqueId, cut_eq_self_iff.mpr htexts.pki,
      cut_eq_self_iff.mpr htexts.mainPki, cut_eq_self_iff.mpr htexts.popappid,
      map_cut_eq_self_iff.mpr htexts.wb,
      (Field.cut_received_eq_iff _ _).mpr ⟨htexts.nodeId, hsame.nodeId⟩,
      (Field.cut_received_eq_iff _ _).mpr ⟨htexts.operatingSystem, hsame.operatingSystem⟩,
      (Field.cut_received_eq_iff _ _).mpr ⟨htexts.protocol, hsame.protocol⟩,
      (Field.cut_received_eq_iff _ _).mpr ⟨htexts.encoding, hsame.encoding⟩,
      (Field.received_eq_iff _ _).mpr hsame.minCpuSpeed, hsame.expectedCpuSpeed,
      (Field.received_eq_iff _ _).mpr hsame.minMemorySize,
      (Field.received_eq_iff _ _).mpr hsame.expectedMemorySize,
      (Field.received_eq_iff _ _).mpr hsame.minNetworkBandwidth,
      (Field.received_eq_iff _ _).mpr hsame.expectedNetworkBandwidth,
      (Field.received_eq_iff _ _).mpr hsame.minDiskSpace,
      (Field.received_eq_iff _ _).mpr hsame.expectedDiskSpace,
      (Field.received_eq_iff _ _).mpr hsame.expectedPower,
      (Field.received_eq_iff _ _).mpr hsame.minPower]

/-! ### The five classes -/

section Classes

variable {F : Format} (hF : F.Transports) (hd : Header)
include hF

omit hF in
lemma serializeWayback_eq (wb : POPWayback Str) :
    serializeWayback F wb = packWayback F wb >>= fun _ => pure ⟨[]⟩ := by
  have helts : ∀ lstWb : List Str,
      serializeElts F lstWb = packStrings F lstWb >>= fun _ => pure ⟨[]⟩ := by
    intro lstWb
    induction lstWb with
    | nil => rfl
    | cons elt lstWb ih => rw [serializeElts, packStrings, bind_bind, ih]
  rw [serializeWayback, packWayback, bind_bind, helts]

lemma wayback_iff (wb old : POPWayback Str)
    (hsize : 20 + (4 + (wb.lstWb.map stringSize).sum) < 2 ^ 31) :
    (Keeps (serializeWayback F) hd wb ↔ wb.lstWb = []) ∧
      (Overwrites (serializeWayback F) (fun _ => unPackWayback F) hd wb old ↔
        ∀ s ∈ wb.lstWb, 0 ∉ s) := by
  have hlen := length_le_sum_stringSize wb.lstWb
  have hcarries := carries_wayback hF wb (by omega)
  have hmk : ∀ lstWb : List Str, (⟨lstWb⟩ : POPWayback Str) = wb ↔ lstWb = wb.lstWb := by
    intro lstWb
    cases wb
    simp
  constructor
  · rw [@keeps_iff _ hd (fun _ => ⟨[]⟩) _ _ (fun _ => unPackWayback F) _ old _ _
      (serializeWayback_eq wb) hcarries hsize, hmk, eq_comm]
  · rw [overwrites_iff hd (fun _ => ⟨[]⟩) (serializeWayback_eq wb) hcarries hsize, hmk,
      map_cut_eq_self_iff]

lemma explorationList_iff {el old : ExplorationList Str} (hel : el.Kept) (hold : old.Kept)
    (hsize : 20 + (4 + (el.map entrySize).sum) < 2 ^ 31) :
    Keeps (serializeExplorationList F) hd el ∧
      (Overwrites (serializeExplorationList F) (unPackExplorationList F) hd el old ↔
        el.Merges old (el.map cutEntry)) := by
  have hlen := length_le_sum_entrySize el
  have hcarries := carries_explorationList hF el (by omega)
    (length_lt_of_sum_entrySize (by omega)) old
  have hser : serializeExplorationList F el = packExplorationList F el >>= fun _ => pure el := rfl
  constructor
  · exact (keeps_iff hd (fun el => el) hser hcarries hsize).mpr rfl
  · rw [overwrites_iff hd (fun el => el) hser hcarries hsize, hel.merge_eq_iff hold]

lemma nodeInfos_iff (infos old : List POPCSearchNodeInfo) (stack : POPCSearchNodeInfo)
    (memory : ℕ → POPCSearchNodeInfo)
    (hsize : 20 + (4 + (infos.map POPCSearchNodeInfo.size).sum) < 2 ^ 31) :
    Keeps (serializeNodeInfos F) hd infos ∧
      (Overwrites (serializeNodeInfos F) (unPackNodeInfos F stack memory) hd infos old ↔
        old = [] ∧ ∀ (i : ℕ) (hi : i < infos.length),
          infos[i].NulFree ∧ infos[i].jobmgr = plainAt (memory i).jobmgr) := by
  have hlen : infos.length ≤ (infos.map POPCSearchNodeInfo.size).sum := by
    have h := List.length_le_sum_of_one_le (infos.map POPCSearchNodeInfo.size) fun k hk => by
      obtain ⟨info, -, rfl⟩ := List.mem_map.mp hk
      rw [POPCSearchNodeInfo.size, stringSize]
      omega
    rwa [List.length_map] at h
  have hcarries := carries_nodeInfos hF infos (by omega) stack memory old
  have hser : serializeNodeInfos F infos = packNodeInfos F infos >>= fun _ => pure infos := rfl
  constructor
  · exact (keeps_iff hd (fun infos => infos) hser hcarries hsize).mpr rfl
  · rw [overwrites_iff hd (fun infos => infos) hser hcarries hsize,
      append_listedInfos_eq_iff]

lemma response_iff {resp old : Response} (hresp : resp.finalExplorationList.Kept)
    (hold : old.finalExplorationList.Kept) (hsize : 20 + resp.size < 2 ^ 31) :
    Keeps (Response.serialize F) hd resp ∧
      (Overwrites (Response.serialize F) (Response.unPack F) hd resp old ↔
        (0 ∉ resp.reqUniqueId ∧ 0 ∉ resp.appid) ∧
          (resp.foundNodeInfo.NulFree ∧ old.foundNodeInfo.jobmgr = resp.foundNodeInfo.jobmgr) ∧
          resp.finalExplorationList.Merges old.finalExplorationList
            (resp.finalExplorationList.map cutEntry)) := by
  have hcarries := carries_response hF resp old (by
    rw [Response.size] at hsize
    omega)
  have hser : Response.serialize F resp = resp.pack F >>= fun _ => pure resp := rfl
  constructor
  · exact (keeps_iff hd (fun resp => resp) hser hcarries hsize).mpr rfl
  · rw [overwrites_iff hd (fun resp => resp) hser hcarries hsize,
      ← POPCSearchNodeInfo.received_eq_iff, ← hresp.merge_eq_iff hold]
    obtain ⟨reqUniqueId, appid, foundNodeInfo, finalExplorationList⟩ := resp
    rw [Response.mk.injEq, cut_eq_self_iff, cut_eq_self_iff, and_assoc]

lemma request_iff {r old : Request} (hr : r.explorationList.Kept)
    (hold : old.explorationList.Kept) (hsize : 20 + r.size < 2 ^ 31) :
    (Keeps (Request.serialize F) hd r ↔ r.wb.lstWb = []) ∧
      (Overwrites (Request.serialize F) (Request.unPack F) hd r old ↔
        r.TextsNulFree ∧ r.SameUnset old ∧
          r.explorationList.Merges old.explorationList (r.explorationList.map cutEntry)) := by
  have hwb := length_le_sum_stringSize r.wb.lstWb
  have hlewb := r.wb_le_sizeWith (r.explorationList.map entrySize).sum
  have hleel := r.le_sizeWith (r.explorationList.map entrySize).sum
  have hlen := length_le_sum_entrySize r.explorationList
  rw [Request.size] at hsize
  have hcarries := carries_pack hF (by omega) old _ (carries_explorationList hF
    r.explorationList (by omega) (length_lt_of_sum_entrySize (by omega)) _)
  have hser : Request.serialize F r = r.pack F >>= fun _ => pure { r with wb := ⟨[]⟩ } := rfl
  constructor
  · rw [keeps_iff hd (fun r => { r with wb := ⟨[]⟩ }) hser hcarries hsize]
    constructor
    · intro h
      exact (congrArg (fun r => r.wb.lstWb) h).symm
    · intro h
      rw [← h]
  · rw [overwrites_iff hd (fun r => { r with wb := ⟨[]⟩ }) hser hcarries hsize,
      r.receivedInto_eq_iff, hr.merge_eq_iff hold]

end Classes

lemma assignWayback_eq_iff (t rhs : POPWayback Str) :
    assignWayback t rhs = rhs ↔ (rhs.lstWb = [] → t.lstWb = []) := by
  obtain ⟨lstWb⟩ := rhs
  obtain ⟨lstWb'⟩ := t
  rw [assignWayback]
  split
  · next hempty =>
      obtain rfl : lstWb = [] := List.isEmpty_iff.mp hempty
      simp
  · next hne => exact ⟨fun _ hnil => absurd (List.isEmpty_iff.mpr hnil) hne, fun _ => rfl⟩

/-- **Serialising and assigning.**  For objects whose images fit in a message: which of them are
left as they were by packing, and into which others they can be unpacked so that the two are
equal then. -/
theorem serialize_iff (F : Format) (hF : Standard F) (hd : Header) :
    (∀ wb old : POPWayback Str, 20 + (4 + (wb.lstWb.map stringSize).sum) < 2 ^ 31 →
      (Keeps (serializeWayback F) hd wb ↔ wb.lstWb = []) ∧
        (Overwrites (serializeWayback F) (fun _ => unPackWayback F) hd wb old ↔
          ∀ s ∈ wb.lstWb, 0 ∉ s)) ∧
    (∀ t rhs : POPWayback Str,
      assignWayback t rhs = rhs ↔ (rhs.lstWb = [] → t.lstWb = [])) ∧
    (∀ el old : ExplorationList Str, el.Kept → old.Kept →
      20 + (4 + (el.map entrySize).sum) < 2 ^ 31 →
      Keeps (serializeExplorationList F) hd el ∧
        (Overwrites (serializeExplorationList F) (unPackExplorationList F) hd el old ↔
          el.Merges old (el.map cutEntry))) ∧
    (∀ (infos old : List POPCSearchNodeInfo) (stack : POPCSearchNodeInfo)
      (memory : ℕ → POPCSearchNodeInfo),
      20 + (4 + (infos.map POPCSearchNodeInfo.size).sum) < 2 ^ 31 →
      Keeps (serializeNodeInfos F) hd infos ∧
        (Overwrites (serializeNodeInfos F) (unPackNodeInfos F stack memory) hd infos old ↔
          old = [] ∧ ∀ (i : ℕ) (hi : i < infos.length),
            infos[i].NulFree ∧ infos[i].jobmgr = plainAt (memory i).jobmgr)) ∧
    (∀ resp old : Response, resp.finalExplorationList.Kept → old.finalExplorationList.Kept →
      20 + resp.size < 2 ^ 31 →
      Keeps (Response.serialize F) hd resp ∧
        (Overwrites (Response.serialize F) (Response.unPack F) hd resp old ↔
          (0 ∉ resp.reqUniqueId ∧ 0 ∉ resp.appid) ∧
            (resp.foundNodeInfo.NulFree ∧ old.foundNodeInfo.jobmgr = resp.foundNodeInfo.jobmgr) ∧
            resp.finalExplorationList.Merges old.finalExplorationList
              (resp.finalExplorationList.map cutEntry))) ∧
    ∀ r old : Request, r.explorationList.Kept → old.explorationList.Kept →
      20 + r.size < 2 ^ 31 →
      (Keeps (Request.serialize F) hd r ↔ r.wb.lstWb = []) ∧
        (Overwrites (Request.serialize F) (Request.unPack F) hd r old ↔
          r.TextsNulFree ∧ r.SameUnset old ∧
            r.explorationList.Merges old.explorationList (r.explorationList.map cutEntry)) :=
  ⟨wayback_iff hF.transports hd, assignWayback_eq_iff,
    fun _ _ => explorationList_iff hF.transports hd, nodeInfos_iff hF.transports hd,
    fun _ _ => response_iff hF.transports hd, fun _ _ => request_iff hF.transports hd⟩

/-- A way back over one node, and an exploration list of one node. -/
def overA : POPWayback Str := ⟨[[97]]⟩
def visitedA : ExplorationList Str := [([97], [])]

theorem serialize_iff_overA :
    Overwrites (serializeWayback raw) (fun _ => unPackWayback raw) ⟨0, 0, 0, 0, 0⟩ overA ⟨[]⟩ := by
  obtain ⟨hwayback, -⟩ := serialize_iff raw .raw ⟨0, 0, 0, 0, 0⟩
  exact (hwayback overA ⟨[]⟩ (by decide)).2.mpr (by decide)

/-- Packing empties the way back, the empty way back is not assigned, and an exploration list
with no entry leaves the entries that were there. -/
theorem serialize_keeps_old :
    ¬Keeps (serializeWayback raw) ⟨0, 0, 0, 0, 0⟩ overA ∧ assignWayback overA ⟨[]⟩ ≠ ⟨[]⟩ ∧
      ¬Overwrites (serializeExplorationList raw) (unPackExplorationList raw) ⟨0, 0, 0, 0, 0⟩ []
        visitedA := by
  refine ⟨fun h => ?_, by decide, fun h => ?_⟩
  · have hnil := ((wayback_iff transports_raw _ overA ⟨[]⟩ (by decide)).1.mp h)
    exact absurd hnil (by decide)
  · have hempty : ExplorationList.Kept ([] : ExplorationList Str) :=
      ⟨List.Pairwise.nil, Nat.zero_le _⟩
    have hvisited : visitedA.Kept := hempty.addListNode [97] []
    have hmerges := (explorationList_iff transports_raw _ hempty hvisited (by decide)).2.mp h
    rcases hmerges.held _ List.mem_cons_self with hmem | hspilled
    · exact absurd hmem List.not_mem_nil
    · exact hspilled.nonempty rfl

end Serialize

end Discovery
