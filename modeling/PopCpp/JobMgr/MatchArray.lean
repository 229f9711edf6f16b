/-
# One match for several objects

`MatchAndReserve` for several objects sorts the positions by their fitness and goes through them
from the lowest one on.  It ends at the first position whose fitness is 1 already, or where the
match for one object is refused.  A position that has been matched gets the new reservation, and
the one that it held before is cancelled.

The match yields no less than the fitness it is asked for, as long as that is below 1: the power
and the memory are checked against it, and an object that requires neither has the fitness 1.
-/
import PopCpp.JobMgr.Alloc
import PopCpp.JobMgr.Reserve
import PopCpp.Lib.BubbleSort

namespace JobMgr

/-! ### The order of the positions -/

/-- `fitness[i]` -/
def fitnessAt (slots : List Slot) (i : ℕ) : ℚ := (slots.map Slot.fitness).getD i 0

lemma swapIndex_eq (fitness : ℕ → ℚ) (done : List ℕ) (a b : ℕ) (rest : List ℕ) :
    swapIndex fitness (done ++ a :: b :: rest) (done.length + 1) =
      done ++ BubbleSort.exchange fitness a b rest := by
  have hfirst : (done ++ a :: b :: rest).getD done.length 0 = a := by simp
  have hsecond : (done ++ a :: b :: rest).getD (done.length + 1) 0 = b := by simp
  rw [swapIndex, BubbleSort.exchange, Nat.add_sub_cancel, hfirst, hsecond]
  split
  · simp
  · rfl

/-- The sort yields each position once, the highest fitness first. -/
lemma sortIndex_sorted (fitness : ℕ → ℚ) (howmany : ℕ) :
    (sortIndex fitness howmany).Perm (List.range howmany) ∧
      (sortIndex fitness howmany).Pairwise fun i j => fitness j ≤ fitness i := by
  have hsort := BubbleSort.foldl_range fitness (swapIndex_eq fitness) (List.range howmany)
  rwa [List.length_range] at hsort

/-! ### One match -/

section fitness

variable {c : Config ℚ} {m : Manager ℚ} {od : ObjectDescription ℚ} {inoutfitness : ℚ}

lemma le_matchPower {p : ℚ × ℚ} (h : matchPower c m od inoutfitness = some p)
    (hlow : inoutfitness < 1) : inoutfitness ≤ p.2 := by
  rw [matchPower_eq] at h
  split_ifs at h with hcheck hpower
  · cases h
    exact not_lt.mp fun hlt => hcheck ⟨hpower, hlt⟩
  · cases h
    rw [powerFitness, if_neg hpower]
    exact hlow.le

lemma le_matchMemory {fitness : ℚ} {p : ℚ × ℚ} (h : matchMemory m od inoutfitness fitness = some p)
    (hle : inoutfitness ≤ fitness) : inoutfitness ≤ p.2 := by
  rw [matchMemory] at h
  generalize (if od.minMemory < 0 then od.memory else od.minMemory) = least at h
  split_ifs at h with hmemory hleast hfitness hlow
  · cases h
    exact not_lt.mp hlow
  · cases h
    exact hle
  · cases h
    exact hle

/-- **The fitness is not lowered** by a match. -/
lemma le_matchResources {r : Match ℚ} (h : matchResources c m od inoutfitness = some r)
    (hlow : inoutfitness < 1) : inoutfitness ≤ r.fitness := by
  rw [matchResources] at h
  split_ifs at h with hempty
  · cases h
    exact hlow.le
  · obtain ⟨⟨flops, fitness⟩, hpower, h⟩ := Option.bind_eq_some_iff.mp h
    obtain ⟨⟨mem, fitness'⟩, hmemory, h⟩ := Option.bind_eq_some_iff.mp h
    obtain ⟨walltime, -, h⟩ := Option.bind_eq_some_iff.mp h
    cases h
    exact le_matchMemory hmemory (le_matchPower hpower hlow)

end fitness

variable (c : Allocator) (o : Search)

/-- The reservation `s` of the `k`th call takes the place of `t`. -/
structure Replaces (k : ℕ) (t s : Slot) : Prop where
  /-- The place was not taken by a full match. -/
  low : t.fitness < 1
  raised : t.fitness ≤ s.fitness
  contact : s.contact = c.accesspoint
  /-- The id is the one that the job manager's counter has come to, which moves on. -/
  id : s.reserveID = (o.managers k).1.1.counter
  counter : (matchOne c o k t.fitness).manager.counter ≠ s.reserveID
  /-- The job of that id is in the list now. -/
  job : ∃ job, job.id = s.reserveID ∧
    (matchOne c o k t.fitness).manager.jobs = (o.managers k).1.1.jobs ++ [job]

variable {c o}

/-- A match that is not refused makes a new reservation. -/
lemma matchOne_replaces {k : ℕ} {t : Slot} (hlow : t.fitness < 1)
    (hid : ¬(matchOne c o k t.fitness).id ≤ 0) :
    Replaces c o k t
      ⟨(matchOne c o k t.fitness).fitness, c.accesspoint, (matchOne c o k t.fitness).id⟩ := by
  rcases matchAndReserve_cases c.config (o.managers k).1.1 c.od t.fitness (o.managers k).2 with
    heq | ⟨r, hr, heq⟩
  · rw [matchOne, heq] at hid
    exact absurd (le_refl (0 : ℤ)) hid
  · have hone : matchOne c o k t.fitness =
        ⟨reserved (o.managers k).1.1 r (o.managers k).2, [], (o.managers k).1.1.counter,
          r.fitness⟩ := heq
    rw [hone]
    refine ⟨hlow, le_matchResources hr hlow, rfl, rfl, ?_, ?_⟩
    · rw [hone]
      show (o.managers k).1.1.counter % 1000000000 + 1 ≠ (o.managers k).1.1.counter
      omega
    · rw [hone]
      exact ⟨entry (o.managers k).1.1 r (o.managers k).2, rfl, rfl⟩

/-! ### The loop -/

/-- The reservation that a position holds. -/
def heldAt (slots : List Slot) (pos : ℕ) : Option Grant :=
  (slots[pos]?.filter fun t => 0 < t.fitness ∧ t.contact ≠ "").map Slot.grant

variable (c o)

/-- The first `g` of the positions are visited and replaced, from the `k`th call on. -/
structure Visited (k : ℕ) (index : List ℕ) (slots : List Slot) (ret : Bool) (g : ℕ) (a : Alloc) :
    Prop where
  bound : g ≤ index.length
  ret : a.ret = some (ret || decide (0 < g))
  length : a.slots.length = slots.length
  untouched : ∀ pos, pos ∉ index.take g → a.slots[pos]? = slots[pos]?
  replaced : ∀ j < g, ∀ pos, index[j]? = some pos →
    ∃ t s, slots[pos]? = some t ∧ a.slots[pos]? = some s ∧ Replaces c o (k + j) t s
  /-- The next one is matched fully already, or refused. -/
  stops : ∀ pos, index[g]? = some pos → ∃ t, slots[pos]? = some t ∧
    (1 ≤ t.fitness ∨ (matchOne c o (k + g) t.fitness).id ≤ 0)
  cancelled : a.cancelled = ((index.take g).filter o.replaced).filterMap (heldAt slots)

variable {c o} {k : ℕ} {index : List ℕ} {slots : List Slot} {ret : Bool}

lemma Visited.nil : Visited c o k [] slots ret 0 ⟨some ret, slots, [], []⟩ where
  bound := Nat.le_refl 0
  ret := by simp
  length := rfl
  untouched _ _ := rfl
  replaced _ hj := absurd hj (Nat.not_lt_zero _)
  stops _ h := by simp at h
  cancelled := rfl

lemma Visited.stop {pos : ℕ} {t : Slot} (ht : slots[pos]? = some t)
    (h : 1 ≤ t.fitness ∨ (matchOne c o k t.fitness).id ≤ 0) :
    Visited c o k (pos :: index) slots ret 0 ⟨some ret, slots, [], []⟩ where
  bound := Nat.zero_le _
  ret := by simp
  length := rfl
  untouched _ _ := rfl
  replaced _ hj := absurd hj (Nat.not_lt_zero _)
  stops pos' hpos := by
    obtain rfl : pos = pos' := by simpa using hpos
    exact ⟨t, ht, h⟩
  cancelled := rfl

lemma heldAt_set {slots : List Slot} {pos pos' : ℕ} (hne : pos ≠ pos') (s : Slot) :
    heldAt (slots.set pos s) pos' = heldAt slots pos' := by
  rw [heldAt, List.getElem?_set_ne hne, heldAt]

lemma heldAt_of_getElem? {pos : ℕ} {t : Slot} (ht : slots[pos]? = some t) :
    heldAt slots pos = if 0 < t.fitness ∧ t.contact ≠ "" then some t.grant else none := by
  rw [heldAt, ht, Option.filter_some]
  by_cases hheld : 0 < t.fitness ∧ t.contact ≠ ""
  · simp [hheld]
  · simp [hheld]

/-- A position is replaced before the others are visited. -/
lemma Visited.cons {pos g : ℕ} {t s : Slot} {rest : Alloc} (hpos : pos ∉ index)
    (ht : slots[pos]? = some t) (hs : Replaces c o k t s)
    (hrest : Visited c o (k + 1) index (slots.set pos s) true g rest) (granted : List Grant) :
    Visited c o k (pos :: index) slots ret (g + 1)
      { rest with
        granted := granted
        cancelled :=
          if t.fitness > 0 ∧ t.contact ≠ "" ∧ o.replaced pos = true then
            t.grant :: rest.cancelled
          else rest.cancelled } where
  bound := Nat.succ_le_succ hrest.bound
  ret := by
    show rest.ret = _
    rw [hrest.ret]
    simp
  length := by
    show rest.slots.length = _
    rw [hrest.length, List.length_set]
  untouched pos' hpos' := by
    rw [List.take_succ_cons, List.mem_cons, not_or] at hpos'
    rw [hrest.untouched pos' hpos'.2, List.getElem?_set_ne (Ne.symm hpos'.1)]
  replaced j hj pos' hpos' := by
    cases j with
    | zero =>
        obtain rfl : pos = pos' := by simpa using hpos'
        have hmem : pos ∉ index.take g := fun hmem => hpos (List.mem_of_mem_take hmem)
        have hlt := (List.getElem?_eq_some_iff.mp ht).1
        refine ⟨t, s, ht, ?_, hs⟩
        rw [hrest.untouched pos hmem, List.getElem?_set_self hlt]
    | succ j =>
        rw [List.getElem?_cons_succ] at hpos'
        have hne : pos ≠ pos' := fun heq => hpos (heq ▸ List.mem_of_getElem? hpos')
        obtain ⟨t', s', ht', hs', hreplaces⟩ :=
          hrest.replaced j (Nat.lt_of_succ_lt_succ hj) pos' hpos'
        rw [List.getElem?_set_ne hne] at ht'
        refine ⟨t', s', ht', hs', ?_⟩
        rwa [show k + (j + 1) = k + 1 + j by omega]
  stops pos' hpos' := by
    rw [List.getElem?_cons_succ] at hpos'
    have hne : pos ≠ pos' := fun heq => hpos (heq ▸ List.mem_of_getElem? hpos')
    obtain ⟨t', ht', hstop⟩ := hrest.stops pos' hpos'
    rw [List.getElem?_set_ne hne] at ht'
    refine ⟨t', ht', ?_⟩
    rwa [show k + (g + 1) = k + 1 + g by omega]
  cancelled := by
    -- The positions behind this one hold what they held before.
    have hbehind : ((index.take g).filter o.replaced).filterMap (heldAt (slots.set pos s)) =
        ((index.take g).filter o.replaced).filterMap (heldAt slots) := by
      refine List.filterMap_congr fun pos' hmem => heldAt_set (fun heq => hpos ?_) s
      exact heq ▸ List.mem_of_mem_take (List.mem_of_mem_filter hmem)
    rw [List.take_succ_cons]
    cases hreplaced : o.replaced pos with
    | false =>
        rw [List.filter_cons_of_neg (by simp [hreplaced]), if_neg (by simp), hrest.cancelled,
          hbehind]
    | true =>
        rw [List.filter_cons_of_pos hreplaced, List.filterMap_cons, heldAt_of_getElem? ht]
        by_cases hheld : 0 < t.fitness ∧ t.contact ≠ ""
        · rw [if_pos ⟨hheld.1, hheld.2, rfl⟩, if_pos hheld, hrest.cancelled, hbehind]
        · rw [if_neg fun h => hheld ⟨h.1, h.2.1⟩, if_neg hheld, hrest.cancelled, hbehind]

lemma matchLoop_full {pos : ℕ} {t : Slot} (ht : slots[pos]? = some t) (hfull : 1 ≤ t.fitness) :
    Visited c o k (pos :: index) slots ret 0 (matchLoop c o k (pos :: index) slots ret) := by
  simp only [matchLoop, ht]
  rw [if_pos hfull]
  exact Visited.stop ht (Or.inl hfull)

/-- A refusal leaves the fitness as it was. -/
lemma matchLoop_refused {pos : ℕ} {t : Slot} (ht : slots[pos]? = some t) (hlow : ¬1 ≤ t.fitness)
    (hid : (matchOne c o k t.fitness).id ≤ 0) :
    Visited c o k (pos :: index) slots ret 0 (matchLoop c o k (pos :: index) slots ret) := by
  have hsame : slots.set pos { t with fitness := (matchOne c o k t.fitness).fitness } = slots := by
    obtain ⟨hlt, rfl⟩ := List.getElem?_eq_some_iff.mp ht
    rw [matchOne_refused c o hid]
    exact List.set_getElem_self hlt
  simp only [matchLoop, ht]
  rw [if_neg hlow, if_pos hid, hsame]
  exact Visited.stop ht (Or.inr hid)

lemma matchLoop_replaced {pos g : ℕ} {t : Slot} (hpos : pos ∉ index)
    (ht : slots[pos]? = some t) (hlow : ¬1 ≤ t.fitness)
    (hid : ¬(matchOne c o k t.fitness).id ≤ 0)
    {slots' : List Slot} (hslots' : slots' = slots.set pos
      ⟨(matchOne c o k t.fitness).fitness, c.accesspoint, (matchOne c o k t.fitness).id⟩)
    (hrest : Visited c o (k + 1) index slots' true g (matchLoop c o (k + 1) index slots' true)) :
    Visited c o k (pos :: index) slots ret (g + 1)
      (matchLoop c o k (pos :: index) slots ret) := by
  subst hslots'
  simp only [matchLoop, ht]
  rw [if_neg hlow, if_neg hid]
  exact Visited.cons hpos ht (matchOne_replaces (not_le.mp hlow) hid) hrest _

/-- The loop visits positions from the first one on.  How many it replaces does not depend on
which of the old reservations can be cancelled. -/
lemma matchLoop_visited (o : Search) (k : ℕ) (slots : List Slot) (ret : Bool)
    (hnodup : index.Nodup) (hbound : ∀ pos ∈ index, pos < slots.length) :
    ∃ g, ∀ replaced, Visited c { o with replaced := replaced } k index slots ret g
      (matchLoop c { o with replaced := replaced } k index slots ret) := by
  induction index generalizing k slots ret with
  | nil => exact ⟨0, fun replaced => Visited.nil⟩
  | cons pos index ih =>
      obtain ⟨hpos, hnodup⟩ := List.nodup_cons.mp hnodup
      obtain ⟨t, ht⟩ : ∃ t, slots[pos]? = some t :=
        ⟨_, List.getElem?_eq_getElem (hbound pos List.mem_cons_self)⟩
      by_cases hfull : 1 ≤ t.fitness
      · exact ⟨0, fun replaced => matchLoop_full ht hfull⟩
      · by_cases hid : (matchOne c o k t.fitness).id ≤ 0
        · exact ⟨0, fun replaced => matchLoop_refused ht hfull hid⟩
        · have hbound' : ∀ s, ∀ pos' ∈ index, pos' < (slots.set pos s).length := by
            intro s pos' hmem
            rw [List.length_set]
            exact hbound pos' (List.mem_cons_of_mem _ hmem)
          obtain ⟨g, hg⟩ := ih (k + 1) _ true hnodup
            (hbound' ⟨(matchOne c o k t.fitness).fitness, c.accesspoint,
              (matchOne c o k t.fitness).id⟩)
          exact ⟨g + 1, fun replaced => matchLoop_replaced hpos ht hfull hid rfl (hg replaced)⟩

/-! ### The match for several objects -/

variable (c o slots)

/-- The reservations whose cancellation is requested: those that are cancelled when no request
fails. -/
def cancelRequests : List Grant :=
  (matchAndReserveAll c { o with replaced := fun _ => true } slots).cancelled

/-- What `MatchAndReserve` for several objects does, when it replaces the first `g` positions
of `order`. -/
structure MatchesInOrder (order : List ℕ) (g : ℕ) : Prop where
  /-- Each position is visited at most once, from the lowest fitness to the highest. -/
  perm : order.Perm (List.range slots.length)
  ascending : order.Pairwise fun i j => fitnessAt slots i ≤ fitnessAt slots j
  visited : Visited c o 0 order slots false g (matchAndReserveAll c o slots)
  raised : ∀ (pos : ℕ) (t : Slot), slots[pos]? = some t →
    ∃ s : Slot, (matchAndReserveAll c o slots).slots[pos]? = some s ∧ t.fitness ≤ s.fitness
  requests : cancelRequests c o slots = (order.take g).filterMap (heldAt slots)

/-- **The match for several objects** replaces the positions of the lowest fitness, one after the
other, lowers none and requests the cancellation of what they held. -/
theorem matchAndReserveAll_inOrder (c : Allocator) (o : Search) (slots : List Slot) :
    ∃ order g, MatchesInOrder c o slots order g := by
  obtain ⟨hperm, hsorted⟩ := sortIndex_sorted (fitnessAt slots) slots.length
  have horder : (sortIndex (fitnessAt slots) slots.length).reverse.Perm
      (List.range slots.length) := (List.reverse_perm _).trans hperm
  obtain ⟨g, hg⟩ := matchLoop_visited (c := c) o 0 slots false
    (horder.nodup_iff.mpr List.nodup_range)
    fun pos hmem => List.mem_range.mp (horder.mem_iff.mp hmem)
  have hloop : ∀ o, matchAndReserveAll c o slots =
      matchLoop c o 0 (sortIndex (fitnessAt slots) slots.length).reverse slots false := by
    intro o
    rw [matchAndReserveAll]
    split_ifs with hempty
    · rw [List.eq_nil_of_length_eq_zero (Nat.le_zero.mp hempty)]
      rfl
    · rfl
  have hvisited := hg o.replaced
  have hrequested := (hg fun _ => true).cancelled
  rw [← hloop] at hvisited hrequested
  refine ⟨_, g, horder, List.pairwise_reverse.mpr hsorted, hvisited, fun pos t ht => ?_, ?_⟩
  · by_cases hmem : pos ∈ (sortIndex (fitnessAt slots) slots.length).reverse.take g
    · obtain ⟨j, hj⟩ := List.mem_iff_getElem?.mp hmem
      have hlt : j < g := by
        by_contra hge
        rw [List.getElem?_take_eq_none (not_lt.mp hge)] at hj
        cases hj
      rw [List.getElem?_take_of_lt hlt] at hj
      obtain ⟨t', s, ht', hs, hreplaces⟩ := hvisited.replaced j hlt pos hj
      obtain rfl := Option.some.inj (ht.symm.trans ht')
      exact ⟨s, hs, hreplaces.raised⟩
    · exact ⟨t, (hvisited.untouched pos hmem).trans ht, le_refl _⟩
  · rw [cancelRequests, hrequested]
    simp

end JobMgr
