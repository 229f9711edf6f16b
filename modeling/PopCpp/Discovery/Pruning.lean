/-
# Pruning the overlay

A node that is asked a request for the second time cuts the link the copy came over.  The way
the request took to reach a node first, the tree of its first copies, is never cut by the
request itself, so a link is cut only where the tree goes round it.  Two requests at once can
each cut a link of the other one's tree, and then a node may be left alone.

The result below is that nothing else goes wrong: the overlay stays connected in every run in
which a link is cut only while no other request still on its way has been at both its ends, a
request is not passed on over a link that is just being cut, and no node has forgotten a
request that is asked of it again.
-/
import PopCpp.Discovery.Flood
import PopCpp.Lib.Graph
import Mathlib.Data.Fin.VecNotation
import Mathlib.Tactic.FinCases

namespace Discovery

open Transition

variable {N : Type*}

/-! ### Links and trees -/

namespace Grid

/-- The links that both sides know. -/
def links (g : Grid N) : SimpleGraph N where
  Adj u v := u ≠ v ∧ v ∈ (g.node u).neighborsList ∧ u ∈ (g.node v).neighborsList
  symm := ⟨fun _ _ h => ⟨h.1.symm, h.2.2, h.2.1⟩⟩
  loopless := ⟨fun _ h => h.1 rfl⟩

/-- The links that at least one side knows. -/
def anyLinks (g : Grid N) : SimpleGraph N where
  Adj u v := u ≠ v ∧ (v ∈ (g.node u).neighborsList ∨ u ∈ (g.node v).neighborsList)
  symm := ⟨fun _ _ h => ⟨h.1.symm, h.2.symm⟩⟩
  loopless := ⟨fun _ h => h.1 rfl⟩

/-- The ways over which the nodes were first asked the request. -/
def tree (g : Grid N) (id : RequestId N) : SimpleGraph N where
  Adj u v := u ≠ v ∧ (⟨u, id, v⟩ ∈ g.checks ∨ ⟨v, id, u⟩ ∈ g.checks)
  symm := ⟨fun _ _ h => ⟨h.1.symm, h.2.symm⟩⟩
  loopless := ⟨fun _ h => h.1 rfl⟩

/-- A copy of the discovery request is on its way. -/
def OnItsWay (g : Grid N) (id : RequestId N) : Prop :=
  ∃ d r s, Message.ask d r s ∈ g.inFlight ∧ r.endingSignal = false ∧ r.uniqueId = id

/-- A copy of the discovery request is on its way from `s` to `d`. -/
def OnItsWayTo (g : Grid N) (id : RequestId N) (s d : N) : Prop :=
  ∃ r, Message.ask d r s ∈ g.inFlight ∧ r.endingSignal = false ∧ r.uniqueId = id

lemma links_congr {g g' : Grid N}
    (h : ∀ n, (g'.node n).neighborsList = (g.node n).neighborsList) : g'.links = g.links := by
  ext u v
  simp only [links, h]

lemma tree_mono {g g' : Grid N} (h : ∀ c ∈ g.checks, c ∈ g'.checks) (id : RequestId N) :
    g.tree id ≤ g'.tree id :=
  fun _ _ hadj => ⟨hadj.1, hadj.2.imp (h _) (h _)⟩

end Grid

/-! ### Steps that keep the overlay connected -/

/-- A request may be evaluated at the node: it was not asked before, and no link that it would
be passed on over is just being cut. -/
def MayEvaluate (g : Grid N) (n : N) (id : RequestId N) : Prop :=
  ¬g.Evaluated n id ∧
    ∀ u ∈ (g.node n).neighborsList, Message.unregisterNode n u ∉ g.inFlight

/-- The request may cut the link between the nodes: no other request on its way has been
evaluated at both of them or is on its way from one to the other. -/
def MayCut (g : Grid N) (d s : N) (id : RequestId N) : Prop :=
  ∀ id', id' ≠ id → g.OnItsWay id' →
    ¬(g.Evaluated d id' ∧ g.Evaluated s id') ∧ ¬g.OnItsWayTo id' s d ∧ ¬g.OnItsWayTo id' d s

/-- The side condition on a step. -/
def KeepsOverlay [DecidableEq N] (g : Grid N) : Action N → Prop
  | .launch o _ _ endingSignal =>
      endingSignal = false → MayEvaluate g o (o, (g.node o).logicalClock)
  | .deliver i => ∀ d r s, g.inFlight[i]? = some (.ask d r s) → r.endingSignal = false →
      if r.uniqueId ∈ (g.node d).knownRequests then MayCut g d s r.uniqueId
      else MayEvaluate g d r.uniqueId

/-- What tells the copies of discovery requests apart. -/
def copyKey : Message N → Option (N × RequestId N × N)
  | .ask d r s => if r.endingSignal then none else some (d, r.uniqueId, s)
  | .unregisterNode _ _ => none

lemma onItsWayTo_iff {g : Grid N} {id : RequestId N} {s d : N} :
    g.OnItsWayTo id s d ↔ (d, id, s) ∈ g.inFlight.filterMap copyKey := by
  constructor
  · rintro ⟨r, hm, hend, rfl⟩
    exact List.mem_filterMap.mpr ⟨_, hm, by simp [copyKey, hend]⟩
  · intro hk
    obtain ⟨m, hm, hkey⟩ := List.mem_filterMap.mp hk
    cases m with
    | unregisterNode u v => simp [copyKey] at hkey
    | ask d' r s' =>
        simp only [copyKey] at hkey
        split_ifs at hkey with hend
        obtain ⟨rfl, rfl, rfl⟩ : d' = d ∧ r.uniqueId = id ∧ s' = s := by simpa using hkey
        exact ⟨r, hm, by simpa using hend, rfl⟩

section decidable

variable [DecidableEq N]

instance (g : Grid N) (n : N) (id : RequestId N) : Decidable (g.Evaluated n id) :=
  inferInstanceAs (Decidable (∃ c ∈ g.checks, c.node = n ∧ c.id = id))

instance (g : Grid N) (id : RequestId N) (s d : N) : Decidable (g.OnItsWayTo id s d) :=
  decidable_of_iff _ onItsWayTo_iff.symm

instance (g : Grid N) (n : N) (id : RequestId N) : Decidable (MayEvaluate g n id) :=
  inferInstanceAs (Decidable (_ ∧ _))

instance (g : Grid N) (d s : N) (id : RequestId N) : Decidable (MayCut g d s id) :=
  decidable_of_iff
    (∀ k ∈ g.inFlight.filterMap copyKey, k.2.1 ≠ id →
      ¬(g.Evaluated d k.2.1 ∧ g.Evaluated s k.2.1) ∧ ¬g.OnItsWayTo k.2.1 s d ∧
        ¬g.OnItsWayTo k.2.1 d s) <| by
    constructor
    · rintro h id' hne ⟨d', r, s', hm, hend, rfl⟩
      exact h _ (onItsWayTo_iff.mp ⟨r, hm, hend, rfl⟩) hne
    · rintro h ⟨d', id', s'⟩ hk hne
      obtain ⟨r, hm, hend, hid⟩ := onItsWayTo_iff.mpr hk
      exact h id' hne ⟨d', r, s', hm, hend, hid⟩

instance (g : Grid N) : ∀ a : Action N, Decidable (KeepsOverlay g a)
  | .launch _ _ _ _ => inferInstanceAs (Decidable (_ → _))
  | .deliver i =>
      match h : g.inFlight[i]? with
      | some (.ask d r s) =>
          decidable_of_iff (r.endingSignal = false →
            if r.uniqueId ∈ (g.node d).knownRequests then MayCut g d s r.uniqueId
            else MayEvaluate g d r.uniqueId)
            ⟨fun hP d' r' s' hm => by cases h.symm.trans hm; exact hP, fun hP => hP d r s h⟩
      | some (.unregisterNode _ _) =>
          isTrue fun d r s hm => absurd (h.symm.trans hm) (by simp)
      | none => isTrue fun d r s hm => absurd (h.symm.trans hm) (by simp)

end decidable

/-! ### The invariant -/

/-- The neighbour lists: a link that only one side knows is being cut. -/
structure Links (g : Grid N) : Prop where
  /-- No neighbour is listed twice. -/
  nodup : ∀ n, (g.node n).neighborsList.Nodup
  /-- No node is its own neighbour. -/
  irrefl : ∀ n, n ∉ (g.node n).neighborsList
  /-- A link known on one side only is being cut there. -/
  half : ∀ u v, v ∈ (g.node u).neighborsList → u ∉ (g.node v).neighborsList →
    Message.unregisterNode u v ∈ g.inFlight
  /-- A link that is being cut on one side has been cut on the other. -/
  cut : ∀ u v, Message.unregisterNode u v ∈ g.inFlight → u ∉ (g.node v).neighborsList

/-- The copies on their way and the trees of the requests in `L`, which are those still on
their way and possibly others. -/
structure Trees (L : RequestId N → Prop) (g : Grid N) : Prop where
  /-- A copy comes from a node that has evaluated the request; unless its node has done so too
  it comes over a link; and it does not run along the tree. -/
  copies : ∀ d r s, Message.ask d r s ∈ g.inFlight → r.endingSignal = false →
    L r.uniqueId ∧ s ≠ d ∧ g.Evaluated s r.uniqueId ∧
    (g.Evaluated d r.uniqueId ∨ g.links.Adj s d) ∧ (∃ e ∈ r.explorationList, e.1 = s) ∧
    ⟨d, r.uniqueId, s⟩ ∉ g.checks ∧ ⟨s, r.uniqueId, d⟩ ∉ g.checks
  /-- No node sends the request twice to the same node. -/
  single : (g.inFlight.filterMap copyKey).Nodup
  /-- A node remembers only what it has evaluated. -/
  known : ∀ n, ∀ id ∈ (g.node n).knownRequests, g.Evaluated n id
  /-- First copies come from nodes that have evaluated the request. -/
  senders : ∀ c ∈ g.checks, g.Evaluated c.sender c.id
  /-- The trees of the requests on their way are there. -/
  tree : ∀ id, L id → g.tree id ≤ g.links
  /-- The tree leads to the origin. -/
  reach : ∀ id n, g.Evaluated n id → (g.tree id).Reachable n id.1
  /-- Ids are older than the clock of their node. -/
  clock : ∀ c ∈ g.checks, c.id.2 < (g.node c.id.1).logicalClock

namespace Trees

variable {L L' : RequestId N → Prop} {g : Grid N}

/-- The tree of a request has its ends where the request has been evaluated. -/
lemma evaluated_of_tree (h : Trees L g) {id : RequestId N} {u v : N} (hadj : (g.tree id).Adj u v) :
    g.Evaluated u id ∧ g.Evaluated v id := by
  rcases hadj with ⟨-, hc | hc⟩
  · exact ⟨⟨_, hc, rfl, rfl⟩, h.senders _ hc⟩
  · exact ⟨h.senders _ hc, ⟨_, hc, rfl, rfl⟩⟩

/-- Two nodes that have evaluated the request are joined by its tree. -/
lemma reachable (h : Trees L g) {id : RequestId N} {u v : N} (hu : g.Evaluated u id)
    (hv : g.Evaluated v id) : (g.tree id).Reachable u v :=
  (h.reach id u hu).trans (h.reach id v hv).symm

lemma restrict (h : Trees L g)
    (hL : ∀ d r s, Message.ask d r s ∈ g.inFlight → r.endingSignal = false → L' r.uniqueId)
    (hsub : ∀ id, L' id → L id) : Trees L' g where
  copies d r s hm hend := ⟨hL d r s hm hend, (h.copies d r s hm hend).2⟩
  single := h.single
  known := h.known
  senders := h.senders
  tree id hid := h.tree id (hsub id hid)
  reach := h.reach
  clock := h.clock

/-- Taking a message out of flight. -/
lemma take (h : Trees L g) {m : Message N} {rest : List (Message N)}
    (hperm : g.inFlight.Perm (m :: rest)) : Trees L { g with inFlight := rest } where
  copies d r s hm := h.copies d r s (hperm.mem_iff.mpr (List.mem_cons_of_mem _ hm))
  single := by
    have hnodup := (hperm.filterMap copyKey).nodup_iff.mp h.single
    rw [List.filterMap_cons] at hnodup
    split at hnodup
    · exact hnodup
    · exact hnodup.of_cons
  known := h.known
  senders := h.senders
  tree := h.tree
  reach := h.reach
  clock := h.clock

/-- The message that is taken out was the only one of its kind. -/
lemma not_mem_rest (h : Trees L g) {d s : N} {r r' : Request N} {rest : List (Message N)}
    (hperm : g.inFlight.Perm (.ask d r s :: rest)) (hend : r.endingSignal = false)
    (hend' : r'.endingSignal = false) (hid : r'.uniqueId = r.uniqueId) :
    Message.ask d r' s ∉ rest := by
  intro hm
  have hnodup := (hperm.filterMap copyKey).nodup_iff.mp h.single
  have hkey : copyKey (Message.ask d r s) = some (d, r.uniqueId, s) := by simp [copyKey, hend]
  rw [List.filterMap_cons_some hkey, List.nodup_cons] at hnodup
  refine hnodup.1 (List.mem_filterMap.mpr ⟨_, hm, ?_⟩)
  simp [copyKey, hend', hid]

end Trees

lemma Links.take {g : Grid N} (h : Links g) {d s : N} {r : Request N} {rest : List (Message N)}
    (hperm : g.inFlight.Perm (.ask d r s :: rest)) : Links { g with inFlight := rest } where
  nodup := h.nodup
  irrefl := h.irrefl
  half u v hv hu := by simpa using hperm.mem_iff.mp (h.half u v hv hu)
  cut u v hm := h.cut u v (hperm.mem_iff.mpr (List.mem_cons_of_mem _ hm))

/-! ### One side of a link is cut -/

section removeNeighbor

variable [LinearOrder N] {L : RequestId N → Prop} {g : Grid N} {d s : N}

lemma Links.mem_removeNeighbor (h : Links g) {n w : N} :
    w ∈ (Function.update g.node d ((g.node d).removeNeighbor s) n).neighborsList ↔
      w ∈ (g.node n).neighborsList ∧ ¬(n = d ∧ w = s) := by
  by_cases hn : n = d
  · subst hn
    simp [SearchNode.removeNeighbor, (h.nodup n).mem_erase_iff, and_comm]
  · simp [hn]

lemma nodup_removeNeighbor (h : Links g) (n : N) :
    (Function.update g.node d ((g.node d).removeNeighbor s) n).neighborsList.Nodup := by
  by_cases hn : n = d
  · subst hn
    simpa [SearchNode.removeNeighbor] using (h.nodup n).erase s
  · simpa [hn] using h.nodup n

omit [LinearOrder N] in
lemma logicalClock_update_removeNeighbor [DecidableEq N] {node : N → SearchNode N} {n : N} :
    (Function.update node d ((node d).removeNeighbor s) n).logicalClock =
      (node n).logicalClock := by
  by_cases hn : n = d
  · subst hn
    simp [SearchNode.removeNeighbor]
  · simp [hn]

/-- The links after one side has been cut. -/
lemma Links.adj_removeNeighbor (h : Links g) {u v : N} {ms : List (Message N)} :
    (Grid.links ⟨Function.update g.node d ((g.node d).removeNeighbor s), ms, g.checks,
      g.ends⟩).Adj u v ↔ g.links.Adj u v ∧ ¬(u = d ∧ v = s) ∧ ¬(v = d ∧ u = s) := by
  simp only [Grid.links, h.mem_removeNeighbor]
  tauto

/-- The trees and copies when one side of a link is cut.  If the link was there it joined no
copy to a node still to be asked, and was in no tree. -/
lemma Trees.removeNeighbor (h : Trees L g) (hlinks : Links g) {ms : List (Message N)}
    (hms : ∀ d r s, Message.ask d r s ∈ ms → Message.ask d r s ∈ g.inFlight)
    (hsingle : (ms.filterMap copyKey).Nodup)
    (hcopies : ∀ r, r.endingSignal = false → g.links.Adj s d →
      (Message.ask d r s ∈ ms → g.Evaluated d r.uniqueId) ∧
      (Message.ask s r d ∈ ms → g.Evaluated s r.uniqueId))
    (htree : ∀ id, L id → g.links.Adj s d → ¬(g.tree id).Adj s d) :
    Trees L ⟨Function.update g.node d ((g.node d).removeNeighbor s), ms, g.checks, g.ends⟩ where
  copies d' r' s' hm hend := by
    obtain ⟨hL, hne, hs, hd, hrest⟩ := h.copies d' r' s' (hms d' r' s' hm) hend
    refine ⟨hL, hne, hs, ?_, hrest⟩
    rcases hd with hd | hadj
    · exact Or.inl hd
    · by_cases h1 : s' = d ∧ d' = s
      · obtain ⟨rfl, rfl⟩ := h1
        exact Or.inl ((hcopies r' hend hadj.symm).2 hm)
      · by_cases h2 : d' = d ∧ s' = s
        · obtain ⟨rfl, rfl⟩ := h2
          exact Or.inl ((hcopies r' hend hadj).1 hm)
        · exact Or.inr (hlinks.adj_removeNeighbor.mpr ⟨hadj, h1, h2⟩)
  single := hsingle
  known n id hid := h.known n id (by rwa [knownRequests_update_removeNeighbor] at hid)
  senders := h.senders
  tree id hid u v hadj := by
    have hlink := h.tree id hid hadj
    refine hlinks.adj_removeNeighbor.mpr ⟨hlink, ?_, ?_⟩
    · rintro ⟨rfl, rfl⟩
      exact htree id hid hlink.symm hadj.symm
    · rintro ⟨rfl, rfl⟩
      exact htree id hid hlink hadj
  reach := h.reach
  clock c hc := by
    rw [logicalClock_update_removeNeighbor]
    exact h.clock c hc

/-- An `UnregisterNode` is delivered: the other side has been cut before. -/
lemma receive_unregisterNode_keeps (hlinks : Links g) (h : Trees L g) {url : N}
    {rest : List (Message N)} (hperm : g.inFlight.Perm (.unregisterNode d url :: rest)) :
    Links (receive { g with inFlight := rest } (.unregisterNode d url)) ∧
    Trees L (receive { g with inFlight := rest } (.unregisterNode d url)) ∧
    (receive { g with inFlight := rest } (.unregisterNode d url)).links = g.links := by
  have hcut : d ∉ (g.node url).neighborsList :=
    hlinks.cut d url (hperm.mem_iff.mpr List.mem_cons_self)
  have hrest : ∀ m ∈ rest, m ∈ g.inFlight :=
    fun m hm => hperm.mem_iff.mpr (List.mem_cons_of_mem _ hm)
  have hnolink : ¬g.links.Adj url d := fun hadj => hcut hadj.2.1
  have hg' : receive { g with inFlight := rest } (.unregisterNode d url) =
      ⟨Function.update g.node d ((g.node d).removeNeighbor url), rest, g.checks, g.ends⟩ := rfl
  rw [hg']
  refine ⟨⟨nodup_removeNeighbor hlinks, ?_, ?_, ?_⟩, ?_, ?_⟩
  · intro n hn
    exact hlinks.irrefl n (hlinks.mem_removeNeighbor.mp hn).1
  · intro u v hv hu
    obtain ⟨hvu, hne⟩ := hlinks.mem_removeNeighbor.mp hv
    rw [hlinks.mem_removeNeighbor] at hu
    have hm : Message.unregisterNode u v ∈ g.inFlight := by
      by_cases hlist : u ∈ (g.node v).neighborsList
      · obtain ⟨rfl, rfl⟩ : v = d ∧ u = url := by
          by_contra hnot
          exact hu ⟨hlist, hnot⟩
        exact absurd hvu hcut
      · exact hlinks.half u v hvu hlist
    rcases List.mem_cons.mp (hperm.mem_iff.mp hm) with heq | hm
    · cases heq
      exact absurd ⟨rfl, rfl⟩ hne
    · exact hm
  · intro u v hm hu
    exact hlinks.cut u v (hrest _ hm) (hlinks.mem_removeNeighbor.mp hu).1
  · refine h.removeNeighbor hlinks (fun d' r' s' hm => hrest _ hm) (h.take hperm).single ?_ ?_
    · exact fun r _ hadj => absurd hadj hnolink
    · exact fun id _ hadj => absurd hadj hnolink
  · ext u v
    refine hlinks.adj_removeNeighbor.trans ⟨And.left, fun hadj => ⟨hadj, ?_, ?_⟩⟩
    · rintro ⟨rfl, rfl⟩
      exact hnolink hadj.symm
    · rintro ⟨rfl, rfl⟩
      exact hnolink hadj

/-- A node that has been asked before cuts the link.  The tree of the request goes round it. -/
lemma receive_known_keeps (hlinks : Links g) (h : Trees g.OnItsWay g) {r : Request N}
    {rest : List (Message N)} (hperm : g.inFlight.Perm (.ask d r s :: rest))
    (hend : r.endingSignal = false) (hknown : r.uniqueId ∈ (g.node d).knownRequests)
    (hcut : MayCut g d s r.uniqueId) (hconn : g.links.Preconnected) :
    Links (receive { g with inFlight := rest } (.ask d r s)) ∧
    Trees g.OnItsWay (receive { g with inFlight := rest } (.ask d r s)) ∧
    (receive { g with inFlight := rest } (.ask d r s)).links.Preconnected := by
  have hrest : ∀ m ∈ rest, m ∈ g.inFlight :=
    fun m hm => hperm.mem_iff.mpr (List.mem_cons_of_mem _ hm)
  have hd := h.known d r.uniqueId hknown
  obtain ⟨hlive, hne, hs, -, -, hds, hsd⟩ :=
    h.copies d r s (hperm.mem_iff.mpr List.mem_cons_self) hend
  have hnotree : ¬(g.tree r.uniqueId).Adj s d := by
    rintro ⟨-, hc | hc⟩
    · exact hsd hc
    · exact hds hc
  have hg' : receive { g with inFlight := rest } (.ask d r s) =
      ⟨Function.update g.node d ((g.node d).removeNeighbor s),
        rest ++ [.unregisterNode s d], g.checks, g.ends⟩ := by
    rw [receive_ask_known (g := { g with inFlight := rest }) hend hknown]
  rw [hg']
  have htrees : Trees g.OnItsWay
      ⟨Function.update g.node d ((g.node d).removeNeighbor s), rest ++ [.unregisterNode s d],
        g.checks, g.ends⟩ := by
    refine h.removeNeighbor hlinks (fun d' r' s' hm => hrest _ (by simpa using hm)) ?_ ?_ ?_
    · have hnone : copyKey (Message.unregisterNode s d) = none := rfl
      rw [List.filterMap_append, List.filterMap_cons_none hnone, List.filterMap_nil,
        List.append_nil]
      exact (h.take hperm).single
    · intro r' hend' hadj
      -- A copy of another request between the two ends is ruled out by the side condition.
      by_cases hid : r'.uniqueId = r.uniqueId
      · exact ⟨fun _ => hid ▸ hd, fun _ => hid ▸ hs⟩
      · constructor
        · intro hm
          have hm : Message.ask d r' s ∈ g.inFlight := hrest _ (by simpa using hm)
          exact absurd ⟨r', hm, hend', rfl⟩ (hcut _ hid ⟨d, r', s, hm, hend', rfl⟩).2.1
        · intro hm
          have hm : Message.ask s r' d ∈ g.inFlight := hrest _ (by simpa using hm)
          exact absurd ⟨r', hm, hend', rfl⟩ (hcut _ hid ⟨s, r', d, hm, hend', rfl⟩).2.2
    · intro id hid _ hadj
      by_cases heq : id = r.uniqueId
      · exact hnotree (heq ▸ hadj)
      · obtain ⟨hs', hd'⟩ := h.evaluated_of_tree hadj
        exact (hcut id heq hid).1 ⟨hd', hs'⟩
  refine ⟨⟨nodup_removeNeighbor hlinks, ?_, ?_, ?_⟩, htrees, ?_⟩
  · intro n hn
    exact hlinks.irrefl n (hlinks.mem_removeNeighbor.mp hn).1
  · intro u v hv hu
    obtain ⟨hvu, -⟩ := hlinks.mem_removeNeighbor.mp hv
    rw [hlinks.mem_removeNeighbor] at hu
    by_cases hlist : u ∈ (g.node v).neighborsList
    · obtain ⟨rfl, rfl⟩ : v = d ∧ u = s := by
        by_contra hnot
        exact hu ⟨hlist, hnot⟩
      simp
    · have hm := hlinks.half u v hvu hlist
      have hm : Message.unregisterNode u v ∈ rest := by simpa using hperm.mem_iff.mp hm
      exact List.mem_append_left _ hm
  · intro u v hm hu
    obtain ⟨huv, hnot⟩ := hlinks.mem_removeNeighbor.mp hu
    rcases List.mem_append.mp hm with hm | hm
    · exact hlinks.cut u v (hrest _ hm) huv
    · obtain ⟨rfl, rfl⟩ : u = s ∧ v = d := by simpa using hm
      exact hnot ⟨rfl, rfl⟩
  · have hround := (htrees.reachable hs hd).mono (htrees.tree _ hlive)
    refine hconn.of_bridged fun u v hadj => ?_
    by_cases h1 : u = d ∧ v = s
    · obtain ⟨rfl, rfl⟩ := h1
      exact hround.symm
    · by_cases h2 : v = d ∧ u = s
      · obtain ⟨rfl, rfl⟩ := h2
        exact hround
      · exact (hlinks.adj_removeNeighbor.mpr ⟨hadj, h1, h2⟩ :
          (Grid.links ⟨_, _, g.checks, g.ends⟩).Adj u v).reachable

end removeNeighbor

/-! ### A request is evaluated -/

section evaluate

variable [LinearOrder N] {L : RequestId N → Prop} {g : Grid N} {d s : N} {r : Request N}

omit [LinearOrder N] in
lemma neighborsList_update_saveRequest [DecidableEq N] {node : N → SearchNode N} {n : N}
    {id : RequestId N} : (Function.update node d ((node d).saveRequest id) n).neighborsList =
      (node n).neighborsList := by
  by_cases hn : n = d
  · subst hn
    simp [SearchNode.saveRequest]
  · simp [hn]

omit [LinearOrder N] in
lemma logicalClock_update_saveRequest [DecidableEq N] {node : N → SearchNode N} {n : N}
    {id : RequestId N} : (Function.update node d ((node d).saveRequest id) n).logicalClock =
      (node n).logicalClock := by
  by_cases hn : n = d
  · subst hn
    simp [SearchNode.saveRequest]
  · simp [hn]

omit [LinearOrder N] in
lemma mem_knownRequests_update_saveRequest [DecidableEq N] {node : N → SearchNode N} {n : N}
    {id id' : RequestId N}
    (h : id' ∈ (Function.update node d ((node d).saveRequest id) n).knownRequests) :
    id' ∈ (node n).knownRequests ∨ n = d ∧ id' = id := by
  by_cases hn : n = d
  · subst hn
    rw [Function.update_self] at h
    have hmem : id' ∈ (node n).knownRequests ++ [id] := by
      simp only [SearchNode.saveRequest] at h
      split_ifs at h
      · exact List.mem_of_mem_tail h
      · exact h
    rcases List.mem_append.mp hmem with hmem | hmem
    · exact Or.inl hmem
    · exact Or.inr ⟨rfl, List.mem_singleton.mp hmem⟩
  · rw [Function.update_of_ne hn] at h
    exact Or.inl h

/-- The keys of the copies that a node passes on. -/
lemma mem_filterMap_forwards {nb : List N} {el : ExplorationList N}
    {k : N × RequestId N × N} (hk : k ∈ (forwards d nb el r).filterMap copyKey) :
    ∃ w ∈ nb, k = (w, r.uniqueId, d) := by
  obtain ⟨m, hm, hkey⟩ := List.mem_filterMap.mp hk
  obtain ⟨-, w, hw, -, rfl⟩ := mem_forwards.mp hm
  simp only [copyKey] at hkey
  split_ifs at hkey
  exact ⟨w, hw, (Option.some.inj hkey).symm⟩

lemma nodup_filterMap_forwards {nb : List N} {el : ExplorationList N} (hnb : nb.Nodup) :
    ((forwards d nb el r).filterMap copyKey).Nodup := by
  unfold forwards
  split_ifs
  · rw [List.filterMap_map]
    refine (hnb.filter _).filterMap fun w w' k hk hk' => ?_
    simp only [Function.comp, copyKey] at hk hk'
    split_ifs at hk hk'
    · simp at hk
    · simp only [Option.mem_def, Option.some.injEq] at hk hk'
      exact congrArg Prod.fst (hk.trans hk'.symm)
  · simp

/-- A first evaluation keeps the lists as they are. -/
lemma Links.evaluate (h : Links g) {ms : List (Message N)} {cs : List (Check N)}
    (hms : ∀ u v, Message.unregisterNode u v ∈ ms ↔ Message.unregisterNode u v ∈ g.inFlight)
    {id : RequestId N} :
    Links ⟨Function.update g.node d ((g.node d).saveRequest id), ms, cs, g.ends⟩ where
  nodup n := by
    rw [neighborsList_update_saveRequest]
    exact h.nodup n
  irrefl n := by
    rw [neighborsList_update_saveRequest]
    exact h.irrefl n
  half u v hv hu := by
    rw [neighborsList_update_saveRequest] at hv hu
    exact (hms u v).mpr (h.half u v hv hu)
  cut u v hm := by
    rw [neighborsList_update_saveRequest]
    exact h.cut u v ((hms u v).mp hm)

/-- Where a first copy comes from: the origin itself, or a node that has evaluated the request
and is a neighbour of this one. -/
def ComesFrom (g : Grid N) (d : N) (r : Request N) (s : N) : Prop :=
  s = d ∧ d = r.uniqueId.1 ∨
    s ≠ d ∧ g.Evaluated s r.uniqueId ∧ g.links.Adj s d ∧ ∃ e ∈ r.explorationList, e.1 = s

/-- A first evaluation adds one link to the tree of the request, and copies that do not run
along it. -/
lemma Trees.evaluate (hlinks : Links g) (h : Trees L g)
    (hL : L r.uniqueId) (hmay : MayEvaluate g d r.uniqueId) (hfrom : ComesFrom g d r s)
    (honly : ∀ r', r'.endingSignal = false → r'.uniqueId = r.uniqueId →
      Message.ask d r' s ∉ g.inFlight)
    (hclock : r.uniqueId.2 < (g.node r.uniqueId.1).logicalClock) :
    Trees L ⟨Function.update g.node d ((g.node d).saveRequest r.uniqueId),
      g.inFlight ++ forwards d (g.node d).neighborsList r.explorationList.unpack
        (r.passedOn d (g.node d).neighborsList),
      g.checks ++ [⟨d, r.uniqueId, s⟩], g.ends⟩ := by
  obtain ⟨hfresh, hnocut⟩ := hmay
  obtain ⟨g', hg'⟩ : ∃ g', g' = (⟨Function.update g.node d ((g.node d).saveRequest r.uniqueId),
      g.inFlight ++ forwards d (g.node d).neighborsList r.explorationList.unpack
        (r.passedOn d (g.node d).neighborsList),
      g.checks ++ [⟨d, r.uniqueId, s⟩], g.ends⟩ : Grid N) := ⟨_, rfl⟩
  rw [← hg']
  have hlinks' : g'.links = g.links := by
    rw [hg']
    exact Grid.links_congr fun n => neighborsList_update_saveRequest
  have hmono : ∀ {n id}, g.Evaluated n id → g'.Evaluated n id := by
    rintro n id ⟨c, hc, hcn⟩
    exact ⟨c, by rw [hg']; exact List.mem_append_left _ hc, hcn⟩
  have hnow : g'.Evaluated d r.uniqueId :=
    ⟨⟨d, r.uniqueId, s⟩, by rw [hg']; exact List.mem_append_right _ List.mem_cons_self, rfl, rfl⟩
  have hcheck : ∀ {c}, c ∈ g'.checks → c ∈ g.checks ∨ c = ⟨d, r.uniqueId, s⟩ := by
    intro c hc
    rw [hg'] at hc
    simpa using hc
  have htree : ∀ id, g.tree id ≤ g'.tree id :=
    Grid.tree_mono fun c hc => by rw [hg']; exact List.mem_append_left _ hc
  -- Nothing was recorded of this node before.
  have hnone : ∀ n, ⟨d, r.uniqueId, n⟩ ∉ g.checks ∧ ⟨n, r.uniqueId, d⟩ ∉ g.checks :=
    fun n => ⟨fun hc => hfresh ⟨_, hc, rfl, rfl⟩, fun hc => hfresh (h.senders _ hc)⟩
  constructor
  · intro d' r' s' hm hend'
    rw [hg'] at hm
    rw [hlinks']
    rcases List.mem_append.mp hm with hold | hm
    · obtain ⟨hL', hne, hs', hd', hkey, hds, hsd⟩ := h.copies d' r' s' hold hend'
      refine ⟨hL', hne, hmono hs', hd'.imp_left hmono, hkey, fun hc => ?_, fun hc => ?_⟩
      · rcases hcheck hc with hc | heq
        · exact hds hc
        · injection heq with h1 h2 h3
          subst h1 h3
          exact honly r' hend' h2 hold
      · rcases hcheck hc with hc | heq
        · exact hsd hc
        · injection heq with h1 h2 h3
          subst h1
          exact hfresh (h2 ▸ hs')
    · obtain ⟨-, w, hw, hnot, heq⟩ := mem_forwards.mp hm
      cases heq
      have hwd : d' ≠ d := by
        rintro rfl
        exact hlinks.irrefl _ hw
      have hback : d ∈ (g.node d').neighborsList := by
        by_contra hnotin
        exact hnocut d' hw (hlinks.half d d' hw hnotin)
      refine ⟨hL, hwd.symm, hnow, Or.inr ⟨hwd.symm, hw, hback⟩,
        ExplorationList.key_addListNode (Or.inl rfl), fun hc => ?_, fun hc => ?_⟩
      · rcases hcheck hc with hc | heq
        · exact (hnone d').2 hc
        · injection heq with h1
          exact hwd h1
      · rcases hcheck hc with hc | heq
        · exact (hnone d').1 hc
        · injection heq with _ _ h3
          subst h3
          rcases hfrom with ⟨heq, -⟩ | ⟨-, -, -, e, he, hes⟩
          · exact hwd heq
          · obtain ⟨e', he', hkey⟩ := ExplorationList.key_unpack he
            have hin : r.explorationList.unpack.isIn d' = true :=
              ExplorationList.isIn_iff.mpr ⟨e', he', Or.inl (hkey.trans hes).symm⟩
            simp [hin] at hnot
  · rw [hg', List.filterMap_append]
    refine List.nodup_append.mpr ⟨h.single, nodup_filterMap_forwards (hlinks.nodup d), ?_⟩
    rintro k hk k' hk' rfl
    obtain ⟨w, -, rfl⟩ := mem_filterMap_forwards hk'
    obtain ⟨m, hm, hkey⟩ := List.mem_filterMap.mp hk
    cases m with
    | unregisterNode u v => simp [copyKey] at hkey
    | ask d' r' s' =>
        simp only [copyKey] at hkey
        split_ifs at hkey with hend'
        obtain ⟨rfl, hid, rfl⟩ : d' = w ∧ r'.uniqueId = r.uniqueId ∧ s' = d := by
          simpa [Request.passedOn, Request.addNodeToExplorationList] using hkey
        have hs' := (h.copies d' r' s' hm (by simpa using hend')).2.2.1
        exact hfresh (hid ▸ hs')
  · intro n id hid
    rw [hg'] at hid
    rcases mem_knownRequests_update_saveRequest hid with hid | ⟨rfl, rfl⟩
    · exact hmono (h.known n id hid)
    · exact hnow
  · intro c hc
    rcases hcheck hc with hc | rfl
    · exact hmono (h.senders c hc)
    · rcases hfrom with ⟨rfl, -⟩ | ⟨-, hs, -⟩
      · exact hnow
      · exact hmono hs
  · rintro id hid u v ⟨hne, hadj⟩
    rw [hlinks']
    have hnew : ∀ {a b : N}, a ≠ b → (⟨a, id, b⟩ : Check N) ∈ g'.checks → g.links.Adj a b := by
      intro a b hab hc
      rcases hcheck hc with hc | heq
      · exact h.tree id hid ⟨hab, Or.inl hc⟩
      · injection heq with h1 h2 h3
        subst h1 h3
        rcases hfrom with ⟨heq, -⟩ | ⟨-, -, hlink, -⟩
        · exact absurd heq.symm hab
        · exact hlink.symm
    rcases hadj with hc | hc
    · exact hnew hne hc
    · exact (hnew hne.symm hc).symm
  · rintro id n ⟨c, hc, rfl, rfl⟩
    rcases hcheck hc with hc | rfl
    · exact (h.reach _ _ ⟨c, hc, rfl, rfl⟩).mono (htree _)
    · rcases hfrom with ⟨-, horigin⟩ | ⟨hne, hs, -⟩
      · exact horigin ▸ SimpleGraph.Reachable.rfl
      · have hadj : (g'.tree r.uniqueId).Adj d s := by
          refine ⟨hne.symm, Or.inl ?_⟩
          rw [hg']
          exact List.mem_append_right _ List.mem_cons_self
        exact hadj.reachable.trans ((h.reach _ _ hs).mono (htree _))
  · intro c hc
    rw [hg', logicalClock_update_saveRequest]
    rcases hcheck hc with hc | rfl
    · exact h.clock c hc
    · exact hclock

/-- End requests prune nothing: they only put messages in flight that the invariant does not
look at. -/
lemma receive_end_keeps (hlinks : Links g) (h : Trees L g) (hend : r.endingSignal = true) :
    Links (receive g (.ask d r s)) ∧ Trees L (receive g (.ask d r s)) ∧
      (receive g (.ask d r s)).links = g.links := by
  rw [receive_ask_end hend]
  have hnew : ∀ m ∈ forwards d (g.node d).neighborsList r.explorationList.unpack
      (r.passedOn d (g.node d).neighborsList),
      copyKey m = none ∧ (∀ u v, m ≠ .unregisterNode u v) ∧
      ∀ d' r' s', m = .ask d' r' s' → r'.endingSignal = true := by
    intro m hm
    obtain ⟨-, w, -, -, rfl⟩ := mem_forwards.mp hm
    have hend' : (r.passedOn d (g.node d).neighborsList).endingSignal = true := hend
    refine ⟨by simp [copyKey, hend'], fun u v => by simp, ?_⟩
    rintro d' r' s' heq
    cases heq
    exact hend
  refine ⟨⟨hlinks.nodup, hlinks.irrefl, ?_, ?_⟩, ⟨?_, ?_, h.known, h.senders, h.tree, h.reach,
    h.clock⟩, rfl⟩
  · exact fun u v hv hu => List.mem_append_left _ (hlinks.half u v hv hu)
  · intro u v hm
    rcases List.mem_append.mp hm with hm | hm
    · exact hlinks.cut u v hm
    · exact absurd rfl ((hnew _ hm).2.1 u v)
  · intro d' r' s' hm hend'
    rcases List.mem_append.mp hm with hm | hm
    · exact h.copies d' r' s' hm hend'
    · rw [(hnew _ hm).2.2 d' r' s' rfl] at hend'
      cases hend'
  · have hnil : (forwards d (g.node d).neighborsList r.explorationList.unpack
        (r.passedOn d (g.node d).neighborsList)).filterMap copyKey = [] := by
      rw [List.filterMap_eq_nil_iff]
      exact fun m hm => (hnew m hm).1
    rw [List.filterMap_append, hnil, List.append_nil]
    exact h.single

/-- A first evaluation, with the message that brought the request out of flight. -/
lemma receive_first_keeps (hlinks : Links g) (h : Trees L g) (hend : r.endingSignal = false)
    (hL : L r.uniqueId) (hmay : MayEvaluate g d r.uniqueId) (hfrom : ComesFrom g d r s)
    (honly : ∀ r', r'.endingSignal = false → r'.uniqueId = r.uniqueId →
      Message.ask d r' s ∉ g.inFlight)
    (hclock : r.uniqueId.2 < (g.node r.uniqueId.1).logicalClock) :
    Links (receive g (.ask d r s)) ∧ Trees L (receive g (.ask d r s)) ∧
      (receive g (.ask d r s)).links = g.links := by
  have hnew : r.uniqueId ∉ (g.node d).knownRequests :=
    fun hmem => hmay.1 (h.known d _ hmem)
  rw [receive_ask_new hend hnew]
  refine ⟨hlinks.evaluate fun u v => ?_, h.evaluate hlinks hL hmay hfrom honly hclock,
    Grid.links_congr fun n => neighborsList_update_saveRequest⟩
  constructor
  · intro hm
    rcases List.mem_append.mp hm with hm | hm
    · exact hm
    · obtain ⟨-, w, -, -, heq⟩ := mem_forwards.mp hm
      cases heq
  · exact fun hm => List.mem_append_left _ hm

end evaluate

/-! ### Runs -/

/-- The invariant of the runs whose steps meet the side condition. -/
structure Connected (g : Grid N) : Prop where
  /-- The neighbour lists. -/
  lists : Links g
  /-- The copies and the trees. -/
  trees : Trees g.OnItsWay g
  /-- The overlay of the links that both sides know is connected. -/
  connected : g.links.Preconnected

/-- The requests on their way are among those the trees are there for. -/
lemma Trees.onItsWay {L : RequestId N → Prop} {g : Grid N} (h : Trees L g) :
    Trees g.OnItsWay g := by
  refine h.restrict (fun d r s hm hend => ⟨d, r, s, hm, hend, rfl⟩) ?_
  rintro id ⟨d, r, s, hm, hend, rfl⟩
  exact (h.copies d r s hm hend).1

namespace Connected

variable [LinearOrder N] {g g' : Grid N}

lemma deliver (h : Connected g) {i : ℕ} (hsafe : KeepsOverlay g (.deliver i))
    (hstep : step g (.deliver i) = some g') : Connected g' := by
  obtain ⟨m, rest, hm, hperm, rfl⟩ := step_deliver hstep
  cases m with
  | unregisterNode d url =>
      obtain ⟨hlists, htrees, hlinks⟩ := receive_unregisterNode_keeps h.lists h.trees hperm
      exact ⟨hlists, htrees.onItsWay, hlinks ▸ h.connected⟩
  | ask d r s =>
      have hlists := h.lists.take hperm
      have htrees := h.trees.take hperm
      have hmem : Message.ask d r s ∈ g.inFlight := hperm.mem_iff.mpr List.mem_cons_self
      cases hend : r.endingSignal with
      | true =>
          obtain ⟨hlists, htrees, hlinks⟩ := receive_end_keeps hlists htrees hend
          refine ⟨hlists, htrees.onItsWay, ?_⟩
          rw [hlinks]
          exact h.connected
      | false =>
          have hcond := hsafe d r s hm hend
          split_ifs at hcond with hknown
          · obtain ⟨hlists, htrees, hconn⟩ :=
              receive_known_keeps h.lists h.trees hperm hend hknown hcond h.connected
            exact ⟨hlists, htrees.onItsWay, hconn⟩
          · obtain ⟨hlive, hne, hs, hd, hkey, -⟩ := h.trees.copies d r s hmem hend
            have hlink := hd.resolve_left hcond.1
            have hmay : MayEvaluate { g with inFlight := rest } d r.uniqueId := by
              refine ⟨hcond.1, fun u hu hm => hcond.2 u hu ?_⟩
              exact hperm.mem_iff.mpr (List.mem_cons_of_mem _ hm)
            have hclock : r.uniqueId.2 < (g.node r.uniqueId.1).logicalClock := by
              obtain ⟨c, hc, -, hcid⟩ := hs
              rw [← hcid]
              exact h.trees.clock c hc
            obtain ⟨hlists, htrees, hlinks⟩ := receive_first_keeps hlists htrees hend hlive hmay
              (Or.inr ⟨hne, hs, hlink, hkey⟩)
              (fun r' hend' hid => h.trees.not_mem_rest hperm hend hend' hid) hclock
            refine ⟨hlists, htrees.onItsWay, ?_⟩
            rw [hlinks]
            exact h.connected

/-- The tick of a clock makes the next id one that nothing is recorded of. -/
lemma tick (h : Connected g) (o : N) :
    Links (g.tick o) ∧
    Trees (fun id => g.OnItsWay id ∨ id = (o, (g.node o).logicalClock)) (g.tick o) ∧
    (g.tick o).links = g.links := by
  have hnode : ∀ n, ((g.tick o).node n).neighborsList = (g.node n).neighborsList ∧
      ((g.tick o).node n).knownRequests = (g.node n).knownRequests ∧
      (g.node n).logicalClock ≤ ((g.tick o).node n).logicalClock := by
    intro n
    by_cases hn : n = o
    · subst hn
      simp [Grid.tick]
    · simp [Grid.tick, hn]
  have hlinks : (g.tick o).links = g.links := Grid.links_congr fun n => (hnode n).1
  refine ⟨⟨?_, ?_, ?_, ?_⟩, ⟨?_, h.trees.single, ?_, h.trees.senders, ?_, h.trees.reach, ?_⟩,
    hlinks⟩
  · intro n
    rw [(hnode n).1]
    exact h.lists.nodup n
  · intro n
    rw [(hnode n).1]
    exact h.lists.irrefl n
  · intro u v hv hu
    rw [(hnode _).1] at hv hu
    exact h.lists.half u v hv hu
  · intro u v hm
    rw [(hnode v).1]
    exact h.lists.cut u v hm
  · intro d r s hm hend
    obtain ⟨hlive, hrest⟩ := h.trees.copies d r s hm hend
    refine ⟨Or.inl hlive, ?_⟩
    rw [hlinks]
    exact hrest
  · intro n id hid
    rw [(hnode n).2.1] at hid
    exact h.trees.known n id hid
  · rintro id (hid | rfl)
    · rw [hlinks]
      exact h.trees.tree id hid
    · -- The id is new, so nothing is in its tree.
      rintro u v ⟨-, hc | hc⟩
      · exact absurd (h.trees.clock _ hc) (lt_irrefl _)
      · exact absurd (h.trees.clock _ hc) (lt_irrefl _)
  · exact fun c hc => (h.trees.clock c hc).trans_le (hnode _).2.2

lemma launch (h : Connected g) {o : N} {maxHops : ℤ} {popAppId : String} {endingSignal : Bool}
    (hsafe : KeepsOverlay g (.launch o maxHops popAppId endingSignal)) :
    Connected (launchDiscovery g o maxHops popAppId endingSignal) := by
  obtain ⟨hlists, htrees, hlinks⟩ := h.tick o
  rw [launchDiscovery_eq_receive]
  cases endingSignal with
  | true =>
      obtain ⟨hlists', htrees', hlinks'⟩ :=
        receive_end_keeps (d := o) (s := o)
          (r := ⟨(o, (g.node o).logicalClock), maxHops, popAppId, true, []⟩) hlists htrees rfl
      refine ⟨hlists', htrees'.onItsWay, ?_⟩
      rw [hlinks', hlinks]
      exact h.connected
  | false =>
      have hmay := hsafe rfl
      obtain ⟨hlists', htrees', hlinks'⟩ :=
        receive_first_keeps (d := o) (s := o)
          (r := ⟨(o, (g.node o).logicalClock), maxHops, popAppId, false, []⟩) hlists htrees rfl
          (Or.inr rfl) ⟨hmay.1, fun u hu => hmay.2 u (by simpa [Grid.tick] using hu)⟩
          (Or.inl ⟨rfl, rfl⟩)
          (fun r' hend' _ hm => (htrees.copies o r' o hm hend').2.1 rfl)
          (by simp [Grid.tick])
      refine ⟨hlists', htrees'.onItsWay, ?_⟩
      rw [hlinks', hlinks]
      exact h.connected

lemma step (h : Connected g) {a : Action N} (hsafe : KeepsOverlay g a)
    (hstep : Discovery.step g a = some g') : Connected g' := by
  cases a with
  | launch o maxHops popAppId endingSignal =>
      obtain rfl := Option.some.inj hstep
      exact h.launch hsafe
  | deliver i => exact h.deliver hsafe hstep

end Connected

/-- An overlay that lists no neighbour twice and no node as its own neighbour. -/
def Overlay.Simple (ov : Overlay N) : Prop :=
  ∀ n, (ov.neighbors n).Nodup ∧ n ∉ ov.neighbors n

lemma Overlay.connected_grid {ov : Overlay N} (hsimple : ov.Simple)
    (hconn : ov.graph.Preconnected) (clock : N → ℕ) : Connected (ov.grid clock) := by
  have hnone : ∀ n id, ¬(ov.grid clock).Evaluated n id := by
    rintro n id ⟨c, hc, -⟩
    simp [Overlay.grid] at hc
  refine ⟨⟨fun n => (hsimple n).1, fun n => (hsimple n).2, fun u v hv hu => ?_, ?_⟩,
    ⟨?_, List.nodup_nil, ?_, ?_, ?_, fun id n hn => absurd hn (hnone n id), ?_⟩, ?_⟩
  · exact absurd (ov.symm u v hv) hu
  · exact fun u v hm => absurd hm List.not_mem_nil
  · exact fun d r s hm => absurd hm List.not_mem_nil
  · exact fun n id hid => absurd hid List.not_mem_nil
  · exact fun c hc => absurd hc List.not_mem_nil
  · rintro id - u v ⟨-, hc | hc⟩
    · exact absurd hc List.not_mem_nil
    · exact absurd hc List.not_mem_nil
  · exact fun c hc => absurd hc List.not_mem_nil
  · refine hconn.of_bridged fun u v hadj => ?_
    have hlink : (ov.grid clock).links.Adj u v := ⟨hadj.1, hadj.2, ov.symm u v hadj.2⟩
    exact hlink.reachable

/-- **Pruning.**  In every run whose steps meet the side condition the overlay stays
connected. -/
theorem links_preconnected [LinearOrder N] {ov : Overlay N} (hsimple : ov.Simple)
    (hconn : ov.graph.Preconnected) {clock : N → ℕ} {as : List (Action N)} {g : Grid N}
    (hrun : run step (ov.grid clock) as = some g)
    (hsafe : Along step KeepsOverlay (ov.grid clock) as) : g.links.Preconnected := by
  have hg : Connected g := run_invariant_along (I := Connected)
    (fun g a g' hg hsafe hstep => hg.step hsafe hstep)
    (ov.connected_grid hsimple hconn clock) hsafe hrun
  exact hg.connected

/-- Four nodes in a circle. -/
def square : Overlay (Fin 4) where
  neighbors := ![[1, 3], [0, 2], [1, 3], [2, 0]]
  symm := by decide

lemma square_simple : square.Simple := by
  intro n
  fin_cases n <;> decide

lemma square_preconnected : square.graph.Preconnected := by
  have hadj : ∀ u v : Fin 4, u ≠ v → v ∈ square.neighbors u → square.graph.Reachable u v :=
    fun u v hne hmem => SimpleGraph.Adj.reachable ⟨hne, hmem⟩
  have h0 : ∀ v, square.graph.Reachable 0 v := by
    intro v
    fin_cases v
    · exact SimpleGraph.Reachable.rfl
    · exact hadj 0 1 (by decide) (by decide)
    · exact (hadj 0 1 (by decide) (by decide)).trans (hadj 1 2 (by decide) (by decide))
    · exact hadj 0 3 (by decide) (by decide)
  exact fun u v => (h0 u).symm.trans (h0 v)

/-- One request after the other: the first one cuts the link between the nodes 2 and 3. -/
theorem links_preconnected_square :
    ∃ g, run step (square.grid fun _ => 0)
        [.launch 0 unlimitedHops "app" false, .deliver 0, .deliver 0, .deliver 0, .deliver 0,
          .deliver 0] = some g ∧
      (g.node 2).neighborsList = [1] ∧ g.links.Preconnected := by
  have hmap : (run step (square.grid fun _ => 0)
      [.launch 0 unlimitedHops "app" false, .deliver 0, .deliver 0, .deliver 0, .deliver 0,
        .deliver 0]).map (fun g => (g.node 2).neighborsList) = some [1] := by decide
  obtain ⟨g, hg, hlist⟩ := Option.map_eq_some_iff.mp hmap
  refine ⟨g, hg, hlist, links_preconnected square_simple square_preconnected hg ?_⟩
  decide

/-- Two requests at once: the node 0 and the node 3 launch one each, the first one cuts the link
between the nodes 2 and 3, the other one the link between the nodes 1 and 2, and the node 2 has
no link left on either side. -/
theorem links_disconnected_square :
    square.Simple ∧ square.graph.Preconnected ∧
    ∃ g, run step (square.grid fun _ => 0)
        [.launch 0 unlimitedHops "app" false, .launch 3 unlimitedHops "app" false, .deliver 0,
          .deliver 0, .deliver 0, .deliver 0, .deliver 0, .deliver 0, .deliver 1, .deliver 0,
          .deliver 0, .deliver 0] = some g ∧
      ¬g.anyLinks.Preconnected := by
  refine ⟨square_simple, square_preconnected, ?_⟩
  have hmap : (run step (square.grid fun _ => 0)
      [.launch 0 unlimitedHops "app" false, .launch 3 unlimitedHops "app" false, .deliver 0,
        .deliver 0, .deliver 0, .deliver 0, .deliver 0, .deliver 0, .deliver 1, .deliver 0,
        .deliver 0, .deliver 0]).map
      (fun g => ((g.node 0).neighborsList, (g.node 1).neighborsList, (g.node 2).neighborsList,
        (g.node 3).neighborsList)) = some ([1, 3], [0], [], [0]) := by decide
  obtain ⟨g, hg, heq⟩ := Option.map_eq_some_iff.mp hmap
  simp only [Prod.mk.injEq] at heq
  obtain ⟨h0, h1, h2, h3⟩ := heq
  refine ⟨g, hg, fun hconn => ?_⟩
  have hne : (2 : Fin 4) ≠ 0 := by decide
  obtain ⟨w, -, hw⟩ := (hconn 2 0).nonempty_neighborSet_left hne
  rw [h2] at hw
  fin_cases w
  · simp [h0] at hw
  · simp [h1] at hw
  · simp [h2] at hw
  · simp [h3] at hw

end Discovery
