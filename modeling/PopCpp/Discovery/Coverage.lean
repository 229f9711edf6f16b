/-
# What one flood reaches

Without a limit on the hops a flood over a connected overlay reaches every node, and every node
evaluates the request exactly once, whatever the order of the deliveries and although links
are cut on the way.

With a limit of `h` hops no node farther than `h` evaluates the request.  All the nodes within
`h` hops do when every node is first asked by a copy that came over a shortest way; a node
that is first asked by a copy with fewer hops left discards the better one that comes later.
-/
import PopCpp.Discovery.Flood
import PopCpp.Lib.Graph
import Mathlib.Data.Fin.VecNotation
import Mathlib.Tactic.FinCases

namespace Discovery

open Transition

variable {N : Type*} [LinearOrder N] {ov : Overlay N} {clock : N → ℕ} {o : N} {popAppId : String}

/-! ### The launch -/

/-- The grid on an overlay with the first copy of a request on its way to its own origin.  Its
delivery is the launch. -/
def Overlay.primed (ov : Overlay N) (clock : N → ℕ) (o : N) (maxHops : ℤ) (popAppId : String) :
    Grid N :=
  { ov.grid clock with
    node := Function.update (ov.grid clock).node o ⟨ov.neighbors o, [], clock o + 1⟩
    inFlight := [.ask o ⟨(o, clock o), maxHops, popAppId, false, []⟩ o] }

lemma step_launch_eq_deliver (maxHops : ℤ) :
    step (ov.grid clock) (.launch o maxHops popAppId false) =
      step (ov.primed clock o maxHops popAppId) (.deliver 0) := rfl

lemma not_evaluated_primed {maxHops : ℤ} {n : N} :
    ¬(ov.primed clock o maxHops popAppId).Evaluated n (o, clock o) := by
  rintro ⟨c, hc, -⟩
  simp [Overlay.primed, Overlay.grid] at hc

lemma mem_inFlight_primed {maxHops : ℤ} {m : Message N}
    (hm : m ∈ (ov.primed clock o maxHops popAppId).inFlight) :
    m = .ask o ⟨(o, clock o), maxHops, popAppId, false, []⟩ o := by
  simpa [Overlay.primed] using hm

lemma flood_primed (F : N → Prop) (maxHops : ℤ) :
    Flood ov (o, clock o) F (ov.primed clock o maxHops popAppId) := by
  have hnode : ∀ n, ((ov.primed clock o maxHops popAppId).node n).neighborsList =
      ov.neighbors n ∧ ((ov.primed clock o maxHops popAppId).node n).knownRequests = [] := by
    intro n
    by_cases hn : n = o
    · subst hn
      simp [Overlay.primed]
    · simp [Overlay.primed, Overlay.grid, hn]
  constructor
  · intro d r s hm
    cases mem_inFlight_primed hm
    exact ⟨rfl, rfl, Or.inr rfl⟩
  · intro d u hm
    cases mem_inFlight_primed hm
  · exact fun n => Or.inr ⟨not_evaluated_primed, (hnode n).2⟩
  · exact fun n _ => (hnode n).1
  · intro d r s hm n hn
    cases mem_inFlight_primed hm
    simp [ExplorationList.isIn] at hn
  · exact fun n hn => absurd hn not_evaluated_primed
  · exact fun n => (Flood.evaluations_eq_zero not_evaluated_primed).trans_le zero_le_one

/-! ### The deliveries -/

namespace Flood

variable {id : RequestId N} {F : N → Prop} {g g' : Grid N} {i : ℕ}

/-- A delivery keeps the invariant, if a node in `F` that is asked for the first time has hops
left. -/
lemma deliver (h : Flood ov id F g) (hstep : step g (.deliver i) = some g')
    (hF : ∀ dest req sender, g.inFlight[i]? = some (.ask dest req sender) →
      ¬g.Evaluated dest id → F dest → (req.passedOn dest (ov.neighbors dest)).MoreHops) :
    Flood ov id F g' := by
  obtain ⟨m, rest, hm, hperm, rfl⟩ := step_deliver hstep
  cases m with
  | unregisterNode dest url => exact h.receive_unregisterNode hperm
  | ask dest req sender =>
      by_cases hdest : g.Evaluated dest id
      · exact h.receive_again hperm hdest
      · exact h.receive_first hperm hdest (hF dest req sender hm hdest)

/-- Where the copies in flight come from: a new one is passed on by the node that has just been
asked for the first time. -/
lemma ask_mem_of_deliver (h : Flood ov id F g) (hstep : step g (.deliver i) = some g')
    {d s : N} {r : Request N} (hm : Message.ask d r s ∈ g'.inFlight) :
    Message.ask d r s ∈ g.inFlight ∨
      ∃ req sender, Message.ask s req sender ∈ g.inFlight ∧ d ∈ ov.neighbors s ∧
        r = req.passedOn s (ov.neighbors s) ∧ r.MoreHops := by
  obtain ⟨m, rest, -, hperm, rfl⟩ := step_deliver hstep
  have hrest : ∀ m' ∈ rest, m' ∈ g.inFlight :=
    fun m' hm' => hperm.mem_iff.mpr (List.mem_cons_of_mem _ hm')
  have hmem : m ∈ g.inFlight := hperm.mem_iff.mpr List.mem_cons_self
  cases m with
  | unregisterNode dest url => exact Or.inl (hrest _ hm)
  | ask dest req sender =>
      obtain ⟨hid, hend, -⟩ := h.ask dest req sender hmem
      by_cases hdest : g.Evaluated dest id
      · rw [receive_ask_known hend (hid ▸ h.mem_known_iff.mpr hdest)] at hm
        exact Or.inl (hrest _ (by simpa using hm))
      · have hnew : req.uniqueId ∉ (g.node dest).knownRequests := by
          rw [hid, h.mem_known_iff]
          exact hdest
        rw [receive_ask_new (g := { g with inFlight := rest }) hend hnew] at hm
        dsimp only at hm
        rw [h.untouched dest hdest] at hm
        rcases List.mem_append.mp hm with hm | hm
        · exact Or.inl (hrest _ hm)
        · obtain ⟨hmore, w, hw, -, heq⟩ := mem_forwards.mp hm
          cases heq
          exact Or.inr ⟨req, sender, hmem, hw, rfl, hmore⟩

/-- A node that evaluates the request has had a copy on its way to it. -/
lemma evaluated_of_deliver (h : Flood ov id F g) (hstep : step g (.deliver i) = some g') {n : N}
    (hn : g'.Evaluated n id) :
    g.Evaluated n id ∨ ∃ req sender, Message.ask n req sender ∈ g.inFlight := by
  obtain ⟨m, rest, -, hperm, rfl⟩ := step_deliver hstep
  have hmem : m ∈ g.inFlight := hperm.mem_iff.mpr List.mem_cons_self
  cases m with
  | unregisterNode dest url => exact Or.inl hn
  | ask dest req sender =>
      obtain ⟨hid, hend, -⟩ := h.ask dest req sender hmem
      by_cases hdest : g.Evaluated dest id
      · rw [receive_ask_known hend (hid ▸ h.mem_known_iff.mpr hdest)] at hn
        exact Or.inl hn
      · have hnew : req.uniqueId ∉ (g.node dest).knownRequests := by
          rw [hid, h.mem_known_iff]
          exact hdest
        rw [receive_ask_new (g := { g with inFlight := rest }) hend hnew,
          evaluated_concat (g := g)] at hn
        rcases hn with hn | ⟨rfl, -⟩
        · exact Or.inl hn
        · exact Or.inr ⟨req, sender, hmem⟩

omit [LinearOrder N] in
/-- When no copy is in flight, whoever has been asked has evaluated the request. -/
lemma evaluated_of_asked {n : N} (hquiet : g.Quiet) (hn : g.Asked n id) : g.Evaluated n id := by
  rcases hn with hn | ⟨req, sender, hm⟩
  · exact hn
  · exact absurd hm (hquiet n req sender)

end Flood

/-- Nothing but deliveries. -/
def IsDelivery (_ : Grid N) (a : Action N) : Prop := ∃ i, a = .deliver i

lemma along_isDelivery {g : Grid N} (ds : List ℕ) :
    Along step IsDelivery g (ds.map .deliver) := by
  refine along_of_forall fun g a ha => ?_
  obtain ⟨i, -, rfl⟩ := List.mem_map.mp ha
  exact ⟨i, rfl⟩

/-- After the launch its origin has evaluated the request, for good. -/
lemma evaluated_origin {maxHops : ℤ} {ds : List ℕ} {g : Grid N}
    (hrun : run step (ov.grid clock) (.launch o maxHops popAppId false :: ds.map .deliver) =
      some g) : g.Evaluated o (o, clock o) := by
  obtain ⟨g₁, hg₁, hrun⟩ := run_cons_eq_some.mp hrun
  refine run_invariant_along (I := fun g => g.Evaluated o (o, clock o)) ?_ ?_
    (along_isDelivery ds) hrun
  · rintro g _ g' hg ⟨i, rfl⟩ hstep
    obtain ⟨m, rest, -, -, rfl⟩ := step_deliver hstep
    exact Grid.Evaluated.receive (g := { g with inFlight := rest }) hg m
  · obtain rfl := Option.some.inj hg₁
    refine ⟨⟨o, (o, clock o), o⟩, ?_, rfl, rfl⟩
    simp [launchDiscovery, askResourcesDiscovery, Overlay.grid]

/-! ### Unlimited hops -/

/-- A flood in which every copy has unlimited hops. -/
structure UnlimitedFlood (ov : Overlay N) (id : RequestId N) (g : Grid N) : Prop where
  /-- The invariant of the flood; every node passes the request on. -/
  flood : Flood ov id (fun _ => True) g
  /-- No copy counts its hops. -/
  unlimited : ∀ d r s, Message.ask d r s ∈ g.inFlight → r.maxHops = unlimitedHops

lemma Request.maxHops_passedOn_unlimited {req : Request N} (h : req.maxHops = unlimitedHops)
    (n : N) (ns : List N) : (req.passedOn n ns).maxHops = unlimitedHops := by
  simp [Request.passedOn, Request.addNodeToExplorationList, h]

lemma UnlimitedFlood.deliver {id : RequestId N} {g g' : Grid N} {i : ℕ}
    (h : UnlimitedFlood ov id g) (hstep : step g (.deliver i) = some g') :
    UnlimitedFlood ov id g' := by
  constructor
  · refine h.flood.deliver hstep fun dest req sender hm _ _ => Or.inr ?_
    have hmem := List.mem_of_getElem? hm
    exact Request.maxHops_passedOn_unlimited (h.unlimited dest req sender hmem) _ _
  · intro d r s hm
    rcases h.flood.ask_mem_of_deliver hstep hm with hm | ⟨req, sender, hreq, -, rfl, -⟩
    · exact h.unlimited d r s hm
    · exact Request.maxHops_passedOn_unlimited (h.unlimited s req sender hreq) _ _

lemma unlimitedFlood_of_run {ds : List ℕ} {g : Grid N}
    (hrun : run step (ov.grid clock)
      (.launch o unlimitedHops popAppId false :: ds.map .deliver) = some g) :
    UnlimitedFlood ov (o, clock o) g := by
  obtain ⟨g₁, hg₁, hrun⟩ := run_cons_eq_some.mp hrun
  rw [step_launch_eq_deliver] at hg₁
  refine run_invariant_along (I := UnlimitedFlood ov (o, clock o)) ?_ ?_
    (along_isDelivery ds) hrun
  · rintro g _ g' hg ⟨i, rfl⟩ hstep
    exact hg.deliver hstep
  · refine UnlimitedFlood.deliver ⟨flood_primed _ _, fun d r s hm => ?_⟩ hg₁
    cases mem_inFlight_primed hm
    rfl

/-- **Coverage.**  Once no copy is in flight every node of a connected overlay has evaluated the
request exactly once. -/
theorem evaluations_eq_one (hconn : ov.graph.Preconnected) {ds : List ℕ} {g : Grid N}
    (hrun : run step (ov.grid clock)
      (.launch o unlimitedHops popAppId false :: ds.map .deliver) = some g)
    (hquiet : g.Quiet) (n : N) : g.evaluations n (o, clock o) = 1 := by
  have hflood := (unlimitedFlood_of_run hrun).flood
  have hn : g.Evaluated n (o, clock o) := by
    refine hconn.mem_of_closed (S := fun n => g.Evaluated n (o, clock o))
      (evaluated_origin hrun) (fun u v hu hadj => ?_) n
    exact Flood.evaluated_of_asked hquiet (hflood.passed u hu trivial v hadj.2)
  refine le_antisymm (hflood.once n) ?_
  obtain ⟨c, hc, rfl, hid⟩ := hn
  exact List.countP_pos_iff.mpr ⟨c, hc, by simp [hid]⟩

/-- Two ways from the node 0 to the node 4, one of them longer, and the node 5 behind them. -/
def detour : Overlay (Fin 6) where
  neighbors := ![[1, 2], [0, 3], [0, 4], [1, 4], [3, 2, 5], [4]]
  symm := by decide

lemma detour_adj {u v : Fin 6} (hne : u ≠ v) (hmem : v ∈ detour.neighbors u) :
    detour.graph.Adj u v := ⟨hne, hmem⟩

lemma detour_preconnected : detour.graph.Preconnected := by
  have h01 : detour.graph.Reachable 0 1 := (detour_adj (by decide) (by decide)).reachable
  have h02 : detour.graph.Reachable 0 2 := (detour_adj (by decide) (by decide)).reachable
  have h13 : detour.graph.Reachable 1 3 := (detour_adj (by decide) (by decide)).reachable
  have h24 : detour.graph.Reachable 2 4 := (detour_adj (by decide) (by decide)).reachable
  have h45 : detour.graph.Reachable 4 5 := (detour_adj (by decide) (by decide)).reachable
  have h0 : ∀ v, detour.graph.Reachable 0 v := by
    intro v
    fin_cases v
    · exact SimpleGraph.Reachable.rfl
    · exact h01
    · exact h02
    · exact h01.trans h13
    · exact h02.trans h24
    · exact (h02.trans h24).trans h45
  exact fun u v => (h0 u).symm.trans (h0 v)

/-- The grid that a list of deliveries leads to after a launch at the node 0 of the detour. -/
def detourRun (maxHops : ℤ) (ds : List ℕ) : Option (Grid (Fin 6)) :=
  run step (detour.grid fun _ => 0) (.launch 0 maxHops "app" false :: ds.map .deliver)

/-- First in, first out over the detour: all six nodes evaluate the request once, and two links
are cut on the way. -/
theorem evaluations_eq_one_detour :
    ∃ g, detourRun unlimitedHops [0, 0, 0, 0, 0, 0, 0, 0, 0] = some g ∧ g.inFlight = [] ∧
      ∀ n, g.evaluations n (0, 0) = 1 := by
  have hmap : (detourRun unlimitedHops [0, 0, 0, 0, 0, 0, 0, 0, 0]).map Grid.inFlight =
      some [] := by decide
  obtain ⟨g, hg, hempty⟩ := Option.map_eq_some_iff.mp hmap
  refine ⟨g, hg, hempty, evaluations_eq_one detour_preconnected hg fun d r s hm => ?_⟩
  simp [hempty] at hm

/-! ### A limited number of hops -/

/-- There is a way of at most `h` hops from `o` to the node. -/
def Overlay.Within (ov : Overlay N) (o : N) (h : ℕ) (n : N) : Prop :=
  ∃ p : ov.graph.Walk o n, p.length ≤ h

/-- A flood limited to `h` hops: a copy with `k` hops left has come over at most `h - k`. -/
structure HopFlood (ov : Overlay N) (o : N) (h : ℕ) (F : N → Prop) (id : RequestId N)
    (g : Grid N) : Prop where
  /-- The invariant of the flood. -/
  flood : Flood ov id F g
  /-- The hops of the copies. -/
  hops : ∀ d r s, Message.ask d r s ∈ g.inFlight →
    0 ≤ r.maxHops ∧ ∃ p : ov.graph.Walk o d, p.length + r.maxHops ≤ h
  /-- The hops of the nodes reached. -/
  within : ∀ n, g.Evaluated n id → ov.Within o h n

/-- The order of a delivery is right when a node that is asked for the first time is asked by a
copy that has come over a shortest way. -/
def InHopOrder (ov : Overlay N) (o : N) (h : ℕ) (g : Grid N) (a : Action N) : Prop :=
  ∀ i dest req sender, a = .deliver i → g.inFlight[i]? = some (.ask dest req sender) →
    req.uniqueId ∉ (g.node dest).knownRequests → h - (ov.graph.dist o dest : ℤ) ≤ req.maxHops

namespace HopFlood

variable {h : ℕ} {F : N → Prop} {id : RequestId N} {g g' : Grid N} {i : ℕ}

omit [LinearOrder N] in
lemma ne_unlimitedHops {k : ℤ} (hk : 0 ≤ k) : k ≠ unlimitedHops := by
  simp only [unlimitedHops]
  omega

lemma maxHops_passedOn {req : Request N} (hk : 0 ≤ req.maxHops) (n : N) (ns : List N) :
    (req.passedOn n ns).maxHops = req.maxHops - 1 := by
  simp [Request.passedOn, Request.addNodeToExplorationList, ne_unlimitedHops hk]

lemma deliver (hg : HopFlood ov o h F id g) (hstep : step g (.deliver i) = some g')
    (hF : ∀ dest req sender, g.inFlight[i]? = some (.ask dest req sender) →
      ¬g.Evaluated dest id → F dest → 1 ≤ req.maxHops) : HopFlood ov o h F id g' := by
  constructor
  · refine hg.flood.deliver hstep fun dest req sender hm hdest hFd => Or.inl ?_
    obtain ⟨hk, -⟩ := hg.hops dest req sender (List.mem_of_getElem? hm)
    have hle := hF dest req sender hm hdest hFd
    rw [maxHops_passedOn hk]
    omega
  · intro d r s hm
    rcases hg.flood.ask_mem_of_deliver hstep hm with hm | ⟨req, sender, hreq, hd, rfl, hmore⟩
    · exact hg.hops d r s hm
    · obtain ⟨hk, p, hp⟩ := hg.hops s req sender hreq
      rw [Request.MoreHops, maxHops_passedOn hk] at hmore
      rw [maxHops_passedOn hk]
      have hk' : 0 ≤ req.maxHops - 1 := by
        rcases hmore with hmore | hmore
        · exact hmore
        · simp only [unlimitedHops] at hmore
          omega
      refine ⟨hk', ?_⟩
      by_cases hds : s = d
      · subst hds
        exact ⟨p, by omega⟩
      · have hadj : ov.graph.Adj s d := ⟨hds, hd⟩
        refine ⟨p.concat hadj, ?_⟩
        rw [SimpleGraph.Walk.length_concat]
        push_cast
        omega
  · intro n hn
    rcases hg.flood.evaluated_of_deliver hstep hn with hn | ⟨req, sender, hm⟩
    · exact hg.within n hn
    · obtain ⟨hk, p, hp⟩ := hg.hops n req sender hm
      exact ⟨p, by omega⟩

lemma primed (F : N → Prop) :
    HopFlood ov o h F (o, clock o) (ov.primed clock o h popAppId) := by
  constructor
  · exact flood_primed F h
  · intro d r s hm
    cases mem_inFlight_primed hm
    refine ⟨Int.natCast_nonneg h, SimpleGraph.Walk.nil, ?_⟩
    simp
  · exact fun n hn => absurd hn not_evaluated_primed

/-- In hop order a node nearer than `h` has hops left when it is asked for the first time. -/
lemma deliver_of_inHopOrder
    (hg : HopFlood ov o h (fun n => ov.graph.dist o n < h) id g)
    (horder : InHopOrder ov o h g (.deliver i)) (hstep : step g (.deliver i) = some g') :
    HopFlood ov o h (fun n => ov.graph.dist o n < h) id g' := by
  refine hg.deliver hstep fun dest req sender hm hdest hnear => ?_
  obtain ⟨hid, -, -⟩ := hg.flood.ask dest req sender (List.mem_of_getElem? hm)
  have hnew : req.uniqueId ∉ (g.node dest).knownRequests := by
    rw [hid, hg.flood.mem_known_iff]
    exact hdest
  have hle := horder i dest req sender rfl hm hnew
  omega

end HopFlood

section limited

variable {h : ℕ} {ds : List ℕ} {g : Grid N}

lemma hopFlood_of_run
    (hrun : run step (ov.grid clock) (.launch o h popAppId false :: ds.map .deliver) = some g) :
    HopFlood ov o h (fun _ => False) (o, clock o) g := by
  obtain ⟨g₁, hg₁, hrun⟩ := run_cons_eq_some.mp hrun
  rw [step_launch_eq_deliver] at hg₁
  refine run_invariant_along (I := HopFlood ov o h (fun _ => False) (o, clock o)) ?_ ?_
    (along_isDelivery ds) hrun
  · rintro g _ g' hg ⟨i, rfl⟩ hstep
    exact hg.deliver hstep fun _ _ _ _ _ hF => hF.elim
  · exact (HopFlood.primed _).deliver hg₁ fun _ _ _ _ _ hF => hF.elim

lemma hopFlood_of_run_inHopOrder
    (hrun : run step (ov.grid clock) (.launch o h popAppId false :: ds.map .deliver) = some g)
    (horder : Along step (InHopOrder ov o h) (ov.grid clock)
      (.launch o h popAppId false :: ds.map .deliver)) :
    HopFlood ov o h (fun n => ov.graph.dist o n < h) (o, clock o) g := by
  obtain ⟨g₁, hg₁, hrun⟩ := run_cons_eq_some.mp hrun
  have horder₁ := horder.2 g₁ hg₁
  rw [step_launch_eq_deliver] at hg₁
  refine run_invariant_along
    (I := HopFlood ov o h (fun n => ov.graph.dist o n < h) (o, clock o)) ?_ ?_
    ((along_isDelivery ds).and horder₁) hrun
  · rintro g _ g' hg ⟨⟨i, rfl⟩, horder⟩ hstep
    exact hg.deliver_of_inHopOrder horder hstep
  · refine (HopFlood.primed _).deliver_of_inHopOrder ?_ hg₁
    intro i dest req sender hi hm _
    obtain rfl := Action.deliver.inj hi
    cases mem_inFlight_primed (List.mem_of_getElem? hm)
    simp

/-- **Hop limit.**  In every order of the deliveries a node evaluates the request at most once,
and only within `h` hops of the origin; in hop order, once no copy is in flight, exactly the
nodes within `h` hops have evaluated it. -/
theorem evaluated_within_hops
    (hrun : run step (ov.grid clock) (.launch o h popAppId false :: ds.map .deliver) = some g) :
    (∀ n, g.evaluations n (o, clock o) ≤ 1 ∧ (g.Evaluated n (o, clock o) → ov.Within o h n)) ∧
    (Along step (InHopOrder ov o h) (ov.grid clock)
      (.launch o h popAppId false :: ds.map .deliver) → g.Quiet →
      ∀ n, g.Evaluated n (o, clock o) ↔ ov.Within o h n) := by
  have hhop := hopFlood_of_run hrun
  refine ⟨fun n => ⟨hhop.flood.once n, hhop.within n⟩, fun horder hquiet n => ?_⟩
  refine ⟨hhop.within n, fun hn => ?_⟩
  have hall := hopFlood_of_run_inHopOrder hrun horder
  refine SimpleGraph.mem_of_closed_within (S := fun n => g.Evaluated n (o, clock o))
    (evaluated_origin hrun) (fun u v hu _ hnear hadj => ?_) hn
  exact Flood.evaluated_of_asked hquiet (hall.flood.passed u hu hnear v hadj.2)

end limited

/-- How far the nodes of the detour are from the node 0. -/
def detourLevel : Fin 6 → ℕ := ![0, 1, 1, 2, 2, 3]

lemma detourLevel_le_dist (n : Fin 6) : detourLevel n ≤ detour.graph.dist 0 n := by
  have hedge : ∀ u v, v ∈ detour.neighbors u → detourLevel v ≤ detourLevel u + 1 := by decide
  have hzero : detourLevel 0 = 0 := rfl
  exact SimpleGraph.level_le_dist (G := detour.graph) hzero (fun u v hadj => hedge u v hadj.2)
    (detour_preconnected 0 n)

/-- The order is right by the levels. -/
def InLevelOrder (h : ℕ) (g : Grid (Fin 6)) : Action (Fin 6) → Bool
  | .deliver i =>
      match g.inFlight[i]? with
      | some (.ask dest req _) =>
          req.uniqueId ∈ (g.node dest).knownRequests ∨ h - (detourLevel dest : ℤ) ≤ req.maxHops
      | _ => true
  | _ => true

lemma InLevelOrder.inHopOrder {h : ℕ} {g : Grid (Fin 6)} {a : Action (Fin 6)}
    (ha : InLevelOrder h g a) : InHopOrder detour 0 h g a := by
  rintro i dest req sender rfl hm hnew
  have hlevel := detourLevel_le_dist dest
  simp only [InLevelOrder, hm, decide_eq_true_eq] at ha
  have hle := ha.resolve_left hnew
  omega

/-- First in, first out over the detour, with three hops: all six nodes are within them. -/
theorem evaluated_within_hops_detour :
    ∃ g, detourRun 3 [0, 0, 0, 0, 0, 0, 0, 0, 0] = some g ∧ g.Quiet ∧
      ∀ n, g.Evaluated n (0, 0) ↔ detour.Within 0 3 n := by
  have hmap : (detourRun 3 [0, 0, 0, 0, 0, 0, 0, 0, 0]).map Grid.inFlight = some [] := by decide
  obtain ⟨g, hg, hempty⟩ := Option.map_eq_some_iff.mp hmap
  have hquiet : g.Quiet := by
    intro d r s hm
    simp [hempty] at hm
  have horder : Along step (fun g a => InLevelOrder 3 g a) (detour.grid fun _ => 0)
      (.launch 0 (3 : ℕ) "app" false ::
        [0, 0, 0, 0, 0, 0, 0, 0, 0].map .deliver) := by
    decide
  exact ⟨g, hg, hquiet, (evaluated_within_hops (h := 3) hg).2
    (horder.mono fun _ _ ha => InLevelOrder.inHopOrder ha) hquiet⟩

/-- The set of nodes reached within three hops depends on the order: when the copy over the
longer way reaches the node 4 first, the node 5 is never asked. -/
theorem evaluated_depends_on_order :
    detour.graph.Preconnected ∧ ∃ ds ds' : List ℕ, ∃ g g',
      detourRun 3 ds = some g ∧ detourRun 3 ds' = some g' ∧ g.inFlight = [] ∧ g'.inFlight = [] ∧
      g.Evaluated 5 (0, 0) ∧ ¬g'.Evaluated 5 (0, 0) := by
  have hmap : (detourRun 3 [0, 0, 0, 0, 0, 0, 0, 0, 0]).map
      (fun g => (g.inFlight, g.checks.map fun c => (c.node, c.id))) =
      some ([], [(0, 0, 0), (1, 0, 0), (2, 0, 0), (3, 0, 0), (4, 0, 0), (5, 0, 0)]) := by
    decide
  have hmap' : (detourRun 3 [0, 1, 1, 0, 0, 0]).map
      (fun g => (g.inFlight, g.checks.map fun c => (c.node, c.id))) =
      some ([], [(0, 0, 0), (1, 0, 0), (3, 0, 0), (4, 0, 0), (2, 0, 0)]) := by
    decide
  obtain ⟨g, hg, heq⟩ := Option.map_eq_some_iff.mp hmap
  obtain ⟨g', hg', heq'⟩ := Option.map_eq_some_iff.mp hmap'
  obtain ⟨hempty, hchecks⟩ := Prod.mk.inj heq
  obtain ⟨hempty', hchecks'⟩ := Prod.mk.inj heq'
  refine ⟨detour_preconnected, _, _, g, g', hg, hg', hempty, hempty', ?_, ?_⟩
  · have hmem : (5, 0, 0) ∈ g.checks.map fun c => (c.node, c.id) := by
      rw [hchecks]
      decide
    obtain ⟨c, hc, hcn⟩ := List.mem_map.mp hmem
    obtain ⟨hn, hid⟩ := Prod.mk.inj hcn
    exact ⟨c, hc, hn, hid⟩
  · rintro ⟨c, hc, hn, hid⟩
    have hmem : (c.node, c.id) ∈ g'.checks.map fun c => (c.node, c.id) :=
      List.mem_map.mpr ⟨c, hc, rfl⟩
    rw [hchecks', hn, hid] at hmem
    revert hmem
    decide

end Discovery
