/-
# Floods come to an end

However many requests are on their way, of whatever kind and with whatever limit of hops, and
however their messages overtake each other: on finitely many nodes the deliveries are paid for
by the launches.  No neighbour relation has to be symmetric for it, a node may be its own
neighbour, and a node may have forgotten the request by the time it is asked again.  A copy
names the nodes it has come through as the keys of its exploration list, and no key is ever
lost; so a chain of forwards gets shorter with every node that it visits.

For a single discovery request on an overlay the bound is what one would expect: no link is
used more than once in each direction, and each use is answered by one `UnregisterNode` at most.
-/
import PopCpp.Discovery.EndFlood
import PopCpp.Lib.Progress
import Mathlib.Algebra.BigOperators.Ring.Finset

namespace Discovery

open Transition

variable {N : Type*} [LinearOrder N]

/-- A launch. -/
def Action.isLaunch : Action N → Bool
  | .launch _ _ _ _ => true
  | .deliver _ => false

/-- The delivery of a message. -/
def Action.isDeliver : Action N → Bool
  | .launch _ _ _ _ => false
  | .deliver _ => true

/-! ### Any number of requests -/

/-- How many messages a chain of forwards can lead to when `r` is left of it and no node has
more than `d` neighbours. -/
def chainLoad (d : ℕ) : ℕ → ℕ
  | 0 => 2
  | r + 1 => 2 + d * chainLoad d r

lemma two_le_chainLoad (d r : ℕ) : 2 ≤ chainLoad d r := by
  cases r with
  | zero => exact le_rfl
  | succ r => exact Nat.le_add_right 2 _

lemma chainLoad_mono (d : ℕ) : Monotone (chainLoad d) := by
  refine monotone_nat_of_le_succ fun r => ?_
  induction r with
  | zero => exact two_le_chainLoad d 1
  | succ r ih => exact Nat.add_le_add_left (Nat.mul_le_mul_left d ih) 2

section load

variable [Fintype N]

/-- How long a chain of forwards from this copy can be: two for each node that it has not come
through, since a node may pass a copy on to itself, and one if it is there again. -/
def Message.reach : Message N → ℕ
  | .ask dest req _ =>
      2 * (Fintype.card N - req.explorationList.visited.card) +
        if dest ∈ req.explorationList.visited then 1 else 0
  | .unregisterNode _ _ => 0

/-- The messages that a message can still lead to, itself included. -/
def Message.load (d : ℕ) : Message N → ℕ
  | .ask dest req sender => chainLoad d (Message.reach (.ask dest req sender))
  | .unregisterNode _ _ => 1

/-- The messages that the messages in flight can still lead to. -/
def Grid.load (d : ℕ) (g : Grid N) : ℕ := (g.inFlight.map (Message.load d)).sum

/-- The messages that a launch can lead to. -/
def launchLoad (N : Type*) [Fintype N] (d : ℕ) : ℕ := chainLoad d (2 * Fintype.card N)

/-- A copy that is passed on has less before it. -/
lemma reach_passedOn_lt {w : N} {req : Request N} (dest sender : N) (neighbors : List N)
    (hnot : req.explorationList.unpack.isIn w = false) :
    Message.reach (.ask w (req.passedOn dest neighbors) dest) <
      Message.reach (.ask dest req sender) := by
  have hw : w ∉ req.explorationList.visited := by
    intro hmem
    rw [← ExplorationList.visited_unpack] at hmem
    simp [ExplorationList.isIn_of_mem_visited hmem] at hnot
  have hcard := Finset.card_le_univ (insert w req.explorationList.visited)
  rw [Finset.card_insert_of_notMem hw] at hcard
  simp only [Message.reach, Request.visited_passedOn]
  by_cases hdest : dest ∈ req.explorationList.visited
  · -- the node has been met before, and the next one has not
    rw [Finset.insert_eq_of_mem hdest, if_neg hw, if_pos hdest]
    omega
  · have hcard' := Finset.card_le_univ (insert dest req.explorationList.visited)
    rw [Finset.card_insert_of_notMem hdest] at hcard' ⊢
    rw [if_neg hdest]
    split_ifs <;> omega

omit [Fintype N] in
lemma length_forwards_le (dest : N) (neighbors : List N) (oldEL : ExplorationList N)
    (req : Request N) : (forwards dest neighbors oldEL req).length ≤ neighbors.length := by
  unfold forwards
  split_ifs
  · simpa using List.length_filter_le _ _
  · simp

/-- The copies that a node passes on, together, have less before them than the one it got. -/
lemma load_forwards_lt {d : ℕ} {neighbors : List N} (hd : neighbors.length ≤ d)
    (dest sender : N) (req : Request N) :
    ((forwards dest neighbors req.explorationList.unpack (req.passedOn dest neighbors)).map
      (Message.load d)).sum < Message.load d (.ask dest req sender) := by
  rcases hreach : Message.reach (.ask dest req sender) with _ | r
  · -- nothing can be passed on
    have hnil : forwards dest neighbors req.explorationList.unpack
        (req.passedOn dest neighbors) = [] := by
      refine List.eq_nil_iff_forall_not_mem.mpr fun m hm => ?_
      obtain ⟨-, w, -, hnot, rfl⟩ := mem_forwards.mp hm
      have hlt := reach_passedOn_lt dest sender neighbors hnot
      omega
    rw [hnil, Message.load, hreach]
    exact Nat.zero_lt_two
  · have hload : ∀ x ∈ (forwards dest neighbors req.explorationList.unpack
        (req.passedOn dest neighbors)).map (Message.load d), x ≤ chainLoad d r := by
      intro x hx
      obtain ⟨m, hm, rfl⟩ := List.mem_map.mp hx
      obtain ⟨-, w, -, hnot, rfl⟩ := mem_forwards.mp hm
      have hlt := reach_passedOn_lt dest sender neighbors hnot
      exact chainLoad_mono d (by omega)
    have hlength := (length_forwards_le dest neighbors req.explorationList.unpack
      (req.passedOn dest neighbors)).trans hd
    rw [Message.load, hreach]
    calc _ ≤ _ * chainLoad d r := by simpa using List.sum_le_card_nsmul _ _ hload
      _ ≤ d * chainLoad d r := Nat.mul_le_mul_right _ hlength
      _ < 2 + d * chainLoad d r := Nat.lt_add_of_pos_left Nat.zero_lt_two

/-- No node has more than `d` neighbours. -/
def Grid.Degree (d : ℕ) (g : Grid N) : Prop := ∀ n, (g.node n).neighborsList.length ≤ d

/-- The delivery of a message lowers the load by at least one. -/
lemma load_receive {d : ℕ} {g : Grid N} (hd : g.Degree d) (m : Message N) :
    1 + (receive g m).load d ≤ g.load d + m.load d := by
  cases m with
  | unregisterNode dest url => exact (Nat.add_comm _ _).le
  | ask dest req sender =>
      have hforwards := load_forwards_lt (hd dest) dest sender req
      have happend : ∀ ms, ((g.inFlight ++ ms).map (Message.load d)).sum =
          g.load d + (ms.map (Message.load d)).sum := fun ms => by
        rw [List.map_append, List.sum_append, Grid.load]
      by_cases hend : req.endingSignal = true
      · rw [receive_ask_end hend, Grid.load, happend]
        omega
      · rw [Bool.not_eq_true] at hend
        by_cases hknown : req.uniqueId ∈ (g.node dest).knownRequests
        · have hone : ([Message.unregisterNode sender dest].map (Message.load d)).sum = 1 := rfl
          have htwo := two_le_chainLoad d (Message.reach (.ask dest req sender))
          rw [receive_ask_known hend hknown, Grid.load, happend, hone, Message.load]
          omega
        · rw [receive_ask_new hend hknown, Grid.load, happend]
          omega

omit [Fintype N] in
/-- Neighbour lists do not get longer. -/
lemma length_neighborsList_receive_le (g : Grid N) (m : Message N) (n : N) :
    ((receive g m).node n).neighborsList.length ≤ (g.node n).neighborsList.length := by
  have hcut : ∀ e u : N,
      (Function.update g.node e ((g.node e).removeNeighbor u) n).neighborsList.length ≤
        (g.node n).neighborsList.length := by
    intro e u
    by_cases hn : n = e
    · subst hn
      simpa [SearchNode.removeNeighbor] using List.length_erase_le
    · simp [hn]
  cases m with
  | unregisterNode dest url => exact hcut dest url
  | ask dest req sender =>
      simp only [receive, askResourcesDiscovery]
      split_ifs with hend hknown
      · exact le_rfl
      · exact hcut dest sender
      · by_cases hn : n = dest
        · subst hn
          simp [SearchNode.saveRequest]
        · simp [hn]

omit [Fintype N] in
lemma Grid.Degree.receive {d : ℕ} {g : Grid N} (hd : g.Degree d) (m : Message N) :
    (receive g m).Degree d :=
  fun n => (length_neighborsList_receive_le g m n).trans (hd n)

omit [Fintype N] in
lemma Grid.Degree.tick {d : ℕ} {g : Grid N} (hd : g.Degree d) (o : N) : (g.tick o).Degree d := by
  intro n
  by_cases hn : n = o
  · subst hn
    simpa [Grid.tick] using hd n
  · simpa [Grid.tick, hn] using hd n

/-- A launch pays for the messages that it leads to. -/
lemma load_step {d : ℕ} {g g' : Grid N} {a : Action N} (hd : g.Degree d)
    (hstep : step g a = some g') :
    g'.Degree d ∧ (if a.isDeliver then 1 else 0) + g'.load d ≤
      g.load d + if a.isLaunch then launchLoad N d else 0 := by
  cases a with
  | deliver i =>
      obtain ⟨m, rest, -, hperm, rfl⟩ := step_deliver hstep
      have hrest : Grid.Degree d { g with inFlight := rest } := hd
      have hload := load_receive hrest m
      have hsum : g.load d = m.load d + (rest.map (Message.load d)).sum := by
        rw [Grid.load, (hperm.map _).sum_eq, List.map_cons, List.sum_cons]
      have hrestLoad : Grid.load d { g with inFlight := rest } =
        (rest.map (Message.load d)).sum := rfl
      refine ⟨hrest.receive m, ?_⟩
      show 1 + _ ≤ _ + 0
      omega
  | launch origin maxHops popAppId endingSignal =>
      obtain rfl := Option.some.inj hstep
      rw [launchDiscovery_eq_receive]
      refine ⟨(hd.tick origin).receive _, ?_⟩
      have hload := load_receive (hd.tick origin) (.ask origin
        ⟨(origin, (g.node origin).logicalClock), maxHops, popAppId, endingSignal, []⟩ origin)
      have hlaunch : Message.load d (.ask origin
          ⟨(origin, (g.node origin).logicalClock), maxHops, popAppId, endingSignal, []⟩ origin) =
          launchLoad N d := by
        simp [Message.load, Message.reach, launchLoad, ExplorationList.visited]
      have htick : (g.tick origin).load d = g.load d := rfl
      show 0 + _ ≤ _ + launchLoad N d
      omega

omit [LinearOrder N] [Fintype N] in
lemma exists_map_deliver {as : List (Action N)} (h : ∀ a ∈ as, a.isDeliver = true) :
    ∃ ds : List ℕ, as = ds.map .deliver := by
  induction as with
  | nil => exact ⟨[], rfl⟩
  | cons a as ih =>
      obtain ⟨ds, rfl⟩ := ih fun b hb => h b (List.mem_cons_of_mem _ hb)
      have ha := h a List.mem_cons_self
      cases a with
      | launch origin maxHops popAppId endingSignal => exact absurd ha (by simp [Action.isDeliver])
      | deliver i => exact ⟨i :: ds, rfl⟩

/-- The deliveries of a run are paid for. -/
lemma deliveries_le {d : ℕ} {g₀ g : Grid N} (hd : g₀.Degree d) {as : List (Action N)}
    (hrun : run step g₀ as = some g) :
    as.countP Action.isDeliver + g.load d ≤
      g₀.load d + launchLoad N d * as.countP Action.isLaunch := by
  have hpaid := run_sum_cost_add_le (P := fun _ _ => True) (I := Grid.Degree d)
    (f := Grid.load d) (fun a => if a.isDeliver then 1 else 0)
    (fun a => if a.isLaunch then launchLoad N d else 0)
    (fun g a g' hg _ hstep => load_step hg hstep) hd (along_of_forall fun _ _ _ => trivial) hrun
  rwa [sum_map_ite_eq_countP, sum_map_ite_eq_countP, Nat.one_mul] at hpaid

lemma degree_of_run {d : ℕ} {g₀ g : Grid N} (hd : g₀.Degree d) {as : List (Action N)}
    (hrun : run step g₀ as = some g) : g.Degree d :=
  run_invariant_along (P := fun _ _ => True) (I := Grid.Degree d)
    (fun _ _ _ hg _ hstep => (load_step hg hstep).1) hd (along_of_forall fun _ _ _ => trivial) hrun

/-- From every state the messages in flight can be delivered until none is left. -/
lemma exists_deliveries {d : ℕ} {g : Grid N} (hd : g.Degree d) :
    ∃ (ds : List ℕ) (u : Grid N), run step g (ds.map .deliver) = some u ∧ u.inFlight = [] := by
  have hdecrease : ∀ (g : Grid N) (a : Action N) (g' : Grid N), g.Degree d →
      a.isDeliver = true → step g a = some g' → g'.Degree d ∧ g'.load d < g.load d := by
    intro g a g' hg ha hstep
    obtain ⟨hg', hload⟩ := load_step hg hstep
    have hlaunch : a.isLaunch = false := by
      cases a with
      | launch origin maxHops popAppId endingSignal => exact absurd ha (by simp [Action.isDeliver])
      | deliver i => rfl
    rw [ha, hlaunch] at hload
    simp only [if_true, Bool.false_eq_true, if_false] at hload
    exact ⟨hg', by omega⟩
  obtain ⟨as, u, has, hrun, hend⟩ := exists_run_stuck hdecrease hd
  obtain ⟨ds, rfl⟩ := exists_map_deliver has
  refine ⟨ds, u, hrun, ?_⟩
  have hnone := hend (.deliver 0) rfl
  cases hflight : u.inFlight with
  | nil => rfl
  | cons m rest => simp [step, hflight] at hnone

/-- **All floods come to an end.**  From every state of finitely many nodes, none of which has
more than `d` neighbours, and for every run of launches and deliveries: from where the run ends,
the messages can be delivered until none is in flight; and all deliveries, those of the run and
these, are no more than the messages that were in flight and the launches pay for. -/
theorem floods_end (d : ℕ) (g₀ g : Grid N) (hd : g₀.Degree d) (as : List (Action N))
    (hrun : run step g₀ as = some g) :
    ∃ (ds : List ℕ) (u : Grid N), run step g (ds.map .deliver) = some u ∧ u.inFlight = [] ∧
      as.countP Action.isDeliver + ds.length ≤
        g₀.load d + launchLoad N d * as.countP Action.isLaunch := by
  obtain ⟨ds, u, hds, hempty⟩ := exists_deliveries (degree_of_run hd hrun)
  refine ⟨ds, u, hds, hempty, ?_⟩
  have hall := deliveries_le hd (run_append_eq_some.mpr ⟨g, hrun, hds⟩)
  have hdeliver : (ds.map (Action.deliver (N := N))).countP Action.isDeliver = ds.length := by
    simp [List.countP_map, Function.comp_def, Action.isDeliver]
  have hlaunch : (ds.map (Action.deliver (N := N))).countP Action.isLaunch = 0 := by
    simp [List.countP_map, Function.comp_def, Action.isLaunch]
  rw [List.countP_append, List.countP_append, hdeliver, hlaunch, Nat.add_zero] at hall
  omega

end load

/-- A discovery request and an end request at once, on the overlay with a detour. -/
theorem floods_end_detour :
    ∃ g, run step (detour.grid fun _ => 0)
        [.launch 0 3 "app" false, .launch 5 unlimitedHops "app" true, .deliver 1, .deliver 0] =
          some g ∧
      ∃ (ds : List ℕ) (u : Grid (Fin 6)), run step g (ds.map .deliver) = some u ∧
        u.inFlight = [] := by
  obtain ⟨g, hrun⟩ : ∃ g, run step (detour.grid fun _ => 0)
      [.launch 0 3 "app" false, .launch 5 unlimitedHops "app" true, .deliver 1, .deliver 0] =
        some g := ⟨_, rfl⟩
  have hdegree : (detour.grid fun _ => 0).Degree 3 := by
    intro n
    fin_cases n <;> decide
  obtain ⟨ds, u, hds, hempty, -⟩ := floods_end 3 _ g hdegree _ hrun
  exact ⟨g, hrun, ds, u, hds, hempty⟩

/-! ### One discovery request -/

section single

variable [Fintype N] {ov : Overlay N} {id : RequestId N} {g g' : Grid N} {i : ℕ}

/-- What a message of a flood can cause in answer, itself included. -/
def Message.answered : Message N → ℕ
  | .ask _ _ _ => 2
  | .unregisterNode _ _ => 1

/-- The uses of its links by a node that is still to be asked, and the answers to them. -/
def Overlay.links (ov : Overlay N) (g : Grid N) (id : RequestId N) (n : N) : ℕ :=
  if g.evaluations n id = 0 then 2 * (ov.neighbors n).length else 0

/-- The messages of the flood of a request that are still to come. -/
def Overlay.toCome (ov : Overlay N) (id : RequestId N) (g : Grid N) : ℕ :=
  ∑ n, ov.links g id n + (g.inFlight.map Message.answered).sum

lemma sum_links_of_checks (h : g'.checks = g.checks) :
    ∑ n, ov.links g' id n = ∑ n, ov.links g id n := by
  refine Finset.sum_congr rfl fun n _ => ?_
  have heval : g'.evaluations n id = g.evaluations n id := by
    rw [Grid.evaluations, Grid.evaluations, h]
  rw [Overlay.links, Overlay.links, heval]

omit [Fintype N] in
lemma sum_answered_forwards_le (dest : N) (neighbors : List N)
    (oldEL : ExplorationList N) (req : Request N) :
    ((forwards dest neighbors oldEL req).map Message.answered).sum ≤ 2 * neighbors.length := by
  have htwo : ∀ x ∈ (forwards dest neighbors oldEL req).map Message.answered, x ≤ 2 := by
    intro x hx
    obtain ⟨m, hm, rfl⟩ := List.mem_map.mp hx
    obtain ⟨-, w, -, -, rfl⟩ := mem_forwards.mp hm
    exact le_rfl
  have hlength := length_forwards_le dest neighbors oldEL req
  calc _ ≤ (forwards dest neighbors oldEL req).length * 2 := by
          simpa using List.sum_le_card_nsmul _ _ htwo
    _ ≤ 2 * neighbors.length := by omega

/-- The node that is asked for the first time has used its links up. -/
lemma sum_links_first (ov : Overlay N) (g g' : Grid N) {dest : N}
    (hdest : g.evaluations dest id = 0)
    (heval : ∀ n, g'.evaluations n id = g.evaluations n id + if dest = n then 1 else 0) :
    ∑ n, ov.links g' id n + 2 * (ov.neighbors dest).length = ∑ n, ov.links g id n := by
  have hrest : ∑ n ∈ Finset.univ.erase dest, ov.links g' id n =
      ∑ n ∈ Finset.univ.erase dest, ov.links g id n := by
    refine Finset.sum_congr rfl fun n hn => ?_
    have hne : dest ≠ n := (Finset.ne_of_mem_erase hn).symm
    simp only [Overlay.links, heval, if_neg hne, Nat.add_zero]
  rw [← Finset.add_sum_erase _ (ov.links g' id) (Finset.mem_univ dest), hrest,
    ← Finset.add_sum_erase _ (ov.links g id) (Finset.mem_univ dest)]
  simp only [Overlay.links, heval, hdest, if_true, Nat.zero_add, Nat.one_ne_zero, if_false]
  omega

omit [LinearOrder N] [Fintype N] in
lemma sum_answered_of_perm {m : Message N} {rest : List (Message N)}
    (hperm : g.inFlight.Perm (m :: rest)) :
    (g.inFlight.map Message.answered).sum = m.answered + (rest.map Message.answered).sum := by
  rw [(hperm.map _).sum_eq, List.map_cons, List.sum_cons]

/-- A node that is asked for the first time takes two from the messages that are still to
come. -/
lemma Flood.toCome_first (h : Flood ov id (fun _ => False) g) {dest sender : N} {req : Request N}
    {rest : List (Message N)} (hperm : g.inFlight.Perm (.ask dest req sender :: rest))
    (hdest : ¬g.Evaluated dest id) :
    2 + ov.toCome id (receive { g with inFlight := rest } (.ask dest req sender)) ≤
      ov.toCome id g := by
  obtain ⟨hid, hend, -⟩ := h.ask dest req sender (hperm.mem_iff.mpr List.mem_cons_self)
  have hflight := sum_answered_of_perm hperm
  have htwo : (Message.ask dest req sender).answered = 2 := rfl
  have hnew : req.uniqueId ∉ (g.node dest).knownRequests := by
    rw [hid, h.mem_known_iff]
    exact hdest
  have hforwards := sum_answered_forwards_le dest (ov.neighbors dest)
    req.explorationList.unpack (req.passedOn dest (ov.neighbors dest))
  rw [receive_ask_new (g := { g with inFlight := rest }) hend hnew]
  dsimp only
  rw [h.untouched dest hdest, hid]
  have hlinks := sum_links_first ov g
    ⟨Function.update g.node dest ((g.node dest).saveRequest id),
      rest ++ forwards dest (ov.neighbors dest) req.explorationList.unpack
        (req.passedOn dest (ov.neighbors dest)),
      g.checks ++ [⟨dest, id, sender⟩], g.ends⟩
    (Flood.evaluations_eq_zero hdest)
    fun n => by simp [Grid.evaluations, List.countP_append]
  rw [Overlay.toCome, Overlay.toCome, hflight, htwo, List.map_append, List.sum_append]
  omega

/-- A delivery takes one message from those that are still to come. -/
lemma Flood.toCome_lt (h : Flood ov id (fun _ => False) g)
    (hstep : step g (.deliver i) = some g') : ov.toCome id g' < ov.toCome id g := by
  obtain ⟨m, rest, -, hperm, rfl⟩ := step_deliver hstep
  have hflight := sum_answered_of_perm hperm
  cases m with
  | unregisterNode dest url =>
      have hlinks : ∑ n, ov.links (receive { g with inFlight := rest }
          (.unregisterNode dest url)) id n = ∑ n, ov.links g id n := sum_links_of_checks rfl
      have hone : (Message.unregisterNode dest url).answered = 1 := rfl
      have hafter : (receive { g with inFlight := rest } (.unregisterNode dest url)).inFlight =
        rest := rfl
      rw [Overlay.toCome, Overlay.toCome, hlinks, hflight, hone, hafter]
      omega
  | ask dest req sender =>
      by_cases hdest : g.Evaluated dest id
      · -- the link is cut, which the other side will be told
        obtain ⟨hid, hend, -⟩ := h.ask dest req sender (hperm.mem_iff.mpr List.mem_cons_self)
        have htwo : (Message.ask dest req sender).answered = 2 := rfl
        have hone : ([Message.unregisterNode sender dest].map Message.answered).sum = 1 := rfl
        have hreceive : receive { g with inFlight := rest } (.ask dest req sender) =
            ⟨Function.update g.node dest ((g.node dest).removeNeighbor sender),
              rest ++ [.unregisterNode sender dest], g.checks, g.ends⟩ :=
          receive_ask_known hend (hid ▸ h.mem_known_iff.mpr hdest)
        have hlinks : ∑ n, ov.links (receive { g with inFlight := rest }
            (.ask dest req sender)) id n = ∑ n, ov.links g id n :=
          sum_links_of_checks (by rw [hreceive])
        rw [Overlay.toCome, Overlay.toCome, hlinks, hflight, htwo, hreceive]
        dsimp only
        rw [List.map_append, List.sum_append, hone]
        omega
      · exact Nat.lt_of_lt_of_le (by omega) (h.toCome_first hperm hdest)

/-- **The cost of a discovery.**  On every finite overlay, for every limit of hops and in every
order of the deliveries: the messages that follow the launch of a discovery request are no more
than two for each direction of each link. -/
theorem discovery_deliveries_le (ov : Overlay N) (clock : N → ℕ) (o : N) (maxHops : ℤ)
    (popAppId : String) (ds : List ℕ) (g : Grid N)
    (hrun : run step (ov.grid clock) (.launch o maxHops popAppId false :: ds.map .deliver) =
      some g) : ds.length + g.inFlight.length ≤ 2 * ∑ n, (ov.neighbors n).length := by
  obtain ⟨g₁, hg₁, hrun⟩ := run_cons_eq_some.mp hrun
  rw [step_launch_eq_deliver] at hg₁
  -- at first every link is still to be used, and the first copy is on its way
  have hprimed : Flood ov (o, clock o) (fun _ => False) (ov.primed clock o maxHops popAppId) :=
    flood_primed _ maxHops
  have hbegin : ov.toCome (o, clock o) (ov.primed clock o maxHops popAppId) =
      2 * ∑ n, (ov.neighbors n).length + 2 := by
    rw [Overlay.toCome, Finset.mul_sum]
    exact congrArg (· + 2) (Finset.sum_congr rfl fun n _ => if_pos rfl)
  have hlaunch : 2 + ov.toCome (o, clock o) g₁ ≤
      ov.toCome (o, clock o) (ov.primed clock o maxHops popAppId) := by
    obtain ⟨m, rest, hm, hperm, rfl⟩ := step_deliver hg₁
    obtain rfl := mem_inFlight_primed (List.mem_of_getElem? hm)
    exact hprimed.toCome_first hperm not_evaluated_primed
  have hfirst := hprimed.deliver hg₁ fun _ _ _ _ _ hF => hF.elim
  have hlength := run_length_add_le (I := Flood ov (o, clock o) fun _ => False)
    (f := ov.toCome (o, clock o)) (by
      rintro g _ g' hflood ⟨i, rfl⟩ hst
      exact ⟨hflood.deliver hst fun _ _ _ _ _ hF => hF.elim, hflood.toCome_lt hst⟩)
    hfirst (along_isDelivery ds) hrun
  have hflight : g.inFlight.length ≤ ov.toCome (o, clock o) g := by
    have hone : ∀ x ∈ g.inFlight.map Message.answered, 1 ≤ x := by
      intro x hx
      obtain ⟨m, -, rfl⟩ := List.mem_map.mp hx
      cases m <;> simp [Message.answered]
    have hcard := List.card_nsmul_le_sum _ _ hone
    rw [List.length_map, smul_eq_mul, Nat.mul_one] at hcard
    exact hcard.trans (Nat.le_add_left _ _)
  rw [List.length_map] at hlength
  omega

/-- First in, first out over the detour, which has six links. -/
theorem discovery_deliveries_le_detour :
    ∃ g, detourRun 4 [0, 0, 0, 0, 0] = some g ∧ 5 + g.inFlight.length ≤ 2 * 12 := by
  obtain ⟨g, hrun⟩ : ∃ g, detourRun 4 [0, 0, 0, 0, 0] = some g := ⟨_, rfl⟩
  exact ⟨g, hrun, discovery_deliveries_le detour (fun _ => 0) 0 4 "app" [0, 0, 0, 0, 0] g hrun⟩

end single

end Discovery
