/-
# The flood at the end of an application

The job manager of the main node announces the end of an application by a discovery request of
its own.  Such an end request has unlimited hops and no node looks it up in its history, so
what stops it is the exploration list alone.  The neighbour lists in it are cleared one after
the other, but no node id is ever lost as a key: a copy that goes from node to node names all
the nodes it has come through, and none of them is asked by it again.
-/
import PopCpp.Discovery.Coverage
import Mathlib.Algebra.Order.BigOperators.Group.List
import Mathlib.Data.Fintype.Card
import Mathlib.Data.Fintype.Lattice

namespace Discovery

open Transition

variable {N : Type*} [LinearOrder N]

/-! ### The nodes that a copy has come through -/

namespace ExplorationList

/-- The keys of an exploration list. -/
def visited (el : ExplorationList N) : Finset N := (el.map Prod.fst).toFinset

lemma mem_visited {el : ExplorationList N} {n : N} :
    n ∈ el.visited ↔ ∃ e ∈ el, e.1 = n := by
  simp [visited]

lemma isIn_of_mem_visited {el : ExplorationList N} {n : N} (h : n ∈ el.visited) :
    el.isIn n = true := by
  obtain ⟨e, he, rfl⟩ := mem_visited.mp h
  exact isIn_iff.mpr ⟨e, he, Or.inl rfl⟩

lemma mem_visited_addListNode {el : ExplorationList N} {v n : N} {ns : List N} :
    n ∈ (el.addListNode v ns).visited ↔ n = v ∨ n ∈ el.visited := by
  rw [mem_visited, mem_visited]
  constructor
  · rintro ⟨e, he, rfl⟩
    have hinsert : ∃ e' ∈ insert v ns el, e'.1 = e.1 := by
      simp only [addListNode] at he
      split_ifs at he
      · obtain ⟨e', he', hkey, -⟩ := mem_clearFirst he
        exact ⟨e', he', hkey.symm⟩
      · exact ⟨e, he, rfl⟩
    obtain ⟨e', he', hkey⟩ := hinsert
    rcases mem_insert he' with he' | rfl
    · exact Or.inr ⟨e', he', hkey⟩
    · exact Or.inl hkey.symm
  · exact key_addListNode

lemma visited_unpack (el : ExplorationList N) : el.unpack.visited = el.visited := by
  have key : ∀ (l acc : ExplorationList N) (n : N),
      n ∈ visited (l.foldl (fun acc e => addListNode acc e.1 e.2) acc) ↔
        n ∈ acc.visited ∨ n ∈ l.visited := by
    intro l
    induction l with
    | nil =>
        intro acc n
        simp [mem_visited]
    | cons e l ih =>
        intro acc n
        rw [List.foldl_cons, ih, mem_visited_addListNode]
        simp only [mem_visited, List.exists_mem_cons_iff, eq_comm (a := n)]
        rw [or_assoc, or_left_comm]
  ext n
  rw [unpack, key]
  simp [mem_visited]

end ExplorationList

lemma Request.visited_passedOn (req : Request N) (dest : N) (ns : List N) :
    (req.passedOn dest ns).explorationList.visited =
      insert dest req.explorationList.visited := by
  ext n
  rw [Finset.mem_insert, ← ExplorationList.visited_unpack req.explorationList]
  exact ExplorationList.mem_visited_addListNode

/-! ### Chains of forwards -/

/-- The node that a message goes to. -/
def Message.dest : Message N → N
  | .ask dest _ _ => dest
  | .unregisterNode dest _ => dest

/-- No node has a link to itself. -/
def Grid.NoSelfLink (g : Grid N) : Prop := ∀ n, n ∉ (g.node n).neighborsList

/-- The message `m'` is one of the copies that the delivery of `m` puts in flight, in some
state that the grid reaches from `g₀`. -/
def Forwards (g₀ : Grid N) (m m' : Message N) : Prop :=
  ∃ g, Reachable step g₀ g ∧ m' ∈ (receive { g with inFlight := [] } m).inFlight

/-- Neighbour lists are only ever cut. -/
lemma neighborsList_receive_subset (g : Grid N) (m : Message N) (n : N) :
    ((receive g m).node n).neighborsList ⊆ (g.node n).neighborsList := by
  have hcut : ∀ d u : N, (Function.update g.node d ((g.node d).removeNeighbor u) n).neighborsList ⊆
      (g.node n).neighborsList := by
    intro d u
    by_cases hn : n = d
    · subst hn
      simpa [SearchNode.removeNeighbor] using List.erase_subset
    · simp [hn]
  cases m with
  | unregisterNode dest url => exact hcut dest url
  | ask dest req sender =>
      simp only [receive, askResourcesDiscovery]
      split_ifs with hend hknown
      · exact List.Subset.refl _
      · exact hcut dest sender
      · by_cases hn : n = dest
        · subst hn
          simp [SearchNode.saveRequest]
        · simp [hn]

lemma Grid.NoSelfLink.receive {g : Grid N} (h : g.NoSelfLink) (m : Message N) :
    (receive g m).NoSelfLink :=
  fun n hn => h n (neighborsList_receive_subset g m n hn)

lemma Grid.NoSelfLink.step {g g' : Grid N} {a : Action N} (h : g.NoSelfLink)
    (hstep : step g a = some g') : g'.NoSelfLink := by
  cases a with
  | deliver i =>
      obtain ⟨m, rest, -, -, rfl⟩ := step_deliver hstep
      exact Grid.NoSelfLink.receive (g := { g with inFlight := rest }) h m
  | launch origin maxHops popAppId endingSignal =>
      obtain rfl := Option.some.inj hstep
      rw [launchDiscovery_eq_receive]
      refine Grid.NoSelfLink.receive (fun n => ?_) _
      by_cases hn : n = origin
      · subst hn
        simpa [Grid.tick] using h n
      · simpa [Grid.tick, hn] using h n

lemma Grid.NoSelfLink.reachable {g₀ g : Grid N} (h₀ : g₀.NoSelfLink)
    (h : Reachable Discovery.step g₀ g) : g.NoSelfLink :=
  h.invariant h₀ fun _ _ _ _ hs hst => hs.step hst

/-- A copy of an end request that is forwarded goes to a node outside its exploration list, in
which the forwarding node is now named. -/
lemma Forwards.ask {g₀ : Grid N} (h₀ : g₀.NoSelfLink) {dest sender : N} {req : Request N}
    (hend : req.endingSignal = true) {m' : Message N}
    (h : Forwards g₀ (.ask dest req sender) m') :
    ∃ w req', m' = .ask w req' dest ∧ req'.endingSignal = true ∧
      req'.explorationList.visited = insert dest req.explorationList.visited ∧
      w ∉ req'.explorationList.visited := by
  obtain ⟨g, hg, hm'⟩ := h
  rw [receive_ask_end (g := { g with inFlight := [] }) hend] at hm'
  obtain ⟨-, w, hw, hnot, rfl⟩ := mem_forwards.mp (by simpa using hm')
  refine ⟨w, _, rfl, hend, Request.visited_passedOn _ _ _, fun hin => ?_⟩
  rw [Request.visited_passedOn, Finset.mem_insert] at hin
  rcases hin with rfl | hin
  · exact h₀.reachable hg w hw
  · rw [← ExplorationList.visited_unpack] at hin
    simp [ExplorationList.isIn_of_mem_visited hin] at hnot

/-- No node is met twice along a chain of forwards, nor is one that the first copy names. -/
lemma nodup_chain {g₀ : Grid N} (h₀ : g₀.NoSelfLink) {dest sender : N} {req : Request N}
    (hend : req.endingSignal = true) (hdest : dest ∉ req.explorationList.visited)
    {ms : List (Message N)} (hchain : List.IsChain (Forwards g₀) (.ask dest req sender :: ms)) :
    ((Message.ask dest req sender :: ms).map Message.dest).Nodup ∧
      ∀ m ∈ ms, m.dest ∉ req.explorationList.visited := by
  induction ms generalizing dest req sender with
  | nil => simp
  | cons m ms ih =>
      obtain ⟨hfirst, hrest⟩ := List.isChain_cons_cons.mp hchain
      obtain ⟨w, req', rfl, hend', hvisited, hw⟩ := hfirst.ask h₀ hend
      obtain ⟨hnodup, hout⟩ := ih hend' hw hrest
      have hout' : ∀ m ∈ Message.ask w req' dest :: ms,
          m.dest ≠ dest ∧ m.dest ∉ req.explorationList.visited := by
        intro m hm
        have hnot : m.dest ∉ insert dest req.explorationList.visited := by
          rw [← hvisited]
          rcases List.mem_cons.mp hm with rfl | hm
          · exact hw
          · exact hout m hm
        simpa [not_or] using hnot
      refine ⟨?_, fun m hm => (hout' m hm).2⟩
      rw [List.map_cons, List.nodup_cons]
      refine ⟨fun hin => ?_, hnodup⟩
      obtain ⟨m, hm, heq⟩ := List.mem_map.mp hin
      exact (hout' m hm).1 heq

/-! ### How long the flood lasts -/

/-- A copy of the end request of the application: it does not count its hops, and it goes to a
node that it has not come through. -/
def EndCopy (popAppId : String) : Message N → Prop
  | .ask dest req _ =>
      req.endingSignal = true ∧ req.maxHops = unlimitedHops ∧ req.popAppId = popAppId ∧
        dest ∉ req.explorationList.visited
  | .unregisterNode _ _ => False

/-- Nothing but copies of an end request in flight, over the links of the overlay. -/
structure EndGrid (ov : Overlay N) (popAppId : String) (g : Grid N) : Prop where
  /-- No link is cut. -/
  links : ∀ n, (g.node n).neighborsList = ov.neighbors n
  /-- The copies in flight. -/
  copies : ∀ m ∈ g.inFlight, EndCopy popAppId m

namespace EndGrid

variable {ov : Overlay N} {popAppId : String} {g g' : Grid N} {i : ℕ}

/-- What a delivery does: the node asks those of its neighbours that the list of the copy does
not name, and calls `ApplicationEnd`. -/
lemma deliver_eq (h : EndGrid ov popAppId g) (hstep : step g (.deliver i) = some g') :
    ∃ dest req sender rest, EndCopy popAppId (.ask dest req sender) ∧
      g.inFlight.Perm (.ask dest req sender :: rest) ∧
      g' = ⟨g.node, rest ++ forwards dest (ov.neighbors dest) req.explorationList.unpack
        (req.passedOn dest (ov.neighbors dest)), g.checks, g.ends ++ [(dest, popAppId)]⟩ := by
  obtain ⟨m, rest, -, hperm, rfl⟩ := step_deliver hstep
  have hcopy := h.copies m (hperm.mem_iff.mpr List.mem_cons_self)
  cases m with
  | unregisterNode dest url => exact hcopy.elim
  | ask dest req sender =>
      refine ⟨dest, req, sender, rest, hcopy, hperm, ?_⟩
      obtain ⟨hend, -, happ, -⟩ := hcopy
      rw [receive_ask_end (g := { g with inFlight := rest }) hend]
      simp only [h.links dest, happ]

/-- The copies that a node passes on. -/
lemma endCopy_forwards (hself : ∀ v, v ∉ ov.neighbors v) {dest sender : N} {req : Request N}
    (hcopy : EndCopy popAppId (.ask dest req sender)) {m : Message N}
    (hm : m ∈ forwards dest (ov.neighbors dest) req.explorationList.unpack
      (req.passedOn dest (ov.neighbors dest))) : EndCopy popAppId m := by
  obtain ⟨hend, hhops, happ, -⟩ := hcopy
  obtain ⟨-, w, hw, hnot, rfl⟩ := mem_forwards.mp hm
  refine ⟨hend, Request.maxHops_passedOn_unlimited hhops _ _, happ, fun hin => ?_⟩
  rw [Request.visited_passedOn, Finset.mem_insert] at hin
  rcases hin with rfl | hin
  · exact hself w hw
  · rw [← ExplorationList.visited_unpack] at hin
    simp [ExplorationList.isIn_of_mem_visited hin] at hnot

lemma deliver (hself : ∀ v, v ∉ ov.neighbors v) (h : EndGrid ov popAppId g)
    (hstep : step g (.deliver i) = some g') : EndGrid ov popAppId g' := by
  obtain ⟨dest, req, sender, rest, hcopy, hperm, rfl⟩ := h.deliver_eq hstep
  refine ⟨h.links, fun m hm => ?_⟩
  rcases List.mem_append.mp hm with hm | hm
  · exact h.copies m (hperm.mem_iff.mpr (List.mem_cons_of_mem _ hm))
  · exact endCopy_forwards hself hcopy hm

end EndGrid

section measure

variable [Fintype N]

/-- The messages that a message can still lead to, itself included, when no node has `d` or
more neighbours. -/
def Message.weight (d : ℕ) : Message N → ℕ
  | .ask _ req _ => d ^ (Fintype.card N - req.explorationList.visited.card)
  | .unregisterNode _ _ => 0

/-- The messages that the flood can still lead to. -/
def Grid.weight (d : ℕ) (g : Grid N) : ℕ := (g.inFlight.map (Message.weight d)).sum

/-- A node that passes a copy on replaces it by fewer than `d` copies, each of which can go to
one node less. -/
lemma weight_forwards_lt {d : ℕ} {neighbors : List N} (hd : neighbors.length < d) {dest : N}
    {req : Request N} (hdest : dest ∉ req.explorationList.visited) :
    ((forwards dest neighbors req.explorationList.unpack (req.passedOn dest neighbors)).map
      (Message.weight d)).sum < d ^ (Fintype.card N - req.explorationList.visited.card) := by
  have hcard : req.explorationList.visited.card + 1 ≤ Fintype.card N := by
    rw [← Finset.card_insert_of_notMem hdest]
    exact Finset.card_le_univ _
  obtain ⟨k, hk⟩ : ∃ k, Fintype.card N - req.explorationList.visited.card = k + 1 :=
    ⟨_, (Nat.sub_add_cancel (by omega : 1 ≤ _)).symm⟩
  have hweight : ∀ x ∈ (forwards dest neighbors req.explorationList.unpack
      (req.passedOn dest neighbors)).map (Message.weight d), x ≤ d ^ k := by
    intro x hx
    obtain ⟨m, hm, rfl⟩ := List.mem_map.mp hx
    obtain ⟨-, w, -, -, rfl⟩ := mem_forwards.mp hm
    rw [Message.weight, Request.visited_passedOn, Finset.card_insert_of_notMem hdest]
    exact le_of_eq (congrArg (d ^ ·) (by omega))
  have hlength : (forwards dest neighbors req.explorationList.unpack
      (req.passedOn dest neighbors)).length ≤ neighbors.length := by
    unfold forwards
    split_ifs
    · simpa using List.length_filter_le _ _
    · simp
  have hpos : 0 < d ^ k := Nat.pow_pos (by omega)
  calc _ ≤ _ * d ^ k := by simpa using List.sum_le_card_nsmul _ _ hweight
    _ ≤ neighbors.length * d ^ k := Nat.mul_le_mul_right _ hlength
    _ < d * d ^ k := Nat.mul_lt_mul_of_pos_right hd hpos
    _ = _ := by rw [hk, pow_succ, mul_comm]

lemma EndGrid.weight_lt {ov : Overlay N} {popAppId : String} {g g' : Grid N} {i d : ℕ}
    (hd : ∀ n, (ov.neighbors n).length < d) (h : EndGrid ov popAppId g)
    (hstep : step g (.deliver i) = some g') : g'.weight d < g.weight d := by
  obtain ⟨dest, req, sender, rest, ⟨-, -, -, hdest⟩, hperm, rfl⟩ := h.deliver_eq hstep
  have hlt := weight_forwards_lt (hd dest) hdest
  have hsum : g.weight d = Message.weight d (.ask dest req sender) +
      (rest.map (Message.weight d)).sum := by
    rw [Grid.weight, (hperm.map _).sum_eq, List.map_cons, List.sum_cons]
  rw [hsum, Grid.weight, List.map_append, List.sum_append, Message.weight]
  omega

end measure

/-! ### What the flood reaches -/

/-- The node has called `ApplicationEnd` for the application, or a copy is on its way to it. -/
def Grid.EndAsked (g : Grid N) (popAppId : String) (n : N) : Prop :=
  (n, popAppId) ∈ g.ends ∨ ∃ req sender, Message.ask n req sender ∈ g.inFlight

/-- The invariant of the flood of an end request. -/
structure EndFlood (ov : Overlay N) (popAppId : String) (g : Grid N) : Prop
    extends EndGrid ov popAppId g where
  /-- Whoever is named in an exploration list has been asked. -/
  listed : ∀ dest req sender, Message.ask dest req sender ∈ g.inFlight →
    ∀ n, req.explorationList.isIn n = true → g.EndAsked popAppId n
  /-- A node that has called `ApplicationEnd` has asked all its neighbours. -/
  passed : ∀ n, (n, popAppId) ∈ g.ends → ∀ w ∈ ov.neighbors n, g.EndAsked popAppId w

lemma EndFlood.deliver {ov : Overlay N} {popAppId : String} {g g' : Grid N} {i : ℕ}
    (hself : ∀ v, v ∉ ov.neighbors v) (h : EndFlood ov popAppId g)
    (hstep : step g (.deliver i) = some g') : EndFlood ov popAppId g' := by
  have hgrid := h.toEndGrid.deliver hself hstep
  obtain ⟨dest, req, sender, rest, ⟨-, hhops, -, -⟩, hperm, hg'⟩ :=
    h.toEndGrid.deliver_eq hstep
  have hmem : Message.ask dest req sender ∈ g.inFlight := hperm.mem_iff.mpr List.mem_cons_self
  have hdest : g'.EndAsked popAppId dest := Or.inl (by simp [hg'])
  have hasked : ∀ n, g.EndAsked popAppId n → g'.EndAsked popAppId n := by
    rintro n (hn | ⟨r, s, hm⟩)
    · exact Or.inl (by simp [hg', hn])
    · rcases List.mem_cons.mp (hperm.mem_iff.mp hm) with heq | hm
      · cases heq
        exact hdest
      · exact Or.inr ⟨r, s, by rw [hg']; exact List.mem_append_left _ hm⟩
  -- A neighbour that is not asked now is named in the list that the copy came with.
  have hpassed : ∀ w ∈ ov.neighbors dest, g'.EndAsked popAppId w := by
    intro w hw
    cases hin : req.explorationList.unpack.isIn w with
    | true =>
        have hlisted := ExplorationList.isIn_of_isIn_unpack hin
        exact hasked w (h.listed dest req sender hmem w hlisted)
    | false =>
        have hmore : (req.passedOn dest (ov.neighbors dest)).MoreHops :=
          Or.inr (Request.maxHops_passedOn_unlimited hhops _ _)
        refine Or.inr ⟨req.passedOn dest (ov.neighbors dest), dest, ?_⟩
        rw [hg']
        exact List.mem_append_right _ (mem_forwards.mpr ⟨hmore, w, hw, hin, rfl⟩)
  refine ⟨hgrid, ?_, ?_⟩
  · intro d r s hm n hn
    rw [hg'] at hm
    rcases List.mem_append.mp hm with hm | hm
    · have hold := hperm.mem_iff.mpr (List.mem_cons_of_mem _ hm)
      exact hasked n (h.listed d r s hold n hn)
    · obtain ⟨-, w, -, -, heq⟩ := mem_forwards.mp hm
      cases heq
      rcases ExplorationList.isIn_addListNode hn with hn | rfl | hn
      · have hlisted := ExplorationList.isIn_of_isIn_unpack hn
        exact hasked n (h.listed dest req sender hmem n hlisted)
      · exact hdest
      · exact hpassed n hn
  · intro n hn w hw
    rw [hg'] at hn
    rcases List.mem_append.mp hn with hn | hn
    · exact hasked w (h.passed n hn w hw)
    · obtain ⟨rfl, -⟩ : n = dest ∧ popAppId = popAppId := by simpa using hn
      exact hpassed w hw

/-! ### The launch -/

/-- The grid has the links of the overlay, no message is in flight, and no application has
ended.  The nodes may have any history. -/
structure Grid.Idle (ov : Overlay N) (g : Grid N) : Prop where
  /-- The links. -/
  links : ∀ n, (g.node n).neighborsList = ov.neighbors n
  /-- Nothing is in flight. -/
  inFlight : g.inFlight = []
  /-- No call of `ApplicationEnd` yet. -/
  ends : g.ends = []

/-- The first copy of an end request that the node `o` launches. -/
def Grid.endRequest (g : Grid N) (o : N) (popAppId : String) : Message N :=
  .ask o ⟨(o, (g.node o).logicalClock), unlimitedHops, popAppId, true, []⟩ o

section launch

variable {ov : Overlay N} {g₀ g : Grid N} {o : N} {popAppId : String}

lemma endCopy_endRequest (g₀ : Grid N) : EndCopy popAppId (g₀.endRequest o popAppId) :=
  ⟨rfl, rfl, rfl, by simp [ExplorationList.visited]⟩

/-- The copies in flight after the launch are forwards of the first copy. -/
lemma forwards_of_launch (hidle : g₀.Idle ov)
    (hstep : step g₀ (.launch o unlimitedHops popAppId true) = some g) {m : Message N}
    (hm : m ∈ g.inFlight) : Forwards g₀ (g₀.endRequest o popAppId) m := by
  refine ⟨g₀, ⟨[], rfl⟩, ?_⟩
  obtain rfl := Option.some.inj hstep
  rw [launchDiscovery_eq_receive, receive_ask_end rfl] at hm
  rw [Grid.endRequest, receive_ask_end rfl]
  simpa [Grid.tick, hidle.inFlight] using hm

/-- The launch is the delivery of the first copy. -/
lemma endFlood_launch (hidle : g₀.Idle ov) (hself : ∀ v, v ∉ ov.neighbors v)
    (hstep : step g₀ (.launch o unlimitedHops popAppId true) = some g) :
    EndFlood ov popAppId g ∧ (o, popAppId) ∈ g.ends := by
  obtain ⟨g₁, hg₁⟩ : ∃ g₁, g₁ = { g₀.tick o with inFlight := [g₀.endRequest o popAppId] } :=
    ⟨_, rfl⟩
  have hstep' : step g₁ (.deliver 0) = some g := by
    rw [← hstep, hg₁]
    simp only [step, launchDiscovery_eq_receive, Grid.endRequest]
    simp [Grid.tick, hidle.inFlight]
  have hflood : EndFlood ov popAppId g₁ := by
    refine ⟨⟨fun n => ?_, fun m hm => ?_⟩, fun dest req sender hm n hn => ?_, fun n hn => ?_⟩
    · by_cases hn : n = o
      · subst hn
        simp [hg₁, Grid.tick, hidle.links]
      · simp [hg₁, Grid.tick, hn, hidle.links]
    · obtain rfl : m = g₀.endRequest o popAppId := by simpa [hg₁] using hm
      exact endCopy_endRequest g₀
    · rw [hg₁] at hm
      cases List.mem_singleton.mp hm
      simp [ExplorationList.isIn] at hn
    · simp [hg₁, Grid.tick, hidle.ends] at hn
  refine ⟨hflood.deliver hself hstep', ?_⟩
  obtain ⟨dest, req, sender, rest, -, hperm, rfl⟩ := hflood.toEndGrid.deliver_eq hstep'
  have hdest : Message.ask dest req sender ∈ g₁.inFlight := hperm.mem_iff.mpr List.mem_cons_self
  rw [hg₁] at hdest
  cases List.mem_singleton.mp hdest
  simp

lemma endFlood_of_run (hidle : g₀.Idle ov) (hself : ∀ v, v ∉ ov.neighbors v) {ds : List ℕ}
    (hrun : run step g₀ (.launch o unlimitedHops popAppId true :: ds.map .deliver) = some g) :
    EndFlood ov popAppId g ∧ (o, popAppId) ∈ g.ends := by
  obtain ⟨g₁, hg₁, hrun⟩ := run_cons_eq_some.mp hrun
  refine run_invariant_along (I := fun g => EndFlood ov popAppId g ∧ (o, popAppId) ∈ g.ends)
    ?_ (endFlood_launch hidle hself hg₁) (along_isDelivery ds) hrun
  rintro g _ g' ⟨hg, ho⟩ ⟨i, rfl⟩ hstep
  refine ⟨hg.deliver hself hstep, ?_⟩
  obtain ⟨dest, req, sender, rest, -, -, rfl⟩ := hg.toEndGrid.deliver_eq hstep
  exact List.mem_append_left _ ho

/-- Every run of deliveries after the launch ends. -/
lemma exists_length_le [Finite N] (hidle : g₀.Idle ov) (hself : ∀ v, v ∉ ov.neighbors v) :
    ∃ b, ∀ (ds : List ℕ) (g : Grid N),
      run step g₀ (.launch o unlimitedHops popAppId true :: ds.map .deliver) = some g →
      ds.length ≤ b := by
  have := Fintype.ofFinite N
  obtain ⟨d, hd⟩ : ∃ d, ∀ n, (ov.neighbors n).length < d := by
    obtain ⟨d, hd⟩ := Set.finite_range (fun n => (ov.neighbors n).length) |>.bddAbove
    exact ⟨d + 1, fun n => Nat.lt_succ_of_le (hd ⟨n, rfl⟩)⟩
  obtain ⟨g₁, hg₁⟩ : ∃ g₁, step g₀ (.launch o unlimitedHops popAppId true) = some g₁ := ⟨_, rfl⟩
  refine ⟨g₁.weight d, fun ds g hrun => ?_⟩
  obtain ⟨g₁', hg₁', hrun⟩ := run_cons_eq_some.mp hrun
  obtain rfl := Option.some.inj (hg₁.symm.trans hg₁')
  have hlen := run_length_add_le (I := EndGrid ov popAppId) (f := Grid.weight d) ?_
    (endFlood_launch hidle hself hg₁).1.toEndGrid (along_isDelivery ds) hrun
  · rw [List.length_map] at hlen
    omega
  · rintro g _ g' hg ⟨i, rfl⟩ hstep
    exact ⟨hg.deliver hself hstep, hg.weight_lt hd hstep⟩

/-- **The end of an application.**  On a finite connected overlay in which no node is its own
neighbour, whatever the order of the deliveries: no node is met twice along a chain of
forwards, from the launch on; the flood stops; and once no copy is in flight every node has
called `ApplicationEnd`. -/
theorem end_flood [Finite N] (hconn : ov.graph.Preconnected) (hself : ∀ v, v ∉ ov.neighbors v)
    (hidle : g₀.Idle ov) :
    (∀ g₁ m ms, step g₀ (.launch o unlimitedHops popAppId true) = some g₁ → m ∈ g₁.inFlight →
      List.IsChain (Forwards g₀) (m :: ms) → (o :: (m :: ms).map Message.dest).Nodup) ∧
    (∃ b, ∀ (ds : List ℕ) (g : Grid N),
      run step g₀ (.launch o unlimitedHops popAppId true :: ds.map .deliver) = some g →
      ds.length ≤ b) ∧
    ∀ (ds : List ℕ) (g : Grid N),
      run step g₀ (.launch o unlimitedHops popAppId true :: ds.map .deliver) = some g →
      g.Quiet → ∀ n, (n, popAppId) ∈ g.ends := by
  refine ⟨fun g₁ m ms hstep hm hchain => ?_, exists_length_le hidle hself,
    fun ds g hrun hquiet n => ?_⟩
  · have h₀ : g₀.NoSelfLink := fun n hn => hself n (hidle.links n ▸ hn)
    have hfirst := forwards_of_launch hidle hstep hm
    exact (nodup_chain h₀ rfl (by simp [ExplorationList.visited])
      (List.isChain_cons_cons.mpr ⟨hfirst, hchain⟩)).1
  · obtain ⟨hflood, ho⟩ := endFlood_of_run hidle hself hrun
    refine hconn.mem_of_closed (S := fun n => (n, popAppId) ∈ g.ends) ho (fun u v hu hadj => ?_) n
    rcases hflood.passed u hu v hadj.2 with hv | ⟨req, sender, hm⟩
    · exact hv
    · exact absurd hm (hquiet v req sender)

end launch

/-- First in, first out over the detour: the nodes 4 and 5 are asked over both ways. -/
theorem end_flood_detour :
    ∃ g, run step (detour.grid fun _ => 0)
        (.launch 0 unlimitedHops "app" true :: (List.replicate 8 0).map .deliver) = some g ∧
      g.inFlight = [] ∧ ∀ n, (n, "app") ∈ g.ends := by
  have hmap : (run step (detour.grid fun _ => 0) (.launch 0 unlimitedHops "app" true ::
      (List.replicate 8 0).map .deliver)).map Grid.inFlight = some [] := by decide
  obtain ⟨g, hg, hempty⟩ := Option.map_eq_some_iff.mp hmap
  have hidle : (detour.grid fun _ => 0).Idle detour := ⟨fun _ => rfl, rfl, rfl⟩
  refine ⟨g, hg, hempty, (end_flood detour_preconnected (by decide) hidle).2.2 _ g hg ?_⟩
  intro dest req sender hm
  simp [hempty] at hm

end Discovery
