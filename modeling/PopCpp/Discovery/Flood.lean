/-
# One request on its way through the overlay

The invariant of a single flood.  A node named in the exploration list of a copy has been
asked: it has evaluated the request or another copy is on its way to it.  Links are cut only
at nodes that have evaluated the request, so a node that is asked for the first time still has
the neighbour list of the overlay, and after it has passed the request on all its neighbours
have been asked.
-/
import PopCpp.Discovery.Model
import Mathlib.Data.List.Perm.Basic

namespace Discovery

variable {N : Type*} [LinearOrder N]

/-! ### Exploration lists -/

namespace ExplorationList

lemma isIn_iff {el : ExplorationList N} {n : N} :
    el.isIn n = true ↔ ∃ e ∈ el, n = e.1 ∨ n ∈ e.2 := by
  simp [isIn, List.any_eq_true]

lemma mem_insert {el : ExplorationList N} {v : N} {ns : List N} {e : N × List N}
    (he : e ∈ insert v ns el) : e ∈ el ∨ e = (v, ns) := by
  induction el with
  | nil => exact Or.inr (by simpa [insert] using he)
  | cons a el ih =>
      simp only [insert] at he
      split_ifs at he with hlt heq
      · rcases List.mem_cons.mp he with rfl | he
        · exact Or.inr rfl
        · exact Or.inl he
      · exact Or.inl he
      · rcases List.mem_cons.mp he with rfl | he
        · exact Or.inl List.mem_cons_self
        · exact (ih he).imp (List.mem_cons_of_mem _) id

lemma key_mem_insert (v : N) (ns : List N) (el : ExplorationList N) :
    ∃ e ∈ insert v ns el, e.1 = v := by
  induction el with
  | nil => exact ⟨(v, ns), by simp [insert], rfl⟩
  | cons a el ih =>
      simp only [insert]
      split_ifs with hlt heq
      · exact ⟨(v, ns), by simp, rfl⟩
      · exact ⟨a, by simp, heq.symm⟩
      · obtain ⟨e, he, hv⟩ := ih
        exact ⟨e, List.mem_cons_of_mem _ he, hv⟩

lemma mem_insert_of_mem {el : ExplorationList N} {v : N} {ns : List N} {e : N × List N}
    (he : e ∈ el) : e ∈ insert v ns el := by
  induction el with
  | nil => simp at he
  | cons a el ih =>
      simp only [insert]
      split_ifs with hlt heq
      · exact List.mem_cons_of_mem _ he
      · exact he
      · rcases List.mem_cons.mp he with rfl | he
        · exact List.mem_cons_self
        · exact List.mem_cons_of_mem _ (ih he)

omit [LinearOrder N] in
lemma mem_clearFirst {el : ExplorationList N} {e : N × List N} (he : e ∈ clearFirst el) :
    ∃ e₀ ∈ el, e.1 = e₀.1 ∧ ∀ n ∈ e.2, n ∈ e₀.2 := by
  induction el with
  | nil => simp [clearFirst] at he
  | cons a el ih =>
      simp only [clearFirst] at he
      split_ifs at he with hempty
      · rcases List.mem_cons.mp he with rfl | he
        · exact ⟨e, List.mem_cons_self, rfl, fun _ h => h⟩
        · obtain ⟨e₀, he₀, h⟩ := ih he
          exact ⟨e₀, List.mem_cons_of_mem _ he₀, h⟩
      · rcases List.mem_cons.mp he with rfl | he
        · exact ⟨a, List.mem_cons_self, rfl, fun _ h => absurd h List.not_mem_nil⟩
        · exact ⟨e, List.mem_cons_of_mem _ he, rfl, fun _ h => h⟩

omit [LinearOrder N] in
lemma key_mem_clearFirst {el : ExplorationList N} {e : N × List N} (he : e ∈ el) :
    ∃ e' ∈ clearFirst el, e'.1 = e.1 := by
  induction el with
  | nil => simp at he
  | cons a el ih =>
      simp only [clearFirst]
      split_ifs with hempty
      · rcases List.mem_cons.mp he with rfl | he
        · exact ⟨e, List.mem_cons_self, rfl⟩
        · obtain ⟨e', he', h⟩ := ih he
          exact ⟨e', List.mem_cons_of_mem _ he', h⟩
      · rcases List.mem_cons.mp he with rfl | he
        · exact ⟨(e.1, []), List.mem_cons_self, rfl⟩
        · exact ⟨e, List.mem_cons_of_mem _ he, rfl⟩

/-- What an added entry can bring into an exploration list. -/
lemma isIn_addListNode {el : ExplorationList N} {v n : N} {ns : List N}
    (h : (el.addListNode v ns).isIn n = true) : el.isIn n = true ∨ n = v ∨ n ∈ ns := by
  have key : ∀ e ∈ insert v ns el, n = e.1 ∨ n ∈ e.2 → el.isIn n = true ∨ n = v ∨ n ∈ ns := by
    intro e he hn
    rcases mem_insert he with he | rfl
    · exact Or.inl (isIn_iff.mpr ⟨e, he, hn⟩)
    · exact Or.inr hn
  obtain ⟨e, he, hn⟩ := isIn_iff.mp h
  simp only [addListNode] at he
  split_ifs at he
  · obtain ⟨e₀, he₀, hkey, hsub⟩ := mem_clearFirst he
    exact key e₀ he₀ (hn.imp (fun h => h.trans hkey) (hsub n))
  · exact key e he hn

/-- Keys are never lost: not the one that is added, and not those that are there. -/
lemma key_addListNode {el : ExplorationList N} {v n : N} {ns : List N}
    (h : n = v ∨ ∃ e ∈ el, e.1 = n) : ∃ e ∈ el.addListNode v ns, e.1 = n := by
  obtain ⟨e, he, hn⟩ : ∃ e ∈ insert v ns el, e.1 = n := by
    rcases h with rfl | ⟨e, he, hn⟩
    · exact key_mem_insert n ns el
    · exact ⟨e, mem_insert_of_mem he, hn⟩
  simp only [addListNode]
  split_ifs
  · obtain ⟨e', he', hkey⟩ := key_mem_clearFirst he
    exact ⟨e', he', hkey.trans hn⟩
  · exact ⟨e, he, hn⟩

/-- The receiver's list names no node that the packed one does not name. -/
lemma isIn_of_isIn_unpack {el : ExplorationList N} {n : N} (h : el.unpack.isIn n = true) :
    el.isIn n = true := by
  have key : ∀ (l acc : ExplorationList N),
      ExplorationList.isIn (l.foldl (fun acc e => addListNode acc e.1 e.2) acc) n = true →
      l.isIn n = true ∨ acc.isIn n = true := by
    intro l
    induction l with
    | nil => exact fun acc h => Or.inr h
    | cons e l ih =>
        intro acc h
        rcases ih _ h with h | h
        · obtain ⟨e', he', hn⟩ := isIn_iff.mp h
          exact Or.inl (isIn_iff.mpr ⟨e', List.mem_cons_of_mem _ he', hn⟩)
        · rcases isIn_addListNode h with h | h
          · exact Or.inr h
          · exact Or.inl (isIn_iff.mpr ⟨e, List.mem_cons_self, h⟩)
  rcases key el [] h with h | h
  · exact h
  · simp [isIn] at h

/-- The receiver's list has all the keys of the packed one. -/
lemma key_unpack {el : ExplorationList N} {e : N × List N} (he : e ∈ el) :
    ∃ e' ∈ el.unpack, e'.1 = e.1 := by
  have key : ∀ (l acc : ExplorationList N) (n : N),
      ((∃ e ∈ l, e.1 = n) ∨ ∃ e ∈ acc, e.1 = n) →
      ∃ e' ∈ l.foldl (fun acc e => addListNode acc e.1 e.2) acc, e'.1 = n := by
    intro l
    induction l with
    | nil =>
        rintro acc n (⟨e, he, -⟩ | h)
        · simp at he
        · exact h
    | cons a l ih =>
        rintro acc n (⟨e, he, hn⟩ | h)
        · rcases List.mem_cons.mp he with rfl | he
          · exact ih _ n (Or.inr (key_addListNode (Or.inl hn.symm)))
          · exact ih _ n (Or.inl ⟨e, he, hn⟩)
        · exact ih _ n (Or.inr (key_addListNode (Or.inr h)))
  exact key el [] e.1 (Or.inl ⟨e, he, rfl⟩)

end ExplorationList

/-! ### What a step does -/

/-- A delivery takes one message out of those in flight and hands it to its node. -/
lemma step_deliver {g g' : Grid N} {i : ℕ} (h : step g (.deliver i) = some g') :
    ∃ m rest, g.inFlight[i]? = some m ∧ g.inFlight.Perm (m :: rest) ∧
      g' = receive { g with inFlight := rest } m := by
  simp only [step] at h
  cases hm : g.inFlight[i]? with
  | none => simp [hm] at h
  | some m =>
      obtain ⟨hi, rfl⟩ := List.getElem?_eq_some_iff.mp hm
      refine ⟨_, g.inFlight.eraseIdx i, rfl, (List.getElem_cons_eraseIdx_perm hi).symm, ?_⟩
      simpa [hm] using h.symm

lemma mem_forwards {self : N} {neighbors : List N} {oldEL : ExplorationList N} {req : Request N}
    {m : Message N} : m ∈ forwards self neighbors oldEL req ↔
      req.MoreHops ∧ ∃ n ∈ neighbors, oldEL.isIn n = false ∧ m = .ask n req self := by
  unfold forwards
  split_ifs with hhops
  · simp only [List.mem_map, List.mem_filter, Bool.not_eq_true', hhops, true_and]
    constructor
    · rintro ⟨n, ⟨hn, hnot⟩, rfl⟩
      exact ⟨n, hn, hnot, rfl⟩
    · rintro ⟨n, hn, hnot, rfl⟩
      exact ⟨n, ⟨hn, hnot⟩, rfl⟩
  · simp [hhops]

/-- The clock of the node has advanced, as `getUID` does it. -/
def Grid.tick (g : Grid N) (n : N) : Grid N :=
  { g with
    node := Function.update g.node n
      { g.node n with logicalClock := (g.node n).logicalClock + 1 } }

/-- A launch is the delivery of a request with an empty exploration list to its own origin. -/
lemma launchDiscovery_eq_receive (g : Grid N) (origin : N) (maxHops : ℤ) (popAppId : String)
    (endingSignal : Bool) :
    launchDiscovery g origin maxHops popAppId endingSignal =
      receive (g.tick origin)
        (.ask origin ⟨(origin, (g.node origin).logicalClock), maxHops, popAppId, endingSignal,
          []⟩ origin) := rfl

/-- The copy of a request that a node with these neighbours passes on. -/
def Request.passedOn (req : Request N) (dest : N) (neighbors : List N) : Request N :=
  Request.addNodeToExplorationList { req with explorationList := req.explorationList.unpack }
    dest neighbors

section receive

variable {g : Grid N} {dest sender : N} {req : Request N}

lemma receive_ask_known (hend : req.endingSignal = false)
    (hknown : req.uniqueId ∈ (g.node dest).knownRequests) :
    receive g (.ask dest req sender) =
      ⟨Function.update g.node dest ((g.node dest).removeNeighbor sender),
        g.inFlight ++ [.unregisterNode sender dest], g.checks, g.ends⟩ := by
  simp [receive, askResourcesDiscovery, hend, hknown]

lemma receive_ask_new (hend : req.endingSignal = false)
    (hnew : req.uniqueId ∉ (g.node dest).knownRequests) :
    receive g (.ask dest req sender) =
      ⟨Function.update g.node dest ((g.node dest).saveRequest req.uniqueId),
        g.inFlight ++ forwards dest (g.node dest).neighborsList req.explorationList.unpack
          (req.passedOn dest (g.node dest).neighborsList),
        g.checks ++ [⟨dest, req.uniqueId, sender⟩], g.ends⟩ := by
  simp [receive, askResourcesDiscovery, hend, hnew, Request.passedOn]

lemma receive_ask_end (hend : req.endingSignal = true) :
    receive g (.ask dest req sender) =
      ⟨g.node, g.inFlight ++ forwards dest (g.node dest).neighborsList
          req.explorationList.unpack (req.passedOn dest (g.node dest).neighborsList),
        g.checks, g.ends ++ [(dest, req.popAppId)]⟩ := by
  simp [receive, askResourcesDiscovery, hend, Request.passedOn]

lemma knownRequests_update_removeNeighbor {node : N → SearchNode N} {n m url : N} :
    (Function.update node m ((node m).removeNeighbor url) n).knownRequests =
      (node n).knownRequests := by
  by_cases hn : n = m
  · subst hn
    simp [SearchNode.removeNeighbor]
  · simp [hn]

/-- What has been evaluated stays so. -/
lemma Grid.Evaluated.receive {n : N} {id : RequestId N} (h : g.Evaluated n id) (m : Message N) :
    (receive g m).Evaluated n id := by
  obtain ⟨c, hc, hcn⟩ := h
  refine ⟨c, ?_, hcn⟩
  cases m with
  | unregisterNode dest url => exact hc
  | ask dest req sender =>
      simp only [Discovery.receive, askResourcesDiscovery]
      split_ifs
      · exact hc
      · exact hc
      · exact List.mem_append_left _ hc

end receive

/-! ### The flood of one request -/

/-- The request has been evaluated at the node, or a copy is on its way to it. -/
def Grid.Asked (g : Grid N) (n : N) (id : RequestId N) : Prop :=
  g.Evaluated n id ∨ ∃ req sender, Message.ask n req sender ∈ g.inFlight

/-- The invariant of the flood of the request `id` over the overlay `ov`, the only request so
far.  The nodes in `F` are those whose copy leaves them hops to pass it on. -/
structure Flood (ov : Overlay N) (id : RequestId N) (F : N → Prop) (g : Grid N) : Prop where
  /-- Every copy is one of the request, and comes from a node that has evaluated it. -/
  ask : ∀ dest req sender, Message.ask dest req sender ∈ g.inFlight →
    req.uniqueId = id ∧ req.endingSignal = false ∧ (g.Evaluated sender id ∨ sender = dest)
  /-- Links are cut only at nodes that have evaluated the request. -/
  unregisterNode : ∀ dest url, Message.unregisterNode dest url ∈ g.inFlight →
    g.Evaluated dest id
  /-- The history of a node says whether it has evaluated the request. -/
  known : ∀ n, g.Evaluated n id ∧ (g.node n).knownRequests = [id] ∨
    ¬g.Evaluated n id ∧ (g.node n).knownRequests = []
  /-- Before that its neighbour list is that of the overlay. -/
  untouched : ∀ n, ¬g.Evaluated n id → (g.node n).neighborsList = ov.neighbors n
  /-- Whoever is named in an exploration list has been asked. -/
  listed : ∀ dest req sender, Message.ask dest req sender ∈ g.inFlight →
    ∀ n, req.explorationList.isIn n = true → g.Asked n id
  /-- A node that has passed the request on has asked all its neighbours. -/
  passed : ∀ n, g.Evaluated n id → F n → ∀ w ∈ ov.neighbors n, g.Asked w id
  /-- No node evaluates the request twice. -/
  once : ∀ n, g.evaluations n id ≤ 1

namespace Flood

variable {ov : Overlay N} {id : RequestId N} {F : N → Prop} {g : Grid N}

lemma mem_known_iff (h : Flood ov id F g) {n : N} :
    id ∈ (g.node n).knownRequests ↔ g.Evaluated n id := by
  rcases h.known n with ⟨he, hk⟩ | ⟨he, hk⟩
  · simp [he, hk]
  · simp [he, hk]

omit [LinearOrder N] in
lemma evaluated_concat {c : Check N} {n : N} {m : List (Message N)} {nd : N → SearchNode N} :
    Grid.Evaluated ⟨nd, m, g.checks ++ [c], g.ends⟩ n id ↔
      g.Evaluated n id ∨ c.node = n ∧ c.id = id := by
  simp only [Grid.Evaluated, List.mem_append, List.mem_singleton]
  constructor
  · rintro ⟨c', hc | rfl, hn⟩
    · exact Or.inl ⟨c', hc, hn⟩
    · exact Or.inr hn
  · rintro (⟨c', hc, hn⟩ | hn)
    · exact ⟨c', Or.inl hc, hn⟩
    · exact ⟨c, Or.inr rfl, hn⟩

lemma evaluations_eq_zero {n : N} (h : ¬g.Evaluated n id) : g.evaluations n id = 0 := by
  rw [Grid.evaluations, List.countP_eq_zero]
  intro c hc hcn
  simp only [Bool.and_eq_true, beq_iff_eq] at hcn
  exact h ⟨c, hc, hcn⟩

/-- A step that cuts links keeps the invariant: it evaluates nothing, it changes neighbour lists
only at nodes that have evaluated the request, and it takes a copy out of flight only at such a
node. -/
lemma cut (h : Flood ov id F g) {g' : Grid N} (hchecks : g'.checks = g.checks)
    (hknown : ∀ n, (g'.node n).knownRequests = (g.node n).knownRequests)
    (hlist : ∀ n, ¬g.Evaluated n id → (g'.node n).neighborsList = (g.node n).neighborsList)
    (hask : ∀ d r s, Message.ask d r s ∈ g'.inFlight → Message.ask d r s ∈ g.inFlight)
    (hunreg : ∀ d u, Message.unregisterNode d u ∈ g'.inFlight → g.Evaluated d id)
    (hlost : ∀ d r s, Message.ask d r s ∈ g.inFlight →
      Message.ask d r s ∈ g'.inFlight ∨ g.Evaluated d id) : Flood ov id F g' := by
  have heval : ∀ n, g'.Evaluated n id ↔ g.Evaluated n id := by
    intro n
    simp only [Grid.Evaluated, hchecks]
  have hasked : ∀ n, g.Asked n id → g'.Asked n id := by
    rintro n (he | ⟨r, s, hm⟩)
    · exact Or.inl ((heval n).mpr he)
    · rcases hlost n r s hm with hm | he
      · exact Or.inr ⟨r, s, hm⟩
      · exact Or.inl ((heval n).mpr he)
  constructor
  · intro d r s hm
    simpa only [heval] using h.ask d r s (hask d r s hm)
  · intro d u hm
    exact (heval d).mpr (hunreg d u hm)
  · intro n
    simpa only [heval, hknown] using h.known n
  · intro n hn
    rw [heval] at hn
    rw [hlist n hn, h.untouched n hn]
  · exact fun d r s hm n hn => hasked n (h.listed d r s (hask d r s hm) n hn)
  · exact fun n hn hF w hw => hasked w (h.passed n ((heval n).mp hn) hF w hw)
  · intro n
    simpa only [Grid.evaluations, hchecks] using h.once n

/-- An `UnregisterNode` reaches the node that has passed the request on. -/
lemma receive_unregisterNode (h : Flood ov id F g) {dest url : N} {rest : List (Message N)}
    (hperm : g.inFlight.Perm (.unregisterNode dest url :: rest)) :
    Flood ov id F (receive { g with inFlight := rest } (.unregisterNode dest url)) := by
  have hrest : ∀ m ∈ rest, m ∈ g.inFlight :=
    fun m hm => hperm.mem_iff.mpr (List.mem_cons_of_mem _ hm)
  have hdest : g.Evaluated dest id :=
    h.unregisterNode dest url (hperm.mem_iff.mpr List.mem_cons_self)
  refine h.cut rfl ?_ ?_ ?_ ?_ ?_
  · exact fun n => knownRequests_update_removeNeighbor
  · intro n hn
    have hne : n ≠ dest := by
      rintro rfl
      exact hn hdest
    simp [receive, hne]
  · exact fun d r s hm => hrest _ hm
  · exact fun d u hm => h.unregisterNode d u (hrest _ hm)
  · intro d r s hm
    exact Or.inl (by simpa [receive] using hperm.mem_iff.mp hm)

/-- A node that has evaluated the request is asked again, and cuts the link. -/
lemma receive_again (h : Flood ov id F g) {dest sender : N} {req : Request N}
    {rest : List (Message N)} (hperm : g.inFlight.Perm (.ask dest req sender :: rest))
    (hdest : g.Evaluated dest id) :
    Flood ov id F (receive { g with inFlight := rest } (.ask dest req sender)) := by
  have hrest : ∀ m ∈ rest, m ∈ g.inFlight :=
    fun m hm => hperm.mem_iff.mpr (List.mem_cons_of_mem _ hm)
  obtain ⟨hid, hend, hsender⟩ := h.ask dest req sender (hperm.mem_iff.mpr List.mem_cons_self)
  rw [receive_ask_known hend (hid ▸ h.mem_known_iff.mpr hdest)]
  refine h.cut rfl ?_ ?_ ?_ ?_ ?_
  · exact fun n => knownRequests_update_removeNeighbor
  · intro n hn
    have hne : n ≠ dest := by
      rintro rfl
      exact hn hdest
    simp [hne]
  · intro d r s hm
    exact hrest _ (by simpa using hm)
  · intro d u hm
    rcases List.mem_append.mp hm with hm | hm
    · exact h.unregisterNode d u (hrest _ hm)
    · obtain ⟨rfl, rfl⟩ : d = sender ∧ u = dest := by simpa using hm
      rcases hsender with hs | rfl
      · exact hs
      · exact hdest
  · intro d r s hm
    rcases List.mem_cons.mp (hperm.mem_iff.mp hm) with heq | hm
    · cases heq
      exact Or.inr hdest
    · exact Or.inl (List.mem_append_left _ hm)

/-- A node is asked for the first time, evaluates the request and passes it on. -/
lemma receive_first (h : Flood ov id F g) {dest sender : N} {req : Request N}
    {rest : List (Message N)} (hperm : g.inFlight.Perm (.ask dest req sender :: rest))
    (hdest : ¬g.Evaluated dest id)
    (hF : F dest → (req.passedOn dest (ov.neighbors dest)).MoreHops) :
    Flood ov id F (receive { g with inFlight := rest } (.ask dest req sender)) := by
  have hrest : ∀ m ∈ rest, m ∈ g.inFlight :=
    fun m hm => hperm.mem_iff.mpr (List.mem_cons_of_mem _ hm)
  have hmem : Message.ask dest req sender ∈ g.inFlight := hperm.mem_iff.mpr List.mem_cons_self
  obtain ⟨hid, hend, -⟩ := h.ask dest req sender hmem
  have hnew : req.uniqueId ∉ (g.node dest).knownRequests := by
    rw [hid, h.mem_known_iff]
    exact hdest
  obtain ⟨g', hg'⟩ : ∃ g', g' = receive { g with inFlight := rest } (.ask dest req sender) :=
    ⟨_, rfl⟩
  rw [← hg']
  rw [receive_ask_new (g := { g with inFlight := rest }) hend hnew] at hg'
  dsimp only at hg'
  rw [hid, h.untouched dest hdest] at hg'
  have heval : ∀ n, g'.Evaluated n id ↔ g.Evaluated n id ∨ n = dest := by
    intro n
    rw [hg', evaluated_concat (g := g)]
    simp [eq_comm]
  have hasked : ∀ n, g.Asked n id → g'.Asked n id := by
    rintro n (he | ⟨r, s, hm⟩)
    · exact Or.inl ((heval n).mpr (Or.inl he))
    · rcases List.mem_cons.mp (hperm.mem_iff.mp hm) with heq | hm
      · cases heq
        exact Or.inl ((heval dest).mpr (Or.inr rfl))
      · exact Or.inr ⟨r, s, by rw [hg']; exact List.mem_append_left _ hm⟩
  -- A neighbour that is not asked now is named in the list that the copy came with.
  have hpassed : (req.passedOn dest (ov.neighbors dest)).MoreHops →
      ∀ w ∈ ov.neighbors dest, g'.Asked w id := by
    intro hmore w hw
    cases hin : req.explorationList.unpack.isIn w with
    | true =>
        have hlisted := ExplorationList.isIn_of_isIn_unpack hin
        exact hasked w (h.listed dest req sender hmem w hlisted)
    | false =>
        refine Or.inr ⟨req.passedOn dest (ov.neighbors dest), dest, ?_⟩
        rw [hg']
        exact List.mem_append_right _ (mem_forwards.mpr ⟨hmore, w, hw, hin, rfl⟩)
  have hold : ∀ d r s, Message.ask d r s ∈ g'.inFlight → Message.ask d r s ∈ g.inFlight ∨
      (req.passedOn dest (ov.neighbors dest)).MoreHops ∧
        r = req.passedOn dest (ov.neighbors dest) ∧ s = dest := by
    intro d r s hm
    rw [hg'] at hm
    rcases List.mem_append.mp hm with hm | hm
    · exact Or.inl (hrest _ hm)
    · obtain ⟨hmore, w, -, -, heq⟩ := mem_forwards.mp hm
      cases heq
      exact Or.inr ⟨hmore, rfl, rfl⟩
  constructor
  · intro d r s hm
    rcases hold d r s hm with hm | ⟨-, rfl, rfl⟩
    · obtain ⟨hr, hre, hs⟩ := h.ask d r s hm
      exact ⟨hr, hre, hs.imp_left fun hs => (heval s).mpr (Or.inl hs)⟩
    · exact ⟨hid, hend, Or.inl ((heval s).mpr (Or.inr rfl))⟩
  · intro d u hm
    rw [hg'] at hm
    rcases List.mem_append.mp hm with hm | hm
    · exact (heval d).mpr (Or.inl (h.unregisterNode d u (hrest _ hm)))
    · obtain ⟨-, w, -, -, heq⟩ := mem_forwards.mp hm
      cases heq
  · intro n
    rw [heval]
    by_cases hn : n = dest
    · subst hn
      have hk : (g.node n).knownRequests = [] := by
        rcases h.known n with ⟨he, -⟩ | ⟨-, hk⟩
        · exact absurd he hdest
        · exact hk
      exact Or.inl ⟨Or.inr rfl, by simp [hg', SearchNode.saveRequest, hk, maxReqToSave]⟩
    · simpa [hg', hn] using h.known n
  · intro n hn
    rw [heval, not_or] at hn
    simpa [hg', hn.2] using h.untouched n hn.1
  · intro d r s hm n hn
    rcases hold d r s hm with hm | ⟨hmore, rfl, rfl⟩
    · exact hasked n (h.listed d r s hm n hn)
    · rcases ExplorationList.isIn_addListNode hn with hn | rfl | hn
      · have hlisted := ExplorationList.isIn_of_isIn_unpack hn
        exact hasked n (h.listed _ req sender hmem n hlisted)
      · exact Or.inl ((heval n).mpr (Or.inr rfl))
      · exact hpassed hmore n hn
  · intro n hn hFn w hw
    rcases (heval n).mp hn with hn | rfl
    · exact hasked w (h.passed n hn hFn w hw)
    · exact hpassed (hF hFn) w hw
  · intro n
    have hsplit : g'.evaluations n id = g.evaluations n id + if dest = n then 1 else 0 := by
      simp [hg', Grid.evaluations, List.countP_append]
    by_cases hn : dest = n
    · subst hn
      rw [hsplit, evaluations_eq_zero hdest]
      simp
    · simpa [hsplit, hn] using h.once n

end Flood

end Discovery
