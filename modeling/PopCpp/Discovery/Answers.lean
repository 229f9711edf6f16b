/-
# The answers of a discovery

A node that is asked for resources and has them sends a response to the node that asks for them:
directly, or over the nodes on the way back that its copy of the request carries.  The flood of
the requests is that of `Discovery/Model.lean`; here the copies carry the asker and the way back,
and the responses travel beside them.  Whatever the requests and the order of the deliveries,
every positive check has one response, which is on its way or has been delivered, once and to
the node that launched the request.  Together with the coverage of a flood: when nothing is in
flight after a discovery without a limit on the hops, the asker has been told exactly once of
every node that had the resources, and of no other.
-/
import PopCpp.Discovery.Coverage
import PopCpp.Discovery.WayBack
import PopCpp.Lib.ListEdit
import PopCpp.Lib.Stuttering
import Mathlib.Data.Set.List

namespace Discovery.Answers

open Transition

variable {N : Type*}

/-! ### The grid with its responses -/

/-- An asynchronous call on its way. -/
inductive Packet (N : Type*) where
  /-- `askResourcesDiscovery` on the node `dest`. -/
  | ask (dest : N) (req : Request N) (asker sender : N) (wb : POPWayback N)
  /-- `UnregisterNode(url)` on the job manager of the node `dest`. -/
  | unregisterNode (dest url : N)
  /-- A call that carries the response of the node `found`. -/
  | response (call : ResponseCall N) (id : RequestId N) (found : N)

/-- A call of `callbackResult`. -/
structure Callback (N : Type*) where
  /-- The node that is called. -/
  receiver : N
  /-- `getReqUniqueId()` of the response. -/
  id : RequestId N
  /-- `getFoundNodeInfo()` of the response. -/
  found : N
deriving DecidableEq

/-- The grid: all search nodes, the calls in flight, and what has been done so far. -/
structure Net (N : Type*) where
  node : N → SearchNode N
  inFlight : List (Packet N)
  /-- The calls of `checkResource`, with what they returned. -/
  checks : List (Check N × Bool)
  ends : List (N × String)
  /-- The calls of `callbackResult`. -/
  results : List (Callback N)

/-- Nodes before any request. -/
def Net.start (node : N → SearchNode N) : Net N := ⟨node, [], [], [], []⟩

/-- What one node can do: its user launches a request, or a call reaches its node.  The result of
`checkResource`, if there is such a call, is `ok`. -/
inductive Action (N : Type*) where
  | launch (origin : N) (maxHops : ℤ) (popAppId : String) (endingSignal : Bool) (ok : Bool)
  | deliver (i : ℕ) (ok : Bool)
deriving DecidableEq

/-- A message of the flood with the asker and the way back. -/
def Packet.ofMessage (asker : N) (wb : POPWayback N) : Message N → Packet N
  | .ask dest req sender => .ask dest req asker sender wb
  | .unregisterNode dest url => .unregisterNode dest url

section handlers

variable [LinearOrder N]

/-- `POPCSearchNode::askResourcesDiscovery` at the node `self`. -/
def askResourcesDiscovery (g : Net N) (ok : Bool) (self : N) (req : Request N) (asker sender : N)
    (wb : POPWayback N) : Net N :=
  let neighbors := (g.node self).neighborsList
  let oldEL := req.explorationList
  let req' := req.addNodeToExplorationList self neighbors
  if req.endingSignal then
    { g with
      inFlight := g.inFlight ++ (forwards self neighbors oldEL req').map (.ofMessage asker wb)
      ends := g.ends ++ [(self, req.popAppId)] }
  else if (g.node self).knownRequests.contains req.uniqueId then
    { g with
      node := Function.update g.node self ((g.node self).removeNeighbor sender)
      inFlight := g.inFlight ++ [.unregisterNode sender self] }
  else
    let responses := if ok then
        (answer asker wb).toList.map fun call => .response call req.uniqueId self
      else []
    let copies := (passOnWayBack wb self).toList.flatMap fun wb =>
      (forwards self neighbors oldEL req').map (.ofMessage asker wb)
    { g with
      node := Function.update g.node self ((g.node self).saveRequest req.uniqueId)
      inFlight := g.inFlight ++ responses ++ copies
      checks := g.checks ++ [(⟨self, req.uniqueId, sender⟩, ok)] }

/-- A call reaches its node. -/
def receive (g : Net N) (ok : Bool) : Packet N → Net N
  | .ask dest req asker sender wb =>
      askResourcesDiscovery g ok dest
        { req with explorationList := req.explorationList.unpack } asker sender wb
  | .unregisterNode dest url =>
      { g with node := Function.update g.node dest ((g.node dest).removeNeighbor url) }
  | .response (.callbackResult receiver) id found =>
      { g with results := g.results ++ [⟨receiver, id, found⟩] }
  | .response (.rerouteResponse _ wb) id found =>
      { g with
        inFlight := g.inFlight ++
          (rerouteResponse wb).toList.map fun call => .response call id found }

/-- `getUID` and `launchDiscovery`: the request gets the next id of its node, an empty way back,
and is first asked of the node itself. -/
def launchDiscovery (g : Net N) (origin : N) (maxHops : ℤ) (popAppId : String)
    (endingSignal ok : Bool) : Net N :=
  let clock := (g.node origin).logicalClock
  askResourcesDiscovery
    { g with
      node := Function.update g.node origin { g.node origin with logicalClock := clock + 1 } }
    ok origin ⟨(origin, clock), maxHops, popAppId, endingSignal, []⟩ origin origin ⟨[]⟩

/-- One step of the grid. -/
def step (g : Net N) : Action N → Option (Net N)
  | .launch origin maxHops popAppId endingSignal ok =>
      some (launchDiscovery g origin maxHops popAppId endingSignal ok)
  | .deliver i ok =>
      match g.inFlight[i]? with
      | some m => some (receive { g with inFlight := g.inFlight.eraseIdx i } ok m)
      | none => none

end handlers

/-! ### Where the responses are -/

/-- The positive checks. -/
def accepted (checks : List (Check N × Bool)) : List (RequestId N × N) :=
  checks.filterMap fun c => if c.2 then some (c.1.id, c.1.node) else none

/-- The response that a call carries. -/
def Packet.found : Packet N → Option (RequestId N × N)
  | .response _ id found => some (id, found)
  | _ => none

/-- The responses in flight. -/
def onTheWay (packets : List (Packet N)) : List (RequestId N × N) := packets.filterMap Packet.found

/-- The responses that have been delivered. -/
def delivered (results : List (Callback N)) : List (RequestId N × N) :=
  results.map fun c => (c.id, c.found)

/-- The call goes to the node, now or after it has been rerouted. -/
def HomeTo (v : N) : ResponseCall N → Prop
  | .callbackResult u => u = v
  | .rerouteResponse _ wb => ∃ k, wb = ⟨List.replicate (k + 1) v⟩

/-- A copy knows its asker, and its way back names nobody else; a response goes to its asker. -/
def Packet.Homing : Packet N → Prop
  | .ask _ req asker _ wb =>
      asker = req.uniqueId.1 ∧
        (req.endingSignal = false → ∃ k, wb = ⟨List.replicate (k + 1) asker⟩)
  | .unregisterNode _ _ => True
  | .response call id _ => HomeTo id.1 call

lemma isLastNode_replicate (v : N) (k : ℕ) :
    POPWayback.isLastNode ⟨List.replicate k v⟩ = decide (k ≤ 1) := by
  rcases k with _ | _ | k <;> simp [POPWayback.isLastNode]

lemma exists_rerouteResponse (v : N) (k : ℕ) :
    ∃ call, rerouteResponse ⟨List.replicate (k + 1) v⟩ = some call ∧ HomeTo v call := by
  cases k with
  | zero => exact ⟨_, rerouteResponse_singleton v, rfl⟩
  | succ k =>
      have hne : List.replicate (k + 1) v ≠ [] := by simp
      rw [List.replicate_succ']
      exact ⟨_, rerouteResponse_concat hne v, k, rfl⟩

lemma exists_answer (v : N) (k : ℕ) :
    ∃ call, answer v ⟨List.replicate k v⟩ = some call ∧ HomeTo v call := by
  rw [answer, isLastNode_replicate]
  by_cases hk : k ≤ 1
  · exact ⟨.callbackResult v, by simp [hk], rfl⟩
  · obtain ⟨k, rfl⟩ : ∃ j, k = j + 1 := ⟨k - 1, by omega⟩
    obtain ⟨call, hcall, hhome⟩ := exists_rerouteResponse v k
    exact ⟨call, by simpa [hk] using hcall, hhome⟩

/-- The way back stays one of the asker alone, who is the first to pass the request on. -/
lemma exists_passOnWayBack [DecidableEq N] {v self : N} {k : ℕ} (h : k = 0 → self = v) :
    ∃ k', passOnWayBack ⟨List.replicate k v⟩ self = some ⟨List.replicate (k' + 1) v⟩ := by
  rw [passOnWayBack, POPWayback.received_eq]
  cases k with
  | zero => exact ⟨0, by simp [POPWayback.insertNode, POPWayback.isEmpty, h rfl]⟩
  | succ k =>
      by_cases hself : v = self
      · refine ⟨k + 1, ?_⟩
        simp [POPWayback.insertNode, POPWayback.isEmpty, POPWayback.getNextNode, hself,
          List.replicate_succ']
      · refine ⟨k, ?_⟩
        simp [POPWayback.insertNode, POPWayback.isEmpty, POPWayback.getNextNode,
          List.getLast?_replicate, hself]

/-! ### Every response is somewhere -/

/-- Every positive check has one response, which is in flight or has been delivered, to the node
that has asked. -/
structure Sound (g : Net N) : Prop where
  homing : ∀ p ∈ g.inFlight, p.Homing
  home : ∀ c ∈ g.results, c.receiver = c.id.1
  kept : (accepted g.checks).Perm (onTheWay g.inFlight ++ delivered g.results)

@[simp] lemma onTheWay_append (l l' : List (Packet N)) :
    onTheWay (l ++ l') = onTheWay l ++ onTheWay l' := List.filterMap_append ..

@[simp] lemma onTheWay_ofMessage (asker : N) (wb : POPWayback N) (ms : List (Message N)) :
    onTheWay (ms.map (.ofMessage asker wb)) = [] := by
  refine List.filterMap_eq_nil_iff.mpr fun p hp => ?_
  obtain ⟨m, -, rfl⟩ := List.mem_map.mp hp
  cases m <;> rfl

variable [LinearOrder N] {g g' : Net N}

lemma homing_forwards {self asker : N} {neighbors : List N} {oldEL : ExplorationList N}
    {req : Request N} {wb : POPWayback N} (hasker : asker = req.uniqueId.1)
    (hwb : req.endingSignal = false → ∃ k, wb = ⟨List.replicate (k + 1) asker⟩) {p : Packet N}
    (hp : p ∈ (forwards self neighbors oldEL (req.addNodeToExplorationList self neighbors)).map
      (.ofMessage asker wb)) : p.Homing := by
  obtain ⟨m, hm, rfl⟩ := List.mem_map.mp hp
  obtain ⟨-, n, -, -, rfl⟩ := mem_forwards.mp hm
  exact ⟨hasker, hwb⟩

/-- A node that is asked sends one response if it has the resources, and none otherwise. -/
lemma Sound.ask (h : Sound g) (ok : Bool) {self asker sender : N} {req : Request N}
    {wb : POPWayback N} (hasker : asker = req.uniqueId.1)
    (hwb : req.endingSignal = false →
      ∃ k, wb = ⟨List.replicate k asker⟩ ∧ (k = 0 → self = asker)) :
    Sound (askResourcesDiscovery g ok self req asker sender wb) := by
  by_cases hend : req.endingSignal = true
  · -- the end of an application has no responses
    rw [askResourcesDiscovery, if_pos hend]
    refine ⟨fun p hp => ?_, h.home, ?_⟩
    · rcases List.mem_append.mp hp with hp | hp
      · exact h.homing p hp
      · exact homing_forwards hasker (fun hfalse => absurd (hend.symm.trans hfalse) (by decide)) hp
    · rw [onTheWay_append, onTheWay_ofMessage, List.append_nil]
      exact h.kept
  by_cases hknown : req.uniqueId ∈ (g.node self).knownRequests
  · rw [askResourcesDiscovery, if_neg hend, if_pos (List.contains_iff_mem.mpr hknown)]
    refine ⟨fun p hp => ?_, h.home, ?_⟩
    · rcases List.mem_append.mp hp with hp | hp
      · exact h.homing p hp
      · obtain rfl := List.mem_singleton.mp hp
        trivial
    · rw [onTheWay_append]
      exact (List.append_nil (onTheWay g.inFlight)).symm ▸ h.kept
  · rw [askResourcesDiscovery, if_neg hend, if_neg (mt List.contains_iff_mem.mp hknown)]
    have hend' : req.endingSignal = false := by simpa using hend
    obtain ⟨k, rfl, hself⟩ := hwb hend'
    obtain ⟨call, hcall, hhome⟩ := exists_answer asker k
    obtain ⟨k', hpass⟩ := exists_passOnWayBack hself
    rw [hcall, hpass, Option.toList_some, Option.toList_some, List.map_singleton,
      List.flatMap_singleton]
    refine ⟨fun p hp => ?_, h.home, ?_⟩
    · rcases List.mem_append.mp hp with hp | hp
      · rcases List.mem_append.mp hp with hp | hp
        · exact h.homing p hp
        · -- the response
          cases ok with
          | false => exact absurd hp List.not_mem_nil
          | true =>
              obtain rfl := List.mem_singleton.mp hp
              rw [hasker] at hhome
              exact hhome
      · exact homing_forwards hasker (fun _ => ⟨k', rfl⟩) hp
    · have hchecks : accepted (g.checks ++ [(⟨self, req.uniqueId, sender⟩, ok)]) =
          accepted g.checks ++ if ok then [(req.uniqueId, self)] else [] := by
        cases ok <;> simp [accepted]
      have hresponse : onTheWay (if ok then [Packet.response call req.uniqueId self] else []) =
          if ok then [(req.uniqueId, self)] else [] := by
        cases ok <;> rfl
      show (accepted (g.checks ++ _)).Perm (onTheWay (_ ++ _ ++ _) ++ delivered g.results)
      rw [hchecks, onTheWay_append, onTheWay_append, onTheWay_ofMessage, List.append_nil,
        hresponse]
      refine (h.kept.append_right _).trans ?_
      rw [List.append_assoc, List.append_assoc]
      exact List.perm_append_comm.append_left _

/-- A delivery takes one call out of those in flight and hands it to its node. -/
lemma step_deliver {i : ℕ} {ok : Bool} (h : step g (.deliver i ok) = some g') :
    ∃ p rest, g.inFlight[i]? = some p ∧ g.inFlight.Perm (p :: rest) ∧
      g' = receive { g with inFlight := rest } ok p := by
  simp only [step] at h
  cases hp : g.inFlight[i]? with
  | none => simp [hp] at h
  | some p =>
      obtain ⟨hi, rfl⟩ := List.getElem?_eq_some_iff.mp hp
      refine ⟨_, g.inFlight.eraseIdx i, rfl, (List.getElem_cons_eraseIdx_perm hi).symm, ?_⟩
      simpa [hp] using h.symm

lemma Sound.deliver (h : Sound g) {i : ℕ} {ok : Bool} (hstep : step g (.deliver i ok) = some g') :
    Sound g' := by
  obtain ⟨p, rest, -, hperm, rfl⟩ := step_deliver hstep
  have hp : p.Homing := h.homing p (hperm.mem_iff.mpr List.mem_cons_self)
  have hrest : ∀ q ∈ rest, q.Homing := fun q hq =>
    h.homing q (hperm.mem_iff.mpr (List.mem_cons_of_mem _ hq))
  have hkept : (accepted g.checks).Perm
      (p.found.toList ++ (onTheWay rest ++ delivered g.results)) := by
    rw [← List.append_assoc]
    refine h.kept.trans (List.Perm.append_right _ ?_)
    refine (hperm.filterMap Packet.found).trans ?_
    cases hfound : p.found <;> simp [onTheWay, hfound]
  cases p with
  | ask dest req asker sender wb =>
      have hsound : Sound { g with inFlight := rest } := ⟨hrest, h.home, hkept⟩
      refine hsound.ask ok hp.1 fun hend => ?_
      obtain ⟨k, rfl⟩ := hp.2 hend
      exact ⟨k + 1, rfl, fun hk => absurd hk (Nat.succ_ne_zero k)⟩
  | unregisterNode dest url => exact ⟨hrest, h.home, hkept⟩
  | response call id found =>
      cases call with
      | callbackResult receiver =>
          refine ⟨hrest, fun c hc => ?_, ?_⟩
          · rcases List.mem_append.mp hc with hc | hc
            · exact h.home c hc
            · obtain rfl := List.mem_singleton.mp hc
              exact hp
          · show (accepted g.checks).Perm (onTheWay rest ++ delivered (g.results ++ [_]))
            rw [delivered, List.map_append, ← List.append_assoc]
            exact hkept.trans List.perm_append_comm
      | rerouteResponse u wb =>
          obtain ⟨k, rfl⟩ := hp
          obtain ⟨call, hcall, hhome⟩ := exists_rerouteResponse id.1 k
          rw [receive, hcall]
          refine ⟨fun q hq => ?_, h.home, ?_⟩
          · rcases List.mem_append.mp hq with hq | hq
            · exact hrest q hq
            · obtain rfl := List.mem_singleton.mp hq
              exact hhome
          · show (accepted g.checks).Perm (onTheWay (rest ++ [_]) ++ delivered g.results)
            rw [onTheWay_append, List.append_assoc]
            exact hkept.trans (List.perm_append_comm_assoc ..)

omit [LinearOrder N] in
lemma sound_start (node : N → SearchNode N) : Sound (Net.start node) :=
  ⟨fun _ hp => absurd hp List.not_mem_nil, fun _ hc => absurd hc List.not_mem_nil, .refl _⟩

lemma Sound.step (h : Sound g) {a : Action N} (hstep : step g a = some g') : Sound g' := by
  cases a with
  | deliver i ok => exact h.deliver hstep
  | launch origin maxHops popAppId endingSignal ok =>
      obtain rfl := Option.some.inj hstep
      have hsound : Sound { g with
          node := Function.update g.node origin
            { g.node origin with logicalClock := (g.node origin).logicalClock + 1 } } :=
        ⟨h.homing, h.home, h.kept⟩
      exact hsound.ask ok rfl fun _ => ⟨0, rfl, fun _ => rfl⟩

lemma sound_of_run {node : N → SearchNode N} {as : List (Action N)}
    (hrun : run step (Net.start node) as = some g) : Sound g :=
  Reachable.invariant ⟨as, hrun⟩ (sound_start node) fun _ _ _ _ h hstep => h.step hstep

/-- **No response is lost, doubled or sent to another node.**  Whatever requests have been
launched and whatever has been delivered, the responses in flight and those that have been
delivered are those of the positive checks, one for each; and every response has been delivered to
the node that launched its request. -/
theorem responses_conserved (node : N → SearchNode N) (as : List (Action N)) (g : Net N)
    (hrun : run step (Net.start node) as = some g) :
    (accepted g.checks).Perm (onTheWay g.inFlight ++ delivered g.results) ∧
      ∀ c ∈ g.results, c.receiver = c.id.1 :=
  ⟨(sound_of_run hrun).kept, (sound_of_run hrun).home⟩

/-- Two discoveries from the nodes `o` and `o'`, with some responses on their way. -/
def twoDiscoveries (o o' : N) : List (Action N) :=
  [.launch o unlimitedHops "app" false true, .deliver 1 true, .launch o' 3 "app" false false,
    .deliver 0 true, .deliver 3 true, .deliver 4 true]

theorem responses_conserved_twoDiscoveries :
    ∃ g, run step (Net.start (detour.grid fun _ => 0).node) (twoDiscoveries 0 4) = some g ∧
      g.results = [⟨0, (0, 0), 0⟩] ∧ onTheWay g.inFlight = [((0, 0), 1), ((4, 0), 3), ((4, 0), 5)] ∧
      (accepted g.checks).Perm (onTheWay g.inFlight ++ delivered g.results) ∧
      ∀ c ∈ g.results, c.receiver = c.id.1 := by
  obtain ⟨g, hrun, hresults, honTheWay⟩ :
      ∃ g, run step (Net.start (detour.grid fun _ => 0).node) (twoDiscoveries 0 4) = some g ∧
        g.results = [⟨0, (0, 0), 0⟩] ∧
        onTheWay g.inFlight = [((0, 0), 1), ((4, 0), 3), ((4, 0), 5)] :=
    ⟨_, rfl, by decide, by decide⟩
  exact ⟨g, hrun, hresults, honTheWay, responses_conserved _ (twoDiscoveries 0 4) g hrun⟩

/-! ### The flood behind the responses -/

/-- A call of the flood, without the asker and the way back. -/
def Packet.message : Packet N → Option (Message N)
  | .ask dest req _ sender _ => some (.ask dest req sender)
  | .unregisterNode dest url => some (.unregisterNode dest url)
  | .response .. => none

/-- The grid without the responses. -/
def Net.forget (g : Net N) : Grid N where
  node := g.node
  inFlight := g.inFlight.filterMap Packet.message
  checks := g.checks.map Prod.fst
  ends := g.ends

omit [LinearOrder N] in
@[simp] lemma filterMap_message_ofMessage (asker : N) (wb : POPWayback N) (ms : List (Message N)) :
    (ms.map (.ofMessage asker wb)).filterMap Packet.message = ms := by
  induction ms with
  | nil => rfl
  | cons m ms ih =>
      have hm : (Packet.ofMessage asker wb m).message = some m := by cases m <;> rfl
      rw [List.map_cons, List.filterMap_cons_some hm, ih]

omit [LinearOrder N] in
lemma filterMap_message_response (calls : List (ResponseCall N)) (id : RequestId N) (found : N) :
    (calls.map fun call => Packet.response call id found).filterMap Packet.message = [] := by
  refine List.filterMap_eq_nil_iff.mpr fun p hp => ?_
  obtain ⟨call, -, rfl⟩ := List.mem_map.mp hp
  rfl

/-- Without the responses a node that is asked does what it does in the flood. -/
lemma forget_ask (g : Net N) (ok : Bool) (self : N) (req : Request N) (asker sender : N)
    (wb : POPWayback N) :
    (askResourcesDiscovery g ok self req asker sender wb).forget =
      Discovery.askResourcesDiscovery g.forget self req sender := by
  rw [askResourcesDiscovery, Discovery.askResourcesDiscovery]
  by_cases hend : req.endingSignal = true
  · rw [if_pos hend, if_pos hend]
    simp only [Net.forget, List.filterMap_append, filterMap_message_ofMessage]
  by_cases hknown : req.uniqueId ∈ (g.node self).knownRequests
  · rw [if_neg hend, if_neg hend, if_pos (List.contains_iff_mem.mpr hknown),
      if_pos (show _ ∈ (g.forget.node self).knownRequests from hknown)]
    simp only [Net.forget, List.filterMap_append]
    rfl
  · rw [if_neg hend, if_neg hend, if_neg (mt List.contains_iff_mem.mp hknown),
      if_neg (show _ ∉ (g.forget.node self).knownRequests from hknown)]
    -- a way back can always be packed and unpacked
    rw [passOnWayBack, POPWayback.received_eq, Option.toList_some, List.flatMap_singleton]
    have hresponses : (if ok = true then (answer asker wb).toList.map fun call =>
        Packet.response call req.uniqueId self else []).filterMap Packet.message = [] := by
      split_ifs
      · exact filterMap_message_response _ _ _
      · rfl
    simp only [Net.forget, List.filterMap_append, filterMap_message_ofMessage, hresponses,
      List.append_nil, List.map_append, List.map_cons, List.map_nil]

lemma forget_receive_of_some {g : Net N} {p : Packet N} {m : Message N} (ok : Bool)
    (hp : p.message = some m) : (receive g ok p).forget = Discovery.receive g.forget m := by
  cases p with
  | ask dest req asker sender wb =>
      obtain rfl := Option.some.inj hp
      exact forget_ask ..
  | unregisterNode dest url =>
      obtain rfl := Option.some.inj hp
      rfl
  | response call id found => exact absurd hp (Option.some_ne_none _).symm

lemma forget_receive_of_none {g : Net N} {p : Packet N} (ok : Bool) (hp : p.message = none) :
    (receive g ok p).forget = g.forget := by
  cases p with
  | ask dest req asker sender wb => exact absurd hp (Option.some_ne_none _)
  | unregisterNode dest url => exact absurd hp (Option.some_ne_none _)
  | response call id found =>
      cases call with
      | callbackResult receiver => rfl
      | rerouteResponse u wb =>
          simp only [receive, Net.forget, List.filterMap_append, filterMap_message_response,
            List.append_nil]

/-- A step is one of the flood, or moves a response and leaves the flood as it is. -/
lemma forget_deliver {i : ℕ} {ok : Bool} (hstep : step g (.deliver i ok) = some g') :
    g'.forget = g.forget ∨ ∃ j, Discovery.step g.forget (.deliver j) = some g'.forget := by
  cases hp : g.inFlight[i]? with
  | none => simp [step, hp] at hstep
  | some p =>
      obtain rfl : receive { g with inFlight := g.inFlight.eraseIdx i } ok p = g' := by
        simpa [step, hp] using hstep
      cases hm : p.message with
      | none =>
          refine .inl ((forget_receive_of_none ok hm).trans ?_)
          simp only [Net.forget, ListEdit.filterMap_eraseIdx_of_none hp hm]
      | some m =>
          obtain ⟨j, hj, herase⟩ := ListEdit.filterMap_eraseIdx_of_some hp hm
          refine .inr ⟨j, ?_⟩
          rw [forget_receive_of_some ok hm]
          simp only [Discovery.step, Net.forget, hj, herase]

/-! ### A discovery without a limit on the hops -/

/-- The nodes of an overlay before any request, with their clocks. -/
def Net.ofOverlay (ov : Overlay N) (clock : N → ℕ) : Net N := .start (ov.grid clock).node

/-- The launch of a discovery, and deliveries with whatever `checkResource` returns. -/
def discovery (o : N) (popAppId : String) (ok : Bool) (ds : List (ℕ × Bool)) : List (Action N) :=
  .launch o unlimitedHops popAppId false ok :: ds.map fun d => .deliver d.1 d.2

variable {ov : Overlay N} {clock : N → ℕ} {o : N} {popAppId : String}

/-- Behind a discovery with its responses is one without. -/
lemma exists_flood {ok : Bool} {ds : List (ℕ × Bool)}
    (hrun : run step (Net.ofOverlay ov clock) (discovery o popAppId ok ds) = some g) :
    ∃ js : List ℕ, run Discovery.step (ov.grid clock)
      (.launch o unlimitedHops popAppId false :: js.map .deliver) = some g.forget := by
  obtain ⟨g₁, hg₁, hrun⟩ := run_cons_eq_some.mp hrun
  obtain rfl := Option.some.inj hg₁
  obtain ⟨bs, hbs, hflood⟩ : ∃ bs : List (Discovery.Action N), (∀ b ∈ bs, ∃ j, .deliver j = b) ∧
      run Discovery.step (launchDiscovery (Net.ofOverlay ov clock) o unlimitedHops popAppId false
        ok).forget bs = some g.forget := by
    refine exists_run_of_stuttering (P := fun a => ∃ i ok, a = .deliver i ok)
      (fun s a t ha hst => ?_) (fun a ha => ?_) hrun
    · obtain ⟨i, ok, rfl⟩ := ha
      exact (forget_deliver hst).imp id fun ⟨j, hj⟩ => ⟨_, ⟨j, rfl⟩, hj⟩
    · obtain ⟨d, -, rfl⟩ := List.mem_map.mp ha
      exact ⟨_, _, rfl⟩
  obtain ⟨js, rfl⟩ : bs ∈ Set.range (List.map Discovery.Action.deliver) := by
    rw [Set.range_list_map]
    exact hbs
  refine ⟨js, run_cons_eq_some.mpr ⟨_, ?_, hflood⟩⟩
  rw [launchDiscovery, forget_ask]
  rfl

/-- Once no copy is in flight, every node has evaluated the request. -/
lemma evaluations_eq_one_of_quiet (hconn : ov.graph.Preconnected) {js : List ℕ} {f : Grid N}
    (hrun : run Discovery.step (ov.grid clock)
      (.launch o unlimitedHops popAppId false :: js.map .deliver) = some f)
    (hquiet : f.Quiet) (n : N) : f.evaluations n (o, clock o) = 1 := by
  have hflood := (unlimitedFlood_of_run hrun).flood
  obtain ⟨c, hc, rfl, hid⟩ : f.Evaluated n (o, clock o) :=
    hconn.mem_of_closed (S := fun n => f.Evaluated n (o, clock o)) (evaluated_origin hrun)
      (fun u v hu hadj => Flood.evaluated_of_asked hquiet (hflood.passed u hu trivial v hadj.2)) n
  exact le_antisymm (hflood.once _) (List.countP_pos_iff.mpr ⟨c, hc, by simp [hid]⟩)

lemma count_accepted (checks : List (Check N × Bool)) (id : RequestId N) (n : N) :
    (accepted checks).count (id, n) =
      checks.countP fun c => (c.1.node == n && c.1.id == id) && c.2 := by
  rw [List.count, accepted, List.countP_filterMap]
  refine List.countP_congr fun c _ => ?_
  rcases c with ⟨c, _ | _⟩ <;> simp [and_comm]

lemma Sound.count_delivered (h : Sound g) (id : RequestId N) (n : N) :
    (delivered g.results).count (id, n) = g.results.count ⟨id.1, id, n⟩ := by
  rw [List.count, delivered, List.countP_map, List.count]
  refine List.countP_congr fun c hc => ?_
  have hhome := h.home c hc
  rcases c with ⟨receiver, id', found⟩
  obtain rfl : receiver = id'.1 := hhome
  simp only [Function.comp_apply, beq_iff_eq, Prod.mk.injEq, Callback.mk.injEq]
  exact ⟨fun ⟨hid, hn⟩ => ⟨hid ▸ rfl, hid, hn⟩, And.right⟩

/-- **The asker is told of every node that has the resources, once.**  When nothing is in flight
after a discovery without a limit on the hops over a connected overlay, every node has checked its
resources once, and the node that launched the discovery has been called back once by each node
whose check was positive and by no other. -/
theorem asker_told_once (hconn : ov.graph.Preconnected) (ok : Bool) (ds : List (ℕ × Bool))
    (g : Net N)
    (hrun : run step (Net.ofOverlay ov clock) (discovery o popAppId ok ds) = some g)
    (hdone : g.inFlight = []) (n : N) :
    g.checks.countP (fun c => c.1.node == n && c.1.id == (o, clock o)) = 1 ∧
      g.results.count ⟨o, (o, clock o), n⟩ =
        g.checks.countP fun c => (c.1.node == n && c.1.id == (o, clock o)) && c.2 := by
  constructor
  · obtain ⟨js, hflood⟩ := exists_flood hrun
    have hquiet : g.forget.Quiet := by
      intro dest req sender hm
      simp [Net.forget, hdone] at hm
    have hone := evaluations_eq_one_of_quiet hconn hflood hquiet n
    rw [Grid.evaluations] at hone
    rw [← hone]
    show _ = (g.checks.map Prod.fst).countP _
    rw [List.countP_map]
    rfl
  · have hsound := sound_of_run hrun
    have hkept := hsound.kept
    rw [hdone] at hkept
    rw [← count_accepted, hkept.count_eq]
    exact (hsound.count_delivered (o, clock o) n).symm

/-- First in, first out over the detour; every other check is positive. -/
theorem asker_told_once_detour :
    ∃ g, run step (Net.ofOverlay detour fun _ => 0)
        (discovery 0 "app" true ((List.range 12).map fun i => (0, i % 2 == 0))) = some g ∧
      g.results.map Callback.found = [0, 2, 5] ∧
      ∀ n, g.checks.countP (fun c => c.1.node == n && c.1.id == (0, 0)) = 1 ∧
        g.results.count ⟨0, (0, 0), n⟩ =
          g.checks.countP fun c => (c.1.node == n && c.1.id == (0, 0)) && c.2 := by
  obtain ⟨g, hrun, hdone, hfound⟩ : ∃ g, run step (Net.ofOverlay detour fun _ => 0)
      (discovery 0 "app" true ((List.range 12).map fun i => (0, i % 2 == 0))) = some g ∧
      g.inFlight.length = 0 ∧ g.results.map Callback.found = [0, 2, 5] :=
    ⟨_, rfl, by decide, by decide⟩
  exact ⟨g, hrun, hfound, asker_told_once detour_preconnected true _ g hrun
    (List.eq_nil_of_length_eq_zero hdone)⟩

end Discovery.Answers
