/-
# The way back of a response

A discovery request carries the list of the nodes that it has come through.  A node that can
serve the request and finds more than one node on the list does not call the initiator: it
hands the response to the last node of the list, which takes itself off and goes on.

`insertNode` is documented to append a node unless it is the last one of the list already, and
tests the opposite: the list of a request never names any node but the first.
-/
import Mathlib.Data.List.Chain
import Mathlib.Data.List.Count

namespace Discovery

variable {N : Type*}

/-! ### The list -/

/-- `POPWayback` -/
structure POPWayback (N : Type*) where
  /-- `_lst_wb`: the nodes from the initiator on. -/
  lstWb : List N
deriving DecidableEq

/-- An element of a `POPBuffer`, as `POPWayback::Serialize` uses it. -/
inductive BufferItem (N : Type*) where
  /-- An `int`. -/
  | int (n : ℤ)
  /-- A `std::string`, here a node id. -/
  | string (s : N)
deriving DecidableEq

namespace POPWayback

/-- `POPWayback::isEmpty` -/
def isEmpty (wb : POPWayback N) : Bool := wb.lstWb.isEmpty

/-- `POPWayback::getNextNode`.  `back` on an empty list is undefined. -/
def getNextNode (wb : POPWayback N) : Option N := wb.lstWb.getLast?

/-- `POPWayback::deleteNextNode` -/
def deleteNextNode (wb : POPWayback N) : POPWayback N := ⟨wb.lstWb.dropLast⟩

/-- `POPWayback::isLastNode` -/
def isLastNode (wb : POPWayback N) : Bool := wb.lstWb.length == 1 || wb.lstWb.isEmpty

/-- `POPWayback::insertNode` -/
def insertNode [DecidableEq N] (wb : POPWayback N) (nodeId : N) : POPWayback N :=
  if wb.isEmpty then ⟨wb.lstWb ++ [nodeId]⟩
  else if wb.getNextNode = some nodeId then ⟨wb.lstWb ++ [nodeId]⟩
  else wb

/-- The loop of `Serialize` that packs: the elements are taken out of the list one by one. -/
def packElts : List N → List (BufferItem N) → POPWayback N × List (BufferItem N)
  | [], buf => (⟨[]⟩, buf)
  | elt :: lstWb, buf => packElts lstWb (buf ++ [.string elt])

/-- `POPWayback::Serialize` with `pack`: what is left of the list, and the buffer. -/
def pack (wb : POPWayback N) (buf : List (BufferItem N)) :
    POPWayback N × List (BufferItem N) :=
  packElts wb.lstWb (buf ++ [.int wb.lstWb.length])

/-- The loop of `Serialize` that unpacks. -/
def unPackElts : ℕ → List N → List (BufferItem N) →
    Option (POPWayback N × List (BufferItem N))
  | 0, lstWb, buf => some (⟨lstWb⟩, buf)
  | n + 1, lstWb, .string elt :: buf => unPackElts n (lstWb ++ [elt]) buf
  | _ + 1, _, _ => none

/-- `POPWayback::Serialize` without `pack`: the list, and what is left of the buffer. -/
def unPack : List (BufferItem N) → Option (POPWayback N × List (BufferItem N))
  | .int size :: buf => unPackElts size.toNat [] buf
  | _ => none

/-- The way back as the receiver of a call has it. -/
def received (wb : POPWayback N) : Option (POPWayback N) :=
  (unPack (wb.pack []).2).map Prod.fst

lemma packElts_eq (lstWb : List N) (buf : List (BufferItem N)) :
    packElts lstWb buf = (⟨[]⟩, buf ++ lstWb.map .string) := by
  induction lstWb generalizing buf with
  | nil => simp [packElts]
  | cons elt lstWb ih => simp [packElts, ih]

lemma unPackElts_map (vs lstWb : List N) (buf : List (BufferItem N)) :
    unPackElts vs.length lstWb (vs.map .string ++ buf) = some (⟨lstWb ++ vs⟩, buf) := by
  induction vs generalizing lstWb with
  | nil => simp [unPackElts]
  | cons v vs ih => simp [unPackElts, ih]

/-- What is packed is unpacked, whatever follows it in the buffer. -/
theorem unPack_pack (wb : POPWayback N) (buf : List (BufferItem N)) :
    unPack ((wb.pack []).2 ++ buf) = some (wb, buf) := by
  rw [pack, packElts_eq]
  simpa [unPack] using unPackElts_map wb.lstWb [] buf

@[simp]
lemma received_eq (wb : POPWayback N) : wb.received = some wb := by
  have h := unPack_pack wb []
  rw [List.append_nil] at h
  simp [received, h]

end POPWayback

/-! ### There and back -/

/-- The way back that `askResourcesDiscovery` at the node `self` passes on, as the next node
receives it. -/
def passOnWayBack [DecidableEq N] (wb : POPWayback N) (self : N) : Option (POPWayback N) :=
  (wb.insertNode self).received

/-- The way back of a request that has come through the nodes of the path, when it reaches the
next one. -/
def wayBackAfter [DecidableEq N] (path : List N) : Option (POPWayback N) :=
  path.foldlM passOnWayBack ⟨[]⟩

/-- An asynchronous call that carries a response. -/
inductive ResponseCall (N : Type*) where
  /-- `rerouteResponse` on a node. -/
  | rerouteResponse (node : N) (wb : POPWayback N)
  /-- `callbackResult` on a node. -/
  | callbackResult (node : N)
deriving DecidableEq

/-- `POPCSearchNode::rerouteResponse`: the one call that it makes. -/
def rerouteResponse (wb : POPWayback N) : Option (ResponseCall N) :=
  if wb.isLastNode then wb.getNextNode.map .callbackResult
  else do
    let nextNode ← wb.getNextNode
    let wb' ← wb.deleteNextNode.received
    some (.rerouteResponse nextNode wb')

/-- The answer in `POPCSearchNode::askResourcesDiscovery`: a response to the asker, rerouted if
there is more than one node on the way back. -/
def answer (asker : N) (wb : POPWayback N) : Option (ResponseCall N) :=
  if !wb.isLastNode then rerouteResponse wb else some (.callbackResult asker)

/-- What becomes of a call: the nodes that reroute the response, in their order, and the nodes
that it is delivered to. -/
inductive Route : ResponseCall N → List N → List N → Prop where
  /-- The response is delivered. -/
  | callbackResult (v : N) : Route (.callbackResult v) [] [v]
  /-- The response is handed on. -/
  | rerouteResponse {u : N} {wb : POPWayback N} {call : ResponseCall N} {us ds : List N}
      (hcall : Discovery.rerouteResponse wb = some call) (hroute : Route call us ds) :
      Route (.rerouteResponse u wb) (u :: us) ds

lemma rerouteResponse_singleton (v : N) :
    rerouteResponse ⟨[v]⟩ = some (.callbackResult v) := rfl

lemma rerouteResponse_concat {vs : List N} (hvs : vs ≠ []) (u : N) :
    rerouteResponse ⟨vs ++ [u]⟩ = some (.rerouteResponse u ⟨vs⟩) := by
  have hlast : POPWayback.isLastNode ⟨vs ++ [u]⟩ = false := by
    simp [POPWayback.isLastNode, hvs]
  simp [rerouteResponse, hlast, POPWayback.getNextNode, POPWayback.deleteNextNode]

/-- A response goes back over the nodes of its way back, from the last one on, and is delivered
once, to the first. -/
theorem exists_route (v : N) (vs : List N) :
    ∃ call, rerouteResponse ⟨v :: vs⟩ = some call ∧ Route call vs.reverse [v] := by
  induction vs using List.reverseRecOn with
  | nil => exact ⟨_, rerouteResponse_singleton v, .callbackResult v⟩
  | append_singleton vs u ih =>
      obtain ⟨call, hcall, hroute⟩ := ih
      refine ⟨_, rerouteResponse_concat (List.cons_ne_nil v vs) u, ?_⟩
      rw [List.reverse_concat]
      exact .rerouteResponse hcall hroute

/-- An answer takes the same way, if the first node on the way back is the asker. -/
theorem exists_answer_route (v : N) (vs : List N) :
    ∃ call, answer v ⟨v :: vs⟩ = some call ∧ Route call vs.reverse [v] := by
  cases vs with
  | nil => exact ⟨_, rfl, .callbackResult v⟩
  | cons u us =>
      have hlast : POPWayback.isLastNode ⟨v :: u :: us⟩ = false := by
        simp [POPWayback.isLastNode]
      rw [answer, hlast]
      exact exists_route v (u :: us)

/-! ### What the way back holds -/

variable [DecidableEq N]

lemma wayBackAfter_concat (path : List N) (u : N) :
    wayBackAfter (path ++ [u]) = (wayBackAfter path).bind fun wb => some (wb.insertNode u) := by
  simp [wayBackAfter, passOnWayBack, Option.bind_eq_bind]

/-- The way back holds the first node alone, once more for every time that the path comes back
to it. -/
lemma wayBackAfter_cons (v : N) (path : List N) :
    wayBackAfter (v :: path) = some ⟨List.replicate (path.count v + 1) v⟩ := by
  induction path using List.reverseRecOn with
  | nil => rfl
  | append_singleton path u ih =>
      rw [← List.cons_append, wayBackAfter_concat, ih]
      by_cases hu : v = u
      · subst hu
        simp [POPWayback.insertNode, POPWayback.getNextNode, POPWayback.isEmpty,
          List.replicate_succ']
      · have hcount : [u].count v = 0 := List.count_eq_zero.mpr (by simpa using hu)
        simp [POPWayback.insertNode, POPWayback.getNextNode, POPWayback.isEmpty, hu,
          List.replicate_succ', hcount]

/-- The way back does what it is for on a path from `v` through the nodes `vs` to a last node:
it names the nodes of the path, and a response of the last node goes back over them and is
delivered once, to `v`. -/
def WayBackHolds (v : N) (vs : List N) : Prop :=
  wayBackAfter (v :: vs) = some ⟨v :: vs⟩ ∧
    (∃ wb call, wayBackAfter (v :: vs) = some wb ∧ rerouteResponse wb = some call ∧
      Route call vs.reverse [v]) ∧
    ∃ wb call, wayBackAfter (v :: vs) = some wb ∧ answer v wb = some call ∧
      Route call vs.reverse [v]

/-- **Way back.**  On a path whose consecutive nodes are distinct the way back holds if and only
if the request has made a single hop. -/
theorem wayBackHolds_iff {v w : N} {vs : List N}
    (hpath : List.IsChain (· ≠ ·) (v :: vs ++ [w])) : WayBackHolds v vs ↔ vs = [] := by
  constructor
  · rintro ⟨hwb, -⟩
    cases vs with
    | nil => rfl
    | cons u us =>
        -- The second node of the path would be the first one again.
        rw [wayBackAfter_cons, Option.some.injEq, POPWayback.mk.injEq] at hwb
        have hu : u ∈ List.replicate ((u :: us).count v + 1) v := by
          rw [hwb]
          simp
        obtain ⟨hvu, -⟩ := List.isChain_cons_cons.mp hpath
        exact absurd (List.eq_of_mem_replicate hu).symm hvu
  · rintro rfl
    exact ⟨rfl, ⟨_, _, rfl, rfl, .callbackResult v⟩, ⟨_, _, rfl, rfl, .callbackResult v⟩⟩

/-- One hop. -/
theorem wayBackHolds_one_hop : WayBackHolds 0 [] :=
  (wayBackHolds_iff (w := 1) (by simp)).mpr rfl

/-- Over the nodes 0 and 1 to the node 2: the way back does not name the node 1. -/
theorem wayBack_lost :
    ¬∀ (v w : ℕ) (vs : List ℕ), List.IsChain (· ≠ ·) (v :: vs ++ [w]) →
      WayBackHolds v vs := by
  intro h
  obtain ⟨hwb, -⟩ := h 0 2 [1] (by simp)
  exact absurd hwb (by decide)

/-- The response reaches the initiator all the same, and once, on every path. -/
theorem delivered_once (v : N) (vs : List N) :
    ∃ wb call us, wayBackAfter (v :: vs) = some wb ∧ answer v wb = some call ∧
      Route call us [v] := by
  obtain ⟨call, hcall, hroute⟩ := exists_answer_route v (List.replicate (vs.count v) v)
  exact ⟨_, call, _, wayBackAfter_cons v vs, hcall, hroute⟩

end Discovery
