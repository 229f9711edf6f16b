/-
# The resource discovery of the search nodes

Every machine of the grid runs a `POPCSearchNode`.  A request for resources starts at one of
them and is flooded over the overlay of neighbour lists: a node that is asked for the first
time evaluates the request and passes it on to its neighbours, except to those named in the
exploration list it came with; a node that is asked a second time cuts the link the copy came
over, on its own side at once and on the other side by an asynchronous `UnregisterNode`.

Messages are delivered in any order, and each is handled in one step: `askResourcesDiscovery` is a
`seq` method.  `launchDiscovery` is not: it is `conc`, calls `askResourcesDiscovery` of its own node
directly and then waits for the answers.  What it does up to the end of that call is taken as
one step too, as if no other handler of its node ran meanwhile.  What a node answers to the asker
has no influence on the flood and is left out.
-/
import Mathlib.Data.List.Basic
import Mathlib.Data.Int.Order.Basic
import Mathlib.Logic.Function.Basic
import Mathlib.Combinatorics.SimpleGraph.Basic
import PopCpp.Lib.Transition

namespace Discovery

variable {N : Type*}

/-! ### Exploration lists -/

/-- `NEIGHBORSPATH`: how many neighbour lists an exploration list keeps. -/
def neighborsPath : ℕ := 5

/-- `MAXREQTOSAVE`: how many request ids a node remembers. -/
def maxReqToSave : ℕ := 10

/-- `UNLIMITED_HOPS` -/
def unlimitedHops : ℤ := -20

/-- `explorationList`: a map from node ids to the neighbours of that node, as the list of its
entries in the order of the keys. -/
abbrev ExplorationList (N : Type*) := List (N × List N)

namespace ExplorationList

/-- `std::map::insert`: an entry that is there is kept. -/
def insert [LinearOrder N] (nodeId : N) (neighbors : List N) :
    ExplorationList N → ExplorationList N
  | [] => [(nodeId, neighbors)]
  | e :: el =>
      if nodeId < e.1 then (nodeId, neighbors) :: e :: el
      else if nodeId = e.1 then e :: el
      else e :: insert nodeId neighbors el

/-- Clear the first neighbour list that is not empty (the last one that the reverse iteration
of `addListNode` meets). -/
def clearFirst : ExplorationList N → ExplorationList N
  | [] => []
  | e :: el => if e.2.isEmpty then e :: clearFirst el else (e.1, []) :: el

/-- `crtNeighborsPath`: the number of neighbour lists that are not empty. -/
def crtNeighborsPath (el : ExplorationList N) : ℕ := el.countP fun e => !e.2.isEmpty

/-- `ExplorationList::addListNode` -/
def addListNode [LinearOrder N] (el : ExplorationList N) (nodeId : N) (neighbors : List N) :
    ExplorationList N :=
  let el' := insert nodeId neighbors el
  if crtNeighborsPath el' > neighborsPath then clearFirst el' else el'

/-- `ExplorationList::isIn` -/
def isIn [DecidableEq N] (el : ExplorationList N) (nodeId : N) : Bool :=
  el.any fun e => nodeId == e.1 || e.2.contains nodeId

/-- `ExplorationList::Serialize` at the receiver: the entries are added again one by one. -/
def unpack [LinearOrder N] (el : ExplorationList N) : ExplorationList N :=
  el.foldl (fun acc e => addListNode acc e.1 e.2) []

end ExplorationList

/-! ### Requests, nodes and messages -/

/-- `Request::_uniqueId`, made by `getUID` from the id of the node and its logical clock. -/
abbrev RequestId (N : Type*) := N × ℕ

/-- `Request`, with the fields that steer its way through the overlay. -/
structure Request (N : Type*) where
  /-- `_uniqueId` -/
  uniqueId : RequestId N
  /-- `_maxHops` -/
  maxHops : ℤ
  /-- `_popappid` -/
  popAppId : String
  /-- `_endingSignal`: the request announces the end of an application. -/
  endingSignal : Bool
  /-- `explorationList` -/
  explorationList : ExplorationList N
deriving DecidableEq

/-- `Request::addNodeToExplorationList` -/
def Request.addNodeToExplorationList [LinearOrder N] (req : Request N) (nodeId : N)
    (neighbors : List N) : Request N :=
  { req with
    explorationList := req.explorationList.addListNode nodeId neighbors
    maxHops := if req.maxHops ≠ unlimitedHops then req.maxHops - 1 else req.maxHops }

/-- `req.getMaxHops() >= 0 || req.getMaxHops() == UNLIMITED_HOPS` -/
def Request.MoreHops (req : Request N) : Prop := req.maxHops ≥ 0 ∨ req.maxHops = unlimitedHops

instance (req : Request N) : Decidable req.MoreHops :=
  inferInstanceAs (Decidable (_ ∨ _))

/-- `POPCSearchNode`, with the fields that the flood reads or writes. -/
structure SearchNode (N : Type*) where
  /-- `neighborsList` -/
  neighborsList : List N
  /-- `knownRequests`: the ids of the requests asked last, oldest first. -/
  knownRequests : List (RequestId N)
  /-- `logicalClock` -/
  logicalClock : ℕ
deriving DecidableEq

namespace SearchNode

/-- `POPCSearchNode::removeNeighbor`: the first entry of that name is erased. -/
def removeNeighbor [DecidableEq N] (n : SearchNode N) (node : N) : SearchNode N :=
  { n with neighborsList := n.neighborsList.erase node }

/-- The update of the history: the id is pushed, and the oldest one dropped when there are more
than `MAXREQTOSAVE`. -/
def saveRequest (n : SearchNode N) (id : RequestId N) : SearchNode N :=
  let known := n.knownRequests ++ [id]
  { n with knownRequests := if known.length > maxReqToSave then known.tail else known }

end SearchNode

/-- An asynchronous call on its way. -/
inductive Message (N : Type*) where
  /-- `askResourcesDiscovery` on the node `dest`, forwarded by `sender`. -/
  | ask (dest : N) (req : Request N) (sender : N)
  /-- `UnregisterNode(url)` on the job manager of the node `dest`. -/
  | unregisterNode (dest url : N)
deriving DecidableEq

/-- One evaluation of a request: the call of `checkResource` at `node`, on the copy that came
from `sender`. -/
structure Check (N : Type*) where
  /-- The node that evaluates. -/
  node : N
  /-- The request. -/
  id : RequestId N
  /-- The node the copy came from, the node itself at the origin. -/
  sender : N
deriving DecidableEq

/-- The grid: all search nodes, the messages in flight, and what has been done so far. -/
structure Grid (N : Type*) where
  /-- The search nodes by their id. -/
  node : N → SearchNode N
  /-- The messages in flight, in no order that matters. -/
  inFlight : List (Message N)
  /-- The evaluations so far. -/
  checks : List (Check N)
  /-- The calls of `ApplicationEnd` so far. -/
  ends : List (N × String)

/-- What one node can do: its user launches a request, or a message reaches its node. -/
inductive Action (N : Type*) where
  /-- `launchDiscovery` on the node `origin`. -/
  | launch (origin : N) (maxHops : ℤ) (popAppId : String) (endingSignal : Bool)
  /-- The delivery of the message at position `i`. -/
  | deliver (i : ℕ)
deriving DecidableEq

/-! ### The handlers -/

section handlers

variable [LinearOrder N]

/-- The copies that the node `self` passes on: one for each neighbour that is not named in the
exploration list the request came with. -/
def forwards (self : N) (neighbors : List N) (oldEL : ExplorationList N) (req : Request N) :
    List (Message N) :=
  if req.MoreHops then
    (neighbors.filter fun n => !oldEL.isIn n).map fun n => .ask n req self
  else []

/-- `POPCSearchNode::askResourcesDiscovery` at the node `self`. -/
def askResourcesDiscovery (g : Grid N) (self : N) (req : Request N) (sender : N) : Grid N :=
  let neighbors := (g.node self).neighborsList
  let oldEL := req.explorationList
  let req' := req.addNodeToExplorationList self neighbors
  if req.endingSignal then
    { g with
      inFlight := g.inFlight ++ forwards self neighbors oldEL req'
      ends := g.ends ++ [(self, req.popAppId)] }
  else if req.uniqueId ∈ (g.node self).knownRequests then
    { g with
      node := Function.update g.node self ((g.node self).removeNeighbor sender)
      inFlight := g.inFlight ++ [.unregisterNode sender self] }
  else
    { g with
      node := Function.update g.node self ((g.node self).saveRequest req.uniqueId)
      inFlight := g.inFlight ++ forwards self neighbors oldEL req'
      checks := g.checks ++ [⟨self, req.uniqueId, sender⟩] }

/-- A message reaches its node.  The request of an `ask` has been packed and unpacked. -/
def receive (g : Grid N) : Message N → Grid N
  | .ask dest req sender =>
      askResourcesDiscovery g dest
        { req with explorationList := req.explorationList.unpack } sender
  | .unregisterNode dest url =>
      { g with node := Function.update g.node dest ((g.node dest).removeNeighbor url) }

/-- `getUID` and `launchDiscovery`: the request gets the next id of its node and is first asked
of the node itself. -/
def launchDiscovery (g : Grid N) (origin : N) (maxHops : ℤ) (popAppId : String)
    (endingSignal : Bool) : Grid N :=
  let clock := (g.node origin).logicalClock
  askResourcesDiscovery
    { g with
      node := Function.update g.node origin { g.node origin with logicalClock := clock + 1 } }
    origin ⟨(origin, clock), maxHops, popAppId, endingSignal, []⟩ origin

/-- One step of the grid. -/
def step (g : Grid N) : Action N → Option (Grid N)
  | .launch origin maxHops popAppId endingSignal =>
      some (launchDiscovery g origin maxHops popAppId endingSignal)
  | .deliver i =>
      match g.inFlight[i]? with
      | some m => some (receive { g with inFlight := g.inFlight.eraseIdx i } m)
      | none => none

end handlers

/-! ### Overlays -/

/-- An overlay: the neighbour list of every node, where every neighbour relation is known on
both sides. -/
structure Overlay (N : Type*) where
  /-- The neighbour lists. -/
  neighbors : N → List N
  /-- A neighbour knows its neighbour. -/
  symm : ∀ u v, v ∈ neighbors u → u ∈ neighbors v

namespace Overlay

/-- The graph of an overlay. -/
def graph (ov : Overlay N) : SimpleGraph N where
  Adj u v := u ≠ v ∧ v ∈ ov.neighbors u
  symm := ⟨fun u v h => ⟨h.1.symm, ov.symm u v h.2⟩⟩
  loopless := ⟨fun _ h => h.1 rfl⟩

/-- The grid on an overlay before any request, with the clocks of the nodes. -/
def grid (ov : Overlay N) (clock : N → ℕ) : Grid N where
  node n := ⟨ov.neighbors n, [], clock n⟩
  inFlight := []
  checks := []
  ends := []

end Overlay

namespace Grid

/-- The number of times that the node has evaluated the request. -/
def evaluations [DecidableEq N] (g : Grid N) (n : N) (id : RequestId N) : ℕ :=
  g.checks.countP fun c => c.node == n && c.id == id

/-- The node has evaluated the request. -/
def Evaluated (g : Grid N) (n : N) (id : RequestId N) : Prop :=
  ∃ c ∈ g.checks, c.node = n ∧ c.id = id

/-- No `askResourcesDiscovery` is in flight. -/
def Quiet (g : Grid N) : Prop := ∀ dest req sender, Message.ask dest req sender ∉ g.inFlight

end Grid

end Discovery
