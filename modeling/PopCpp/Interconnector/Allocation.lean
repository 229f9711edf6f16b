/-
# Remote allocations between the MPI interconnectors

Every node runs one interconnector with two threads.  The main thread serves the local
connections: for an allocation on another node (200000) it sends a command and six messages and
then notes which connection waits for the answer; when its own receive thread tells it that an
allocation has arrived (200004) it takes the six messages in turn, launches the object, waits
for the report of the object and sends the address back.  The receive thread takes the commands
of all nodes and, for an answer, the two messages that follow it.

A channel is one tag between one ordered pair of nodes: what is sent on it arrives in order,
unchanged and once.  Every message also holds the request it was sent for, its `owner`, which no
step reads: it is there to say which messages are taken together.  A step is one message taken
or one group of messages sent under a single hold of `mpi_mutex`; any order of steps is a run.
-/
import Mathlib.Data.Fin.Basic
import PopCpp.Lib.CInt
import PopCpp.Lib.Mailbox
import PopCpp.Lib.Transition

namespace Interconnector.Allocation

/-- The bytes of a `std::string`. -/
abbrev Chars := List Char

/-- What `"%d"` prints. -/
def decimal (x : ℤ) : Chars :=
  if x < 0 then '-' :: Nat.toDigits 10 x.natAbs else Nat.toDigits 10 x.natAbs

/-- A request 200000 and the connection it came from.  It came in one message, so its texts
have lengths that fit an `int`. -/
structure Request (n : ℕ) where
  conn : ℕ
  objectname : Chars
  codefile : Chars
  node : Fin n
  usercore : ℤ
  fits : objectname.length < 2 ^ 31 ∧ codefile.length < 2 ^ 31
deriving DecidableEq

/-- A message on a channel and the request it belongs to. -/
structure Message (n : ℕ) (α : Type) where
  value : α
  owner : Request n
deriving DecidableEq

/-- The command messages, tag 0: 11, 12 and 15. -/
inductive Command where
  | allocate
  | unlock
  | answer (id : ℤ)
deriving DecidableEq

/-- The five messages of an allocation after the identifier (tag 17): tags 10 to 13 and 16. -/
inductive Part where
  | objectnameLength
  | objectname
  | codefileLength
  | codefile
  | usercore
deriving DecidableEq

inductive Payload where
  | int (x : ℤ)
  | chars (s : Chars)
deriving DecidableEq

namespace Part

/-- The part that says how long this one is. -/
def length? : Part → Option Part
  | objectname => some objectnameLength
  | codefile => some codefileLength
  | _ => none

/-- What 200000 sends. -/
def payload {n : ℕ} (r : Request n) : Part → Payload
  | objectnameLength => .int (CInt.wrap r.objectname.length)
  | objectname => .chars r.objectname
  | codefileLength => .int (CInt.wrap r.codefile.length)
  | codefile => .chars r.codefile
  | usercore => .int r.usercore

/-- The order in which 200004 takes them. -/
def order : List Part := [objectnameLength, codefileLength, objectname, codefile, usercore]

/-- Receiving needs a buffer that is long enough: a longer message is an error of MPI, and the
receive does not return. -/
def accepts (locals : Part → Option Payload) (p : Part) (v : Payload) : Bool :=
  match p.length? with
  | none => true
  | some q =>
      match locals q, v with
      | some (.int x), .chars s => s.length ≤ x
      | _, _ => false

end Part

/-- An object process that was forked and has not reported yet.  `allocId` is the identifier to
answer under, or `none` when the request came from a connection of this node. -/
structure Launch (n : ℕ) where
  source : Fin n
  allocId : Option ℤ
  objectname : Chars
  codefile : Chars
  core : ℤ
  address : Chars
  owner : Request n
deriving DecidableEq

/-- Where the main thread stands between two steps. -/
inductive Main (n : ℕ) where
  /-- in `local.Wait()` -/
  | idle
  /-- 200000: everything is sent, `allocation_return` is not set yet -/
  | recording (request : Request n)
  /-- 200004: waiting for tag 17 of any source -/
  | awaitingId
  /-- 200004: the identifier is there, the parts in `todo` are not -/
  | gathering (source : Fin n) (id : Message n ℤ) (locals : Part → Option Payload)
      (todo : List Part) (owners : List (Request n))
  /-- waiting on `receiver` for the report of the object -/
  | launched (launch : Launch n)
  /-- 200004: waiting until the address has been received -/
  | answering (source : Fin n)

/-- Where the receive thread stands: at tag 0, or within command 15. -/
inductive Receiver (n : ℕ) where
  | polling
  | awaitingLength (node : Fin n) (id : Message n ℤ)
  | awaitingAddress (node : Fin n) (id length : Message n ℤ)

/-- An allocation answer, as it was written to a local connection. -/
structure Answer (n : ℕ) where
  conn : ℕ
  address : Chars
  owner : Request n
deriving DecidableEq

/-- The interconnectors of all nodes and the channels between them.  A channel from `a` to `b` has
the key `(a, b)`. -/
structure State (n : ℕ) where
  /-- requests 200000 that the main thread of a node has not read yet -/
  inbox : Fin n → List (Request n)
  /-- how many messages 200004 its receive thread has sent it that it has not read yet -/
  wakers : Fin n → ℕ
  main : Fin n → Main n
  receiver : Fin n → Receiver n
  allocationId : Fin n → ℤ
  nextObjectId : Fin n → ℤ
  core : Fin n → ℤ
  allocationReturn : Fin n → ℤ → Option ℕ
  /-- tag 0 -/
  commands : Fin n × Fin n → List (Message n Command)
  /-- tag 17 -/
  ids : Fin n × Fin n → List (Message n ℤ)
  /-- tags 10 to 13 and 16 -/
  parts : (Fin n × Fin n) × Part → List (Message n Payload)
  /-- tag 14 -/
  lengths : Fin n × Fin n → List (Message n ℤ)
  /-- tag 15 -/
  addresses : Fin n × Fin n → List (Message n Chars)
  /-- the objects of a node that have reported, for each requesting node, with success or not -/
  reports : Fin n × Fin n → List (Launch n × Bool)
  /-- the answers that a node has sent to its connections, for each node they came from -/
  answers : Fin n × Fin n → List (Answer n)
  /-- the owners of the messages that were taken together -/
  groups : List (List (Request n))

namespace State

variable {n : ℕ}

/-- Nothing is under way; the clients of each node have sent their requests. -/
def start (requests : Fin n → List (Request n)) : State n where
  inbox := requests
  wakers _ := 0
  main _ := .idle
  receiver _ := .polling
  allocationId _ := 0
  nextObjectId _ := 1
  core _ := 1
  allocationReturn _ _ := none
  commands _ := []
  ids _ := []
  parts _ := []
  lengths _ := []
  addresses _ := []
  reports _ := []
  answers _ := []
  groups := []

def setMain (s : State n) (b : Fin n) (m : Main n) : State n :=
  { s with main := Function.update s.main b m }

def setReceiver (s : State n) (b : Fin n) (r : Receiver n) : State n :=
  { s with receiver := Function.update s.receiver b r }

def postCommand (s : State n) (a b : Fin n) (c : Command) (owner : Request n) : State n :=
  { s with commands := Mailbox.post s.commands (a, b) ⟨c, owner⟩ }

/-- `snprintf(tmp, 15, ".uds_%d.%d", rank, id)` -/
def udsName (rank : Fin n) (id : ℤ) : Chars :=
  (".uds_".toList ++ decimal rank ++ '.' :: decimal id).take 14

/-- 200000 for another node: 12 to the own receive thread, then 11 and the allocation to the
node.  The entry of `allocation_return` comes later. -/
def sendAllocation (s : State n) (a : Fin n) (r : Request n) : State n :=
  let s := s.postCommand a a .unlock r
  let s := s.postCommand a r.node .allocate r
  { s with
    ids := Mailbox.post s.ids (a, r.node) ⟨s.allocationId a, r⟩
    parts := fun k =>
      if k.1 = (a, r.node) then s.parts k ++ [⟨k.2.payload r, r⟩] else s.parts k
    main := Function.update s.main a (.recording r) }

/-- Forking the process of a new object, for a local request and for one from another node. -/
def launch (nbcore : ℤ) (s : State n) (b source : Fin n) (allocId : Option ℤ)
    (objectname codefile : Chars) (usercore : ℤ) (owner : Request n) : State n :=
  let next := if s.core b + 1 = nbcore then 0 else s.core b + 1
  { s with
    nextObjectId := Function.update s.nextObjectId b (CInt.wrap (s.nextObjectId b + 1))
    core := if usercore ≠ -1 then s.core else Function.update s.core b next
    main := Function.update s.main b (.launched
      { source, allocId, objectname, codefile, owner
        core := if usercore ≠ -1 then usercore else s.core b
        address := "uds://".toList ++ udsName b (s.nextObjectId b) }) }

/-- What follows the report of the object.  For a local request the answer holds the address or
is empty; for one from another node, a failure sends one message of tag 14 and no command. -/
def report (s : State n) (b : Fin n) (l : Launch n) (ok : Bool) : State n :=
  let s := { s with reports := Mailbox.post s.reports (b, l.source) (l, ok) }
  match l.allocId, ok with
  | none, _ =>
      let answer : Answer n := ⟨l.owner.conn, if ok then l.address else [], l.owner⟩
      { s.setMain b .idle with answers := Mailbox.post s.answers (b, b) answer }
  | some id, true =>
      let s := s.postCommand b l.source (.answer id) l.owner
      { s.setMain b (.answering l.source) with
        lengths := Mailbox.post s.lengths (b, l.source) ⟨l.address.length, l.owner⟩
        addresses := Mailbox.post s.addresses (b, l.source) ⟨l.address, l.owner⟩ }
  | some _, false =>
      { s.setMain b .idle with
        lengths := Mailbox.post s.lengths (b, l.source) ⟨0, l.owner⟩ }

/-- The receive thread of `b` on a command of `a`. -/
def obey (s : State n) (b a : Fin n) (m : Message n Command) : State n :=
  match m.value with
  | .allocate => { s with wakers := Function.update s.wakers b (s.wakers b + 1) }
  | .unlock => s
  | .answer id => s.setReceiver b (.awaitingLength a ⟨id, m.owner⟩)

/-- The end of command 15.  `Send` on the null pointer of a missing entry sends nothing. -/
def sendAnswer (s : State n) (a node : Fin n) (id : Message n ℤ) (m : Message n Chars) : State n :=
  match s.allocationReturn a id.value with
  | some conn => { s with answers := Mailbox.post s.answers (a, node) ⟨conn, m.value, id.owner⟩ }
  | none => s

end State

/-- The steps: `take` to `sent` are those of the main thread, the last three those of the receive
thread.  `report` is the step of a launched object. -/
inductive Action (n : ℕ) where
  | take (a : Fin n)
  | record (a : Fin n)
  | wake (b : Fin n)
  | receiveId (b a : Fin n)
  | receivePart (b : Fin n)
  | fork (b : Fin n)
  | report (b : Fin n) (ok : Bool)
  | sent (b : Fin n)
  | command (b a : Fin n)
  | receiveLength (b : Fin n)
  | receiveAddress (b : Fin n)
deriving DecidableEq

open State

variable {n : ℕ}

/-- The next state, or `none` when the thread is not at this point or has to wait. -/
def step (nbcore : ℤ) (s : State n) : Action n → Option (State n)
  | .take a =>
      match s.main a, s.inbox a with
      | .idle, r :: rest =>
          let s := { s with inbox := Function.update s.inbox a rest }
          some (if r.node ≠ a then s.sendAllocation a r
            else s.launch nbcore a a none r.objectname r.codefile r.usercore r)
      | _, _ => none
  | .record a =>
      match s.main a with
      | .recording r =>
          let entries := Function.update (s.allocationReturn a) (s.allocationId a) (some r.conn)
          some { s.setMain a .idle with
            allocationReturn := Function.update s.allocationReturn a entries
            allocationId := Function.update s.allocationId a (CInt.wrap (s.allocationId a + 1)) }
      | _ => none
  | .wake b =>
      match s.main b, s.wakers b with
      | .idle, k + 1 =>
          some { s.setMain b .awaitingId with wakers := Function.update s.wakers b k }
      | _, _ => none
  | .receiveId b a =>
      match s.main b, s.ids (a, b) with
      | .awaitingId, m :: rest =>
          some { s.setMain b (.gathering a m (fun _ => none) Part.order [m.owner]) with
            ids := Function.update s.ids (a, b) rest }
      | _, _ => none
  | .receivePart b =>
      match s.main b with
      | .gathering a id locals (p :: todo) owners =>
          match s.parts ((a, b), p) with
          | m :: rest =>
              if p.accepts locals m.value then
                let locals := Function.update locals p (some m.value)
                some { s.setMain b (.gathering a id locals todo (m.owner :: owners)) with
                  parts := Function.update s.parts ((a, b), p) rest }
              else none
          | [] => none
      | _ => none
  | .fork b =>
      match s.main b with
      | .gathering a id locals [] owners =>
          match locals .objectname, locals .codefile, locals .usercore with
          | some (.chars objectname), some (.chars codefile), some (.int usercore) =>
              let s := { s with groups := owners :: s.groups }
              some (s.launch nbcore b a (some id.value) objectname codefile usercore id.owner)
          | _, _, _ => none
      | _ => none
  | .report b ok =>
      match s.main b with
      | .launched l => some (s.report b l ok)
      | _ => none
  | .sent b =>
      -- the address that was sent last is received when no address is left on the channel
      match s.main b with
      | .answering source =>
          if s.addresses (b, source) = [] then some (s.setMain b .idle) else none
      | _ => none
  | .command b a =>
      match s.receiver b, s.commands (a, b) with
      | .polling, m :: rest =>
          let s := { s with commands := Function.update s.commands (a, b) rest }
          some (s.obey b a m)
      | _, _ => none
  | .receiveLength b =>
      match s.receiver b with
      | .awaitingLength node id =>
          match s.lengths (node, b) with
          | m :: rest =>
              some { s.setReceiver b (.awaitingAddress node id m) with
                lengths := Function.update s.lengths (node, b) rest }
          | [] => none
      | _ => none
  | .receiveAddress b =>
      match s.receiver b with
      | .awaitingAddress node id length =>
          match s.addresses (node, b) with
          | m :: rest =>
              if m.value.length ≤ length.value then
                let s := { s with
                  addresses := Function.update s.addresses (node, b) rest
                  groups := [id.owner, length.owner, m.owner] :: s.groups }
                some ((s.setReceiver b .polling).sendAnswer b node id m)
              else none
          | [] => none
      | _ => none

end Interconnector.Allocation
