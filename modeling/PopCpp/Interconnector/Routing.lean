/-
# Requests and replies between the MPI interconnectors

A client that uses an object of another node is connected to the interconnector of its own node.
The main thread there sends each of its requests on to the node of the object, under a new tag,
and waits until it has been taken.  The receive thread of that node takes the command 13 and
wakes its main thread (200005), which takes the request and writes it to the object.  All clients
of one node share one connection to an object; `outgoingconnection` has the tag and the node of
the request that was written to it last.  What the object writes to the connection is sent back
under that tag, and the receive thread of the client's node takes the command 14 and finds the
client's connection in `incomingtag`.  When there is no tag for a connection, what comes from it
is taken for a request.

A descriptor is named by what it is connected to: descriptors of open connections are distinct,
and no connection is closed.  What is sent from one node to another on one tag arrives in order,
unchanged and once.  The length that is sent ahead of a load only says how long the buffer has to
be, so a load stands for both.  A step is what a thread does from one wait to the next.
-/
import Mathlib.Data.Fintype.Card
import Mathlib.Logic.Relation
import PopCpp.Lib.CInt
import PopCpp.Lib.Mailbox
import PopCpp.Lib.Table
import PopCpp.Lib.Transition

namespace Interconnector.Routing

/-- The clients that are connected to an interconnector: where each one runs, and the object it
has been bound to (200002). -/
structure Network (n : ℕ) (ι : Type) where
  node : ι → Fin n
  destNode : ι → Fin n
  destId : ι → ℤ
  /-- An interface connects to an object of its own node directly. -/
  remote : ∀ i, destNode i ≠ node i

/-- A request of a client: which one of its requests it is, and whether it is `INVOKE_SYNC`. -/
structure Request (ι : Type) where
  client : ι
  number : ℕ
  sync : Bool
deriving DecidableEq

/-- The message of a client, or of an object. -/
inductive Load (ι : Type) where
  | request (r : Request ι)
  | reply (r : Request ι)
deriving DecidableEq

/-- A connection of an interconnector: to a client, or to an object for the clients of the node
`source`. -/
inductive Conn (n : ℕ) (ι : Type) where
  | client (i : ι)
  | object (source : Fin n) (id : ℤ)
deriving DecidableEq

/-- The command messages, tag 0: 13 and 14, with a tag. -/
inductive Command where
  | request (tag : ℤ)
  | response (tag : ℤ)
deriving DecidableEq

/-- What is sent on the tag of a request: `dest_id` and the load. -/
inductive Datum (ι : Type) where
  | destId (id : ℤ)
  | load (m : Load ι)
deriving DecidableEq

/-- Where the main thread stands between two steps. -/
inductive Main (n : ℕ) (ι : Type) where
  /-- in `local.Wait()` -/
  | idle
  /-- waiting until the load of a request has been taken -/
  | redirecting (dest : Fin n) (id tag : ℤ) (load : Load ι)
  /-- waiting until the load of a response has been taken -/
  | responding (conn : Conn n ι) (dest : Fin n) (tag : ℤ) (load : Load ι)
deriving DecidableEq

/-- The interconnectors of all nodes, what is on the way between them, and what their clients and
objects have sent and received. -/
structure State (n : ℕ) (ι : Type) where
  main : Fin n → Main n ι
  nextTag : Fin n → ℤ
  incomingTag : Fin n → ℤ → Option (Conn n ι)
  outgoingConnection : Fin n → Conn n ι → Option (ℤ × Fin n)
  /-- the keys of `connectionmap` -/
  connectionMap : Fin n → List (Fin n × ℤ)
  /-- what the other end of a connection of a node has written to it, and the main thread has
  not read yet -/
  inbox : Fin n → Conn n ι → List (Load ι)
  /-- the messages 200005 that the receive thread of a node has sent it: source and tag -/
  wakers : Fin n → List (Fin n × ℤ)
  /-- tag 0, from the first node to the second -/
  commands : Fin n → Fin n → List Command
  /-- the other tags -/
  data : Fin n → Fin n × ℤ → List (Datum ι)
  /-- the synchronous requests that an object has got from a connection and not replied to -/
  unanswered : Fin n → Conn n ι → List (Request ι)
  /-- everything that has been written to an object -/
  received : Fin n → ℤ → List (Load ι)
  /-- everything that has been written to a client -/
  answers : ι → List (Load ι)
  /-- the requests that a client has sent -/
  made : ι → List (Request ι)
  /-- the requests of a client that objects have replied to -/
  replied : ι → List (Request ι)
  /-- everything that the main thread of a node has sent on as a request -/
  redirected : Fin n → List (Load ι)

namespace State

variable {n : ℕ} {ι : Type}

/-- The clients are connected, and have not sent anything. -/
def start : State n ι where
  main _ := .idle
  nextTag _ := 1000
  incomingTag _ _ := none
  outgoingConnection _ _ := none
  connectionMap _ := []
  inbox _ _ := []
  wakers _ := []
  commands _ _ := []
  data _ _ := []
  unanswered _ _ := []
  received _ _ := []
  answers _ := []
  made _ := []
  replied _ := []
  redirected _ := []

end State

open State

variable {n : ℕ} {ι : Type} [DecidableEq ι]

/-- `incomingconnection[fd]`, which for the connection to an object is a new entry of zeros. -/
def Network.incomingConnection (net : Network n ι) (a : Fin n) : Conn n ι → Fin n × ℤ
  | .client i => (net.destNode i, net.destId i)
  | .object _ _ => (⟨0, a.pos⟩, 0)

namespace State

variable (s : State n ι)

/-- The other end writes to a connection of `a`. -/
def write (a : Fin n) (conn : Conn n ι) (m : Load ι) : State n ι :=
  { s with inbox := Table.post s.inbox a conn m }

/-- `client->Send`: a client gets its reply, an object a request, to which it will reply if that
is synchronous. -/
def send (b : Fin n) (conn : Conn n ι) (m : Load ι) : State n ι :=
  match conn with
  | .client i => { s with answers := Mailbox.post s.answers i m }
  | .object _ id =>
      let s := { s with received := Table.post s.received b id m }
      match m with
      | .request r =>
          if r.sync then { s with unanswered := Table.post s.unanswered b conn r } else s
      | .reply _ => s

/-- The main thread of `a` sends on what has come from a connection, as a request. -/
def redirect (net : Network n ι) (a : Fin n) (conn : Conn n ι) (m : Load ι) : State n ι :=
  let dest := net.incomingConnection a conn
  { s with
    main := Function.update s.main a (.redirecting dest.1 dest.2 (s.nextTag a) m)
    incomingTag := Table.put s.incomingTag a (s.nextTag a) (some conn)
    commands := Table.post s.commands a dest.1 (.request (s.nextTag a))
    data := Table.put s.data a (dest.1, s.nextTag a)
      (s.data a (dest.1, s.nextTag a) ++ [.destId dest.2, .load m])
    redirected := Mailbox.post s.redirected a m }

/-- The main thread of `b` sends back what has come from a connection that has a tag. -/
def respond (b : Fin n) (conn : Conn n ι) (tag : ℤ) (dest : Fin n) (m : Load ι) : State n ι :=
  { s with
    main := Function.update s.main b (.responding conn dest tag m)
    commands := Table.post s.commands b dest (.response tag)
    data := Table.post s.data b (dest, tag) (.load m) }

/-- 200005: the request is written to the shared connection to its object, which is made for the
first one. -/
def connect (b source : Fin n) (id tag : ℤ) : State n ι :=
  { s with
    outgoingConnection := Table.put s.outgoingConnection b (.object source id)
      (some (tag, source))
    connectionMap := if (source, id) ∈ s.connectionMap b then s.connectionMap
      else Function.update s.connectionMap b ((source, id) :: s.connectionMap b) }

end State

/-- The steps: `call` is one of a client and `reply` one of an object; `take`, `sent` and `serve`
are those of the main thread, `command` is the one of the receive thread. -/
inductive Action (n : ℕ) (ι : Type) where
  | call (i : ι) (sync : Bool)
  | reply (b : Fin n) (conn : Conn n ι) (r : Request ι)
  | take (a : Fin n) (conn : Conn n ι)
  | sent (a : Fin n)
  | serve (b : Fin n)
  | command (b a : Fin n)
deriving DecidableEq

/-- The next state, or `none` when this step is not possible. -/
def step (net : Network n ι) (s : State n ι) : Action n ι → Option (State n ι)
  | .call i sync =>
      -- a client waits for the replies to its synchronous requests
      if ((s.made i).filter Request.sync).length ≤ (s.answers i).length then
        let r : Request ι := ⟨i, (s.made i).length, sync⟩
        some { s.write (net.node i) (.client i) (.request r) with
          made := Mailbox.post s.made i r }
      else none
  | .reply b conn r =>
      if r ∈ s.unanswered b conn then
        some { s.write b conn (.reply r) with
          unanswered := Table.put s.unanswered b conn ((s.unanswered b conn).erase r)
          replied := Mailbox.post s.replied r.client r }
      else none
  | .take a conn =>
      match s.main a, s.inbox a conn with
      | .idle, m :: rest =>
          let s := { s with inbox := Table.put s.inbox a conn rest }
          match s.outgoingConnection a conn with
          | some (tag, dest) =>
              if tag ≠ 0 then some (s.respond a conn tag dest m)
              else some (s.redirect net a conn m)
          | none => some (s.redirect net a conn m)
      | _, _ => none
  | .sent a =>
      match s.main a with
      | .idle => none
      | .redirecting dest _ tag _ =>
          if s.data a (dest, tag) = [] then
            some { s with
              main := Function.update s.main a .idle
              nextTag := Function.update s.nextTag a (CInt.wrap (s.nextTag a + 1)) }
          else none
      | .responding conn dest tag _ =>
          if s.data a (dest, tag) = [] then
            some { s with
              main := Function.update s.main a .idle
              outgoingConnection := Table.put s.outgoingConnection a conn none }
          else none
  | .serve b =>
      match s.main b, s.wakers b with
      | .idle, (source, tag) :: wakers =>
          match s.data source (b, tag) with
          | .destId id :: .load m :: rest =>
              let s := { s with
                wakers := Function.update s.wakers b wakers
                data := Table.put s.data source (b, tag) rest }
              some ((s.connect b source id tag).send b (.object source id) m)
          | _ => none
      | _, _ => none
  | .command b a =>
      match s.commands a b with
      | [] => none
      | c :: commands =>
          let s := { s with commands := Table.put s.commands a b commands }
          match c with
          | .request tag =>
              some { s with wakers := Mailbox.post s.wakers b (a, tag) }
          | .response tag =>
              match s.data a (b, tag) with
              | .load m :: rest =>
                  let s := { s with data := Table.put s.data a (b, tag) rest }
                  -- a tag that is not there stands for the descriptor 0, which is no connection
                  let s' := match s.incomingTag b tag with
                    | some conn => s.send b conn m
                    | none => s
                  some { s' with incomingTag := Table.put s.incomingTag b tag none }
              | _ => none

/-! ## What is promised -/

/-- The client whose request it is, or answers. -/
def Load.owner : Load ι → ι
  | .request r => r.client
  | .reply r => r.client

/-- The connection over which the object of a client gets its requests. -/
def Network.place (net : Network n ι) (i : ι) : Fin n × Conn n ι :=
  (net.destNode i, .object (net.node i) (net.destId i))

/-- What has been written to the object of a client and came from this client. -/
def State.receivedFrom (net : Network n ι) (s : State n ι) (i : ι) : List (Load ι) :=
  (s.received (net.destNode i) (net.destId i)).filter fun m => m.owner = i

/-- Nothing has gone to a wrong place, twice, or out of order. -/
structure Sound (net : Network n ι) (s : State n ι) : Prop where
  /-- A request is written to its object at most once, in the order of the client. -/
  requests : ∀ i, s.receivedFrom net i <+: (s.made i).map .request
  /-- Nothing else is written to an object. -/
  received : ∀ b id, ∀ m ∈ s.received b id,
    ∃ r, m = .request r ∧ net.destNode r.client = b ∧ net.destId r.client = id
  /-- A reply is written at most once, to the client whose request it answers. -/
  replies : ∀ i, s.answers i <+: (s.replied i).map .reply
  /-- A reply is never sent on as a request. -/
  redirected : ∀ a, ∀ m ∈ s.redirected a, ∃ r, m = .request r
  /-- A client makes each request once. -/
  numbered : ∀ i, (s.made i).Nodup ∧ ∀ r ∈ s.made i, r.client = i

/-- Everything has arrived: each request at its object, and each reply at its client. -/
structure Complete (net : Network n ι) (s : State n ι) : Prop where
  requests : ∀ i, s.receivedFrom net i = (s.made i).map .request
  replies : ∀ i, s.answers i = (s.replied i).map .reply

/-- A step of a client or of an object. -/
def Action.external : Action n ι → Bool
  | .call .. => true
  | .reply .. => true
  | _ => false

/-- The interconnectors have nothing more to do. -/
def Quiet (net : Network n ι) (s : State n ι) : Prop :=
  ∀ act : Action n ι, act.external = false → step net s act = none

/-! ## The condition -/

/-- The main thread of `a` waits until that of `d` takes a request. -/
def Waits (s : State n ι) (a d : Fin n) : Prop :=
  ∃ id tag m, s.main a = .redirecting d id tag m ∧ s.data a (d, tag) ≠ []

/-- No reply to a request of this connection is still to be sent back. -/
def Settled (s : State n ι) (b : Fin n) (conn : Conn n ι) : Prop :=
  s.unanswered b conn = [] ∧ s.inbox b conn = []

/-- The entries of the poll table of a node: the server socket, the own receive thread, the
clients and the objects. -/
def entries [Fintype ι] (net : Network n ι) (s : State n ι) (a : Fin n) : ℕ :=
  2 + (Finset.univ.filter fun i => net.node i = a).card + (s.connectionMap a).length

/-- The main threads do not wait for each other in a circle, the tags and the poll table of 200
entries do not run out, and a request reaches a shared connection when all requests that came
over it before have got their replies. -/
def Clean [Fintype ι] (net : Network n ι) (s : State n ι) : Action n ι → Prop
  | .take a conn =>
      entries net s a ≤ 200 ∧ s.nextTag a < 2 ^ 31 - 1 ∧
        ∀ i, conn = .client i → ¬Relation.ReflTransGen (Waits s) (net.destNode i) a
  | .serve b =>
      ∀ source tag id, (source, tag) ∈ (s.wakers b).head? →
        .destId id ∈ (s.data source (b, tag)).head? →
          Settled s b (.object source id) ∧
            ((source, id) ∉ s.connectionMap b → entries net s b < 200)
  | _ => True

end Interconnector.Routing
