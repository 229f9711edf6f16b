/-
# Which encoding the two ends of a connection use

A client encodes a request with `__pop_buf` and decodes the reply with it.  The broker
receives a request into a buffer made by the factory of the connection and answers with that
buffer.  `Encoding(name)` asks the broker for another factory: the broker sets it before it
replies, the client makes its new buffer after it has the reply.  When the interface itself
is an argument of a call, `Serialize` puts a buffer of the combox's factory in the place of
`__pop_buf` while it calls `AddRef`, or binds anew, and puts the old one back.

The model has the client, the connection it is bound to, the connections it was bound to
before, and the requests that the broker has not answered.  A message that is decoded with
another buffer than it was encoded with is read as anything.  The client's calls hold
`_pop_imutex`, so one call is in progress at a time.
-/
import PopCpp.Lib.Transition
import Mathlib.Data.List.Perm.Basic

namespace Interface.Encoding

/-! ### Buffers and factories -/

/-- The buffers that a factory makes. -/
inductive Kind where
  | raw
  | xdr
deriving DecidableEq, Repr

/-- `GetBufferName` -/
def Kind.bufferName : Kind → String
  | .raw => "raw"
  | .xdr => "xdr"

/-- `FindFactory` among the factories that a process has loaded. -/
def findFactory (finder : List Kind) (bufferName : String) : Option Kind :=
  finder.find? fun k => k.bufferName = bufferName

/-- `defaultFact` of a new combox. -/
def defaultFact : Kind := .xdr

inductive Protocol where
  | socket
  | uds
deriving DecidableEq, Repr

/-- The combox in use and the factories that the two processes have loaded. -/
structure Config where
  protocol : Protocol
  client : List Kind
  broker : List Kind

/-! ### Connections -/

/-- What a request asks for. -/
inductive Content where
  | encoding (name : String)
  /-- `BindStatus`, `AddRef`, `DecRef` or `ObjectActive`. -/
  | builtIn
  | method (sync : Bool)
deriving DecidableEq, Repr

/-- `INVOKE_SYNC` -/
def Content.isSync : Content → Bool
  | .method sync => sync
  | _ => true

/-- A request under way, with the buffer that encoded it. -/
structure Message where
  kind : Kind
  content : Content
deriving DecidableEq, Repr

/-- A reply under way; `result` is the answer to `Encoding`. -/
structure Reply where
  kind : Kind
  result : Bool
deriving DecidableEq, Repr

/-- A request in the hands of the broker, with its buffer. -/
structure Pending where
  kind : Kind
  sync : Bool
deriving DecidableEq, Repr

/-- A connection, with all that is under way on it. -/
structure Connection where
  /-- The factory of the broker's `pop_connection`. -/
  fact : Kind
  requests : List Message
  pending : List Pending
  replies : List Reply
deriving DecidableEq, Repr

namespace Connection

/-- A new connection: the broker's `pop_connection` takes the factory of its combox. -/
def new : Connection := ⟨defaultFact, [], [], []⟩

def send (c : Connection) (kind : Kind) (content : Content) : Connection :=
  { c with requests := c.requests ++ [⟨kind, content⟩] }

/-- `SetBufferFactory`: the `Wait` of a Unix domain socket combox makes a new connection for
every message, so what is set on this one is lost with it. -/
def setBufferFactory (cfg : Config) (c : Connection) (k : Kind) : Connection :=
  match cfg.protocol with
  | .socket => { c with fact := k }
  | .uds => c

/-- `PopCall` and `RegisterRequest` on a request in a buffer of kind `c.fact`.  A built-in call
that is not `served` is declined for want of an object and goes to the queue. -/
def register (cfg : Config) (c : Connection) (served : Bool) : Content → Connection
  | .encoding name =>
      match findFactory cfg.broker name with
      | some k => { c.setBufferFactory cfg k with replies := c.replies ++ [⟨c.fact, true⟩] }
      | none => { c with replies := c.replies ++ [⟨c.fact, false⟩] }
  | .builtIn =>
      if served then { c with replies := c.replies ++ [⟨c.fact, true⟩] }
      else { c with pending := c.pending ++ [⟨c.fact, true⟩] }
  | .method sync => { c with pending := c.pending ++ [⟨c.fact, sync⟩] }

end Connection

/-- What has been decoded. -/
inductive Event where
  | message (encoded decoded : Kind)
  | reply (encoded decoded : Kind)
  /-- `Encoding(name)` has returned: the encoding that was in use when it was called, that of
  the reply, and those that the client and the broker use from now on. -/
  | negotiated (name : String) (result : Bool) (old replied client broker : Kind)
deriving DecidableEq, Repr

/-- `ReceiveRequest` and what the receive thread does with the request: what it reads is what
was sent when the two buffers are of one kind. -/
def Connection.receive (cfg : Config) (c : Connection) (seen : Content) (served : Bool) :
    Option (Connection × Event) :=
  match c.requests with
  | [] => none
  | m :: rest =>
      if m.kind = c.fact → seen = m.content then
        some ({ c with requests := rest }.register cfg served seen, .message m.kind c.fact)
      else none

/-- A request has been executed; the reply, or the exception, is sent in its own buffer. -/
def Connection.answer (c : Connection) (p : Pending) : Option Connection :=
  if p ∈ c.pending then
    some { c with
      pending := c.pending.erase p
      replies := if p.sync then c.replies ++ [⟨p.kind, true⟩] else c.replies }
  else none

/-! ### The client -/

/-- The calls of a client that wait for a reply. -/
inductive Call where
  | encoding (name : String) (fact : Kind)
  | method
  | builtIn
  /-- The `AddRef` of `Serialize`; a method call follows. -/
  | addRef (sync : Bool)
  /-- The `BindStatus` of the `Bind` in `Serialize`. -/
  | bindStatus
  /-- The `DecRef` of `Serialize`. -/
  | decRef
deriving DecidableEq, Repr

def Call.content : Call → Content
  | .encoding name _ => .encoding name
  | .method => .method true
  | _ => .builtIn

/-- What a client is doing: `kind` is that of the buffer that `__pop_buf` points to during the
call. -/
inductive Pc where
  | idle
  | awaiting (kind : Kind) (call : Call)
deriving DecidableEq, Repr

/-- What a client reads in a reply. -/
inductive Outcome where
  | result (b : Bool)
  /-- After an `AddRef`: the interface is among the arguments once more. -/
  | again
  /-- The reply to a method hands the interface back to itself, with a reference. -/
  | self
  | exception
deriving DecidableEq, Repr

/-- What can be read in the reply `r` to a call: `Encoding` reads what the broker wrote when the
two buffers are of one kind. -/
def Call.admits (r : Reply) (kind : Kind) : Call → Outcome → Bool
  | .encoding .., .result b => r.kind ≠ kind || b = r.result
  | .encoding .., .exception => r.kind ≠ kind
  | .addRef _, .again => true
  | .method, .self | .decRef, .self => true
  | .encoding .., _ | _, .again | _, .self => false
  | _, _ => true

structure State where
  /-- The buffer in `__pop_buf` between two calls. -/
  buf : Kind
  /-- The factory of `__pop_combox`. -/
  fact : Kind
  pc : Pc
  /-- The connection of `__pop_combox`. -/
  conn : Connection
  /-- The connections of earlier comboxes, which the broker may still be reading. -/
  closed : List Connection
  log : List Event
deriving DecidableEq, Repr

/-- An interface that has just been bound. -/
def init : State := ⟨defaultFact, defaultFact, .idle, .new, [], []⟩

inductive Action where
  | encoding (name : String)
  /-- A method call, with the interface itself among its arguments or not. -/
  | call (sync self : Bool)
  | builtIn
  | receive (seen : Content) (served : Bool)
  | receiveClosed (i : ℕ) (seen : Content) (served : Bool)
  | answer (p : Pending)
  | getResponse (o : Outcome)
deriving DecidableEq, Repr

namespace State

def send (s : State) (kind : Kind) (content : Content) (pc : Pc) : State :=
  { s with conn := s.conn.send kind content, pc := pc }

/-- The request of a method call. -/
def request (s : State) (sync : Bool) : State :=
  s.send s.buf (.method sync) (if sync then .awaiting s.buf .method else .idle)

/-- The client goes on after a reply. -/
def complete (s : State) (kind : Kind) (r : Reply) : Call → Outcome → State
  | .encoding name k, .result true =>
      { s with
        buf := k
        fact := k
        pc := .idle
        log := s.log ++ [.negotiated name true kind r.kind k s.conn.fact] }
  | .encoding name _, .result false =>
      { s with
        pc := .idle
        log := s.log ++ [.negotiated name false kind r.kind s.buf s.conn.fact] }
  -- `Bind` replaces the combox and the buffer that `Serialize` has put in, not the old buffer
  | .method, .self | .decRef, .self =>
      { s with
        fact := defaultFact
        conn := Connection.new.send defaultFact .builtIn
        closed := s.closed ++ [s.conn]
        pc := .awaiting defaultFact .bindStatus }
  | .addRef sync, .result _ => s.request sync
  | .addRef sync, .again => s.send kind .builtIn (.awaiting kind (.addRef sync))
  | .bindStatus, .result _ => s.send kind .builtIn (.awaiting kind .decRef)
  -- the exception leaves `Serialize` before the old buffer is put back
  | .addRef _, .exception | .bindStatus, .exception | .decRef, .exception =>
      { s with buf := kind, pc := .idle }
  | _, _ => { s with pc := .idle }

end State

/-- One step of the client or of the broker. -/
def step (cfg : Config) (s : State) : Action → Option State
  | .encoding name =>
      if s.pc = .idle then
        match findFactory cfg.client name with
        | none => some s
        | some k => some (s.send s.buf (.encoding name) (.awaiting s.buf (.encoding name k)))
      else none
  | .call sync self =>
      if s.pc = .idle then
        some (if self then s.send s.fact .builtIn (.awaiting s.fact (.addRef sync))
          else s.request sync)
      else none
  | .builtIn =>
      if s.pc = .idle then some (s.send s.buf .builtIn (.awaiting s.buf .builtIn)) else none
  | .receive seen served =>
      (s.conn.receive cfg seen served).map fun x =>
        { s with conn := x.1, log := s.log ++ [x.2] }
  | .receiveClosed i seen served =>
      s.closed[i]?.bind fun c => (c.receive cfg seen served).map fun x =>
        { s with closed := s.closed.set i x.1, log := s.log ++ [x.2] }
  | .answer p => (s.conn.answer p).map fun c => { s with conn := c }
  | .getResponse o =>
      match s.pc, s.conn.replies with
      | .awaiting kind call, r :: rest =>
          if call.admits r kind o then
            some ({ s with
              conn := { s.conn with replies := rest }
              log := s.log ++ [Event.reply r.kind kind] }.complete kind r call o)
          else none
      | _, _ => none

/-- The two ends have used one encoding. -/
def Event.Agrees : Event → Prop
  | .message encoded decoded => encoded = decoded
  | .reply encoded decoded => encoded = decoded
  | .negotiated name result old replied client broker =>
      replied = old ∧ client = broker ∧
        (if result then client.bufferName = name else client = old)

/-- The encoding that a call is negotiating. -/
def Pc.negotiating : Pc → Option Kind
  | .awaiting _ (.encoding _ k) => some k
  | _ => none

/-- The steps that keep the encodings together. -/
def Keeps (cfg : Config) (s : State) : Action → Prop
  -- a Unix domain socket keeps the default encoding
  | .getResponse (.result true) =>
      cfg.protocol = .uds → ∀ k ∈ s.pc.negotiating, k = defaultFact
  -- the interface is handed back to itself in the encoding of a new combox
  | .getResponse .self => s.buf = defaultFact
  | _ => True

instance (cfg : Config) (s : State) : (a : Action) → Decidable (Keeps cfg s a)
  | .getResponse (.result true) => inferInstanceAs (Decidable (_ → _))
  | .getResponse .self => inferInstanceAs (Decidable (_ = _))
  | .getResponse (.result false) | .getResponse .again | .getResponse .exception | .encoding _
  | .call .. | .builtIn | .receive .. | .receiveClosed .. | .answer _ => isTrue trivial

/-! ### One connection -/

variable {cfg : Config} {c c' : Connection} {kind : Kind} {call : Call} {e : Event}

lemma bufferName_of_findFactory {finder : List Kind} {name : String} {k : Kind}
    (h : findFactory finder name = some k) : k.bufferName = name := by
  simpa using List.find?_some h

lemma Kind.bufferName_injective : Function.Injective Kind.bufferName := by
  intro k k' h
  cases k <;> cases k' <;> first | rfl | exact absurd h (by decide)

/-- The requests under way are in the encoding in which the broker will read them, and no call
waits for a reply to them. -/
def Connection.Async (c : Connection) : Prop :=
  ∀ m ∈ c.requests, m.kind = c.fact ∧ m.content.isSync = false

/-- No call is in progress on the connection. -/
structure Connection.Still (c : Connection) : Prop where
  requests : c.Async
  pending : ∀ p ∈ c.pending, p.sync = false
  replies : c.replies = []

/-- The factory of the broker once the reply `r` to a call has been sent. -/
def Call.settled (cfg : Config) (kind : Kind) (r : Reply) : Call → Kind
  | .encoding _ k =>
      match cfg.protocol with
      | .socket => if r.result then k else kind
      | .uds => kind
  | _ => kind

/-- The one call in progress: its request is under way, in the hands of the broker, or
answered. -/
inductive Connection.Waits (cfg : Config) (c : Connection) (kind : Kind) (call : Call) : Prop
  | requested (before : List Message)
      (requests : c.requests = before ++ [⟨kind, call.content⟩])
      (async : ∀ m ∈ before, m.kind = c.fact ∧ m.content.isSync = false)
      (fact : c.fact = kind) (pending : ∀ p ∈ c.pending, p.sync = false)
      (replies : c.replies = [])
  | queued (rest : List Pending) (plain : ∀ r, call.settled cfg kind r = kind)
      (requests : c.Async) (fact : c.fact = kind)
      (pending : c.pending.Perm (⟨kind, true⟩ :: rest)) (async : ∀ p ∈ rest, p.sync = false)
      (replies : c.replies = [])
  | replied (r : Reply) (requests : c.Async) (pending : ∀ p ∈ c.pending, p.sync = false)
      (replies : c.replies = [r]) (encoded : r.kind = kind)
      (fact : c.fact = call.settled cfg kind r)

@[simp] lemma Connection.requests_setBufferFactory (k : Kind) :
    (c.setBufferFactory cfg k).requests = c.requests := by
  rw [Connection.setBufferFactory]
  split <;> rfl

@[simp] lemma Connection.pending_setBufferFactory (k : Kind) :
    (c.setBufferFactory cfg k).pending = c.pending := by
  rw [Connection.setBufferFactory]
  split <;> rfl

@[simp] lemma Connection.requests_register {served : Bool} (content : Content) :
    (c.register cfg served content).requests = c.requests := by
  cases content with
  | encoding name =>
      simp only [Connection.register]
      split
      · exact Connection.requests_setBufferFactory _
      · rfl
  | builtIn =>
      simp only [Connection.register]
      split <;> rfl
  | method sync => rfl

lemma Connection.Still.new : Connection.new.Still :=
  ⟨by simp [Connection.Async, Connection.new], by simp [Connection.new], rfl⟩

lemma Connection.Still.send (h : c.Still) (hfact : c.fact = kind) :
    (c.send kind call.content).Waits cfg kind call :=
  .requested c.requests rfl h.requests hfact h.pending h.replies

lemma Connection.Still.send_async (h : c.Still) (hfact : c.fact = kind) :
    (c.send kind (.method false)).Still := by
  refine ⟨fun m hm => ?_, h.pending, h.replies⟩
  rcases List.mem_append.mp hm with hm | hm
  · exact h.requests m hm
  · obtain rfl := List.mem_singleton.mp hm
    exact ⟨hfact.symm, rfl⟩

/-- The broker takes a request of a call that does not wait. -/
lemma register_async {content : Content} (h : content.isSync = false) (served : Bool) :
    c.register cfg served content = { c with pending := c.pending ++ [⟨c.fact, false⟩] } := by
  cases content with
  | method sync =>
      obtain rfl : sync = false := h
      rfl
  | _ => simp [Content.isSync] at h

/-- What `receive` does with the first request when it is in the broker's encoding. -/
lemma Connection.receive_eq_some {m : Message} {rest : List Message} {seen : Content}
    {served : Bool} (hreq : c.requests = m :: rest) (hm : m.kind = c.fact)
    (h : c.receive cfg seen served = some (c', e)) :
    c' = { c with requests := rest }.register cfg served m.content ∧ e.Agrees := by
  rw [Connection.receive, hreq] at h
  simp only [hm, true_imp_iff] at h
  split at h
  · next hseen =>
      obtain ⟨rfl, rfl⟩ := Prod.mk.inj (Option.some.inj h)
      exact ⟨by rw [hseen], rfl⟩
  · exact absurd h (by simp)

lemma Connection.Async.receive {seen : Content} {served : Bool} (h : c.Async)
    (hrec : c.receive cfg seen served = some (c', e)) :
    c'.Async ∧ c'.fact = c.fact ∧ c'.replies = c.replies ∧
      c'.pending = c.pending ++ [⟨c.fact, false⟩] ∧ e.Agrees := by
  rcases hreq : c.requests with _ | ⟨m, rest⟩
  · simp [Connection.receive, hreq] at hrec
  · obtain ⟨hm, hasync⟩ := h m (by simp [hreq])
    obtain ⟨rfl, he⟩ := Connection.receive_eq_some hreq hm hrec
    rw [register_async hasync]
    exact ⟨fun x hx => h x (by simp [hreq, show x ∈ rest from hx]), rfl, rfl, rfl, he⟩

lemma Connection.Still.receive {seen : Content} {served : Bool} (h : c.Still)
    (hrec : c.receive cfg seen served = some (c', e)) :
    c'.Still ∧ c'.fact = c.fact ∧ e.Agrees := by
  obtain ⟨hasync, hfact, hreplies, hpending, he⟩ := h.requests.receive hrec
  refine ⟨⟨hasync, fun p hp => ?_, hreplies.trans h.replies⟩, hfact, he⟩
  rw [hpending] at hp
  rcases List.mem_append.mp hp with hp | hp
  · exact h.pending p hp
  · rw [List.mem_singleton.mp hp]

lemma Connection.Still.answer {p : Pending} (h : c.Still) (hans : c.answer p = some c') :
    c'.Still ∧ c'.fact = c.fact := by
  rw [Connection.answer] at hans
  split at hans
  · next hp =>
      obtain rfl := Option.some.inj hans
      refine ⟨⟨h.requests, fun q hq => h.pending q (List.mem_of_mem_erase hq), ?_⟩, rfl⟩
      simp [h.pending p hp, h.replies]
  · exact absurd hans (by simp)

/-- The client asks for a factory by its name. -/
def Call.Named : Call → Prop
  | .encoding name k => k.bufferName = name
  | _ => True

@[simp] lemma Call.settled_of_content {r : Reply} (h : call.content = .builtIn) :
    call.settled cfg kind r = kind := by
  cases call <;> first | rfl | exact absurd h (by simp [Call.content])

/-- The broker comes to the request of the call in progress, the last one under way. -/
lemma Connection.Waits.register {served : Bool} (hnamed : call.Named) (hreq : c.requests = [])
    (hfact : c.fact = kind) (hpend : ∀ p ∈ c.pending, p.sync = false) (hrep : c.replies = []) :
    (c.register cfg served call.content).Waits cfg kind call := by
  have hasync : (c.register cfg served call.content).Async := by
    simp [Connection.Async, hreq]
  have hpending : (c.pending ++ [(⟨c.fact, true⟩ : Pending)]).Perm (⟨kind, true⟩ :: c.pending) := by
    rw [hfact]
    exact List.perm_append_singleton _ c.pending
  have hbuiltIn (hcontent : call.content = .builtIn) :
      (c.register cfg served call.content).Waits cfg kind call := by
    have hplain (r : Reply) : call.settled cfg kind r = kind := Call.settled_of_content hcontent
    rw [hcontent] at hasync ⊢
    cases served with
    | true =>
        exact .replied ⟨c.fact, true⟩ hasync hpend (by simp [Connection.register, hrep]) hfact
          (hfact.trans (hplain _).symm)
    | false => exact .queued c.pending hplain hasync hfact hpending hpend hrep
  cases call with
  | encoding name k =>
      simp only [Call.content, Connection.register] at hasync ⊢
      split
      · next k' hk =>
          obtain rfl : k' = k :=
            Kind.bufferName_injective ((bufferName_of_findFactory hk).trans hnamed.symm)
          rw [hk] at hasync
          refine .replied ⟨c.fact, true⟩ hasync (by simpa using hpend) (by simp [hrep]) hfact ?_
          rcases hprot : cfg.protocol <;>
            simp [Connection.setBufferFactory, Call.settled, hprot, hfact]
      · next hnone =>
          rw [hnone] at hasync
          refine .replied ⟨c.fact, false⟩ hasync hpend (by simp [hrep]) hfact ?_
          rcases hprot : cfg.protocol <;> simp [Call.settled, hprot, hfact]
  | method => exact .queued c.pending (fun r => rfl) hasync hfact hpending hpend hrep
  | _ => exact hbuiltIn rfl

lemma Connection.Waits.receive {seen : Content} {served : Bool} (h : c.Waits cfg kind call)
    (hnamed : call.Named) (hrec : c.receive cfg seen served = some (c', e)) :
    c'.Waits cfg kind call ∧ e.Agrees := by
  cases h with
  | requested before requests async fact pending replies =>
      cases before with
      | nil =>
          obtain ⟨rfl, he⟩ := Connection.receive_eq_some requests fact.symm hrec
          exact ⟨Connection.Waits.register hnamed rfl fact pending replies, he⟩
      | cons m before =>
          obtain ⟨hm, hasync⟩ := async m (by simp)
          obtain ⟨rfl, he⟩ := Connection.receive_eq_some requests hm hrec
          rw [register_async hasync]
          refine ⟨.requested before rfl (fun x hx => async x (by simp [hx])) fact ?_ replies, he⟩
          intro p hp
          rcases List.mem_append.mp hp with hp | hp
          · exact pending p hp
          · rw [List.mem_singleton.mp hp]
  | queued rest plain requests fact pending async replies =>
      obtain ⟨hasync, hfact, hreplies, hpending, he⟩ := requests.receive hrec
      refine ⟨.queued (rest ++ [⟨c.fact, false⟩]) plain hasync (hfact.trans fact) ?_ ?_
        (hreplies.trans replies), he⟩
      · rw [hpending]
        exact pending.append_right _
      · intro p hp
        rcases List.mem_append.mp hp with hp | hp
        · exact async p hp
        · rw [List.mem_singleton.mp hp]
  | replied r requests pending replies encoded fact =>
      obtain ⟨hasync, hfact, hreplies, hpending, he⟩ := requests.receive hrec
      refine ⟨.replied r hasync ?_ (hreplies.trans replies) encoded (hfact.trans fact), he⟩
      intro p hp
      rw [hpending] at hp
      rcases List.mem_append.mp hp with hp | hp
      · exact pending p hp
      · rw [List.mem_singleton.mp hp]

lemma Connection.Waits.answer {p : Pending} (h : c.Waits cfg kind call)
    (hans : c.answer p = some c') : c'.Waits cfg kind call := by
  rw [Connection.answer] at hans
  split at hans
  · next hp =>
      obtain rfl := Option.some.inj hans
      cases h with
      | requested before requests async fact pending replies =>
          exact .requested before requests async fact
            (fun q hq => pending q (List.mem_of_mem_erase hq)) (by simp [pending p hp, replies])
      | queued rest plain requests fact pending async replies =>
          have herase := pending.erase p
          by_cases hpk : p = ⟨kind, true⟩
          · subst hpk
            rw [List.erase_cons_head] at herase
            exact .replied ⟨kind, true⟩ requests (fun q hq => async q (herase.mem_iff.mp hq))
              (by simp [replies]) rfl (fact.trans (plain _).symm)
          · rw [List.erase_cons_tail (by simpa using Ne.symm hpk)] at herase
            have hmem : p ∈ rest := by simpa [hpk] using pending.mem_iff.mp hp
            exact .queued (rest.erase p) plain requests fact herase
              (fun q hq => async q (List.mem_of_mem_erase hq)) (by simp [async p hmem, replies])
      | replied r requests pending replies encoded fact =>
          exact .replied r requests (fun q hq => pending q (List.mem_of_mem_erase hq))
            (by simp [pending p hp, replies]) encoded fact
  · exact absurd hans (by simp)

/-! ### The whole system -/

open Transition

variable {s t : State} {a : Action} {as : List Action}

/-- The client, its combox and the broker are in one encoding, but for a negotiation whose
reply is under way. -/
structure Agreed (cfg : Config) (s : State) : Prop where
  client : s.buf = s.fact
  uds : cfg.protocol = .uds → s.buf = defaultFact
  closed : ∀ c ∈ s.closed, c.Async
  idle : s.pc = .idle → s.conn.Still ∧ s.conn.fact = s.buf
  awaiting : ∀ kind call, s.pc = .awaiting kind call →
    kind = s.buf ∧ call.Named ∧ s.conn.Waits cfg kind call
  log : ∀ e ∈ s.log, e.Agrees

lemma agreed_init : Agreed cfg init :=
  ⟨rfl, fun _ => rfl, by simp [init], fun _ => ⟨.new, rfl⟩, by simp [init], by simp [init]⟩

/-- The broker does something on the connection. -/
lemma Agreed.withConn (h : Agreed cfg s)
    (hidle : s.conn.Still → c'.Still ∧ c'.fact = s.conn.fact)
    (hawaiting : ∀ kind call, call.Named → s.conn.Waits cfg kind call → c'.Waits cfg kind call) :
    Agreed cfg { s with conn := c' } := by
  refine ⟨h.client, h.uds, h.closed, fun hpc => ?_, fun kind call hpc => ?_, h.log⟩
  · obtain ⟨hstill, hfact⟩ := h.idle hpc
    exact ⟨(hidle hstill).1, (hidle hstill).2.trans hfact⟩
  · obtain ⟨hkind, hnamed, hwaits⟩ := h.awaiting kind call hpc
    exact ⟨hkind, hnamed, hawaiting kind call hnamed hwaits⟩

/-- A client that is at rest sends a request and waits. -/
lemma Agreed.send (h : Agreed cfg s) (call : Call) (hstill : s.conn.Still)
    (hfact : s.conn.fact = s.buf) (hkind : kind = s.buf) (hnamed : call.Named) :
    Agreed cfg (s.send kind call.content (.awaiting kind call)) := by
  refine ⟨h.client, h.uds, h.closed, by simp [State.send], ?_, h.log⟩
  intro kind' call' heq
  obtain ⟨rfl, rfl⟩ : kind = kind' ∧ call = call' := by simpa [State.send] using heq
  exact ⟨hkind, hnamed, hstill.send (hfact.trans hkind.symm)⟩

/-- A client is at rest after a call. -/
lemma Agreed.rest (h : Agreed cfg s) (hstill : s.conn.Still) (hfact : s.conn.fact = s.buf) :
    Agreed cfg { s with pc := .idle } :=
  ⟨h.client, h.uds, h.closed, fun _ => ⟨hstill, hfact⟩, by simp, h.log⟩

lemma Agreed.request (h : Agreed cfg s) (hstill : s.conn.Still) (hfact : s.conn.fact = s.buf)
    (sync : Bool) : Agreed cfg (s.request sync) := by
  cases sync with
  | true => exact h.send .method hstill hfact rfl trivial
  | false =>
      exact ⟨h.client, h.uds, h.closed, fun _ => ⟨hstill.send_async hfact, hfact⟩,
        by simp [State.request, State.send], h.log⟩

lemma Agreed.logged (h : Agreed cfg s) (he : e.Agrees) :
    Agreed cfg { s with log := s.log ++ [e] } := by
  refine ⟨h.client, h.uds, h.closed, h.idle, h.awaiting, fun x hx => ?_⟩
  rcases List.mem_append.mp hx with hx | hx
  · exact h.log x hx
  · rw [List.mem_singleton.mp hx]
    exact he

/-- Only the reply can be read in a call that waits for one. -/
lemma Connection.Waits.of_replies {r : Reply} {rest : List Reply} (h : c.Waits cfg kind call)
    (hrep : c.replies = r :: rest) :
    ({ c with replies := rest } : Connection).Still ∧ r.kind = kind ∧
      c.fact = call.settled cfg kind r := by
  cases h with
  | requested _ _ _ _ _ replies | queued _ _ _ _ _ _ replies => simp [hrep] at replies
  | replied r' requests pending replies encoded fact =>
      obtain ⟨rfl, rfl⟩ : r = r' ∧ rest = [] := by simpa [hrep] using replies
      exact ⟨⟨requests, pending, rfl⟩, encoded, fact⟩

/-- The client has read the reply to a call that does not negotiate. -/
lemma Agreed.read {r : Reply} {rest : List Reply} (h : Agreed cfg s)
    (hpc : s.pc = .awaiting kind call) (hrep : s.conn.replies = r :: rest)
    (hplain : call.settled cfg kind r = kind) :
    Agreed cfg { s with
      conn := { s.conn with replies := rest }
      pc := .idle
      log := s.log ++ [Event.reply r.kind kind] } := by
  obtain ⟨hkind, -, hwaits⟩ := h.awaiting kind call hpc
  obtain ⟨hstill, hr, hfact⟩ := hwaits.of_replies hrep
  have hrest : Agreed cfg { s with conn := { s.conn with replies := rest }, pc := .idle } :=
    ⟨h.client, h.uds, h.closed, fun _ => ⟨hstill, hfact.trans (hplain.trans hkind)⟩, by simp,
      h.log⟩
  exact hrest.logged (show Event.Agrees (.reply r.kind kind) from hr)

/-- `Serialize` binds anew: the encoding of a new combox is the one in use. -/
lemma Agreed.rebind (h : Agreed cfg s) (hstill : s.conn.Still) (hbuf : s.buf = defaultFact) :
    Agreed cfg { s with
      fact := defaultFact
      conn := Connection.new.send defaultFact .builtIn
      closed := s.closed ++ [s.conn]
      pc := .awaiting defaultFact .bindStatus } := by
  refine ⟨hbuf, fun _ => hbuf, fun c hc => ?_, by simp, ?_, h.log⟩
  · rcases List.mem_append.mp hc with hc | hc
    · exact h.closed c hc
    · rw [List.mem_singleton.mp hc]
      exact hstill.requests
  · intro kind call heq
    obtain ⟨rfl, rfl⟩ : defaultFact = kind ∧ .bindStatus = call := by simpa using heq
    refine ⟨hbuf.symm, trivial, ?_⟩
    show (Connection.new.send defaultFact (Call.content .bindStatus)).Waits cfg _ _
    exact Connection.Still.new.send rfl

/-- The client has read the reply to `Encoding`. -/
lemma Agreed.negotiate {r : Reply} {rest : List Reply} {name : String} {k : Kind} {b : Bool}
    (h : Agreed cfg s) (hpc : s.pc = .awaiting kind (.encoding name k))
    (hrep : s.conn.replies = r :: rest) (hadm : (Call.encoding name k).admits r kind (.result b))
    (hkeep : b = true → cfg.protocol = .uds → k = defaultFact) :
    Agreed cfg (State.complete { s with
      conn := { s.conn with replies := rest }
      log := s.log ++ [Event.reply r.kind kind] } kind r (.encoding name k) (.result b)) := by
  obtain ⟨hkind, hnamed, hwaits⟩ := h.awaiting kind _ hpc
  obtain ⟨hstill, hr, hfact⟩ := hwaits.of_replies hrep
  obtain rfl : b = r.result := by simpa [Call.admits, hr] using hadm
  have hlog : ∀ x ∈ s.log ++ [Event.reply r.kind kind], x.Agrees :=
    (h.logged (e := .reply r.kind kind) hr).log
  rcases hb : r.result with _ | _
  · -- the broker does not know the name and has set nothing
    have hsame : s.conn.fact = s.buf := by
      rw [hfact, Call.settled]
      cases cfg.protocol <;> simp [hb, hkind]
    refine Agreed.logged (s := { s with
      conn := { s.conn with replies := rest }, pc := .idle
      log := s.log ++ [Event.reply r.kind kind] })
      ⟨h.client, h.uds, h.closed, fun _ => ⟨hstill, hsame⟩, by simp, hlog⟩ ?_
    exact ⟨hr, hsame.symm, by simp [hkind]⟩
  · have hset : s.conn.fact = k := by
      rw [hfact, Call.settled]
      rcases hprot : cfg.protocol
      · simp [hb]
      · rw [hkind, h.uds hprot, hkeep hb hprot]
    refine Agreed.logged (s := { s with
      buf := k, fact := k, conn := { s.conn with replies := rest }, pc := .idle
      log := s.log ++ [Event.reply r.kind kind] })
      ⟨rfl, hkeep hb, h.closed, fun _ => ⟨hstill, hset⟩, by simp, hlog⟩ ?_
    exact ⟨hr, hset.symm, by simpa [Call.Named] using hnamed⟩

lemma Agreed.complete {r : Reply} {rest : List Reply} {o : Outcome} (h : Agreed cfg s)
    (hpc : s.pc = .awaiting kind call) (hrep : s.conn.replies = r :: rest)
    (hadm : call.admits r kind o) (hkeeps : Keeps cfg s (.getResponse o)) :
    Agreed cfg (State.complete { s with
      conn := { s.conn with replies := rest }
      log := s.log ++ [Event.reply r.kind kind] } kind r call o) := by
  obtain ⟨hkind, -, hwaits⟩ := h.awaiting kind call hpc
  obtain ⟨hstill, hr, -⟩ := hwaits.of_replies hrep
  cases call with
  | encoding name k =>
      cases o with
      | result b =>
          -- the answer names the encoding, and both ends take it up together
          refine h.negotiate hpc hrep hadm fun hb huds => ?_
          subst hb
          exact hkeeps huds k (by simp [hpc, Pc.negotiating])
      | exception => exact absurd hr (by simpa [Call.admits] using hadm)
      | again | self => simp [Call.admits] at hadm
  | method =>
      have hrest := h.read hpc hrep rfl
      cases o with
      | result b | exception => exact hrest
      -- the call has released the interface, which binds again
      | self => exact hrest.rebind hstill hkeeps
      | again => simp [Call.admits] at hadm
  | builtIn =>
      have hrest := h.read hpc hrep rfl
      cases o with
      | result b | exception => exact hrest
      | again | self => simp [Call.admits] at hadm
  | addRef sync =>
      have hrest := h.read hpc hrep rfl
      have hfact := (hrest.idle rfl).2
      subst hkind
      cases o with
      | result b => exact hrest.request hstill hfact sync
      | again => exact hrest.send (.addRef sync) hstill hfact rfl trivial
      | exception => exact hrest
      | self => simp [Call.admits] at hadm
  | bindStatus =>
      have hrest := h.read hpc hrep rfl
      have hfact := (hrest.idle rfl).2
      subst hkind
      cases o with
      | result b => exact hrest.send .decRef hstill hfact rfl trivial
      | exception => exact hrest
      | again | self => simp [Call.admits] at hadm
  | decRef =>
      have hrest := h.read hpc hrep rfl
      subst hkind
      cases o with
      | result b | exception => exact hrest
      | self => exact hrest.rebind hstill hkeeps
      | again => simp [Call.admits] at hadm

lemma Agreed.step (h : Agreed cfg s) (hkeeps : Keeps cfg s a) (hst : step cfg s a = some t) :
    Agreed cfg t := by
  cases a with
  | encoding name =>
      simp only [Encoding.step] at hst
      split at hst
      · next hpc =>
          obtain ⟨hstill, hfact⟩ := h.idle hpc
          split at hst
          · obtain rfl := Option.some.inj hst
            exact h
          · next k hk =>
              obtain rfl := Option.some.inj hst
              exact h.send (.encoding name k) hstill hfact rfl (bufferName_of_findFactory hk)
      · exact absurd hst (by simp)
  | call sync self =>
      simp only [Encoding.step] at hst
      split at hst
      · next hpc =>
          obtain ⟨hstill, hfact⟩ := h.idle hpc
          obtain rfl := Option.some.inj hst
          split
          -- the argument is the interface itself: its `AddRef` comes before the request
          · exact h.send (.addRef sync) hstill hfact h.client.symm trivial
          · exact h.request hstill hfact sync
      · exact absurd hst (by simp)
  | builtIn =>
      simp only [Encoding.step] at hst
      split at hst
      · next hpc =>
          obtain ⟨hstill, hfact⟩ := h.idle hpc
          obtain rfl := Option.some.inj hst
          exact h.send .builtIn hstill hfact rfl trivial
      · exact absurd hst (by simp)
  | receive seen served =>
      obtain ⟨⟨c', e⟩, hrec, rfl⟩ := Option.map_eq_some_iff.mp hst
      -- what the object reads agrees, whether the interface is idle or waits
      have he : e.Agrees := by
        rcases hpc : s.pc with _ | ⟨kind, call⟩
        · exact ((h.idle hpc).1.receive hrec).2.2
        · obtain ⟨-, hnamed, hwaits⟩ := h.awaiting kind call hpc
          exact (hwaits.receive hnamed hrec).2
      have hconn : Agreed cfg { s with conn := c' } := by
        refine h.withConn (fun hstill => ?_) fun kind call hnamed hwaits => ?_
        · exact ⟨(hstill.receive hrec).1, (hstill.receive hrec).2.1⟩
        · exact (hwaits.receive hnamed hrec).1
      exact hconn.logged he
  | receiveClosed i seen served =>
      obtain ⟨c, hc, hmap⟩ := Option.bind_eq_some_iff.mp hst
      obtain ⟨⟨c', e⟩, hrec, rfl⟩ := Option.map_eq_some_iff.mp hmap
      obtain ⟨hasync, -, -, -, he⟩ := (h.closed c (List.mem_of_getElem? hc)).receive hrec
      refine Agreed.logged (s := { s with closed := s.closed.set i c' })
        ⟨h.client, h.uds, fun x hx => ?_, h.idle, h.awaiting, h.log⟩ he
      rcases List.mem_or_eq_of_mem_set hx with hx | rfl
      · exact h.closed x hx
      · exact hasync
  | answer p =>
      obtain ⟨c', hans, rfl⟩ := Option.map_eq_some_iff.mp hst
      exact h.withConn (fun hstill => hstill.answer hans) fun _ _ _ hwaits => hwaits.answer hans
  | getResponse o =>
      simp only [Encoding.step] at hst
      split at hst
      · next kind call r rest hpc hrep =>
          split at hst
          · next hadm =>
              obtain rfl := Option.some.inj hst
              exact h.complete hpc hrep hadm hkeeps
          · exact absurd hst (by simp)
      · exact absurd hst (by simp)

/-- **Encoding agreement.**  In a run of steps that keep the encodings together every message
and every reply is decoded in the encoding it was encoded in; `Encoding(name)` is answered in
the old one, and leaves both sides in the encoding `name`, or, when it is refused, in the old
one; and between two calls the client, its combox and the broker are in one encoding. -/
theorem encodings_agree (hrun : run (Encoding.step cfg) init as = some s)
    (hkeeps : Along (Encoding.step cfg) (Keeps cfg) init as) :
    (∀ e ∈ s.log, e.Agrees) ∧ (s.pc = .idle → s.buf = s.fact ∧ s.conn.fact = s.buf) := by
  have hagreed : Agreed cfg s :=
    run_invariant_along (fun s a t hs ha hst => hs.step ha hst) agreed_init hkeeps hrun
  exact ⟨hagreed.log, fun hpc => ⟨hagreed.client, (hagreed.idle hpc).2⟩⟩

/-- Over a socket the client negotiates `raw`, asks for an encoding that nobody knows and calls
a method. -/
def negotiateAndCall : List Action :=
  [.encoding "raw", .receive (.encoding "raw") true, .getResponse (.result true),
    .encoding "zip", .call true false, .receive (.method true) true, .answer ⟨.raw, true⟩,
    .getResponse (.result true)]

theorem encodings_agree_negotiateAndCall :
    ∃ s, run (Encoding.step ⟨.socket, [.xdr, .raw], [.xdr, .raw]⟩) init negotiateAndCall = some s ∧
      s.buf = .raw ∧ (∀ e ∈ s.log, e.Agrees) ∧ s.conn.fact = s.buf := by
  obtain ⟨s, hs⟩ : ∃ s, run (Encoding.step ⟨.socket, [.xdr, .raw], [.xdr, .raw]⟩) init
      negotiateAndCall = some s := Option.isSome_iff_exists.mp (by decide)
  have hend : s.buf = .raw ∧ s.pc = .idle := by
    revert s
    decide
  obtain ⟨hlog, hidle⟩ := encodings_agree hs (by decide)
  exact ⟨s, hs, hend.1, hlog, (hidle hend.2).2⟩

/-! ### Encodings that have come apart -/

/-- The connection on which the broker sets the factory of a Unix domain socket is not the one
on which it receives the next message. -/
theorem mismatch_after_negotiation :
    ∃ s, run (Encoding.step ⟨.uds, [.xdr, .raw], [.xdr, .raw]⟩) init
      [.encoding "raw", .receive (.encoding "raw") true, .getResponse (.result true),
        .call true false, .receive (.method true) true] = some s ∧
      .message .raw .xdr ∈ s.log := by
  refine ⟨_, rfl, ?_⟩
  decide

/-- Once a client at rest and the broker are in two encodings, the next call goes wrong. -/
theorem exists_mismatch (hpc : s.pc = .idle) (hreq : s.conn.requests = []) :
    ∃ bs t, run (Encoding.step cfg) s bs = some t ∧ .message s.buf s.conn.fact ∈ t.log := by
  have hcall : Encoding.step cfg s (.call false false) = some (s.request false) := by
    simp [Encoding.step, hpc]
  obtain ⟨t, hreceive, ht⟩ : ∃ t, Encoding.step cfg (s.request false)
      (.receive (.method false) true) = some t ∧ .message s.buf s.conn.fact ∈ t.log := by
    simp [Encoding.step, State.request, State.send, Connection.send, Connection.receive, hreq]
  exact ⟨[.call false false, .receive (.method false) true], t,
    run_cons_eq_some.mpr ⟨_, hcall, run_cons_eq_some.mpr ⟨t, hreceive, rfl⟩⟩, ht⟩

/-- A call that hands the interface back to itself takes the broker, but not the buffer, to the
encoding of a new combox. -/
theorem exists_split_of_self {k : Kind} {closed : List Connection} {log : List Event} :
    ∃ bs t, run (Encoding.step cfg) ⟨k, k, .idle, ⟨k, [], [], []⟩, closed, log⟩ bs = some t ∧
      t.pc = .idle ∧ t.conn.requests = [] ∧ t.buf = k ∧ t.conn.fact = defaultFact := by
  refine ⟨[.call true false, .receive (.method true) true, .answer ⟨k, true⟩, .getResponse .self,
    .receive .builtIn true, .getResponse (.result true), .receive .builtIn true,
    .getResponse (.result true)], ?_⟩
  cases k <;> exact ⟨_, rfl, rfl, rfl, rfl, rfl⟩

end Interface.Encoding
