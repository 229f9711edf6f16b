/-
# The receive loop against its clients

A round of `ReceiveThread` receives a message, serves it if it is a built-in call and
registers it otherwise (`lib/dynamic/broker_receive.cc`).  A `std::exception` that reaches the
loop ends it, and the server is closed for everybody.  This file finds the messages with which
a client can bring that about: the requests of `Encoding` that have no string, and no others.
-/
import PopCpp.Broker.PopCall
import Mathlib.Data.List.GetD

namespace PopCpp.Broker

open Buffer Channel Bytes CInt

/-! ### A refused thread -/

def USER_DEFINE_LASTERROR : ℕ := USER_DEFINE_ERROR + 17

/-- `pop_exception::paroc_errstr` -/
def paroc_errstr : List String :=
  ["Out of resource", "Fail to bind to the remote object broker", "Mismatch remote method id",
    "Can not access code service", "Object allocation failed", "No parallel object executable",
    "Bad paroc package format", "Local application service failed", "Job Manager service failed",
    "Execution of object code failed", "Bad binding reply", "No support protocol",
    "No support data encoding", "Standard exception", "Acknowledgement not received",
    "Network configuration error", "Unknown exception"]

/-- `pop_exception(code)` -/
def popException (p : Process) (code : ℤ) : PopException where
  code := BitVec.ofInt 32 code
  info :=
    if code = UNKNOWN_EXCEPTION then []
    else if code ≥ USER_DEFINE_LASTERROR then []
    else if code > USER_DEFINE_ERROR then
      text (paroc_errstr.getD (code - USER_DEFINE_ERROR - 1).toNat "")
    else text "System error(" ++ p.strerror code ++ text ")"

/-- `AddInfo(str)` -/
def addInfo (e : PopException) (str : List UInt8) : PopException :=
  { e with info := (if e.info = [] then [] else e.info ++ text ": ") ++ str }

def isConc (semantics : BitVec 32) : Bool := semantics &&& INVOKE_CONC.toBitVec != 0

def isMutex (semantics : BitVec 32) : Bool := semantics &&& INVOKE_MUTEX.toBitVec != 0

section

variable (F : Format) (p : Process) (c : Conn UInt8)

/-- The branch of `ServeRequest` for concurrent requests, with what `create()` returns in the
end.  The first component says whether the thread runs. -/
def serveConc (create : ℤ) (sync : Bool) : BufM (Bool × Conn UInt8) :=
  if create = 0 then pure (true, c)
  else if sync then do
    let e := addInfo (addInfo (popException p create) p.classname) p.accesspoint
    let r ← sendException F c (.popException e)
    pure (false, r.2)
  else pure (false, c)

/-- What `RegisterRequest` has done with a request. -/
inductive Registered where
  /-- It is in `request_fifo`. -/
  | queued
  /-- A thread of its own serves it. -/
  | started
  /-- There is no thread for it; this is the connection afterwards. -/
  | refused (c : Conn UInt8)

/-- `RegisterRequest(req)`, and `mutexCount` afterwards. -/
def registerRequest (create mutexCount : ℤ) (semantics : BitVec 32) : BufM (Registered × ℤ) :=
  if isConc semantics then
    if mutexCount ≤ 0 then do
      let r ← serveConc F p c create (wantsReply semantics)
      pure (if r.1 then .started else .refused r.2, mutexCount)
    else pure (.queued, mutexCount)
  else if isMutex semantics then pure (.queued, mutexCount + 1)
  else pure (.queued, mutexCount)

end

/-! ### The loop -/

/-- How a round of the loop ends. -/
inductive Round where
  /-- The loop goes on. -/
  | continues
  /-- `break`, and then `server->Close()`. -/
  | closes
  /-- The process has exited, as it was told to. -/
  | exits
  /-- An exception leaves the thread. -/
  | terminates
  /-- Undefined behaviour. -/
  | undefined
deriving DecidableEq, Repr

/-- The handler catches `std::exception`. -/
def Round.ofThrown : Thrown → Round
  | .popException _ => .closes
  | .lengthError => .closes
  | _ => .terminates

/-- A message that `Recv` accepts: the connection, whose encoding may be either, the buffer
that was created for it, and what the broker is like then. -/
structure Arrival where
  F : Format
  standard : F = raw ∨ ∃ lib : XdrLib, lib.Documented ∧ F = xdr lib
  fresh : PopBuffer
  conn : Conn UInt8
  from_ : Conn UInt8
  data : PopBuffer
  accepted : recv F conn fresh = .ok (true, from_) data
  view : View
  mutexCount : ℤ
  create : ℤ

namespace Arrival

variable (p : Process) (a : Arrival)

def methodId : BitVec 32 := a.data.header.methodId

def semantics : BitVec 32 := a.data.header.semantics

/-- The body of the loop, after `ReceiveRequest`. -/
def round : Round :=
  match popCall a.F p a.view a.from_ a.methodId a.semantics a.data with
  | .ok (.served _) _ => .continues
  | .ok .exited _ => .exits
  | .throws e _ => .ofThrown e
  | .undefined => .undefined
  | .ok .declined data =>
      match registerRequest a.F p a.from_ a.create a.mutexCount a.semantics data with
      | .ok _ _ => .continues
      | .throws e _ => .ofThrown e
      | .undefined => .undefined

/-- `Kill`, of an object that allows it. -/
def Kills : Prop := a.methodId = 4 ∧ a.view.obj.isSome = true ∧ a.view.canKill = true

end Arrival

/-- The loop of `ReceiveThread` on messages in the order of their arrival, and the ones that
are not received any more. -/
def receiveThread (p : Process) : List Arrival → Round × List Arrival
  | [] => (.continues, [])
  | a :: as =>
      match a.round p with
      | .continues => receiveThread p as
      | r => (r, as)

/-! ### Texts are short -/

lemma length_paroc_errstr (i : ℕ) : (text (paroc_errstr.getD i "")).length ≤ 41 := by
  have hall : ∀ s ∈ paroc_errstr, s.utf8ByteSize ≤ 41 := by decide
  rw [length_text]
  rcases lt_or_ge i paroc_errstr.length with h | h
  · rw [List.getD_eq_getElem _ _ h]
    exact hall _ (List.getElem_mem h)
  · rw [List.getD_eq_default _ _ h]
    decide

variable {F : Format} {p : Process} {c : Conn UInt8} {b : PopBuffer}

lemma length_popException (p : Process) (code : ℤ) :
    (popException p code).info.length < 2 ^ 20 + 64 := by
  have hshort := p.short_strerror code
  have hlong := length_paroc_errstr (code - USER_DEFINE_ERROR - 1).toNat
  have hopen : (text "System error(").length = 13 := length_text _
  have hclose : (text ")").length = 1 := length_text _
  simp only [popException]
  split_ifs
  · simp
  · simp
  · omega
  · rw [List.length_append, List.length_append, hopen, hclose]
    omega

lemma length_addInfo (e : PopException) (str : List UInt8) :
    (addInfo e str).info.length ≤ e.info.length + 2 + str.length := by
  have hcolon : (text ": ").length = 2 := length_text _
  rw [addInfo]
  split_ifs with h
  · simp
  · simp only [List.length_append, hcolon]
    omega

/-! ### One round -/

lemma wrap_toNat_le (n : ℕ) : (wrap ((n : ℤ) + 1)).toNat ≤ n + 1 := by
  have hle : wrap ((n : ℤ) + 1) ≤ n + 1 := wrap_le (by omega)
  omega

/-- An exception is sent when there is room for its text. -/
lemma sendException_fits (hF : Serves F) {e : PopException}
    (he : 24 + stringSize e.info < 2 ^ 31) (b : PopBuffer) (c : Conn UInt8) :
    ∃ m b', sendException F c (.popException e) b = .ok (true, c.send (frame F m)) b' ∧
      Sendable m ∧ m.header.type = TYPE_EXCEPTION := by
  obtain ⟨bs, hbs, happ, -⟩ := hF.strings.int e.code
  obtain ⟨bs', hbs', happ'⟩ := packString_appends hF.strings e.info
  obtain ⟨m, hsent, hsendable, hheader, -⟩ := sendExceptionWith_eq hF.frames
    EXCEPTION_POPC_STD (happ.bind (happ'.bind Appends.pure))
    (by simp only [List.length_append, List.length_nil, hbs, hbs']; omega) b c
  exact ⟨m, _, hsent, hsendable, by rw [hheader]⟩

lemma stringSize_lt {s : List UInt8} (h : s.length < 2 ^ 24) : 24 + stringSize s < 2 ^ 31 := by
  have hlen := wrap_toNat_le s.length
  simp only [stringSize, roundUp4]
  omega

/-- The caller is told that there is no thread. -/
lemma serveConc_refused (hF : Serves F) {create : ℤ} (hcreate : create ≠ 0) (b : PopBuffer) :
    ∃ m b', serveConc F p c create true b = .ok (false, c.send (frame F m)) b' ∧ Sendable m ∧
      m.header.type = TYPE_EXCEPTION := by
  have hinfo : (addInfo (addInfo (popException p create) p.classname) p.accesspoint).info.length <
      2 ^ 24 := by
    have h₁ := length_popException p create
    have h₂ := length_addInfo (popException p create) p.classname
    have h₃ := length_addInfo (addInfo (popException p create) p.classname) p.accesspoint
    have hclass := p.short_classname
    have haccess := p.short_accesspoint
    omega
  obtain ⟨m, b', hsent, hm⟩ := sendException_fits hF (stringSize_lt hinfo) b c
  rw [serveConc, if_neg hcreate, if_pos rfl, BufM.bind_ok hsent]
  exact ⟨m, b', rfl, hm⟩

lemma serveConc_eq (hF : Serves F) (create : ℤ) (sync : Bool) (b : PopBuffer) :
    ∃ r b', serveConc F p c create sync b = .ok r b' := by
  by_cases hcreate : create = 0
  · exact ⟨_, b, by rw [serveConc, if_pos hcreate]; rfl⟩
  · cases sync with
    | true =>
        obtain ⟨m, b', hrefused, -⟩ := serveConc_refused (p := p) (c := c) hF hcreate b
        exact ⟨_, b', hrefused⟩
    | false => exact ⟨_, b, by rw [serveConc, if_neg hcreate]; rfl⟩

/-- Registering a request throws nothing. -/
lemma registerRequest_eq (hF : Serves F) (create mutexCount : ℤ) (semantics : BitVec 32)
    (b : PopBuffer) : ∃ r b', registerRequest F p c create mutexCount semantics b = .ok r b' := by
  obtain ⟨r, b', hserve⟩ := serveConc_eq (p := p) (c := c) hF create (wantsReply semantics) b
  rw [registerRequest]
  split_ifs
  · rw [BufM.bind_ok hserve]
    exact ⟨_, b', rfl⟩
  · exact ⟨_, b, rfl⟩
  · exact ⟨_, b, rfl⟩
  · exact ⟨_, b, rfl⟩

namespace Arrival

variable (p) (a : Arrival)

lemma serves : Serves a.F := serves_of a.standard

lemma received : Received a.data := received_of_recv a.serves.frames a.accepted

lemma round_of_served {c : Conn UInt8} {b : PopBuffer}
    (h : popCall a.F p a.view a.from_ a.methodId a.semantics a.data = .ok (.served c) b) :
    a.round p = .continues := by
  rw [round, h]

/-- Only `Encoding` can end the loop, and it needs a string. -/
lemma round_eq_continues_iff (hkill : ¬a.Kills) :
    a.round p = .continues ↔ (a.methodId = 3 → HasString a.F a.data) := by
  have hF := a.serves
  cases hdecl : declines a.view a.methodId with
  | true =>
      -- a declined call is registered, and the receiver goes on to the next request
      have hcall := popCall_of_declines a.F p a.from_ a.semantics a.data hdecl
      obtain ⟨r, b', hregister⟩ := registerRequest_eq (p := p) (c := a.from_) hF a.create
        a.mutexCount a.semantics a.data
      refine iff_of_true ?_ fun h3 => ?_
      · rw [round, hcall]
        simp only [hregister]
      · rw [h3] at hdecl
        simp [declines] at hdecl
  | false =>
      by_cases h3 : a.methodId = 3
      · by_cases hstring : HasString a.F a.data
        · refine iff_of_true ?_ fun _ => hstring
          obtain ⟨hsync, hasync⟩ :=
            popCall_encoding p a.view a.from_ a.semantics hF a.received hstring
          rw [← h3] at hsync hasync
          cases hreply : wantsReply a.semantics with
          | true =>
              obtain ⟨m, b', hserved, -⟩ := hsync hreply
              exact a.round_of_served p hserved
          | false =>
              obtain ⟨b', hserved⟩ := hasync hreply
              exact a.round_of_served p hserved
        · refine iff_of_false ?_ fun h => hstring (h h3)
          -- without a string the unpacking throws out of the loop, or reads past the buffer
          rw [round, h3]
          rcases popCall_encoding_fails p a.view a.from_ a.semantics hF a.received hstring with
            ⟨e, b', hthrows⟩ | hundefined
          · rw [hthrows]
            exact Round.noConfusion
          · rw [hundefined]
            exact Round.noConfusion
      · refine iff_of_true ?_ fun h => absurd h h3
        by_cases h4 : a.methodId = 4
        · have hcall := popCall_kill a.F p a.view a.from_ a.semantics a.data
          -- the object may not be killed here, so `Kill` takes its harmless branch
          have hlives : (a.view.obj.isSome && a.view.canKill) = false := by
            by_contra hboth
            rw [Bool.not_eq_false, Bool.and_eq_true] at hboth
            exact hkill ⟨h4, hboth⟩
          rw [if_neg (by rw [hlives]; decide), ← h4] at hcall
          exact a.round_of_served p hcall
        · obtain ⟨hsync, hasync⟩ :=
            popCall_of_serves p a.from_ a.semantics a.data hF hdecl h3 h4
          cases hreply : wantsReply a.semantics with
          | true =>
              obtain ⟨m, b', hserved, -⟩ := hsync hreply
              exact a.round_of_served p hserved
          | false => exact a.round_of_served p (hasync hreply)

end Arrival

/-! ### The loop goes on -/

/-- What the loop needs of a message. -/
def Harmless (a : Arrival) : Prop := a.methodId = 3 → HasString a.F a.data

/-- **One client and the server.**  On messages that do not kill the object, the loop receives
them all and goes on, if and only if each request of `Encoding` among them has a string. -/
theorem receiveThread_continues_iff (p : Process) (as : List Arrival)
    (hkill : ∀ a ∈ as, ¬a.Kills) :
    receiveThread p as = (.continues, []) ↔ ∀ a ∈ as, Harmless a := by
  induction as with
  | nil => simp [receiveThread]
  | cons a as ih =>
      obtain ⟨hkill₁, hkill₂⟩ := List.forall_mem_cons.mp hkill
      have hround : a.round p = .continues ↔ Harmless a := a.round_eq_continues_iff p hkill₁
      rw [List.forall_mem_cons, ← ih hkill₂, ← hround, receiveThread]
      cases h : a.round p with
      | continues => simp
      | closes => simp
      | exits => simp
      | terminates => simp
      | undefined => simp

/-- A request of `Encoding` with fewer than 4 bytes of payload. -/
lemma Arrival.round_eq_closes (p : Process) (a : Arrival) (h3 : a.methodId = 3)
    (hshort : a.data.packeddata.length < 24) : a.round p = .closes := by
  rcases a.serves.unPackInt _ a.received with ⟨-, hlong⟩ | ⟨⟨e, hthrows⟩, -⟩
  · omega
  · have hcall : popCall a.F p a.view a.from_ 3 a.semantics a.data =
        .throws (.popException e) a.data := by
      show encoding a.F p a.from_ _ a.data = _
      rw [encoding]
      exact BufM.bind_throws (BufM.bind_throws (BufM.bind_throws hthrows))
    rw [round, h3, hcall]
    rfl

lemma fields_eq_request {h : Header} {classid methodid semantics : BitVec 32}
    (hfields : h.fields = [TYPE_REQUEST, classid, methodid, semantics]) :
    h.methodId = methodid ∧ h.semantics = semantics := by
  rw [Header.fields] at hfields
  split_ifs at hfields
  · simp only [List.cons.injEq] at hfields
    exact ⟨hfields.2.2.1, hfields.2.2.2.1⟩
  all_goals simp at hfields

/-- A message that is on its way on a fresh connection is accepted. -/
lemma exists_arrival {F : Format}
    (hF : F = raw ∨ ∃ lib : XdrLib, lib.Documented ∧ F = xdr lib) {m : PopBuffer}
    (hm : Sendable m) (view : View) (mutexCount create : ℤ) :
    ∃ a : Arrival, a.F = F ∧ a.view = view ∧ a.mutexCount = mutexCount ∧ a.create = create ∧
      a.data.message = m.message ∧ a.data.packeddata.length = m.packeddata.length := by
  have hpending : (Conn.mk (frame F m) fun _ => 1).pending = frame F m ++ [] := by
    rw [List.append_nil]
  obtain ⟨r', pieces, hrecv, hmessage, -, hlen⟩ :=
    recv_eq (serves_of hF).frames hm hpending (empty m.header)
  exact ⟨⟨F, hF, _, _, _, r', hrecv, view, mutexCount, create⟩, rfl, rfl, rfl, rfl, hmessage, hlen⟩

/-- A process with short names and one encoding. -/
def sampleProcess : Process where
  platform := [108]
  bufferNames := [[114, 97, 119]]
  classname := [65]
  accesspoint := [117]
  strerror _ := [63]
  short_platform := by decide
  short_bufferNames := by decide
  short_classname := by decide
  short_accesspoint := by decide
  short_strerror _ := by decide

/-- A synchronous request with so many zero bytes of payload. -/
def sampleRequest (methodid : BitVec 32) (n : ℕ) : PopBuffer :=
  ⟨requestHeader 0 methodid 1, 20, List.replicate (20 + n) 0⟩

lemma sendable_sampleRequest (methodid : BitVec 32) {n : ℕ} (h : n < 2 ^ 20) :
    Sendable (sampleRequest methodid n) where
  type := .inl rfl
  header := by
    rw [sampleRequest, List.length_replicate]
    omega
  size := by
    rw [sampleRequest, List.length_replicate]
    omega

lemma methodId_of_message {a : Arrival} {methodid : BitVec 32} {n : ℕ}
    (h : a.data.message = (sampleRequest methodid n).message) : a.methodId = methodid :=
  (fields_eq_request (Message.mk.inj h).1).1

/-- `Encoding` with an empty string and `BindStatus`. -/
theorem receiveThread_continues_iff_twoRequests :
    ∃ a₁ a₂ : Arrival, a₁.data.message = (sampleRequest 3 4).message ∧
      a₂.data.message = (sampleRequest 0 0).message ∧
      receiveThread sampleProcess [a₁, a₂] = (.continues, []) := by
  obtain ⟨a₁, hF₁, -, -, -, hm₁, -⟩ := exists_arrival (.inl rfl)
    (sendable_sampleRequest 3 (n := 4) (by decide)) ⟨some 1, false, false⟩ 0 0
  obtain ⟨a₂, hF₂, -, -, -, hm₂, -⟩ := exists_arrival (.inl rfl)
    (sendable_sampleRequest 0 (n := 0) (by decide)) ⟨some 1, false, false⟩ 0 0
  have h₁ := methodId_of_message hm₁
  have h₂ := methodId_of_message hm₂
  refine ⟨a₁, a₂, hm₁, hm₂, (receiveThread_continues_iff sampleProcess [a₁, a₂] ?_).mpr ?_⟩
  · intro a ha
    rintro ⟨h4, -⟩
    rcases List.mem_pair.mp ha with rfl | rfl
    · exact absurd (h₁.symm.trans h4) (by decide)
    · exact absurd (h₂.symm.trans h4) (by decide)
  · intro a ha h3
    rcases List.mem_pair.mp ha with rfl | rfl
    · have hpayload : a.data.packeddata.drop 20 = [0, 0, 0, 0] := (Message.mk.inj hm₁).2
      refine ⟨by rw [hpayload]; decide, fun hpos => absurd hpos ?_⟩
      rw [hpayload, hF₁]
      decide
    · exact absurd (h₂.symm.trans h3) (by decide)

/-- After a request of `Encoding` without a payload, the request of another client is not
received. -/
theorem server_closed_by_encoding :
    ∃ a₁ a₂ : Arrival, a₁.data.message = (sampleRequest 3 0).message ∧
      a₂.data.message = (sampleRequest 0 0).message ∧ ¬a₁.Kills ∧ ¬a₂.Kills ∧
      receiveThread sampleProcess [a₁, a₂] = (.closes, [a₂]) := by
  obtain ⟨a₁, hF₁, -, -, -, hm₁, hlen⟩ := exists_arrival (.inl rfl)
    (sendable_sampleRequest 3 (n := 0) (by decide)) ⟨some 1, false, false⟩ 0 0
  obtain ⟨a₂, hF₂, -, -, -, hm₂, -⟩ := exists_arrival (.inl rfl)
    (sendable_sampleRequest 0 (n := 0) (by decide)) ⟨some 1, false, false⟩ 0 0
  have h₁ := methodId_of_message hm₁
  have h₂ := methodId_of_message hm₂
  refine ⟨a₁, a₂, hm₁, hm₂, ?_, ?_, ?_⟩
  · rintro ⟨h4, -⟩
    exact absurd (h₁.symm.trans h4) (by decide)
  · rintro ⟨h4, -⟩
    exact absurd (h₂.symm.trans h4) (by decide)
  · have hlen' : a₁.data.packeddata.length < 24 := by
      rw [hlen]
      decide
    rw [receiveThread, a₁.round_eq_closes sampleProcess h₁ hlen']

end PopCpp.Broker
