/-
# A parallel object

The clients of an object call its methods through the stubs of their classes, each with variables
of its own.  The broker unpacks the requests, executes the bodies of the methods in several
threads on the one object, and packs the responses.

Put together, this is an object whose sequential and mutex methods are called one after the other,
in the order in which the requests have come into the queue: each of them works on copies of the
arguments of its client, and a client that waits gets back what a call by copy leaves.
-/
import PopCpp.Broker.Atomic
import PopCpp.Parser.RemoteCall

namespace PopCpp.Broker

open Atomic Parser

variable {ω α κ : Type}

/-! ### The calls of the clients -/

/-- The bodies of the methods in small steps.  A body is called for a request, with its arguments;
it may throw. -/
abbrev Bodies (κ ω α : Type) :=
  Methods (Request × (String → Rose α)) κ ω (Option (Returned α))

/-- A call by a client: the functions of the two stubs, the variables of the client, and where its
stub stands when the request is packed. -/
structure RemoteCall (α : Type) where
  member : Member
  client : ClientStub
  broker : BrokerStub
  args : String → Rose α
  packed : Side α

/-- Where the function of the broker is: the request has been received, or the method is called
with what has been unpacked. -/
inductive Serving (κ α : Type)
  | received
  | calling (s : Side α) (l : κ)

namespace RemoteCall

variable [Inhabited α] (lt : KeyOrder α) (val : SizeValues α) (q : RemoteCall α)

def method : Method := q.member.method

/-- The function of the broker, up to the call of the method. -/
def unpacked : Option (Side α) :=
  runLines lt val q.broker.request ⟨fun _ => .node [], fun _ => none, q.packed.buf⟩

/-- The function of the broker, when the method is back: the response, if the client waits. -/
def answer (reply : Bool) (s : Side α) (v : Returned α) : Option (List (Item α)) :=
  (q.method.call (fun _ _ => ((), some v)) () s.vars).2.bind fun r =>
    if reply then
      (runLines lt val q.broker.reply
        { vars := if q.broker.call.result.isSome
            then Function.update r.1 q.method.returnparam.name r.2 else r.1
          sizes := s.sizes
          buf := [] }).map Side.buf
    else some []

/-- The function for the client, when the request is sent: it goes on with the response if it
waits for one. -/
def back (reply : Option (List (Item α))) : Option (Returned α) :=
  if q.client.waitreturn then
    reply.bind fun buf =>
      (runLines lt val q.client.reply { q.packed with buf := buf }).map fun t =>
        (t.vars, t.vars q.method.returnparam.name)
  else some (q.packed.vars, .node [])

/-- What the client sees of its call: its variables and the result. -/
def seen (reply : Option (List (Item α))) : Option (Returned α) :=
  (q.method.call (fun _ _ => ((), q.back lt val reply)) () q.args).2

/-- What the client sees of a call by copy, of which this is what the body has returned. -/
def copied (v : Option (Returned α)) : Option (Returned α) :=
  (q.method.call (q.method.copied fun _ _ => ((), v)) () q.args).2

/-- The arguments of the body in a call by copy. -/
def copies : String → Rose α := q.method.arguments (q.method.received q.args)

/-- A request for which the client has called the method: the stubs are those of a class, the
arguments can travel, and what a body returns can travel back. -/
structure Made (b : Bodies κ ω α) (r : Request) : Prop where
  stubs : ∃ (C : Parser.Class) (c d : ℕ), C.generateClient q.member c = .ok q.client ∧
    C.generateBody q.member d = some q.broker
  sound : q.method.Sound
  callable : q.method.Callable lt val q.args
  packed : runLines lt val q.client.request ⟨q.method.arguments q.args, fun _ => none, []⟩ =
    some q.packed
  semantics : r.semantics = .ofNat q.client.header.invokeCode
  returns : ∀ e, b.Complete e → e.call = (r, q.copies) → ∀ v, e.result = some v →
    ∀ u, (q.method.call (fun _ _ => ((), some v)) () (q.method.received q.args)).2 = some u →
      q.method.waitreturn = true → q.method.Returns lt val q.args u.1 u.2

end RemoteCall

section Served

variable [Inhabited α] (lt : KeyOrder α) (val : SizeValues α) (b : Bodies κ ω α)
  (q : Request → RemoteCall α)

/-- The functions of the broker, with the bodies of the methods in them. -/
def serving : Methods Request (Serving κ α) ω (Option (List (Item α))) where
  entry _ := .received
  move r l y :=
    match l with
    | .received =>
        match (q r).unpacked lt val with
        | none => .inr none
        | some s => .inl (.calling s (b.entry (r, (q r).method.arguments s.vars)), y)
    | .calling s l =>
        match b.move (r, (q r).method.arguments s.vars) l y with
        | .inl (l, y) => .inl (.calling s l, y)
        | .inr v => .inr (v.bind ((q r).answer lt val r.isSync s))

/-- A call as the broker has served it, and the same call by copy. -/
structure Served (e : Entry Request ω (Option (List (Item α))))
    (e' : Entry (Request × (String → Rose α)) ω (Option (Returned α))) : Prop where
  call : e'.call = (e.call, (q e.call).copies)
  before : e'.before = e.before
  after : e'.after = e.after
  seen : (q e.call).seen lt val e.result = (q e.call).copied e'.result

end Served

/-! ### One call -/

section Call

variable [Inhabited α] {lt : KeyOrder α} {val : SizeValues α} {b : Bodies κ ω α}

namespace RemoteCall

variable {q : RemoteCall α} {r : Request} {s : Side α} {v : Option (Returned α)}

/-- The request says whether the client waits. -/
lemma Made.isSync_eq (h : q.Made lt val b r) :
    r.isSync = q.client.header.invokeCode.testBit 0 := by
  obtain ⟨C, c, d, hclient, -⟩ := h.stubs
  rw [Request.isSync, h.semantics, (Parser.Class.header_of_generateClient hclient).1,
    Method.invokeCode]
  split_ifs <;> decide

/-- The broker unpacks what the client has packed: copies of the arguments. -/
lemma Made.exists_unpacked (h : q.Made lt val b r) :
    ∃ s, q.unpacked lt val = some s ∧ q.method.arguments s.vars = q.copies := by
  obtain ⟨C, c, d, hclient, hbroker⟩ := h.stubs
  have hargs := h.callable.arguments
  obtain ⟨sizes, -, hpack⟩ := h.sound.run_clientRequest lt val hargs c
  obtain ⟨vars, sizes', -, hvars, hunpack⟩ := h.sound.run_brokerRequest lt val hargs d
  have hpacked : q.packed.buf = q.method.requestItems (q.method.arguments q.args) := by
    have hsent := h.packed
    rw [(Parser.Class.generateClient_eq_ok hclient).2.1, ← method, hpack] at hsent
    rw [← Option.some.inj hsent]
  refine ⟨⟨vars, sizes', []⟩, ?_, ?_⟩
  · rw [unpacked, (Parser.Class.generateBody_eq_some hbroker).1, hpacked]
    exact hunpack
  · rw [copies, ← Method.received_arguments]
    exact Method.arguments_congr hvars

/-- The two stubs around a body that is over. -/
lemma Made.remote_eq (h : q.Made lt val b r) (hs : q.unpacked lt val = some s) :
    q.client.remote lt val q.broker q.method (fun _ _ => ((), v)) () (q.method.arguments q.args) =
      ((), q.back lt val (v.bind (q.answer lt val r.isSync s))) := by
  rw [unpacked] at hs
  rw [ClientStub.remote, h.packed]
  dsimp only
  rw [BrokerStub.serve, hs, ← h.isSync_eq]
  cases v <;> rfl

/-- The client sees what a call by copy leaves. -/
lemma Made.seen_eq (h : q.Made lt val b r) (hs : q.unpacked lt val = some s)
    (hreturns : ∀ w, v = some w →
      ∀ u, (q.method.call (fun _ _ => ((), some w)) () (q.method.received q.args)).2 = some u →
        q.method.waitreturn = true → q.method.Returns lt val q.args u.1 u.2) :
    q.seen lt val (v.bind (q.answer lt val r.isSync s)) = q.copied v := by
  obtain ⟨C, c, d, hclient, hbroker⟩ := h.stubs
  have hremote : q.member.method.call
      (q.client.remote lt val q.broker q.member.method fun _ _ => ((), v)) () q.args =
      q.member.method.call (q.member.method.copied fun _ _ => ((), v)) () q.args :=
    call_remote lt val hclient hbroker h.sound h.callable fun u hu hwait => by
      cases v with
      | none => exact absurd hu (by simp [Method.call])
      | some w => exact hreturns w rfl u hu hwait
  have hstubs : q.client.remote lt val q.broker q.member.method (fun _ _ => ((), v)) ()
      (q.member.method.arguments q.args) = _ := h.remote_eq hs
  rw [seen, copied, method, ← hremote, Method.call, Method.call, hstubs]

end RemoteCall

variable {q : Request → RemoteCall α}

/-- The function of the broker begins with copies of the arguments, and is then where the body is
that works on them. -/
lemma serving_reaches {r : Request} {s : Side α} {x : ω} {p : Serving κ α × ω}
    (hs : (q r).unpacked lt val = some s) (hargs : (q r).method.arguments s.vars = (q r).copies)
    (h : (serving lt val b q).Reaches r x p) :
    p = (.received, x) ∨ ∃ l, p.1 = .calling s l ∧ b.Reaches (r, (q r).copies) x (l, p.2) := by
  induction h with
  | refl => exact .inl rfl
  | @tail p p' _ hnext ih =>
      refine .inr ?_
      rcases ih with rfl | ⟨l, hl, hreach⟩
      · simp only [Methods.Next, serving, hs, hargs] at hnext
        obtain rfl := Sum.inl.inj hnext
        exact ⟨_, rfl, .refl⟩
      · simp only [Methods.Next, serving, hl, hargs] at hnext
        split at hnext
        · next l' y' hmove =>
            obtain rfl := Sum.inl.inj hnext
            exact ⟨l', rfl, hreach.tail hmove⟩
        · exact absurd hnext Sum.inr_ne_inl

/-- A call that the broker has served is a call by copy. -/
lemma exists_served {e : Entry Request ω (Option (List (Item α)))}
    (hmade : (q e.call).Made lt val b e.call) (h : (serving lt val b q).Complete e) :
    ∃ e', b.Complete e' ∧ e'.before = e.before ∧ e'.after = e.after ∧ Served lt val q e e' := by
  obtain ⟨s, hs, hargs⟩ := hmade.exists_unpacked
  obtain ⟨p, hreach, hover⟩ := h
  rcases serving_reaches hs hargs hreach with hp | ⟨l, rfl, hbody⟩
  · obtain ⟨rfl, -⟩ := Prod.mk.inj hp
    simp only [serving, hs] at hover
    exact absurd hover Sum.inl_ne_inr
  · simp only [serving, hargs] at hover
    split at hover
    · exact absurd hover Sum.inl_ne_inr
    · next v hmove =>
        have hresult := Sum.inr.inj hover
        have hcomplete : b.Complete ⟨(e.call, (q e.call).copies), e.before, v, e.after⟩ :=
          ⟨l, hbody, hmove⟩
        refine ⟨_, hcomplete, rfl, rfl, rfl, rfl, rfl, ?_⟩
        rw [← hresult]
        exact hmade.seen_eq hs (hmade.returns _ hcomplete rfl)

end Call

/-! ### All calls -/

/-- The bodies of concurrent methods leave the object as it is. -/
def Bodies.Reading (b : Bodies κ ω α) : Prop :=
  ∀ r : Request, r.isConc = true → ∀ args l y l' y', b.move (r, args) l y = .inl (l', y') → y' = y

lemma reading_serving [Inhabited α] (lt : KeyOrder α) (val : SizeValues α) {b : Bodies κ ω α}
    (h : b.Reading) (q : Request → RemoteCall α) : Reading (serving lt val b q) := by
  intro r hr l y l' y' hmove
  cases l with
  | received =>
      simp only [serving] at hmove
      split at hmove
      · exact absurd hmove Sum.inr_ne_inl
      · exact (Prod.mk.inj (Sum.inl.inj hmove)).2.symm
  | calling s l =>
      simp only [serving] at hmove
      split at hmove
      · next k z hbody =>
          obtain ⟨-, rfl⟩ := Prod.mk.inj (Sum.inl.inj hmove)
          exact h r hr _ _ _ _ _ hbody
      · exact absurd hmove Sum.inr_ne_inl

/-- **A parallel object is a sequential object for its clients.**  If the concurrent methods leave
the object as it is, then whatever the clients and the threads of the broker do, the bodies of the
sequential and mutex calls have been executed one after the other, each from its first step to its
last, in the order in which the requests were put into the queue; each of them has worked on
copies of the arguments of its client, and the client sees what a call by copy leaves: nothing,
if it does not wait. -/
theorem parallel_object [Inhabited α] (lt : KeyOrder α) (val : SizeValues α) (b : Bodies κ ω α)
    (hb : b.Reading) (q : Request → RemoteCall α) (n : ℕ) (x₀ : ω) (αs : List ObjectAction)
    (S : State × Execution (Serving κ α) ω (Option (List (Item α))))
    (hrun : Transition.run (objectStep (serving lt val b q)) (objectInit (serving lt val b q) n x₀)
      αs = some S)
    (hmade : ∀ r ∈ nonConc (appended S.1.trace), (q r).Made lt val b r) :
    (calls S.2.log).map Entry.call <+: nonConc (appended S.1.trace) ∧
      ∃ log y, b.Replay x₀ log y ∧ List.Forall₂ (Served lt val q) (calls S.2.log) log ∧
        ((∀ r ∈ executing S.1, r.isConc = true) → S.2.object = y) := by
  have horder := calls_isPrefix hrun
  obtain ⟨y, hreplay, -, hrest⟩ := inTurn_of_run (reading_serving lt val hb q) hrun
  obtain ⟨log, hlog, hserved⟩ := hreplay.exists_forall₂ fun e he hcomplete =>
    exists_served (hmade e.call (horder.subset (List.mem_map_of_mem he))) hcomplete
  exact ⟨horder, log, y, hlog, hserved, hrest⟩

/-! ### Two calls of `scale` -/

/-- A matrix counts a call, unless it is concurrent, and doubles the row. -/
def doublingRow : Bodies Bool ℕ ℤ where
  entry _ := false
  move c counted calls :=
    if counted || c.1.isConc then .inr (doubleRow calls c.2).2
    else .inl (true, calls + 1)

lemma reading_doublingRow : Bodies.Reading doublingRow := by
  intro r hr args l y l' y' hmove
  simp only [doublingRow, hr, Bool.or_true, if_true] at hmove
  exact absurd hmove Sum.inr_ne_inl

lemma made_scale {client : ClientStub} {broker : BrokerStub} {packed : Side ℤ}
    (hclient : matrixClass.generateClient scaleMember 0 = .ok client)
    (hbroker : matrixClass.generateBody scaleMember 0 = some broker)
    (hpacked : runLines (fun _ _ _ => false) sizeOfRow client.request
      ⟨scaleMember.method.arguments callerOfScale, fun _ => none, []⟩ = some packed) (uid : ℕ) :
    (⟨scaleMember, client, broker, callerOfScale, packed⟩ : RemoteCall ℤ).Made (fun _ _ _ => false)
      sizeOfRow doublingRow ⟨uid, INVOKE_SYNC⟩ where
  stubs := ⟨matrixClass, 0, 0, hclient, hbroker⟩
  sound := sound_scale
  callable := callable_scale
  packed := hpacked
  semantics := by
    rw [(Parser.Class.header_of_generateClient hclient).1]
    rfl
  returns e he hcall v hv u hu _ := by
    obtain ⟨l, -, hmove⟩ := he
    rw [hv, hcall] at hmove
    simp only [doublingRow] at hmove
    split at hmove
    · obtain rfl := Option.some.inj (Sum.inr.inj hmove)
      obtain rfl := Option.some.inj hu
      exact returns_scale _ rfl
    · exact absurd hmove Sum.inl_ne_inr

/-- Two clients: the request of the second one comes into the queue first. -/
def twoCalls : List ObjectAction :=
  let r : Request := ⟨0, INVOKE_SYNC⟩
  let r' : Request := ⟨1, INVOKE_SYNC⟩
  [.broker (.registerRequest 0 r), .broker (.registerRequest 1 r'), .broker (.push 1 r'),
    .broker (.push 0 r), .broker .callGet, .broker .get, .broker (.startServe r'), .move r',
    .move r', .broker (.finishServe r' ⟨false, false⟩), .broker (.release r'), .broker .callGet,
    .broker .get, .broker (.startServe r), .move r, .move r]

theorem parallel_object_scale : ∃ (q : RemoteCall ℤ)
    (S : State × Execution (Serving Bool ℤ) ℕ (Option (List (Item ℤ)))),
    Transition.run (objectStep (serving (fun _ _ _ => false) sizeOfRow doublingRow fun _ => q))
      (objectInit (serving (fun _ _ _ => false) sizeOfRow doublingRow fun _ => q) 2 0) twoCalls =
        some S ∧ S.2.object = 2 ∧
    (calls S.2.log).map Entry.call <+: nonConc (appended S.1.trace) ∧
      ∃ log y, doublingRow.Replay 0 log y ∧
        List.Forall₂ (Served (fun _ _ _ => false) sizeOfRow fun _ => q) (calls S.2.log) log ∧
        ((∀ r ∈ executing S.1, r.isConc = true) → S.2.object = y) := by
  obtain ⟨client, broker, packed, hclient, hbroker, hpacked, S, hrun, hobject, hqueue⟩ :
      ∃ client broker packed, matrixClass.generateClient scaleMember 0 = .ok client ∧
        matrixClass.generateBody scaleMember 0 = some broker ∧
        runLines (fun _ _ _ => false) sizeOfRow client.request
          ⟨scaleMember.method.arguments callerOfScale, fun _ => none, []⟩ = some packed ∧
        ∃ S, Transition.run (objectStep (serving (fun _ _ _ => false) sizeOfRow doublingRow fun _ =>
            ⟨scaleMember, client, broker, callerOfScale, packed⟩))
          (objectInit (serving (fun _ _ _ => false) sizeOfRow doublingRow fun _ =>
            ⟨scaleMember, client, broker, callerOfScale, packed⟩) 2 0) twoCalls = some S ∧
          S.2.object = 2 ∧
          nonConc (appended S.1.trace) = [⟨1, INVOKE_SYNC⟩, ⟨0, INVOKE_SYNC⟩] :=
    ⟨_, _, _, rfl, rfl, rfl, _, rfl, rfl, by decide⟩
  refine ⟨_, S, hrun, hobject, parallel_object _ _ doublingRow reading_doublingRow _ 2 0 twoCalls S
    hrun fun r hr => ?_⟩
  rw [hqueue] at hr
  rcases List.mem_pair.mp hr with rfl | rfl
  · exact made_scale hclient hbroker hpacked 1
  · exact made_scale hclient hbroker hpacked 0

end PopCpp.Broker
