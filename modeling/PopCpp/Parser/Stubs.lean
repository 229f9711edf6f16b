/-
# Client stubs and broker stubs

For a method, `GenerateClient` writes the function that the caller runs, and `GenerateBroker`
the function that serves the call.  The caller packs the arguments that travel to the object, the
broker unpacks them, calls the method and packs what travels back.  Both go through the
parameters on their own, and each of them decides for itself what a parameter needs: a size, a
variable of the type that a pointer refers to, memory for a block.

The main result says for which methods the two are mirror images of each other.  They are not
where the broker's function is left empty, which is so for every method of an abstract class
without bases.
-/
import PopCpp.Parser.Classes
import PopCpp.Parser.Wire

namespace Parser

/-- `GetBaseType`. -/
def DataType.getBaseType : DataType → Option DataType
  | .ptr _ b => some (b.getBaseType.getD b)
  | .equal _ t => some (t.getBaseType.getD t)
  | _ => none

/-! ### The lines of a stub -/

/-- The lines of a stub that concern a parameter `x`. -/
inductive Line
  /-- `T x;`, for a parallel class `T x(pop_interface::_pop_nobind);` -/
  | declare (type : DataType) (x : String) (nobind : Bool)
  /-- `pop_container<T> __pop_container_x(n); x=__pop_container_x;`, where `T` is `base` with
  `nptr - 1` stars and `n` is the size expression or, if there is none, `__pop_size2_x`; a block
  of parallel classes is a `pop_interface_container` -/
  | container (base : DataType) (nptr : ℕ) (x : String) (n : Option String)
  /-- `int __pop_size1_x=n;`, and it is packed -/
  | packSize (x n : String)
  /-- `int __pop_size2_x;`, and it is unpacked -/
  | unPackSize (x : String)
  /-- `pop_memspool _internal_mem;` -/
  | memspool
  /-- `name(buf, x, n, flags, mem);` or with `&x`, where `n` is the size that has been packed or
  unpacked, and 0 if there is none -/
  | proc (name : String) (address : Bool) (x : String) (n : Option Ident) (flags : ℕ) (mem : Bool)
  /-- What `Marshal` or `DeMarshal` writes for `x` or for `&x`.  In it the parameter is the
  variable 0 and its size is the variable 1. -/
  | code (x : String) (address : Bool) (s : Stmt)

/-- `FLAG_INPUT`. -/
def FLAG_INPUT : ℕ := 1

/-- `FLAG_MARSHAL`. -/
def FLAG_MARSHAL : ℕ := 2

namespace Param

variable (p : Param)

/-- What `DeclareVariable` says about a parameter: a pointer to a single object is declared as
the object and passed by its address. -/
def reformat : Bool := !p.isVoid && decide (p.mytype.isPointer = 1) && p.paramSize.isNone

/-- `DeclareVariable` with its three arguments. -/
def declareVariable (allocmem : Bool) : List Line :=
  if p.isVoid then []
  else
    let base := p.mytype.getBaseType.getD p.mytype
    if p.reformat then [.declare base p.name base.isParClass]
    else .declare p.mytype p.name p.mytype.isParClass ::
      if allocmem && p.paramSize.isSome && decide (p.mytype.isPointer ≠ 0) then
        [.container base p.mytype.isPointer p.name p.paramSize]
      else []

/-- The size that is moved along with a parameter. -/
def sizeinfo (reformat : Bool) (size : Ident) : Option Var :=
  if p.paramSize.isSome && !reformat then some ⟨1, size⟩ else none

/-- `Marshal`, with the value of `DataType::counter` before and after it. -/
def marshal (reformat inf_side : Bool) (counter : ℕ) : List Line × ℕ :=
  let size := p.sizeinfo reformat (.popSize1 p.name)
  let decl := match p.paramSize with
    | some n => if reformat then [] else [.packSize p.name n]
    | none => []
  match p.marshalProc with
  | some f =>
    (decl ++ [.proc f reformat p.name (size.map Var.name)
      ((if inf_side then FLAG_INPUT else 0) ||| FLAG_MARSHAL) false], counter)
  | none =>
    let r := p.mytype.marshal (.var ⟨0, .user p.name⟩) (size.map .var) ⟨counter, 2⟩
    (decl ++ [.code p.name reformat r.1], r.2.counter)

/-- `UnMarshal`. -/
def unMarshal (reformat alloc_mem inf_side : Bool) (counter : ℕ) : List Line × ℕ :=
  let size := p.sizeinfo reformat (.popSize2 p.name)
  let base := p.mytype.getBaseType.getD p.mytype
  let decl :=
    if p.paramSize.isSome && !reformat then
      .unPackSize p.name ::
        if alloc_mem && decide (p.mytype.isPointer ≠ 0) then
          [.container base p.mytype.isPointer p.name none]
        else []
    else []
  match p.marshalProc with
  | some f =>
    (decl ++ [.proc f reformat p.name (size.map Var.name) (if inf_side then 0 else FLAG_INPUT)
      (!inf_side)], counter)
  | none =>
    let r := p.mytype.deMarshal (.var ⟨0, .user p.name⟩) (size.map .var) ⟨counter, 2⟩
    (decl ++ [.code p.name reformat r.1], r.2.counter)

end Param

/-- Generate the code of one parameter after another. -/
def emitAll (f : Param → ℕ → List Line × ℕ) : List Param → ℕ → List Line × ℕ
  | [], counter => ([], counter)
  | p :: ps, counter =>
    let r := f p counter
    let s := emitAll f ps r.2
    (r.1 ++ s.1, s.2)

/-! ### `GenerateClient` -/

/-- What `GenerateClient` puts into the header of the request. -/
structure RequestHeader where
  uid : ℕ
  id : ℕ
  invokeCode : ℕ
  name : String
  deriving DecidableEq

/-- The function for the caller. -/
structure ClientStub where
  /-- A method of a group that is not collective itself first sends a request with the rank. -/
  signal : Option RequestHeader
  header : RequestHeader
  /-- What is done before the request is sent. -/
  request : List Line
  waitreturn : Bool
  /-- What is done when the response is there. -/
  reply : List Line

/-- The reasons for which `GenerateClient` gives up. -/
inductive ClientError
  /-- "unable to marshal the return argument" or "Illegal Pointer" -/
  | returnArgument (pointer : Bool)
  /-- "unable to marshal argument", or "Illegal Pointer Parameter at argument" -/
  | argument (pointer : Bool) (n : ℕ)
  /-- "the return argument should by a reference to a parallel object" -/
  | returnObject
  /-- "methods of parallel objects can not technically return a reference" -/
  | returnReference
  /-- "Asynchronous method cannot have an output" -/
  | asyncOutput (param : String)
  /-- "Asynchronous method must return void" -/
  | asyncReturn
  deriving DecidableEq

namespace Method

/-- The caller waits for a response. -/
def waitreturn (m : Method) : Bool :=
  if m.methodType = .constructor then true
  else decide (m.invoketype = .invokesync) || (decide (m.invoketype = .autoselect) && m.hasOutput)

/-- `invoke_code`, from `INVOKE_SYNC`, `INVOKE_CONSTRUCTOR`, `INVOKE_CONC` and `INVOKE_MUTEX`. -/
def invokeCode (m : Method) : ℕ :=
  if m.methodType = .constructor then 4 ||| 1 ||| 16
  else (if m.waitreturn then 1 else 0) |||
    (if m.isMutex then 16 else if m.isConcurrent then 8 else 0)

/-- The message for a method that `CheckMarshal` has refused. -/
def marshalError (m : Method) : ClientError :=
  if m.checkMarshal = -1 then .returnArgument (decide (0 < m.returnparam.mytype.isPointer))
  else
    let n := m.checkMarshal.toNat
    .argument ((m.params[n - 1]?).any fun p => decide (0 < p.mytype.isPointer)) n

/-- The errors of `GenerateReturn`. -/
def returnError (m : Method) : Option ClientError :=
  let r := m.returnparam
  if m.methodType ≠ .normal then none
  else if r.mytype.isParClass && !r.isRef then some .returnObject
  else if r.isRef && !r.mytype.isParClass then some .returnReference
  else none

/-- The errors at the end of `GenerateClient`, for a method whose caller does not wait. -/
def asyncError (m : Method) : Option ClientError :=
  if m.waitreturn then none
  else
    match m.params.find? fun p => p.outParam && !p.mytype.isParClass with
    | some p => some (.asyncOutput p.name)
    | none => if m.hasReturn then some .asyncReturn else none

/-- The code that packs the arguments. -/
def clientRequest (m : Method) (counter : ℕ) : List Line × ℕ :=
  emitAll (fun p => p.marshal false true) (m.params.filter Param.inParam) counter

/-- The code that unpacks the response. -/
def clientReply (m : Method) (counter : ℕ) : List Line × ℕ :=
  let out := emitAll (fun p => p.unMarshal false false true) (m.params.filter Param.outParam)
    counter
  if m.hasReturn then
    let r := m.returnparam
    let ret := r.unMarshal r.reformat true true out.2
    (out.1 ++ r.declareVariable false ++ ret.1, ret.2)
  else out

end Method

/-- The header of `POPC_METHOD_NON_COLLECTIVE_SIGNAL`. -/
def Class.signal (C : Class) (m : Method) : Option RequestHeader :=
  if C.isCollective && !m.isCollective && decide (m.methodType ≠ .constructor) then
    some ⟨C.uid, 9, 0, "set_non_collective_rank"⟩
  else none

/-- `GenerateClient` for a member that has a stub, from a value of `DataType::counter` on. -/
def Class.generateClient (C : Class) (t : Member) (counter : ℕ) : Except ClientError ClientStub :=
  let m := t.method
  if m.checkMarshal ≠ 0 then .error m.marshalError
  else
    match m.returnError, m.asyncError with
    | some e, _ => .error e
    | none, some e => .error e
    | none, none =>
      let request := m.clientRequest counter
      .ok
        { signal := C.signal m
          header := ⟨C.uid, t.id, m.invokeCode, m.name⟩
          request := request.1
          waitreturn := m.waitreturn
          reply := if m.waitreturn then (m.clientReply request.2).1 else [] }

/-! ### `GenerateBroker` -/

/-- The call of the method in the function of the broker. -/
structure MethodCall where
  /-- `obj = new ..` instead of a call of the object. -/
  constructs : Bool
  name : String
  /-- The arguments, each with an `&` or without. -/
  arguments : List (Bool × String)
  /-- The declaration of the variable that takes the result. -/
  result : Option Line

/-- The function of the broker. -/
structure BrokerStub where
  request : List Line
  call : MethodCall
  /-- What is done before the response is sent, if the caller waits for one. -/
  reply : List Line

namespace Method

/-- The loop of `GenerateBroker` that unpacks the arguments; `have_memspool` says that the
memory for the procedures of the user has been declared. -/
def brokerInputs : List Param → Bool → ℕ → List Line × ℕ
  | [], _, counter => ([], counter)
  | p :: ps, have_memspool, counter =>
    if p.inParam then
      let pool := p.marshalProc.isSome && !have_memspool
      let r := p.unMarshal p.reformat true false counter
      let s := brokerInputs ps (have_memspool || pool) r.2
      (p.declareVariable false ++ (if pool then [.memspool] else []) ++ r.1 ++ s.1, s.2)
    else brokerInputs ps have_memspool counter

/-- The code that unpacks the arguments and declares the others. -/
def brokerRequest (m : Method) (counter : ℕ) : List Line × ℕ :=
  let r := brokerInputs m.params false counter
  (r.1 ++ (m.params.filter fun p => !p.inParam).flatMap fun p => p.declareVariable true, r.2)

/-- The code that packs the response. -/
def brokerReply (m : Method) (counter : ℕ) : List Line × ℕ :=
  let out := emitAll (fun p => p.marshal p.reformat false) (m.params.filter Param.outParam) counter
  if m.hasReturn then
    let ret := m.returnparam.marshal false false out.2
    (out.1 ++ ret.1, ret.2)
  else out

/-- The call of the method. -/
def brokerCall (m : Method) : MethodCall where
  constructs := decide (m.methodType = .constructor)
  name := m.name
  arguments := m.params.map fun p => (p.reformat, p.name)
  result :=
    if m.hasReturn then
      some (.declare m.returnparam.mytype m.returnparam.name m.returnparam.mytype.isParClass)
    else none

end Method

/-- The condition of `GenerateBroker` under which a function has a body. -/
def Class.fillsBodies (C : Class) : Bool := C.info.isCoreCompilation || !C.basePureVirtual

/-- `GenerateBroker` for a member: the body of its function, which may be empty. -/
def Class.generateBody (C : Class) (t : Member) (counter : ℕ) : Option BrokerStub :=
  if C.fillsBodies then
    let request := t.method.brokerRequest counter
    some
      { request := request.1
        call := t.method.brokerCall
        reply := (t.method.brokerReply request.2).1 }
  else none

/-! ### What the stubs move -/

/-- What a line moves, with the parameter that it belongs to. -/
def Line.wire : Line → WireEnv → List (String × Wire) × WireEnv
  | .packSize x _, Γ => ([(x, .int)], Γ.setSent 1)
  | .unPackSize x, Γ => ([(x, .int)], Γ.setSent 1)
  | .proc f _ x n flags _, Γ =>
    ([(x, .user f (n.map fun size => Γ.count (.var ⟨1, size⟩)) (flags.testBit 0))], Γ)
  | .code x _ s, Γ =>
    let r := s.wire Γ
    (r.1.map fun w => (x, w), r.2)
  | .declare _ _ _, Γ => ([], Γ)
  | .container _ _ _ _, Γ => ([], Γ)
  | .memspool, Γ => ([], Γ)

/-- What lines move. -/
def wireLines : List Line → WireEnv → List (String × Wire) × WireEnv
  | [], Γ => ([], Γ)
  | x :: xs, Γ =>
    let r := x.wire Γ
    let s := wireLines xs r.2
    (r.1 ++ s.1, s.2)

/-- What lines move in a message of their own. -/
def message (ls : List Line) : List (String × Wire) := (wireLines ls .start).1

/-- The stubs of a method are mirror images: the broker unpacks what the caller packs, and if the
caller waits, a response is packed, which has in it what the caller unpacks. -/
structure Mirrors (client : ClientStub) (broker : Option BrokerStub) : Prop where
  request : message client.request = (broker.map fun b => message b.request).getD []
  reply : client.waitreturn = true →
    broker.map (fun b => message b.reply) = some (message client.reply)

/-! ### Lines that correspond -/

section

variable {Γ Γ' : WireEnv}

lemma wireLines_append (a b : List Line) (Γ : WireEnv) : wireLines (a ++ b) Γ =
    ((wireLines a Γ).1 ++ (wireLines b (wireLines a Γ).2).1,
      (wireLines b (wireLines a Γ).2).2) := by
  induction a generalizing Γ with
  | nil => rfl
  | cons x a ih => simp only [List.cons_append, wireLines, ih, List.append_assoc]

lemma SameWire.append {a a' b b' : List Line}
    (ha : SameWire (wireLines a Γ) (wireLines a' Γ'))
    (hb : SameWire (wireLines b (wireLines a Γ).2) (wireLines b' (wireLines a' Γ').2)) :
    SameWire (wireLines (a ++ b) Γ) (wireLines (a' ++ b') Γ') := by
  rw [wireLines_append, wireLines_append]
  exact ⟨by rw [ha.moved, hb.moved], hb.next⟩

lemma SameWire.cons {x x' : Line} {a a' : List Line} (hx : SameWire (x.wire Γ) (x'.wire Γ'))
    (ha : SameWire (wireLines a (x.wire Γ).2) (wireLines a' (x'.wire Γ').2)) :
    SameWire (wireLines (x :: a) Γ) (wireLines (x' :: a') Γ') :=
  ⟨by simp only [wireLines, hx.moved, ha.moved], ha.next⟩

lemma SameWire.nil (h : Γ.next = Γ'.next) : SameWire (wireLines [] Γ) (wireLines [] Γ') := ⟨rfl, h⟩

namespace Param

variable (p : Param)

/-- Declarations move nothing. -/
lemma wireLines_declareVariable (allocmem : Bool) (Γ : WireEnv) :
    wireLines (p.declareVariable allocmem) Γ = ([], Γ) := by
  simp only [declareVariable]
  split_ifs <;> rfl

lemma reformat_eq_false (h : p.paramSize.isSome = true) : p.reformat = false := by
  cases hsize : p.paramSize <;> simp_all [reformat]

/-- The two sides of a parameter move the same.  `address` and `address'` say which side works on
the object that a pointer refers to. -/
lemma sameWire (address address' alloc side : Bool)
    (h : p.paramSize.isSome = true → address = false ∧ address' = false) (c c' : ℕ)
    (hΓ : Γ.next = Γ'.next) :
    SameWire (wireLines (p.marshal address side c).1 Γ)
      (wireLines (p.unMarshal address' alloc (!side) c').1 Γ') := by
  have hcode : ∀ (n n' : Option Size) (Δ Δ' : WireEnv), Δ.next = Δ'.next →
      n.map Δ.count = n'.map Δ'.count →
      SameWire
        (wireLines [Line.code p.name address
          (p.mytype.marshal (.var ⟨0, .user p.name⟩) n ⟨c, 2⟩).1] Δ)
        (wireLines [Line.code p.name address'
          (p.mytype.deMarshal (.var ⟨0, .user p.name⟩) n' ⟨c', 2⟩).1] Δ') := by
    intro n n' Δ Δ' hΔ hn
    have ht := p.mytype.wire_marshal_eq (.var ⟨0, .user p.name⟩) (.var ⟨0, .user p.name⟩) n n'
      ⟨c, 2⟩ ⟨c', 2⟩ hΔ hn
    exact ⟨by simp only [wireLines, Line.wire, ht.moved], ht.next⟩
  cases hsize : p.paramSize with
  | none =>
    cases hproc : p.marshalProc with
    | none => simpa [marshal, unMarshal, sizeinfo, hsize, hproc] using hcode none none Γ Γ' hΓ rfl
    | some f =>
      cases side <;> simp [marshal, unMarshal, sizeinfo, hsize, hproc] <;>
        exact ⟨rfl, hΓ⟩
  | some n =>
    obtain ⟨rfl, rfl⟩ := h (by rw [hsize]; rfl)
    have hnext : (Γ.setSent 1).next = (Γ'.setSent 1).next := by simp [hΓ]
    -- the memory that the receiver allocates in between is not part of the message
    have hsent : ∀ q : Bool, SameWire (wireLines [Line.packSize p.name n] Γ)
        (wireLines (Line.unPackSize p.name ::
          if q then [Line.container (p.mytype.getBaseType.getD p.mytype) p.mytype.isPointer p.name
            none] else []) Γ') := by
      intro q
      cases q <;> exact ⟨rfl, hnext⟩
    have henv : ∀ q : Bool, (wireLines (Line.unPackSize p.name ::
        if q then [Line.container (p.mytype.getBaseType.getD p.mytype) p.mytype.isPointer p.name
          none] else []) Γ').2 = Γ'.setSent 1 := by
      intro q
      cases q <;> rfl
    cases hproc : p.marshalProc with
    | none =>
      have hx := hcode (some (.var ⟨1, .popSize1 p.name⟩)) (some (.var ⟨1, .popSize2 p.name⟩))
        (Γ.setSent 1) (Γ'.setSent 1) hnext (by simp [hΓ])
      have hall := (hsent (alloc && decide (p.mytype.isPointer ≠ 0))).append
        (by rw [henv]; exact hx)
      simpa [marshal, unMarshal, sizeinfo, hsize, hproc] using hall
    | some f =>
      have hx : ∀ flags flags' mem, flags.testBit 0 = flags'.testBit 0 → SameWire
          (wireLines [Line.proc f false p.name (some (.popSize1 p.name)) flags false]
            (Γ.setSent 1))
          (wireLines [Line.proc f false p.name (some (.popSize2 p.name)) flags' mem]
            (Γ'.setSent 1)) := by
        intro flags flags' mem hflags
        refine ⟨?_, hnext⟩
        simp [wireLines, Line.wire, hflags, hΓ]
      have hall := fun flags flags' mem hflags =>
        (hsent (alloc && decide (p.mytype.isPointer ≠ 0))).append
          (by rw [henv]; exact hx flags flags' mem hflags)
      cases side <;>
        simpa [marshal, unMarshal, sizeinfo, hsize, hproc] using hall _ _ _ (by decide)

end Param

/-- All parameters of a list. -/
lemma sameWire_emitAll {f f' : Param → ℕ → List Line × ℕ}
    (h : ∀ p c c' {Γ Γ' : WireEnv}, Γ.next = Γ'.next →
      SameWire (wireLines (f p c).1 Γ) (wireLines (f' p c').1 Γ')) (ps : List Param) :
    ∀ (c c' : ℕ) {Γ Γ' : WireEnv}, Γ.next = Γ'.next →
      SameWire (wireLines (emitAll f ps c).1 Γ) (wireLines (emitAll f' ps c').1 Γ') := by
  induction ps with
  | nil => exact fun _ _ _ _ hΓ => .nil hΓ
  | cons p ps ih =>
    intro c c' Γ Γ' hΓ
    have hp := h p c c' hΓ
    exact hp.append (ih _ _ hp.next)

namespace Method

variable (m : Method)

/-- The arguments: the caller packs them without looking at the declarations of the broker. -/
lemma sameWire_inputs (ps : List Param) : ∀ (pool : Bool) (c c' : ℕ) {Γ Γ' : WireEnv},
    Γ.next = Γ'.next →
    SameWire (wireLines (emitAll (fun p => p.marshal false true) (ps.filter Param.inParam) c).1 Γ)
      (wireLines (brokerInputs ps pool c').1 Γ') := by
  induction ps with
  | nil => exact fun _ _ _ _ _ hΓ => .nil hΓ
  | cons p ps ih =>
    intro pool c c' Γ Γ' hΓ
    cases hin : p.inParam with
    | false =>
      simp only [List.filter_cons, hin, brokerInputs, Bool.false_eq_true, if_false]
      exact ih pool c c' hΓ
    | true =>
      have hp := p.sameWire false p.reformat true true
        (fun h => ⟨rfl, p.reformat_eq_false h⟩) c c' hΓ
      have hpool : ∀ b : Bool, wireLines (p.declareVariable false ++
          if b then [Line.memspool] else []) Γ' = ([], Γ') := by
        intro b
        rw [wireLines_append, p.wireLines_declareVariable]
        cases b <;> rfl
      simp only [List.filter_cons, hin, brokerInputs, if_true, emitAll]
      rw [List.append_assoc, wireLines_append (p.declareVariable false ++ _), hpool,
        List.nil_append]
      exact hp.append (ih _ _ _ hp.next)

/-- What the caller packs is what the broker unpacks. -/
lemma message_request (c c' : ℕ) :
    message (m.clientRequest c).1 = message (m.brokerRequest c').1 := by
  have hstart : WireEnv.start.next = WireEnv.start.next := rfl
  have hin := sameWire_inputs m.params false c c' hstart
  have hout : ∀ (ps : List Param) (Γ : WireEnv),
      wireLines (ps.flatMap fun p => p.declareVariable true) Γ = ([], Γ) := by
    intro ps
    induction ps with
    | nil => exact fun _ => rfl
    | cons p ps ih =>
      intro Γ
      rw [List.flatMap_cons, wireLines_append, p.wireLines_declareVariable, ih]
      rfl
  simp only [message, clientRequest, brokerRequest, wireLines_append, hout, hin.moved,
    List.append_nil]

/-- What the broker packs is what the caller unpacks. -/
lemma message_reply (c c' : ℕ) :
    message (m.brokerReply c).1 = message (m.clientReply c').1 := by
  have hout := sameWire_emitAll (fun p c c' {Γ Γ'} (hΓ : Γ.next = Γ'.next) =>
    p.sameWire p.reformat false false false (fun h => ⟨p.reformat_eq_false h, rfl⟩) c c' hΓ)
    (m.params.filter Param.outParam)
  have hstart : WireEnv.start.next = WireEnv.start.next := rfl
  have hparams := hout c c' hstart
  simp only [message, brokerReply, clientReply]
  cases hret : m.hasReturn with
  | false => simpa using hparams.moved
  | true =>
    have hr := fun d d' => m.returnparam.sameWire false m.returnparam.reformat true false
      (fun h => ⟨rfl, m.returnparam.reformat_eq_false h⟩) d d' hparams.next
    simp only [if_true]
    rw [List.append_assoc]
    refine (hparams.append ?_).moved
    rw [wireLines_append, m.returnparam.wireLines_declareVariable]
    exact hr _ _

end Method

end

/-! ### Methods that send nothing -/

/-- The argument has no value that could be sent. -/
def Param.silent (p : Param) : Bool :=
  p.paramSize.isNone && p.marshalProc.isNone && p.mytype.silent

/-- The caller packs nothing for a parameter exactly if it is silent. -/
lemma Param.marshal_eq_nil_iff (p : Param) (side : Bool) (c : ℕ) (Γ : WireEnv) :
    (wireLines (p.marshal false side c).1 Γ).1 = [] ↔ p.silent = true := by
  cases hsize : p.paramSize with
  | none =>
    cases hproc : p.marshalProc with
    | none =>
      have ht := p.mytype.wire_marshal_eq_nil_iff (.var ⟨0, .user p.name⟩) ⟨c, 2⟩ Γ
      simpa [Param.marshal, Param.sizeinfo, Param.silent, hsize, hproc, wireLines, Line.wire]
        using ht
    | some f => simp [Param.marshal, Param.silent, hsize, hproc, wireLines, Line.wire]
  | some n =>
    cases hproc : p.marshalProc <;>
      simp [Param.marshal, Param.silent, hsize, hproc, wireLines, Line.wire]

lemma emitAll_eq_nil_iff (side : Bool) (ps : List Param) : ∀ (c : ℕ) (Γ : WireEnv),
    (wireLines (emitAll (fun p => p.marshal false side) ps c).1 Γ).1 = [] ↔
      ∀ p ∈ ps, p.silent = true := by
  induction ps with
  | nil => simp [emitAll, wireLines]
  | cons p ps ih =>
    intro c Γ
    rw [emitAll, wireLines_append, List.append_eq_nil_iff, p.marshal_eq_nil_iff, ih,
      List.forall_mem_cons]

/-! ### The stubs of a method -/

namespace Class

variable {C : Class} {t : Member} {c : ℕ} {client : ClientStub}

/-- What a stub consists of, if there is one. -/
lemma generateClient_eq_ok (h : C.generateClient t c = .ok client) :
    t.method.checkMarshal = 0 ∧ client.request = (t.method.clientRequest c).1 ∧
      client.waitreturn = t.method.waitreturn ∧
      client.reply = if t.method.waitreturn then
        (t.method.clientReply (t.method.clientRequest c).2).1 else [] := by
  by_cases hcheck : t.method.checkMarshal = 0
  · unfold generateClient at h
    rw [if_neg (by simpa using hcheck)] at h
    split at h
    · simp at h
    · simp at h
    · obtain rfl := Except.ok.inj h
      exact ⟨hcheck, rfl, rfl, rfl⟩
  · simp [generateClient, hcheck] at h

/-- The stubs of a method that can be called remotely are mirror images of each other exactly if
the broker's function has a body, or nothing travels at all: no argument is sent and no response
is awaited. -/
theorem mirrors_iff (C : Class) (t : Member) (c c' : ℕ) (client : ClientStub)
    (h : C.generateClient t c = .ok client) :
    Mirrors client (C.generateBody t c') ↔ C.fillsBodies = true ∨
      ((∀ p ∈ t.method.params, p.inParam = true → p.silent = true) ∧
        t.method.waitreturn = false) := by
  obtain ⟨-, hreq, hwait, hreply⟩ := generateClient_eq_ok h
  have hsilent : message client.request = [] ↔
      ∀ p ∈ t.method.params, p.inParam = true → p.silent = true := by
    rw [hreq, message, Method.clientRequest, emitAll_eq_nil_iff]
    simp only [List.mem_filter, and_imp]
  unfold generateBody
  cases hfill : C.fillsBodies with
  | true =>
    simp only [if_true, true_or, iff_true]
    refine ⟨?_, fun hw => ?_⟩
    · rw [hreq]
      exact t.method.message_request c c'
    · rw [hwait] at hw
      rw [hreply, if_pos hw]
      exact congrArg some (t.method.message_reply _ _)
  | false =>
    simp only [Bool.false_eq_true, if_false, false_or]
    constructor
    · rintro ⟨hrequest, hrep⟩
      refine ⟨hsilent.mp hrequest, ?_⟩
      by_contra hw
      simpa using hrep (by rw [hwait]; simpa using hw)
    · rintro ⟨hs, hw⟩
      refine ⟨hsilent.mpr hs, fun hw' => ?_⟩
      rw [hwait, hw] at hw'
      simp at hw'

end Class

/-- `parclass Matrix { public: void scale(int n, [in, out, size=n] double *row); };` -/
def matrixClass : Class :=
  .mk { name := "Matrix"
        methods :=
          [{ name := "scale"
             params :=
               [{ name := "n", mytype := .basic "int" },
                { name := "row", mytype := .ptr 1 (.basic "double"), isInput := true
                  isOutput := true, paramSize := some "n" }] }] } .nil

/-- The member `scale`. -/
def scaleMember : Member := ⟨11, (matrixClass.info.methods.head?).getD { name := "" }⟩

theorem scale_mirrors : ∃ client, matrixClass.generateClient scaleMember 0 = .ok client ∧
    client.request.length = 3 ∧ Mirrors client (matrixClass.generateBody scaleMember 0) := by
  refine ⟨_, rfl, rfl, (Class.mirrors_iff matrixClass scaleMember 0 0 _ rfl).mpr (.inl ?_)⟩
  decide

/-- `parclass Mother { public: classuid(1200); Mother(); virtual void pv()=0;
void normal(int x); };` -/
def motherClass : Class :=
  .mk { name := "Mother", classid := some 1200
        methods :=
          [{ methodType := .constructor, name := "Mother" },
           { name := "pv", isVirtual := true, isPureVirtual := true },
           { name := "normal", params := [{ name := "x", mytype := .basic "int" }] }] } .nil

/-- The member `normal`. -/
def normalMember : Member := ⟨12, (motherClass.info.methods[2]?).getD { name := "" }⟩

/-- The caller packs an `int` and waits, and the function of the broker is empty. -/
theorem normal_not_mirrors : ∃ client, motherClass.generateClient normalMember 0 = .ok client ∧
    normalMember.method.checkMarshal = 0 ∧ client.waitreturn = true ∧
    message client.request = [("x", .values "int" .one)] ∧
    (motherClass.generateBody normalMember 0).isNone = true ∧
    ¬ Mirrors client (motherClass.generateBody normalMember 0) := by
  have hbody : motherClass.generateBody normalMember 0 = none := by
    unfold Class.generateBody
    rw [if_neg (by decide)]
  refine ⟨_, rfl, by decide, rfl, rfl, by rw [hbody]; rfl, fun h => ?_⟩
  have := h.reply rfl
  rw [hbody] at this
  simp at this

end Parser
