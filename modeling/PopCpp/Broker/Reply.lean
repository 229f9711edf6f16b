/-
# One reply for each synchronous request

A synchronous request is answered in one of three places: by `PopCall` in the receive thread,
by the generated stub that `DoInvoke` calls, or by a handler of `DoInvoke` with what the stub
has thrown (`lib/core/broker_serve.cc`).  A handler packs the exception, which can fail, and
what it throws then leaves `DoInvoke`.  This file follows a request from the receive thread to
its end and finds when exactly one answer is sent and `mutexCount` is what it was.
-/
import PopCpp.Broker.Receive
import PopCpp.Buffer.BoolArray

namespace PopCpp.Broker

open Buffer Channel Bytes CInt

/-! ### What a stub does -/

def OBJECT_MISMATCH_METHOD : ℕ := USER_DEFINE_ERROR + 3
def STD_EXCEPTION : ℕ := USER_DEFINE_ERROR + 14

/-- `pop_interface::Serialize(buf, true)`, with the call of `AddRef` in it: it packs so many
bytes, which fit in a message, or throws. -/
inductive Serialized where
  | packs (bs : List UInt8) (fits : 20 + bs.length < 2 ^ 31)
  | throws (e : Thrown)

/-- What a stub can throw, by the handler that catches it. -/
inductive Raised where
  | value (k : Kind) (v : k.Val)
  /-- A `pop_interface`.  The copy for the handler binds to the object, which can throw. -/
  | interface (copied : Bool) (s : Serialized)
  | charPtr (s : Option (List UInt8))
  | popExceptionPtr (e : PopException)
  | popException (e : PopException)
  /-- A pointer to a `std::exception`, with its `what()`. -/
  | stdExceptionPtr (what : List UInt8)
  /-- A `std::exception`.  The handler has a copy, without what derived classes add. -/
  | stdException
  /-- Everything else. -/
  | other

/-- What `Invoke` of the generated broker does with a synchronous request.  It may have read
from the buffer before it throws or returns `false`. -/
inductive Invoked where
  /-- It sends this response and returns `true`. -/
  | responds (m : PopBuffer) (sendable : Sendable m) (type : m.header.type = TYPE_RESPONSE)
  | throws (e : Raised) (data : PopBuffer)
  /-- It returns `false`. -/
  | mismatch (data : PopBuffer)
  /-- It leaves the call to `pop_broker::Invoke`. -/
  | inherited

/-! ### `DoInvoke` -/

/-- How `DoInvoke` ends, unless an exception leaves it. -/
inductive Done where
  | returns (c : Conn UInt8)
  /-- The process is gone. -/
  | dead

/-- `classname + "@" + accesspoint.GetAccessString()` -/
def Process.object (p : Process) : List UInt8 := p.classname ++ text "@" ++ p.accesspoint

/-- `e.AddInfo(extra)` in the handlers of `pop_exception`. -/
def withObject (p : Process) (e : PopException) : PopException :=
  addInfo e (if e.info = [] then p.object else p.object ++ text ": " ++ e.info)

/-- `e2` in the handlers of `std::exception`. -/
def ofStd (p : Process) (what : List UInt8) : PopException :=
  addInfo (popException p STD_EXCEPTION) (p.object ++ text ": " ++ what)

/-- `e2` in the last handler. -/
def ofUnknown (p : Process) : PopException :=
  addInfo (popException p UNKNOWN_EXCEPTION) p.object

/-- What a handler gives to `SendException`; there is no handler for `signed char`.  A
`pop_interface` has an overload of its own. -/
def Raised.sent (p : Process) : Raised → Option Sent
  | .value .schar _ => some (.popException (ofUnknown p))
  | .value k v => some (.value k v)
  | .interface _ _ => none
  | .charPtr s => some (.charPtr s)
  | .popExceptionPtr e => some (.popException (withObject p e))
  | .popException e => some (.popException (withObject p e))
  | .stdExceptionPtr what => some (.popException (ofStd p what))
  | .stdException => some (.popException (ofStd p (text "std::exception")))
  | .other => some (.popException (ofUnknown p))

/-- The exception object of what a call in `Invoke` has thrown. -/
def Raised.ofThrown : Thrown → Raised
  | .value k v => .value k v
  | .charPtr s => .charPtr s
  | .popException e => .popException e
  | .interface => .other
  | .lengthError => .stdException

/-- `pop_throw(OBJECT_MISMATCH_METHOD, "Mismatched method was invoked")` -/
def mismatched (p : Process) : PopException :=
  addInfo (popException p OBJECT_MISMATCH_METHOD) (text "Mismatched method was invoked")

section

variable (F : Format) (p : Process) (c : Conn UInt8)

/-- `Serialize` on the buffer. -/
def Serialized.pack : Serialized → BufM Unit
  | .packs bs _ => fun b => .ok () { b with packeddata := b.packeddata ++ bs }
  | .throws e => throwing e

/-- The handlers of `DoInvoke`. -/
def handle (e : Raised) : BufM Done :=
  match e with
  | .interface copied s =>
      if copied then do
        let r ← sendExceptionWith F c EXCEPTION_OBJECT s.pack
        pure (.returns r.2)
      else pure .dead
  | e =>
      match e.sent p with
      | some s => do
          let r ← sendException F c s
          pure (.returns r.2)
      | none => pure (.returns c)

/-- `DoInvoke(request)`, for a request that has a connection. -/
def doInvoke (v : View) (methodid semantics : BitVec 32) : Invoked → BufM Done
  | .responds m _ _ => pure (.returns (c.send (frame F m)))
  | .throws e data => fun _ => handle F p c e data
  | .mismatch data => fun _ => handle F p c (.popException (mismatched p)) data
  | .inherited => fun b =>
      match popCall F p v c methodid semantics b with
      | .ok .declined b' => handle F p c (.popException (mismatched p)) b'
      | .ok (.served c') b' => .ok (.returns c') b'
      | .ok .exited b' => .ok .dead b'
      | .throws e b' => handle F p c (.ofThrown e) b'
      | .undefined => .undefined

/-! ### From the queue to the end -/

/-- How a request ends: the connection that it came on, and `mutexCount` as far as this
request has changed it. -/
inductive Fate where
  | over (c : Conn UInt8) (mutexCount : ℤ)
  /-- The process is gone, or nothing is said about it. -/
  | dead

/-- The thread of a concurrent request. -/
def runThread (v : View) (methodid semantics : BitVec 32) (invoked : Invoked) (mutexCount : ℤ)
    (data : PopBuffer) : Fate :=
  match doInvoke F p c v methodid semantics invoked data with
  | .ok (.returns c') _ => .over c' mutexCount
  | _ => .dead

/-- `ServeRequest` in `Run`, whose handler catches `std::exception`. -/
def serveRequest (v : View) (create : ℤ) (methodid semantics : BitVec 32) (invoked : Invoked)
    (mutexCount : ℤ) (data : PopBuffer) : Fate :=
  if isConc semantics then
    match serveConc F p c create (wantsReply semantics) data with
    | .ok (true, _) data => runThread F p c v methodid semantics invoked mutexCount data
    | .ok (false, c') _ => .over c' mutexCount
    | .throws _ _ => .over c mutexCount
    | .undefined => .dead
  else
    match doInvoke F p c v methodid semantics invoked data with
    | .ok (.returns c') _ => .over c' (if isMutex semantics then mutexCount - 1 else mutexCount)
    | .throws (.popException _) _ => .over c mutexCount
    | .throws .lengthError _ => .over c mutexCount
    | _ => .dead

end

/-- The life of a synchronous request that is served: its arrival, and when it is its turn what
the broker is like, what creating a thread returns and what the stub does. -/
structure Life extends Arrival where
  sync : wantsReply data.header.semantics = true
  laterView : View
  laterCreate : ℤ
  invoked : Invoked

/-- From `PopCall` in the receive thread on. -/
def Life.fate (p : Process) (l : Life) : Fate :=
  match popCall l.F p l.view l.from_ l.methodId l.semantics l.data with
  | .ok (.served c) _ => .over c l.mutexCount
  | .ok .exited _ => .dead
  | .throws _ _ => .over l.from_ l.mutexCount
  | .undefined => .dead
  | .ok .declined data =>
      match registerRequest l.F p l.from_ l.create l.mutexCount l.semantics data with
      | .ok (.queued, n) data => serveRequest l.F p l.from_ l.laterView l.laterCreate l.methodId
          l.semantics l.invoked n data
      | .ok (.started, n) data =>
          runThread l.F p l.from_ l.laterView l.methodId l.semantics l.invoked n data
      | .ok (.refused c, n) _ => .over c n
      | .throws _ _ => .over l.from_ l.mutexCount
      | .undefined => .dead

/-- One message more on the connection, a response or an exception, and `mutexCount` as it
was. -/
def AnsweredOnce (F : Format) (c : Conn UInt8) (mutexCount : ℤ) : Fate → Prop
  | .over c' n => (∃ m, Sendable m ∧
      (m.header.type = TYPE_RESPONSE ∨ m.header.type = TYPE_EXCEPTION) ∧
      c'.pending = c.pending ++ frame F m) ∧ n = mutexCount
  | .dead => False

/-! ### When an exception can be packed -/

/-- A number that the encoding has, and texts for which a message has room. -/
def Packable (F : Format) : Sent → Prop
  | .value .long v => F ≠ raw → -2 ^ 31 ≤ v.toInt ∧ v.toInt < 2 ^ 31
  | .value .ulong v => F ≠ raw → v.toNat < 2 ^ 32
  | .value _ _ => True
  | .charPtr none => True
  | .charPtr (some s) => 20 + stringSize s < 2 ^ 31
  | .popException e => 24 + stringSize e.info < 2 ^ 31

/-- The handler for it can send something. -/
def Raised.Answerable (F : Format) (p : Process) : Raised → Prop
  | .interface copied s => copied = true ∧ ∃ bs fits, s = .packs bs fits
  | e => ∀ s, e.sent p = some s → Packable F s

/-- A concurrent request gets its thread, at once or when it is its turn. -/
def Life.HasThread (l : Life) : Prop :=
  isConc l.semantics = true → if l.mutexCount ≤ 0 then l.create = 0 else l.laterCreate = 0

/-- When a request is answered: of the built-in calls that are served at once, `BindStatus` and
`Kill` are out and `Encoding` needs a string; what a stub throws must be packed. -/
def Life.Answerable (p : Process) (l : Life) : Prop :=
  if declines l.view l.methodId then
    l.HasThread → ∀ e data, l.invoked = .throws e data → e.Answerable l.F p
  else l.methodId ≠ 0 ∧ l.methodId ≠ 4 ∧ (l.methodId = 3 → HasString l.F l.data)

/-! ### Packing an exception -/

variable {F : Format} {p : Process} {c : Conn UInt8} {b : PopBuffer}

lemma xdr_ne_raw (lib : XdrLib) : xdr lib ≠ raw := by
  intro h
  have hword : be 4 1 = le 4 1 := congrArg (fun F => F.putWord 1) h
  exact absurd hword (by decide)

lemma pack_value_appends (hF : F = raw ∨ ∃ lib : XdrLib, lib.Documented ∧ F = xdr lib) {k : Kind}
    {v : k.Val} (h : Packable F (.value k v)) :
    ∃ bs, bs.length ≤ 8 ∧ Appends (F.pack k [v]) bs := by
  rcases hF with rfl | ⟨lib, hlib, rfl⟩
  · refine ⟨_, ?_, (codes_raw_array k [v]).1⟩
    rw [length_pad4, k.length_flatMap_bytes, List.length_singleton]
    cases k <;> simp [Kind.size, roundUp4]
  · have hfits : XdrFits (.array k [v]) := by
      cases k with
      | long => exact fun u hu => by rw [List.mem_singleton.mp hu]; exact h (xdr_ne_raw lib)
      | ulong => exact fun u hu => by rw [List.mem_singleton.mp hu]; exact h (xdr_ne_raw lib)
      | _ => trivial
    obtain ⟨bs, hbs, happ, -⟩ := codes_xdr_array hlib hfits (fun _ => by simp)
    refine ⟨bs, ?_, happ⟩
    rw [hbs]
    cases k <;> simp [xdrSize, roundUp4]

/-- `SendException` of what can be packed. -/
lemma sendException_of_packable (hF : F = raw ∨ ∃ lib : XdrLib, lib.Documented ∧ F = xdr lib)
    {s : Sent} (h : Packable F s) (b : PopBuffer) (c : Conn UInt8) :
    ∃ m b', sendException F c s b = .ok (true, c.send (frame F m)) b' ∧ Sendable m ∧
      m.header.type = TYPE_EXCEPTION := by
  have hS := serves_of hF
  have hsend : ∀ {code : BitVec 32} {pack : BufM Unit} {bs : List UInt8}, Appends pack bs →
      20 + bs.length < 2 ^ 31 → ∃ m b', sendExceptionWith F c code pack b =
        .ok (true, c.send (frame F m)) b' ∧ Sendable m ∧ m.header.type = TYPE_EXCEPTION := by
    intro code pack bs hpack hsize
    obtain ⟨m, hsent, hsendable, hheader, -⟩ :=
      sendExceptionWith_eq hS.frames code hpack hsize b c
    exact ⟨m, _, hsent, hsendable, by rw [hheader]⟩
  cases s with
  | value k v =>
      by_cases hk : k = .schar
      · subst hk
        obtain ⟨bs, hbs, happ⟩ := pack_value_appends hF (k := .int)
          (v := v.toBitVec.signExtend 32) trivial
        exact hsend happ (by omega)
      · obtain ⟨bs, hbs, happ⟩ := pack_value_appends hF h
        rw [sendException_value hk]
        exact hsend happ (by omega)
  | charPtr t =>
      cases t with
      | none =>
          obtain ⟨bs, hbs, happ, -⟩ := hS.strings.int1 (x := 0) (by simp [Fits])
          exact hsend (happ.bind (hS.strings.char []).1) (by simp [hbs, roundUp4])
      | some t =>
          obtain ⟨bs, hbs, happ⟩ := packChars_appends hS.strings t
          exact hsend happ (by rw [hbs]; exact h)
  | popException e => exact sendException_fits hS h b c

/-! ### Failing to pack an exception -/

lemma packChar_throws (data : List UInt8) (hn : data.length < 2 ^ 31)
    (hb : b.packeddata.length < 2 ^ 31)
    (h : 2 ^ 31 ≤ b.packeddata.length + roundUp4 data.length) :
    packChar data b = .throws .lengthError b := by
  have hpos : 1 ≤ data.length := by
    by_contra h0
    obtain hzero : data.length = 0 := by omega
    simp only [hzero, roundUp4] at h
    omega
  have hround : roundUp4 data.length ≤ 2 ^ 31 := by
    simp only [roundUp4]
    omega
  have halign := align4_eq_wrap (n := data.length) (by omega) (by omega)
  have hneg : wrap (wrap (b.packeddata.length : ℤ) + align4 data.length) < 0 := by
    rw [halign]
    simp only [roundUp4] at h hround
    simp only [wrap]
    omega
  have hhuge := lt_sizeT_of_neg (fits_wrap _) hneg
  rw [packChar, if_neg (by omega), BufM.bind_ok (rfl : this b = .ok b b)]
  refine BufM.bind_throws ?_
  rw [resize, if_neg (by omega)]

/-- In both encodings. -/
lemma pack_char (hF : F = raw ∨ ∃ lib : XdrLib, lib.Documented ∧ F = xdr lib) {data : List UInt8}
    (h : data.length < 2 ^ 31) : F.pack .char data = packChar data := by
  rcases hF with rfl | ⟨lib, hlib, rfl⟩
  · have hid : data.flatMap (Kind.bytes .char) = data := List.flatMap_singleton' data
    have hsize : wrap ((data.length : ℤ) * (Kind.char.size : ℕ)) = data.length := by
      rw [show ((Kind.char.size : ℕ) : ℤ) = 1 from rfl, mul_one, wrap_eq_self]
      simp only [Fits]
      omega
    rw [raw_pack, Raw.pack]
    simp only [hsize, Int.toNat_natCast]
    rw [hid, List.take_length]
  · rfl

/-- There is no room for the characters. -/
lemma packChars_throws (hF : F = raw ∨ ∃ lib : XdrLib, lib.Documented ∧ F = xdr lib)
    {s : List UInt8} (hb : b.packeddata.length < 2 ^ 20)
    (h : 2 ^ 31 ≤ b.packeddata.length + stringSize s) :
    ∃ b', (packInt1 F (wrap (s.length + 1)) >>= fun _ =>
      F.pack .char ((s ++ [0]).take (wrap (s.length + 1)).toNat)) b =
        .throws .lengthError b' := by
  obtain ⟨bs, hbs, happ, -⟩ := (serves_of hF).strings.int1 (fits_wrap (s.length + 1))
  have hfits := fits_wrap (s.length + 1)
  have hle := wrap_toNat_le s.length
  have hlen : ((s ++ [0]).take (wrap (s.length + 1)).toNat).length =
      (wrap (s.length + 1)).toNat := by
    rw [List.length_take, List.length_append, List.length_singleton]
    omega
  simp only [Fits] at hfits
  have hthrows := packChar_throws ((s ++ [0]).take (wrap (s.length + 1)).toNat)
    (b := { b with packeddata := b.packeddata ++ bs }) (by omega)
    (by simp only [List.length_append]; omega)
    (by simp only [List.length_append, hlen, hbs]; rw [stringSize] at h; omega)
  rw [BufM.bind_ok (happ b (by omega)), pack_char hF (by omega)]
  exact ⟨_, hthrows⟩

/-- A number that the library refuses. -/
lemma packVector_throws {α : Type} {P : XdrProc α} {v : α} (hP : P.put v = none) (width : ℤ)
    (reason : String) (hwidth : wrap (1 * width) = width) (h0 : 0 ≤ width) (h8 : width ≤ 8)
    (hb : b.packeddata.length < 2 ^ 20) :
    ∃ b', packVector P width reason [v] b = .throws (popThrow reason) b' := by
  have hold : wrap (b.packeddata.length : ℤ) = b.packeddata.length := wrap_natCast (by omega)
  have hroom : sizeT (wrap (width + (b.packeddata.length : ℤ))) < 2 ^ 63 := by
    rw [wrap_eq_self (by simp only [Fits]; omega)]
    simp only [sizeT]
    omega
  simp only [packVector, List.length_singleton, Nat.cast_one, if_neg (show ¬(1 : ℤ) ≤ 0 by omega)]
  rw [BufM.bind_ok (rfl : this b = .ok b b)]
  simp only [hold, hwidth, BufM.bind_apply, resize, if_pos hroom, encode, vectorPut, hP, store,
    if_true]
  exact ⟨_, rfl⟩

/-- What leaves a handler is a `std::exception`. -/
def IsStd (e : Thrown) : Prop := e = .lengthError ∨ ∃ e', e = .popException e'

lemma sendExceptionWith_throws (hF : F.Frames) {code : BitVec 32} {pack : BufM Unit}
    (h : ∀ b : PopBuffer, b.packeddata.length = 20 → ∃ e b', pack b = .throws e b' ∧ IsStd e)
    (b : PopBuffer) (c : Conn UInt8) :
    ∃ e b', sendExceptionWith F c code pack b = .throws e b' ∧ IsStd e := by
  obtain ⟨bs₀, hbs₀, hreset⟩ := hF.reset b
  obtain ⟨e, b', hthrows, hstd⟩ := h ⟨b.header.assign (exceptionHeader code), 20, bs₀⟩ hbs₀
  refine ⟨e, b', ?_, hstd⟩
  rw [sendExceptionWith, BufM.bind_ok hreset, BufM.bind_ok (rfl : this _ = .ok _ _),
    BufM.bind_ok (rfl : setHeader _ _ = .ok _ _)]
  exact BufM.bind_throws hthrows

/-- `SendException` of anything else throws. -/
lemma sendException_of_not_packable
    (hF : F = raw ∨ ∃ lib : XdrLib, lib.Documented ∧ F = xdr lib) {s : Sent}
    (h : ¬Packable F s) (b : PopBuffer) (c : Conn UInt8) :
    ∃ e b', sendException F c s b = .throws e b' ∧ IsStd e := by
  have hS := serves_of hF
  cases s with
  | value k v =>
      cases k with
      | long =>
          obtain ⟨hne, hout⟩ := Classical.not_imp.mp h
          rcases hF with rfl | ⟨lib, hlib, rfl⟩
          · exact absurd rfl hne
          refine sendExceptionWith_throws hS.frames (fun b' hb' => ?_) b c
          -- an eight-byte integer outside four bytes has no XDR code, so `Pack` throws its errno
          have hput : lib.xdr_long.put v = none := by
            rw [hlib.long.put_eq, Option.map_eq_none_iff]
            by_contra hcode
            exact hout (toInt_of_longCode hcode)
          obtain ⟨b'', hthrows⟩ := packVector_throws hput 8 "Exception in serialization 5" (b := b')
            rfl (by decide) (by decide) (by omega)
          exact ⟨_, b'', hthrows, .inr ⟨_, rfl⟩⟩
      | ulong =>
          obtain ⟨hne, hout⟩ := Classical.not_imp.mp h
          rcases hF with rfl | ⟨lib, hlib, rfl⟩
          · exact absurd rfl hne
          refine sendExceptionWith_throws hS.frames (fun b' hb' => ?_) b c
          have hput : lib.xdr_u_long.put v = none := by
            rw [hlib.u_long.put_eq, Option.map_eq_none_iff]
            by_contra hcode
            exact hout (toNat_of_uLongCode hcode)
          obtain ⟨b'', hthrows⟩ := packVector_throws hput 8 "Exception in serialization 7" (b := b')
            rfl (by decide) (by decide) (by omega)
          exact ⟨_, b'', hthrows, .inr ⟨_, rfl⟩⟩
      | _ => exact absurd trivial h
  | charPtr t =>
      cases t with
      | none => exact absurd trivial h
      | some t =>
          refine sendExceptionWith_throws hS.frames (fun b' hb' => ?_) b c
          obtain ⟨b'', hthrows⟩ := packChars_throws hF (s := t) (b := b') (by omega)
            (by rw [hb']; exact not_lt.mp h)
          exact ⟨_, b'', hthrows, .inl rfl⟩
  | popException e =>
      have hlong : 2 ^ 31 ≤ 24 + stringSize e.info := not_lt.mp h
      refine sendExceptionWith_throws hS.frames (fun b' hb' => ?_) b c
      -- the code fits; it is the text after it that overruns the signed length
      obtain ⟨bs, hbs, happ, -⟩ := hS.strings.int e.code
      obtain ⟨b'', hthrows⟩ := packChars_throws hF (s := e.info)
        (b := { b' with packeddata := b'.packeddata ++ bs })
        (by simp only [List.length_append]; omega)
        (by simp only [List.length_append, hbs, hb']; omega)
      refine ⟨_, b'', ?_, .inl rfl⟩
      -- a text whose length wraps to nothing would have been small
      have hpos : 0 < wrap ((e.info.length : ℤ) + 1) := by
        by_contra hnonpos
        rw [stringSize, show (wrap ((e.info.length : ℤ) + 1)).toNat = 0 by omega] at hlong
        simp [roundUp4] at hlong
      have hstring : packString F e.info = (packInt1 F (wrap (e.info.length + 1)) >>= fun _ =>
          F.pack .char ((e.info ++ [0]).take (wrap (e.info.length + 1)).toNat)) := by
        rw [packString]
        simp only [gt_iff_lt, if_pos hpos]
      rw [packException, BufM.bind_ok (happ b' (by omega)), packStrings, hstring]
      exact BufM.bind_throws hthrows

/-! ### The handlers -/

lemma object_short (p : Process) : p.object.length < 2 ^ 21 + 2 := by
  have hclass := p.short_classname
  have haccess := p.short_accesspoint
  have hat : (text "@").length = 1 := length_text _
  rw [Process.object, List.length_append, List.length_append, hat]
  omega

lemma handle_sent {e : Raised} {s : Sent} (h : e.sent p = some s) :
    handle F p c e = (sendException F c s >>= fun r => pure (.returns r.2)) := by
  cases e with
  | interface copied t => exact absurd h (by simp [Raised.sent])
  | _ => simp only [handle, h]

lemma answerable_iff {e : Raised} {s : Sent} (h : e.sent p = some s) :
    e.Answerable F p ↔ Packable F s := by
  have hall : (∀ t, e.sent p = some t → Packable F t) ↔ Packable F s := by
    constructor
    · exact fun hall => hall s h
    · intro hs t ht
      rwa [← Option.some.inj (h.symm.trans ht)]
  cases e with
  | interface copied t => exact absurd h (by simp [Raised.sent])
  | _ => exact hall

/-- Only a `pop_interface` has a handler of its own. -/
lemma exists_sent (p : Process) (e : Raised) :
    (∃ s, e.sent p = some s) ∨ ∃ copied t, e = .interface copied t := by
  cases e with
  | interface copied t => exact .inr ⟨copied, t, rfl⟩
  | value k v => cases k <;> exact .inl ⟨_, rfl⟩
  | _ => exact .inl ⟨_, rfl⟩

/-- The handler sends the exception. -/
lemma handle_of_answerable (hF : F = raw ∨ ∃ lib : XdrLib, lib.Documented ∧ F = xdr lib)
    {e : Raised} (h : e.Answerable F p) (b : PopBuffer) (c : Conn UInt8) :
    ∃ m b', handle F p c e b = .ok (.returns (c.send (frame F m))) b' ∧ Sendable m ∧
      m.header.type = TYPE_EXCEPTION := by
  rcases exists_sent p e with ⟨s, hs⟩ | ⟨copied, t, rfl⟩
  · obtain ⟨m, b', hsent, hm⟩ := sendException_of_packable hF ((answerable_iff hs).mp h) b c
    rw [handle_sent hs, BufM.bind_ok hsent]
    exact ⟨m, b', rfl, hm⟩
  · obtain ⟨rfl, bs, fits, rfl⟩ := h
    have happ : Appends (Serialized.packs bs fits).pack bs := fun _ _ => rfl
    obtain ⟨m, hsent, hsendable, hheader, -⟩ :=
      sendExceptionWith_eq (serves_of hF).frames EXCEPTION_OBJECT happ fits b c
    rw [handle, if_pos rfl, BufM.bind_ok hsent]
    exact ⟨m, _, rfl, hsendable, by rw [hheader]⟩

/-- Otherwise an exception leaves it, or the process is gone. -/
lemma handle_of_not_answerable (hF : F = raw ∨ ∃ lib : XdrLib, lib.Documented ∧ F = xdr lib)
    {e : Raised} (h : ¬e.Answerable F p) (b : PopBuffer) (c : Conn UInt8) :
    (∃ b', handle F p c e b = .ok .dead b') ∨ ∃ e' b', handle F p c e b = .throws e' b' := by
  rcases exists_sent p e with ⟨s, hs⟩ | ⟨copied, t, rfl⟩
  · obtain ⟨e', b', hthrows, -⟩ :=
      sendException_of_not_packable hF (fun hpack => h ((answerable_iff hs).mpr hpack)) b c
    right
    rw [handle_sent hs]
    exact ⟨e', b', BufM.bind_throws hthrows⟩
  · cases copied with
    | false => exact .inl ⟨b, rfl⟩
    | true =>
        cases t with
        | packs bs fits => exact absurd ⟨rfl, bs, fits, rfl⟩ h
        | throws e' =>
            obtain ⟨bs₀, hbs₀, hreset⟩ := (serves_of hF).frames.reset b
            refine .inr ⟨e', ⟨b.header.assign (exceptionHeader EXCEPTION_OBJECT), 20, bs₀⟩, ?_⟩
            rw [handle, if_pos rfl]
            refine BufM.bind_throws ?_
            rw [sendExceptionWith, BufM.bind_ok hreset, BufM.bind_ok (rfl : this _ = .ok _ _),
              BufM.bind_ok (rfl : setHeader _ _ = .ok _ _)]
            exact BufM.bind_throws rfl

lemma withObject_short (p : Process) {e : PopException} (he : e.info.length < 2 ^ 21) :
    24 + stringSize (withObject p e).info < 2 ^ 31 := by
  have hobject := object_short p
  have hcolon : (text ": ").length = 2 := length_text _
  refine stringSize_lt ?_
  rw [withObject]
  split_ifs with hnil
  · have hadd := length_addInfo e p.object
    omega
  · have hadd := length_addInfo e (p.object ++ text ": " ++ e.info)
    rw [List.length_append, List.length_append, hcolon] at hadd
    omega

/-- A request that no stub wants is answered. -/
lemma mismatched_answerable (p : Process) :
    (Raised.popException (mismatched p)).Answerable F p := by
  have hinfo := length_popException p OBJECT_MISMATCH_METHOD
  have hadd := length_addInfo (popException p OBJECT_MISMATCH_METHOD)
    (text "Mismatched method was invoked")
  have htext : (text "Mismatched method was invoked").length = 29 := length_text _
  have hsent : (Raised.popException (mismatched p)).sent p =
      some (.popException (withObject p (mismatched p))) := rfl
  refine (answerable_iff hsent).mpr (withObject_short p ?_)
  rw [mismatched]
  omega

/-! ### `DoInvoke` answers -/

/-- One message has been sent, a response or an exception. -/
def Answers (F : Format) (c : Conn UInt8) (r : Result Done) : Prop :=
  ∃ m b', r = .ok (.returns (c.send (frame F m))) b' ∧ Sendable m ∧
    (m.header.type = TYPE_RESPONSE ∨ m.header.type = TYPE_EXCEPTION)

/-- The request is none that `PopCall` serves at once. -/
lemma ne_of_declines {v : View} {methodid : BitVec 32} (h : declines v methodid = true) :
    methodid ≠ 0 ∧ methodid ≠ 3 ∧ methodid ≠ 4 := by
  refine ⟨?_, ?_, ?_⟩
  all_goals
    rintro rfl
    simp [declines] at h

lemma doInvoke_answers (hF : F = raw ∨ ∃ lib : XdrLib, lib.Documented ∧ F = xdr lib)
    {v v' : View} {methodid semantics : BitVec 32} {invoked : Invoked}
    (hsync : wantsReply semantics = true) (hdecl : declines v methodid = true)
    (h : ∀ e data, invoked = .throws e data → e.Answerable F p) (b : PopBuffer) :
    Answers F c (doInvoke F p c v' methodid semantics invoked b) := by
  have hhandle : ∀ {e : Raised}, e.Answerable F p → ∀ data, Answers F c (handle F p c e data) := by
    intro e he data
    obtain ⟨m, b', hsent, hsendable, htype⟩ := handle_of_answerable hF he data c
    exact ⟨m, b', hsent, hsendable, .inr htype⟩
  cases invoked with
  | responds m hsendable htype => exact ⟨m, b, rfl, hsendable, .inl htype⟩
  | throws e data => exact hhandle (h e data rfl) data
  | mismatch data => exact hhandle (mismatched_answerable p) data
  | inherited =>
      show Answers F c (match popCall F p v' c methodid semantics b with
        | .ok .declined b' => handle F p c (.popException (mismatched p)) b'
        | .ok (.served c') b' => .ok (.returns c') b'
        | .ok .exited b' => .ok .dead b'
        | .throws e b' => handle F p c (.ofThrown e) b'
        | .undefined => .undefined)
      cases hlater : declines v' methodid with
      | true =>
          rw [popCall_of_declines F p c semantics b hlater]
          exact hhandle (mismatched_answerable p) b
      | false =>
          -- the object has come into being since the request was received
          obtain ⟨h0, h3, h4⟩ := ne_of_declines hdecl
          obtain ⟨m, b', hserved, hsendable, htype⟩ :=
            (popCall_of_serves p c semantics b (serves_of hF) hlater h3 h4).1 hsync
          rw [hserved]
          rw [answerType, if_neg h0] at htype
          exact ⟨m, b', rfl, hsendable, .inl htype⟩

lemma doInvoke_fails (hF : F = raw ∨ ∃ lib : XdrLib, lib.Documented ∧ F = xdr lib) {v : View}
    {methodid semantics : BitVec 32} {e : Raised} {data : PopBuffer} (h : ¬e.Answerable F p)
    (b : PopBuffer) :
    (∃ b', doInvoke F p c v methodid semantics (.throws e data) b = .ok .dead b') ∨
      ∃ e' b', doInvoke F p c v methodid semantics (.throws e data) b = .throws e' b' :=
  handle_of_not_answerable hF h data c

/-! ### The end of a request -/

lemma answeredOnce_send {m : PopBuffer} (hm : Sendable m)
    (htype : m.header.type = TYPE_RESPONSE ∨ m.header.type = TYPE_EXCEPTION) (n : ℤ) :
    AnsweredOnce F c n (.over (c.send (frame F m)) n) :=
  ⟨⟨m, hm, htype, rfl⟩, rfl⟩

/-- A frame says what its message is. -/
lemma message_of_frame (hF : F.Frames) {m m' : PopBuffer} (hm : Sendable m) (hm' : Sendable m')
    (h : frame F m = frame F m') : m.message = m'.message := by
  have hpending : (Conn.mk (frame F m) fun _ => 1).pending = frame F m ++ [] := by
    rw [List.append_nil]
  obtain ⟨r, pieces, hrecv, hmessage, -⟩ := recv_eq hF hm hpending m
  obtain ⟨r', pieces', hrecv', hmessage', -⟩ := recv_eq hF hm' (hpending.trans (by rw [h])) m
  obtain rfl : r = r' := (Result.ok.inj (hrecv.symm.trans hrecv')).2
  exact hmessage.symm.trans hmessage'

lemma not_answeredOnce_request (hF : F.Frames) {m : PopBuffer} (hm : Sendable m)
    (htype : m.header.type = TYPE_REQUEST) (n n' : ℤ) :
    ¬AnsweredOnce F c n (.over (c.send (frame F m)) n') := by
  rintro ⟨⟨m', hm', htype', hpending⟩, -⟩
  have hhead : ∀ h : Header, h.fields.head? = some h.type := fun h => by
    rw [Header.fields]
    split_ifs <;> rfl
  have hmessage := message_of_frame hF hm hm' (List.append_cancel_left hpending)
  have hfields : m.header.fields = m'.header.fields := (Message.mk.inj hmessage).1
  have hsame : m.header.type = m'.header.type := by
    rw [← Option.some_inj, ← hhead, ← hhead, hfields]
  rw [← hsame, htype] at htype'
  exact absurd htype' (by decide)

lemma not_answeredOnce_self (hF : F.Frames) (n n' : ℤ) : ¬AnsweredOnce F c n (.over c n') := by
  rintro ⟨⟨m, hm, -, hpending⟩, -⟩
  obtain ⟨ws, hs, hwords, hhs, hbytes, -⟩ := headerBytes_of_type hF hm.type m.packeddata.length
  have hlen := congrArg List.length hpending
  rw [frame_eq hwords, hhs, List.length_append, List.length_append, hbytes] at hlen
  omega

section

variable {v : View} {methodid semantics : BitVec 32} (p c) (v' : View) (invoked : Invoked)

/-- The two ways `DoInvoke` can go. -/
lemma doInvoke_cases (hF : F = raw ∨ ∃ lib : XdrLib, lib.Documented ∧ F = xdr lib)
    (hsync : wantsReply semantics = true) (hdecl : declines v methodid = true) (b : PopBuffer) :
    ((∀ e data, invoked = .throws e data → e.Answerable F p) ∧
        Answers F c (doInvoke F p c v' methodid semantics invoked b)) ∨
      (¬(∀ e data, invoked = .throws e data → e.Answerable F p) ∧
        ((∃ b', doInvoke F p c v' methodid semantics invoked b = .ok .dead b') ∨
          ∃ e' b', doInvoke F p c v' methodid semantics invoked b = .throws e' b')) := by
  by_cases h : ∀ e data, invoked = .throws e data → e.Answerable F p
  · exact .inl ⟨h, doInvoke_answers hF hsync hdecl h b⟩
  · refine .inr ⟨h, ?_⟩
    push Not at h
    obtain ⟨e, data, rfl, he⟩ := h
    exact doInvoke_fails hF he b

lemma runThread_iff (hF : F = raw ∨ ∃ lib : XdrLib, lib.Documented ∧ F = xdr lib)
    (hsync : wantsReply semantics = true) (hdecl : declines v methodid = true) (n : ℤ)
    (b : PopBuffer) :
    AnsweredOnce F c n (runThread F p c v' methodid semantics invoked n b) ↔
      ∀ e data, invoked = .throws e data → e.Answerable F p := by
  rw [runThread]
  rcases doInvoke_cases p c v' invoked hF hsync hdecl b with
    ⟨h, m, b', hend, hsendable, htype⟩ | ⟨h, ⟨b', hend⟩ | ⟨e', b', hend⟩⟩
  · rw [hend]
    exact iff_of_true (answeredOnce_send hsendable htype n) h
  · rw [hend]
    exact iff_of_false id h
  · rw [hend]
    exact iff_of_false id h

/-- A request that is not concurrent, with what `RegisterRequest` has added to `mutexCount`. -/
lemma serveRequest_iff (hF : F = raw ∨ ∃ lib : XdrLib, lib.Documented ∧ F = xdr lib)
    (hsync : wantsReply semantics = true) (hdecl : declines v methodid = true)
    (hconc : isConc semantics = false) (create n : ℤ) (b : PopBuffer) :
    AnsweredOnce F c n (serveRequest F p c v' create methodid semantics invoked
        (if isMutex semantics then n + 1 else n) b) ↔
      ∀ e data, invoked = .throws e data → e.Answerable F p := by
  rw [serveRequest, if_neg (by rw [hconc]; decide)]
  rcases doInvoke_cases p c v' invoked hF hsync hdecl b with
    ⟨h, m, b', hend, hsendable, htype⟩ | ⟨h, ⟨b', hend⟩ | ⟨e', b', hend⟩⟩
  · rw [hend]
    refine iff_of_true ?_ h
    refine ⟨⟨m, hsendable, htype, rfl⟩, ?_⟩
    cases isMutex semantics <;> simp
  · rw [hend]
    exact iff_of_false id h
  · rw [hend]
    refine iff_of_false ?_ h
    cases e' with
    | popException e' => exact not_answeredOnce_self (serves_of hF).frames n _
    | lengthError => exact not_answeredOnce_self (serves_of hF).frames n _
    | _ => exact id

end

namespace Life

variable (p : Process) (l : Life)

lemma fate_of_served {c : Conn UInt8} {b : PopBuffer}
    (h : popCall l.F p l.view l.from_ l.methodId l.semantics l.data = .ok (.served c) b) :
    l.fate p = .over c l.mutexCount := by
  rw [fate, h]

/-- The requests that `PopCall` serves at once. -/
lemma served_iff (hdecl : declines l.view l.methodId = false) :
    AnsweredOnce l.F l.from_ l.mutexCount (l.fate p) ↔
      l.methodId ≠ 0 ∧ l.methodId ≠ 4 ∧ (l.methodId = 3 → HasString l.F l.data) := by
  have hF := l.serves
  by_cases h3 : l.methodId = 3
  · by_cases hstring : HasString l.F l.data
    · obtain ⟨m, b', hserved, hsendable, htype⟩ :=
        (popCall_encoding p l.view l.from_ l.semantics hF l.received hstring).1 l.sync
      rw [← h3] at hserved
      rw [l.fate_of_served p hserved]
      refine iff_of_true (answeredOnce_send hsendable (.inl htype) _) ⟨?_, ?_, fun _ => hstring⟩
      · rw [h3]
        decide
      · rw [h3]
        decide
    · refine iff_of_false ?_ fun h => hstring (h.2.2 h3)
      rcases popCall_encoding_fails p l.view l.from_ l.semantics hF l.received hstring with
        ⟨e, b', hthrows⟩ | hundefined
      · rw [fate, h3, hthrows]
        exact not_answeredOnce_self hF.frames _ _
      · rw [fate, h3, hundefined]
        exact id
  by_cases h4 : l.methodId = 4
  · refine iff_of_false ?_ fun h => h.2.1 h4
    rw [fate, h4, popCall_kill]
    split_ifs
    · exact id
    · exact not_answeredOnce_self hF.frames _ _
  obtain ⟨m, b', hserved, hsendable, htype⟩ :=
    (popCall_of_serves p l.from_ l.semantics l.data hF hdecl h3 h4).1 l.sync
  rw [l.fate_of_served p hserved]
  by_cases h0 : l.methodId = 0
  · rw [answerType, if_pos h0] at htype
    exact iff_of_false (not_answeredOnce_request hF.frames hsendable htype _ _) fun h => h.1 h0
  · rw [answerType, if_neg h0] at htype
    exact iff_of_true (answeredOnce_send hsendable (.inl htype) _)
      ⟨h0, h4, fun h => absurd h h3⟩

/-- The requests that are registered. -/
lemma registered_iff (hdecl : declines l.view l.methodId = true) :
    AnsweredOnce l.F l.from_ l.mutexCount (l.fate p) ↔
      (l.HasThread → ∀ e data, l.invoked = .throws e data → e.Answerable l.F p) := by
  have hF := l.serves
  have hcall := popCall_of_declines l.F p l.from_ l.semantics l.data hdecl
  have hsync : wantsReply l.semantics = true := l.sync
  rw [fate, hcall]
  simp only [registerRequest, hsync]
  cases hconc : isConc l.semantics with
  | false =>
      -- a request that is not concurrent needs no thread
      have hthread : l.HasThread := fun h => absurd (hconc.symm.trans h) (by decide)
      have hserve := serveRequest_iff p l.from_ l.laterView l.invoked l.standard hsync hdecl hconc
        l.laterCreate l.mutexCount l.data
      simp only [hthread, true_imp_iff]
      cases hmutex : isMutex l.semantics with
      | true =>
          rw [hmutex] at hserve
          exact hserve
      | false =>
          rw [hmutex] at hserve
          exact hserve
  | true =>
      by_cases hfree : l.mutexCount ≤ 0
      · have hthread : l.HasThread ↔ l.create = 0 := by
          rw [HasThread, hconc, if_pos hfree]
          exact forall_prop_of_true rfl
        -- no mutex is waiting: the receiver creates the thread itself
        rw [if_pos rfl, if_pos hfree, hthread]
        by_cases hcreate : l.create = 0
        · have hstarts : serveConc l.F p l.from_ l.create true l.data =
              .ok (true, l.from_) l.data := by
            rw [serveConc, if_pos hcreate]
            rfl
          rw [BufM.bind_ok hstarts]
          simp only [hcreate, true_imp_iff]
          exact runThread_iff p _ _ _ l.standard hsync hdecl _ _
        · obtain ⟨m, b', hrefused, hsendable, htype⟩ :=
            serveConc_refused (p := p) (c := l.from_) hF hcreate l.data
          rw [BufM.bind_ok hrefused]
          exact iff_of_true (answeredOnce_send hsendable (.inr htype) _) fun h => absurd h hcreate
      · have hthread : l.HasThread ↔ l.laterCreate = 0 := by
          rw [HasThread, hconc, if_neg hfree]
          exact forall_prop_of_true rfl
        -- a mutex is waiting: the request is queued, and the serving loop creates the thread
        rw [if_pos rfl, if_neg hfree, hthread]
        show AnsweredOnce l.F l.from_ l.mutexCount (serveRequest l.F p l.from_ l.laterView
          l.laterCreate l.methodId l.semantics l.invoked l.mutexCount l.data) ↔ _
        rw [serveRequest, hconc, if_pos rfl, hsync]
        by_cases hcreate : l.laterCreate = 0
        · have hstarts : serveConc l.F p l.from_ l.laterCreate true l.data =
              .ok (true, l.from_) l.data := by
            rw [serveConc, if_pos hcreate]
            rfl
          rw [hstarts]
          simp only [hcreate, true_imp_iff]
          exact runThread_iff p _ _ _ l.standard hsync hdecl _ _
        · obtain ⟨m, b', hrefused, hsendable, htype⟩ :=
            serveConc_refused (p := p) (c := l.from_) hF hcreate l.data
          rw [hrefused]
          exact iff_of_true (answeredOnce_send hsendable (.inr htype) _) fun h => absurd h hcreate

end Life

/-- **One reply.**  Whatever the request, the object and the stub are like, exactly one response
or exception is sent and `mutexCount` comes back to what it was, if and only if the request is
no `BindStatus`, no `Kill` and no `Encoding` without a string, and what the stub throws, if it
is called, can be packed. -/
theorem answeredOnce_iff (p : Process) (l : Life) :
    AnsweredOnce l.F l.from_ l.mutexCount (l.fate p) ↔ l.Answerable p := by
  rw [Life.Answerable]
  cases hdecl : declines l.view l.methodId with
  | true =>
      rw [if_pos rfl]
      exact l.registered_iff p hdecl
  | false =>
      rw [if_neg (by decide)]
      exact l.served_iff p hdecl

/-! ### A number that is never reported -/

/-- What a request leaves behind when its exception cannot be packed: no answer, and for a
mutex request a count that stays. -/
lemma Life.fate_of_not_packable (p : Process) (l : Life)
    (hdecl : declines l.view l.methodId = true) (hconc : isConc l.semantics = false) {e : Raised}
    {data : PopBuffer} {s : Sent} (hinvoked : l.invoked = .throws e data)
    (hsent : e.sent p = some s) (hpack : ¬Packable l.F s) :
    l.fate p = .over l.from_ (if isMutex l.semantics then l.mutexCount + 1 else l.mutexCount) := by
  have hserve : ∀ n, serveRequest l.F p l.from_ l.laterView l.laterCreate l.methodId l.semantics
      l.invoked n l.data = .over l.from_ n := by
    intro n
    obtain ⟨e', b', hthrows, hstd⟩ := sendException_of_not_packable l.standard hpack data l.from_
    have hend : doInvoke l.F p l.from_ l.laterView l.methodId l.semantics (.throws e data) l.data =
        .throws e' b' := by
      show handle l.F p l.from_ e data = _
      rw [handle_sent hsent]
      exact BufM.bind_throws hthrows
    rw [serveRequest, hconc, if_neg (by decide), hinvoked, hend]
    rcases hstd with rfl | ⟨e'', rfl⟩ <;> rfl
  rw [fate, popCall_of_declines _ _ _ _ _ hdecl]
  simp only [registerRequest, hconc]
  cases isMutex l.semantics with
  | true => exact hserve _
  | false => exact hserve _

/-- A synchronous mutex request to a method with a stub. -/
def mutexRequest : PopBuffer := ⟨requestHeader 1000 11 17, 20, List.replicate 20 0⟩

lemma sendable_mutexRequest : Sendable mutexRequest := ⟨.inl rfl, by decide, by decide⟩

/-- The stub of a mutex request throws a `long` of `2 ^ 40`, and the XDR library refuses it:
nothing is sent and `mutexCount` stays one too large. -/
theorem long_exception_unanswered :
    ∃ l : Life, l.F = xdr XdrLib.standard ∧ l.data.message = mutexRequest.message ∧
      l.invoked = .throws (.value .long (2 ^ 40)) l.data ∧
      l.fate sampleProcess = .over l.from_ (l.mutexCount + 1) ∧
      ¬AnsweredOnce l.F l.from_ l.mutexCount (l.fate sampleProcess) := by
  obtain ⟨a, hF, hview, hcount, hcreate, hm, -⟩ := exists_arrival
    (.inr ⟨_, XdrLib.standard_documented, rfl⟩) sendable_mutexRequest ⟨some 1, false, false⟩ 0 0
  obtain ⟨hid, hsem⟩ : a.data.header.methodId = 11 ∧ a.data.header.semantics = 17 :=
    fields_eq_request (Message.mk.inj hm).1
  obtain ⟨l, hl, hlater⟩ : ∃ l : Life, l.toArrival = a ∧
      l.invoked = .throws (.value .long (2 ^ 40)) a.data :=
    ⟨⟨a, by rw [hsem]; decide, ⟨some 1, false, false⟩, 0, .throws _ _⟩, rfl, rfl⟩
  subst hl
  have hdecl : declines l.view l.methodId = true := by
    rw [Arrival.methodId, hid]
    rfl
  have hunpackable : ¬Packable l.F (.value .long (2 ^ 40)) := by
    intro h
    rw [hF] at h
    exact absurd (h (xdr_ne_raw _)) (by decide)
  have hfate := l.fate_of_not_packable sampleProcess hdecl
    (by rw [Arrival.semantics, hsem]; decide) hlater rfl hunpackable
  rw [Arrival.semantics, hsem, if_pos (by decide)] at hfate
  refine ⟨l, hF, hm, hlater, hfate, ?_⟩
  rw [hfate]
  exact not_answeredOnce_self l.serves.frames _ _

end PopCpp.Broker
