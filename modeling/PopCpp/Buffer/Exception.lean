/-
# Exceptions across a connection

When a method throws, the broker packs what was thrown into the buffer of the request and sends
it back under a header that has a code for its C++ type (`SendException`).  The caller's
`CheckAndThrow` looks at the code, unpacks a value of the type and throws it.  The two sides
are written separately, one overload and one `case` for each type; this file shows that they
fit together.
-/
import PopCpp.Buffer.RoundTrip
import PopCpp.Buffer.Framing

namespace PopCpp.Buffer

open Bytes CInt Channel

/-! ### The codes -/

def EXCEPTION_INT : BitVec 32 := 1
def EXCEPTION_UINT : BitVec 32 := 2
def EXCEPTION_LONG : BitVec 32 := 3
def EXCEPTION_ULONG : BitVec 32 := 4
def EXCEPTION_SHORT : BitVec 32 := 5
def EXCEPTION_USHORT : BitVec 32 := 6
def EXCEPTION_BOOL : BitVec 32 := 7
def EXCEPTION_CHAR : BitVec 32 := 8
def EXCEPTION_UCHAR : BitVec 32 := 9
def EXCEPTION_STRING : BitVec 32 := 10
def EXCEPTION_FLOAT : BitVec 32 := 11
def EXCEPTION_DOUBLE : BitVec 32 := 12
def EXCEPTION_OBJECT : BitVec 32 := 13
def EXCEPTION_POPC_STD : BitVec 32 := 14

/-! ### `SendException` -/

/-- `pop_message_header::operator=`. -/
def Header.assign (h dat : Header) : Header :=
  let h := { h with type := dat.type }
  if h.type = TYPE_REQUEST then
    { h with classId := dat.classId, methodId := dat.methodId, semantics := dat.semantics }
  else if h.type = TYPE_EXCEPTION then { h with exception := dat.exception }
  else h

/-- `pop_message_header(exceptioncode, metname)`.  The ids are not set; `operator=` does not
copy them either. -/
def exceptionHeader (exceptioncode : BitVec 32) : Header :=
  ⟨TYPE_EXCEPTION, 0, 0, 0, exceptioncode⟩

section

variable (F : Format) (c : Conn UInt8)

/-- What all overloads have in common; `pack` packs the exception. -/
def sendExceptionWith (code : BitVec 32) (pack : BufM Unit) : BufM (Bool × Conn UInt8) := do
  let tmp := exceptionHeader code
  F.reset
  let b ← this
  setHeader (b.header.assign tmp)
  pack
  send F c

/-- `SEND_EXCEPTION(x)`. -/
def sendExceptionValue (x : BitVec 32) (k : Kind) (code : k.Val) : BufM (Bool × Conn UInt8) :=
  sendExceptionWith F c x (F.pack k [code])

/-- `SendException(except, s, char* code)`. -/
def sendExceptionString (code : Option (List UInt8)) : BufM (Bool × Conn UInt8) :=
  sendExceptionWith F c EXCEPTION_STRING do
    let len := match code with
      | none => 0
      | some s => wrap (s.length + 1)
    packInt1 F len
    F.pack .char (((code.getD []) ++ [0]).take len.toNat)

/-- `pop_exception::Serialize(buf, true)`. -/
def packException (e : PopException) : BufM Unit := do
  F.pack .int [e.code]
  packStrings F [e.info]

/-- `pop_exception::Serialize(buf, false)`. -/
def unPackException : BufM PopException := do
  let code ← F.unPack .int 1
  let info ← unPackStrings F 1
  pure ⟨code.headD 0, info.headD []⟩

/-- What `SendException` has an overload for: a value, a `char*` (null, or the characters up to
the NUL) or a `pop_exception`. -/
inductive Sent where
  | value (k : Kind) (v : k.Val)
  | charPtr (s : Option (List UInt8))
  | popException (e : PopException)

/-- `SendException(except, s, code)`.  There is no overload for `signed char`, which is promoted
to `int`. -/
def sendException : Sent → BufM (Bool × Conn UInt8)
  | .value .int v => sendExceptionValue F c EXCEPTION_INT .int v
  | .value .unsigned v => sendExceptionValue F c EXCEPTION_UINT .unsigned v
  | .value .long v => sendExceptionValue F c EXCEPTION_LONG .long v
  | .value .ulong v => sendExceptionValue F c EXCEPTION_ULONG .ulong v
  | .value .short v => sendExceptionValue F c EXCEPTION_SHORT .short v
  | .value .ushort v => sendExceptionValue F c EXCEPTION_USHORT .ushort v
  | .value .bool v => sendExceptionValue F c EXCEPTION_BOOL .bool v
  | .value .char v => sendExceptionValue F c EXCEPTION_CHAR .char v
  | .value .uchar v => sendExceptionValue F c EXCEPTION_UCHAR .uchar v
  | .value .schar v => sendExceptionValue F c EXCEPTION_INT .int (v.toBitVec.signExtend 32)
  | .value .float v => sendExceptionValue F c EXCEPTION_FLOAT .float v
  | .value .double v => sendExceptionValue F c EXCEPTION_DOUBLE .double v
  | .charPtr s => sendExceptionString F c s
  | .popException e => sendExceptionWith F c EXCEPTION_POPC_STD (packException F e)

end

/-! ### `CheckAndThrow` -/

section

variable (F : Format)

/-- `T t; except.UnPack(&t, 1); throw t;` -/
def throwValue (k : Kind) : BufM Unit := do
  match ← F.unPack k 1 with
  | v :: _ => throwing (.value k v)
  | [] => fun _ => .undefined

/-- The `case` of `EXCEPTION_STRING`. -/
def throwString : BufM Unit := do
  let len ← unPackInt1 F
  if len ≤ 0 then throwing (.charPtr none)
  else do
    let t ← F.unPack .char len
    throwing (.charPtr (some t))

/-- The `case` of `EXCEPTION_POPC_STD`. -/
def throwException : BufM Unit := do
  let t ← unPackException F
  throwing (.popException t)

/-- `CheckAndThrow(except)`; `serializeInterface` stands for `pop_interface::Serialize`. -/
def checkAndThrow (serializeInterface : BufM Unit) : BufM Unit := do
  let b ← this
  if b.header.type ≠ TYPE_EXCEPTION then pure ()
  else
    let code := b.header.exception
    if code = EXCEPTION_INT then throwValue F .int
    else if code = EXCEPTION_UINT then throwValue F .unsigned
    else if code = EXCEPTION_LONG then throwValue F .long
    else if code = EXCEPTION_ULONG then throwValue F .ulong
    else if code = EXCEPTION_SHORT then throwValue F .short
    else if code = EXCEPTION_USHORT then throwValue F .ushort
    else if code = EXCEPTION_BOOL then throwValue F .bool
    else if code = EXCEPTION_CHAR then throwValue F .char
    else if code = EXCEPTION_UCHAR then throwValue F .uchar
    else if code = EXCEPTION_STRING then throwString F
    else if code = EXCEPTION_FLOAT then throwValue F .float
    else if code = EXCEPTION_DOUBLE then throwValue F .double
    else if code = EXCEPTION_POPC_STD then throwException F
    else if code = EXCEPTION_OBJECT then do
      serializeInterface
      throwing .interface
    else throwing (popThrow "Unknown exception in pop_buffer::CheckAndThrow")

end

/-! ### From one end to the other -/

/-- The values for which the transport is asked: those that have an overload, `long`s of 32
bits, and strings without NUL. -/
def Sent.InRange : Sent → Prop
  | .value .long v => -2 ^ 31 ≤ v.toInt ∧ v.toInt < 2 ^ 31
  | .value .ulong v => v.toNat < 2 ^ 32
  | .value .schar _ => False
  | .value _ _ => True
  | .charPtr s => 0 ∉ s.getD []
  | .popException e => 0 ∉ e.info

/-- The message that carries the exception has fewer than `2 ^ 31` bytes. -/
def Sent.Short : Sent → Prop
  | .value _ _ => True
  | .charPtr s => 24 + roundUp4 ((s.getD []).length + 1) < 2 ^ 31
  | .popException e => 28 + roundUp4 (e.info.length + 1) < 2 ^ 31

/-- What is to be thrown at the other end; a `char*` there points to a copy of the string. -/
def Sent.thrown : Sent → Thrown
  | .value k v => .value k v
  | .charPtr s => .charPtr (s.map (· ++ [0]))
  | .popException e => .popException e

/-- A received exception with this code and these bytes. -/
structure Holds (r : PopBuffer) (code : BitVec 32) (bs : List UInt8) : Prop where
  type : r.header.type = TYPE_EXCEPTION
  code : r.header.exception = code
  pos : r.unpackpos = 20
  data : ∃ pre, pre.length = 20 ∧ r.packeddata = pre ++ bs
  size : r.packeddata.length < 2 ^ 31

variable {F : Format}

/-- Wherever `bs` stands at the unpack position, the call throws `e`. -/
def Throws {α : Type} (m : BufM α) (bs : List UInt8) (e : Thrown) : Prop :=
  ∀ (b : PopBuffer) (pre post : List UInt8), b.packeddata = pre ++ bs ++ post →
    b.unpackpos = pre.length → b.packeddata.length < 2 ^ 31 → ∃ b', m b = .throws e b'

lemma Throws.throwing {α : Type} (bs : List UInt8) (e : Thrown) :
    Throws (throwing e : BufM α) bs e := by
  intro b pre post _ _ _
  exact ⟨b, rfl⟩

/-- A call that reads something, and then one that throws. -/
lemma Reads.bind_throws {α β : Type} {m : BufM α} {f : α → BufM β} {bs bs' : List UInt8} {v : α}
    {e : Thrown} (h : Reads m bs v) (h' : Throws (f v) bs' e) :
    Throws (m >>= f) (bs ++ bs') e := by
  intro b pre post hb hpos hlen
  have hfirst := h b pre (bs' ++ post) (by rw [hb]; simp) hpos hlen
  obtain ⟨b', hthrows⟩ := h' { b with unpackpos := (pre.length + bs.length : ℕ) } (pre ++ bs)
    post (by rw [hb]; simp) (by simp) hlen
  exact ⟨b', (BufM.bind_ok hfirst).trans hthrows⟩

lemma Holds.throws {α : Type} {m : BufM α} {r : PopBuffer} {code : BitVec 32} {bs : List UInt8}
    {e : Thrown} (h : Holds r code bs) (hm : Throws m bs e) : ∃ r', m r = .throws e r' := by
  obtain ⟨pre, hpre, hdata⟩ := h.data
  exact hm r pre [] (by rw [hdata, List.append_nil]) (by rw [h.pos, hpre]; rfl) h.size

lemma Header.fields_eq_exception {h : Header} {code : BitVec 32}
    (hfields : h.fields = [TYPE_EXCEPTION, code]) :
    h.type = TYPE_EXCEPTION ∧ h.exception = code := by
  rw [Header.fields] at hfields
  split at hfields
  · simp at hfields
  · split at hfields
    · next htype =>
        refine ⟨htype, ?_⟩
        simpa using (List.cons.inj hfields).2
    · split at hfields <;> simp at hfields

/-- Whatever is packed under an exception header is sent under it. -/
lemma sendExceptionWith_eq (hF : F.Frames) (code : BitVec 32) {pack : BufM Unit}
    {bs : List UInt8} (hpack : Appends pack bs) (hsize : 20 + bs.length < 2 ^ 31)
    (b : PopBuffer) (c : Conn UInt8) :
    ∃ m, sendExceptionWith F c code pack b =
        .ok (true, c.send (frame F m)) { m with packeddata := frame F m } ∧
      Sendable m ∧ m.header = { b.header with type := TYPE_EXCEPTION, exception := code } ∧
      m.packeddata.drop 20 = bs ∧ m.packeddata.length = 20 + bs.length := by
  obtain ⟨bs₀, hbs₀, hreset⟩ := hF.reset b
  have hassign : b.header.assign (exceptionHeader code) =
      { b.header with type := TYPE_EXCEPTION, exception := code } := by
    simp [Header.assign, exceptionHeader, TYPE_EXCEPTION, TYPE_REQUEST]
  obtain ⟨m, hpacked, hfields, hdrop, hlen⟩ : ∃ m, pack ⟨b.header.assign (exceptionHeader code),
      20, bs₀⟩ = .ok () m ∧ m.header = b.header.assign (exceptionHeader code) ∧
      m.packeddata.drop 20 = bs ∧ m.packeddata.length = 20 + bs.length := by
    refine ⟨_, hpack _ (by simp only [hbs₀]; exact hsize), rfl, ?_, ?_⟩
    · simp only [List.drop_left' hbs₀]
    · simp only [List.length_append, hbs₀]
  have htype : m.header.type = TYPE_EXCEPTION := by rw [hfields, hassign]
  have hsendable : Sendable m := ⟨.inr (.inr htype), by omega, by omega⟩
  refine ⟨m, ?_, hsendable, hfields.trans hassign, hdrop, hlen⟩
  rw [sendExceptionWith, BufM.bind_ok hreset, BufM.bind_ok (rfl : this _ = .ok _ _),
    BufM.bind_ok (rfl : setHeader _ _ = .ok _ _), BufM.bind_ok hpacked]
  exact send_eq hF hsendable c

/-- It arrives under it. -/
lemma sendExceptionWith_recv (hF : F.Frames) {code : BitVec 32} {pack : BufM Unit}
    {bs : List UInt8} (hpack : Appends pack bs) (hsize : 20 + bs.length < 2 ^ 31)
    (b r : PopBuffer) {c : Conn UInt8} (hc : c.pending = []) :
    ∃ b' c', sendExceptionWith F c code pack b = .ok (true, c') b' ∧
      ∀ pieces, ∃ r' c'', recv F ⟨c'.pending, pieces⟩ r = .ok (true, c'') r' ∧
        Holds r' code bs := by
  obtain ⟨m, hsent, hsendable, hheader, hdrop, hlen⟩ := sendExceptionWith_eq hF code hpack hsize b c
  refine ⟨_, _, hsent, fun pieces => ?_⟩
  have hpending : (Conn.mk (c.send (frame F m)).pending pieces).pending = frame F m ++ [] := by
    rw [Conn.send, hc, List.nil_append, List.append_nil]
  obtain ⟨r', pieces', hrecv, hmessage, hpos, hsame⟩ := recv_eq hF hsendable hpending r
  obtain ⟨hfields', hpayload⟩ : r'.header.fields = m.header.fields ∧
      r'.packeddata.drop 20 = m.packeddata.drop 20 := Message.mk.inj hmessage
  have hexn : m.header.fields = [TYPE_EXCEPTION, code] := by
    rw [hheader, Header.fields, if_neg (show TYPE_EXCEPTION ≠ TYPE_REQUEST by decide), if_pos rfl]
  obtain ⟨htype', hcode⟩ := Header.fields_eq_exception (hfields'.trans hexn)
  refine ⟨r', _, hrecv, htype', hcode, hpos, ⟨r'.packeddata.take 20, ?_, ?_⟩, by omega⟩
  · rw [List.length_take]
    omega
  · rw [← hdrop, ← hpayload, List.take_append_drop]

/-! ### Type by type -/

variable {ifc : BufM Unit} {r : PopBuffer} {bs : List UInt8}

/-- The code for the values of a type. -/
def exceptionCode : Kind → BitVec 32
  | .int => EXCEPTION_INT
  | .unsigned => EXCEPTION_UINT
  | .long => EXCEPTION_LONG
  | .ulong => EXCEPTION_ULONG
  | .short => EXCEPTION_SHORT
  | .ushort => EXCEPTION_USHORT
  | .bool => EXCEPTION_BOOL
  | .char => EXCEPTION_CHAR
  | .uchar => EXCEPTION_UCHAR
  | .schar => EXCEPTION_INT
  | .float => EXCEPTION_FLOAT
  | .double => EXCEPTION_DOUBLE

lemma sendException_value {k : Kind} (hk : k ≠ .schar) (v : k.Val) (c : Conn UInt8) :
    sendException F c (.value k v) = sendExceptionWith F c (exceptionCode k) (F.pack k [v]) := by
  cases k with
  | schar => exact absurd rfl hk
  | _ => rfl

/-- The `case` of a type unpacks and throws a value of the type. -/
lemma checkAndThrow_value {k : Kind} (hk : k ≠ .schar) (h : Holds r (exceptionCode k) bs) :
    checkAndThrow F ifc r = throwValue F k r := by
  rw [checkAndThrow, BufM.bind_ok (rfl : this r = .ok r r), if_neg (not_not.mpr h.type), h.code]
  cases k with
  | schar => exact absurd rfl hk
  | _ => rfl

lemma checkAndThrow_string (h : Holds r EXCEPTION_STRING bs) :
    checkAndThrow F ifc r = throwString F r := by
  rw [checkAndThrow, BufM.bind_ok (rfl : this r = .ok r r), if_neg (not_not.mpr h.type), h.code]
  rfl

lemma checkAndThrow_exception (h : Holds r EXCEPTION_POPC_STD bs) :
    checkAndThrow F ifc r = throwException F r := by
  rw [checkAndThrow, BufM.bind_ok (rfl : this r = .ok r r), if_neg (not_not.mpr h.type), h.code]
  rfl

/-! ### What arrives -/

/-- Sending `e` from any buffer and receiving the message in any buffer, in any pieces, the
receiver's `CheckAndThrow` throws `t`. -/
def Arrives (F : Format) (ifc : BufM Unit) (e : Sent) (t : Thrown) : Prop :=
  ∀ (b r : PopBuffer) (c : Conn UInt8), c.pending = [] →
    ∃ b' c', sendException F c e b = .ok (true, c') b' ∧
      ∀ pieces, ∃ r' c'', recv F ⟨c'.pending, pieces⟩ r = .ok (true, c'') r' ∧
        ∃ r'', checkAndThrow F ifc r' = .throws t r''

lemma arrives_of_throws (hF : F.Frames) {e : Sent} {t : Thrown} {code : BitVec 32}
    {pack : BufM Unit} (hsend : ∀ c, sendException F c e = sendExceptionWith F c code pack)
    (hpack : Appends pack bs) (hsize : 20 + bs.length < 2 ^ 31)
    (hthrows : ∀ r, Holds r code bs → ∃ r', checkAndThrow F ifc r = .throws t r') :
    Arrives F ifc e t := by
  intro b r c hc
  obtain ⟨b', c', hsent, hrecv⟩ := sendExceptionWith_recv hF hpack hsize b r hc
  refine ⟨b', c', by rw [hsend]; exact hsent, fun pieces => ?_⟩
  obtain ⟨r', c'', hreceived, hholds⟩ := hrecv pieces
  exact ⟨r', c'', hreceived, hthrows r' hholds⟩

lemma arrives_value (hF : F.Frames) {k : Kind} (hk : k ≠ .schar) {v : k.Val}
    (hpack : Appends (F.pack k [v]) bs) (hunpack : Reads (F.unPack k 1) bs [v])
    (hsize : 20 + bs.length < 2 ^ 31) : Arrives F ifc (.value k v) (.value k v) := by
  refine arrives_of_throws hF (sendException_value hk v) hpack hsize fun r hr => ?_
  rw [checkAndThrow_value hk hr]
  have hthrows : Throws (throwValue F k) (bs ++ []) (.value k v) :=
    hunpack.bind_throws (Throws.throwing _ _)
  rw [List.append_nil] at hthrows
  exact hr.throws hthrows

lemma arrives_null (hF : F.Frames) (hS : F.CodesStrings) :
    Arrives F ifc (.charPtr none) (.charPtr none) := by
  obtain ⟨bs, hbs, happ, hread⟩ := hS.int1 (x := 0) (by simp [Fits])
  have hpack := happ.bind (hS.char []).1
  have hsize : (bs ++ pad4 []).length = 4 := by simp [hbs, roundUp4]
  refine arrives_of_throws hF (fun c => rfl) hpack (by omega) fun r hr => ?_
  rw [checkAndThrow_string hr]
  have hthrows : Throws (throwString F) (bs ++ pad4 []) (.charPtr none) := by
    refine hread.bind_throws ?_
    rw [if_pos le_rfl]
    exact Throws.throwing _ _
  exact hr.throws hthrows

lemma arrives_string (hF : F.Frames) (hS : F.CodesStrings) {s : List UInt8}
    (hsize : 24 + roundUp4 (s.length + 1) < 2 ^ 31) :
    Arrives F ifc (.charPtr (some s)) (.charPtr (some (s ++ [0]))) := by
  have hroom := le_roundUp4 (s.length + 1)
  have hlen : (s ++ [0]).length = s.length + 1 := by simp
  have hwrap : wrap ((s.length : ℤ) + 1) = ((s ++ [0]).length : ℕ) := by
    rw [wrap_eq_self (by simp only [Fits]; omega), hlen]
    omega
  obtain ⟨bs, hbs, happ, hread⟩ := hS.int1 (fits_wrap (s.length + 1))
  obtain ⟨happ', hread'⟩ := hS.char (s ++ [0])
  have hpack : Appends (packInt1 F (wrap (s.length + 1)) >>= fun _ =>
      F.pack .char ((s ++ [0]).take (wrap (s.length + 1)).toNat)) (bs ++ pad4 (s ++ [0])) := by
    have htake : (s ++ [0]).take (wrap (s.length + 1)).toNat = s ++ [0] := by
      rw [hwrap, Int.toNat_natCast, List.take_length]
    rw [htake]
    exact happ.bind happ'
  refine arrives_of_throws hF (fun c => rfl) hpack ?_ fun r hr => ?_
  · rw [List.length_append, length_pad4, hlen, hbs]
    omega
  · rw [checkAndThrow_string hr]
    rw [hwrap] at hread
    have hthrows : Throws (throwString F) (bs ++ (pad4 (s ++ [0]) ++ []))
        (.charPtr (some (s ++ [0]))) := by
      refine hread.bind_throws ?_
      rw [if_neg (by rw [hlen]; omega)]
      exact hread'.bind_throws (Throws.throwing _ _)
    rw [List.append_nil] at hthrows
    exact hr.throws hthrows

/-- A `pop_exception`, from what its string is read as. -/
lemma arrives_exception (hF : F.Frames) (hS : F.CodesStrings) {code : BitVec 32}
    {info info' : List UInt8} {bs : List UInt8} (happ : Appends (packString F info) bs)
    (hread : Reads (unPackString F) bs info') (hsize : 24 + bs.length < 2 ^ 31) :
    Arrives F ifc (.popException ⟨code, info⟩) (.popException ⟨code, info'⟩) := by
  obtain ⟨bs₀, hbs₀, happ₀, hread₀⟩ := hS.int code
  have hpack : Appends (packException F ⟨code, info⟩) (bs₀ ++ (bs ++ [])) :=
    happ₀.bind (happ.bind Appends.pure)
  have hinfo : Reads (unPackStrings F 1) bs [info'] := by
    have hone := hread.bind (f := fun s => unPackStrings F 0 >>= fun ss => pure (s :: ss))
      ((Reads.pure []).map (info' :: ·))
    rwa [List.append_nil] at hone
  have hunpack : Reads (unPackException F) (bs₀ ++ bs) ⟨code, info'⟩ :=
    hread₀.bind (hinfo.map fun info => PopException.mk code (info.headD []))
  rw [List.append_nil] at hpack
  refine arrives_of_throws hF (fun c => rfl) hpack ?_ fun r hr => ?_
  · rw [List.length_append, hbs₀]
    omega
  · rw [checkAndThrow_exception hr]
    have hthrows : Throws (throwException F) (bs₀ ++ bs ++ []) (.popException ⟨code, info'⟩) :=
      hunpack.bind_throws (Throws.throwing _ _)
    rw [List.append_nil] at hthrows
    exact hr.throws hthrows

lemma arrives_raw {e : Sent} (hrange : e.InRange) (hshort : e.Short) :
    Arrives raw ifc e e.thrown := by
  cases e with
  | value k v =>
      have hk : k ≠ .schar := by
        rintro rfl
        exact hrange
      obtain ⟨happ, hread⟩ := codes_raw_array k [v]
      refine arrives_value frames_raw hk happ hread ?_
      rw [length_pad4, k.length_flatMap_bytes, List.length_singleton]
      cases k <;> simp [Kind.size, roundUp4]
  | charPtr s =>
      cases s with
      | none => exact arrives_null frames_raw codesStrings_raw
      | some s => exact arrives_string frames_raw codesStrings_raw hshort
  | popException e =>
      obtain ⟨bs, hbs, happ, hread⟩ := codes_string codesStrings_raw hrange
      refine arrives_exception frames_raw codesStrings_raw happ hread ?_
      rw [hbs]
      exact lt_of_eq_of_lt (by ring) hshort

lemma arrives_xdr {lib : XdrLib} (hlib : lib.Documented) {e : Sent} (hrange : e.InRange)
    (hshort : e.Short) : Arrives (xdr lib) ifc e e.thrown := by
  have hS := codesStrings_xdr hlib
  cases e with
  | value k v =>
      have hk : k ≠ .schar := by
        rintro rfl
        exact hrange
      have hfits : XdrFits (.array k [v]) := by
        cases k with
        | long => exact fun u hu => by rw [List.mem_singleton.mp hu]; exact hrange
        | ulong => exact fun u hu => by rw [List.mem_singleton.mp hu]; exact hrange
        | _ => trivial
      obtain ⟨bs, hbs, happ, hread⟩ := codes_xdr_array hlib hfits (fun _ => by simp)
      refine arrives_value (frames_xdr lib) hk happ hread ?_
      rw [hbs]
      cases k <;> simp [xdrSize, roundUp4]
  | charPtr s =>
      cases s with
      | none => exact arrives_null (frames_xdr lib) hS
      | some s => exact arrives_string (frames_xdr lib) hS hshort
  | popException e =>
      obtain ⟨bs, hbs, happ, hread⟩ := codes_string hS hrange
      refine arrives_exception (frames_xdr lib) hS happ hread ?_
      rw [hbs]
      exact lt_of_eq_of_lt (by ring) hshort

/-- **Exceptions.**  What is thrown at one end is thrown at the other, and a message that is no
exception is left alone. -/
theorem exception_transport (F : Format)
    (hF : F = raw ∨ ∃ lib : XdrLib, lib.Documented ∧ F = xdr lib)
    (serializeInterface : BufM Unit) :
    (∀ e : Sent, e.InRange → e.Short → Arrives F serializeInterface e e.thrown) ∧
      ∀ b : PopBuffer, b.header.type ≠ TYPE_EXCEPTION →
        checkAndThrow F serializeInterface b = .ok () b := by
  constructor
  · intro e hrange hshort
    rcases hF with rfl | ⟨lib, hlib, rfl⟩
    · exact arrives_raw hrange hshort
    · exact arrives_xdr hlib hrange hshort
  · intro b htype
    rw [checkAndThrow, BufM.bind_ok (rfl : this b = .ok b b), if_pos htype]
    rfl

/-- Sending an `int`, a `char*` and a `pop_exception`. -/
theorem exception_transport_xdr :
    Arrives (xdr XdrLib.standard) (pure ()) (.value .int (-3)) (.value .int (-3)) ∧
      Arrives (xdr XdrLib.standard) (pure ()) (.charPtr (some [110, 111]))
        (.charPtr (some [110, 111, 0])) ∧
      Arrives (xdr XdrLib.standard) (pure ()) (.popException ⟨10001, [110, 111]⟩)
        (.popException ⟨10001, [110, 111]⟩) := by
  have hall := (exception_transport (xdr XdrLib.standard)
    (.inr ⟨_, XdrLib.standard_documented, rfl⟩) (pure ())).1
  exact ⟨hall (.value .int (-3)) trivial trivial,
    hall (.charPtr (some [110, 111])) (by simp [Sent.InRange]) (by simp [Sent.Short, roundUp4]),
    hall (.popException ⟨10001, [110, 111]⟩) (by simp [Sent.InRange])
      (by simp [Sent.Short, roundUp4])⟩

/-- A string whose length with the NUL does not come out positive is packed as a length only,
and read as the empty string. -/
lemma codes_string_wrapped (hS : F.CodesStrings) {s : List UInt8}
    (h : wrap (s.length + 1) ≤ 0) :
    ∃ bs, bs.length = 4 ∧ Appends (packString F s) bs ∧ Reads (unPackString F) bs [] := by
  obtain ⟨bs, hbs, happ, hread⟩ := hS.int1 (fits_wrap (s.length + 1))
  have hpack := happ.bind Appends.pure
  have hunpack : Reads (unPackString F) (bs ++ []) [] := by
    refine hread.bind ?_
    rw [if_neg (by omega)]
    exact Reads.pure []
  rw [List.append_nil] at hpack hunpack
  refine ⟨bs, hbs, ?_, hunpack⟩
  rw [packString, if_neg (by omega)]
  exact hpack

lemma Arrives.unique {e : Sent} {t t' : Thrown} (h : Arrives F ifc e t)
    (h' : Arrives F ifc e t') : t = t' := by
  obtain ⟨b₁, c₁, hsend, hrecv⟩ := h (empty ⟨0, 0, 0, 0, 0⟩) (empty ⟨0, 0, 0, 0, 0⟩)
    ⟨[], fun _ => 1⟩ rfl
  obtain ⟨b₂, c₂, hsend', hrecv'⟩ := h' (empty ⟨0, 0, 0, 0, 0⟩) (empty ⟨0, 0, 0, 0, 0⟩)
    ⟨[], fun _ => 1⟩ rfl
  obtain ⟨⟨-, rfl⟩, -⟩ : (true = true ∧ c₁ = c₂) ∧ b₁ = b₂ := by simpa using hsend.symm.trans hsend'
  obtain ⟨r₁, c₃, hreceived, r₁', hthrows⟩ := hrecv fun _ => 1
  obtain ⟨r₂, c₄, hreceived', r₂', hthrows'⟩ := hrecv' fun _ => 1
  obtain ⟨-, rfl⟩ : c₃ = c₄ ∧ r₁ = r₂ := by simpa using hreceived.symm.trans hreceived'
  exact (Result.throws.inj (hthrows.symm.trans hthrows')).1

/-- Of a `pop_exception` with `2 ^ 31 - 1` characters of information, the code alone arrives. -/
theorem exception_info_lost :
    (Sent.popException ⟨10001, List.replicate (2 ^ 31 - 1) 97⟩).InRange ∧
      Arrives raw (pure ()) (.popException ⟨10001, List.replicate (2 ^ 31 - 1) 97⟩)
        (.popException ⟨10001, []⟩) ∧
      ¬Arrives raw (pure ()) (.popException ⟨10001, List.replicate (2 ^ 31 - 1) 97⟩)
        (Sent.popException ⟨10001, List.replicate (2 ^ 31 - 1) 97⟩).thrown := by
  obtain ⟨info, hinfo⟩ : ∃ info : List UInt8, info = List.replicate (2 ^ 31 - 1) 97 := ⟨_, rfl⟩
  have hlen : info.length = 2 ^ 31 - 1 := by rw [hinfo, List.length_replicate]
  have hnul : 0 ∉ info := by
    intro h0
    rw [hinfo] at h0
    exact absurd (List.eq_of_mem_replicate h0) (by decide)
  rw [← hinfo]
  obtain ⟨bs, hbs, happ, hread⟩ := codes_string_wrapped codesStrings_raw (s := info)
    (by rw [hlen]; decide)
  have hlost : Arrives raw (pure ()) (.popException ⟨10001, info⟩) (.popException ⟨10001, []⟩) :=
    arrives_exception frames_raw codesStrings_raw happ hread (by omega)
  refine ⟨hnul, hlost, fun hkept => ?_⟩
  have hsame := hlost.unique hkept
  simp only [Sent.thrown, Thrown.popException.injEq, PopException.mk.injEq, true_and] at hsame
  rw [← hsame] at hlen
  simp at hlen

end PopCpp.Buffer
