/-
# The built-in calls of the broker

`PopCall` serves the requests with a method id below 10 in the receive thread, or declines
them.  It unpacks and packs in the buffer of the request and answers with it
(`lib/dynamic/broker_receive.cc`).  This file has the calls as they act on a buffer of either
encoding, and what each of them can do: an answer is one message on the connection, and
`Encoding` alone reads the payload.
-/
import PopCpp.Broker.Model
import PopCpp.Buffer.Windows
import PopCpp.Buffer.Exception

namespace PopCpp.Broker

open Buffer Channel Bytes CInt

/-! ### The calls -/

/-- What a broker process has from its start: the texts that it sends and the names of its
buffer factories.  They are short. -/
structure Process where
  platform : List UInt8
  bufferNames : List (List UInt8)
  classname : List UInt8
  accesspoint : List UInt8
  strerror : ℤ → List UInt8
  short_platform : platform.length < 2 ^ 20
  short_bufferNames : ([32].intercalate bufferNames).length < 2 ^ 20
  short_classname : classname.length < 2 ^ 20
  short_accesspoint : accesspoint.length < 2 ^ 20
  short_strerror : ∀ n, (strerror n).length < 2 ^ 20

/-- The names of the encodings, with a blank between two. -/
def Process.enclist (p : Process) : List UInt8 := [32].intercalate p.bufferNames

lemma Process.short_enclist (p : Process) : p.enclist.length < 2 ^ 20 := by
  rw [enclist]
  exact p.short_bufferNames

/-- What the calls read of the broker: the reference count of the object, once there is one,
its `CanKill()`, and whether something is executing or queued. -/
structure View where
  obj : Option ℤ
  canKill : Bool
  active : Bool
deriving DecidableEq, Repr

/-- How `PopCall` ends. -/
inductive Called where
  /-- It returns `false`. -/
  | declined
  /-- It returns `true`; this is the connection afterwards. -/
  | served (c : Conn UInt8)
  /-- `exit(1)` -/
  | exited

/-- `semantics & INVOKE_SYNC` -/
def wantsReply (semantics : BitVec 32) : Bool := semantics &&& INVOKE_SYNC.toBitVec != 0

/-- `pop_message_header(classid, methodid, semantics, metname)` -/
def requestHeader (classid methodid semantics : BitVec 32) : Header :=
  ⟨TYPE_REQUEST, classid, methodid, semantics, 0⟩

/-- `pop_message_header(metname)`.  The other members are not set; `operator=` does not copy
them either. -/
def responseHeader : Header := ⟨TYPE_RESPONSE, 0, 0, 0, 0⟩

section

variable (F : Format) (p : Process) (v : View) (c : Conn UInt8)

/-- Packing the answer into the buffer, and `Send`. -/
def packAndSend (pack : BufM Unit) : BufM Called := do
  pack
  let r ← send F c
  pure (.served r.2)

/-- `buf->Reset(); buf->SetHeader(h);`, packing, and `Send`. -/
def answer (h : Header) (pack : BufM Unit) : BufM Called := do
  F.reset
  let b ← this
  setHeader (b.header.assign h)
  packAndSend F c pack

/-- `case 0`: the answer has the header of a request. -/
def bindStatus (sync : Bool) : BufM Called :=
  if sync then
    answer F c (requestHeader 0 0 INVOKE_SYNC.toBitVec) do
      packInt1 F 0
      packStrings F [p.platform]
      packStrings F [p.enclist]
  else pure (.served c)

/-- `case 1` and `case 2`, with what is added to the count. -/
def countRef (change : ℤ) (sync : Bool) : BufM Called :=
  match v.obj with
  | none => pure .declined
  | some n =>
      if sync then answer F c responseHeader (packInt1 F (n + change))
      else pure (.served c)

def addRef : Bool → BufM Called := countRef F v c 1

def decRef : Bool → BufM Called := countRef F v c (-1)

/-- `case 3` -/
def encoding (sync : Bool) : BufM Called := do
  let enc ← unPackStrings F 1
  let ret := decide (enc.headD [] ∈ p.bufferNames)
  if sync then do
    let b ← this
    setHeader (b.header.assign responseHeader)
    F.reset
    packAndSend F c (F.pack .bool [ret])
  else pure (.served c)

/-- `case 4` -/
def kill : BufM Called :=
  if v.obj.isSome && v.canKill then pure .exited else pure (.served c)

/-- `case 5` -/
def objectAlive (sync : Bool) : BufM Called :=
  match v.obj with
  | none => pure .declined
  | some _ =>
      if sync then answer F c responseHeader (F.pack .bool [v.active])
      else pure (.served c)

/-- `PopCall(req)`. -/
def popCall (methodid semantics : BitVec 32) : BufM Called :=
  match methodid.toNat with
  | 0 => bindStatus F p c (wantsReply semantics)
  | 1 => addRef F v c (wantsReply semantics)
  | 2 => decRef F v c (wantsReply semantics)
  | 3 => encoding F p c (wantsReply semantics)
  | 4 => kill v c
  | 5 => objectAlive F v c (wantsReply semantics)
  | _ => pure .declined

end

/-! ### The two encodings -/

/-- `CheckUnPack` and `UnPack` in a buffer that has been received: what a payload must have. -/
structure Received (b : PopBuffer) : Prop where
  pos : b.unpackpos = 20
  header : 20 ≤ b.packeddata.length
  size : b.packeddata.length < 2 ^ 31

/-- What the built-in calls need of an encoding. -/
structure Serves (F : Format) : Prop where
  frames : F.Frames
  strings : F.CodesStrings
  bool : ∀ x : Bool, ∃ bs, bs.length = 4 ∧ Appends (F.pack .bool [x]) bs
  /-- An `int` at the beginning of the payload. -/
  unPackInt : ∀ b, Received b →
    unPackInt1 F b =
        .ok (F.getWord ((b.packeddata.drop 20).take 4)).toInt { b with unpackpos := 24 } ∧
        24 ≤ b.packeddata.length ∨
      (∃ e, unPackInt1 F b = .throws (.popException e) b) ∧ b.packeddata.length < 24
  /-- So many characters after it. -/
  unPackChar : ∀ b (n : ℤ), b.unpackpos = 24 → b.packeddata.length < 2 ^ 31 → 0 < n →
    n < 2 ^ 31 →
    (∃ b', F.unPack .char n b = .ok ((b.packeddata.drop 24).take n.toNat) b') ∧
        n + 24 ≤ b.packeddata.length ∨
      (∃ e, F.unPack .char n b = .throws (.popException e) b) ∧ b.packeddata.length < n + 24

/-- What a message begins with. -/
lemma unPackInt_of_scans {F : Format} (hF : F.Scans) {b : PopBuffer} (hb : Received b) :
    unPackInt1 F b =
        .ok (F.getWord ((b.packeddata.drop 20).take 4)).toInt { b with unpackpos := 24 } ∧
        24 ≤ b.packeddata.length ∨
      (∃ e, unPackInt1 F b = .throws (.popException e) b) ∧ b.packeddata.length < 24 := by
  have hat : At b 20 := ⟨by rw [hb.pos]; decide, by decide, hb.size⟩
  rcases hF.int b 20 hat with ⟨hin, hok⟩ | ⟨hout, hthrows⟩
  · exact .inl ⟨hok, hin⟩
  · exact .inr ⟨hthrows, hout⟩

lemma unPackChar_of_scans {F : Format} (hF : F.Scans) {b : PopBuffer} {n : ℤ}
    (hpos : b.unpackpos = 24) (hsize : b.packeddata.length < 2 ^ 31) (hn : 0 < n)
    (hn' : n < 2 ^ 31) :
    (∃ b', F.unPack .char n b = .ok ((b.packeddata.drop 24).take n.toNat) b') ∧
        n + 24 ≤ b.packeddata.length ∨
      (∃ e, F.unPack .char n b = .throws (.popException e) b) ∧ b.packeddata.length < n + 24 := by
  obtain ⟨m, rfl⟩ := Int.eq_ofNat_of_zero_le hn.le
  rcases hF.char b 24 m hpos (by decide) hsize (by omega) (by omega)
    with ⟨hin, hok⟩ | ⟨hout, hthrows⟩
  · exact .inl ⟨⟨_, hok⟩, by omega⟩
  · exact .inr ⟨hthrows, by omega⟩

lemma serves_raw : Serves raw where
  frames := frames_raw
  strings := codesStrings_raw
  bool x := by
    refine ⟨_, ?_, (codes_raw_array .bool [x]).1⟩
    rw [length_pad4, Kind.length_flatMap_bytes]
    simp [roundUp4, Kind.size]
  unPackInt _ hb := unPackInt_of_scans scans_raw hb
  unPackChar _ _ hpos hsize hn hn' := unPackChar_of_scans scans_raw hpos hsize hn hn'

lemma serves_xdr {lib : XdrLib} (hlib : lib.Documented) : Serves (xdr lib) where
  frames := frames_xdr lib
  strings := codesStrings_xdr hlib
  bool x := by
    refine ⟨_, ?_, packChar_appends [if x then 1 else 0]⟩
    rw [length_pad4, List.length_singleton]
    simp [roundUp4]
  unPackInt _ hb := unPackInt_of_scans (scans_xdr hlib) hb
  unPackChar _ _ hpos hsize hn hn' := unPackChar_of_scans (scans_xdr hlib) hpos hsize hn hn'

/-- Both encodings do. -/
lemma serves_of {F : Format} (hF : F = raw ∨ ∃ lib : XdrLib, lib.Documented ∧ F = xdr lib) :
    Serves F := by
  rcases hF with rfl | ⟨lib, hlib, rfl⟩
  · exact serves_raw
  · exact serves_xdr hlib

lemma store_ok {pos : ℤ} {bs : List UInt8} {b b' : PopBuffer} (h : store pos bs b = .ok () b') :
    b'.unpackpos = b.unpackpos ∧ b'.packeddata.length = b.packeddata.length := by
  rw [store] at h
  split at h
  · obtain rfl : b = b' := by simpa using h
    exact ⟨rfl, rfl⟩
  · split at h
    · next hin =>
        obtain rfl := (Result.ok.inj h).2
        refine ⟨rfl, ?_⟩
        simp only [List.length_append, List.length_take, List.length_drop]
        omega
    · simp at h

/-- Whatever `Recv` accepts has a header, and its size is an `int`. -/
lemma received_of_recv {F : Format} (hF : F.Frames) {c c' : Conn UInt8} {r b : PopBuffer}
    (h : recv F c r = .ok (true, c') b) : Received b := by
  obtain ⟨bs, hbs, hreset⟩ := hF.reset r
  rw [recv] at h
  split at h
  · simp at h
  · rw [BufM.bind_ok hreset] at h
    split at h
    · simp at h
    · next hn =>
        rw [BufM.bind_ok (rfl : this _ = .ok _ _),
          BufM.bind_ok (rfl : setHeader _ _ = .ok _ _)] at h
        split at h
        · simp at h
        · -- the vector has the size that the message names, and storing keeps it
          have hlt : (word F (c.recvLoop 20).data 0).toInt < 2 ^ 31 := BitVec.toInt_lt
          have hn' := sizeT_of_nonneg (x := (word F (c.recvLoop 20).data 0).toInt) (by omega)
            (by omega)
          obtain ⟨_, b₁, hresize, h⟩ := BufM.bind_eq_ok.mp h
          obtain ⟨_, b₂, hstore, h⟩ := BufM.bind_eq_ok.mp h
          obtain rfl := (Result.ok.inj h).2
          obtain ⟨hpos, hlen⟩ := store_ok hstore
          rw [resize, if_pos (by omega)] at hresize
          obtain rfl := (Result.ok.inj hresize).2
          simp only [List.length_append, List.length_take, List.length_replicate, hbs] at hlen
          exact ⟨hpos, by omega, by omega⟩

/-! ### Strings -/

section

variable {F : Format} {b : PopBuffer}

/-- The payload begins with a string: a length, and unless it is not positive so many
characters with a NUL among them. -/
def HasString (F : Format) (b : PopBuffer) : Prop :=
  4 ≤ (b.packeddata.drop 20).length ∧
    (0 < (F.getWord ((b.packeddata.drop 20).take 4)).toInt →
      4 + (F.getWord ((b.packeddata.drop 20).take 4)).toInt ≤ (b.packeddata.drop 20).length ∧
      0 ∈ ((b.packeddata.drop 24).take (F.getWord ((b.packeddata.drop 20).take 4)).toInt.toNat))

lemma unPackString_of_hasString (hF : Serves F) (hb : Received b) (h : HasString F b) :
    ∃ s b', unPackString F b = .ok s b' := by
  obtain ⟨hword, hchars⟩ := h
  rw [List.length_drop] at hword hchars
  rcases hF.unPackInt b hb with ⟨hint, -⟩ | ⟨-, hshort⟩
  · rw [unPackString, BufM.bind_ok hint]
    have hlt : (F.getWord ((b.packeddata.drop 20).take 4)).toInt < 2 ^ 31 := BitVec.toInt_lt
    split
    · next hpos =>
        obtain ⟨hin, hnul⟩ := hchars hpos
        rcases hF.unPackChar _ _ (rfl : ({ b with unpackpos := 24 } : PopBuffer).unpackpos = 24)
          hb.size hpos hlt with ⟨⟨b', hok⟩, -⟩ | ⟨-, hout⟩
        · rw [BufM.bind_ok hok, assignString, cString, if_pos hnul]
          exact ⟨_, b', rfl⟩
        · simp only at hout
          omega
    · exact ⟨[], _, rfl⟩
  · omega

/-- Otherwise an exception of `CheckUnPack`, or what is read runs past the array. -/
lemma unPackString_of_not_hasString (hF : Serves F) (hb : Received b) (h : ¬HasString F b) :
    (∃ e b', unPackString F b = .throws (.popException e) b') ∨
      unPackString F b = .undefined := by
  rcases hF.unPackInt b hb with ⟨hint, hword⟩ | ⟨⟨e, hthrows⟩, -⟩
  · rw [unPackString, BufM.bind_ok hint]
    have hlt : (F.getWord ((b.packeddata.drop 20).take 4)).toInt < 2 ^ 31 := BitVec.toInt_lt
    split
    · next hpos =>
        rcases hF.unPackChar _ _ (rfl : ({ b with unpackpos := 24 } : PopBuffer).unpackpos = 24)
          hb.size hpos hlt with ⟨⟨b', hok⟩, hin⟩ | ⟨⟨e, hthrows⟩, -⟩
        · right
          have hnul : 0 ∉ (b.packeddata.drop 24).take
              (F.getWord ((b.packeddata.drop 20).take 4)).toInt.toNat := by
            intro hnul
            refine h ⟨by rw [List.length_drop]; omega, fun _ => ⟨?_, hnul⟩⟩
            simp only at hin
            rw [List.length_drop]
            omega
          rw [BufM.bind_ok hok, assignString, cString, if_neg hnul]
        · exact .inl ⟨e, _, BufM.bind_throws hthrows⟩
    · next hnonpos =>
        refine absurd ⟨?_, fun hpos => absurd hpos hnonpos⟩ h
        rw [List.length_drop]
        omega
  · exact .inl ⟨e, b, BufM.bind_throws hthrows⟩

/-- How many bytes a string takes, of whatever length. -/
def stringSize (s : List UInt8) : ℕ := 4 + roundUp4 (wrap (s.length + 1)).toNat

/-- The length and the characters. -/
lemma packChars_appends (hS : F.CodesStrings) (s : List UInt8) :
    ∃ bs, bs.length = stringSize s ∧ Appends (packInt1 F (wrap (s.length + 1)) >>= fun _ =>
      F.pack .char ((s ++ [0]).take (wrap (s.length + 1)).toNat)) bs := by
  obtain ⟨bs, hbs, happ, -⟩ := hS.int1 (fits_wrap (s.length + 1))
  obtain ⟨happ', -⟩ := hS.char ((s ++ [0]).take (wrap (s.length + 1)).toNat)
  have hle : wrap ((s.length : ℤ) + 1) ≤ s.length + 1 := wrap_le (by omega)
  refine ⟨_, ?_, happ.bind happ'⟩
  rw [List.length_append, hbs, length_pad4, List.length_take, stringSize,
    Nat.min_eq_left (by rw [List.length_append, List.length_singleton]; omega)]

lemma packString_appends (hS : F.CodesStrings) (s : List UInt8) :
    ∃ bs, bs.length = stringSize s ∧ Appends (packString F s) bs := by
  rw [packString]
  rcases lt_or_ge 0 (wrap ((s.length : ℤ) + 1)) with hpos | hnonpos
  · simp only [gt_iff_lt, if_pos hpos]
    exact packChars_appends hS s
  · obtain ⟨bs, hbs, happ, -⟩ := hS.int1 (fits_wrap (s.length + 1))
    refine ⟨bs ++ [], ?_, ?_⟩
    · rw [List.length_append, hbs, stringSize, show (wrap ((s.length : ℤ) + 1)).toNat = 0 by omega]
      rfl
    · simp only [gt_iff_lt, if_neg (not_lt.mpr hnonpos)]
      exact happ.bind Appends.pure

/-! ### What the calls do -/

/-- One message of a type is sent on the connection, and the call is served. -/
def Replies (F : Format) (c : Conn UInt8) (type : BitVec 32) (r : Result Called) : Prop :=
  ∃ m b', r = .ok (.served (c.send (frame F m))) b' ∧ Sendable m ∧ m.header.type = type

/-- The request is left to the queue: its method is not built in, or needs the object. -/
def declines (v : View) (methodid : BitVec 32) : Bool :=
  match methodid.toNat with
  | 0 => false
  | 1 => v.obj.isNone
  | 2 => v.obj.isNone
  | 3 => false
  | 4 => false
  | 5 => v.obj.isNone
  | _ => true

/-- The type of the header that the answer is sent under. -/
def answerType (methodid : BitVec 32) : BitVec 32 :=
  if methodid = 0 then TYPE_REQUEST else TYPE_RESPONSE

lemma assign_type (h dat : Header) : (h.assign dat).type = dat.type := by
  rw [Header.assign]
  split_ifs <;> rfl

variable {p : Process} {v : View} {c : Conn UInt8} {methodid semantics : BitVec 32}

/-- Packing into a buffer that has been reset, and sending it. -/
lemma packAndSend_replies (hF : F.Frames) {pack : BufM Unit} {bs : List UInt8}
    (hpack : Appends pack bs) (hsize : 20 + bs.length < 2 ^ 31) {b : PopBuffer}
    (hb : b.packeddata.length = 20)
    (htype : b.header.type = TYPE_REQUEST ∨ b.header.type = TYPE_RESPONSE) :
    Replies F c b.header.type (packAndSend F c pack b) := by
  have hlen : (b.packeddata ++ bs).length = 20 + bs.length := by rw [List.length_append, hb]
  have hsendable : Sendable { b with packeddata := b.packeddata ++ bs } := by
    refine ⟨?_, ?_, ?_⟩
    · rcases htype with h | h
      · exact .inl h
      · exact .inr (.inl h)
    · simp only [hlen]
      omega
    · simp only [hlen]
      omega
  have hsent : packAndSend F c pack b = .ok (.served (c.send
      (frame F { b with packeddata := b.packeddata ++ bs })))
      { b with packeddata := frame F { b with packeddata := b.packeddata ++ bs } } := by
    rw [packAndSend, BufM.bind_ok (hpack b (by omega)), BufM.bind_ok (send_eq hF hsendable c)]
    rfl
  exact ⟨_, _, hsent, hsendable, rfl⟩

lemma answer_replies (hF : F.Frames) {pack : BufM Unit} {bs : List UInt8} (hpack : Appends pack bs)
    (hsize : 20 + bs.length < 2 ^ 31) {h : Header}
    (htype : h.type = TYPE_REQUEST ∨ h.type = TYPE_RESPONSE) :
    Replies F c h.type (answer F c h pack b) := by
  obtain ⟨bs₀, hbs₀, hreset⟩ := hF.reset b
  rw [answer, BufM.bind_ok hreset, BufM.bind_ok (rfl : this _ = .ok _ _),
    BufM.bind_ok (rfl : setHeader _ _ = .ok _ _), ← assign_type b.header h]
  rw [← assign_type b.header h] at htype
  exact packAndSend_replies hF hpack hsize
    (b := ⟨b.header.assign h, 20, bs₀⟩) hbs₀ htype

/-- The status and the two texts. -/
lemma bindStatus_replies (hF : Serves F) :
    Replies F c TYPE_REQUEST (bindStatus F p c true b) := by
  obtain ⟨bs, hbs, happ, -⟩ := hF.strings.int1 (x := 0) (by simp [Fits])
  obtain ⟨bs₁, hbs₁, happ₁⟩ := packString_appends hF.strings p.platform
  obtain ⟨bs₂, hbs₂, happ₂⟩ := packString_appends hF.strings p.enclist
  have hpack := happ.bind ((happ₁.bind Appends.pure).bind (happ₂.bind Appends.pure))
  have hround : ∀ n : ℕ, n < 2 ^ 20 → roundUp4 (wrap ((n : ℤ) + 1)).toNat < 2 ^ 21 := by
    intro n hn
    have hle : wrap ((n : ℤ) + 1) ≤ n + 1 := wrap_le (by omega)
    simp only [roundUp4]
    omega
  have h₁ := hround _ p.short_platform
  have h₂ := hround _ p.short_enclist
  rw [bindStatus, if_pos rfl]
  refine answer_replies hF.frames hpack ?_ (.inl rfl)
  simp only [List.length_append, List.length_nil, hbs, hbs₁, hbs₂, stringSize]
  omega

lemma countRef_replies (hF : Serves F) {n : ℤ} (hv : v.obj = some n) (change : ℤ) :
    Replies F c TYPE_RESPONSE (countRef F v c change true b) := by
  obtain ⟨bs, hbs, happ, -⟩ := hF.strings.int (BitVec.ofInt 32 (n + change))
  rw [countRef, hv]
  exact answer_replies hF.frames happ (by omega) (.inr rfl)

lemma objectAlive_replies (hF : Serves F) {n : ℤ} (hv : v.obj = some n) :
    Replies F c TYPE_RESPONSE (objectAlive F v c true b) := by
  obtain ⟨bs, hbs, happ⟩ := hF.bool v.active
  rw [objectAlive, hv]
  exact answer_replies hF.frames happ (by omega) (.inr rfl)

variable (F p c semantics) in
lemma popCall_of_declines (b : PopBuffer) (h : declines v methodid) :
    popCall F p v c methodid semantics b = .ok .declined b := by
  have hobj : v.obj.isNone → v.obj = none := Option.isNone_iff_eq_none.mp
  rw [declines] at h
  rw [popCall]
  split at h <;> simp_all [addRef, decRef, countRef, objectAlive]

/-- The built-in methods, with the object where they need it. -/
lemma eq_of_not_declines (h : declines v methodid = false) :
    methodid = 0 ∨ ((methodid = 1 ∨ methodid = 2 ∨ methodid = 5) ∧ ∃ n, v.obj = some n) ∨
      methodid = 3 ∨ methodid = 4 := by
  have hid : ∀ n : ℕ, methodid.toNat = n → methodid = BitVec.ofNat 32 n := by
    rintro n rfl
    rw [BitVec.ofNat_toNat, BitVec.setWidth_eq]
  have hobj : v.obj.isNone = false → ∃ n, v.obj = some n := by
    cases v.obj with
    | none => exact fun h => absurd h (by decide)
    | some n => exact fun _ => ⟨n, rfl⟩
  rw [declines] at h
  split at h
  · next hn => exact .inl (hid 0 hn)
  · next hn => exact .inr (.inl ⟨.inl (hid 1 hn), hobj h⟩)
  · next hn => exact .inr (.inl ⟨.inr (.inl (hid 2 hn)), hobj h⟩)
  · next hn => exact .inr (.inr (.inl (hid 3 hn)))
  · next hn => exact .inr (.inr (.inr (hid 4 hn)))
  · next hn => exact .inr (.inl ⟨.inr (.inr (hid 5 hn)), hobj h⟩)
  · exact absurd h (by decide)

variable (p c semantics)

/-- The calls that are served whatever the payload is. -/
lemma popCall_of_serves (b : PopBuffer) (hF : Serves F) (h : declines v methodid = false)
    (hencoding : methodid ≠ 3) (hkill : methodid ≠ 4) :
    (wantsReply semantics = true →
      Replies F c (answerType methodid) (popCall F p v c methodid semantics b)) ∧
    (wantsReply semantics = false →
      popCall F p v c methodid semantics b = .ok (.served c) b) := by
  rcases eq_of_not_declines h with rfl | ⟨rfl | rfl | rfl, n, hn⟩ | rfl | rfl
  · refine ⟨fun hsync => ?_, fun hsync => ?_⟩
    · rw [popCall, hsync]
      exact bindStatus_replies hF
    · rw [popCall, hsync]
      rfl
  · refine ⟨fun hsync => ?_, fun hsync => ?_⟩
    · rw [popCall, hsync]
      exact countRef_replies hF hn 1
    · rw [popCall, hsync]
      simp [addRef, countRef, hn]
  · refine ⟨fun hsync => ?_, fun hsync => ?_⟩
    · rw [popCall, hsync]
      exact countRef_replies hF hn (-1)
    · rw [popCall, hsync]
      simp [decRef, countRef, hn]
  · refine ⟨fun hsync => ?_, fun hsync => ?_⟩
    · rw [popCall, hsync]
      exact objectAlive_replies hF hn
    · rw [popCall, hsync]
      simp [objectAlive, hn]
  · exact absurd rfl hencoding
  · exact absurd rfl hkill

variable (F v) in
lemma popCall_kill (b : PopBuffer) :
    popCall F p v c 4 semantics b =
      .ok (if v.obj.isSome && v.canKill then .exited else .served c) b := by
  show kill v c b = _
  rw [kill]
  split <;> rfl

variable (v) in
lemma popCall_encoding (hF : Serves F) (hb : Received b) (h : HasString F b) :
    (wantsReply semantics = true →
      Replies F c TYPE_RESPONSE (popCall F p v c 3 semantics b)) ∧
    (wantsReply semantics = false →
      ∃ b', popCall F p v c 3 semantics b = .ok (.served c) b') := by
  obtain ⟨s, b₁, hread⟩ := unPackString_of_hasString hF hb h
  have hone : unPackStrings F 1 b = .ok [s] b₁ := by
    rw [unPackStrings, BufM.bind_ok hread]
    rfl
  show (_ → Replies F c TYPE_RESPONSE (encoding F p c _ b)) ∧
    (_ → ∃ b', encoding F p c _ b = .ok (.served c) b')
  rw [encoding, BufM.bind_ok hone]
  refine ⟨fun hsync => ?_, fun hsync => ?_⟩
  · obtain ⟨bs, hbs, happ⟩ := hF.bool (decide (s ∈ p.bufferNames))
    obtain ⟨bs₀, hbs₀, hreset⟩ := hF.frames.reset
      { b₁ with header := b₁.header.assign responseHeader }
    rw [if_pos hsync, BufM.bind_ok (rfl : this _ = .ok _ _),
      BufM.bind_ok (rfl : setHeader _ _ = .ok _ _), BufM.bind_ok hreset]
    exact packAndSend_replies hF.frames happ (by omega)
      (b := ⟨b₁.header.assign responseHeader, 20, bs₀⟩) hbs₀ (.inr (assign_type _ _))
  · rw [if_neg (by rw [hsync]; decide)]
    exact ⟨b₁, rfl⟩

variable (v) in
lemma popCall_encoding_fails (hF : Serves F) (hb : Received b) (h : ¬HasString F b) :
    (∃ e b', popCall F p v c 3 semantics b = .throws (.popException e) b') ∨
      popCall F p v c 3 semantics b = .undefined := by
  show (∃ e b', encoding F p c _ b = .throws (.popException e) b') ∨ encoding F p c _ b = .undefined
  rw [encoding]
  rcases unPackString_of_not_hasString hF hb h with ⟨e, b', hthrows⟩ | hundefined
  · exact .inl ⟨e, b', BufM.bind_throws (BufM.bind_throws hthrows)⟩
  · right
    rw [BufM.bind_apply, unPackStrings, BufM.bind_apply, hundefined]

end

end PopCpp.Broker
