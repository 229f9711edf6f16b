/-
# Messages on a connection

`Send` writes the header into the first 20 bytes of the buffer, as five words that begin with
the size of the message, and sends the buffer.  `Recv` reads 20 bytes, finds there how many
follow, and reads these.  Both buffer classes do the same, each with its own layout of words.

The connection is a stream of bytes that arrives in pieces.  Seen through `Send` and `Recv` it
is a queue of messages: the bytes under way are always the frames of some messages, `Send` adds
one at the end and `Recv` takes the first.
-/
import PopCpp.Lib.Channel
import PopCpp.Buffer.Codec

namespace PopCpp.Buffer

open Bytes CInt Channel

/-! ### `Send` and `Recv` -/

def TYPE_REQUEST : BitVec 32 := 0
def TYPE_RESPONSE : BitVec 32 := 1
def TYPE_EXCEPTION : BitVec 32 := 2

/-- The words `h[0]`, ..., `h[4]` that `Send` writes, unless it returns `false`. -/
def headerWords (n : ℤ) (header : Header) : Option (List (BitVec 32)) :=
  let size := BitVec.ofInt 32 n
  if header.type = TYPE_REQUEST then
    some [size, header.type, header.classId, header.methodId, header.semantics]
  else if header.type = TYPE_EXCEPTION then some [size, header.type, header.exception, 0, 0]
  else if header.type = TYPE_RESPONSE then
    some [size, header.type, header.classId, header.methodId, 0]
  else none

/-- The header that `Recv` makes of the words `h[1]`, ..., `h[4]`, and whether it knows the
type. -/
def readHeader (header : Header) (h1 h2 h3 h4 : BitVec 32) : Header × Bool :=
  let header := { header with type := h1 }
  if h1 = TYPE_REQUEST then
    ({ header with classId := h2, methodId := h3, semantics := h4 }, true)
  else if h1 = TYPE_EXCEPTION then ({ header with exception := h2 }, true)
  else if h1 = TYPE_RESPONSE then ({ header with classId := h2, methodId := h3 }, true)
  else (header, false)

/-- Assigning to `header`. -/
def setHeader (header : Header) : BufM Unit := fun b => .ok () { b with header := header }

section

variable (F : Format)

/-- `Send(s, conn)`. -/
def send (c : Conn UInt8) : BufM (Bool × Conn UInt8) := do
  let b ← this
  if b.packeddata = [] then pure (false, c)
  else
    let n := wrap b.packeddata.length
    match headerWords n b.header with
    | none => pure (false, c)
    | some h => do
        store 0 (h.flatMap F.putWord)
        let b ← this
        pure (true, c.send (b.packeddata.take n.toNat))

/-- The word `h[i]` of the header that was read. -/
def word (bs : List UInt8) (i : ℕ) : BitVec 32 := F.getWord ((bs.drop (4 * i)).take 4)

/-- `Recv(s, conn)`. -/
def recv (c : Conn UInt8) : BufM (Bool × Conn UInt8) :=
  let r := c.recvLoop 20
  if r.complete = false then pure (false, r.conn)
  else do
    let h := r.data
    F.reset
    let n := (word F h 0).toInt
    if n < 20 then pure (false, r.conn)
    else do
      let b ← this
      let read := readHeader b.header (word F h 1) (word F h 2) (word F h 3) (word F h 4)
      setHeader read.1
      if read.2 = false then pure (false, r.conn)
      else do
        resize (sizeT n)
        let body := r.conn.recvLoop (n - 20).toNat
        store 20 body.data
        pure (body.complete, body.conn)

/-- `Send` for each of these buffers in turn, when all return `true`. -/
def sendAll : List PopBuffer → Conn UInt8 → Option (Conn UInt8)
  | [], c => some c
  | b :: bs, c =>
      match send F c b with
      | .ok (true, c') _ => sendAll bs c'
      | _ => none

/-- `Recv` into each of these buffers in turn, when all return `true`; what they hold then. -/
def recvAll : List PopBuffer → Conn UInt8 → Option (List PopBuffer × Conn UInt8)
  | [], c => some ([], c)
  | b :: bs, c =>
      match recv F c b with
      | .ok (true, c') b' => (recvAll bs c').map fun r => (b' :: r.1, r.2)
      | _ => none

end

/-! ### Messages -/

/-- What a header says, by its type: the other members mean nothing. -/
def Header.fields (h : Header) : List (BitVec 32) :=
  if h.type = TYPE_REQUEST then [h.type, h.classId, h.methodId, h.semantics]
  else if h.type = TYPE_EXCEPTION then [h.type, h.exception]
  else if h.type = TYPE_RESPONSE then [h.type, h.classId, h.methodId]
  else [h.type]

/-- A message as its sender and its receiver see it. -/
structure Message where
  fields : List (BitVec 32)
  payload : List UInt8
deriving DecidableEq, Repr

def PopBuffer.message (b : PopBuffer) : Message := ⟨b.header.fields, b.packeddata.drop 20⟩

/-- A buffer with a header of one of the three types, and of fewer than `2 ^ 31` bytes. -/
structure Sendable (b : PopBuffer) : Prop where
  type : b.header.type = TYPE_REQUEST ∨ b.header.type = TYPE_RESPONSE ∨
    b.header.type = TYPE_EXCEPTION
  header : 20 ≤ b.packeddata.length
  size : b.packeddata.length < 2 ^ 31

/-- What the two classes have in common. -/
structure Format.Frames (F : Format) : Prop where
  length_putWord : ∀ v, (F.putWord v).length = 4
  getWord_putWord : ∀ v, F.getWord (F.putWord v) = v
  reset : ∀ b, ∃ bs, bs.length = 20 ∧
    F.reset b = .ok () { b with unpackpos := 20, packeddata := bs }

lemma frames_xdr (lib : XdrLib) : (xdr lib).Frames where
  length_putWord _ := length_be ..
  getWord_putWord v := ofNat_ofBe_be (w := 4) v
  reset _ := ⟨List.replicate 20 0, List.length_replicate, rfl⟩

lemma frames_raw : raw.Frames where
  length_putWord _ := length_le ..
  getWord_putWord v := ofNat_ofLe_le (w := 4) v
  reset b := by
    refine ⟨b.packeddata.take 20 ++ List.replicate (20 - b.packeddata.length) 0, ?_, ?_⟩
    · rw [List.length_append, List.length_take, List.length_replicate]
      omega
    · rw [raw]
      rfl

variable {F : Format}

/-- The bytes of a message on the connection. -/
def frame (F : Format) (b : PopBuffer) : List UInt8 :=
  ((headerWords b.packeddata.length b.header).getD []).flatMap F.putWord ++ b.packeddata.drop 20

lemma word_flatMap (hF : F.Frames) {ws : List (BitVec 32)} {i : ℕ} (h : i < ws.length) :
    word F (ws.flatMap F.putWord) i = ws[i] := by
  induction ws generalizing i with
  | nil => exact absurd h (by simp)
  | cons w ws ih =>
      have hlen := hF.length_putWord w
      cases i with
      | zero =>
          rw [word, List.flatMap_cons, Nat.mul_zero, List.drop_zero, List.take_left' hlen,
            hF.getWord_putWord]
          rfl
      | succ i =>
          have hdrop : (F.putWord w ++ ws.flatMap F.putWord).drop (4 * (i + 1)) =
              (ws.flatMap F.putWord).drop (4 * i) := by
            rw [show 4 * (i + 1) = (F.putWord w).length + 4 * i by omega,
              List.drop_length_add_append]
          rw [word, List.flatMap_cons, hdrop]
          exact ih (by simpa using h)

lemma length_flatMap_putWord (hF : F.Frames) (ws : List (BitVec 32)) :
    (ws.flatMap F.putWord).length = 4 * ws.length := by
  induction ws with
  | nil => rfl
  | cons w ws ih =>
      rw [List.flatMap_cons, List.length_append, ih, hF.length_putWord, List.length_cons]
      ring

/-- The header of a buffer after `Recv` of a message with the header `h`. -/
def Header.received (old h : Header) : Header :=
  let old := { old with type := h.type }
  if h.type = TYPE_REQUEST then
    { old with classId := h.classId, methodId := h.methodId, semantics := h.semantics }
  else if h.type = TYPE_EXCEPTION then { old with exception := h.exception }
  else { old with classId := h.classId, methodId := h.methodId }

lemma type_received (old h : Header) : (old.received h).type = h.type := by
  rw [Header.received]
  split_ifs <;> rfl

lemma fields_received {h : Header} (htype : h.type = TYPE_REQUEST ∨ h.type = TYPE_RESPONSE ∨
    h.type = TYPE_EXCEPTION) (old : Header) : (old.received h).fields = h.fields := by
  rcases htype with htype | htype | htype <;>
    simp [Header.received, Header.fields, htype, TYPE_RESPONSE, TYPE_REQUEST, TYPE_EXCEPTION]

/-- The words that `Send` writes are understood by `Recv`. -/
lemma headerWords_of_type {h : Header} (htype : h.type = TYPE_REQUEST ∨
    h.type = TYPE_RESPONSE ∨ h.type = TYPE_EXCEPTION) (n : ℤ) :
    ∃ w2 w3 w4, headerWords n h = some [BitVec.ofInt 32 n, h.type, w2, w3, w4] ∧
      ∀ old, readHeader old h.type w2 w3 w4 = (old.received h, true) := by
  rcases htype with htype | htype | htype
  · refine ⟨h.classId, h.methodId, h.semantics, ?_, fun old => ?_⟩
    · rw [headerWords, if_pos htype]
    · simp [readHeader, Header.received, htype]
  · refine ⟨h.classId, h.methodId, 0, ?_, fun old => ?_⟩
    · simp [headerWords, htype, TYPE_RESPONSE, TYPE_REQUEST, TYPE_EXCEPTION]
    · simp [readHeader, Header.received, htype, TYPE_RESPONSE, TYPE_REQUEST, TYPE_EXCEPTION]
  · refine ⟨h.exception, 0, 0, ?_, fun old => ?_⟩
    · simp [headerWords, htype, TYPE_REQUEST, TYPE_EXCEPTION]
    · simp [readHeader, Header.received, htype, TYPE_REQUEST, TYPE_EXCEPTION]

/-- The header as bytes, and as it is read from them. -/
lemma headerBytes_of_type (hF : F.Frames) {h : Header} (htype : h.type = TYPE_REQUEST ∨
    h.type = TYPE_RESPONSE ∨ h.type = TYPE_EXCEPTION) (n : ℤ) :
    ∃ ws hs, headerWords n h = some ws ∧ ws.flatMap F.putWord = hs ∧ hs.length = 20 ∧
      word F hs 0 = BitVec.ofInt 32 n ∧
      ∀ old, readHeader old (word F hs 1) (word F hs 2) (word F hs 3) (word F hs 4) =
        (old.received h, true) := by
  obtain ⟨w2, w3, w4, hwords, hread⟩ := headerWords_of_type htype n
  refine ⟨_, _, hwords, rfl, length_flatMap_putWord hF _, word_flatMap hF (by simp),
    fun old => ?_⟩
  rw [word_flatMap hF (by simp), word_flatMap hF (by simp), word_flatMap hF (by simp),
    word_flatMap hF (by simp)]
  exact hread old

/-! ### One message -/

lemma frame_eq {b : PopBuffer} {ws : List (BitVec 32)}
    (hwords : headerWords b.packeddata.length b.header = some ws) :
    frame F b = ws.flatMap F.putWord ++ b.packeddata.drop 20 := by
  rw [frame, hwords, Option.getD_some]

/-- Writing at the beginning of the vector. -/
lemma store_zero {bs : List UInt8} {b : PopBuffer} (h : bs.length ≤ b.packeddata.length) :
    store 0 bs b = .ok () { b with packeddata := bs ++ b.packeddata.drop bs.length } := by
  by_cases hbs : bs = []
  · simp [store, hbs]
  · have hin : (0 : ℤ) ≤ 0 ∧ (0 : ℤ) + bs.length ≤ b.packeddata.length := ⟨le_rfl, by omega⟩
    rw [store, if_neg hbs, if_pos hin, Int.toNat_zero, List.take_zero, List.nil_append,
      Nat.zero_add]

theorem send_eq (hF : F.Frames) {b : PopBuffer} (hb : Sendable b) (c : Conn UInt8) :
    send F c b = .ok (true, c.send (frame F b)) { b with packeddata := frame F b } := by
  obtain ⟨ws, hs, hwords, hhs, hlen, -⟩ := headerBytes_of_type hF hb.type b.packeddata.length
  have hheader := hb.header
  have hsize := hb.size
  have hframe : frame F b = hs ++ b.packeddata.drop 20 := by rw [frame_eq hwords, hhs]
  have hn : wrap (b.packeddata.length : ℤ) = b.packeddata.length := wrap_natCast (by omega)
  have hne : b.packeddata ≠ [] := by
    intro h
    simp [h] at hheader
  have hstore : store 0 hs b = .ok () { b with packeddata := frame F b } := by
    rw [store_zero (by omega), hframe, hlen]
  have hall : (frame F b).take b.packeddata.length = frame F b := by
    refine List.take_of_length_le ?_
    rw [hframe, List.length_append, hlen, List.length_drop]
    omega
  rw [send, BufM.bind_ok (rfl : this b = .ok b b), if_neg hne]
  simp only [hn, hwords, hhs]
  rw [BufM.bind_ok hstore, BufM.bind_ok (rfl : this _ = .ok _ _), BufM.pure_apply,
    Int.toNat_natCast, hall]

/-- `Recv` takes the first frame.  The bytes of the header words are those that `Reset` left. -/
theorem recv_frame (hF : F.Frames) {b : PopBuffer} (hb : Sendable b) {c : Conn UInt8}
    {rest : List UInt8} (hc : c.pending = frame F b ++ rest) (r : PopBuffer) :
    ∃ bs pieces, bs.length = 20 ∧ recv F c r =
      .ok (true, ⟨rest, pieces⟩) ⟨r.header.received b.header, 20, bs ++ b.packeddata.drop 20⟩ := by
  obtain ⟨ws, hs, hwords, hhs, hlen, h0, hread⟩ :=
    headerBytes_of_type hF hb.type b.packeddata.length
  have hheader := hb.header
  have hsize := hb.size
  have hn : (BitVec.ofInt 32 (b.packeddata.length : ℤ)).toInt = b.packeddata.length :=
    toInt_ofInt_of_fits (by simp only [Fits]; omega)
  -- the first loop reads the five words
  rw [frame_eq hwords, hhs, List.append_assoc] at hc
  obtain ⟨pieces, hfirst⟩ := Conn.recvLoop_eq hc
  rw [hlen] at hfirst
  -- the second loop reads the rest of the message
  obtain ⟨pieces', hbody⟩ := Conn.recvLoop_eq
    (rfl : (Conn.mk (b.packeddata.drop 20 ++ rest) pieces).pending = b.packeddata.drop 20 ++ rest)
  have hbodylen : (b.packeddata.drop 20).length = ((b.packeddata.length : ℤ) - 20).toNat := by
    rw [List.length_drop]
    omega
  obtain ⟨bs, hbs, hreset⟩ := hF.reset r
  have hresize : sizeT (b.packeddata.length : ℤ) = bs.length + (b.packeddata.drop 20).length := by
    rw [sizeT_natCast (by omega), List.length_drop]
    omega
  have hpayload : padTo (b.packeddata.drop 20).length (b.packeddata.drop 20) =
      b.packeddata.drop 20 := by
    rw [padTo, Nat.sub_self, List.replicate_zero, List.append_nil]
  refine ⟨bs, pieces', hbs, ?_⟩
  simp only [recv, hfirst, Bool.true_eq_false, if_false]
  rw [BufM.bind_ok hreset, h0, hn, if_neg (by omega), BufM.bind_ok (rfl : this _ = .ok _ _)]
  simp only [hread, Bool.true_eq_false, if_false]
  rw [BufM.bind_ok (rfl : setHeader _ _ = .ok _ _), hresize, ← hbodylen, hbody]
  rw [BufM.bind_ok (resize_add (b := ⟨_, _, bs⟩) (by simp only [List.length_drop]; omega)),
    show (20 : ℤ) = (bs.length : ℤ) by omega, BufM.bind_ok (store_length rfl le_rfl), hpayload]
  rfl

theorem recv_eq (hF : F.Frames) {b : PopBuffer} (hb : Sendable b) {c : Conn UInt8}
    {rest : List UInt8} (hc : c.pending = frame F b ++ rest) (r : PopBuffer) :
    ∃ r' pieces, recv F c r = .ok (true, ⟨rest, pieces⟩) r' ∧ r'.message = b.message ∧
      r'.unpackpos = 20 ∧ r'.packeddata.length = b.packeddata.length := by
  obtain ⟨bs, pieces, hbs, hrecv⟩ := recv_frame hF hb hc r
  have hheader := hb.header
  refine ⟨_, pieces, hrecv, ?_, rfl, ?_⟩
  · simp only [PopBuffer.message, fields_received hb.type, List.drop_left' hbs]
  · rw [List.length_append, hbs, List.length_drop]
    omega

/-! ### Queues of messages -/

/-- The connection as a queue of messages. -/
def Queued (F : Format) (c : Conn UInt8) (bs : List PopBuffer) : Prop :=
  c.pending = bs.flatMap (frame F)

lemma Queued.send (hF : F.Frames) {b : PopBuffer} (hb : Sendable b) {c : Conn UInt8}
    {bs : List PopBuffer} (h : Queued F c bs) :
    ∃ b' c', send F c b = .ok (true, c') b' ∧ Queued F c' (bs ++ [b]) := by
  refine ⟨_, _, send_eq hF hb c, ?_⟩
  rw [Queued] at h ⊢
  rw [Conn.send, h, List.flatMap_append, List.flatMap_singleton]

lemma Queued.recv (hF : F.Frames) {b : PopBuffer} (hb : Sendable b) {c : Conn UInt8}
    {bs : List PopBuffer} (h : Queued F c (b :: bs)) (r : PopBuffer) :
    ∃ r' c', recv F c r = .ok (true, c') r' ∧ r'.message = b.message ∧ r'.unpackpos = 20 ∧
      Queued F c' bs := by
  rw [Queued, List.flatMap_cons] at h
  obtain ⟨r', pieces, hrecv, hmessage, hpos, -⟩ := recv_eq hF hb h r
  exact ⟨r', _, hrecv, hmessage, hpos, rfl⟩

lemma Queued.sendAll (hF : F.Frames) {msgs : List PopBuffer} (hmsgs : ∀ b ∈ msgs, Sendable b)
    {c : Conn UInt8} {bs : List PopBuffer} (h : Queued F c bs) :
    ∃ c', sendAll F msgs c = some c' ∧ Queued F c' (bs ++ msgs) := by
  induction msgs generalizing c bs with
  | nil => exact ⟨c, rfl, by rwa [List.append_nil]⟩
  | cons b msgs ih =>
      obtain ⟨b', c', hsend, hqueued⟩ := h.send hF (hmsgs b List.mem_cons_self)
      obtain ⟨c'', hsendAll, hall⟩ := ih (fun b hb => hmsgs b (List.mem_cons_of_mem _ hb)) hqueued
      refine ⟨c'', ?_, by rwa [List.append_assoc] at hall⟩
      simp only [Buffer.sendAll, hsend, hsendAll]

lemma Queued.recvAll (hF : F.Frames) {msgs : List PopBuffer} (hmsgs : ∀ b ∈ msgs, Sendable b)
    {receivers : List PopBuffer} (hlen : receivers.length ≤ msgs.length) {c : Conn UInt8}
    (h : Queued F c msgs) :
    ∃ rs c', recvAll F receivers c = some (rs, c') ∧
      rs.map PopBuffer.message = (msgs.take receivers.length).map PopBuffer.message ∧
      (∀ r ∈ rs, r.unpackpos = 20) ∧ Queued F c' (msgs.drop receivers.length) := by
  induction receivers generalizing c msgs with
  | nil => exact ⟨[], c, rfl, rfl, by simp, h⟩
  | cons r receivers ih =>
      cases msgs with
      | nil => exact absurd hlen (by simp)
      | cons b msgs =>
          obtain ⟨r', c', hrecv, hmessage, hpos, hqueued⟩ :=
            h.recv hF (hmsgs b List.mem_cons_self) r
          obtain ⟨rs, c'', hrecvAll, hmessages, hall, hrest⟩ :=
            ih (fun b hb => hmsgs b (List.mem_cons_of_mem _ hb)) (by simpa using hlen) hqueued
          refine ⟨r' :: rs, c'', ?_, ?_, ?_, hrest⟩
          · simp only [Buffer.recvAll, hrecv, hrecvAll, Option.map_some]
          · rw [List.map_cons, hmessage, hmessages, List.length_cons, List.take_succ_cons,
              List.map_cons]
          · exact List.forall_mem_cons.mpr ⟨hpos, hall⟩

/-- **Framing.**  Messages that are sent back to back are received one by one, however the
stream is cut into pieces; after so many calls of `Recv`, the bytes that are left are the
frames of the messages that are left. -/
theorem messages_in_order (F : Format) (hF : F = raw ∨ ∃ lib, F = xdr lib)
    (msgs : List PopBuffer) (hmsgs : ∀ b ∈ msgs, Sendable b) (c : Conn UInt8)
    (hc : c.pending = []) :
    ∃ c', sendAll F msgs c = some c' ∧
      ∀ (pieces : ℕ → ℕ) (receivers : List PopBuffer), receivers.length ≤ msgs.length →
        ∃ rs c'', recvAll F receivers ⟨c'.pending, pieces⟩ = some (rs, c'') ∧
          rs.map PopBuffer.message = (msgs.take receivers.length).map PopBuffer.message ∧
          (∀ r ∈ rs, r.unpackpos = 20) ∧
          c''.pending = (msgs.drop receivers.length).flatMap (frame F) := by
  have hframes : F.Frames := by
    rcases hF with rfl | ⟨lib, rfl⟩
    · exact frames_raw
    · exact frames_xdr lib
  have hempty : Queued F c [] := hc
  obtain ⟨c', hsend, hqueued⟩ := hempty.sendAll hframes hmsgs
  refine ⟨c', hsend, fun pieces receivers hlen => ?_⟩
  have hcut : Queued F ⟨c'.pending, pieces⟩ msgs := hqueued
  exact hcut.recvAll hframes hmsgs hlen

/-- A request with four bytes of arguments, and an exception without any. -/
def sampleMessages : List PopBuffer :=
  [⟨⟨TYPE_REQUEST, 7, 12, 1, 0⟩, 20, List.replicate 20 0 ++ [1, 2, 3, 4]⟩,
    ⟨⟨TYPE_EXCEPTION, 0, 0, 0, 5⟩, 20, List.replicate 20 0⟩]

theorem messages_in_order_sampleMessages :
    ∃ c, sendAll raw sampleMessages ⟨[], fun _ => 1⟩ = some c ∧
      ∀ (pieces : ℕ → ℕ) (receivers : List PopBuffer), receivers.length ≤ 2 →
        ∃ rs c', recvAll raw receivers ⟨c.pending, pieces⟩ = some (rs, c') ∧
          rs.map PopBuffer.message =
            (sampleMessages.take receivers.length).map PopBuffer.message ∧
          (∀ r ∈ rs, r.unpackpos = 20) ∧
          c'.pending = (sampleMessages.drop receivers.length).flatMap (frame raw) := by
  refine messages_in_order raw (.inl rfl) sampleMessages ?_ ⟨[], fun _ => 1⟩ rfl
  intro b hb
  simp only [sampleMessages, List.mem_cons, List.not_mem_nil, or_false] at hb
  rcases hb with rfl | rfl
  · exact ⟨.inl rfl, by decide, by decide⟩
  · exact ⟨.inr (.inr rfl), by decide, by decide⟩

end PopCpp.Buffer
