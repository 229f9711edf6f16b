/-
# Sending a buffer

`Send` of the two buffer classes writes the header into the buffer and hands all of it to the
combox; it returns `true` unless the combox returns a negative number.  A `pop_combox_socket`
writes in a loop, but when a write fails it returns how much it has written so far, which is
never negative.  A `popc_combox_uds` writes once and returns what the system took.  So a `true`
stands for a complete message only when the system takes all of it: before the first failure
on a socket, at the first write on a Unix-domain socket.

The size of the message is an `int` here as well, and a buffer of `2 ^ 31` bytes or more is
cut or not written at all.
-/
import PopCpp.Lib.Writing
import PopCpp.Buffer.Framing

namespace PopCpp.Combox

open CInt Channel Buffer

/-! ### The two transports -/

/-- A combox with the connection that `Send` is given: the descriptor of the connection, or
`none` for a null pointer.  A `pop_combox_socket` then writes to its own descriptor. -/
inductive PopCombox where
  | socket (connection : Option ℤ)
  | uds (connection : Option ℤ)
deriving DecidableEq, Repr

/-- What `Send` of a combox returns, and the bytes that went to the descriptor. -/
structure Sent where
  ret : ℤ
  written : List UInt8
deriving DecidableEq, Repr

/-- The loop of `pop_combox_socket::Send`, with its `count`. -/
def sendLoop (s : List UInt8) (ws : List Write) : Option Sent :=
  (writeLoop s ws).map fun written => ⟨written.length, written⟩

/-- The one write of `popc_combox_uds::Send`. -/
def sendOnce (s : List UInt8) : List Write → Option Sent
  | [] => none
  | .wrote k :: _ => some ⟨Write.piece s.length k, s.take (Write.piece s.length k)⟩
  | .interrupted :: _ => some ⟨-1, []⟩
  | .failed :: _ => some ⟨-1, []⟩

/-- `Send(s, len, conn)`; `s` holds the `len` bytes, none when `len` is not positive. -/
def PopCombox.send (x : PopCombox) (s : List UInt8) (ws : List Write) : Option Sent :=
  match x with
  | .socket none => sendLoop s ws
  | .socket (some fd) => if fd < 0 then some ⟨-1, []⟩ else sendLoop s ws
  | .uds none => some ⟨-1, []⟩
  | .uds (some _) => if s.length > 0 then sendOnce s ws else some ⟨0, []⟩

@[simp] lemma send_socket_null (s : List UInt8) (ws : List Write) :
    (PopCombox.socket none).send s ws = sendLoop s ws := rfl

@[simp] lemma send_socket (fd : ℤ) (s : List UInt8) (ws : List Write) :
    (PopCombox.socket (some fd)).send s ws =
      if fd < 0 then some ⟨-1, []⟩ else sendLoop s ws := rfl

@[simp] lemma send_uds_null (s : List UInt8) (ws : List Write) :
    (PopCombox.uds none).send s ws = some ⟨-1, []⟩ := rfl

@[simp] lemma send_uds (fd : ℤ) (s : List UInt8) (ws : List Write) :
    (PopCombox.uds (some fd)).send s ws =
      if s.length > 0 then sendOnce s ws else some ⟨0, []⟩ := rfl

/-- `Send(s, conn)` of a buffer: what it returns, unless it is still writing, and the bytes
that went to the descriptor. -/
def send (F : Format) (x : PopCombox) (ws : List Write) :
    BufM (Option (Bool × List UInt8)) := do
  let b ← this
  if b.packeddata = [] then pure (some (false, []))
  else
    let n := wrap b.packeddata.length
    match headerWords n b.header with
    | none => pure (some (false, []))
    | some h => do
        store 0 (h.flatMap F.putWord)
        let b ← this
        pure ((x.send (b.packeddata.take n.toNat) ws).map fun sent =>
          (decide (sent.ret ≥ 0), sent.written))

/-! ### What a call does -/

lemma ofInt_wrap (n : ℤ) : BitVec.ofInt 32 (wrap n) = BitVec.ofInt 32 n := by
  refine BitVec.eq_of_toInt_eq ?_
  rw [BitVec.toInt_ofInt, BitVec.toInt_ofInt, wrap, Int.bmod_def, Int.bmod_def]
  omega

lemma headerWords_wrap (n : ℤ) (h : Header) : headerWords (wrap n) h = headerWords n h := by
  rw [headerWords, headerWords, ofInt_wrap]

lemma length_headerWords {n : ℤ} {h : Header} {ws : List (BitVec 32)}
    (hwords : headerWords n h = some ws) : ws.length = 5 := by
  unfold headerWords at hwords
  dsimp only at hwords
  split_ifs at hwords <;>
  · obtain rfl := Option.some.inj hwords
    rfl

section

variable {F : Format} {x : PopCombox} {ws : List Write} {b : PopBuffer}

/-- A header of one of the three types. -/
def Known (h : Header) : Prop :=
  h.type = TYPE_REQUEST ∨ h.type = TYPE_RESPONSE ∨ h.type = TYPE_EXCEPTION

instance Known.instDecidable (h : Header) : Decidable (Known h) := by
  unfold Known
  infer_instance

lemma exists_headerWords_iff (n : ℤ) (h : Header) :
    (∃ ws, headerWords n h = some ws) ↔ Known h := by
  unfold headerWords Known
  dsimp only
  split_ifs with hreq hexc hresp
  · exact iff_of_true ⟨_, rfl⟩ (.inl hreq)
  · exact iff_of_true ⟨_, rfl⟩ (.inr (.inr hexc))
  · exact iff_of_true ⟨_, rfl⟩ (.inr (.inl hresp))
  · refine iff_of_false (by rintro ⟨_, ⟨⟩⟩) ?_
    rintro (h | h | h) <;> contradiction

/-- A message that has its header is handed to the combox whole, or as much of it as an `int`
can say. -/
theorem send_eq_map (hF : F.Frames) (hknown : Known b.header) (hheader : 20 ≤ b.packeddata.length) :
    send F x ws b =
      .ok ((x.send ((frame F b).take (wrap b.packeddata.length).toNat) ws).map fun sent =>
        (decide (sent.ret ≥ 0), sent.written)) { b with packeddata := frame F b } := by
  obtain ⟨hs, hwords⟩ := (exists_headerWords_iff b.packeddata.length b.header).mpr hknown
  have hframe := frame_eq (F := F) hwords
  have hlen : (hs.flatMap F.putWord).length = 20 := by
    rw [length_flatMap_putWord hF, length_headerWords hwords]
  have hstore : store 0 (hs.flatMap F.putWord) b = .ok () { b with packeddata := frame F b } := by
    have hne : hs.flatMap F.putWord ≠ [] := by
      intro h
      simp [h] at hlen
    rw [store, if_neg hne, if_pos ⟨le_rfl, by omega⟩, hframe, hlen]
    rfl
  have hne : b.packeddata ≠ [] := by
    intro h
    simp [h] at hheader
  rw [send, BufM.bind_ok (rfl : this b = .ok b b), if_neg hne]
  simp only [headerWords_wrap, hwords]
  rw [BufM.bind_ok hstore, BufM.bind_ok (rfl : this _ = .ok _ _), BufM.pure_apply]

lemma length_frame (hF : F.Frames) (hknown : Known b.header) (hheader : 20 ≤ b.packeddata.length) :
    (frame F b).length = b.packeddata.length := by
  obtain ⟨hs, hwords⟩ := (exists_headerWords_iff b.packeddata.length b.header).mpr hknown
  rw [frame_eq hwords, List.length_append, length_flatMap_putWord hF, length_headerWords hwords,
    List.length_drop]
  omega

/-- Every other call returns `false`, or writes the header outside the buffer. -/
lemma not_true_of_not_known {written : List UInt8} {b' : PopBuffer} (hF : F.Frames)
    (h : ¬(Known b.header ∧ 20 ≤ b.packeddata.length)) :
    send F x ws b ≠ .ok (some (true, written)) b' := by
  intro hsend
  rw [send, BufM.bind_ok (rfl : this b = .ok b b)] at hsend
  by_cases hempty : b.packeddata = []
  · simp [hempty] at hsend
  · rw [if_neg hempty] at hsend
    cases hwords : headerWords (wrap b.packeddata.length) b.header with
    | none => simp [hwords] at hsend
    | some hs =>
        have hknown : Known b.header := (exists_headerWords_iff _ _).mp ⟨hs, hwords⟩
        have hlen : (hs.flatMap F.putWord).length = 20 := by
          rw [length_flatMap_putWord hF, length_headerWords hwords]
        have hshort : ¬20 ≤ b.packeddata.length := fun hge => h ⟨hknown, hge⟩
        have hne : hs.flatMap F.putWord ≠ [] := by
          intro h
          simp [h] at hlen
        have hstore : store 0 (hs.flatMap F.putWord) b = .undefined := by
          rw [store, if_neg hne, if_neg (by omega)]
        simp only [hwords] at hsend
        rw [BufM.bind_apply, hstore] at hsend
        cases hsend

/-! ### When a reported send is complete -/

/-- The system takes all of a message of `size` bytes before a write fails, and the size is
an `int`; or the loop goes on. -/
def LoopTakesAll (size : ℕ) (ws : List Write) : Prop :=
  size < 2 ^ 31 ∧ size ≤ accepted ws ∨
    (accepted ws : ℤ) < wrap size ∧ Write.failed ∉ ws

/-- When `Send` of a message of `size` bytes returns `true` for complete messages only: on a
socket the loop takes all of it, on a Unix-domain socket the first write does, or fails. -/
def TakesAll (x : PopCombox) (size : ℕ) (ws : List Write) : Prop :=
  match x with
  | .socket none => LoopTakesAll size ws
  | .socket (some fd) => 0 ≤ fd → LoopTakesAll size ws
  | .uds none => True
  | .uds (some _) =>
      0 < wrap size ∧ ∀ k ws', ws = .wrote k :: ws' → size < 2 ^ 31 ∧ size ≤ k

/-- What the combox reports as sent is `bs`. -/
def Reports (x : PopCombox) (s : List UInt8) (ws : List Write) (bs : List UInt8) : Prop :=
  ∀ sent, x.send s ws = some sent → 0 ≤ sent.ret → sent.written = bs

lemma toNat_wrap_eq_iff {size : ℕ} (h : 0 < size) :
    (wrap size).toNat = size ↔ size < 2 ^ 31 := by
  unfold wrap
  omega

lemma toNat_wrap_le (size : ℕ) : (wrap size).toNat ≤ size := by
  unfold wrap
  omega

lemma take_take_eq_self_iff {bs : List UInt8} {n k : ℕ} :
    (bs.take n).take k = bs ↔ bs.length ≤ n ∧ bs.length ≤ k := by
  rw [List.take_take, List.take_eq_self_iff]
  omega

lemma reports_sendLoop_iff (ws : List Write) {bs : List UInt8} (hbs : 0 < bs.length) :
    (∀ sent, sendLoop (bs.take (wrap bs.length).toNat) ws = some sent → 0 ≤ sent.ret →
      sent.written = bs) ↔ LoopTakesAll bs.length ws := by
  have hle := toNat_wrap_le bs.length
  have hsize := toNat_wrap_eq_iff hbs
  have hlen : (bs.take (wrap bs.length).toNat).length = (wrap bs.length).toNat := by
    rw [List.length_take]
    omega
  rw [sendLoop, writeLoop_eq, hlen, LoopTakesAll]
  by_cases hends : (wrap bs.length).toNat ≤ accepted ws ∨ Write.failed ∈ ws
  · -- the loop ends, and it has written what the system took
    have hwritten : (∀ sent, (some ((bs.take (wrap bs.length).toNat).take (accepted ws))).map
        (fun written => (⟨written.length, written⟩ : Sent)) = some sent → 0 ≤ sent.ret →
          sent.written = bs) ↔ bs.length ≤ (wrap bs.length).toNat ∧ bs.length ≤ accepted ws := by
      rw [← take_take_eq_self_iff]
      constructor
      · intro h
        exact h _ rfl (Int.natCast_nonneg _)
      · rintro h _ ⟨⟩ -
        exact h
    rw [if_pos hends, hwritten]
    constructor
    · rintro ⟨hn, haccepted⟩
      exact .inl ⟨hsize.mp (by omega), haccepted⟩
    · rintro (⟨hlt, haccepted⟩ | ⟨hlt, hfailed⟩)
      · exact ⟨(hsize.mpr hlt).ge, haccepted⟩
      · rcases hends with h | h
        · omega
        · exact absurd h hfailed
  · rw [if_neg hends]
    refine iff_of_true (by rintro _ ⟨⟩) (.inr ⟨?_, fun h => hends (.inr h)⟩)
    have : ¬(wrap bs.length).toNat ≤ accepted ws := fun h => hends (.inl h)
    omega

lemma reports_sendOnce_iff {bs : List UInt8} (hbs : 1 < bs.length)
    (hpos : 0 < (bs.take (wrap bs.length).toNat).length) :
    (∀ sent, sendOnce (bs.take (wrap bs.length).toNat) ws = some sent → 0 ≤ sent.ret →
      sent.written = bs) ↔
        ∀ k ws', ws = .wrote k :: ws' → bs.length < 2 ^ 31 ∧ bs.length ≤ k := by
  have hsize := toNat_wrap_eq_iff (show 0 < bs.length by omega)
  have hle := toNat_wrap_le bs.length
  generalize (wrap bs.length).toNat = n at *
  have hlen : (bs.take n).length = n := by
    rw [List.length_take]
    omega
  cases ws with
  | nil => exact iff_of_true (by rintro _ ⟨⟩) (by rintro _ _ ⟨⟩)
  | cons w ws =>
      cases w with
      | wrote k =>
          rw [sendOnce, hlen]
          constructor
          · rintro h k ws' ⟨⟩
            have hwritten := h ⟨_, _⟩ rfl (Int.natCast_nonneg _)
            obtain ⟨hn, hk⟩ := take_take_eq_self_iff.mp hwritten
            refine ⟨hsize.mp (by omega), ?_⟩
            rw [Write.piece] at hk
            omega
          · intro h sent hsent _
            obtain ⟨hlt, hk⟩ := h k ws rfl
            obtain rfl := Option.some.inj hsent
            refine take_take_eq_self_iff.mpr ⟨(hsize.mpr hlt).ge, ?_⟩
            rw [Write.piece, hsize.mpr hlt]
            omega
      | interrupted =>
          refine iff_of_true ?_ (by rintro _ _ ⟨⟩)
          rintro _ ⟨⟩ hret
          exact absurd hret (by decide)
      | failed =>
          refine iff_of_true ?_ (by rintro _ _ ⟨⟩)
          rintro _ ⟨⟩ hret
          exact absurd hret (by decide)

lemma reports_refused (bs : List UInt8) (sent : Sent) (h : some (⟨-1, []⟩ : Sent) = some sent)
    (hret : 0 ≤ sent.ret) : sent.written = bs := by
  obtain rfl := Option.some.inj h
  exact absurd hret (by decide)

lemma reports_iff (x : PopCombox) (ws : List Write) {bs : List UInt8} (hbs : 1 < bs.length) :
    Reports x (bs.take (wrap bs.length).toNat) ws bs ↔ TakesAll x bs.length ws := by
  have hloop := reports_sendLoop_iff ws (show 0 < bs.length by omega)
  cases x with
  | socket connection =>
      cases connection with
      | none => exact hloop
      | some fd =>
          by_cases hfd : fd < 0
          · refine iff_of_true ?_ fun h => absurd h (by omega)
            rw [Reports, send_socket, if_pos hfd]
            exact reports_refused bs
          · rw [Reports, send_socket, if_neg hfd, hloop]
            exact ⟨fun h _ => h, fun h => h (by omega)⟩
  | uds connection =>
      cases connection with
      | none => exact iff_of_true (reports_refused bs) trivial
      | some fd =>
          rw [Reports, send_uds]
          by_cases hpos : (bs.take (wrap bs.length).toNat).length > 0
          · rw [if_pos hpos, reports_sendOnce_iff hbs hpos]
            rw [List.length_take] at hpos
            exact ⟨fun h => ⟨by omega, h⟩, And.right⟩
          · rw [if_neg hpos]
            refine iff_of_false (fun h => ?_) fun h => hpos ?_
            · have hnil : [] = bs := h _ rfl le_rfl
              simp [← hnil] at hbs
            · rw [List.length_take]
              have := h.1
              omega

lemma written_eq_frame (hF : F.Frames) (hknown : Known b.header)
    (hheader : 20 ≤ b.packeddata.length) (htakes : TakesAll x b.packeddata.length ws)
    {written : List UInt8} {b' : PopBuffer}
    (hsend : send F x ws b = .ok (some (true, written)) b') :
    written = frame F b ∧ b' = { b with packeddata := frame F b } := by
  have hlen := length_frame hF hknown hheader
  have hiff := reports_iff x ws (show 1 < (frame F b).length by omega)
  rw [hlen] at hiff
  rw [send_eq_map hF hknown hheader] at hsend
  simp only [Result.ok.injEq, Option.map_eq_some_iff, Prod.mk.injEq, decide_eq_true_eq] at hsend
  obtain ⟨⟨sent, hsent, hret, rfl⟩, rfl⟩ := hsend
  exact ⟨hiff.mpr htakes sent hsent hret, rfl⟩

end

/-- **A reported send.**  For every message, every combox and however the writes go: `Send`
returns `true` only after all bytes of the message went to the descriptor, in order, exactly
when the system takes all of it at once or the loop reaches its end. -/
theorem reported_complete_iff (F : Format) (hF : F = raw ∨ ∃ lib, F = xdr lib) (x : PopCombox)
    (ws : List Write) (b : PopBuffer) :
    (∀ written b', send F x ws b = .ok (some (true, written)) b' → written = frame F b) ↔
      (Known b.header → 20 ≤ b.packeddata.length → TakesAll x b.packeddata.length ws) := by
  have hframes : F.Frames := by
    rcases hF with rfl | ⟨lib, rfl⟩
    · exact frames_raw
    · exact frames_xdr lib
  constructor
  · intro h hknown hheader
    have hlen := length_frame hframes hknown hheader
    have hiff := reports_iff x ws (show 1 < (frame F b).length by omega)
    rw [hlen] at hiff
    refine hiff.mp fun sent hsent hret => ?_
    refine h sent.written { b with packeddata := frame F b } ?_
    rw [send_eq_map hframes hknown hheader, hsent]
    simp [hret]
  · intro h written b' hsend
    by_cases hmessage : Known b.header ∧ 20 ≤ b.packeddata.length
    · obtain ⟨hknown, hheader⟩ := hmessage
      exact (written_eq_frame hframes hknown hheader (h hknown hheader) hsend).1
    · exact absurd hsend (not_true_of_not_known hframes hmessage)

/-- A request with four bytes of arguments. -/
def sampleRequest : PopBuffer :=
  ⟨⟨TYPE_REQUEST, 7, 12, 1, 0⟩, 20, List.replicate 20 0 ++ [1, 2, 3, 4]⟩

lemma sampleRequest_send (x : PopCombox) (ws : List Write) :
    send raw x ws sampleRequest =
      .ok ((x.send (frame raw sampleRequest) ws).map fun sent =>
        (decide (sent.ret ≥ 0), sent.written))
        { sampleRequest with packeddata := frame raw sampleRequest } :=
  send_eq_map frames_raw (.inl rfl) (by decide)

/-- Both transports report a message of which the system took 8 bytes of 24: one after an
error, the other after a short write. -/
theorem sampleRequest_not_complete :
    (∃ written b', send raw (.socket (some 3)) [.wrote 8, .failed] sampleRequest =
        .ok (some (true, written)) b' ∧ written ≠ frame raw sampleRequest) ∧
      ∃ written b', send raw (.uds (some 3)) [.wrote 8] sampleRequest =
        .ok (some (true, written)) b' ∧ written ≠ frame raw sampleRequest := by
  have hshort : (frame raw sampleRequest).take 8 ≠ frame raw sampleRequest := by decide
  exact ⟨⟨_, _, (sampleRequest_send _ _).trans rfl, hshort⟩,
    ⟨_, _, (sampleRequest_send _ _).trans rfl, hshort⟩⟩

theorem reported_complete_iff_sampleRequest :
    (∀ written b', send raw (.uds (some 3)) [.wrote 24] sampleRequest =
        .ok (some (true, written)) b' → written = frame raw sampleRequest) ∧
      ¬∀ written b', send raw (.uds (some 3)) [.wrote 8] sampleRequest =
        .ok (some (true, written)) b' → written = frame raw sampleRequest := by
  constructor
  · refine (reported_complete_iff raw (.inl rfl) _ _ _).mpr fun _ _ => ⟨by decide, ?_⟩
    rintro k ws' ⟨⟩
    decide
  · rw [reported_complete_iff raw (.inl rfl)]
    intro h
    exact absurd ((h (.inl rfl) (by decide)).2 8 [] rfl).2 (by decide)

/-- A complete send is `Send` on the stream that the receiver reads from. -/
theorem send_eq_conn {F : Format} (hF : F = raw ∨ ∃ lib, F = xdr lib) {x : PopCombox}
    {ws : List Write} {b b' : PopBuffer} (hb : Sendable b)
    (htakes : TakesAll x b.packeddata.length ws) {written : List UInt8}
    (hsend : send F x ws b = .ok (some (true, written)) b') (c : Conn UInt8) :
    Buffer.send F c b = .ok (true, c.send written) b' := by
  have hframes : F.Frames := by
    rcases hF with rfl | ⟨lib, rfl⟩
    · exact frames_raw
    · exact frames_xdr lib
  obtain ⟨rfl, rfl⟩ := written_eq_frame hframes hb.type hb.header htakes hsend
  exact send_eq hframes hb c

end PopCpp.Combox
