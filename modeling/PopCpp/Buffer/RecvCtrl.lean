/-
# Waiting for the sign of life

A proxy that is to notice the death of its object asks it, while it waits for the answer of a
call, whether it is alive.  `RecvCtrl` receives messages until the acknowledgement comes.  If
the answer of the call comes first, `RecvCtrl` keeps a copy of it, receives one more message
into the same buffer, the acknowledgement, puts the answer back and returns `false`.

The header is put back by the assignment operator of `pop_message_header`.  It copies the ids of
a request and the code of an exception, but nothing except the type of a response, so that the
buffer is left with the ids of the message that came second.
-/
import PopCpp.Buffer.Framing
import PopCpp.Buffer.Exception

namespace PopCpp.Buffer

open Bytes CInt Channel

/-! ### `RecvCtrl` -/

/-- The connections of a combox. -/
abbrev Conns : Type := ℕ → Conn UInt8

section

variable (F : Format) (fault : PopException)

/-- `if (!Recv(s, t)) pop_throw(errno)`; `fault` is the exception that `errno` makes. -/
def recvOrThrow (t : ℕ) (s : Conns) : BufM Conns := do
  let r ← recv F (s t)
  if r.1 = false then throwing (.popException fault)
  else pure (Function.update s t r.2)

/-- The branch of `RecvCtrl` for an ordinary response. -/
def awaitAck (waits : List (Option ℕ)) (s : Conns) : BufM (Option Bool × Conns) := do
  let old ← this
  match waits with
  | [] => pure (none, s)
  | none :: _ => throwing (popThrow "Remote Object not alive (2)")
  | some t :: _ => do
      let s ← recvOrThrow F fault t s
      F.reset
      let b ← this
      setHeader (b.header.assign old.header)
      fun b => .ok () { b with unpackpos := old.unpackpos, packeddata := old.packeddata }
      pure (some false, s)

/-- `RecvCtrl(s, conn)`, the same in both classes, when `Wait` returns null or these
connections; without a value if the next `Wait` has not returned. -/
def recvCtrl : List (Option ℕ) → Conns → BufM (Option Bool × Conns)
  | [], s => pure (none, s)
  | none :: _, _ => throwing (popThrow "Remote Object not alive (1)")
  | some t :: waits, s => do
      let s ← recvOrThrow F fault t s
      let b ← this
      if b.header.type = TYPE_RESPONSE then
        if b.header.classId = 0 ∧ b.header.methodId = 6 then pure (some true, s)
        else awaitAck F fault waits s
      else recvCtrl waits s

end

/-! ### Messages and their connections -/

/-- The answer of a call, not of the question whether the object is alive. -/
def Ordinary (b : PopBuffer) : Prop :=
  b.header.type = TYPE_RESPONSE ∧ ¬(b.header.classId = 0 ∧ b.header.methodId = 6)

/-- The bytes of these messages are on their connections. -/
def UnderWay (F : Format) (s : Conns) (msgs : List (ℕ × PopBuffer)) : Prop :=
  ∀ t, ∃ rest,
    (s t).pending = ((msgs.filter fun m => m.1 = t).map Prod.snd).flatMap (frame F) ++ rest

/-- The buffer holds this message, and is to be unpacked from the start. -/
def HoldsMessage (b m : PopBuffer) : Prop :=
  b.message = m.message ∧ b.unpackpos = 20

/-- Whenever `RecvCtrl` returns `false` on these messages, the buffer holds the answer. -/
def Preserves (F : Format) (msgs : List (ℕ × PopBuffer)) (answer : PopBuffer) : Prop :=
  ∀ fault waits s b s' b', UnderWay F s msgs →
    recvCtrl F fault (msgs.map (fun m => some m.1) ++ waits) s b = .ok (some false, s') b' →
      HoldsMessage b' answer

/-- A message does not change what `operator=` does not restore of the answer before it. -/
def Spares (next answer : PopBuffer) : Prop :=
  next.header.type = TYPE_EXCEPTION ∨
    next.header.classId = answer.header.classId ∧ next.header.methodId = answer.header.methodId

variable {F : Format} (fault : PopException)

/-! ### One message -/

lemma UnderWay.recvOrThrow (hF : F.Frames) {m : ℕ × PopBuffer} {msgs : List (ℕ × PopBuffer)}
    {s : Conns} (h : UnderWay F s (m :: msgs)) (hm : Sendable m.2) (b : PopBuffer) :
    ∃ s' bs, bs.length = 20 ∧ UnderWay F s' msgs ∧ recvOrThrow F fault m.1 s b =
      .ok s' ⟨b.header.received m.2.header, 20, bs ++ m.2.packeddata.drop 20⟩ := by
  obtain ⟨rest, hrest⟩ := h m.1
  rw [List.filter_cons_of_pos (by simp), List.map_cons, List.flatMap_cons, List.append_assoc]
    at hrest
  obtain ⟨left, hleft⟩ : ∃ left, left =
      ((msgs.filter fun m' => m'.1 = m.1).map Prod.snd).flatMap (frame F) ++ rest := ⟨_, rfl⟩
  rw [← hleft] at hrest
  obtain ⟨bs, pieces, hbs, hrecv⟩ := recv_frame hF hm hrest b
  refine ⟨Function.update s m.1 ⟨left, pieces⟩, bs, hbs, fun t => ?_, ?_⟩
  · by_cases ht : t = m.1
    · subst ht
      exact ⟨rest, by rw [Function.update_self, hleft]⟩
    · obtain ⟨rest', hrest'⟩ := h t
      rw [List.filter_cons_of_neg (by simpa using Ne.symm ht)] at hrest'
      exact ⟨rest', by rw [Function.update_of_ne ht, hrest']⟩
  · rw [Buffer.recvOrThrow, BufM.bind_ok hrecv]
    rfl

/-- An assigned response keeps the ids that were there. -/
lemma assign_response {h dat : Header} (hdat : dat.type = TYPE_RESPONSE) :
    h.assign dat = { h with type := TYPE_RESPONSE } := by
  simp [Header.assign, hdat, TYPE_RESPONSE, TYPE_REQUEST, TYPE_EXCEPTION]

/-- What `RecvCtrl` leaves of an answer. -/
lemma awaitAck_eq (hF : F.Frames) {next : ℕ × PopBuffer} {rest : List (ℕ × PopBuffer)}
    {s : Conns} (h : UnderWay F s (next :: rest)) (hnext : Sendable next.2)
    (waits : List (Option ℕ)) {b : PopBuffer} (hb : b.header.type = TYPE_RESPONSE) :
    ∃ s', awaitAck F fault (some next.1 :: waits) s b = .ok (some false, s')
      { b with header := { b.header.received next.2.header with type := TYPE_RESPONSE } } := by
  obtain ⟨s', bs, hbs, -, hrecv⟩ := h.recvOrThrow fault hF hnext b
  obtain ⟨bs', -, hreset⟩ := hF.reset
    ⟨b.header.received next.2.header, 20, bs ++ next.2.packeddata.drop 20⟩
  refine ⟨s', ?_⟩
  rw [awaitAck, BufM.bind_ok (rfl : this b = .ok b b)]
  simp only
  rw [BufM.bind_ok hrecv, BufM.bind_ok hreset, BufM.bind_ok (rfl : this _ = .ok _ _),
    BufM.bind_ok (rfl : setHeader _ _ = .ok _ _), assign_response hb]
  rfl

/-! ### A sequence of messages -/

/-- What `RecvCtrl` leaves when an ordinary response is the first that arrives. -/
lemma recvCtrl_eq (hF : F.Frames) {pre rest : List (ℕ × PopBuffer)} {answer next : ℕ × PopBuffer}
    (hmsgs : ∀ m ∈ pre ++ answer :: next :: rest, Sendable m.2)
    (hpre : ∀ m ∈ pre, m.2.header.type ≠ TYPE_RESPONSE) (hanswer : Ordinary answer.2) {s : Conns}
    (h : UnderWay F s (pre ++ answer :: next :: rest)) (waits : List (Option ℕ)) (b : PopBuffer) :
    ∃ s' old bs, bs.length = 20 ∧ recvCtrl F fault
        ((pre ++ answer :: next :: rest).map (fun m => some m.1) ++ waits) s b =
      .ok (some false, s') ⟨{ (Header.received old answer.2.header).received next.2.header with
        type := TYPE_RESPONSE }, 20, bs ++ answer.2.packeddata.drop 20⟩ := by
  -- by induction on the messages before the answer, each of which overwrites the one before
  induction pre generalizing s b with
  | nil =>
      have hnext := hmsgs next (by simp)
      obtain ⟨s₁, bs, hbs, hunder, hrecv⟩ :=
        UnderWay.recvOrThrow fault hF h (hmsgs answer (by simp)) b
      have htype : (b.header.received answer.2.header).type = TYPE_RESPONSE :=
        (type_received _ _).trans hanswer.1
      have hids : (b.header.received answer.2.header).classId = answer.2.header.classId ∧
          (b.header.received answer.2.header).methodId = answer.2.header.methodId := by
        simp [Header.received, hanswer.1, TYPE_RESPONSE, TYPE_REQUEST, TYPE_EXCEPTION]
      obtain ⟨s₂, hawait⟩ := awaitAck_eq fault hF hunder hnext
        (rest.map (fun m => some m.1) ++ waits)
        (b := ⟨b.header.received answer.2.header, 20, bs ++ answer.2.packeddata.drop 20⟩) htype
      refine ⟨s₂, b.header, bs, hbs, ?_⟩
      simp only [List.nil_append, List.map_cons, List.cons_append, recvCtrl]
      rw [BufM.bind_ok hrecv, BufM.bind_ok (rfl : this _ = .ok _ _)]
      simp only [htype, if_true, hids, if_neg hanswer.2]
      exact hawait
  | cons m pre ih =>
      obtain ⟨s₁, bs, -, hunder, hrecv⟩ :=
        UnderWay.recvOrThrow fault hF h (hmsgs m (by simp)) b
      have htype : (b.header.received m.2.header).type ≠ TYPE_RESPONSE := by
        rw [type_received]
        exact hpre m List.mem_cons_self
      obtain ⟨s₂, old, bs', hbs', hrest⟩ := ih
        (fun m' hm' => hmsgs m' (List.mem_cons_of_mem m hm'))
        (fun m' hm' => hpre m' (List.mem_cons_of_mem m hm')) hunder
        ⟨b.header.received m.2.header, 20, bs ++ m.2.packeddata.drop 20⟩
      refine ⟨s₂, old, bs', hbs', ?_⟩
      simp only [List.cons_append, List.map_cons, recvCtrl]
      rw [BufM.bind_ok hrecv, BufM.bind_ok (rfl : this _ = .ok _ _)]
      simp only [htype, if_false]
      exact hrest

/-- The ids of a buffer that held `answer` when `next` came. -/
lemma holdsMessage_iff {answer next : PopBuffer} (hanswer : Ordinary answer)
    (hnext : next.header.type = TYPE_REQUEST ∨ next.header.type = TYPE_RESPONSE ∨
      next.header.type = TYPE_EXCEPTION) (old : Header) {bs : List UInt8} (hbs : bs.length = 20) :
    HoldsMessage ⟨{ (old.received answer.header).received next.header with
        type := TYPE_RESPONSE }, 20, bs ++ answer.packeddata.drop 20⟩ answer ↔
      Spares next answer := by
  simp only [HoldsMessage, PopBuffer.message, List.drop_left' hbs, Message.mk.injEq, and_true]
  rcases hnext with htype | htype | htype <;>
    simp [Spares, Header.received, Header.fields, hanswer.1, htype, TYPE_REQUEST, TYPE_RESPONSE,
      TYPE_EXCEPTION]

/-- The bytes of any messages can be under way. -/
lemma underWay_frames (F : Format) (msgs : List (ℕ × PopBuffer)) :
    UnderWay F (fun t => ⟨((msgs.filter fun m => m.1 = t).map Prod.snd).flatMap (frame F),
      fun _ => 0⟩) msgs :=
  fun _ => ⟨[], by rw [List.append_nil]⟩

lemma preserves_iff (hF : F.Frames) {pre rest : List (ℕ × PopBuffer)}
    {answer next : ℕ × PopBuffer} (hmsgs : ∀ m ∈ pre ++ answer :: next :: rest, Sendable m.2)
    (hpre : ∀ m ∈ pre, m.2.header.type ≠ TYPE_RESPONSE) (hanswer : Ordinary answer.2) :
    Preserves F (pre ++ answer :: next :: rest) answer.2 ↔ Spares next.2 answer.2 := by
  have hnext := (hmsgs next (by simp)).type
  constructor
  · intro h
    have hunder := underWay_frames F (pre ++ answer :: next :: rest)
    obtain ⟨s', old, bs, hbs, hrun⟩ := recvCtrl_eq ⟨0, []⟩ hF hmsgs hpre hanswer hunder
      [] answer.2
    exact (holdsMessage_iff hanswer hnext old hbs).mp (h _ _ _ _ _ _ hunder hrun)
  · intro h fault waits s b s' b' hunder hrun
    obtain ⟨s'', old, bs, hbs, hrun'⟩ := recvCtrl_eq fault hF hmsgs hpre hanswer hunder
      waits b
    rw [hrun'] at hrun
    cases hrun
    exact (holdsMessage_iff hanswer hnext old hbs).mpr h

/-- **The sign of life.**  If the answer of the call comes before the acknowledgement, `RecvCtrl`
returns `false`; it leaves the answer in the buffer exactly if the message that is received
after it is an exception or has the same ids. -/
theorem recvCtrl_preserves_iff (F : Format) (hF : F = raw ∨ ∃ lib, F = xdr lib)
    (pre rest : List (ℕ × PopBuffer)) (answer next : ℕ × PopBuffer)
    (hmsgs : ∀ m ∈ pre ++ answer :: next :: rest, Sendable m.2)
    (hpre : ∀ m ∈ pre, m.2.header.type ≠ TYPE_RESPONSE) (hanswer : Ordinary answer.2) :
    (∀ fault waits s b, UnderWay F s (pre ++ answer :: next :: rest) → ∃ s' b', recvCtrl F fault
        ((pre ++ answer :: next :: rest).map (fun m => some m.1) ++ waits) s b =
          .ok (some false, s') b') ∧
      (Preserves F (pre ++ answer :: next :: rest) answer.2 ↔ Spares next.2 answer.2) := by
  have hframes : F.Frames := by
    rcases hF with rfl | ⟨lib, rfl⟩
    · exact frames_raw
    · exact frames_xdr lib
  refine ⟨fun fault waits s b hunder => ?_, preserves_iff hframes hmsgs hpre hanswer⟩
  obtain ⟨s', old, bs, -, hrun⟩ := recvCtrl_eq fault hframes hmsgs hpre hanswer hunder
    waits b
  exact ⟨s', _, hrun⟩

/-- The answer of method 12 of class 7, with four bytes of results. -/
def sampleAnswer : PopBuffer :=
  ⟨⟨TYPE_RESPONSE, 7, 12, 0, 0⟩, 20, List.replicate 20 0 ++ [1, 2, 3, 4]⟩

/-- The acknowledgement. -/
def aliveAck : PopBuffer := ⟨⟨TYPE_RESPONSE, 0, 6, 0, 0⟩, 20, List.replicate 20 0⟩

lemma ordinary_sampleAnswer : Ordinary sampleAnswer := ⟨rfl, by decide⟩

lemma sendable_sampleAnswer : Sendable sampleAnswer := ⟨.inr (.inl rfl), by decide, by decide⟩

lemma sendable_aliveAck : Sendable aliveAck := ⟨.inr (.inl rfl), by decide, by decide⟩

/-- An answer that is sent twice. -/
theorem recvCtrl_preserves_iff_sampleAnswer :
    Preserves raw [(0, sampleAnswer), (0, sampleAnswer), (0, aliveAck)] sampleAnswer := by
  have hmsgs : ∀ m ∈ [] ++ (0, sampleAnswer) :: (0, sampleAnswer) :: [(0, aliveAck)],
      Sendable m.2 := by
    simp [sendable_sampleAnswer, sendable_aliveAck]
  exact (recvCtrl_preserves_iff raw (.inl rfl) [] [(0, aliveAck)] (0, sampleAnswer)
    (0, sampleAnswer) hmsgs (by simp) ordinary_sampleAnswer).2.mpr (.inr ⟨rfl, rfl⟩)

/-- The answer does not survive the acknowledgement. -/
theorem answer_not_preserved :
    ¬Preserves raw [(0, sampleAnswer), (0, aliveAck)] sampleAnswer ∧
      ∀ lib, ¬Preserves (xdr lib) [(0, sampleAnswer), (0, aliveAck)] sampleAnswer := by
  have hmsgs : ∀ m ∈ [] ++ (0, sampleAnswer) :: (0, aliveAck) :: [], Sendable m.2 := by
    simp [sendable_sampleAnswer, sendable_aliveAck]
  have hspares : ¬Spares aliveAck sampleAnswer := by
    rintro (h | ⟨h, -⟩)
    · exact absurd h (by decide)
    · exact absurd h (by decide)
  have hnot : ∀ F : Format, F.Frames →
      ¬Preserves F [(0, sampleAnswer), (0, aliveAck)] sampleAnswer := by
    intro F hF h
    exact hspares ((preserves_iff hF hmsgs (by simp) ordinary_sampleAnswer).mp h)
  exact ⟨hnot raw frames_raw, fun lib => hnot (xdr lib) (frames_xdr lib)⟩

end PopCpp.Buffer
