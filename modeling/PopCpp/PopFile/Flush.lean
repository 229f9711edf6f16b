/-
# Flushing a parallel file

`flush` of a `POPFStream` sends to the strips what the buffers hold.  A buffer that has been sent
has room for a whole block again, so that the bytes that are written after it are dealt to the
strips in another way if the block was begun before.  They are also cut in another way: a buffer
is sent as a C string, and a zero byte ends it.

So `flush` makes no difference if it is called when no block is begun, and otherwise it makes one
for some bytes (`strips_eq_iff_alike`).
-/
import PopCpp.PopFile.Write

namespace PopCpp.PopFile

namespace POPFStream

/-! ### Histories of writes and flushes -/

section Histories

variable {k : ℕ} [NeZero k] (c : ℕ) [NeZero c]

omit [NeZero k] in
/-- `flush`. -/
def flush (s : POPFStream k) : POPFStream k :=
  { s with
    popfileWritebuffers := fun i =>
      ⟨(s.popfileWritebuffers i).1.flush.2, (s.popfileWritebuffers i).2.flush⟩
    strips := fun i => s.strips i ++ (s.popfileWritebuffers i).1.flush.1 }

/-- A call of the user. -/
inductive WriteCall where
  | write (value : List UInt8)
  | flush

/-- What the call does. -/
def call (s : POPFStream k) : WriteCall → POPFStream k
  | .write value => popfileWriteToBuffer c s value
  | .flush => s.flush

/-- What is written. -/
def writes : List WriteCall → List (List UInt8)
  | [] => []
  | .write value :: calls => value :: writes calls
  | .flush :: calls => writes calls

/-- The history in which these values are written and `flush` is called `φ n` times before the
`n`-th of them, counted from 0. -/
def calls : (ℕ → ℕ) → List (List UInt8) → List WriteCall
  | φ, [] => List.replicate (φ 0) .flush
  | φ, value :: values =>
      List.replicate (φ 0) .flush ++ .write value :: calls (fun n => φ (n + 1)) values

/-- A file that is created, or one that exists and is opened. -/
def opened : Option (ParallelFile k) → POPFStream k
  | none => create c
  | some f => popfileTryOpenParallel c f

/-- The file after these calls and `close`. -/
def closed (start : Option (ParallelFile k)) (history : List WriteCall) : ParallelFile k :=
  (history.foldl (call c) (opened c start)).close

/-- The bytes in a buffer. -/
def held (s : POPFStream k) (i : Fin k) : List UInt8 := (s.popfileWritebuffers i).1.popfileBufferOut

/-- What a reader of the strip finds after `close`. -/
def shown (s : POPFStream k) (i : Fin k) : List UInt8 := s.strips i ++ cStr (s.held i)

/-- The block that is being written is begun. -/
def Filled (s : POPFStream k) : Prop := s.held s.popfileCurrentOutputBuffer ≠ []

/-- The stream after so many calls of `flush`. -/
def flushed (n : ℕ) (s : POPFStream k) : POPFStream k := if n = 0 then s else s.flush

/-- Whenever a value that is not empty is written, a block is begun in both histories or in
neither. -/
def Alike : (ℕ → ℕ) → (ℕ → ℕ) → POPFStream k → POPFStream k → List (List UInt8) → Prop
  | _, _, _, _, [] => True
  | φ, ψ, s, s', value :: values =>
      (value ≠ [] → ((flushed (φ 0) s).Filled ↔ (flushed (ψ 0) s').Filled)) ∧
        Alike (fun n => φ (n + 1)) (fun n => ψ (n + 1))
          (popfileWriteToBuffer c (flushed (φ 0) s) value)
          (popfileWriteToBuffer c (flushed (ψ 0) s') value) values

end Histories

/-- Every history is one of those. -/
lemma exists_calls : ∀ history : List WriteCall, ∃ φ, calls φ (writes history) = history
  | [] => ⟨fun _ => 0, rfl⟩
  | .write value :: history => by
    obtain ⟨φ, hφ⟩ := exists_calls history
    refine ⟨fun n => if n = 0 then 0 else φ (n - 1), ?_⟩
    simp [writes, calls, hφ]
  | .flush :: history => by
    obtain ⟨φ, hφ⟩ := exists_calls history
    refine ⟨fun n => if n = 0 then φ 0 + 1 else φ n, ?_⟩
    rw [writes]
    conv_rhs => rw [← hφ]
    cases writes history with
    | nil => simp [calls, List.replicate_succ]
    | cons value values => simp [calls, List.replicate_succ]

/-! ### What the buffers keep -/

lemma flush_of_idle {b : POPFileBuffer}
    (h : b.popfileBufferOut.length + b.remainingCapacity = b.capacity)
    (hidle : b.popfileBufferOut = []) : b.flush = ([], b) := by
  rw [hidle, List.length_nil, Nat.zero_add] at h
  exact if_neg h.not_lt

lemma flush_of_begun {b : POPFileBuffer}
    (h : b.popfileBufferOut.length + b.remainingCapacity = b.capacity)
    (hbegun : b.popfileBufferOut ≠ []) :
    b.flush = (cStr b.popfileBufferOut,
      { b with popfileBufferOut := [], remainingCapacity := b.capacity }) := by
  have hpos := List.length_pos_iff.mpr hbegun
  exact if_pos (by omega)

/-- What is sent, in both cases. -/
lemma flush_fst {b : POPFileBuffer}
    (h : b.popfileBufferOut.length + b.remainingCapacity = b.capacity) :
    b.flush.1 = cStr b.popfileBufferOut := by
  by_cases hidle : b.popfileBufferOut = []
  · rw [flush_of_idle h hidle, hidle]
    rfl
  · rw [flush_of_begun h hidle]

section Kept

variable {k : ℕ} {c : ℕ} {s s' : POPFStream k} {value : List UInt8}

/-- Only the current buffer may hold bytes, and none after an `open`; the others have room for a
whole block. -/
structure Kept (c : ℕ) (s : POPFStream k) : Prop where
  accounts : ∀ i, (s.held i).length + (s.popfileWritebuffers i).1.remainingCapacity =
    (s.popfileWritebuffers i).1.capacity
  idle : ∀ i ≠ s.popfileCurrentOutputBuffer, s.held i = []
  whole : ∀ i ≠ s.popfileCurrentOutputBuffer, (s.popfileWritebuffers i).1.remainingCapacity = c
  first : s.popfileFirstWritePointer ≠ 0 → ¬s.Filled

lemma Kept.held_eq_nil (h : Kept c s) (hfilled : ¬s.Filled) (i : Fin k) : s.held i = [] := by
  by_cases hi : i = s.popfileCurrentOutputBuffer
  · rw [hi]
    exact not_not.mp hfilled
  · exact h.idle i hi

/-- If no block is begun, then `flush` changes nothing. -/
lemma Kept.flush_eq_self (h : Kept c s) (hfilled : ¬s.Filled) : s.flush = s := by
  have hflush : ∀ i, (s.popfileWritebuffers i).1.flush = ([], (s.popfileWritebuffers i).1) :=
    fun i => flush_of_idle (h.accounts i) (h.held_eq_nil hfilled i)
  obtain ⟨buffers, current, total, first, strips⟩ := s
  simp only [flush, hflush, List.append_nil]

lemma Kept.held_flush (h : Kept c s) (i : Fin k) : s.flush.held i = [] := by
  show (s.popfileWritebuffers i).1.flush.2.popfileBufferOut = []
  by_cases hidle : s.held i = []
  · rw [flush_of_idle (h.accounts i) hidle]
    exact hidle
  · rw [flush_of_begun (h.accounts i) hidle]

lemma Kept.not_filled_flush (h : Kept c s) : ¬s.flush.Filled := not_not.mpr (h.held_flush _)

lemma Kept.flush (h : Kept c s) : Kept c s.flush := by
  refine ⟨fun i => ?_, fun i _ => h.held_flush i, fun i hi => ?_, fun _ => h.not_filled_flush⟩
  · show (s.popfileWritebuffers i).1.flush.2.popfileBufferOut.length +
      (s.popfileWritebuffers i).1.flush.2.remainingCapacity =
        (s.popfileWritebuffers i).1.flush.2.capacity
    by_cases hidle : s.held i = []
    · rw [flush_of_idle (h.accounts i) hidle]
      exact h.accounts i
    · rw [flush_of_begun (h.accounts i) hidle]
      exact Nat.zero_add _
  · show (s.popfileWritebuffers i).1.flush.2.remainingCapacity = c
    rw [flush_of_idle (h.accounts i) (h.idle i hi)]
    exact h.whole i hi

lemma Kept.flush_flush (h : Kept c s) : s.flush.flush = s.flush :=
  h.flush.flush_eq_self h.not_filled_flush

lemma Kept.flushed (h : Kept c s) (n : ℕ) : Kept c (flushed n s) := by
  unfold POPFStream.flushed
  split_ifs
  · exact h
  · exact h.flush

/-- At the end everything is sent. -/
lemma Kept.close_strips (h : Kept c s) (i : Fin k) : s.close.strips i = s.shown i :=
  congrArg (s.strips i ++ ·) (flush_fst (h.accounts i))

lemma Kept.shown_flush (h : Kept c s) (i : Fin k) : s.flush.shown i = s.shown i := by
  rw [shown, h.held_flush]
  show s.strips i ++ (s.popfileWritebuffers i).1.flush.1 ++ [] = _
  rw [List.append_nil, flush_fst (h.accounts i)]
  rfl

lemma Kept.shown_flushed (h : Kept c s) (n : ℕ) (i : Fin k) :
    (POPFStream.flushed n s).shown i = s.shown i := by
  unfold POPFStream.flushed
  split_ifs
  · rfl
  · exact h.shown_flush i

lemma Kept.filled_flushed (h : Kept c s) (n : ℕ) :
    (POPFStream.flushed n s).Filled ↔ n = 0 ∧ s.Filled := by
  unfold POPFStream.flushed
  split_ifs with hn
  · exact (and_iff_right hn).symm
  · exact iff_of_false h.not_filled_flush fun hf => hn hf.1

end Kept

/-! ### Writes -/

section Writes

variable {k : ℕ} {c : ℕ} {s s' : POPFStream k} {value : List UInt8}

/-- The room in the current buffer. -/
def room (s : POPFStream k) : ℕ :=
  (s.popfileWritebuffers s.popfileCurrentOutputBuffer).1.remainingCapacity

lemma bufferAdd_fst_of_lt (h : value.length < s.room) : (s.bufferAdd value).1 = [] :=
  congrArg Prod.fst (POPFileBuffer.bufferAdd_of_lt h)

lemma held_bufferAdd_of_lt (h : value.length < s.room) :
    (s.bufferAdd value).2.held s.popfileCurrentOutputBuffer =
      s.held s.popfileCurrentOutputBuffer ++ value := by
  have hadd := POPFileBuffer.bufferAdd_of_lt h
  simp [held, bufferAdd, hadd]

lemma bufferAdd_fst_of_le (h : s.room ≤ value.length) :
    (s.bufferAdd value).1 =
      if value.drop s.room = [] then fullWithoutRemaining else value.drop s.room :=
  congrArg Prod.fst (POPFileBuffer.bufferAdd_of_le (Subtype.prop _) h)

lemma held_bufferAdd_of_le (h : s.room ≤ value.length) :
    (s.bufferAdd value).2.held s.popfileCurrentOutputBuffer = [] := by
  have hadd := POPFileBuffer.bufferAdd_of_le (Subtype.prop _) h
  simp [held, bufferAdd, hadd]

lemma held_bufferAdd_of_ne {i : Fin k} (hi : i ≠ s.popfileCurrentOutputBuffer) :
    (s.bufferAdd value).2.held i = s.held i := by
  simp [held, bufferAdd, hi]

lemma Kept.bufferAdd (h : Kept c s) (hfirst : s.popfileFirstWritePointer = 0) :
    Kept c (s.bufferAdd value).2 := by
  refine ⟨fun i => ?_, fun i hi => ?_, fun i hi => ?_, fun hne => absurd hfirst hne⟩
  · by_cases hi : i = s.popfileCurrentOutputBuffer
    · subst hi
      have haccounts := h.accounts s.popfileCurrentOutputBuffer
      rcases Nat.lt_or_ge value.length s.room with hlt | hle
      · have hadd := POPFileBuffer.bufferAdd_of_lt hlt
        have hroom : value.length <
          (s.popfileWritebuffers s.popfileCurrentOutputBuffer).1.remainingCapacity := hlt
        rw [held_bufferAdd_of_lt hlt, List.length_append]
        simp only [POPFStream.bufferAdd, Function.update_self, hadd]
        omega
      · have hadd := POPFileBuffer.bufferAdd_of_le (Subtype.prop _) hle
        rw [held_bufferAdd_of_le hle]
        simp only [POPFStream.bufferAdd, Function.update_self, hadd]
        exact Nat.zero_add _
    · rw [held_bufferAdd_of_ne hi]
      simpa [POPFStream.bufferAdd, hi] using h.accounts i
  · exact (held_bufferAdd_of_ne (s := s) hi).trans (h.idle i hi)
  · have hi : i ≠ s.popfileCurrentOutputBuffer := hi
    simpa [POPFStream.bufferAdd, hi] using h.whole i hi

lemma held_setCapacity (n : ℕ) (hn : 0 < n) (i : Fin k) :
    (s.setCapacity n hn).held i = s.held i := by
  by_cases hi : i = s.popfileCurrentOutputBuffer
  · subst hi
    simp [held, setCapacity, POPFileBuffer.setCapacity]
  · simp [held, setCapacity, hi]

lemma Kept.setCapacity (h : Kept c s) (hfilled : ¬s.Filled) (n : ℕ) (hn : 0 < n) :
    Kept c (s.setCapacity n hn) := by
  refine ⟨fun i => ?_, fun i hi => (held_setCapacity n hn i).trans (h.idle i hi), fun i hi => ?_,
    fun _ => ?_⟩
  · by_cases hi : i = s.popfileCurrentOutputBuffer
    · subst hi
      rw [held_setCapacity, h.held_eq_nil hfilled]
      simp [POPFStream.setCapacity, POPFileBuffer.setCapacity]
    · rw [held_setCapacity]
      simpa [POPFStream.setCapacity, hi] using h.accounts i
  · have hi : i ≠ s.popfileCurrentOutputBuffer := hi
    simpa [POPFStream.setCapacity, hi] using h.whole i hi
  · exact not_not.mpr ((held_setCapacity n hn _).trans (h.held_eq_nil hfilled _))

variable [NeZero k] [NeZero c]

/-- The next block. -/
def nextBlock (c : ℕ) [NeZero c] (s : POPFStream k) : POPFStream k :=
  (s.setCapacity c (Nat.pos_of_neZero c)).getNextBuffer

lemma held_nextBlock (i : Fin k) : (nextBlock c s).held i = s.held i :=
  held_setCapacity c (Nat.pos_of_neZero c) i

lemma Kept.not_filled_nextBlock (h : Kept c s) (hfilled : ¬s.Filled) : ¬(nextBlock c s).Filled :=
  not_not.mpr ((held_nextBlock _).trans (h.held_eq_nil hfilled _))

lemma Kept.room_nextBlock (h : Kept c s) (i : Fin k) :
    ((nextBlock c s).popfileWritebuffers i).1.remainingCapacity = c := by
  by_cases hi : i = s.popfileCurrentOutputBuffer
  · subst hi
    simp [nextBlock, POPFStream.getNextBuffer, POPFStream.setCapacity, POPFileBuffer.setCapacity]
  · simpa [nextBlock, POPFStream.getNextBuffer, POPFStream.setCapacity, hi] using h.whole i hi

/-- The turn passes only when no block is begun. -/
lemma Kept.nextBlock (h : Kept c s) (hfilled : ¬s.Filled) : Kept c (nextBlock c s) :=
  ⟨(h.setCapacity hfilled c (Nat.pos_of_neZero c)).accounts,
    fun i _ => (held_nextBlock i).trans (h.held_eq_nil hfilled i),
    fun i _ => h.room_nextBlock i, fun _ => h.not_filled_nextBlock hfilled⟩

/-- A value is dealt to the buffers, the current one first. -/
def deal (c : ℕ) [NeZero c] (s : POPFStream k) (value : List UInt8) : POPFStream k :=
  writeLoop c (s.bufferAdd value).2 (s.bufferAdd value).1

lemma deal_of_lt (h : value.length < s.room) : deal c s value = (s.bufferAdd value).2 := by
  rw [deal, bufferAdd_fst_of_lt h, writeLoop_nil]

lemma deal_of_full (h : s.room ≤ value.length)
    (hrest : value.drop s.room = [] ∨ value.drop s.room = fullWithoutRemaining) :
    deal c s value = nextBlock c (s.bufferAdd value).2 := by
  have hfull : (s.bufferAdd value).1 = fullWithoutRemaining := by
    rw [bufferAdd_fst_of_le h]
    rcases hrest with hrest | hrest
    · exact if_pos hrest
    · rw [hrest, if_neg (by decide)]
  rw [deal, hfull, writeLoop_full, nextBlock]

lemma deal_of_le (h : s.room ≤ value.length) (hne : value.drop s.room ≠ [])
    (hfull : value.drop s.room ≠ fullWithoutRemaining) :
    deal c s value = deal c (nextBlock c (s.bufferAdd value).2) (value.drop s.room) := by
  have hrest : (s.bufferAdd value).1 = value.drop s.room := by
    rw [bufferAdd_fst_of_le h, if_neg hne]
  rw [deal, hrest, writeLoop_of_ne hne hfull]
  rfl

/-- The induction along the blocks of a value. -/
theorem deal_induction {motive : POPFStream k → List UInt8 → POPFStream k → Prop}
    (within : ∀ s value, value.length < s.room → motive s value (s.bufferAdd value).2)
    (full : ∀ s value, s.room ≤ value.length →
      value.drop s.room = [] ∨ value.drop s.room = fullWithoutRemaining →
        motive s value (nextBlock c (s.bufferAdd value).2))
    (step : ∀ s value r, s.room ≤ value.length → value.drop s.room ≠ [] →
      motive (nextBlock c (s.bufferAdd value).2) (value.drop s.room) r → motive s value r) :
    ∀ (s : POPFStream k) (value : List UInt8), motive s value (deal c s value) := by
  intro s value
  induction hn : value.length using Nat.strong_induction_on generalizing s value with
  | _ n ih =>
  rcases Nat.lt_or_ge value.length s.room with hlt | hle
  · rw [deal_of_lt hlt]
    exact within s value hlt
  by_cases hrest : value.drop s.room = [] ∨ value.drop s.room = fullWithoutRemaining
  · rw [deal_of_full hle hrest]
    exact full s value hle hrest
  · obtain ⟨hne, hfull⟩ := not_or.mp hrest
    have hroom : 0 < s.room := (s.popfileWritebuffers s.popfileCurrentOutputBuffer).2.1
    rw [deal_of_le hle hne hfull]
    refine step s value _ hle hne (ih _ ?_ _ _ rfl)
    rw [List.length_drop]
    omega

omit [NeZero k] in
lemma not_filled_bufferAdd (h : s.room ≤ value.length) : ¬(s.bufferAdd value).2.Filled :=
  not_not.mpr (held_bufferAdd_of_le h)

lemma Kept.deal (h : Kept c s) (hfirst : s.popfileFirstWritePointer = 0) :
    Kept c (deal c s value) := by
  revert h hfirst
  refine deal_induction
    (motive := fun s _ r => Kept c s → s.popfileFirstWritePointer = 0 → Kept c r)
    (fun s value _ h hfirst => ?_) (fun s value hle _ h hfirst => ?_)
    (fun s value r hle _ ih h hfirst => ?_) s value
  · exact h.bufferAdd hfirst
  · exact (h.bufferAdd hfirst).nextBlock (not_filled_bufferAdd hle)
  · exact ih ((h.bufferAdd hfirst).nextBlock (not_filled_bufferAdd hle)) hfirst

/-- The stream when a value is dealt to the buffers. -/
def begin (s : POPFStream k) (value : List UInt8) : POPFStream k :=
  { s.applyFirstWritePointer with
    popfileTotalBytes := s.applyFirstWritePointer.popfileTotalBytes + value.length }

lemma popfileWriteToBuffer_eq (s : POPFStream k) (value : List UInt8) :
    popfileWriteToBuffer c s value = deal c (s.begin value) value := rfl

omit [NeZero k] [NeZero c] in
lemma begin_first (s : POPFStream k) (value : List UInt8) :
    (s.begin value).popfileFirstWritePointer = 0 := by
  show s.applyFirstWritePointer.popfileFirstWritePointer = 0
  unfold applyFirstWritePointer
  split_ifs with h
  · rfl
  · exact not_not.mp h

omit [NeZero k] [NeZero c] in
lemma Kept.begin (h : Kept c s) : Kept c (s.begin value) := by
  have hkept : Kept c s.applyFirstWritePointer := by
    unfold applyFirstWritePointer
    split_ifs with hfirst
    · have hset := h.setCapacity (h.first hfirst) _ (Nat.pos_of_ne_zero hfirst)
      exact ⟨hset.accounts, hset.idle, hset.whole, fun hne => absurd rfl hne⟩
    · exact h
  exact ⟨hkept.accounts, hkept.idle, hkept.whole,
    fun hne => absurd (begin_first s value) hne⟩

lemma Kept.write (h : Kept c s) (value : List UInt8) : Kept c (popfileWriteToBuffer c s value) :=
  h.begin.deal (begin_first s value)

omit [NeZero k] [NeZero c] in
lemma begin_nil (hfirst : s.popfileFirstWritePointer = 0) : s.begin [] = s := by
  rw [begin, applyFirstWritePointer, dif_neg (not_not.mpr hfirst)]
  rfl

/-- An empty value changes nothing. -/
lemma write_nil (hfirst : s.popfileFirstWritePointer = 0) : popfileWriteToBuffer c s [] = s := by
  have hroom : ([] : List UInt8).length <
      (s.popfileWritebuffers s.popfileCurrentOutputBuffer).1.remainingCapacity :=
    (s.popfileWritebuffers s.popfileCurrentOutputBuffer).2.1
  rw [popfileWriteToBuffer_eq, begin_nil hfirst, deal_of_lt hroom]
  obtain ⟨buffers, current, total, first, strips⟩ := s
  simp only [bufferAdd, POPFileBuffer.bufferAdd_of_lt hroom, List.append_nil, List.length_nil,
    Nat.sub_zero, Function.update_eq_self]

end Writes

/-! ### Histories that differ in where `flush` is called -/

section Apart

variable {k : ℕ} {c : ℕ} {s s' : POPFStream k}

/-- The streams are the same, or one has been flushed since the last write. -/
def Apart (s s' : POPFStream k) : Prop := s = s' ∨ s' = s.flush ∨ s = s'.flush

lemma Apart.symm (h : Apart s s') : Apart s' s := by
  rcases h with h | h | h
  · exact .inl h.symm
  · exact .inr (.inr h)
  · exact .inr (.inl h)

lemma Apart.flush_left (h : Apart s s') (hs' : Kept c s') : Apart s.flush s' := by
  rcases h with rfl | rfl | rfl
  · exact .inr (.inr rfl)
  · exact .inl rfl
  · rw [hs'.flush_flush]
    exact .inr (.inr rfl)

lemma Apart.flushed (h : Apart s s') (hs : Kept c s) (hs' : Kept c s') (m n : ℕ) :
    Apart (flushed m s) (flushed n s') := by
  have hleft : Apart (POPFStream.flushed m s) s' := by
    unfold POPFStream.flushed
    split_ifs
    · exact h
    · exact h.flush_left hs'
  rw [POPFStream.flushed.eq_def n]
  split_ifs
  · exact hleft
  · exact (hleft.symm.flush_left (hs.flushed m)).symm

lemma Apart.eq_flush (h : Apart s s') (hs' : Kept c s') (hfilled : s.Filled)
    (hidle : ¬s'.Filled) : s' = s.flush := by
  rcases h with rfl | h | rfl
  · exact absurd hfilled hidle
  · exact h
  · exact absurd hfilled hs'.not_filled_flush

/-- If a block is begun in both or in neither, then the streams are the same. -/
lemma Apart.eq (h : Apart s s') (hs : Kept c s) (hs' : Kept c s')
    (hfilled : s.Filled ↔ s'.Filled) : s = s' := by
  rcases h with h | rfl | rfl
  · exact h
  · exact (hs.flush_eq_self fun hf => hs.not_filled_flush (hfilled.mp hf)).symm
  · exact hs'.flush_eq_self fun hf => hs'.not_filled_flush (hfilled.mpr hf)

lemma Apart.close_strips (h : Apart s s') (hs : Kept c s) (hs' : Kept c s') (i : Fin k) :
    s.close.strips i = s'.close.strips i := by
  rw [hs.close_strips, hs'.close_strips]
  rcases h with rfl | rfl | rfl
  · rfl
  · exact (hs.shown_flush i).symm
  · exact hs'.shown_flush i

variable [NeZero k] [NeZero c]

lemma Apart.write_nil (h : Apart s s') (hs : Kept c s) (hs' : Kept c s') :
    Apart (popfileWriteToBuffer c s []) (popfileWriteToBuffer c s' []) := by
  by_cases hfirst : s.popfileFirstWritePointer = 0
  · have hfirst' : s'.popfileFirstWritePointer = 0 := by
      rcases h with rfl | rfl | rfl <;> exact hfirst
    rwa [POPFStream.write_nil hfirst, POPFStream.write_nil hfirst']
  · -- no block is begun yet
    have hfirst' : s'.popfileFirstWritePointer ≠ 0 := by
      rcases h with rfl | rfl | rfl <;> exact hfirst
    rw [h.eq hs hs' (iff_of_false (hs.first hfirst) (hs'.first hfirst'))]
    exact .inl rfl

lemma foldl_replicate_flush (hs : Kept c s) (n : ℕ) :
    (List.replicate n WriteCall.flush).foldl (call c) s = flushed n s := by
  induction n generalizing s with
  | zero => rfl
  | succ n ih =>
      rw [List.replicate_succ, List.foldl_cons]
      show (List.replicate n WriteCall.flush).foldl (call c) s.flush = s.flush
      rw [ih hs.flush, POPFStream.flushed]
      split_ifs
      · rfl
      · exact hs.flush_flush

/-- The calls of a history from a given stream. -/
def runCalls (c : ℕ) [NeZero c] (φ : ℕ → ℕ) (s : POPFStream k) (values : List (List UInt8)) :
    POPFStream k :=
  (calls φ values).foldl (call c) s

lemma runCalls_nil (hs : Kept c s) (φ : ℕ → ℕ) : runCalls c φ s [] = flushed (φ 0) s :=
  foldl_replicate_flush hs (φ 0)

lemma runCalls_cons (hs : Kept c s) (φ : ℕ → ℕ) (value : List UInt8) (values : List (List UInt8)) :
    runCalls c φ s (value :: values) =
      runCalls c (fun n => φ (n + 1)) (popfileWriteToBuffer c (flushed (φ 0) s) value) values := by
  rw [runCalls, calls, List.foldl_append, foldl_replicate_flush hs]
  rfl

/-- `flush` makes no difference if a block is begun in both histories or in neither. -/
lemma Alike.close_strips (values : List (List UInt8)) : ∀ {φ ψ : ℕ → ℕ} {s s' : POPFStream k},
    Alike c φ ψ s s' values → Apart s s' → Kept c s → Kept c s' → ∀ i,
      (runCalls c φ s values).close.strips i = (runCalls c ψ s' values).close.strips i := by
  induction values with
  | nil =>
      intro φ ψ s s' _ hapart hs hs' i
      rw [runCalls_nil hs, runCalls_nil hs']
      exact (hapart.flushed hs hs' _ _).close_strips (hs.flushed _) (hs'.flushed _) i
  | cons value values ih =>
      intro φ ψ s s' h hapart hs hs' i
      obtain ⟨hfilled, hrest⟩ := h
      have ht := hs.flushed (φ 0)
      have ht' := hs'.flushed (ψ 0)
      rw [runCalls_cons hs, runCalls_cons hs']
      refine ih hrest ?_ (ht.write value) (ht'.write value) i
      by_cases hvalue : value = []
      · subst hvalue
        exact (hapart.flushed hs hs' _ _).write_nil ht ht'
      · rw [(hapart.flushed hs hs' _ _).eq ht ht' (hfilled hvalue)]
        exact .inl rfl

end Apart

/-! ### What is shown of a value -/

lemma cStr_append (a b : List UInt8) : cStr (a ++ b) = cStr a ++ if 0 ∈ a then [] else cStr b := by
  induction a with
  | nil => rfl
  | cons x a ih =>
      by_cases hx : x = 0
      · simp [cStr, hx]
      · have hne : 0 ≠ x := Ne.symm hx
        simp only [cStr, List.cons_append, List.takeWhile_cons, bne_iff_ne.mpr hx, if_true,
          List.mem_cons, hne, false_or] at ih ⊢
        rw [ih]

lemma cStr_subset (a : List UInt8) : cStr a ⊆ a := (List.takeWhile_prefix _).subset

section Shown

variable {k : ℕ} {c : ℕ} {s : POPFStream k} {value : List UInt8}

/-- A zero byte in the buffer hides what comes after it in the block. -/
lemma shown_bufferAdd_self (s : POPFStream k) (value : List UInt8) :
    (s.bufferAdd value).2.shown s.popfileCurrentOutputBuffer =
      s.shown s.popfileCurrentOutputBuffer ++
        if 0 ∈ s.held s.popfileCurrentOutputBuffer then [] else cStr (value.take s.room) := by
  rw [shown, shown, List.append_assoc, ← cStr_append]
  rcases Nat.lt_or_ge value.length s.room with hlt | hle
  · have hadd := POPFileBuffer.bufferAdd_of_lt hlt
    rw [held_bufferAdd_of_lt hlt, List.take_of_length_le hlt.le]
    simp [bufferAdd, hadd]
  · have hadd := POPFileBuffer.bufferAdd_of_le (Subtype.prop _) hle
    rw [held_bufferAdd_of_le hle]
    simp only [bufferAdd, Function.update_self, hadd, List.append_assoc]
    exact congrArg (s.strips _ ++ ·) (List.append_nil _)

lemma shown_bufferAdd_of_ne {i : Fin k} (hi : i ≠ s.popfileCurrentOutputBuffer) :
    (s.bufferAdd value).2.shown i = s.shown i := by
  rw [shown, shown, held_bufferAdd_of_ne hi]
  simp [bufferAdd, hi]

lemma exists_shown_bufferAdd (s : POPFStream k) (value : List UInt8) (i : Fin k) :
    ∃ y ⊆ value, (s.bufferAdd value).2.shown i = s.shown i ++ y := by
  by_cases hi : i = s.popfileCurrentOutputBuffer
  · subst hi
    refine ⟨_, ?_, shown_bufferAdd_self s value⟩
    split_ifs
    · exact List.nil_subset value
    · exact List.Subset.trans (cStr_subset _) (List.take_subset _ _)
  · exact ⟨[], List.nil_subset value, by rw [shown_bufferAdd_of_ne hi, List.append_nil]⟩

variable [NeZero k] [NeZero c]

lemma shown_nextBlock (i : Fin k) : (nextBlock c s).shown i = s.shown i :=
  congrArg (s.strips i ++ cStr ·) (held_nextBlock i)

omit [NeZero k] [NeZero c] in
lemma room_pos (s : POPFStream k) : 0 < s.room :=
  (s.popfileWritebuffers s.popfileCurrentOutputBuffer).2.1

/-- What comes after the current block adds to what is shown. -/
lemma exists_shown_deal (s : POPFStream k) (value : List UInt8) (i : Fin k) :
    ∃ y ⊆ value.drop s.room, (deal c s value).shown i = (s.bufferAdd value).2.shown i ++ y := by
  refine deal_induction (motive := fun s value r =>
    ∃ y ⊆ value.drop s.room, r.shown i = (s.bufferAdd value).2.shown i ++ y)
    (fun s value _ => ?_) (fun s value _ _ => ?_) (fun s value r _ _ ih => ?_) s value
  · exact ⟨[], List.nil_subset _, (List.append_nil _).symm⟩
  · exact ⟨[], List.nil_subset _, by rw [shown_nextBlock, List.append_nil]⟩
  · obtain ⟨y, hy, hr⟩ := ih
    obtain ⟨y', hy', hadd⟩ :=
      exists_shown_bufferAdd (nextBlock c (s.bufferAdd value).2) (value.drop s.room) i
    refine ⟨y' ++ y, List.append_subset.mpr ⟨hy', List.Subset.trans hy (List.drop_subset _ _)⟩, ?_⟩
    rw [hr, hadd, shown_nextBlock, List.append_assoc]

omit [NeZero k] [NeZero c] in
lemma held_begin (s : POPFStream k) (value : List UInt8) (i : Fin k) :
    (s.begin value).held i = s.held i := by
  show s.applyFirstWritePointer.held i = s.held i
  unfold applyFirstWritePointer
  split_ifs with hfirst
  · exact held_setCapacity _ (Nat.pos_of_ne_zero hfirst) i
  · rfl

omit [NeZero k] [NeZero c] in
lemma current_begin (s : POPFStream k) (value : List UInt8) :
    (s.begin value).popfileCurrentOutputBuffer = s.popfileCurrentOutputBuffer := by
  show s.applyFirstWritePointer.popfileCurrentOutputBuffer = _
  unfold applyFirstWritePointer
  split_ifs <;> rfl

omit [NeZero k] [NeZero c] in
lemma shown_begin (s : POPFStream k) (value : List UInt8) (i : Fin k) :
    (s.begin value).shown i = s.shown i := by
  rw [shown, shown, held_begin]
  congr 1
  show s.applyFirstWritePointer.strips i = s.strips i
  unfold applyFirstWritePointer
  split_ifs <;> rfl

lemma held_write_nil (s : POPFStream k) (i : Fin k) :
    (popfileWriteToBuffer c s []).held i = s.held i := by
  have hroom : ([] : List UInt8).length < (s.begin []).room := room_pos _
  rw [popfileWriteToBuffer_eq, deal_of_lt hroom, ← held_begin s [] i]
  by_cases hi : i = (s.begin []).popfileCurrentOutputBuffer
  · rw [hi, held_bufferAdd_of_lt hroom, List.append_nil]
  · exact held_bufferAdd_of_ne hi

lemma current_write_nil (s : POPFStream k) :
    (popfileWriteToBuffer c s []).popfileCurrentOutputBuffer = s.popfileCurrentOutputBuffer := by
  have hroom : ([] : List UInt8).length < (s.begin []).room := room_pos _
  rw [popfileWriteToBuffer_eq, deal_of_lt hroom]
  exact current_begin s []

lemma filled_write_nil (s : POPFStream k) : (popfileWriteToBuffer c s []).Filled ↔ s.Filled := by
  rw [Filled, held_write_nil, current_write_nil]
  rfl

lemma exists_shown_write (s : POPFStream k) (value : List UInt8) (i : Fin k) :
    ∃ y ⊆ value, (popfileWriteToBuffer c s value).shown i = s.shown i ++ y := by
  obtain ⟨y, hy, hdeal⟩ := exists_shown_deal (c := c) (s.begin value) value i
  obtain ⟨y', hy', hadd⟩ := exists_shown_bufferAdd (s.begin value) value i
  refine ⟨y' ++ y, List.append_subset.mpr ⟨hy', List.Subset.trans hy (List.drop_subset _ _)⟩, ?_⟩
  rw [popfileWriteToBuffer_eq, hdeal, hadd, shown_begin, List.append_assoc]

/-- After a zero byte the block shows nothing of what is written to it. -/
lemma exists_shown_write_of_nul (hnul : 0 ∈ s.held s.popfileCurrentOutputBuffer)
    (value : List UInt8) :
    ∃ y ⊆ value.drop 1, (popfileWriteToBuffer c s value).shown s.popfileCurrentOutputBuffer =
      s.shown s.popfileCurrentOutputBuffer ++ y := by
  obtain ⟨y, hy, hdeal⟩ :=
    exists_shown_deal (c := c) (s.begin value) value s.popfileCurrentOutputBuffer
  have hadd := shown_bufferAdd_self (s.begin value) value
  rw [current_begin, held_begin, if_pos hnul, List.append_nil, shown_begin] at hadd
  have hdrop : value.drop (s.begin value).room ⊆ value.drop 1 :=
    (List.drop_sublist_drop_left value (room_pos _)).subset
  exact ⟨y, List.Subset.trans hy hdrop, by rw [popfileWriteToBuffer_eq, hdeal, hadd]⟩

/-- A flushed block shows the next byte. -/
lemma prefix_shown_write (hheld : s.held s.popfileCurrentOutputBuffer = []) {x : UInt8}
    (hx : x ≠ 0) (value : List UInt8) :
    s.shown s.popfileCurrentOutputBuffer ++ [x] <+:
      (popfileWriteToBuffer c s (x :: value)).shown s.popfileCurrentOutputBuffer := by
  obtain ⟨y, -, hdeal⟩ :=
    exists_shown_deal (c := c) (s.begin (x :: value)) (x :: value) s.popfileCurrentOutputBuffer
  have hadd := shown_bufferAdd_self (s.begin (x :: value)) (x :: value)
  rw [current_begin, held_begin, hheld, if_neg List.not_mem_nil, shown_begin] at hadd
  obtain ⟨n, hn⟩ := Nat.exists_eq_succ_of_ne_zero (room_pos (s.begin (x :: value))).ne'
  have hcut : cStr ((x :: value).take (n + 1)) = x :: cStr (value.take n) := by
    simp [cStr, hx]
  rw [hn, hcut] at hadd
  rw [popfileWriteToBuffer_eq, hdeal, hadd]
  exact ⟨cStr (value.take n) ++ y, by simp⟩

lemma exists_close_runCalls (values : List (List UInt8)) : ∀ (φ : ℕ → ℕ) {s : POPFStream k},
    Kept c s → ∀ i, ∃ y ⊆ values.flatten,
      (runCalls c φ s values).close.strips i = s.shown i ++ y := by
  induction values with
  | nil =>
      intro φ s hs i
      refine ⟨[], List.nil_subset _, ?_⟩
      rw [runCalls_nil hs, (hs.flushed _).close_strips, hs.shown_flushed, List.append_nil]
  | cons value values ih =>
      intro φ s hs i
      obtain ⟨y, hy, hrest⟩ := ih (fun n => φ (n + 1)) ((hs.flushed (φ 0)).write value) i
      obtain ⟨y', hy', hwrite⟩ := exists_shown_write (c := c) (flushed (φ 0) s) value i
      refine ⟨y' ++ y, ?_, ?_⟩
      · rw [List.flatten_cons]
        exact List.append_subset.mpr ⟨List.subset_append_of_subset_left _ hy',
          List.subset_append_of_subset_right _ hy⟩
      · rw [runCalls_cons hs, hrest, hwrite, hs.shown_flushed, List.append_assoc]

end Shown

/-! ### Where `flush` makes a difference -/

section Separates

variable {k : ℕ} {c : ℕ} {s s' : POPFStream k} {value : List UInt8}

/-- After `n` bytes a block is begun; the current one has this room. -/
def Begins (c room n : ℕ) : Prop := n < room ∨ (n - room) % c ≠ 0

variable [NeZero k] [NeZero c]

lemma begins_of_filled (h : Kept c s) (hfirst : s.popfileFirstWritePointer = 0)
    (hfilled : (deal c s value).Filled) : Begins c s.room value.length := by
  revert h hfirst hfilled
  refine deal_induction (motive := fun s value r =>
    Kept c s → s.popfileFirstWritePointer = 0 → r.Filled → Begins c s.room value.length)
    (fun s value hlt _ _ _ => .inl hlt) (fun s value hle _ h hfirst hfilled => ?_)
    (fun s value r hle hne ih h hfirst hfilled => ?_) s value
  · exact absurd hfilled ((h.bufferAdd hfirst).not_filled_nextBlock (not_filled_bufferAdd hle))
  · have hnext := (h.bufferAdd hfirst).nextBlock (not_filled_bufferAdd hle)
    have hroom : (nextBlock c (s.bufferAdd value).2).room = c :=
      (h.bufferAdd hfirst).room_nextBlock _
    have hpos := List.length_pos_iff.mpr hne
    right
    rcases ih hnext hfirst hfilled with hlt | hmod
    · rw [hroom] at hlt
      rw [← List.length_drop, Nat.mod_eq_of_lt hlt]
      exact hpos.ne'
    · rw [hroom] at hmod
      rw [← List.length_drop]
      rcases Nat.lt_or_ge (value.drop s.room).length c with hlt | hge
      · rw [Nat.mod_eq_of_lt hlt]
        exact hpos.ne'
      · rwa [Nat.mod_eq_sub_mod hge]

/-- A zero byte at the end of the value is in the block that it begins. -/
lemma nul_mem_held_deal (h : Kept c s) (hfirst : s.popfileFirstWritePointer = 0)
    (hlast : value.getLast? = some 0) (hbegins : Begins c s.room value.length) :
    0 ∈ (deal c s value).held (deal c s value).popfileCurrentOutputBuffer := by
  revert h hfirst hlast hbegins
  refine deal_induction (motive := fun s value r =>
    Kept c s → s.popfileFirstWritePointer = 0 → value.getLast? = some 0 →
      Begins c s.room value.length → 0 ∈ r.held r.popfileCurrentOutputBuffer)
    (fun s value hlt _ _ hlast _ => ?_) (fun s value hle hrest _ _ hlast hbegins => ?_)
    (fun s value r hle hne ih h hfirst hlast hbegins => ?_) s value
  · show 0 ∈ (s.bufferAdd value).2.held s.popfileCurrentOutputBuffer
    rw [held_bufferAdd_of_lt hlt]
    exact List.mem_append_right _ (List.mem_of_getLast? hlast)
  · have hmod := hbegins.resolve_left hle.not_gt
    exfalso
    rcases hrest with hrest | hrest
    · rw [← List.length_drop, hrest] at hmod
      exact hmod (Nat.zero_mod c)
    · have hdrop := List.getLast?_drop (l := value) (i := s.room)
      rw [hrest, hlast] at hdrop
      split_ifs at hdrop <;> simp [fullWithoutRemaining] at hdrop
  · have hroom : (nextBlock c (s.bufferAdd value).2).room = c :=
      (h.bufferAdd hfirst).room_nextBlock _
    have hmod := hbegins.resolve_left hle.not_gt
    have hlt : s.room < value.length := by simpa using hne
    refine ih ((h.bufferAdd hfirst).nextBlock (not_filled_bufferAdd hle)) hfirst ?_ ?_
    · rw [List.getLast?_drop, if_neg hlt.not_ge, hlast]
    · rw [hroom]
      rw [← List.length_drop] at hmod
      rcases Nat.lt_or_ge (value.drop s.room).length c with hlt | hge
      · exact .inl hlt
      · rw [Nat.mod_eq_sub_mod hge] at hmod
        exact .inr hmod

/-- The value with a zero byte at its end. -/
def endNul (value : List UInt8) : List UInt8 := value.dropLast ++ [0]

omit [NeZero k] [NeZero c] in
lemma length_endNul (hvalue : value ≠ []) : (endNul value).length = value.length := by
  have hpos := List.length_pos_iff.mpr hvalue
  rw [endNul, List.length_append, List.length_dropLast, List.length_singleton]
  omega

/-- If the value begins a block, then so does the one with the zero byte, and hides what comes
next in the block. -/
lemma nul_mem_held_write (h : Kept c s) (hvalue : value ≠ [])
    (hfilled : (popfileWriteToBuffer c s value).Filled) :
    0 ∈ (popfileWriteToBuffer c s (endNul value)).held
      (popfileWriteToBuffer c s (endNul value)).popfileCurrentOutputBuffer := by
  have hbegins := begins_of_filled h.begin (begin_first s value) hfilled
  have hroom : (s.begin (endNul value)).room = (s.begin value).room := rfl
  have hends : Begins c (s.begin (endNul value)).room (endNul value).length := by
    rwa [hroom, length_endNul hvalue]
  exact nul_mem_held_deal h.begin (begin_first s _) List.getLast?_concat hends

/-- Just one of the histories calls `flush` before the next value that is not empty, and a block
is begun. -/
def Separates : (ℕ → ℕ) → (ℕ → ℕ) → Prop → Prop → List (List UInt8) → Prop
  | _, _, _, _, [] => False
  | φ, ψ, p, q, value :: values =>
      if value = [] then
        Separates (fun n => φ (n + 1)) (fun n => ψ (n + 1)) (φ 0 = 0 ∧ p) (ψ 0 = 0 ∧ q) values
      else ¬(φ 0 = 0 ∧ p ↔ ψ 0 = 0 ∧ q)

lemma Separates.begun (values : List (List UInt8)) : ∀ {φ ψ : ℕ → ℕ} {p q : Prop},
    Separates φ ψ p q values → p ∨ q := by
  induction values with
  | nil => exact nofun
  | cons value values ih =>
      intro φ ψ p q h
      rw [Separates] at h
      split_ifs at h
      · exact (ih h).imp And.right And.right
      · by_contra hnone
        obtain ⟨hp, hq⟩ := not_or.mp hnone
        exact h (iff_of_false (fun hf => hp hf.2) fun hf => hq hf.2)

/-- As many bytes that are not 1. -/
def plain (value : List UInt8) : List UInt8 := List.replicate value.length 2

/-- The first byte is 1, and it is the only one. -/
def mark : List (List UInt8) → List (List UInt8)
  | [] => []
  | [] :: values => [] :: mark values
  | (_ :: value) :: values => (1 :: plain value) :: values.map plain

lemma map_length_plain (values : List (List UInt8)) :
    (values.map plain).map List.length = values.map List.length := by
  rw [List.map_map]
  exact List.map_congr_left fun value _ => List.length_replicate

lemma map_length_mark : ∀ values : List (List UInt8),
    (mark values).map List.length = values.map List.length
  | [] => rfl
  | [] :: values => congrArg (0 :: ·) (map_length_mark values)
  | (_ :: value) :: values => by
    rw [mark, List.map_cons, List.map_cons, map_length_plain, List.length_cons, plain,
      List.length_replicate, List.length_cons]

lemma one_notMem_flatten_plain (values : List (List UInt8)) : 1 ∉ (values.map plain).flatten := by
  intro hmem
  obtain ⟨l, hl, hmem⟩ := List.mem_flatten.mp hmem
  obtain ⟨value, -, rfl⟩ := List.mem_map.mp hl
  exact absurd (List.eq_of_mem_replicate hmem) (by decide)

/-- The byte 1 is hidden by the zero byte, or is found after a `flush`. -/
lemma close_ne_of_nul (h : Kept c s) (hnul : 0 ∈ s.held s.popfileCurrentOutputBuffer)
    (φ ψ : ℕ → ℕ) (value : List UInt8) (values : List (List UInt8)) :
    (runCalls c φ (popfileWriteToBuffer c s (1 :: plain value)) (values.map plain)).close.strips
        s.popfileCurrentOutputBuffer ≠
      (runCalls c ψ (popfileWriteToBuffer c s.flush (1 :: plain value))
        (values.map plain)).close.strips s.popfileCurrentOutputBuffer := by
  intro heq
  obtain ⟨y, hy, hwrite⟩ := exists_shown_write_of_nul (c := c) hnul (1 :: plain value)
  obtain ⟨y', hy', hrun⟩ := exists_close_runCalls (values.map plain) φ
    (h.write (1 :: plain value)) s.popfileCurrentOutputBuffer
  obtain ⟨y'', -, hrun'⟩ := exists_close_runCalls (values.map plain) ψ
    (h.flush.write (1 :: plain value)) s.popfileCurrentOutputBuffer
  obtain ⟨z, hz⟩ : s.flush.shown s.popfileCurrentOutputBuffer ++ [1] <+: _ :=
    prefix_shown_write (c := c) (h.held_flush s.flush.popfileCurrentOutputBuffer) (by decide)
      (plain value)
  rw [hrun, hrun', hwrite] at heq
  have hz : s.shown s.popfileCurrentOutputBuffer ++ [1] ++ z = (popfileWriteToBuffer c s.flush
      (1 :: plain value)).shown s.popfileCurrentOutputBuffer := by
    rw [← h.shown_flush]
    exact hz
  rw [← hz, List.append_assoc, List.append_assoc, List.append_assoc,
    List.append_cancel_left_eq] at heq
  have hmem : (1 : UInt8) ∈ y ++ y' := heq ▸ List.mem_cons_self
  rcases List.mem_append.mp hmem with hmem | hmem
  · exact absurd (List.eq_of_mem_replicate (hy hmem)) (by decide)
  · exact one_notMem_flatten_plain values (hy' hmem)

/-- If a block begun ends in a zero byte, then `flush` makes a difference for the marked values. -/
lemma close_ne_of_separates (values : List (List UInt8)) :
    ∀ {φ ψ : ℕ → ℕ} {s s' : POPFStream k}, Separates φ ψ s.Filled s'.Filled values →
      Apart s s' → Kept c s → Kept c s' →
      (s.Filled → 0 ∈ s.held s.popfileCurrentOutputBuffer) →
      (s'.Filled → 0 ∈ s'.held s'.popfileCurrentOutputBuffer) →
      (runCalls c φ s (mark values)).close.strips ≠
        (runCalls c ψ s' (mark values)).close.strips := by
  have hflushed : ∀ {s : POPFStream k} (n : ℕ), Kept c s →
      (s.Filled → 0 ∈ s.held s.popfileCurrentOutputBuffer) → (flushed n s).Filled →
        0 ∈ (flushed n s).held (flushed n s).popfileCurrentOutputBuffer := by
    intro s n hs hnul hfilled
    obtain ⟨rfl, hfilled⟩ := (hs.filled_flushed n).mp hfilled
    exact hnul hfilled
  induction values with
  | nil => exact nofun
  | cons value values ih =>
      intro φ ψ s s' h hapart hs hs' hnul hnul'
      have ht := hs.flushed (φ 0)
      have ht' := hs'.flushed (ψ 0)
      have hapart := hapart.flushed hs hs' (φ 0) (ψ 0)
      have hnul := hflushed (φ 0) hs hnul
      have hnul' := hflushed (ψ 0) hs' hnul'
      rw [Separates, ← hs.filled_flushed, ← hs'.filled_flushed] at h
      cases value with
      | nil =>
          rw [if_pos rfl, ← filled_write_nil (c := c) (flushed (φ 0) s),
            ← filled_write_nil (c := c) (flushed (ψ 0) s')] at h
          rw [mark, runCalls_cons hs, runCalls_cons hs']
          refine ih h (hapart.write_nil ht ht') (ht.write []) (ht'.write []) ?_ ?_
          · rw [filled_write_nil, held_write_nil, current_write_nil]
            exact hnul
          · rw [filled_write_nil, held_write_nil, current_write_nil]
            exact hnul'
      | cons x value =>
          rw [if_neg (List.cons_ne_nil x value)] at h
          rw [mark, runCalls_cons hs, runCalls_cons hs']
          intro heq
          by_cases hfilled : (flushed (φ 0) s).Filled
          · have hidle : ¬(flushed (ψ 0) s').Filled := fun hf => h (iff_of_true hfilled hf)
            rw [hapart.eq_flush ht' hfilled hidle] at heq
            exact close_ne_of_nul ht (hnul hfilled) _ _ value values (congrFun heq _)
          · have hfilled' : (flushed (ψ 0) s').Filled := by
              by_contra hidle
              exact h (iff_of_false hfilled hidle)
            rw [hapart.symm.eq_flush ht hfilled' hfilled] at heq
            exact close_ne_of_nul ht' (hnul' hfilled') _ _ value values (congrFun heq.symm _)

/-- If the condition fails, then it does so before the first value that is not empty, or there are
bytes for which `flush` makes a difference. -/
lemma separates_or_close_ne (values : List (List UInt8)) :
    ∀ {φ ψ : ℕ → ℕ} {s s' : POPFStream k}, ¬Alike c φ ψ s s' values → Apart s s' → Kept c s →
      Kept c s' → Separates φ ψ s.Filled s'.Filled values ∨
        ∃ values', values'.map List.length = values.map List.length ∧
          (runCalls c φ s values').close.strips ≠ (runCalls c ψ s' values').close.strips := by
  induction values with
  | nil => exact fun h => absurd trivial h
  | cons value values ih =>
      intro φ ψ s s' h hapart hs hs'
      have ht := hs.flushed (φ 0)
      have ht' := hs'.flushed (ψ 0)
      have hapart := hapart.flushed hs hs' (φ 0) (ψ 0)
      rw [Alike, not_and_or] at h
      rw [Separates, ← hs.filled_flushed, ← hs'.filled_flushed]
      by_cases hvalue : value = []
      · subst hvalue
        have hrest := h.resolve_left fun hne => hne fun habs => absurd rfl habs
        rw [if_pos rfl]
        rcases ih hrest (hapart.write_nil ht ht') (ht.write []) (ht'.write []) with hsep | hne
        · rw [filled_write_nil, filled_write_nil] at hsep
          exact .inl hsep
        · obtain ⟨values', hlength, hne⟩ := hne
          refine .inr ⟨[] :: values', congrArg (0 :: ·) hlength, ?_⟩
          rwa [runCalls_cons hs, runCalls_cons hs']
      · rw [if_neg hvalue]
        by_cases hfilled : (flushed (φ 0) s).Filled ↔ (flushed (ψ 0) s').Filled
        · have hrest := h.resolve_left fun hne => hne fun _ => hfilled
          have heq := hapart.eq ht ht' hfilled
          rw [← heq] at hrest
          right
          rcases ih hrest (.inl rfl) (ht.write value) (ht.write value) with hsep | hne
          · -- the value ends in a zero byte, and the next one is marked
            have hw := or_self_iff.mp (hsep.begun values)
            have hnul := nul_mem_held_write ht hvalue hw
            have hw' : (popfileWriteToBuffer c (flushed (φ 0) s) (endNul value)).Filled :=
              List.ne_nil_of_mem hnul
            rw [eq_true hw, ← eq_true hw'] at hsep
            have hne := close_ne_of_separates values hsep (.inl rfl) (ht.write _) (ht.write _)
              (fun _ => hnul) fun _ => hnul
            refine ⟨endNul value :: mark values, ?_, ?_⟩
            · rw [List.map_cons, List.map_cons, length_endNul hvalue, map_length_mark]
            · rwa [runCalls_cons hs, runCalls_cons hs', ← heq]
          · obtain ⟨values', hlength, hne⟩ := hne
            refine ⟨value :: values', congrArg (value.length :: ·) hlength, ?_⟩
            rwa [runCalls_cons hs, runCalls_cons hs', ← heq]
        · exact .inl hfilled

lemma kept_opened (start : Option (ParallelFile k)) :
    Kept c (opened c start) ∧ ¬(opened c start).Filled := by
  have hheld : ∀ i, (opened c start).held i = [] := by
    cases start <;> exact fun i => rfl
  have hroom : ∀ i, ((opened c start).popfileWritebuffers i).1.remainingCapacity = c ∧
      ((opened c start).popfileWritebuffers i).1.capacity = c := by
    cases start <;> exact fun i => ⟨rfl, rfl⟩
  have hidle : ¬(opened c start).Filled := not_not.mpr (hheld _)
  refine ⟨⟨fun i => ?_, fun i _ => hheld i, fun i _ => (hroom i).1, fun _ => hidle⟩, hidle⟩
  rw [hheld, (hroom i).1, (hroom i).2]
  exact Nat.zero_add c

/-- **Transparent flushing.**  The strips have the same contents after both histories if, whenever
a value that is not empty is written, a block is begun in both or in neither.  Otherwise there are
values of the same lengths for which they have not. -/
theorem strips_eq_iff_alike (c : ℕ) [NeZero c] (start : Option (ParallelFile k)) (φ ψ : ℕ → ℕ)
    (values : List (List UInt8)) :
    (Alike c φ ψ (opened c start) (opened c start) values →
      (closed c start (calls φ values)).strips = (closed c start (calls ψ values)).strips) ∧
    ((∀ values', values'.map List.length = values.map List.length →
        (closed c start (calls φ values')).strips = (closed c start (calls ψ values')).strips) ↔
      ∀ values', values'.map List.length = values.map List.length →
        Alike c φ ψ (opened c start) (opened c start) values') := by
  obtain ⟨hkept, hidle⟩ := kept_opened (c := c) start
  have halike : ∀ values', Alike c φ ψ (opened c start) (opened c start) values' →
      (closed c start (calls φ values')).strips = (closed c start (calls ψ values')).strips :=
    fun values' h => funext (h.close_strips values' (.inl rfl) hkept hkept)
  refine ⟨halike values, fun h values' hlength => ?_, fun h values' hlength =>
    halike values' (h values' hlength)⟩
  by_contra hnot
  rcases separates_or_close_ne values' hnot (.inl rfl) hkept hkept with hsep | hne
  · exact hidle (or_self_iff.mp (hsep.begun values'))
  · obtain ⟨values'', hlength', hne⟩ := hne
    exact hne (h values'' (hlength'.trans hlength))

/-- `flush` between two writes, where the first ends with its block. -/
theorem strips_eq_blockBoundary :
    (closed 4 none (calls (fun n => if n = 1 then 1 else 0) [[97, 98, 99, 100], [101]]) :
        ParallelFile 2).strips =
      (closed 4 none (calls (fun _ => 0) [[97, 98, 99, 100], [101]])).strips := by
  have hwritten : ¬(popfileWriteToBuffer 4 (opened 4 none : POPFStream 2)
      [97, 98, 99, 100]).Filled := by
    have hroom : ((opened 4 none : POPFStream 2).begin [97, 98, 99, 100]).room ≤
      [97, 98, 99, 100].length := le_rfl
    have hkept := (kept_opened (c := 4) (k := 2) none).1
    rw [popfileWriteToBuffer_eq, deal_of_full hroom (.inl rfl)]
    exact (hkept.begin.bufferAdd (begin_first _ _)).not_filled_nextBlock
      (not_filled_bufferAdd hroom)
  have hflushed := ((kept_opened (c := 4) (k := 2) none).1.write
    [97, 98, 99, 100]).not_filled_flush
  exact (strips_eq_iff_alike 4 none (fun n => if n = 1 then 1 else 0) (fun _ => 0)
    [[97, 98, 99, 100], [101]]).1
      ⟨fun _ => Iff.rfl, fun _ => iff_of_false hflushed hwritten, trivial⟩

end Separates

/-- As many bytes as fill a block of 1024. -/
def block : List UInt8 := List.replicate 1024 98

/-- A byte, and the block. -/
def byteAndBlock : List WriteCall := [.write [97], .write block]

/-- The same, flushed in between. -/
def byteFlushBlock : List WriteCall := [.write [97], .flush, .write block]

local instance neZero_two : NeZero 2 := ⟨by decide⟩

/-- The stream after the first byte. -/
def begun : POPFStream 2 := (((create 1024).begin [97]).bufferAdd [97]).2

lemma length_block : block.length = 1024 := List.length_replicate

/-- Without `flush` the last byte begins the next block. -/
lemma mem_shown_begun : 98 ∈ (popfileWriteToBuffer 1024 begun block).shown 1 := by
  have hroom : (begun.begin block).room = 1023 := rfl
  have hdrop : block.drop 1023 = [98] := List.drop_replicate
  have hnext : (nextBlock 1024 ((begun.begin block).bufferAdd block).2).room = 1024 := rfl
  have hheld : (nextBlock 1024 ((begun.begin block).bufferAdd block).2).held 1 = [] := by
    rw [held_nextBlock, held_bufferAdd_of_ne (by decide), held_begin]
    rfl
  rw [popfileWriteToBuffer_eq, deal_of_le (by rw [hroom, length_block]; decide)
    (by rw [hroom, hdrop]; decide) (by rw [hroom, hdrop]; decide), hroom, hdrop,
    deal_of_lt (by rw [hnext]; decide)]
  have hself := shown_bufferAdd_self (nextBlock 1024 ((begun.begin block).bufferAdd block).2) [98]
  have hcurrent : (nextBlock 1024
    ((begun.begin block).bufferAdd block).2).popfileCurrentOutputBuffer = 1 := rfl
  rw [hcurrent, hheld, hnext] at hself
  rw [hself]
  exact List.mem_append_right _ (by decide)

/-- With it the block is filled. -/
lemma shown_begun_flush : (popfileWriteToBuffer 1024 begun.flush block).shown 1 = [] := by
  have hroom : (begun.flush.begin block).room = 1024 := rfl
  obtain ⟨y, hy, hdeal⟩ := exists_shown_deal (c := 1024) (begun.flush.begin block) block 1
  rw [hroom, List.drop_of_length_le length_block.le, List.subset_nil] at hy
  rw [popfileWriteToBuffer_eq, hdeal, hy, List.append_nil, shown_bufferAdd_of_ne (by decide),
    shown_begin]
  rfl

/-- Two strips with blocks of 1024 bytes: without `flush` the last byte is in the second strip,
with it all of them are in the first. -/
theorem flush_not_transparent :
    ¬ ∀ (k c : ℕ) [NeZero k] [NeZero c] (start : Option (ParallelFile k))
      (history history' : List WriteCall), writes history = writes history' →
        (closed c start history).strips = (closed c start history').strips := by
  intro h
  have hstrip := congrFun (h 2 1024 none byteAndBlock byteFlushBlock rfl) 1
  obtain ⟨hkept, -⟩ := kept_opened (c := 1024) (k := 2) none
  have hkept := hkept.write [97]
  have hwrite : popfileWriteToBuffer 1024 (opened 1024 none : POPFStream 2) [97] = begun :=
    deal_of_lt (by decide)
  have hand : closed 1024 none byteAndBlock = (popfileWriteToBuffer 1024 begun block).close := by
    rw [← hwrite]
    rfl
  have hflush : closed 1024 none byteFlushBlock =
      (popfileWriteToBuffer 1024 begun.flush block).close := by
    rw [← hwrite]
    rfl
  rw [hwrite] at hkept
  rw [hand, hflush, (hkept.write _).close_strips, (hkept.flush.write _).close_strips,
    shown_begun_flush] at hstrip
  exact absurd hstrip (List.ne_nil_of_mem mem_shown_begun)

end POPFStream

end PopCpp.PopFile
