/-
# Writing a parallel file

A `POPFStream` (`dev/popfile/popfile.cpp`) deals what is written to it to the strips of the file
in blocks of `offset` bytes.  A block is collected in a `POPFileBuffer` (`popfilebuffer.cpp`) and
appended to its strip when the buffer is full or the stream is closed.  `buffer_add` returns what
did not fit, or the word `FULL` if the buffer is full and everything fitted; so a real remainder
`FULL` is never written.  A stream that opens an existing file fills up the last block of it
first.
-/
import Mathlib.Algebra.Order.BigOperators.Group.Finset
import Mathlib.Data.List.TakeWhile
import PopCpp.Lib.Striping

namespace PopCpp.PopFile

open Striping

/-! ### The buffer of a strip -/

/-- `POPFileBuffer::POPFILEBUFFER_FULL_WITHOUT_REMAINING`. -/
def fullWithoutRemaining : List UInt8 := [70, 85, 76, 76]

/-- `std::string(s.c_str())`. -/
def cStr (data : List UInt8) : List UInt8 := data.takeWhile (· != 0)

lemma cStr_eq_self {data : List UInt8} (h : 0 ∉ data) : cStr data = data := by
  refine List.takeWhile_eq_self_iff.mpr fun x hx => ?_
  have hne : x ≠ 0 := fun h0 => h (h0 ▸ hx)
  simpa using hne

lemma length_cStr_le (data : List UInt8) : (cStr data).length ≤ data.length :=
  (List.takeWhile_prefix _).length_le

/-- `POPFileBuffer`, for output. -/
structure POPFileBuffer where
  popfileBufferOut : List UInt8
  capacity : ℕ
  remainingCapacity : ℕ

/-- There is room in the buffer. -/
def POPFileBuffer.Ready (b : POPFileBuffer) : Prop :=
  0 < b.remainingCapacity ∧ b.remainingCapacity ≤ b.capacity

/-- `set_capacity`. -/
def POPFileBuffer.setCapacity (b : POPFileBuffer) (value : ℕ) : POPFileBuffer :=
  { b with capacity := value, remainingCapacity := value }

/-- `flush`: what is sent to the strip, and the buffer. -/
def POPFileBuffer.flush (b : POPFileBuffer) : List UInt8 × POPFileBuffer :=
  if b.remainingCapacity < b.capacity then
    (cStr b.popfileBufferOut, { b with popfileBufferOut := [], remainingCapacity := b.capacity })
  else ([], b)

/-- `buffer_add`: what is returned, what is sent to the strip, and the buffer. -/
def POPFileBuffer.bufferAdd (b : POPFileBuffer) (value : List UInt8) :
    List UInt8 × List UInt8 × POPFileBuffer :=
  if value.length < b.remainingCapacity then
    ([], [], { b with
      popfileBufferOut := b.popfileBufferOut ++ value
      remainingCapacity := b.remainingCapacity - value.length })
  else
    let remaining := value.drop b.remainingCapacity
    let toadd := value.take b.remainingCapacity
    let flushed := POPFileBuffer.flush { b with
      popfileBufferOut := b.popfileBufferOut ++ toadd
      remainingCapacity := b.remainingCapacity - toadd.length }
    (if remaining = [] then fullWithoutRemaining else remaining, flushed)

lemma POPFileBuffer.Ready.flush {b : POPFileBuffer} (h : b.Ready) : b.flush.2.Ready := by
  unfold POPFileBuffer.flush
  split
  · exact ⟨h.1.trans_le h.2, le_rfl⟩
  · exact h

lemma POPFileBuffer.bufferAdd_of_lt {b : POPFileBuffer} {value : List UInt8}
    (h : value.length < b.remainingCapacity) :
    b.bufferAdd value = ([], [], { b with
      popfileBufferOut := b.popfileBufferOut ++ value
      remainingCapacity := b.remainingCapacity - value.length }) := if_pos h

/-- A value for which there is not more than enough room fills the buffer. -/
lemma POPFileBuffer.bufferAdd_of_le {b : POPFileBuffer} (hb : b.Ready) {value : List UInt8}
    (h : b.remainingCapacity ≤ value.length) :
    b.bufferAdd value =
      (if value.drop b.remainingCapacity = [] then fullWithoutRemaining
        else value.drop b.remainingCapacity,
      cStr (b.popfileBufferOut ++ value.take b.remainingCapacity),
      { b with popfileBufferOut := [], remainingCapacity := b.capacity }) := by
  have hpos := hb.1.trans_le hb.2
  rw [POPFileBuffer.bufferAdd, if_neg h.not_gt]
  simp only [POPFileBuffer.flush, List.length_take_of_le h, Nat.sub_self, if_pos hpos]

lemma POPFileBuffer.Ready.bufferAdd {b : POPFileBuffer} (hb : b.Ready) (value : List UInt8) :
    (b.bufferAdd value).2.2.Ready := by
  rcases Nat.lt_or_ge value.length b.remainingCapacity with h | h
  · rw [bufferAdd_of_lt h]
    exact ⟨Nat.sub_pos_of_lt h, (Nat.sub_le _ _).trans hb.2⟩
  · rw [bufferAdd_of_le hb h]
    exact ⟨hb.1.trans_le hb.2, le_rfl⟩

/-- A buffer between two calls. -/
abbrev ReadyBuffer := { b : POPFileBuffer // b.Ready }

/-- `popfile_writebuffers[i]` when the stream is opened. -/
def ReadyBuffer.fresh (c : ℕ) [NeZero c] : ReadyBuffer :=
  ⟨⟨[], c, c⟩, Nat.pos_of_neZero c, le_rfl⟩

/-! ### The stream -/

/-- The output side of a `POPFStream`, with the strips of the file. -/
structure POPFStream (k : ℕ) where
  popfileWritebuffers : Fin k → ReadyBuffer
  popfileCurrentOutputBuffer : Fin k
  popfileTotalBytes : ℕ
  popfileFirstWritePointer : ℕ
  strips : Fin k → List UInt8

/-- The strips of a closed file and what its metadata keep: `info_ending_pointer` and
`info_ending_strip`. -/
structure ParallelFile (k : ℕ) where
  endingPointer : ℕ
  endingStrip : Fin k
  strips : Fin k → List UInt8

/-- The bytes are dealt to the strips in blocks of `c`. -/
def ParallelFile.Striped {k : ℕ} (f : ParallelFile k) (c : ℕ) (bytes : List UInt8) : Prop :=
  ∀ i, f.strips i = strip k c i bytes

/-- How many bytes the strips have. -/
def ParallelFile.bytes {k : ℕ} (f : ParallelFile k) : ℕ := ∑ i, (f.strips i).length

namespace POPFStream

variable {k : ℕ} [NeZero k] (c : ℕ) [NeZero c]

/-- `set_capacity` of the current output buffer. -/
def setCapacity (s : POPFStream k) (value : ℕ) (h : 0 < value) : POPFStream k :=
  let i := s.popfileCurrentOutputBuffer
  { s with
    popfileWritebuffers :=
      Function.update s.popfileWritebuffers i
        ⟨(s.popfileWritebuffers i).1.setCapacity value, h, le_rfl⟩ }

/-- `buffer_add` of the current output buffer; `writeToRemoteStrip` appends to the strip. -/
def bufferAdd (s : POPFStream k) (value : List UInt8) : List UInt8 × POPFStream k :=
  let i := s.popfileCurrentOutputBuffer
  let b := s.popfileWritebuffers i
  ((b.1.bufferAdd value).1,
    { s with
      popfileWritebuffers :=
        Function.update s.popfileWritebuffers i ⟨(b.1.bufferAdd value).2.2, b.2.bufferAdd value⟩
      strips := Function.update s.strips i (s.strips i ++ (b.1.bufferAdd value).2.1) })

/-- The number of the next strip. -/
def nextStrip (i : Fin k) : Fin k :=
  if h : (i.val + 1) % k = 0 then ⟨0, Nat.pos_of_neZero k⟩
  else ⟨i.val + 1, Nat.lt_of_le_of_ne i.isLt fun heq => h (by rw [heq, Nat.mod_self])⟩

lemma val_nextStrip (i : Fin k) : (nextStrip i).val = (i.val + 1) % k := by
  unfold nextStrip
  split_ifs with h
  · exact h.symm
  · refine (Nat.mod_eq_of_lt (Nat.lt_of_le_of_ne i.isLt fun heq => h ?_)).symm
    have hk : i.val + 1 = k := heq
    rw [hk, Nat.mod_self]

/-- `get_next_buffer`. -/
def getNextBuffer (s : POPFStream k) : POPFStream k :=
  { s with popfileCurrentOutputBuffer := nextStrip s.popfileCurrentOutputBuffer }

/-- How much of a value is left; nothing if it is taken for the full marker. -/
def unwritten (remaining : List UInt8) : ℕ :=
  if remaining = fullWithoutRemaining then 0 else remaining.length

lemma unwritten_bufferAdd_lt {b : POPFileBuffer} (hb : b.Ready) {remaining : List UInt8}
    (hne : remaining ≠ []) (hfull : remaining ≠ fullWithoutRemaining) :
    unwritten (b.bufferAdd remaining).1 < unwritten remaining := by
  have hpos := List.length_pos_iff.mpr hne
  rw [unwritten, unwritten, if_neg hfull]
  rcases Nat.lt_or_ge remaining.length b.remainingCapacity with h | h
  · rw [POPFileBuffer.bufferAdd_of_lt h]
    simpa using hpos
  · rw [POPFileBuffer.bufferAdd_of_le hb h]
    have hroom := hb.1
    by_cases hdrop : remaining.drop b.remainingCapacity = []
    · simpa [hdrop] using hpos
    · simp only [if_neg hdrop, List.length_drop]
      split_ifs <;> omega

/-- The loop of `popfile_writeToBuffer`. -/
def writeLoop (s : POPFStream k) (remaining : List UInt8) : POPFStream k :=
  if remaining = [] then s
  else
    let s := (s.setCapacity c (Nat.pos_of_neZero c)).getNextBuffer
    if remaining = fullWithoutRemaining then s
    else writeLoop (s.bufferAdd remaining).2 (s.bufferAdd remaining).1
termination_by unwritten remaining
decreasing_by exact unwritten_bufferAdd_lt (Subtype.prop _) ‹_› ‹_›

/-- The beginning of `popfile_writeToBuffer`: the first block is shorter after an `open`. -/
def applyFirstWritePointer (s : POPFStream k) : POPFStream k :=
  if h : s.popfileFirstWritePointer ≠ 0 then
    { s.setCapacity s.popfileFirstWritePointer (Nat.pos_of_ne_zero h) with
      popfileFirstWritePointer := 0 }
  else s

/-- `popfile_writeToBuffer`. -/
def popfileWriteToBuffer (s : POPFStream k) (value : List UInt8) : POPFStream k :=
  let s := s.applyFirstWritePointer
  let s := { s with popfileTotalBytes := s.popfileTotalBytes + value.length }
  writeLoop c (s.bufferAdd value).2 (s.bufferAdd value).1

/-- `close`: all buffers are flushed, and the metadata are saved. -/
def close (s : POPFStream k) : ParallelFile k where
  endingPointer := s.popfileTotalBytes
  endingStrip := s.popfileCurrentOutputBuffer
  strips i := s.strips i ++ (s.popfileWritebuffers i).1.flush.1

/-- `open` of a file that does not exist. -/
def create : POPFStream k where
  popfileWritebuffers _ := ReadyBuffer.fresh c
  popfileCurrentOutputBuffer := ⟨0, Nat.pos_of_neZero k⟩
  popfileTotalBytes := 0
  popfileFirstWritePointer := 0
  strips _ := []

/-- `popfile_try_open_parallel` of a file that exists. -/
def popfileTryOpenParallel (f : ParallelFile k) : POPFStream k where
  popfileWritebuffers _ := ReadyBuffer.fresh c
  popfileCurrentOutputBuffer := f.endingStrip
  popfileTotalBytes := f.endingPointer
  popfileFirstWritePointer := c - f.endingPointer % c
  strips := f.strips

/-- The writes of a session. -/
def writeAll (s : POPFStream k) (values : List (List UInt8)) : POPFStream k :=
  values.foldl (popfileWriteToBuffer c) s

/-- A session on a file that exists. -/
def session (f : ParallelFile k) (values : List (List UInt8)) : ParallelFile k :=
  (writeAll c (popfileTryOpenParallel c f) values).close

/-- A file after its creation with a first session and the sessions after it. -/
def history (first : List (List UInt8)) (later : List (List (List UInt8))) : ParallelFile k :=
  later.foldl (session c) (writeAll c (create c) first).close

/-! ### What is in the buffers and in the strips -/

section Fills

variable {c} {s : POPFStream k} {written value : List UInt8}

/-- The buffers hold what the strips have not yet got of what has been written; only the current
one can hold anything, and it has room up to the end of the block. -/
structure Fills (c : ℕ) [NeZero c] (written : List UInt8) (s : POPFStream k) : Prop where
  content : ∀ i, s.strips i ++ (s.popfileWritebuffers i).1.popfileBufferOut = strip k c i written
  nulFree : 0 ∉ (s.popfileWritebuffers s.popfileCurrentOutputBuffer).1.popfileBufferOut
  current : s.popfileCurrentOutputBuffer.val = written.length / c % k
  room : (s.popfileWritebuffers s.popfileCurrentOutputBuffer).1.remainingCapacity =
    c - written.length % c
  accounts : (s.popfileWritebuffers s.popfileCurrentOutputBuffer).1.popfileBufferOut.length +
      (s.popfileWritebuffers s.popfileCurrentOutputBuffer).1.remainingCapacity =
    (s.popfileWritebuffers s.popfileCurrentOutputBuffer).1.capacity
  fresh : ∀ i ≠ s.popfileCurrentOutputBuffer, s.popfileWritebuffers i = ReadyBuffer.fresh c

/-- The block has been filled and sent, and the turn has not yet passed to the next strip. -/
structure Full (c : ℕ) [NeZero c] (written : List UInt8) (s : POPFStream k) : Prop where
  content : ∀ i, s.strips i = strip k c i written
  sent : (s.popfileWritebuffers s.popfileCurrentOutputBuffer).1.popfileBufferOut = []
  ended : c ∣ written.length
  next : (s.popfileCurrentOutputBuffer.val + 1) % k = written.length / c % k
  fresh : ∀ i ≠ s.popfileCurrentOutputBuffer, s.popfileWritebuffers i = ReadyBuffer.fresh c

omit [NeZero k] in
/-- What is written up to the end of the block goes to the current strip. -/
lemma Fills.strip_append (h : Fills c written s)
    (hvalue : written.length % c + value.length ≤ c) (i : Fin k) :
    strip k c i (written ++ value) =
      strip k c i written ++ if i = s.popfileCurrentOutputBuffer then value else [] := by
  rw [Striping.strip_append, stripFrom_within (Nat.pos_of_neZero c) hvalue]
  simp only [← h.current, Fin.ext_iff, eq_comm]

omit [NeZero k] in
lemma Fills.bufferAdd_of_lt (h : Fills c written s) (hnul : 0 ∉ value)
    (hlt : value.length < c - written.length % c) :
    (s.bufferAdd value).1 = [] ∧ Fills c (written ++ value) (s.bufferAdd value).2 := by
  have hadd := POPFileBuffer.bufferAdd_of_lt (h.room ▸ hlt)
  have hmod : (written.length + value.length) % c = written.length % c + value.length := by
    rw [Nat.add_mod, Nat.mod_eq_of_lt (a := value.length) (by omega)]
    exact Nat.mod_eq_of_lt (by omega)
  have hdiv : (written.length + value.length) / c = written.length / c := by
    have hw := Nat.div_add_mod written.length c
    have hv := Nat.div_add_mod (written.length + value.length) c
    exact Nat.eq_of_mul_eq_mul_left (Nat.pos_of_neZero c) (by omega)
  refine ⟨congrArg Prod.fst hadd, ⟨fun i => ?_, ?_, ?_, ?_, ?_, fun i hi => ?_⟩⟩
  · rw [h.strip_append (by omega), ← h.content i]
    by_cases hi : i = s.popfileCurrentOutputBuffer
    · subst hi
      simp [bufferAdd, hadd]
    · simp [bufferAdd, hi]
  · simpa [bufferAdd, hadd] using ⟨h.nulFree, hnul⟩
  · rw [List.length_append, hdiv]
    exact h.current
  · rw [List.length_append, hmod]
    simp only [bufferAdd, Function.update_self, hadd, h.room]
    omega
  · have haccounts := h.accounts
    rw [h.room] at haccounts
    simp only [bufferAdd, Function.update_self, hadd, h.room, List.length_append]
    omega
  · rw [← h.fresh i hi]
    exact Function.update_of_ne hi _ _

omit [NeZero k] in
lemma Fills.bufferAdd_of_le (h : Fills c written s) (hnul : 0 ∉ value)
    (hle : c - written.length % c ≤ value.length) :
    (s.bufferAdd value).1 =
        (if value.drop (c - written.length % c) = [] then fullWithoutRemaining
        else value.drop (c - written.length % c)) ∧
      Full c (written ++ value.take (c - written.length % c)) (s.bufferAdd value).2 := by
  have hc := Nat.pos_of_neZero c
  have hlt := Nat.mod_lt written.length hc
  have hw := Nat.div_add_mod written.length c
  have hadd := POPFileBuffer.bufferAdd_of_le (Subtype.prop _) (h.room ▸ hle)
  have hcut : cStr ((s.popfileWritebuffers s.popfileCurrentOutputBuffer).1.popfileBufferOut ++
      value.take (c - written.length % c)) =
      (s.popfileWritebuffers s.popfileCurrentOutputBuffer).1.popfileBufferOut ++
        value.take (c - written.length % c) := by
    refine cStr_eq_self fun hmem => ?_
    rcases List.mem_append.mp hmem with hmem | hmem
    · exact h.nulFree hmem
    · exact hnul (List.mem_of_mem_take hmem)
  rw [h.room, hcut] at hadd
  have hlen : (written ++ value.take (c - written.length % c)).length =
      c * (written.length / c + 1) := by
    rw [List.length_append, List.length_take_of_le hle, Nat.mul_succ]
    omega
  refine ⟨congrArg Prod.fst hadd, ⟨fun i => ?_, ?_, ?_, ?_, fun i hi => ?_⟩⟩
  · rw [h.strip_append (by rw [List.length_take_of_le hle]; omega), ← h.content i]
    by_cases hi : i = s.popfileCurrentOutputBuffer
    · subst hi
      simp [bufferAdd, hadd]
    · simp [bufferAdd, hi, h.fresh i hi, ReadyBuffer.fresh]
  · simp [bufferAdd, hadd]
  · rw [hlen]
    exact Nat.dvd_mul_right c _
  · rw [hlen, Nat.mul_div_cancel_left _ hc]
    show (s.popfileCurrentOutputBuffer.val + 1) % k = _
    rw [h.current, Nat.mod_add_mod]
  · rw [← h.fresh i hi]
    exact Function.update_of_ne hi _ _

/-- The next block starts with empty buffers. -/
lemma Full.getNextBuffer (h : Full c written s) :
    Fills c written (s.setCapacity c (Nat.pos_of_neZero c)).getNextBuffer := by
  have hfresh : ∀ i, (s.setCapacity c (Nat.pos_of_neZero c)).popfileWritebuffers i =
      ReadyBuffer.fresh c := by
    intro i
    by_cases hi : i = s.popfileCurrentOutputBuffer
    · subst hi
      simp [setCapacity, POPFileBuffer.setCapacity, h.sent, ReadyBuffer.fresh]
    · rw [← h.fresh i hi]
      exact Function.update_of_ne hi _ _
  have hmod : written.length % c = 0 := Nat.mod_eq_zero_of_dvd h.ended
  refine ⟨fun i => ?_, ?_, ?_, ?_, ?_, fun i _ => hfresh i⟩
  · show s.strips i ++
      ((s.setCapacity c (Nat.pos_of_neZero c)).popfileWritebuffers i).1.popfileBufferOut = _
    rw [hfresh, ← h.content i]
    exact List.append_nil _
  · show 0 ∉ ((s.setCapacity c (Nat.pos_of_neZero c)).popfileWritebuffers _).1.popfileBufferOut
    rw [hfresh]
    exact List.not_mem_nil
  · rw [← h.next]
    exact val_nextStrip _
  · show ((s.setCapacity c (Nat.pos_of_neZero c)).popfileWritebuffers _).1.remainingCapacity = _
    rw [hfresh, hmod]
    rfl
  · show ((s.setCapacity c (Nat.pos_of_neZero c)).popfileWritebuffers _).1.popfileBufferOut.length +
      ((s.setCapacity c (Nat.pos_of_neZero c)).popfileWritebuffers _).1.remainingCapacity =
        ((s.setCapacity c (Nat.pos_of_neZero c)).popfileWritebuffers _).1.capacity
    rw [hfresh]
    exact Nat.zero_add c

/-- A value is confused with the full marker: it ends in `FULL`, and these four bytes start a
block, but not the value. -/
def Confused (c position : ℕ) (value : List UInt8) : Prop :=
  4 < value.length ∧ c ∣ position + (value.length - 4) ∧
    value.drop (value.length - 4) = fullWithoutRemaining

instance instDecidableConfused (c position : ℕ) (value : List UInt8) :
    Decidable (Confused c position value) :=
  inferInstanceAs (Decidable (_ ∧ _ ∧ _))

/-- What arrives of a value. -/
def arriving (c position : ℕ) (value : List UInt8) : List UInt8 :=
  if Confused c position value then value.take (value.length - 4) else value

omit [NeZero c] in
lemma blockEnd_eq (hc : 0 < c) (p : ℕ) : p + (c - p % c) = c * (p / c + 1) := by
  have hlt := Nat.mod_lt p hc
  have hp := Nat.div_add_mod p c
  rw [Nat.mul_succ]
  omega

omit [NeZero c] in
/-- The block ends at the next multiple of its length. -/
lemma blockEnd_le (hc : 0 < c) {p q : ℕ} (hq : c ∣ q) (hlt : p < q) : p + (c - p % c) ≤ q := by
  rw [blockEnd_eq hc]
  obtain ⟨m, rfl⟩ := hq
  exact Nat.mul_le_mul_left c (Nat.div_lt_of_lt_mul hlt)

omit [NeZero c] in
/-- A value within a block is not confused. -/
lemma arriving_of_le (hc : 0 < c) {p : ℕ} (h : value.length ≤ c - p % c) :
    arriving c p value = value := by
  refine if_neg fun ⟨hlen, hdvd, _⟩ => ?_
  have hend := blockEnd_le hc hdvd (by omega : p < p + (value.length - 4))
  omega

omit [NeZero c] in
/-- Beyond the end of a block, the rest of the value arrives as it would by itself. -/
lemma arriving_eq_append (hc : 0 < c) {p : ℕ}
    (hrest : value.drop (c - p % c) ≠ fullWithoutRemaining) (h : c - p % c ≤ value.length) :
    arriving c p value = value.take (c - p % c) ++
      arriving c (p + (c - p % c)) (value.drop (c - p % c)) := by
  have hpos : 0 < c - p % c := Nat.sub_pos_of_lt (Nat.mod_lt p hc)
  have hlen : (value.drop (c - p % c)).length = value.length - (c - p % c) := List.length_drop
  have hconf : Confused c p value ↔
      Confused c (p + (c - p % c)) (value.drop (c - p % c)) := by
    constructor
    · rintro ⟨hlong, hdvd, hfull⟩
      have hend := blockEnd_le hc hdvd (by omega : p < p + (value.length - 4))
      have hne : value.length - 4 ≠ c - p % c := fun heq => hrest (heq ▸ hfull)
      refine ⟨by omega, ?_, ?_⟩
      · rw [hlen]
        convert hdvd using 1
        omega
      · rw [hlen, List.drop_drop]
        convert hfull using 2
        omega
    · rintro ⟨hlong, hdvd, hfull⟩
      rw [hlen] at hlong hdvd hfull
      rw [List.drop_drop] at hfull
      refine ⟨by omega, ?_, ?_⟩
      · convert hdvd using 1
        omega
      · convert hfull using 2
        omega
  unfold arriving
  by_cases hc' : Confused c p value
  · have hlong := (hconf.mp hc').1
    rw [if_pos hc', if_pos (hconf.mp hc'), hlen, List.take_drop, ← List.take_append_drop
      (c - p % c) (value.take (value.length - 4)), List.take_take, Nat.min_eq_left (by omega)]
    congr 3
    omega
  · rw [if_neg hc', if_neg fun h' => hc' (hconf.mpr h'), List.take_append_drop]

/-- The call of `buffer_add` and the loop: everything is dealt to the strips that arrives. -/
lemma Fills.writeLoop (h : Fills c written s) (hnul : 0 ∉ value) :
    Fills c (written ++ arriving c written.length value)
      (writeLoop c (s.bufferAdd value).2 (s.bufferAdd value).1) := by
  have hc := Nat.pos_of_neZero c
  induction hn : value.length using Nat.strong_induction_on generalizing s written value with
  | _ n ih =>
  rcases Nat.lt_or_ge value.length (c - written.length % c) with hlt | hle
  · obtain ⟨hnone, hfills⟩ := h.bufferAdd_of_lt hnul hlt
    rw [hnone, POPFStream.writeLoop, if_pos rfl, arriving_of_le hc hlt.le]
    exact hfills
  obtain ⟨hrest, hfull⟩ := h.bufferAdd_of_le hnul hle
  have hnext := hfull.getNextBuffer
  have hpos : 0 < c - written.length % c := Nat.sub_pos_of_lt (Nat.mod_lt _ hc)
  have hlen : (written ++ value.take (c - written.length % c)).length =
      written.length + (c - written.length % c) := by
    rw [List.length_append, List.length_take_of_le hle]
  by_cases hdrop : value.drop (c - written.length % c) = []
  · have hall := List.drop_eq_nil_iff.mp hdrop
    rw [if_pos hdrop] at hrest
    rw [hrest, POPFStream.writeLoop, if_neg (by decide), if_pos rfl, arriving_of_le hc hall]
    rwa [List.take_of_length_le hall] at hnext
  rw [if_neg hdrop] at hrest
  rw [hrest, POPFStream.writeLoop, if_neg hdrop]
  by_cases hmarker : value.drop (c - written.length % c) = fullWithoutRemaining
  · -- the rest of the value is taken for the full marker
    have hfour : value.length - (c - written.length % c) = 4 := by
      rw [← List.length_drop, hmarker]
      rfl
    have hcut : value.length - 4 = c - written.length % c := by omega
    have hconf : Confused c written.length value :=
      ⟨by omega, hcut ▸ hlen ▸ hfull.ended, hcut ▸ hmarker⟩
    rw [arriving, if_pos hconf, if_pos hmarker, hcut]
    exact hnext
  · have hshorter : (value.drop (c - written.length % c)).length < n := by
      rw [List.length_drop]
      omega
    have hloop := ih _ hshorter hnext (fun hmem => hnul (List.mem_of_mem_drop hmem)) rfl
    rw [hlen, List.append_assoc, ← arriving_eq_append hc hmarker hle] at hloop
    rw [if_neg hmarker]
    exact hloop

end Fills

/-! ### Sessions -/

section Sessions

variable {c} {s : POPFStream k} {f : ParallelFile k} {written value : List UInt8}

/-- The stream after some writes of a session, or before the first one. -/
inductive Holds (c : ℕ) [NeZero c] (written : List UInt8) (s : POPFStream k) : Prop
  | writing (pointer : s.popfileFirstWritePointer = 0) (fills : Fills c written s)
  | opened (pointer : s.popfileFirstWritePointer = c - written.length % c)
      (content : ∀ i, s.strips i = strip k c i written)
      (current : s.popfileCurrentOutputBuffer.val = written.length / c % k)
      (fresh : ∀ i, s.popfileWritebuffers i = ReadyBuffer.fresh c)

/-- The closed file, and what the metadata say. -/
structure Saved (c : ℕ) (written : List UInt8) (f : ParallelFile k) : Prop where
  content : ∀ i, f.strips i = strip k c i written
  ending : f.endingPointer = written.length
  strip : f.endingStrip.val = written.length / c % k

omit [NeZero k] in
lemma Holds.applyFirstWritePointer (h : Holds c written s) :
    Fills c written s.applyFirstWritePointer ∧
      s.applyFirstWritePointer.popfileFirstWritePointer = 0 := by
  cases h with
  | writing pointer fills =>
      rw [POPFStream.applyFirstWritePointer, dif_neg (by simpa using pointer)]
      exact ⟨fills, pointer⟩
  | opened pointer content current fresh =>
      have hlt := Nat.mod_lt written.length (Nat.pos_of_neZero c)
      have hne : s.popfileFirstWritePointer ≠ 0 := by
        rw [pointer]
        omega
      rw [POPFStream.applyFirstWritePointer, dif_pos hne]
      refine ⟨⟨fun i => ?_, ?_, current, ?_, ?_, fun i hi => ?_⟩, rfl⟩
      · by_cases hi : i = s.popfileCurrentOutputBuffer
        · subst hi
          simp [setCapacity, POPFileBuffer.setCapacity, fresh, ReadyBuffer.fresh, content]
        · simp [setCapacity, hi, fresh, ReadyBuffer.fresh, content]
      · simp [setCapacity, POPFileBuffer.setCapacity, fresh, ReadyBuffer.fresh]
      · simp [setCapacity, POPFileBuffer.setCapacity, pointer]
      · simp [setCapacity, POPFileBuffer.setCapacity, fresh, ReadyBuffer.fresh]
      · rw [← fresh i]
        exact Function.update_of_ne hi _ _

/-- The induction along the loop. -/
theorem writeLoop_induction {motive : POPFStream k → List UInt8 → Prop}
    (nil : ∀ s, motive s []) (full : ∀ s, motive s fullWithoutRemaining)
    (step : ∀ s remaining, remaining ≠ [] → remaining ≠ fullWithoutRemaining →
      let s' := (s.setCapacity c (Nat.pos_of_neZero c)).getNextBuffer
      motive (s'.bufferAdd remaining).2 (s'.bufferAdd remaining).1 → motive s remaining)
    (s : POPFStream k) (remaining : List UInt8) : motive s remaining :=
  if hne : remaining = [] then hne ▸ nil s
  else if hfull : remaining = fullWithoutRemaining then hfull ▸ full s
  else step s remaining hne hfull (writeLoop_induction nil full step _ _)
termination_by unwritten remaining
decreasing_by exact unwritten_bufferAdd_lt (Subtype.prop _) hne hfull

lemma writeLoop_nil (s : POPFStream k) : writeLoop c s [] = s := by
  rw [writeLoop, if_pos rfl]

lemma writeLoop_full (s : POPFStream k) :
    writeLoop c s fullWithoutRemaining =
      (s.setCapacity c (Nat.pos_of_neZero c)).getNextBuffer := by
  rw [writeLoop, if_neg (by decide), if_pos rfl]

lemma writeLoop_of_ne {s : POPFStream k} {remaining : List UInt8} (hne : remaining ≠ [])
    (hfull : remaining ≠ fullWithoutRemaining) :
    writeLoop c s remaining =
      writeLoop c
        ((s.setCapacity c (Nat.pos_of_neZero c)).getNextBuffer.bufferAdd remaining).2
        ((s.setCapacity c (Nat.pos_of_neZero c)).getNextBuffer.bufferAdd remaining).1 := by
  conv_lhs => rw [writeLoop, if_neg hne, if_neg hfull]

/-- The loop does not touch what is kept for the metadata. -/
lemma writeLoop_metadata (s : POPFStream k) (remaining : List UInt8) :
    (writeLoop c s remaining).popfileTotalBytes = s.popfileTotalBytes ∧
      (writeLoop c s remaining).popfileFirstWritePointer = s.popfileFirstWritePointer := by
  induction s, remaining using @writeLoop_induction k _ c _ with
  | nil s =>
      rw [writeLoop_nil]
      exact ⟨rfl, rfl⟩
  | full s =>
      rw [writeLoop_full]
      exact ⟨rfl, rfl⟩
  | step s remaining hne hfull s' ih =>
      rw [writeLoop_of_ne hne hfull]
      exact ih

lemma Holds.write (h : Holds c written s) (hnul : 0 ∉ value) :
    Fills c (written ++ arriving c written.length value) (popfileWriteToBuffer c s value) ∧
      (popfileWriteToBuffer c s value).popfileFirstWritePointer = 0 := by
  obtain ⟨hfills, hptr⟩ := h.applyFirstWritePointer
  constructor
  · have hcounted : Fills c written { s.applyFirstWritePointer with
        popfileTotalBytes := s.applyFirstWritePointer.popfileTotalBytes + value.length } :=
      ⟨hfills.content, hfills.nulFree, hfills.current, hfills.room, hfills.accounts, hfills.fresh⟩
    exact hcounted.writeLoop hnul
  · exact (writeLoop_metadata _ _).2.trans hptr

lemma popfileWriteToBuffer_totalBytes (s : POPFStream k) (value : List UInt8) :
    (popfileWriteToBuffer c s value).popfileTotalBytes = s.popfileTotalBytes + value.length := by
  refine (writeLoop_metadata _ _).1.trans ?_
  show s.applyFirstWritePointer.popfileTotalBytes + value.length = _
  unfold applyFirstWritePointer
  split <;> rfl

omit [NeZero k] in
/-- At the end of a session everything is in the strips. -/
lemma Holds.close (h : Holds c written s) (htotal : s.popfileTotalBytes = written.length) :
    Saved c written s.close := by
  have hflush : ∀ {b : POPFileBuffer}, 0 ∉ b.popfileBufferOut →
      b.popfileBufferOut.length + b.remainingCapacity = b.capacity →
      b.flush.1 = b.popfileBufferOut := by
    intro b hnul haccounts
    unfold POPFileBuffer.flush
    split
    · exact cStr_eq_self hnul
    · exact (List.length_eq_zero_iff.mp (by omega)).symm
  have hfresh : (ReadyBuffer.fresh c).1.flush.1 = [] :=
    hflush List.not_mem_nil (Nat.zero_add c)
  cases h with
  | writing pointer fills =>
      refine ⟨fun i => ?_, htotal, fills.current⟩
      rw [← fills.content i]
      by_cases hi : i = s.popfileCurrentOutputBuffer
      · subst hi
        exact congrArg _ (hflush fills.nulFree fills.accounts)
      · show s.strips i ++ (s.popfileWritebuffers i).1.flush.1 = _
        rw [fills.fresh i hi, hfresh]
        rfl
  | opened pointer content current fresh =>
      refine ⟨fun i => ?_, htotal, current⟩
      show s.strips i ++ (s.popfileWritebuffers i).1.flush.1 = _
      rw [fresh i, hfresh, content i, List.append_nil]

omit [NeZero k] in
lemma Saved.popfileTryOpenParallel (h : Saved c written f) :
    Holds c written (popfileTryOpenParallel c f) := by
  refine .opened ?_ h.content h.strip fun _ => rfl
  rw [← h.ending]
  rfl

lemma holds_create : Holds c [] (create c : POPFStream k) := by
  refine .writing rfl ⟨fun i => rfl, List.not_mem_nil, ?_, ?_, ?_, fun _ _ => rfl⟩
  · simp [create]
  · simp [create, ReadyBuffer.fresh]
  · simp [create, ReadyBuffer.fresh]

/-! ### What is lost -/

/-- How many bytes the strips and the buffers have. -/
def stored (s : POPFStream k) : ℕ :=
  ∑ i, ((s.strips i).length + (s.popfileWritebuffers i).1.popfileBufferOut.length)

omit [NeZero k] in
/-- A change at one strip. -/
lemma sum_add_le_of_eq_of_ne {f g : Fin k → ℕ} {j : Fin k} {a b : ℕ}
    (hne : ∀ i ≠ j, f i = g i) (hj : f j + a ≤ g j + b) : ∑ i, f i + a ≤ ∑ i, g i + b := by
  have hrest : ∑ i ∈ Finset.univ.erase j, f i = ∑ i ∈ Finset.univ.erase j, g i :=
    Finset.sum_congr rfl fun i hi => hne i (Finset.ne_of_mem_erase hi)
  rw [← Finset.add_sum_erase _ f (Finset.mem_univ j), ← Finset.add_sum_erase _ g
    (Finset.mem_univ j)]
  omega

lemma Fills.stored_eq (h : Fills c written s) : s.stored = written.length := by
  rw [stored, ← sum_length_strip (c := c) (Nat.pos_of_neZero k) written]
  exact Finset.sum_congr rfl fun i _ => by rw [← h.content i, List.length_append]

omit [NeZero k] in
lemma stored_bufferAdd_le (s : POPFStream k) (value : List UInt8) :
    (s.bufferAdd value).2.stored + unwritten (s.bufferAdd value).1 ≤
      s.stored + value.length := by
  refine sum_add_le_of_eq_of_ne (j := s.popfileCurrentOutputBuffer)
    (fun i hi => by simp [bufferAdd, hi]) ?_
  have hready := (s.popfileWritebuffers s.popfileCurrentOutputBuffer).2
  rcases Nat.lt_or_ge value.length
    (s.popfileWritebuffers s.popfileCurrentOutputBuffer).1.remainingCapacity with h | h
  · simp only [bufferAdd, Function.update_self, POPFileBuffer.bufferAdd_of_lt h,
      List.append_nil, List.length_append]
    simp [unwritten, Nat.add_assoc]
  · have hcut := length_cStr_le
      ((s.popfileWritebuffers s.popfileCurrentOutputBuffer).1.popfileBufferOut ++
        value.take (s.popfileWritebuffers s.popfileCurrentOutputBuffer).1.remainingCapacity)
    simp only [bufferAdd, Function.update_self, POPFileBuffer.bufferAdd_of_le hready h,
      List.length_append, List.length_nil, List.length_take_of_le h] at hcut ⊢
    have hrest : unwritten
        (if value.drop (s.popfileWritebuffers s.popfileCurrentOutputBuffer).1.remainingCapacity = []
          then fullWithoutRemaining
          else value.drop
            (s.popfileWritebuffers s.popfileCurrentOutputBuffer).1.remainingCapacity) ≤
        value.length -
          (s.popfileWritebuffers s.popfileCurrentOutputBuffer).1.remainingCapacity := by
      rw [← List.length_drop]
      by_cases hdrop :
          value.drop (s.popfileWritebuffers s.popfileCurrentOutputBuffer).1.remainingCapacity = []
      · rw [if_pos hdrop]
        exact Nat.zero_le _
      · rw [if_neg hdrop, unwritten]
        split_ifs <;> omega
    omega

omit [NeZero k] in
lemma stored_setCapacity (s : POPFStream k) (n : ℕ) (h : 0 < n) :
    (s.setCapacity n h).stored = s.stored := by
  refine Finset.sum_congr rfl fun i _ => ?_
  by_cases hi : i = s.popfileCurrentOutputBuffer
  · subst hi
    simp [setCapacity, POPFileBuffer.setCapacity]
  · simp [setCapacity, hi]

lemma stored_writeLoop_le (s : POPFStream k) (remaining : List UInt8) :
    (writeLoop c s remaining).stored ≤ s.stored + unwritten remaining := by
  induction s, remaining using @writeLoop_induction k _ c _ with
  | nil s =>
      rw [writeLoop_nil]
      exact Nat.le_add_right _ _
  | full s =>
      rw [writeLoop_full]
      exact (stored_setCapacity s c (Nat.pos_of_neZero c)).le
  | step s remaining hne hfull s' ih =>
      rw [writeLoop_of_ne hne hfull, unwritten, if_neg hfull]
      have hadd := stored_bufferAdd_le s' remaining
      have hcapacity : s'.stored = s.stored := stored_setCapacity s c (Nat.pos_of_neZero c)
      exact ih.trans (hcapacity ▸ hadd)

lemma stored_write_le (s : POPFStream k) (value : List UInt8) :
    (popfileWriteToBuffer c s value).stored ≤ s.stored + value.length := by
  have hfirst : s.applyFirstWritePointer.stored = s.stored := by
    unfold applyFirstWritePointer
    split
    · next h => exact stored_setCapacity s _ (Nat.pos_of_ne_zero h)
    · rfl
  rw [← hfirst]
  exact (stored_writeLoop_le _ _).trans (stored_bufferAdd_le
    { s.applyFirstWritePointer with
      popfileTotalBytes := s.applyFirstWritePointer.popfileTotalBytes + value.length } value)

omit [NeZero k] in
lemma stored_close_le (s : POPFStream k) : s.close.bytes ≤ s.stored := by
  refine Finset.sum_le_sum fun i _ => ?_
  show (s.strips i ++ (s.popfileWritebuffers i).1.flush.1).length ≤ _
  have hcut := length_cStr_le (s.popfileWritebuffers i).1.popfileBufferOut
  rw [List.length_append, POPFileBuffer.flush]
  split
  · exact Nat.add_le_add_left hcut _
  · exact Nat.le_add_right _ _

/-! ### Runs -/

/-- No value of a sequence of writes is confused with the full marker. -/
def NoneConfused (c : ℕ) : ℕ → List (List UInt8) → Prop
  | _, [] => True
  | position, value :: values =>
      ¬Confused c position value ∧ NoneConfused c (position + value.length) values

instance instDecidableNoneConfused (c : ℕ) :
    ∀ position values, Decidable (NoneConfused c position values)
  | _, [] => isTrue trivial
  | position, value :: values =>
      have := instDecidableNoneConfused c (position + value.length) values
      inferInstanceAs (Decidable (_ ∧ _))

omit [NeZero c] in
lemma noneConfused_append (values values' : List (List UInt8)) :
    ∀ position, NoneConfused c position (values ++ values') ↔
      NoneConfused c position values ∧
        NoneConfused c (position + values.flatten.length) values' := by
  induction values with
  | nil => intro position; exact (and_iff_right trivial).symm
  | cons value values ih =>
      intro position
      rw [List.cons_append, NoneConfused, NoneConfused, ih, List.flatten_cons,
        List.length_append, ← Nat.add_assoc, and_assoc]

lemma stored_writeAll_le (values : List (List UInt8)) :
    ∀ s : POPFStream k, (writeAll c s values).stored ≤ s.stored + values.flatten.length := by
  induction values with
  | nil => intro s; exact Nat.le_add_right _ _
  | cons value values ih =>
      intro s
      have hfirst := stored_write_le (c := c) s value
      have hrest := ih (popfileWriteToBuffer c s value)
      rw [List.flatten_cons, List.length_append]
      exact hrest.trans (by omega)

/-- In a session everything is dealt to the strips, or a value is confused and bytes are
missing. -/
lemma Holds.writeAll (values : List (List UInt8)) (hnul : ∀ value ∈ values, 0 ∉ value) :
    ∀ {s : POPFStream k} {written : List UInt8}, Holds c written s →
      s.popfileTotalBytes = written.length →
      (NoneConfused c written.length values ∧
          Holds c (written ++ values.flatten) (POPFStream.writeAll c s values) ∧
          (POPFStream.writeAll c s values).popfileTotalBytes =
            (written ++ values.flatten).length) ∨
        (¬NoneConfused c written.length values ∧
          (POPFStream.writeAll c s values).stored < written.length + values.flatten.length) := by
  induction values with
  | nil =>
      intro s written h htotal
      rw [List.flatten_nil, List.append_nil]
      exact .inl ⟨trivial, h, htotal⟩
  | cons value values ih =>
      intro s written h htotal
      obtain ⟨hfills, hptr⟩ := h.write (hnul value List.mem_cons_self)
      rw [List.flatten_cons, List.length_append, ← List.append_assoc]
      by_cases hconf : Confused c written.length value
      · right
        refine ⟨fun hnone => hnone.1 hconf, ?_⟩
        have hstored := hfills.stored_eq
        have hlong := hconf.1
        rw [arriving, if_pos hconf, List.length_append,
          List.length_take_of_le (by omega)] at hstored
        have hrest := stored_writeAll_le (c := c) values (popfileWriteToBuffer c s value)
        rw [List.length_append]
        exact hrest.trans_lt (by omega)
      · rw [arriving, if_neg hconf] at hfills
        have htotal' : (popfileWriteToBuffer c s value).popfileTotalBytes =
            (written ++ value).length := by
          rw [popfileWriteToBuffer_totalBytes, htotal, List.length_append]
        have hrest := ih (fun v hv => hnul v (List.mem_cons_of_mem _ hv)) (.writing hptr hfills)
          htotal'
        simp only [List.length_append] at hrest ⊢
        rw [← Nat.add_assoc]
        refine hrest.imp (fun hrest => ⟨⟨hconf, hrest.1⟩, hrest.2⟩)
          fun hrest => ⟨fun hnone => hrest.1 hnone.2, hrest.2⟩

lemma bytes_session_le (f : ParallelFile k) (values : List (List UInt8)) :
    (session c f values).bytes ≤ f.bytes + values.flatten.length := by
  have hopen : (popfileTryOpenParallel c f).stored = f.bytes :=
    Finset.sum_congr rfl fun i _ => Nat.add_zero _
  rw [← hopen]
  exact (stored_close_le _).trans (stored_writeAll_le values _)

/-- The outcome of a session after it has been closed. -/
lemma Holds.close_writeAll {values : List (List UInt8)} (hnul : ∀ value ∈ values, 0 ∉ value)
    (h : Holds c written s) (htotal : s.popfileTotalBytes = written.length) :
    (NoneConfused c written.length values ∧
        Saved c (written ++ values.flatten) (POPFStream.writeAll c s values).close) ∨
      (¬NoneConfused c written.length values ∧
        (POPFStream.writeAll c s values).close.bytes <
          written.length + values.flatten.length) := by
  rcases h.writeAll values hnul htotal with ⟨hnone, hholds, htotal'⟩ | ⟨hconf, hless⟩
  · exact .inl ⟨hnone, hholds.close htotal'⟩
  · exact .inr ⟨hconf, (stored_close_le _).trans_lt hless⟩

lemma bytes_foldl_session_le (later : List (List (List UInt8))) :
    ∀ f : ParallelFile k,
      (later.foldl (session c) f).bytes ≤ f.bytes + later.flatten.flatten.length := by
  induction later with
  | nil => intro f; exact Nat.le_add_right _ _
  | cons values later ih =>
      intro f
      have hfirst := bytes_session_le (c := c) f values
      rw [List.flatten_cons, List.flatten_append, List.length_append]
      exact (ih (session c f values)).trans (by omega)

lemma Saved.foldl_session (later : List (List (List UInt8)))
    (hnul : ∀ values ∈ later, ∀ value ∈ values, 0 ∉ value) :
    ∀ {f : ParallelFile k} {written : List UInt8}, Saved c written f →
      (NoneConfused c written.length later.flatten ∧
          Saved c (written ++ later.flatten.flatten) (later.foldl (session c) f)) ∨
        (¬NoneConfused c written.length later.flatten ∧
          (later.foldl (session c) f).bytes < written.length + later.flatten.flatten.length) := by
  induction later with
  | nil =>
      intro f written h
      rw [List.flatten_nil, List.flatten_nil, List.append_nil]
      exact .inl ⟨trivial, h⟩
  | cons values later ih =>
      intro f written h
      rw [List.flatten_cons, noneConfused_append, List.flatten_append, List.length_append,
        ← List.append_assoc, ← Nat.add_assoc]
      rcases h.popfileTryOpenParallel.close_writeAll (hnul values List.mem_cons_self) h.ending with
        ⟨hnone, hsaved⟩ | ⟨hconf, hless⟩
      · have hrest := ih (fun vs hvs => hnul vs (List.mem_cons_of_mem _ hvs)) hsaved
        simp only [List.length_append] at hrest
        exact hrest.imp (fun hrest => ⟨⟨hnone, hrest.1⟩, hrest.2⟩)
          fun hrest => ⟨fun hall => hrest.1 hall.2, hrest.2⟩
      · refine .inr ⟨fun hall => hconf hall.1, ?_⟩
        exact (bytes_foldl_session_le later (session c f values)).trans_lt
          (Nat.add_lt_add_right hless _)

/-- **Striped writing.**  After the last close, the strips have what was written, dealt in blocks
of `c` bytes, exactly if no value was confused with the full marker. -/
theorem history_striped_iff (c : ℕ) [NeZero c] (first : List (List UInt8))
    (later : List (List (List UInt8)))
    (hnul : ∀ values ∈ first :: later, ∀ value ∈ values, 0 ∉ value) :
    (history c first later : ParallelFile k).Striped c (first :: later).flatten.flatten ↔
      NoneConfused c 0 (first :: later).flatten := by
  have hcreate := holds_create.close_writeAll (c := c) (k := k)
    (hnul first List.mem_cons_self) rfl
  have hrest : ∀ values ∈ later, ∀ value ∈ values, 0 ∉ value :=
    fun values hvalues => hnul values (List.mem_cons_of_mem _ hvalues)
  have houtcome : (NoneConfused c 0 (first :: later).flatten ∧
        Saved c (first :: later).flatten.flatten (history c first later : ParallelFile k)) ∨
      (¬NoneConfused c 0 (first :: later).flatten ∧
        (history c first later : ParallelFile k).bytes <
          (first :: later).flatten.flatten.length) := by
    rw [List.flatten_cons, noneConfused_append, List.flatten_append, List.length_append]
    rcases hcreate with ⟨hnone, hsaved⟩ | ⟨hconf, hless⟩
    · exact (hsaved.foldl_session later hrest).imp
        (fun h => ⟨⟨hnone, by simpa using h.1⟩, h.2⟩)
        fun h => ⟨fun hall => h.1 (by simpa using hall.2), h.2⟩
    · refine .inr ⟨fun hall => hconf hall.1, ?_⟩
      rw [List.length_nil, Nat.zero_add] at hless
      exact (bytes_foldl_session_le later _).trans_lt (Nat.add_lt_add_right hless _)
  constructor
  · intro hstrips
    refine (houtcome.resolve_right fun ⟨_, hless⟩ => ?_).1
    rw [← sum_length_strip (c := c) (Nat.pos_of_neZero k)
      (first :: later).flatten.flatten] at hless
    exact hless.ne (Finset.sum_congr rfl fun i _ => congrArg List.length (hstrips i))
  · intro hnone
    exact (houtcome.resolve_right fun h => h.1 hnone).2.content

/-- Two strips with blocks of 4 bytes; the second session begins within a block. -/
theorem history_striped_iff_two :
    (history 4 [[70, 85, 76], [76, 70]] [[[85, 76, 76, 70, 85]], [], [[76, 76]]] :
      ParallelFile 2).Striped 4 [70, 85, 76, 76, 70, 85, 76, 76, 70, 85, 76, 76] :=
  (history_striped_iff 4 [[70, 85, 76], [76, 70]] [[[85, 76, 76, 70, 85]], [], [[76, 76]]]
    (by decide)).mpr (by decide)

/-- A value that fills a block and goes on with `FULL`. -/
def blockAndFull : List UInt8 := List.replicate 1024 120 ++ fullWithoutRemaining

/-- It is written to a new file of two strips with blocks of 1024 bytes, and its last four bytes
are in none of them. -/
theorem full_not_written :
    ¬(history 1024 [blockAndFull] [] : ParallelFile 2).Striped 1024 blockAndFull := by
  intro hstriped
  have hlen : blockAndFull.length = 1028 := by
    rw [blockAndFull, List.length_append, List.length_replicate]
    rfl
  have hconf : Confused 1024 0 blockAndFull := by
    rw [Confused, hlen]
    exact ⟨by decide, by decide, List.drop_left' List.length_replicate⟩
  have hnul : ∀ value ∈ [blockAndFull], 0 ∉ value := by
    intro value hvalue hmem
    rw [List.mem_singleton.mp hvalue, blockAndFull] at hmem
    rcases List.mem_append.mp hmem with hmem | hmem
    · exact absurd (List.eq_of_mem_replicate hmem) (by decide)
    · exact absurd hmem (by decide)
  rcases (holds_create (c := 1024) (k := 2)).close_writeAll hnul rfl with ⟨hnone, -⟩ | ⟨-, hless⟩
  · exact hnone.1 hconf
  · have hbytes :
        (history 1024 [blockAndFull] [] : ParallelFile 2).bytes = blockAndFull.length := by
      rw [← sum_length_strip (c := 1024) (k := 2) Nat.zero_lt_two blockAndFull]
      exact Finset.sum_congr rfl fun i _ => congrArg List.length (hstriped i)
    rw [List.flatten_singleton, List.length_nil, Nat.zero_add, ← hbytes] at hless
    exact hless.false

end Sessions

end POPFStream

end PopCpp.PopFile
