/-
# Reading a parallel file

`POPFStream::read_in_background` (`dev/popfile/popfile.cpp`) asks the readers of the strips for
blocks, and `get_read` collects from them what has been asked for; `read` is the one after the
other.  A `POPFileReader` (`popfilereader.cc`) appends what it reads to a string stream, from
which `buffer_get` takes it (`popfilebuffer.cpp`).  Its methods are `seq`: they run one after the
other, in the order of the calls.

A call that never returns and a call without defined behaviour have no result here.  The loops
have fuel, so that a read returns if there is a result for some amount of it.
-/
import PopCpp.Lib.CInt
import PopCpp.Lib.Stringstream
import PopCpp.PopFile.Write

namespace PopCpp.PopFile.Reading

open CInt Striping

/-! ### The reader of a strip -/

/-- `POPFileReader`, with its strip.  The constructor leaves `pt_read_locker` as it is in memory,
and `set_id` makes a semaphore of it only if it is null. -/
structure POPFileReader where
  popfileBufferIn : Stringstream UInt8
  capacity : ℕ
  strip : List UInt8
  lockerIsNull : Bool

/-- `POPFileManager::readFromStrip`.  The length of the strip is an `int`; a buffer that has not
been filled is not initialised. -/
def readFromStrip (strip : List UInt8) (start : ℤ) (offset : ℕ) : Option (List UInt8) :=
  if wrap strip.length ≤ start then some []
  else if 0 ≤ start ∧ start + offset ≤ strip.length then
    some (cStr ((strip.drop start.toNat).take offset))
  else none

/-- `add_data`. -/
def POPFileReader.addData (r : POPFileReader) (data : List UInt8) : POPFileReader :=
  { r with popfileBufferIn := r.popfileBufferIn.write (cStr data) }

/-- `read_in_strip`. -/
def POPFileReader.readInStrip (r : POPFileReader) (start : ℤ) (offset : ℕ) :
    Option POPFileReader := do
  let data ← readFromStrip r.strip start offset
  if r.lockerIsNull then some (r.addData data) else none

/-- `buffer_get`; without enough data it ends without a result. -/
def POPFileReader.bufferGet (r : POPFileReader) (size : ℕ) : Option (List UInt8 × POPFileReader) :=
  if r.popfileBufferIn.content.length < size then none
  else some (r.popfileBufferIn.content.take size,
    { r with popfileBufferIn := .str (r.popfileBufferIn.content.drop size) })

/-- `read_current_buffer`.  No call can add data while it waits for them. -/
def POPFileReader.readCurrentBuffer (r : POPFileReader) (size : ℤ) :
    Option (List UInt8 × POPFileReader) :=
  if r.popfileBufferIn.content.length < size then none
  else do
    let (data, r) ← r.bufferGet (if size ≠ -1 then size.toNat else r.capacity)
    some (cStr data, r)

/-! ### The stream -/

/-- The input side of a `POPFStream`. -/
structure POPFStream (k : ℕ) where
  popfileOffset : ℕ
  popfileCurrentReader : Fin k
  popfileCurrentReaderOffset : ℤ
  popfileInternalReadPointer : ℕ
  popfileCurrentGrip : ℕ
  popfileServedGrip : ℕ
  popfileReaderRef : Fin k → POPFileReader

/-- `POPFileGrip`. -/
structure POPFileGrip (k : ℕ) where
  size : ℕ
  firstReader : Fin k
  firstRead : ℕ
  order : ℕ

namespace POPFStream

variable {k : ℕ}

def setReader (s : POPFStream k) (i : Fin k) (r : POPFileReader) : POPFStream k :=
  { s with popfileReaderRef := Function.update s.popfileReaderRef i r }

/-- `read_in_strip` of the current reader. -/
def readInStrip (s : POPFStream k) (offset : ℕ) : Option (POPFStream k) := do
  let i := s.popfileCurrentReader
  let r ← (s.popfileReaderRef i).readInStrip s.popfileCurrentReaderOffset offset
  some (s.setReader i r)

/-- `read_current_buffer` of a reader. -/
def readCurrentBuffer (s : POPFStream k) (i : Fin k) (size : ℤ) :
    Option (List UInt8 × POPFStream k) := do
  let (data, r) ← (s.popfileReaderRef i).readCurrentBuffer size
  some (data, s.setReader i r)

variable [NeZero k]

/-- `get_next_reader`. -/
def getNextReader (s : POPFStream k) : POPFStream k :=
  { s with
    popfileCurrentReader := PopFile.POPFStream.nextStrip s.popfileCurrentReader
    popfileCurrentReaderOffset :=
      if (s.popfileCurrentReader.val + 1) % k = 0 then
        wrap (s.popfileCurrentReaderOffset + s.popfileOffset)
      else s.popfileCurrentReaderOffset }

/-- The loop of `read_in_background`, and what follows it. -/
def readLoop : ℕ → POPFStream k → POPFileGrip k → ℕ → Option (POPFileGrip k × POPFStream k)
  | 0, _, _, _ => none
  | fuel + 1, s, grip, size =>
      if s.popfileOffset ≤ size then
        if s.popfileInternalReadPointer ≠ 0 then do
          let pointer := s.popfileInternalReadPointer
          let s ← s.readInStrip pointer
          readLoop fuel { s with popfileInternalReadPointer := 0 }.getNextReader
            { grip with firstRead := pointer } (size - pointer)
        else do
          let s ← s.readInStrip s.popfileOffset
          readLoop fuel s.getNextReader grip (size - s.popfileOffset)
      else if 0 < size then do
        let s ← s.readInStrip size
        some (grip, { s with popfileInternalReadPointer := s.popfileOffset - size })
      else some (grip, s)

/-- `read_in_background`. -/
def readInBackground (fuel : ℕ) (s : POPFStream k) (size : ℕ) :
    Option (POPFileGrip k × POPFStream k) :=
  readLoop fuel { s with popfileCurrentGrip := s.popfileCurrentGrip + 1 }
    { size := size, firstReader := s.popfileCurrentReader, firstRead := 0,
      order := s.popfileCurrentGrip } size

/-- The loop of `get_read` from a reader on, and what follows it. -/
def getLoop : ℕ → POPFStream k → Fin k → ℕ → ℕ → Option (List UInt8 × POPFStream k)
  | 0, _, _, _, _ => none
  | fuel + 1, s, i, firstRead, size =>
      if s.popfileOffset < size then
        if firstRead ≠ 0 then do
          let (data, s) ← s.readCurrentBuffer i firstRead
          let (rest, s) ← getLoop fuel s (PopFile.POPFStream.nextStrip i) 0 (size - firstRead)
          some (data ++ rest, s)
        else do
          let (data, s) ← s.readCurrentBuffer i (-1)
          let (rest, s) ←
            getLoop fuel s (PopFile.POPFStream.nextStrip i) 0 (size - s.popfileOffset)
          some (data ++ rest, s)
      else if 0 < size then s.readCurrentBuffer i size
      else some ([], s)

/-- `get_read`. -/
def getRead (fuel : ℕ) (s : POPFStream k) (grip : POPFileGrip k) :
    Option (List UInt8 × POPFStream k) :=
  if grip.order ≠ s.popfileServedGrip then some ([], s)
  else do
    let (data, s) ←
      if s.popfileOffset < grip.size then getLoop fuel s grip.firstReader grip.firstRead grip.size
      else s.readCurrentBuffer grip.firstReader grip.size
    some (data, { s with popfileServedGrip := s.popfileServedGrip + 1 })

/-- A stream that has been opened, with `popfile_offset`, the blocks of the strips, the strips and
what is in the memory of the readers. -/
def opened (popfileOffset c : ℕ) (strips : Fin k → List UInt8) (null : Fin k → Bool) :
    POPFStream k where
  popfileOffset := popfileOffset
  popfileCurrentReader := ⟨0, Nat.pos_of_neZero k⟩
  popfileCurrentReaderOffset := 0
  popfileInternalReadPointer := 0
  popfileCurrentGrip := 0
  popfileServedGrip := 0
  popfileReaderRef i :=
    { popfileBufferIn := .str [], capacity := c, strip := strips i, lockerIsNull := null i }

end POPFStream

/-! ### Sequences of calls -/

/-- A call of a client; the grips are given to `get_read` in the order in which they came. -/
inductive Call where
  | readInBackground (size : ℕ)
  | getRead

/-- `read`. -/
def Call.read (size : ℕ) : List Call := [.readInBackground size, .getRead]

/-- The sizes of the reads, added up. -/
def total : List Call → ℕ
  | [] => 0
  | .readInBackground size :: calls => size + total calls
  | .getRead :: calls => total calls

/-- Every grip is given to `get_read`, after it has been returned. -/
def Balanced : ℕ → List Call → Prop
  | grips, [] => grips = 0
  | grips, .readInBackground _ :: calls => Balanced (grips + 1) calls
  | grips, .getRead :: calls => 0 < grips ∧ Balanced (grips - 1) calls

section Run

variable {k : ℕ} [NeZero k]

/-- The results of `get_read` in a sequence of calls. -/
def run (fuel : ℕ) : POPFStream k → List (POPFileGrip k) → List Call → Option (List (List UInt8))
  | _, _, [] => some []
  | s, grips, .readInBackground size :: calls => do
      let (grip, s) ← s.readInBackground fuel size
      run fuel s (grips ++ [grip]) calls
  | _, [], .getRead :: _ => none
  | s, grip :: grips, .getRead :: calls => do
      let (data, s) ← s.getRead fuel grip
      let results ← run fuel s grips calls
      some (data :: results)

/-- All calls return, and the results are the beginning of the file. -/
def ReadsRight (s : POPFStream k) (calls : List Call) (file : List UInt8) : Prop :=
  ∃ fuel results, run fuel s [] calls = some results ∧ results.flatten = file.take (total calls)

end Run

/-! ### What a call can do -/

namespace POPFStream

variable {k c : ℕ} {strips : Fin k → List UInt8} {null : Fin k → Bool} {s s' : POPFStream k}

/-- What a reader holds. -/
def held (s : POPFStream k) (i : Fin k) : List UInt8 :=
  (s.popfileReaderRef i).popfileBufferIn.content

/-- How much the readers hold. -/
def amount (s : POPFStream k) : ℕ := ∑ i, (s.held i).length

/-- What no call changes, and what every call keeps. -/
structure Setup (c : ℕ) (strips : Fin k → List UInt8) (null : Fin k → Bool)
    (s : POPFStream k) : Prop where
  offset : s.popfileOffset = c
  pointer : s.popfileInternalReadPointer < c
  capacity : ∀ i, (s.popfileReaderRef i).capacity = c
  strip : ∀ i, (s.popfileReaderRef i).strip = strips i
  locker : ∀ i, (s.popfileReaderRef i).lockerIsNull = null i
  nulFree : ∀ i, 0 ∉ s.held i

/-- The readers have been asked for `n` bytes: if they hold all of them, nothing that they held
has been overwritten. -/
structure Grows (n : ℕ) (s s' : POPFStream k) : Prop where
  le : s'.amount ≤ s.amount + n
  prefixes : s'.amount = s.amount + n → ∀ i, s.held i <+: s'.held i

lemma Grows.refl (s : POPFStream k) : Grows 0 s s := ⟨le_rfl, fun _ _ => List.prefix_rfl⟩

lemma Grows.trans {m n : ℕ} {t : POPFStream k} (h : Grows m s t) (h' : Grows n t s') :
    Grows (m + n) s s' := by
  have hle := h.le
  have hle' := h'.le
  refine ⟨by omega, fun heq i => ?_⟩
  exact (h.prefixes (by omega) i).trans (h'.prefixes (by omega) i)

lemma notMem_cStr (data : List UInt8) : 0 ∉ cStr data := by
  intro h
  have := List.mem_takeWhile_imp h
  simp at this

lemma length_le_of_readFromStrip {strip data : List UInt8} {start : ℤ} {n : ℕ}
    (h : readFromStrip strip start n = some data) : data.length ≤ n := by
  unfold readFromStrip at h
  split_ifs at h
  · cases h
    exact Nat.zero_le n
  · cases h
    exact (length_cStr_le _).trans (List.length_take_le _ _)

lemma popfileReaderRef_setReader (s : POPFStream k) (i : Fin k) (r : POPFileReader) (j : Fin k) :
    (s.setReader i r).popfileReaderRef j = if j = i then r else s.popfileReaderRef j :=
  Function.update_apply _ _ _ _

lemma held_setReader (s : POPFStream k) (i : Fin k) (r : POPFileReader) (j : Fin k) :
    (s.setReader i r).held j = if j = i then r.popfileBufferIn.content else s.held j := by
  rw [held, popfileReaderRef_setReader]
  split_ifs <;> rfl

lemma amount_setReader (s : POPFStream k) (i : Fin k) (r : POPFileReader) :
    (s.setReader i r).amount + (s.held i).length =
      s.amount + r.popfileBufferIn.content.length := by
  have hrest : ∑ j ∈ Finset.univ.erase i, ((s.setReader i r).held j).length =
      ∑ j ∈ Finset.univ.erase i, (s.held j).length :=
    Finset.sum_congr rfl fun j hj => by rw [held_setReader, if_neg (Finset.ne_of_mem_erase hj)]
  rw [amount, amount, ← Finset.add_sum_erase _ _ (Finset.mem_univ i), hrest, held_setReader,
    if_pos rfl, ← Finset.add_sum_erase _ (fun j => (s.held j).length) (Finset.mem_univ i)]
  omega

/-- A reader of which only the buffer has changed. -/
lemma Setup.setReader (h : Setup c strips null s) {i : Fin k} {r : POPFileReader}
    (hcapacity : r.capacity = (s.popfileReaderRef i).capacity)
    (hstrip : r.strip = (s.popfileReaderRef i).strip)
    (hlocker : r.lockerIsNull = (s.popfileReaderRef i).lockerIsNull)
    (hnul : 0 ∉ r.popfileBufferIn.content) : Setup c strips null (s.setReader i r) := by
  refine ⟨h.offset, h.pointer, fun j => ?_, fun j => ?_, fun j => ?_, fun j => ?_⟩
  · rw [popfileReaderRef_setReader]
    split_ifs with hj
    · rw [hcapacity, h.capacity]
    · exact h.capacity j
  · rw [popfileReaderRef_setReader]
    split_ifs with hj
    · rw [hstrip, h.strip, hj]
    · exact h.strip j
  · rw [popfileReaderRef_setReader]
    split_ifs with hj
    · rw [hlocker, h.locker, hj]
    · exact h.locker j
  · rw [held_setReader]
    split_ifs
    · exact hnul
    · exact h.nulFree j

/-- What a request does, if it returns. -/
lemma Setup.readInStrip (h : Setup c strips null s) {n : ℕ} (hs' : s.readInStrip n = some s') :
    ∃ data, readFromStrip (strips s.popfileCurrentReader) s.popfileCurrentReaderOffset n =
        some data ∧ null s.popfileCurrentReader = true ∧
      s' = s.setReader s.popfileCurrentReader
        ((s.popfileReaderRef s.popfileCurrentReader).addData data) := by
  obtain ⟨r, hr, hs'⟩ := Option.bind_eq_some_iff.mp hs'
  obtain ⟨data, hdata, hr⟩ := Option.bind_eq_some_iff.mp hr
  rw [h.strip] at hdata
  rw [h.locker] at hr
  split_ifs at hr with hnull
  cases hr
  cases hs'
  exact ⟨data, hdata, hnull, rfl⟩

lemma Setup.addData (h : Setup c strips null s) (i : Fin k) (data : List UInt8) :
    Setup c strips null (s.setReader i ((s.popfileReaderRef i).addData data)) := by
  refine h.setReader rfl rfl rfl fun hmem => ?_
  rcases Stringstream.mem_write hmem with hmem | hmem
  · exact h.nulFree i hmem
  · exact notMem_cStr data hmem

lemma grows_addData (s : POPFStream k) (i : Fin k) {data : List UInt8} {n : ℕ}
    (hdata : data.length ≤ n) :
    Grows n s (s.setReader i ((s.popfileReaderRef i).addData data)) := by
  have hamount := amount_setReader s i ((s.popfileReaderRef i).addData data)
  have hwrite := Stringstream.length_write_le (s.popfileReaderRef i).popfileBufferIn (cStr data)
  have hcut := length_cStr_le data
  have hheld : (s.held i).length = (s.popfileReaderRef i).popfileBufferIn.content.length := rfl
  have hadd : ((s.popfileReaderRef i).addData data).popfileBufferIn.content =
    ((s.popfileReaderRef i).popfileBufferIn.write (cStr data)).content := rfl
  rw [hadd] at hamount
  refine ⟨by omega, fun heq j => ?_⟩
  rw [held_setReader]
  split_ifs with hj
  · subst hj
    rw [hadd, Stringstream.write_of_length_eq (by omega)]
    exact List.prefix_append _ _
  · exact List.prefix_rfl

/-- A request after which the readers hold all that has been asked for: nothing is missing, and
nothing has been overwritten. -/
lemma Setup.readInStrip_full (h : Setup c strips null s) {n : ℕ}
    (hs' : s.readInStrip n = some s') (hamount : s.amount + n ≤ s'.amount) :
    ∃ data, readFromStrip (strips s.popfileCurrentReader) s.popfileCurrentReaderOffset n =
        some data ∧ data.length = n ∧
      (∀ i, s'.held i = s.held i ++ if i = s.popfileCurrentReader then data else []) ∧
      (0 < n → (s.popfileReaderRef s.popfileCurrentReader).popfileBufferIn.put =
        (s.held s.popfileCurrentReader).length) := by
  obtain ⟨data, hdata, -, rfl⟩ := h.readInStrip hs'
  have hwrite := Stringstream.length_write
    (s.popfileReaderRef s.popfileCurrentReader).popfileBufferIn (cStr data)
  have hput := (s.popfileReaderRef s.popfileCurrentReader).popfileBufferIn.put_le
  have hreader := amount_setReader s s.popfileCurrentReader
    ((s.popfileReaderRef s.popfileCurrentReader).addData data)
  have hadd : ((s.popfileReaderRef s.popfileCurrentReader).addData data).popfileBufferIn.content =
    ((s.popfileReaderRef s.popfileCurrentReader).popfileBufferIn.write (cStr data)).content := rfl
  have hheld : (s.held s.popfileCurrentReader).length =
    (s.popfileReaderRef s.popfileCurrentReader).popfileBufferIn.content.length := rfl
  have hread := length_le_of_readFromStrip hdata
  have hcut := length_cStr_le data
  rw [hadd] at hreader
  have hwhole : cStr data = data := (List.takeWhile_prefix _).eq_of_length (by
    show (cStr data).length = data.length
    omega)
  refine ⟨data, hdata, by omega, fun i => ?_, fun _ => by omega⟩
  rw [held_setReader]
  split_ifs with hi
  · rw [hadd, Stringstream.write_of_length_eq (by omega), hwhole, hi]
    rfl
  · rw [List.append_nil]

/-- How much of the block the loop asks for. -/
def blockRest (s : POPFStream k) : ℕ :=
  if s.popfileInternalReadPointer ≠ 0 then s.popfileInternalReadPointer else s.popfileOffset

/-- The grip after a turn of the loop. -/
def gripAfter (s : POPFStream k) (grip : POPFileGrip k) : POPFileGrip k :=
  if s.popfileInternalReadPointer ≠ 0 then
    { grip with firstRead := s.popfileInternalReadPointer }
  else grip

lemma readInStrip_frame {n : ℕ} (h : s.readInStrip n = some s') :
    ∃ r, s' = s.setReader s.popfileCurrentReader r := by
  obtain ⟨r, -, hs'⟩ := Option.bind_eq_some_iff.mp h
  exact ⟨r, (Option.some.inj hs').symm⟩

section Loop

variable [NeZero k] {grip grip' : POPFileGrip k}

/-- A turn of the loop of `read_in_background`. -/
lemma readLoop_of_le {fuel size : ℕ} (hsize : s.popfileOffset ≤ size) :
    readLoop (fuel + 1) s grip size =
      (s.readInStrip s.blockRest).bind fun t =>
        readLoop fuel { t with popfileInternalReadPointer := 0 }.getNextReader
          (s.gripAfter grip) (size - s.blockRest) := by
  rw [readLoop, if_pos hsize]
  by_cases hpointer : s.popfileInternalReadPointer ≠ 0
  · simp only [blockRest, gripAfter, if_pos hpointer]
    rfl
  · simp only [blockRest, gripAfter, if_neg hpointer]
    cases ht : s.readInStrip s.popfileOffset with
    | none => rfl
    | some t =>
        obtain ⟨r, rfl⟩ := readInStrip_frame ht
        -- the pointer is 0 already
        have hzero : { s.setReader s.popfileCurrentReader r with popfileInternalReadPointer := 0 } =
            s.setReader s.popfileCurrentReader r := by
          rw [← not_not.mp hpointer]
          rfl
        show readLoop fuel (s.setReader s.popfileCurrentReader r).getNextReader grip _ =
          readLoop fuel (POPFStream.getNextReader _) grip _
        rw [hzero]
        rfl

lemma readLoop_of_lt {fuel size : ℕ} (hsize : size < s.popfileOffset) (hpos : 0 < size) :
    readLoop (fuel + 1) s grip size =
      (s.readInStrip size).bind fun t =>
        some (grip, { t with popfileInternalReadPointer := t.popfileOffset - size }) := by
  rw [readLoop, if_neg hsize.not_ge, if_pos hpos]
  rfl

lemma readLoop_zero {fuel : ℕ} (hoffset : 0 < s.popfileOffset) :
    readLoop (fuel + 1) s grip 0 = some (grip, s) := by
  rw [readLoop, if_neg hoffset.not_ge, if_neg (Nat.lt_irrefl 0)]

/-- At the start of a block the first read of the grip is not set. -/
lemma readLoop_firstRead : ∀ {fuel : ℕ} {s : POPFStream k} {grip : POPFileGrip k} {n : ℕ},
    s.popfileInternalReadPointer = 0 → readLoop fuel s grip n = some (grip', s') →
      grip'.firstRead = grip.firstRead := by
  intro fuel
  induction fuel with
  | zero => intro s grip n _ h; cases h
  | succ fuel ih =>
      intro s grip n hpointer h
      rw [readLoop] at h
      split_ifs at h with hsize hne hpos
      · exact absurd hpointer hne
      · obtain ⟨t, ht, hrest⟩ := Option.bind_eq_some_iff.mp h
        obtain ⟨r, rfl⟩ := readInStrip_frame ht
        refine ih ?_ hrest
        exact hpointer
      · obtain ⟨t, -, hend⟩ := Option.bind_eq_some_iff.mp h
        cases hend
        rfl
      · cases h
        rfl

omit [NeZero k] in
lemma Setup.readInStrip_grows (h : Setup c strips null s) {n : ℕ}
    (hs' : s.readInStrip n = some s') : Setup c strips null s' ∧ Grows n s s' := by
  obtain ⟨data, hdata, -, rfl⟩ := h.readInStrip hs'
  exact ⟨h.addData _ data, grows_addData s _ (length_le_of_readFromStrip hdata)⟩

omit [NeZero k] in
lemma Setup.blockRest_pos (h : Setup c strips null s) : 0 < s.blockRest := by
  unfold blockRest
  split_ifs with hpointer
  · exact Nat.pos_of_ne_zero hpointer
  · rw [h.offset]
    exact (Nat.zero_le _).trans_lt h.pointer

omit [NeZero k] in
lemma Setup.blockRest_le (h : Setup c strips null s) : s.blockRest ≤ c := by
  unfold blockRest
  split_ifs
  · exact h.pointer.le
  · exact h.offset.le

lemma Setup.getNextReader (h : Setup c strips null s) :
    Setup c strips null { s with popfileInternalReadPointer := 0 }.getNextReader :=
  ⟨h.offset, (Nat.zero_le _).trans_lt h.pointer, h.capacity, h.strip, h.locker, h.nulFree⟩

/-- The readers have been asked for the bytes of a grip. -/
structure Asked (c : ℕ) (strips : Fin k → List UInt8) (null : Fin k → Bool) (n : ℕ)
    (s : POPFStream k) (grip : POPFileGrip k) (s' : POPFStream k) (grip' : POPFileGrip k) :
    Prop where
  setup : Setup c strips null s'
  grows : Grows n s s'
  size : grip'.size = grip.size
  firstReader : grip'.firstReader = grip.firstReader
  order : grip'.order = grip.order
  currentGrip : s'.popfileCurrentGrip = s.popfileCurrentGrip
  servedGrip : s'.popfileServedGrip = s.popfileServedGrip

/-- The first request for a grip, and the others. -/
lemma Setup.readLoop_first (h : Setup c strips null s) {fuel n : ℕ} (hn : 0 < n)
    (hs' : readLoop (fuel + 1) s grip n = some (grip', s'))
    (ih : ∀ {s : POPFStream k} {grip : POPFileGrip k} {n : ℕ}, Setup c strips null s →
      readLoop fuel s grip n = some (grip', s') → Asked c strips null n s grip s' grip') :
    ∃ t, s.readInStrip (if c ≤ n then s.blockRest else n) = some t ∧
      Asked c strips null (n - if c ≤ n then s.blockRest else n) t grip s' grip' := by
  rcases Nat.lt_or_ge n c with hlt | hle
  · rw [if_neg hlt.not_ge, Nat.sub_self]
    rw [readLoop_of_lt (by rwa [h.offset]) hn] at hs'
    obtain ⟨t, ht, hend⟩ := Option.bind_eq_some_iff.mp hs'
    cases hend
    obtain ⟨hsetup, -⟩ := h.readInStrip_grows ht
    refine ⟨t, ht, ⟨⟨hsetup.offset, ?_, hsetup.capacity, hsetup.strip, hsetup.locker,
      hsetup.nulFree⟩, ⟨le_rfl, fun _ _ => List.prefix_rfl⟩, rfl, rfl, rfl, rfl, rfl⟩⟩
    show t.popfileOffset - n < c
    rw [hsetup.offset]
    omega
  · rw [if_pos hle]
    rw [readLoop_of_le (by rwa [h.offset])] at hs'
    obtain ⟨t, ht, hend⟩ := Option.bind_eq_some_iff.mp hs'
    obtain ⟨hsetup, -⟩ := h.readInStrip_grows ht
    have hasked := ih hsetup.getNextReader hend
    refine ⟨t, ht, ⟨hasked.setup, ⟨hasked.grows.le, hasked.grows.prefixes⟩, ?_, ?_, ?_,
      hasked.currentGrip, hasked.servedGrip⟩⟩
    · rw [hasked.size, gripAfter]
      split_ifs <;> rfl
    · rw [hasked.firstReader, gripAfter]
      split_ifs <;> rfl
    · rw [hasked.order, gripAfter]
      split_ifs <;> rfl

lemma Setup.readLoop_asked : ∀ {fuel : ℕ} {s : POPFStream k} {grip : POPFileGrip k} {n : ℕ},
    Setup c strips null s → readLoop fuel s grip n = some (grip', s') →
      Asked c strips null n s grip s' grip' := by
  intro fuel
  induction fuel with
  | zero => intro s grip n _ hs'; cases hs'
  | succ fuel ih =>
      intro s grip n h hs'
      rcases Nat.eq_zero_or_pos n with rfl | hn
      · rw [readLoop_zero (by rw [h.offset]; exact (Nat.zero_le _).trans_lt h.pointer)] at hs'
        cases hs'
        exact ⟨h, .refl _, rfl, rfl, rfl, rfl, rfl⟩
      · obtain ⟨t, ht, hasked⟩ := h.readLoop_first hn hs' ih
        have hframe := readInStrip_frame ht
        obtain ⟨-, hgrows⟩ := h.readInStrip_grows ht
        have hle := h.blockRest_le
        have hsum : (if c ≤ n then s.blockRest else n) +
            (n - if c ≤ n then s.blockRest else n) = n := by
          split_ifs <;> omega
        refine ⟨hasked.setup, hsum ▸ hgrows.trans hasked.grows, hasked.size, hasked.firstReader,
          hasked.order, ?_, ?_⟩
        · obtain ⟨r, rfl⟩ := hframe
          exact hasked.currentGrip
        · obtain ⟨r, rfl⟩ := hframe
          exact hasked.servedGrip

/-! ### What is collected -/

/-- The reader gives away the first bytes that it holds. -/
def dropHeld (s : POPFStream k) (i : Fin k) (n : ℕ) : POPFStream k :=
  s.setReader i { s.popfileReaderRef i with popfileBufferIn := .str ((s.held i).drop n) }

omit [NeZero k] in
lemma held_dropHeld (s : POPFStream k) (i : Fin k) (n : ℕ) (j : Fin k) :
    (s.dropHeld i n).held j = if j = i then (s.held i).drop n else s.held j :=
  held_setReader _ _ _ _

omit [NeZero k] in
lemma amount_dropHeld {i : Fin k} {n : ℕ} (hn : n ≤ (s.held i).length) :
    (s.dropHeld i n).amount + n = s.amount := by
  have hamount := amount_setReader s i
    { s.popfileReaderRef i with popfileBufferIn := .str ((s.held i).drop n) }
  have hdrop : ((s.held i).drop n).length = (s.held i).length - n := List.length_drop
  rw [dropHeld]
  simp only [Stringstream.str] at hamount ⊢
  omega

omit [NeZero k] in
lemma Setup.dropHeld (h : Setup c strips null s) (i : Fin k) (n : ℕ) :
    Setup c strips null (s.dropHeld i n) :=
  h.setReader rfl rfl rfl fun hmem => h.nulFree i (List.mem_of_mem_drop hmem)

omit [NeZero k] in
/-- `read_current_buffer` returns if the reader holds enough. -/
lemma Setup.readCurrentBuffer_eq (h : Setup c strips null s) (i : Fin k) {size : ℤ} {n : ℕ}
    (hsize : size = n ∨ size = -1 ∧ n = c) :
    s.readCurrentBuffer i size =
      if (s.held i).length < n then none else some ((s.held i).take n, s.dropHeld i n) := by
  have hcut : cStr ((s.held i).take n) = (s.held i).take n :=
    cStr_eq_self fun hmem => h.nulFree i (List.mem_of_mem_take hmem)
  have hget : (if size ≠ -1 then size.toNat else (s.popfileReaderRef i).capacity) = n := by
    rw [h.capacity]
    split_ifs <;> omega
  have hwait : ((s.popfileReaderRef i).popfileBufferIn.content.length : ℤ) < size →
      (s.held i).length < n := by
    intro hlt
    have hheld : (s.held i).length = (s.popfileReaderRef i).popfileBufferIn.content.length := rfl
    omega
  rw [POPFStream.readCurrentBuffer, POPFileReader.readCurrentBuffer, hget,
    POPFileReader.bufferGet]
  change (_ : Option _) = _
  by_cases hlt : (s.held i).length < n
  · have hlt' : (s.popfileReaderRef i).popfileBufferIn.content.length < n := hlt
    rw [if_pos hlt, if_pos hlt']
    split_ifs <;> rfl
  · have hlt' : ¬(s.popfileReaderRef i).popfileBufferIn.content.length < n := hlt
    rw [if_neg hlt, if_neg (fun hw => hlt (hwait hw)), if_neg hlt']
    show some (cStr ((s.held i).take n), s.dropHeld i n) = _
    rw [hcut]

/-- A turn of the loop of `get_read`. -/
lemma Setup.getLoop_of_lt (h : Setup c strips null s) {fuel : ℕ} {i : Fin k} {firstRead size : ℕ}
    (hsize : c < size) :
    getLoop (fuel + 1) s i firstRead size =
      if (s.held i).length < (if firstRead ≠ 0 then firstRead else c) then none
      else
        (getLoop fuel (s.dropHeld i (if firstRead ≠ 0 then firstRead else c))
          (PopFile.POPFStream.nextStrip i) 0
          (size - if firstRead ≠ 0 then firstRead else c)).map fun r =>
            ((s.held i).take (if firstRead ≠ 0 then firstRead else c) ++ r.1, r.2) := by
  rw [getLoop, if_pos (by rwa [h.offset])]
  by_cases hfirst : firstRead ≠ 0
  · simp only [if_pos hfirst, h.readCurrentBuffer_eq i (.inl rfl)]
    split_ifs
    · rfl
    · rw [Option.bind_eq_bind, Option.bind_some]
      cases getLoop fuel (s.dropHeld i firstRead) (PopFile.POPFStream.nextStrip i) 0
        (size - firstRead) <;> rfl
  · have hoffset : (s.dropHeld i c).popfileOffset = c := h.offset
    simp only [if_neg hfirst, h.readCurrentBuffer_eq i (.inr ⟨rfl, rfl⟩)]
    split_ifs
    · rfl
    · rw [Option.bind_eq_bind, Option.bind_some, hoffset]
      cases getLoop fuel (s.dropHeld i c) (PopFile.POPFStream.nextStrip i) 0 (size - c) <;> rfl

/-- The end of the loop of `get_read`. -/
lemma Setup.getLoop_of_le (h : Setup c strips null s) {fuel : ℕ} {i : Fin k} {firstRead size : ℕ}
    (hsize : size ≤ c) (hpos : 0 < size) :
    getLoop (fuel + 1) s i firstRead size =
      if (s.held i).length < size then none
      else some ((s.held i).take size, s.dropHeld i size) := by
  rw [getLoop, if_neg (by rw [h.offset]; exact hsize.not_gt), if_pos hpos,
    h.readCurrentBuffer_eq i (.inl rfl)]

/-- The bytes of a grip have been collected. -/
structure Collected (c : ℕ) (strips : Fin k → List UInt8) (null : Fin k → Bool) (n : ℕ)
    (s s' : POPFStream k) : Prop where
  setup : Setup c strips null s'
  le : s'.amount + n ≤ s.amount
  frame : s' = { s with popfileReaderRef := s'.popfileReaderRef }

omit [NeZero k] in
lemma Setup.dropHeld_collected (h : Setup c strips null s) {i : Fin k} {n : ℕ}
    (hn : ¬(s.held i).length < n) : Collected c strips null n s (s.dropHeld i n) :=
  ⟨h.dropHeld i n, (amount_dropHeld (not_lt.mp hn)).le, rfl⟩

lemma Setup.getLoop_collected : ∀ {fuel : ℕ} {s s' : POPFStream k} {i : Fin k}
    {firstRead size : ℕ} {data : List UInt8}, Setup c strips null s →
      getLoop fuel s i firstRead size = some (data, s') → Collected c strips null size s s' := by
  intro fuel
  induction fuel with
  | zero => intro s s' i firstRead size data _ hget; cases hget
  | succ fuel ih =>
      intro s s' i firstRead size data h hget
      rcases Nat.lt_or_ge c size with hlt | hle
      · rw [h.getLoop_of_lt hlt] at hget
        generalize (if firstRead ≠ 0 then firstRead else c) = n at hget
        split_ifs at hget with henough
        obtain ⟨⟨rest, t⟩, hrest, heq⟩ := Option.map_eq_some_iff.mp hget
        cases heq
        have hfirst := h.dropHeld_collected henough
        have hcollected := ih hfirst.setup hrest
        have hle := hfirst.le
        have hle' : t.amount + (size - n) ≤ (s.dropHeld i n).amount := hcollected.le
        have htotal : t.amount + size ≤ s.amount := by omega
        exact ⟨hcollected.setup, htotal, hcollected.frame⟩
      rcases Nat.eq_zero_or_pos size with rfl | hpos
      · rw [getLoop, if_neg (Nat.not_lt_zero _), if_neg (Nat.lt_irrefl 0)] at hget
        cases hget
        exact ⟨h, le_rfl, rfl⟩
      · rw [h.getLoop_of_le hle hpos] at hget
        split_ifs at hget with henough
        cases hget
        exact h.dropHeld_collected henough

/-- `get_read` of the grip whose turn it is. -/
lemma Setup.getRead_eq (h : Setup c strips null s) {fuel : ℕ}
    (hturn : grip.order = s.popfileServedGrip) :
    s.getRead fuel grip =
      (if c < grip.size then getLoop fuel s grip.firstReader grip.firstRead grip.size
        else if (s.held grip.firstReader).length < grip.size then none
        else some ((s.held grip.firstReader).take grip.size,
          s.dropHeld grip.firstReader grip.size)).map fun r =>
        (r.1, { r.2 with popfileServedGrip := r.2.popfileServedGrip + 1 }) := by
  rw [getRead, if_neg (not_not.mpr hturn), h.offset]
  by_cases hlt : c < grip.size
  · simp only [if_pos hlt]
    cases getLoop fuel s grip.firstReader grip.firstRead grip.size <;> rfl
  · simp only [if_neg hlt, h.readCurrentBuffer_eq grip.firstReader (.inl rfl)]
    split_ifs <;> rfl

lemma Setup.getRead_collected (h : Setup c strips null s) {fuel : ℕ} {data : List UInt8}
    (hturn : grip.order = s.popfileServedGrip) (hget : s.getRead fuel grip = some (data, s')) :
    Setup c strips null s' ∧ s'.amount + grip.size ≤ s.amount ∧
      s' = { s with
        popfileReaderRef := s'.popfileReaderRef
        popfileServedGrip := s.popfileServedGrip + 1 } := by
  rw [h.getRead_eq hturn] at hget
  obtain ⟨⟨data', t⟩, ht, heq⟩ := Option.map_eq_some_iff.mp hget
  cases heq
  have hcollected : Collected c strips null grip.size s t := by
    split_ifs at ht with hlt henough
    · exact h.getLoop_collected ht
    · cases ht
      exact h.dropHeld_collected henough
  obtain ⟨hsetup, hle, hframe⟩ := hcollected
  refine ⟨⟨hsetup.offset, hsetup.pointer, hsetup.capacity, hsetup.strip, hsetup.locker,
    hsetup.nulFree⟩, hle, ?_⟩
  rw [hframe]

end Loop

/-! ### What is owed to the client -/

section Owed

variable [NeZero k] {grip : POPFileGrip k} {grips : List (POPFileGrip k)}

/-- The client has the grips from the one whose turn it is to the last one. -/
structure Queued (c : ℕ) (strips : Fin k → List UInt8) (null : Fin k → Bool)
    (s : POPFStream k) (grips : List (POPFileGrip k)) : Prop where
  setup : Setup c strips null s
  orders : grips.map POPFileGrip.order = List.range' s.popfileServedGrip grips.length
  current : s.popfileCurrentGrip = s.popfileServedGrip + grips.length

/-- How much the client can ask for. -/
def owed (grips : List (POPFileGrip k)) : ℕ := (grips.map POPFileGrip.size).sum

lemma Queued.readInBackground (h : Queued c strips null s grips) {fuel n : ℕ}
    (hs' : s.readInBackground fuel n = some (grip, s')) :
    Queued c strips null s' (grips ++ [grip]) ∧ Grows n s s' ∧ grip.size = n ∧
      grip.firstReader = s.popfileCurrentReader := by
  have hsetup : Setup c strips null { s with popfileCurrentGrip := s.popfileCurrentGrip + 1 } :=
    ⟨h.setup.offset, h.setup.pointer, h.setup.capacity, h.setup.strip, h.setup.locker,
      h.setup.nulFree⟩
  have hasked := hsetup.readLoop_asked hs'
  refine ⟨⟨hasked.setup, ?_, ?_⟩, ⟨hasked.grows.le, hasked.grows.prefixes⟩, hasked.size,
    hasked.firstReader⟩
  · rw [List.map_append, h.orders, hasked.servedGrip, List.length_append, List.length_singleton,
      List.range'_concat, List.map_singleton, hasked.order, Nat.one_mul, h.current]
  · rw [hasked.currentGrip, hasked.servedGrip, List.length_append, List.length_singleton,
      ← Nat.add_assoc, ← h.current]

omit [NeZero k] in
lemma Queued.orders_cons (h : Queued c strips null s (grip :: grips)) :
    grip.order = s.popfileServedGrip ∧
      grips.map POPFileGrip.order = List.range' (s.popfileServedGrip + 1) grips.length := by
  have horders := h.orders
  rw [List.map_cons, List.length_cons, List.range'_succ] at horders
  exact List.cons.inj horders

lemma Queued.getRead (h : Queued c strips null s (grip :: grips)) {fuel : ℕ} {data : List UInt8}
    (hs' : s.getRead fuel grip = some (data, s')) :
    Queued c strips null s' grips ∧ s'.amount + grip.size ≤ s.amount := by
  obtain ⟨hturn, hrest⟩ := h.orders_cons
  obtain ⟨hsetup, hle, hframe⟩ := h.setup.getRead_collected hturn hs'
  have hserved : s'.popfileServedGrip = s.popfileServedGrip + 1 := by rw [hframe]
  have hcurrent : s'.popfileCurrentGrip = s.popfileCurrentGrip := by rw [hframe]
  refine ⟨⟨hsetup, ?_, ?_⟩, hle⟩
  · rw [hrest, hserved]
  · rw [hcurrent, h.current, hserved, List.length_cons]
    omega

/-- If all calls return, the readers hold what is owed. -/
lemma Queued.owed_le {fuel : ℕ} (calls : List Call) :
    ∀ {s : POPFStream k} {grips : List (POPFileGrip k)} {results : List (List UInt8)},
      Queued c strips null s grips → Balanced grips.length calls →
      run fuel s grips calls = some results → owed grips ≤ s.amount := by
  induction calls with
  | nil =>
      intro s grips results _ hbalanced _
      obtain rfl := List.length_eq_zero_iff.mp hbalanced
      exact Nat.zero_le _
  | cons call calls ih =>
      intro s grips results h hbalanced hrun
      cases call with
      | readInBackground n =>
          obtain ⟨⟨grip, t⟩, ht, hrest⟩ := Option.bind_eq_some_iff.mp hrun
          obtain ⟨hqueued, hgrows, hsize, -⟩ := h.readInBackground ht
          have hle := ih hqueued (by rw [List.length_append]; exact hbalanced) hrest
          have hamount := hgrows.le
          rw [owed, List.map_append, List.sum_append, List.map_singleton, List.sum_singleton,
            hsize] at hle
          rw [owed]
          omega
      | getRead =>
          cases grips with
          | nil => cases hrun
          | cons grip grips =>
              obtain ⟨⟨data, t⟩, ht, hrest⟩ := Option.bind_eq_some_iff.mp hrun
              obtain ⟨results', hresults, -⟩ := Option.bind_eq_some_iff.mp hrest
              obtain ⟨hqueued, hle⟩ := h.getRead ht
              have hrestle := ih hqueued hbalanced.2 hresults
              rw [owed, List.map_cons, List.sum_cons]
              rw [owed] at hrestle
              omega

/-! ### More fuel -/

lemma readLoop_succ {result : POPFileGrip k × POPFStream k} : ∀ {fuel : ℕ} {s : POPFStream k}
    {grip : POPFileGrip k} {n : ℕ}, readLoop fuel s grip n = some result →
      readLoop (fuel + 1) s grip n = some result := by
  intro fuel
  induction fuel with
  | zero => intro s grip n h; cases h
  | succ fuel ih =>
      intro s grip n h
      rw [readLoop] at h ⊢
      split_ifs at h ⊢ with hsize hpointer
      · obtain ⟨t, ht, hrest⟩ := Option.bind_eq_some_iff.mp h
        exact Option.bind_eq_some_iff.mpr ⟨t, ht, ih hrest⟩
      · obtain ⟨t, ht, hrest⟩ := Option.bind_eq_some_iff.mp h
        exact Option.bind_eq_some_iff.mpr ⟨t, ht, ih hrest⟩
      · exact h
      · exact h

lemma getLoop_succ : ∀ {fuel : ℕ} {s : POPFStream k} {i : Fin k} {firstRead n : ℕ}
    {result : List UInt8 × POPFStream k}, getLoop fuel s i firstRead n = some result →
      getLoop (fuel + 1) s i firstRead n = some result := by
  intro fuel
  induction fuel with
  | zero => intro s i firstRead n result h; cases h
  | succ fuel ih =>
      intro s i firstRead n result h
      rw [getLoop] at h ⊢
      split_ifs at h ⊢ with hsize hfirst
      · obtain ⟨⟨data, t⟩, ht, hrest⟩ := Option.bind_eq_some_iff.mp h
        obtain ⟨⟨rest, u⟩, hu, hend⟩ := Option.bind_eq_some_iff.mp hrest
        exact Option.bind_eq_some_iff.mpr ⟨_, ht, Option.bind_eq_some_iff.mpr ⟨_, ih hu, hend⟩⟩
      · obtain ⟨⟨data, t⟩, ht, hrest⟩ := Option.bind_eq_some_iff.mp h
        obtain ⟨⟨rest, u⟩, hu, hend⟩ := Option.bind_eq_some_iff.mp hrest
        exact Option.bind_eq_some_iff.mpr ⟨_, ht, Option.bind_eq_some_iff.mpr ⟨_, ih hu, hend⟩⟩
      · exact h
      · exact h

lemma getRead_succ {fuel : ℕ} {result : List UInt8 × POPFStream k}
    (h : s.getRead fuel grip = some result) : s.getRead (fuel + 1) grip = some result := by
  rw [getRead] at h ⊢
  split_ifs at h ⊢
  · exact h
  · obtain ⟨r, hr, hend⟩ := Option.bind_eq_some_iff.mp h
    exact Option.bind_eq_some_iff.mpr ⟨r, getLoop_succ hr, hend⟩
  · exact h

lemma run_succ {fuel : ℕ} (calls : List Call) : ∀ {s : POPFStream k}
    {grips : List (POPFileGrip k)} {results : List (List UInt8)},
      run fuel s grips calls = some results → run (fuel + 1) s grips calls = some results := by
  induction calls with
  | nil => intro s grips results h; exact h
  | cons call calls ih =>
      intro s grips results h
      cases call with
      | readInBackground n =>
          obtain ⟨r, hr, hrest⟩ := Option.bind_eq_some_iff.mp h
          exact Option.bind_eq_some_iff.mpr ⟨r, readLoop_succ hr, ih hrest⟩
      | getRead =>
          cases grips with
          | nil => cases h
          | cons grip grips =>
              obtain ⟨r, hr, hrest⟩ := Option.bind_eq_some_iff.mp h
              obtain ⟨results', hresults, hend⟩ := Option.bind_eq_some_iff.mp hrest
              exact Option.bind_eq_some_iff.mpr ⟨r, getRead_succ hr,
                Option.bind_eq_some_iff.mpr ⟨results', ih hresults, hend⟩⟩

/-- A sequence of calls that returns does so with any greater amount of fuel. -/
lemma run_of_le {fuel fuel' : ℕ} (hle : fuel ≤ fuel') {calls : List Call}
    {results : List (List UInt8)} (h : run fuel s grips calls = some results) :
    run fuel' s grips calls = some results := by
  induction hle with
  | refl => exact h
  | step _ ih => exact run_succ calls ih

end Owed

end POPFStream

end PopCpp.PopFile.Reading
