/-
# What is written to a parallel file is read from it

The sessions that write a file and the reads of a client that opens it later meet only in the
strips.  A client that reads whole blocks, and any number of bytes at the end, gets the bytes
that the sessions have written, however these were cut into writes and sessions: no byte is
lost, doubled or moved on its way through the buffers, the strips and the readers.

`gather` copies the file block by block.  It gets all of it if `open` has found the file, and does
nothing on a stream that has made it, which counts as not open: its metadata have not been loaded.
-/
import PopCpp.PopFile.Misread
import PopCpp.PopFile.Seek

namespace PopCpp.PopFile.Reading

open CInt Striping

variable {k c : ℕ} [NeZero k]

/-! ### Reads of whole blocks -/

/-- Every byte of a file that is not too long can be read. -/
lemma servable_of_lt (hc : 0 < c) {length p : ℕ} (hp : p < length) (hlength : length < 2 ^ 31) :
    Servable k c length p := by
  -- the place of the byte in its strip, in a file of that length
  have hbyte := getElem?_strip_placeInStrip (Nat.pos_of_neZero k) hc p (List.replicate length 0)
  rw [List.getElem?_replicate, if_pos hp] at hbyte
  have hplace := (List.getElem?_eq_some_iff.mp hbyte).1
  have hsame : (strip k c (p / c % k) (List.replicate length (0 : UInt8))).length =
      (strip k c (turn k c p) (List.replicate length ())).length :=
    length_stripFrom_congr (by rw [List.length_replicate, List.length_replicate])
  have hshort : (strip k c (turn k c p) (List.replicate length ())).length ≤ length := by
    have hsub := (stripFrom_sublist (k := k) (c := c) (i := (turn k c p).val)
      (List.replicate length ()) 0).length_le
    rwa [List.length_replicate] at hsub
  rw [Servable, wrap_natCast (hshort.trans_lt hlength), Nat.cast_lt, ← hsame]
  rw [placeInStrip, ← Nat.div_div_eq_div_mul] at hplace
  exact (Nat.le_add_right _ _).trans_lt hplace

/-- Everything that has been asked for has been collected. -/
def Window.Idle (w : Window k) : Prop := w.collected = w.issued ∧ w.pending = []

lemma Window.Idle.not_holds {w : Window k} (h : w.Idle) (i : Fin k) : ¬w.Holds c i := by
  rintro ⟨p, hp, -⟩
  obtain ⟨hle, hlt⟩ := List.mem_range'_1.mp hp
  have := h.1
  omega

/-- A read leaves nothing to collect. -/
lemma Window.Idle.read {w : Window k} (h : w.Idle) (n : ℕ) :
    ((w.issue c n).collect c).Idle ∧ ((w.issue c n).collect c).issued = w.issued + n := by
  have hpending : (w.issue c n).pending = [n] := by
    show w.pending ++ [n] = [n]
    rw [h.2, List.nil_append]
  have hcollect : (w.issue c n).collect c =
      { collected := w.collected + n
        issued := w.issued + n
        pending := []
        given := fun i => (w.issue c n).given i ||
          decide (∃ p ∈ List.range' w.collected (max n 1), turn k c p = i) } := by
    rw [Window.collect, hpending]
    rfl
  rw [hcollect]
  exact ⟨⟨congrArg (· + n) h.1, rfl⟩, rfl⟩

/-- The reads of a client. -/
def reads (sizes : List ℕ) : List Call := sizes.flatMap Call.read

lemma reads_cons (n : ℕ) (sizes : List ℕ) :
    reads (n :: sizes) = .readInBackground n :: .getRead :: reads sizes := by
  rw [reads, List.flatMap_cons]
  rfl

lemma total_reads (sizes : List ℕ) : total (reads sizes) = sizes.sum := by
  induction sizes with
  | nil => rfl
  | cons n sizes ih =>
      rw [reads_cons, List.sum_cons, ← ih]
      rfl

lemma balanced_reads (sizes : List ℕ) : Balanced 0 (reads sizes) := by
  induction sizes with
  | nil => rfl
  | cons n sizes ih =>
      rw [reads_cons]
      exact ⟨Nat.one_pos, ih⟩

/-- A client that reads whole blocks can ask for every byte when it is its turn. -/
lemma allowed_reads (hc : 0 < c) {length : ℕ} (hlength : length < 2 ^ 31) {null : Fin k → Bool}
    (hnull : ∀ i, null i = true) (sizes : List ℕ) (last : ℕ) (hsizes : ∀ n ∈ sizes, c ∣ n) :
    ∀ {w : Window k}, w.Idle → c ∣ w.issued → w.issued + (sizes ++ [last]).sum ≤ length →
      Allowed c length null w (reads (sizes ++ [last])) := by
  have hallows : ∀ {w : Window k} {n : ℕ}, w.Idle → c ∣ w.issued → w.issued + n ≤ length →
      ∀ p ∈ List.range' w.issued n, w.Allows c length null p := by
    intro w n hidle haligned hle p hp
    obtain ⟨-, hlt⟩ := List.mem_range'_1.mp hp
    exact ⟨haligned, servable_of_lt hc (by omega) hlength, hnull _,
      fun hheld => hidle.not_holds _ hheld.2⟩
  induction sizes with
  | nil =>
      intro w hidle haligned hle
      rw [List.nil_append, reads_cons]
      exact ⟨hallows hidle haligned (by simpa using hle), trivial⟩
  | cons n sizes ih =>
      intro w hidle haligned hle
      rw [List.cons_append, List.sum_cons] at hle
      obtain ⟨hidle', hissued⟩ := hidle.read (c := c) n
      rw [List.cons_append, reads_cons]
      refine ⟨hallows hidle haligned (by omega), ?_⟩
      refine ih (fun m hm => hsizes m (List.mem_cons_of_mem _ hm)) hidle' ?_ ?_
      · rw [hissued]
        exact haligned.add (hsizes n List.mem_cons_self)
      · rw [hissued]
        omega

/-! ### Writing and reading -/

open PopFile.POPFStream in
/-- After the last close the strips have what was written, and the metadata know how much it is. -/
lemma saved_history [NeZero c] {first : List (List UInt8)} {later : List (List (List UInt8))}
    (hnul : ∀ values ∈ first :: later, ∀ value ∈ values, 0 ∉ value)
    (hnone : NoneConfused c 0 (first :: later).flatten) :
    Saved c (first :: later).flatten.flatten (history c first later : ParallelFile k) := by
  rw [List.flatten_cons, noneConfused_append, Nat.zero_add] at hnone
  have hcreate := holds_create.close_writeAll (c := c) (k := k) (hnul first List.mem_cons_self) rfl
  rw [List.nil_append] at hcreate
  have hsaved := (hcreate.resolve_right fun h => h.1 hnone.1).2
  have hrest := hsaved.foldl_session later fun values hvalues =>
    hnul values (List.mem_cons_of_mem _ hvalues)
  rw [List.flatten_cons, List.flatten_append]
  exact (hrest.resolve_right fun h => h.1 hnone.2).2

lemma notMem_flatten {written : List (List (List UInt8))}
    (hnul : ∀ values ∈ written, ∀ value ∈ values, 0 ∉ value) : 0 ∉ written.flatten.flatten := by
  intro hmem
  obtain ⟨value, hvalue, hmem⟩ := List.mem_flatten.mp hmem
  obtain ⟨values, hvalues, hvalue⟩ := List.mem_flatten.mp hvalue
  exact hnul values hvalues value hvalue hmem

/-- Whole blocks, and any number of bytes at the end, are read as they are in the file. -/
lemma readsRight_opened (hc : 0 < c) {file : List UInt8} (hfile : 0 ∉ file)
    (hlength : file.length < 2 ^ 31) {null : Fin k → Bool} (hnull : ∀ i, null i = true)
    {sizes : List ℕ} {last : ℕ} (hsizes : ∀ n ∈ sizes, c ∣ n)
    (htotal : (sizes ++ [last]).sum ≤ file.length) :
    ReadsRight (POPFStream.opened c c (stripsOf k c file) null) (reads (sizes ++ [last])) file := by
  have hstart : (Window.start k).issued + total (reads (sizes ++ [last])) =
      (sizes ++ [last]).sum := by
    rw [total_reads]
    exact Nat.zero_add _
  have hallowed : Allowed c file.length null (Window.start k) (reads (sizes ++ [last])) :=
    allowed_reads hc hlength hnull sizes last hsizes ⟨rfl, rfl⟩ (dvd_zero c)
      ((Nat.zero_add _).le.trans htotal)
  obtain ⟨results, hresults, hflatten⟩ :=
    (follows_opened hc null file).run hc hfile (Nat.lt_succ_self _)
      (reads (sizes ++ [last])) hallowed (balanced_reads _) (by rw [hstart]; exact htotal)
  refine ⟨_, results, hresults, hflatten.trans ?_⟩
  rw [hstart, total_reads]
  rfl

open PopFile.POPFStream in
/-- **What is written is read.**  After any sessions that write strings without null bytes, none
of which is confused with the full marker, a client that opens the file and reads whole blocks,
and any number of bytes at the end, gets the beginning of what was written. -/
theorem read_of_written (c : ℕ) [NeZero c] (first : List (List UInt8))
    (later : List (List (List UInt8)))
    (hnul : ∀ values ∈ first :: later, ∀ value ∈ values, 0 ∉ value)
    (hnone : NoneConfused c 0 (first :: later).flatten)
    (hlength : (first :: later).flatten.flatten.length < 2 ^ 31) {null : Fin k → Bool}
    (hnull : ∀ i, null i = true) (sizes : List ℕ) (last : ℕ) (hsizes : ∀ n ∈ sizes, c ∣ n)
    (htotal : (sizes ++ [last]).sum ≤ (first :: later).flatten.flatten.length) :
    ReadsRight (POPFStream.opened c c (history c first later : ParallelFile k).strips null)
      (reads (sizes ++ [last])) (first :: later).flatten.flatten := by
  have hstrips : (history c first later : ParallelFile k).strips =
      stripsOf k c (first :: later).flatten.flatten := funext (saved_history hnul hnone).content
  rw [hstrips]
  exact readsRight_opened (Nat.pos_of_neZero c) (notMem_flatten hnul) hlength hnull hsizes htotal

/-- Two strips with blocks of 4 bytes, written in three sessions and read in two blocks and three
more bytes. -/
theorem read_of_written_two :
    ReadsRight (POPFStream.opened 4 4
        (PopFile.POPFStream.history 4 [[70, 85, 76], [76, 70]]
          [[[85, 76, 76, 70, 85]], [], [[76, 76]]] : ParallelFile 2).strips fun _ => true)
      (reads [8, 3]) [70, 85, 76, 76, 70, 85, 76, 76, 70, 85, 76, 76] :=
  read_of_written 4 [[70, 85, 76], [76, 70]] [[[85, 76, 76, 70, 85]], [], [[76, 76]]] (by decide)
    (by decide) (by decide) (fun _ => rfl) [8] 3 (by decide) (by decide)

/-! ### `gather` -/

/-- The sizes of the reads of `gather` with `fullsize` bytes to come, in at most so many rounds of
its loop. -/
def gatherSizes (popfileOffset : ℕ) : ℕ → ℕ → Option (List ℕ)
  | 0, _ => none
  | rounds + 1, fullsize =>
      if popfileOffset < fullsize then
        (gatherSizes popfileOffset rounds (fullsize - popfileOffset)).map (popfileOffset :: ·)
      else some (if 0 < fullsize then [fullsize] else [])

/-- `is_open` of a parallel file: `meta_loaded`, which only `load` sets. -/
def Opening.isOpen : Opening → Bool
  | created => false
  | reopened => true

/-- What `gather` does. -/
inductive Gathered where
  /-- It says that the parallel file is not open. -/
  | notOpen
  /-- It writes these bytes to the other file. -/
  | wrote (data : List UInt8)

/-- `gather` on a parallel file, with what `is_open` returns. -/
def POPFStream.gather (rounds fuel : ℕ) (isOpen : Bool) (s : POPFStream k)
    (popfileTotalBytes : ℕ) : Option Gathered :=
  if isOpen then do
    let sizes ← gatherSizes s.popfileOffset rounds popfileTotalBytes
    let results ← run fuel s [] (reads sizes)
    some (.wrote results.flatten)
  else some .notOpen

/-- The reads are blocks, but for the last one, and take in the whole file. -/
lemma exists_gatherSizes (hc : 0 < c) (n : ℕ) (hn : 0 < n) : ∃ rounds sizes last,
    gatherSizes c rounds n = some (sizes ++ [last]) ∧ (∀ m ∈ sizes, c ∣ m) ∧
      (sizes ++ [last]).sum = n := by
  induction n using Nat.strong_induction_on with
  | _ n ih =>
      by_cases hlt : c < n
      · obtain ⟨rounds, sizes, last, hrounds, hsizes, hsum⟩ := ih (n - c) (by omega) (by omega)
        refine ⟨rounds + 1, c :: sizes, last, ?_, ?_, ?_⟩
        · rw [gatherSizes, if_pos hlt, hrounds]
          rfl
        · rintro m (_ | ⟨_, hm⟩)
          · exact dvd_rfl
          · exact hsizes m hm
        · rw [List.cons_append, List.sum_cons, hsum]
          omega
      · refine ⟨1, [], n, ?_, fun m hm => absurd hm List.not_mem_nil, List.sum_singleton⟩
        rw [gatherSizes, if_neg hlt, if_pos hn]
        rfl

open PopFile.POPFStream in
/-- **`gather` gets the whole file.**  After any sessions that write strings without null bytes,
none of which is confused with the full marker, `gather` on a stream that has opened the file
comes to an end and copies exactly what was written; on a stream that has made a file, whatever has
been written to it, it takes the file for closed. -/
theorem gather_of_written (c : ℕ) [NeZero c] (first : List (List UInt8))
    (later : List (List (List UInt8)))
    (hnul : ∀ values ∈ first :: later, ∀ value ∈ values, 0 ∉ value)
    (hnone : NoneConfused c 0 (first :: later).flatten)
    (hlength : (first :: later).flatten.flatten.length < 2 ^ 31) {null : Fin k → Bool}
    (hnull : ∀ i, null i = true) :
    (∃ rounds fuel, (POPFStream.opened (Opening.reopened.popfileOffset c) c
        (history c first later : ParallelFile k).strips null).gather rounds fuel
          Opening.reopened.isOpen (history c first later : ParallelFile k).endingPointer =
        some (.wrote (first :: later).flatten.flatten)) ∧
      ∀ (strips : Fin k → List UInt8) (popfileTotalBytes rounds fuel : ℕ),
        (POPFStream.opened (Opening.created.popfileOffset c) c strips null).gather rounds fuel
          Opening.created.isOpen popfileTotalBytes = some .notOpen := by
  refine ⟨?_, fun strips n rounds fuel => rfl⟩
  have hsaved := saved_history (k := k) hnul hnone
  have hstrips : (history c first later : ParallelFile k).strips =
      stripsOf k c (first :: later).flatten.flatten := funext hsaved.content
  rw [hsaved.ending, hstrips]
  rcases Nat.eq_zero_or_pos (first :: later).flatten.flatten.length with hzero | hpos
  · refine ⟨1, 0, ?_⟩
    rw [hzero, List.eq_nil_of_length_eq_zero hzero]
    rfl
  · obtain ⟨rounds, sizes, last, hrounds, hsizes, hsum⟩ :=
      exists_gatherSizes (Nat.pos_of_neZero c) _ hpos
    obtain ⟨fuel, results, hresults, hflatten⟩ := readsRight_opened (Nat.pos_of_neZero c)
      (notMem_flatten hnul) hlength hnull hsizes hsum.le
    refine ⟨rounds, fuel, ?_⟩
    rw [total_reads, hsum, List.take_length] at hflatten
    rw [POPFStream.gather, Opening.popfileOffset, Opening.isOpen, if_pos rfl]
    show (gatherSizes c rounds _).bind _ = _
    rw [hrounds, Option.bind_some]
    show (run fuel _ [] _).bind _ = _
    rw [hresults, Option.bind_some, hflatten]

theorem gather_of_written_two :
    (∃ rounds fuel, (POPFStream.opened (Opening.reopened.popfileOffset 4) 4
        (PopFile.POPFStream.history 4 [[70, 85, 76], [76, 70]]
          [[[85, 76, 76, 70, 85]], [], [[76, 76]]] : ParallelFile 2).strips
          fun _ => true).gather rounds fuel Opening.reopened.isOpen
            (PopFile.POPFStream.history 4 [[70, 85, 76], [76, 70]]
              [[[85, 76, 76, 70, 85]], [], [[76, 76]]] : ParallelFile 2).endingPointer =
        some (.wrote [70, 85, 76, 76, 70, 85, 76, 76, 70, 85, 76, 76])) ∧
      ∀ (strips : Fin 2 → List UInt8) (popfileTotalBytes rounds fuel : ℕ),
        (POPFStream.opened (Opening.created.popfileOffset 4) 4 strips
          fun _ => true).gather rounds fuel Opening.created.isOpen popfileTotalBytes =
            some .notOpen :=
  gather_of_written 4 [[70, 85, 76], [76, 70]] [[[85, 76, 76, 70, 85]], [], [[76, 76]]] (by decide)
    (by decide) (by decide) fun _ => rfl

end PopCpp.PopFile.Reading
