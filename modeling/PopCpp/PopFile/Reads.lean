/-
# Sequences of reads

A sequence of reads is followed in positions of the file: what has been issued, what has been
collected, and which readers have been collected from since they were asked last.  It goes well
as long as a read starts at the start of a block, each block can be read, and no reader is asked
that still holds data from which it has given some away (`Allowed`).  Otherwise there is a file
for which the results are not its beginning, or a call does not return (`readsRight_iff`).
-/
import PopCpp.PopFile.Read

namespace PopCpp.PopFile.Reading

open CInt Striping

variable {k : ℕ} [NeZero k]

/-! ### Positions -/

/-- The strip of a position. -/
def turn (k c p : ℕ) [NeZero k] : Fin k := ⟨p / c % k, Nat.mod_lt _ (Nat.pos_of_neZero k)⟩

/-- Where the block of a position begins in its strip. -/
def blockStart (k c p : ℕ) : ℕ := p / c / k * c

/-- The block of a position can be read: it begins before the length of the strip, as an `int`. -/
def Servable (k c length p : ℕ) [NeZero k] : Prop :=
  (blockStart k c p : ℤ) <
    wrap (strip k c (turn k c p) (List.replicate length ())).length

instance instDecidableServable (k c length p : ℕ) [NeZero k] : Decidable (Servable k c length p) :=
  inferInstanceAs (Decidable (_ < _))

/-- What has been collected and what has been issued. -/
structure Window (k : ℕ) where
  collected : ℕ
  issued : ℕ
  pending : List ℕ
  /-- The last call of the reader has been to collect from it. -/
  given : Fin k → Bool

namespace Window

variable (c : ℕ) (w : Window k)

/-- The reader holds data. -/
def Holds (i : Fin k) : Prop :=
  ∃ p ∈ List.range' w.collected (w.issued - w.collected), turn k c p = i

instance instDecidableHolds (i : Fin k) : Decidable (w.Holds c i) :=
  inferInstanceAs (Decidable (∃ p ∈ _, _))

/-- `read_in_background`. -/
def issue (n : ℕ) : Window k where
  collected := w.collected
  issued := w.issued + n
  pending := w.pending ++ [n]
  given i := w.given i && !decide (∃ p ∈ List.range' w.issued n, turn k c p = i)

/-- `get_read`. -/
def collect : Window k :=
  match w.pending with
  | [] => w
  | n :: pending =>
      { collected := w.collected + n
        issued := w.issued
        pending := pending
        given i := w.given i ||
          decide (∃ p ∈ List.range' w.collected (max n 1), turn k c p = i) }

@[simp] lemma issued_collect : (w.collect c).issued = w.issued := by
  rw [collect]
  split <;> rfl

lemma collected_le_collect : w.collected ≤ (w.collect c).collected := by
  rw [collect]
  split
  · exact le_rfl
  · exact Nat.le_add_right _ _

/-- The byte at a position can be asked for. -/
def Allows (length : ℕ) (null : Fin k → Bool) (p : ℕ) : Prop :=
  c ∣ w.issued ∧ Servable k c length p ∧ null (turn k c p) = true ∧
    ¬(w.given (turn k c p) = true ∧ w.Holds c (turn k c p))

instance instDecidableAllows (length : ℕ) (null : Fin k → Bool) (p : ℕ) :
    Decidable (w.Allows c length null p) :=
  inferInstanceAs (Decidable (_ ∧ _ ∧ _ ∧ ¬(_ ∧ _)))

end Window

/-- Every byte can be asked for when it is its turn. -/
def Allowed (c length : ℕ) (null : Fin k → Bool) : Window k → List Call → Prop
  | _, [] => True
  | w, .readInBackground n :: calls =>
      (∀ p ∈ List.range' w.issued n, w.Allows c length null p) ∧
        Allowed c length null (w.issue c n) calls
  | w, .getRead :: calls => Allowed c length null (w.collect c) calls

instance instDecidableAllowed (c length : ℕ) (null : Fin k → Bool) :
    ∀ w calls, Decidable (Allowed c length null w calls)
  | _, [] => isTrue trivial
  | w, .readInBackground n :: calls =>
      have := instDecidableAllowed c length null (w.issue c n) calls
      inferInstanceAs (Decidable (_ ∧ _))
  | w, .getRead :: calls => instDecidableAllowed c length null (w.collect c) calls

/-- Nothing has been asked for. -/
def Window.start (k : ℕ) : Window k :=
  { collected := 0, issued := 0, pending := [], given := fun _ => false }

/-! ### Blocks -/

section Blocks

variable {c : ℕ} {p q : ℕ} {file : List UInt8}

lemma turn_eq_of_within (hc : 0 < c) {a : ℕ} (ha : p % c + a ≤ c) (hq : p ≤ q) (hlt : q < p + a) :
    turn k c q = turn k c p := by
  obtain ⟨j, rfl⟩ := Nat.exists_eq_add_of_le hq
  exact Fin.ext (congrArg (· % k) (add_div_of_within hc ha (by omega)))

/-- The bytes up to the end of the block are of one strip. -/
lemma stripFrom_slice_within (hc : 0 < c) (hpq : p % c + (q - p) ≤ c) (hq : q ≤ file.length)
    (i : Fin k) :
    stripFrom k c i p (slice file p q) = if turn k c p = i then slice file p q else [] := by
  rw [stripFrom_within hc (by rwa [length_slice hq])]
  simp only [turn, Fin.ext_iff]

/-- A reader that has no position in a slice holds nothing of it. -/
lemma stripFrom_slice_eq_nil (hq : q ≤ file.length) {i : Fin k}
    (h : ∀ r, p ≤ r → r < q → turn k c r ≠ i) : stripFrom k c i p (slice file p q) = [] := by
  refine stripFrom_of_ne fun j hj heq => ?_
  rw [length_slice hq] at hj
  exact h (p + j) (Nat.le_add_right _ _) (by omega) (Fin.ext heq)

/-- What a strip has at the block of a position. -/
lemma take_drop_strip_turn (hc : 0 < c) (hp : c ∣ p) {a : ℕ} (ha : a ≤ c) :
    ((strip k c (turn k c p) file).drop (blockStart k c p)).take a = (file.drop p).take a := by
  have hpos : (p / c / k * k + p / c % k) * c = p := by
    rw [Nat.mul_comm (p / c / k), Nat.div_add_mod, Nat.div_mul_cancel hp]
  have hblock := take_drop_strip hc (turn k c p).isLt ha (p / c / k) file
  rwa [show (turn k c p).val = p / c % k from rfl, hpos] at hblock

end Blocks

/-! ### Asking for blocks -/

section Asking

variable {c : ℕ} {null : Fin k → Bool} {file : List UInt8} {w : Window k} {s t : POPFStream k}
  {p q : ℕ}

/-- The strips of a file. -/
def stripsOf (k c : ℕ) (file : List UInt8) (i : Fin k) : List UInt8 := strip k c i file

/-- What the readers hold when the bytes up to a position have been asked for. -/
structure Contents (c : ℕ) (null : Fin k → Bool) (file : List UInt8) (w : Window k) (p : ℕ)
    (s : POPFStream k) : Prop where
  setup : POPFStream.Setup c (stripsOf k c file) null s
  held : ∀ i, s.held i = stripFrom k c i w.collected (slice file w.collected p)
  put : ∀ i, (s.popfileReaderRef i).popfileBufferIn.put =
    if w.given i = true ∧ ∀ r, w.issued ≤ r → r < p → turn k c r ≠ i then 0
    else (s.held i).length

/-- The stream when the bytes up to the start of a block have been asked for. -/
structure Asking (c : ℕ) (null : Fin k → Bool) (file : List UInt8) (w : Window k) (p : ℕ)
    (s : POPFStream k) : Prop extends Contents c null file w p s where
  reader : s.popfileCurrentReader = turn k c p
  readerOffset : s.popfileCurrentReaderOffset = wrap (blockStart k c p)
  pointer : s.popfileInternalReadPointer = 0

/-- A block that can be read is read. -/
lemma readFromStrip_of_servable (hc : 0 < c) (hp : c ∣ p) {a : ℕ} (ha : a ≤ c)
    (hfile : p + a ≤ file.length) (hnul : 0 ∉ file) (hservable : Servable k c file.length p) :
    readFromStrip (stripsOf k c file (turn k c p)) (wrap (blockStart k c p)) a =
      some (slice file p (p + a)) := by
  have hlen : (stripsOf k c file (turn k c p)).length =
      (strip k c (turn k c p) (List.replicate file.length ())).length :=
    length_stripFrom_congr List.length_replicate.symm
  have hblock : ((stripsOf k c file (turn k c p)).drop (blockStart k c p)).take a =
      slice file p (p + a) := by
    rw [slice, Nat.add_sub_cancel_left]
    exact take_drop_strip_turn hc hp ha
  have hfits := fits_wrap (stripsOf k c file (turn k c p)).length
  rw [Servable, ← hlen] at hservable
  have hstart : wrap (blockStart k c p) = blockStart k c p :=
    wrap_eq_self ⟨by omega, hservable.trans hfits.2⟩
  have henough : blockStart k c p + a ≤ (stripsOf k c file (turn k c p)).length := by
    have hcount := congrArg List.length hblock
    rw [length_slice hfile, List.length_take, List.length_drop] at hcount
    have hle := wrap_le (Int.natCast_nonneg (stripsOf k c file (turn k c p)).length)
    omega
  rw [readFromStrip, hstart, if_neg hservable.not_ge, if_pos ⟨by omega, by omega⟩,
    Int.toNat_natCast, hblock, cStr_eq_self]
  exact fun hmem => hnul (List.mem_of_mem_drop (List.mem_of_mem_take hmem))

/-- A request that is allowed appends the bytes to what the reader holds. -/
lemma Asking.readInStrip (h : Asking c null file w p s) (hc : 0 < c) (hp : c ∣ p)
    (hcollected : w.collected ≤ w.issued) (hissued : w.issued ≤ p) {a : ℕ} (hpos : 0 < a)
    (ha : a ≤ c) (hfile : p + a ≤ file.length) (hnul : 0 ∉ file)
    (hallows : w.Allows c file.length null p) :
    ∃ t, s.readInStrip a = some t ∧ Contents c null file w (p + a) t := by
  obtain ⟨-, hservable, hnull, hgiven⟩ := hallows
  have hdata := readFromStrip_of_servable hc hp ha hfile hnul hservable
  have hcut : cStr (slice file p (p + a)) = slice file p (p + a) :=
    cStr_eq_self fun hmem => hnul (List.mem_of_mem_drop (List.mem_of_mem_take hmem))
  have hwithin : p % c + a ≤ c := by rwa [Nat.mod_eq_zero_of_dvd hp, Nat.zero_add]
  have hblock : ∀ i : Fin k, stripFrom k c i p (slice file p (p + a)) =
      if turn k c p = i then slice file p (p + a) else [] :=
    stripFrom_slice_within hc (by rwa [Nat.add_sub_cancel_left]) hfile
  have hsplit : ∀ i : Fin k, stripFrom k c i w.collected (slice file w.collected (p + a)) =
      s.held i ++ if turn k c p = i then slice file p (p + a) else [] := by
    intro i
    rw [stripFrom_slice_append (hcollected.trans hissued) (Nat.le_add_right p a) hfile, ← h.held,
      hblock]
  -- the put position of the reader is the end of what it holds
  have hput : (s.popfileReaderRef (turn k c p)).popfileBufferIn.put =
      (s.held (turn k c p)).length := by
    rw [h.put]
    split_ifs with hoverwrite
    · rw [h.held, stripFrom_slice_eq_nil (by omega)]
      · rfl
      · intro r hr hlt heq
        rcases Nat.lt_or_ge r w.issued with hlt' | hge
        · exact hgiven ⟨hoverwrite.1, r, List.mem_range'_1.mpr ⟨hr, by omega⟩, heq⟩
        · exact hoverwrite.2 r hge hlt heq
    · rfl
  have hwrite := Stringstream.write_of_put_eq hput (slice file p (p + a))
  refine ⟨s.setReader (turn k c p) ((s.popfileReaderRef (turn k c p)).addData
    (slice file p (p + a))), ?_, ⟨h.setup.addData _ _, fun i => ?_, fun i => ?_⟩⟩
  · rw [POPFStream.readInStrip, POPFileReader.readInStrip, h.reader, h.readerOffset,
      h.setup.strip, h.setup.locker, hdata, hnull]
    rfl
  · rw [POPFStream.held_setReader, hsplit]
    split_ifs with hi hi' hi'
    · rw [hi, POPFileReader.addData, hcut]
      exact hwrite.1
    · exact absurd hi.symm hi'
    · exact absurd hi'.symm hi
    · rw [List.append_nil]
  · rw [POPFStream.popfileReaderRef_setReader, POPFStream.held_setReader]
    by_cases hi : i = turn k c p
    · rw [if_pos hi, if_pos hi, if_neg, POPFileReader.addData, hcut]
      · exact hwrite.2
      · exact fun hover => hover.2 p hissued (by omega) hi.symm
    · rw [if_neg hi, if_neg hi, h.put]
      refine if_congr (and_congr_right fun _ => ⟨fun hall r hr hlt => ?_, fun hall r hr hlt => ?_⟩)
        rfl rfl
      · rcases Nat.lt_or_ge r p with hlt' | hge
        · exact hall r hr hlt'
        · rw [turn_eq_of_within hc hwithin hge hlt]
          exact fun heq => hi heq.symm
      · exact hall r hr (by omega)

lemma turn_add (hc : 0 < c) (p : ℕ) :
    PopFile.POPFStream.nextStrip (turn k c p) = turn k c (p + c) := by
  refine Fin.ext ?_
  rw [PopFile.POPFStream.val_nextStrip]
  show (p / c % k + 1) % k = (p + c) / c % k
  rw [Nat.mod_add_mod, Nat.add_div_right _ hc]

lemma blockStart_add (hc : 0 < c) (p : ℕ) :
    blockStart k c (p + c) =
      if ((turn k c p).val + 1) % k = 0 then blockStart k c p + c else blockStart k c p := by
  have hturn : ((turn k c p).val + 1) % k = 0 ↔ k ∣ p / c + 1 := by
    show (p / c % k + 1) % k = 0 ↔ _
    rw [Nat.mod_add_mod, Nat.dvd_iff_mod_eq_zero]
  rw [blockStart, Nat.add_div_right _ hc, Nat.succ_div, blockStart]
  by_cases h : k ∣ p / c + 1
  · rw [if_pos h, if_pos (hturn.mpr h), Nat.succ_mul]
  · rw [if_neg h, if_neg (h ∘ hturn.mp), Nat.add_zero]

/-- After a block the turn is at the next reader. -/
lemma Asking.next (h : Asking c null file w p s) (hc : 0 < c) {r : POPFileReader}
    (ht : t = s.setReader s.popfileCurrentReader r) (hcontents : Contents c null file w (p + c) t) :
    Asking c null file w (p + c) { t with popfileInternalReadPointer := 0 }.getNextReader := by
  refine ⟨⟨hcontents.setup.getNextReader, hcontents.held, hcontents.put⟩, ?_, ?_, rfl⟩
  · show PopFile.POPFStream.nextStrip t.popfileCurrentReader = _
    rw [ht, ← turn_add hc, ← h.reader]
    rfl
  · have hreader : t.popfileCurrentReader = turn k c p := by
      rw [ht, ← h.reader]
      rfl
    have hoffset : t.popfileCurrentReaderOffset = wrap (blockStart k c p) := by
      rw [ht, ← h.readerOffset]
      rfl
    show (if (t.popfileCurrentReader.val + 1) % k = 0 then
      wrap (t.popfileCurrentReaderOffset + t.popfileOffset) else t.popfileCurrentReaderOffset) = _
    rw [hreader, hoffset, hcontents.setup.offset, blockStart_add hc, wrap_wrap_add]
    split_ifs
    · rw [Nat.cast_add]
    · rfl

/-- The loop of `read_in_background` up to a block. -/
lemma Asking.readLoop (hc : 0 < c) (hnul : 0 ∉ file) (hcollected : w.collected ≤ w.issued)
    (grip : POPFileGrip k) (fuel blocks : ℕ) :
    ∀ {s : POPFStream k} {p n : ℕ}, Asking c null file w p s → c ∣ p → w.issued ≤ p →
      blocks * c ≤ n → p + blocks * c ≤ file.length →
      (∀ q, p ≤ q → q < p + blocks * c → w.Allows c file.length null q) →
      ∃ t, Asking c null file w (p + blocks * c) t ∧
        POPFStream.readLoop (fuel + blocks) s grip n =
          POPFStream.readLoop fuel t grip (n - blocks * c) := by
  induction blocks with
  | zero =>
      intro s p n h _ _ _ _ _
      simp only [Nat.zero_mul, Nat.add_zero, Nat.sub_zero]
      exact ⟨s, h, rfl⟩
  | succ blocks ih =>
      intro s p n h hp hissued hn hfile hallows
      rw [Nat.succ_mul] at hn hfile hallows ⊢
      obtain ⟨t, ht, hcontents⟩ := h.readInStrip hc hp hcollected hissued hc le_rfl (by omega) hnul
        (hallows p le_rfl (by omega))
      obtain ⟨r, hr⟩ := POPFStream.readInStrip_frame ht
      obtain ⟨u, hu, hloop⟩ := ih (n := n - c) (h.next hc hr hcontents) (hp.add dvd_rfl) (by omega)
        (by omega) (by omega) fun q hq hlt => hallows q (by omega) (by omega)
      have hrest : s.blockRest = c := by
        rw [POPFStream.blockRest, if_neg (not_not.mpr h.pointer), h.setup.offset]
      have hgrip : s.gripAfter grip = grip := if_neg (not_not.mpr h.pointer)
      refine ⟨u, ?_, ?_⟩
      · convert hu using 1
        omega
      · rw [← Nat.add_assoc, POPFStream.readLoop_of_le (by rw [h.setup.offset]; omega), hrest, ht,
          hgrip, Option.bind_some, hloop]
        congr 1
        omega

end Asking

/-! ### The stream and the window -/

section Follows

variable {c : ℕ} {null : Fin k → Bool} {file : List UInt8} {w : Window k} {s t : POPFStream k}
  {grip : POPFileGrip k} {grips : List (POPFileGrip k)} {n p q : ℕ}

/-- The grips of the reads that have been issued from a position on and are not collected. -/
inductive Outstanding (c : ℕ) : ℕ → List ℕ → List (POPFileGrip k) → Prop
  | nil (p : ℕ) : Outstanding c p [] []
  | cons {p n : ℕ} {pending : List ℕ} {grip : POPFileGrip k} {grips : List (POPFileGrip k)}
      (size : grip.size = n) (firstReader : grip.firstReader = turn k c p)
      (firstRead : grip.firstRead = 0) (aligned : 0 < n → c ∣ p)
      (rest : Outstanding c (p + n) pending grips) :
      Outstanding c p (n :: pending) (grip :: grips)

lemma Outstanding.concat {pending : List ℕ} (h : Outstanding c p pending grips)
    (size : grip.size = n) (firstReader : grip.firstReader = turn k c (p + pending.sum))
    (firstRead : grip.firstRead = 0) (aligned : 0 < n → c ∣ p + pending.sum) :
    Outstanding c p (pending ++ [n]) (grips ++ [grip]) := by
  induction h with
  | nil p => exact .cons size firstReader firstRead aligned (.nil _)
  | cons hsize hreader hread haligned _ ih =>
      rw [List.sum_cons, ← Nat.add_assoc] at firstReader aligned
      exact .cons hsize hreader hread haligned (ih firstReader aligned)

lemma Outstanding.owed_eq {pending : List ℕ} (h : Outstanding c p pending grips) :
    POPFStream.owed grips = pending.sum := by
  induction h with
  | nil p => rfl
  | cons hsize _ _ _ _ ih =>
      rw [POPFStream.owed, List.map_cons, List.sum_cons, List.sum_cons, hsize, ← ih]
      rfl

/-- The stream after calls that were allowed. -/
structure Follows (c : ℕ) (null : Fin k → Bool) (file : List UInt8) (w : Window k)
    (s : POPFStream k) (grips : List (POPFileGrip k)) : Prop where
  queued : s.Queued c (stripsOf k c file) null grips
  held : ∀ i, s.held i = stripFrom k c i w.collected (slice file w.collected w.issued)
  put : ∀ i, (s.popfileReaderRef i).popfileBufferIn.put =
    if w.given i = true then 0 else (s.held i).length
  reader : s.popfileCurrentReader = turn k c w.issued
  readerOffset : s.popfileCurrentReaderOffset = wrap (blockStart k c w.issued)
  pointer : s.popfileInternalReadPointer = (c - w.issued % c) % c
  servable : ¬c ∣ w.issued → Servable k c file.length w.issued
  issued_le : w.issued ≤ file.length
  pending : w.collected + w.pending.sum = w.issued
  grips : Outstanding c w.collected w.pending grips

lemma Follows.collected_le (h : Follows c null file w s grips) : w.collected ≤ w.issued :=
  h.pending ▸ Nat.le_add_right _ _

lemma Follows.contents (h : Follows c null file w s grips) :
    Contents c null file w w.issued { s with popfileCurrentGrip := s.popfileCurrentGrip + 1 } := by
  refine ⟨⟨h.queued.setup.offset, h.queued.setup.pointer, h.queued.setup.capacity,
    h.queued.setup.strip, h.queued.setup.locker, h.queued.setup.nulFree⟩, h.held, fun i => ?_⟩
  refine (h.put i).trans (if_congr ?_ rfl rfl)
  exact ⟨fun hgiven => ⟨hgiven, fun r hr hlt => absurd hlt (by omega)⟩, And.left⟩

/-- At the start of a block the loop can begin. -/
lemma Follows.asking (h : Follows c null file w s grips) (haligned : c ∣ w.issued) :
    Asking c null file w w.issued { s with popfileCurrentGrip := s.popfileCurrentGrip + 1 } :=
  ⟨h.contents, h.reader, h.readerOffset,
    h.pointer.trans (by rw [Nat.mod_eq_zero_of_dvd haligned, Nat.sub_zero, Nat.mod_self])⟩

lemma Follows.of_contents (h : Follows c null file w s grips)
    (hqueued : t.Queued c (stripsOf k c file) null (grips ++ [grip]))
    (hcontents : Contents c null file w (w.issued + n) t)
    (reader : t.popfileCurrentReader = turn k c (w.issued + n))
    (readerOffset : t.popfileCurrentReaderOffset = wrap (blockStart k c (w.issued + n)))
    (pointer : t.popfileInternalReadPointer = (c - (w.issued + n) % c) % c)
    (servable : ¬c ∣ w.issued + n → Servable k c file.length (w.issued + n))
    (hfile : w.issued + n ≤ file.length) (size : grip.size = n)
    (firstReader : grip.firstReader = s.popfileCurrentReader) (firstRead : grip.firstRead = 0)
    (aligned : 0 < n → c ∣ w.issued) :
    Follows c null file (w.issue c n) t (grips ++ [grip]) := by
  refine ⟨hqueued, hcontents.held, fun i => ?_, reader, readerOffset, pointer, servable, hfile, ?_,
    ?_⟩
  · refine (hcontents.put i).trans (if_congr ?_ rfl rfl)
    simp [Window.issue, List.mem_range'_1]
  · rw [Window.issue, List.sum_append, List.sum_singleton, ← Nat.add_assoc, h.pending]
  · refine h.grips.concat size ?_ firstRead ?_
    · rw [h.pending, firstReader, h.reader]
    · rwa [h.pending]

lemma add_div_eq_of_lt (hc : 0 < c) (hp : c ∣ p) {a : ℕ} (ha : a < c) : (p + a) / c = p / c := by
  obtain ⟨m, rfl⟩ := hp
  rw [Nat.mul_add_div hc, Nat.div_eq_of_lt ha, Nat.add_zero, Nat.mul_div_cancel_left m hc]

/-- Positions of one block. -/
lemma same_block (h : q / c = p / c) :
    turn k c q = turn k c p ∧ blockStart k c q = blockStart k c p ∧
      ∀ length, Servable k c length q ↔ Servable k c length p := by
  have hturn : turn k c q = turn k c p := by simp only [turn, h]
  have hstart : blockStart k c q = blockStart k c p := by simp only [blockStart, h]
  exact ⟨hturn, hstart, fun length => by rw [Servable, Servable, hturn, hstart]⟩

/-- A read that is allowed returns. -/
lemma Follows.readInBackground (h : Follows c null file w s grips) (hc : 0 < c) (hnul : 0 ∉ file)
    (hfile : w.issued + n ≤ file.length)
    (hallows : ∀ p ∈ List.range' w.issued n, w.Allows c file.length null p) {fuel : ℕ}
    (hfuel : n < fuel) :
    ∃ grip t, s.readInBackground fuel n = some (grip, t) ∧
      Follows c null file (w.issue c n) t (grips ++ [grip]) := by
  have hallows' : ∀ q, w.issued ≤ q → q < w.issued + n → w.Allows c file.length null q :=
    fun q hq hlt => hallows q (List.mem_range'_1.mpr ⟨hq, hlt⟩)
  rcases Nat.eq_zero_or_pos n with rfl | hn
  · obtain ⟨fuel, rfl⟩ := Nat.exists_eq_succ_of_ne_zero hfuel.ne'
    have hread : s.readInBackground (fuel + 1) 0 =
        some (⟨0, s.popfileCurrentReader, 0, s.popfileCurrentGrip⟩,
          { s with popfileCurrentGrip := s.popfileCurrentGrip + 1 }) :=
      POPFStream.readLoop_zero (by rw [h.queued.setup.offset]; exact hc)
    refine ⟨_, _, hread, h.of_contents (h.queued.readInBackground hread).1 h.contents h.reader
      h.readerOffset h.pointer h.servable hfile rfl rfl rfl fun hpos => absurd hpos (by omega)⟩
  have haligned : c ∣ w.issued := (hallows' w.issued le_rfl (by omega)).1
  have hdiv := Nat.div_add_mod n c
  have hmod := Nat.mod_lt n hc
  have hblocks : n / c * c = c * (n / c) := Nat.mul_comm _ _
  obtain ⟨fuel, rfl⟩ : ∃ fuel', fuel = fuel' + 1 + n / c :=
    ⟨fuel - 1 - n / c, by have := Nat.div_le_self n c; omega⟩
  obtain ⟨t, ht, hloop⟩ := Asking.readLoop hc hnul h.collected_le
    ⟨n, s.popfileCurrentReader, 0, s.popfileCurrentGrip⟩ (fuel + 1) (n / c) (n := n)
    (h.asking haligned) haligned le_rfl (by omega) (by omega)
    fun q hq hlt => hallows' q hq (by omega)
  have hp : c ∣ w.issued + n / c * c := haligned.add (Nat.dvd_mul_left c _)
  rw [show n - n / c * c = n % c by omega] at hloop
  have hend : w.issued + n / c * c + n % c = w.issued + n := by omega
  have hrest : (w.issued + n) % c = n % c := by
    rw [Nat.add_mod, Nat.mod_eq_zero_of_dvd haligned, Nat.zero_add, Nat.mod_mod]
  rcases Nat.eq_zero_or_pos (n % c) with hzero | hpos
  · -- the read ends with a block
    rw [hzero, Nat.add_zero] at hend
    rw [hzero, POPFStream.readLoop_zero (by rw [ht.setup.offset]; exact hc)] at hloop
    refine ⟨_, t, hloop, h.of_contents (h.queued.readInBackground hloop).1 (hend ▸ ht.toContents)
      (hend ▸ ht.reader) (hend ▸ ht.readerOffset) ?_ (fun hnot => ?_) hfile rfl rfl rfl
      fun _ => haligned⟩
    · rw [ht.pointer, hrest, hzero, Nat.sub_zero, Nat.mod_self]
    · exact absurd (Nat.dvd_of_mod_eq_zero (hrest.trans hzero)) hnot
  · -- the read ends within a block
    have hlast := hallows' (w.issued + n / c * c) (by omega) (by omega)
    obtain ⟨u, hu, hcontents⟩ := ht.readInStrip hc hp h.collected_le (by omega) hpos hmod.le
      (by omega) hnul hlast
    obtain ⟨r, hr⟩ := POPFStream.readInStrip_frame hu
    obtain ⟨hturn, hstart, hservable⟩ := same_block (k := k) (add_div_eq_of_lt hc hp hmod)
    rw [hend] at hturn hstart hservable hcontents
    rw [POPFStream.readLoop_of_lt (by rwa [ht.setup.offset]) hpos, hu, Option.bind_some] at hloop
    refine ⟨_, _, hloop, h.of_contents (h.queued.readInBackground hloop).1
      ⟨(h.queued.readInBackground hloop).1.setup, hcontents.held, hcontents.put⟩ ?_ ?_ ?_
      (fun _ => (hservable _).mpr hlast.2.1) hfile rfl rfl rfl fun _ => haligned⟩
    · rw [hturn, ← ht.reader, hr]
      rfl
    · rw [hstart, ← ht.readerOffset, hr]
      rfl
    · show u.popfileOffset - n % c = _
      rw [hcontents.setup.offset, hrest]
      exact (Nat.mod_eq_of_lt (Nat.sub_lt hc hpos)).symm

/-! ### Collecting -/

/-- The readers hold the bytes from `p` to `q`, and more behind them. -/
def Ahead (c : ℕ) (file : List UInt8) (p q : ℕ) (tail : Fin k → List UInt8)
    (s : POPFStream k) : Prop :=
  ∀ i, s.held i = stripFrom k c i p (slice file p q) ++ tail i

variable {tail : Fin k → List UInt8} {a : ℕ}

/-- The bytes up to the end of a block are collected from one reader. -/
lemma Ahead.dropHeld (h : Ahead c file p q tail s) (hc : 0 < c) (ha : p % c + a ≤ c)
    (hle : p + a ≤ q) (hq : q ≤ file.length) :
    ¬(s.held (turn k c p)).length < a ∧
      (s.held (turn k c p)).take a = slice file p (p + a) ∧
      Ahead c file (p + a) q tail (s.dropHeld (turn k c p) a) := by
  have hblock : ∀ i : Fin k, stripFrom k c i p (slice file p (p + a)) =
      if turn k c p = i then slice file p (p + a) else [] :=
    stripFrom_slice_within hc (by rwa [Nat.add_sub_cancel_left]) (hle.trans hq)
  have hsplit : ∀ i : Fin k, s.held i = (if turn k c p = i then slice file p (p + a) else []) ++
      (stripFrom k c i (p + a) (slice file (p + a) q) ++ tail i) := by
    intro i
    rw [h i, stripFrom_slice_append (Nat.le_add_right p a) hle hq, hblock, List.append_assoc]
  have hlen : (slice file p (p + a)).length = a := by
    rw [length_slice (hle.trans hq), Nat.add_sub_cancel_left]
  have hturn := hsplit (turn k c p)
  rw [if_pos rfl] at hturn
  refine ⟨?_, ?_, fun i => ?_⟩
  · rw [hturn, List.length_append, hlen]
    omega
  · rw [hturn, List.take_left' hlen]
  · rw [POPFStream.held_dropHeld, hturn, List.drop_left' hlen]
    split_ifs with hi
    · rw [hi]
    · rw [hsplit i, if_neg (Ne.symm hi), List.nil_append]

/-- The readers of some positions have given data away, and the others are as they were. -/
def Gave (c p n : ℕ) (s t : POPFStream k) : Prop :=
  ∀ i, (t.popfileReaderRef i).popfileBufferIn.put =
    if ∃ r ∈ List.range' p n, turn k c r = i then 0
    else (s.popfileReaderRef i).popfileBufferIn.put

lemma gave_dropHeld (hc : 0 < c) (hn : 0 < n) (hwithin : p % c + n ≤ c) :
    Gave c p n s (s.dropHeld (turn k c p) a) := by
  intro i
  rw [POPFStream.dropHeld, POPFStream.popfileReaderRef_setReader]
  by_cases hi : i = turn k c p
  · rw [if_pos hi, if_pos ⟨p, List.mem_range'_1.mpr ⟨le_rfl, by omega⟩, hi.symm⟩]
    rfl
  · rw [if_neg hi, if_neg]
    rintro ⟨r, hr, hturn⟩
    obtain ⟨hle, hlt⟩ := List.mem_range'_1.mp hr
    rw [turn_eq_of_within hc hwithin hle hlt] at hturn
    exact hi hturn.symm

lemma Gave.trans {m : ℕ} {u : POPFStream k} (h : Gave c p m s t) (h' : Gave c (p + m) n t u) :
    Gave c p (m + n) s u := by
  intro i
  rw [h' i, h i, ← ite_or]
  have hmem : ∀ {a b r : ℕ}, r ∈ List.range' a b ↔ a ≤ r ∧ r < a + b := List.mem_range'_1
  refine if_congr ⟨?_, ?_⟩ rfl rfl
  · rintro (⟨r, hr, hturn⟩ | ⟨r, hr, hturn⟩)
    · exact ⟨r, hmem.mpr (by have := hmem.mp hr; omega), hturn⟩
    · exact ⟨r, hmem.mpr (by have := hmem.mp hr; omega), hturn⟩
  · rintro ⟨r, hr, hturn⟩
    obtain ⟨hle, hlt⟩ := hmem.mp hr
    rcases Nat.lt_or_ge r (p + m) with hr | hr
    · exact .inr ⟨r, hmem.mpr ⟨hle, hr⟩, hturn⟩
    · exact .inl ⟨r, hmem.mpr ⟨hr, by omega⟩, hturn⟩

/-- The loop of `get_read`, from the start of a block on. -/
lemma Ahead.getLoop (hc : 0 < c) (hq : q ≤ file.length) (fuel : ℕ) :
    ∀ {s : POPFStream k} {p n : ℕ}, s.Setup c (stripsOf k c file) null →
      Ahead c file p q tail s → c ∣ p → 0 < n → p + n ≤ q → n ≤ fuel →
      ∃ t, POPFStream.getLoop fuel s (turn k c p) 0 n = some (slice file p (p + n), t) ∧
        Ahead c file (p + n) q tail t ∧ Gave c p n s t := by
  induction fuel with
  | zero => intro s p n _ _ _ hn _ hfuel; omega
  | succ fuel ih =>
      intro s p n hsetup h hp hn hle hfuel
      have hmod : p % c = 0 := Nat.mod_eq_zero_of_dvd hp
      rcases Nat.lt_or_ge c n with hlt | hge
      · obtain ⟨henough, htake, hahead⟩ := h.dropHeld hc (a := c) (by omega) (by omega) hq
        obtain ⟨t, ht, haheadt, hgave⟩ := ih (hsetup.dropHeld _ c) hahead (hp.add dvd_rfl)
          (n := n - c) (by omega) (by omega) (by omega)
        have hsum : p + c + (n - c) = p + n := by omega
        rw [hsum] at ht haheadt
        refine ⟨t, ?_, haheadt, ?_⟩
        · have hzero : ¬((0 : ℕ) ≠ 0) := fun hne => hne rfl
          rw [hsetup.getLoop_of_lt hlt, if_neg hzero, if_neg henough, turn_add hc, ht,
            Option.map_some, htake, slice_append_slice file (by omega) (by omega)]
        · have hfirst : Gave c p c s (s.dropHeld (turn k c p) c) :=
            gave_dropHeld hc hc (by omega)
          have hall := hfirst.trans hgave
          rwa [show c + (n - c) = n by omega] at hall
      · obtain ⟨henough, htake, hahead⟩ := h.dropHeld hc (a := n) (by omega) hle hq
        exact ⟨_, by rw [hsetup.getLoop_of_le hge hn, if_neg henough, htake], hahead,
          gave_dropHeld hc hn (by omega)⟩

/-- `get_read` of a grip returns its bytes. -/
lemma Ahead.getRead (h : Ahead c file p q tail s) (hc : 0 < c)
    (hsetup : s.Setup c (stripsOf k c file) null) (hq : q ≤ file.length) {fuel : ℕ}
    (hturn : grip.order = s.popfileServedGrip) (hreader : grip.firstReader = turn k c p)
    (hfirst : grip.firstRead = 0) (haligned : 0 < grip.size → c ∣ p) (hle : p + grip.size ≤ q)
    (hfuel : grip.size ≤ fuel) :
    ∃ t, s.getRead fuel grip = some (slice file p (p + grip.size), t) ∧
      Ahead c file (p + grip.size) q tail t ∧ Gave c p (max grip.size 1) s t := by
  rw [hsetup.getRead_eq hturn, hreader, hfirst]
  rcases Nat.lt_or_ge c grip.size with hlt | hge
  · obtain ⟨t, ht, hahead, hgave⟩ := h.getLoop hc hq fuel hsetup (haligned (by omega)) (by omega)
      hle hfuel
    rw [if_pos hlt, ht, Nat.max_eq_left (by omega)]
    exact ⟨_, rfl, hahead, hgave⟩
  · have hmod : 0 < grip.size → p % c = 0 := fun hpos => Nat.mod_eq_zero_of_dvd (haligned hpos)
    have hlt := Nat.mod_lt p hc
    obtain ⟨henough, htake, hahead⟩ := h.dropHeld hc (a := grip.size)
      (by rcases Nat.eq_zero_or_pos grip.size with hz | hz <;> omega) hle hq
    rw [if_neg hge.not_gt, if_neg henough, htake]
    exact ⟨_, rfl, hahead, gave_dropHeld hc (by omega)
      (by rcases Nat.eq_zero_or_pos grip.size with hz | hz <;> omega)⟩

/-- `get_read` of the grip whose turn it is. -/
lemma Follows.getRead (h : Follows c null file w s (grip :: grips)) (hc : 0 < c) {fuel : ℕ}
    (hfuel : file.length ≤ fuel) :
    ∃ t, s.getRead fuel grip =
        some (slice file w.collected (w.collect c).collected, t) ∧
      Follows c null file (w.collect c) t grips := by
  obtain ⟨collected, issued, pending, given⟩ := w
  obtain ⟨hqueued, hheld, hput, hreader, hoffset, hpointer, hservable, hissued, hpending,
    hgrips⟩ := h
  cases hgrips with
  | @cons _ n pending _ _ hsize hfirstReader hfirstRead haligned hrest =>
  subst hsize
  have hnext : collected + grip.size ≤ issued := by
    have hpending : collected + (grip.size :: pending).sum = issued := hpending
    rw [List.sum_cons] at hpending
    omega
  have hahead : Ahead c file collected issued (fun _ => []) s := fun i => by
    rw [List.append_nil]
    exact hheld i
  obtain ⟨hturn, -⟩ := hqueued.orders_cons
  obtain ⟨t, ht, haheadt, hgave⟩ := hahead.getRead hc hqueued.setup hissued hturn hfirstReader
    hfirstRead haligned hnext (hnext.trans' (Nat.le_add_left _ _) |>.trans hissued |>.trans hfuel)
  obtain ⟨-, -, hframe⟩ := hqueued.setup.getRead_collected hturn ht
  have hheldt : ∀ i, t.held i =
      stripFrom k c i (collected + grip.size) (slice file (collected + grip.size) issued) :=
    fun i => (haheadt i).trans (List.append_nil _)
  refine ⟨t, ht, ⟨(hqueued.getRead ht).1, hheldt, fun i => ?_, ?_, ?_, ?_, hservable, hissued, ?_,
    hrest⟩⟩
  · show _ = if (given i || decide (∃ r ∈ List.range' collected (max grip.size 1),
      turn k c r = i)) = true then 0 else (t.held i).length
    rw [hgave i]
    by_cases hgives : ∃ r ∈ List.range' collected (max grip.size 1), turn k c r = i
    · rw [if_pos hgives, if_pos (by rw [decide_eq_true hgives, Bool.or_true])]
    · have hnone : stripFrom k c i collected (slice file collected (collected + grip.size)) = [] :=
        stripFrom_slice_eq_nil (hnext.trans hissued) fun r hle hlt heq =>
          hgives ⟨r, List.mem_range'_1.mpr ⟨hle, by omega⟩, heq⟩
      have hsame : s.held i = t.held i := by
        rw [hheldt, hheld i, stripFrom_slice_append (Nat.le_add_right _ _) hnext hissued, hnone,
          List.nil_append]
      rw [if_neg hgives, hput i, hsame, decide_eq_false hgives, Bool.or_false]
  · rw [hframe]
    exact hreader
  · rw [hframe]
    exact hoffset
  · rw [hframe]
    exact hpointer
  · show collected + grip.size + pending.sum = issued
    rw [Nat.add_assoc, ← List.sum_cons]
    exact hpending

/-- If every byte can be asked for when it is its turn, all calls return, with the bytes of the
file. -/
lemma Follows.run (hc : 0 < c) (hnul : 0 ∉ file) {fuel : ℕ} (hfuel : file.length < fuel)
    (calls : List Call) :
    ∀ {w : Window k} {s : POPFStream k} {grips : List (POPFileGrip k)},
      Follows c null file w s grips → Allowed c file.length null w calls →
      Balanced grips.length calls → w.issued + total calls ≤ file.length →
      ∃ results, Reading.run fuel s grips calls = some results ∧
        results.flatten = slice file w.collected (w.issued + total calls) := by
  induction calls with
  | nil =>
      intro w s grips h _ hbalanced _
      obtain rfl := List.length_eq_zero_iff.mp hbalanced
      have hpending := h.pending
      have hgrips := h.grips
      generalize w.pending = pending at hpending hgrips
      cases hgrips
      rw [List.sum_nil, Nat.add_zero] at hpending
      refine ⟨[], rfl, ?_⟩
      rw [hpending, total, Nat.add_zero, slice_self]
      rfl
  | cons call calls ih =>
      intro w s grips h hallowed hbalanced hfile
      cases call with
      | readInBackground n =>
          have hfile' : w.issued + (n + total calls) ≤ file.length := hfile
          obtain ⟨grip, t, ht, hfollows⟩ := h.readInBackground hc hnul (n := n) (by omega)
            hallowed.1 (show n < fuel by omega)
          obtain ⟨results, hresults, hflatten⟩ := ih hfollows hallowed.2
            (by rw [List.length_append]; exact hbalanced)
            (by show w.issued + n + total calls ≤ _; omega)
          refine ⟨results, Option.bind_eq_some_iff.mpr ⟨_, ht, hresults⟩, hflatten.trans ?_⟩
          show slice file w.collected (w.issued + n + total calls) = _
          rw [Nat.add_assoc]
          rfl
      | getRead =>
          cases grips with
          | nil => exact absurd hbalanced.1 (Nat.lt_irrefl 0)
          | cons grip grips =>
              -- the bytes of this call, and behind them those of the later ones
              obtain ⟨t, ht, hfollows⟩ := h.getRead hc hfuel.le
              obtain ⟨results, hresults, hflatten⟩ := ih hfollows hallowed hbalanced.2
                (by rwa [Window.issued_collect])
              refine ⟨_, Option.bind_eq_some_iff.mpr ⟨_, ht, Option.bind_eq_some_iff.mpr
                ⟨results, hresults, rfl⟩⟩, ?_⟩
              have hcollected := w.collected_le_collect c
              have hle := hfollows.collected_le
              rw [Window.issued_collect] at hle
              rw [List.flatten_cons, hflatten, Window.issued_collect]
              exact slice_append_slice file hcollected (by omega)

end Follows

end PopCpp.PopFile.Reading
