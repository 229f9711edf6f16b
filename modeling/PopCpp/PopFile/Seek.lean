/-
# Seeking in a parallel file

`POPFStream::seekg` (`dev/popfile/popfile.cpp`) sets the reader that comes next and the read
pointer, and leaves the offset of the block where it is.  The reads begin at the block of the
reader and use the pointer as a length only, so that a position inside of a block cannot be
reached at all.  The loop counts the blocks before the position as one too few, except at the
start of the file, and it wraps around after `k + 1` readers in place of `k`
(`seekLoop_eq_some`).
-/
import PopCpp.PopFile.Reads

namespace PopCpp.PopFile.Reading

open Striping

/-! ### `seekg` -/

/-- The variables of the input side that say where the stream is.  The reader may be one that
there is not. -/
structure Position where
  popfileCurrentReader : ℕ
  popfileCurrentReaderOffset : ℤ
  popfileInternalReadPointer : ℕ
deriving DecidableEq

/-- A call of `read_in_strip`: the reader, the place in the strip and the number of bytes. -/
structure Request where
  reader : ℕ
  start : ℤ
  offset : ℕ
deriving DecidableEq

/-- The loop of `seekg`: the reader after it. -/
def seekLoop (popfileOffset popfileStripNumber : ℕ) : ℕ → ℕ → ℕ → Option ℕ
  | 0, _, _ => none
  | fuel + 1, b, reader =>
      if popfileOffset < b then
        seekLoop popfileOffset popfileStripNumber fuel (b - popfileOffset)
          (if popfileStripNumber < reader + 1 then 0 else reader + 1)
      else some reader

/-- What a read of that size asks for first. -/
def Position.firstRequest (popfileOffset : ℕ) (p : Position) (size : ℕ) : Option Request :=
  if popfileOffset ≤ size then
    some ⟨p.popfileCurrentReader, p.popfileCurrentReaderOffset,
      if p.popfileInternalReadPointer ≠ 0 then p.popfileInternalReadPointer else popfileOffset⟩
  else if 0 < size then
    some ⟨p.popfileCurrentReader, p.popfileCurrentReaderOffset, size⟩
  else none

namespace POPFStream

variable {k : ℕ}

/-- Where a stream is. -/
def position (s : POPFStream k) : Position where
  popfileCurrentReader := s.popfileCurrentReader
  popfileCurrentReaderOffset := s.popfileCurrentReaderOffset
  popfileInternalReadPointer := s.popfileInternalReadPointer

/-- `seekg`. -/
def seekg (fuel : ℕ) (s : POPFStream k) (a : ℕ) : Option Position := do
  let reader ← seekLoop s.popfileOffset k fuel a 0
  some { s.position with
    popfileCurrentReader := reader
    popfileInternalReadPointer := a % s.popfileOffset }

/-- A read that returns has made its first request. -/
lemma firstRequest_of_readInBackground [NeZero k] {s : POPFStream k} {fuel size : ℕ}
    {r : POPFileGrip k × POPFStream k} (h : s.readInBackground fuel size = some r)
    (hsize : 0 < size) :
    ∃ q r', s.position.firstRequest s.popfileOffset size = some q ∧
      q.reader = s.popfileCurrentReader ∧
      (s.popfileReaderRef s.popfileCurrentReader).readInStrip q.start q.offset = some r' := by
  cases fuel with
  | zero => cases h
  | succ fuel =>
      rw [readInBackground, readLoop] at h
      rw [Position.firstRequest]
      split_ifs at h with hblock hpointer
      · obtain ⟨t, ht, -⟩ := Option.bind_eq_some_iff.mp h
        obtain ⟨r', hr', -⟩ := Option.bind_eq_some_iff.mp ht
        have hpointer : s.position.popfileInternalReadPointer ≠ 0 := hpointer
        rw [if_pos hblock, if_pos hpointer]
        exact ⟨_, r', rfl, rfl, hr'⟩
      · obtain ⟨t, ht, -⟩ := Option.bind_eq_some_iff.mp h
        obtain ⟨r', hr', -⟩ := Option.bind_eq_some_iff.mp ht
        have hpointer : ¬s.position.popfileInternalReadPointer ≠ 0 := hpointer
        rw [if_pos hblock, if_neg hpointer]
        exact ⟨_, r', rfl, rfl, hr'⟩
      · obtain ⟨t, ht, -⟩ := Option.bind_eq_some_iff.mp h
        obtain ⟨r', hr', -⟩ := Option.bind_eq_some_iff.mp ht
        rw [if_neg hblock]
        exact ⟨_, r', if_pos hsize, rfl, hr'⟩

end POPFStream

/-! ### The place of a byte -/

/-- The place of a byte of the file in its strip. -/
def placeInStrip (k c a : ℕ) : ℕ := a / (c * k) * c + a % c

lemma getElem?_strip_placeInStrip {k c : ℕ} (hk : 0 < k) (hc : 0 < c) (a : ℕ)
    (file : List UInt8) : (strip k c (a / c % k) file)[placeInStrip k c a]? = file[a]? := by
  have hrest := Nat.mod_lt a hc
  have hpos : (a / (c * k) * k + a / c % k) * c + a % c = a := by
    rw [← Nat.div_div_eq_div_mul, Nat.mul_comm (a / c / k), Nat.div_add_mod, Nat.mul_comm,
      Nat.div_add_mod]
  have hblock := congrArg (·[a % c]?)
    (take_drop_strip hc (Nat.mod_lt (a / c) hk) le_rfl (a / (c * k)) file)
  simp only [List.getElem?_take_of_lt hrest, List.getElem?_drop, hpos] at hblock
  exact hblock

/-- The stream is at the block of the byte `a`, and every read begins at this byte. -/
structure Position.At (k c a : ℕ) (p : Position) : Prop where
  reader : p.popfileCurrentReader = a / c % k
  reader_lt : p.popfileCurrentReader < k
  readerOffset : p.popfileCurrentReaderOffset = ↑(a / (c * k) * c)
  start : ∀ size, 0 < size →
    ∃ n, p.firstRequest c size = some ⟨a / c % k, ↑(placeInStrip k c a), n⟩

/-- All reads begin at the block. -/
lemma Position.firstRequest_eq (p : Position) (c : ℕ) {size : ℕ} (hsize : 0 < size) :
    ∃ n, p.firstRequest c size =
      some ⟨p.popfileCurrentReader, p.popfileCurrentReaderOffset, n⟩ := by
  rw [firstRequest]
  split_ifs
  · exact ⟨_, rfl⟩
  · exact ⟨_, rfl⟩
  · exact ⟨_, rfl⟩

/-- A read from a stream that is at the byte `a` asks the strip of that byte first, and from the
place of the byte on. -/
theorem POPFStream.readInStrip_of_at {k : ℕ} [NeZero k] {s : POPFStream k} {a fuel size : ℕ}
    {r : POPFileGrip k × POPFStream k} (hat : s.position.At k s.popfileOffset a)
    (h : s.readInBackground fuel size = some r) (hsize : 0 < size) :
    (s.popfileCurrentReader : ℕ) = a / s.popfileOffset % k ∧
      ∃ n r', (s.popfileReaderRef s.popfileCurrentReader).readInStrip
        (placeInStrip k s.popfileOffset a) n = some r' := by
  obtain ⟨q, r', hq, -, hr'⟩ := s.firstRequest_of_readInBackground h hsize
  obtain ⟨n, hn⟩ := hat.start size hsize
  obtain rfl := Option.some.inj (hq.symm.trans hn)
  exact ⟨hat.reader, n, r', hr'⟩

lemma Position.at_iff {k c a : ℕ} (hk : 0 < k) (p : Position) :
    p.At k c a ↔ p.popfileCurrentReader = a / c % k ∧ a % c = 0 ∧
      p.popfileCurrentReaderOffset = ↑(a / (c * k) * c) := by
  constructor
  · intro h
    refine ⟨h.reader, ?_, h.readerOffset⟩
    obtain ⟨n, hn⟩ := h.start 1 Nat.one_pos
    obtain ⟨m, hm⟩ := p.firstRequest_eq c Nat.one_pos
    have hstart : p.popfileCurrentReaderOffset = ↑(placeInStrip k c a) := by
      have := Option.some.inj (hm.symm.trans hn)
      injection this
    rw [h.readerOffset, placeInStrip] at hstart
    omega
  · rintro ⟨hreader, hrest, hoffset⟩
    refine ⟨hreader, hreader ▸ Nat.mod_lt _ hk, hoffset, fun size hsize => ?_⟩
    obtain ⟨n, hn⟩ := p.firstRequest_eq c hsize
    exact ⟨n, by rw [hn, hreader, hoffset, placeInStrip, hrest, Nat.add_zero]⟩

/-! ### The loop -/

/-- The loop ends, after `(b - 1) / c` rounds. -/
lemma seekLoop_eq_some {c : ℕ} (hc : 0 < c) (k : ℕ) : ∀ {fuel b reader : ℕ}, b < fuel →
    reader ≤ k → seekLoop c k fuel b reader = some ((reader + (b - 1) / c) % (k + 1)) := by
  intro fuel
  induction fuel with
  | zero => exact fun h => absurd h (Nat.not_lt_zero _)
  | succ fuel ih =>
      intro b reader hfuel hreader
      rw [seekLoop]
      split_ifs with hb hwrap
      · have hreader : reader = k := by omega
        have hrounds : (b - 1) / c = (b - c - 1) / c + 1 := by
          rw [Nat.div_eq_sub_div hc (by omega), Nat.sub_right_comm]
        rw [ih (by omega) (Nat.zero_le k), hrounds, hreader, Nat.zero_add, ← Nat.add_assoc,
          Nat.add_right_comm, Nat.add_mod_left]
      · have hrounds : (b - 1) / c = (b - c - 1) / c + 1 := by
          rw [Nat.div_eq_sub_div hc (by omega), Nat.sub_right_comm]
        rw [ih (by omega) (by omega), hrounds, Nat.add_right_comm reader, Nat.add_assoc]
      · have hrounds : (b - 1) / c = 0 := Nat.div_eq_of_lt (by omega)
        rw [hrounds, Nat.add_zero, Nat.mod_eq_of_lt (by omega)]

/-- One result for every amount of fuel. -/
lemma seekLoop_mono {c k : ℕ} : ∀ {fuel fuel' b reader r : ℕ}, fuel ≤ fuel' →
    seekLoop c k fuel b reader = some r → seekLoop c k fuel' b reader = some r := by
  intro fuel
  induction fuel with
  | zero => exact fun _ h => by cases h
  | succ fuel ih =>
      intro fuel' b reader r hle h
      obtain ⟨fuel', rfl⟩ : ∃ n, fuel' = n + 1 := ⟨fuel' - 1, by omega⟩
      rw [seekLoop] at h ⊢
      split_ifs at h ⊢ with hb
      · exact ih (by omega) h
      · exact ih (by omega) h
      · exact h

namespace POPFStream

variable {k c : ℕ}

/-- Where `seekg` leaves the stream. -/
def sought (s : POPFStream k) (c a : ℕ) : Position where
  popfileCurrentReader := (a - 1) / c % (k + 1)
  popfileCurrentReaderOffset := s.popfileCurrentReaderOffset
  popfileInternalReadPointer := a % c

/-- `seekg` returns. -/
lemma seekg_eq_some {s : POPFStream k} (hoffset : s.popfileOffset = c) (hc : 0 < c) (a : ℕ) :
    s.seekg (a + 1) a = some (s.sought c a) := by
  rw [seekg, hoffset, seekLoop_eq_some hc k (Nat.lt_succ_self a) (Nat.zero_le k), Nat.zero_add]
  rfl

lemma eq_sought_of_seekg {s : POPFStream k} (hoffset : s.popfileOffset = c) (hc : 0 < c)
    {a fuel : ℕ} {p : Position} (h : s.seekg fuel a = some p) : p = s.sought c a := by
  obtain ⟨reader, hreader, hp⟩ := Option.bind_eq_some_iff.mp h
  have hmore := seekLoop_mono (Nat.le_max_left fuel (a + 1)) hreader
  rw [hoffset, seekLoop_eq_some hc k (by omega) (Nat.zero_le k), Nat.zero_add] at hmore
  cases hp
  cases hmore
  rw [hoffset]
  rfl

/-- `seekg` leads to the byte `a` if and only if that is the start of a block `q`, the reader of
the block before it, counted with one reader too many, is the reader of the block, and the stream
is in the round of the block already. -/
lemma sought_at_iff (s : POPFStream k) (hc : 0 < c) (a : ℕ) :
    (s.sought c a).At k c a ↔ ∃ q, a = q * c ∧ (q - 1) % (k + 1) = q % k ∧
      s.popfileCurrentReaderOffset = ↑(q / k * c) := by
  have hk : 0 < k := s.popfileCurrentReader.pos
  have hblocks : ∀ q, (q * c - 1) / c = q - 1 := by
    intro q
    cases q with
    | zero => simp
    | succ q =>
        rw [Nat.succ_mul, Nat.add_sub_assoc hc, Nat.mul_comm, Nat.mul_add_div hc,
          Nat.div_eq_of_lt (Nat.sub_lt hc Nat.one_pos), Nat.add_zero, Nat.add_sub_cancel]
  rw [Position.at_iff hk]
  constructor
  · rintro ⟨hreader, hrest, hround⟩
    obtain ⟨q, rfl⟩ : ∃ q, a = q * c :=
      ⟨a / c, (Nat.div_mul_cancel (Nat.dvd_of_mod_eq_zero hrest)).symm⟩
    rw [sought, hblocks, Nat.mul_div_cancel _ hc] at hreader
    rw [Nat.mul_comm c k, Nat.mul_div_mul_right _ _ hc] at hround
    exact ⟨q, rfl, hreader, hround⟩
  · rintro ⟨q, rfl, hreader, hround⟩
    refine ⟨?_, Nat.mul_mod_left q c, ?_⟩
    · rw [sought, hblocks, Nat.mul_div_cancel _ hc]
      exact hreader
    · rw [Nat.mul_comm c k, Nat.mul_div_mul_right _ _ hc]
      exact hround

/-- On a stream that has been opened and not read from, that is so at the start only. -/
theorem sought_at_opened_iff [NeZero k] (hc : 0 < c) (strips : Fin k → List UInt8)
    (null : Fin k → Bool) (a : ℕ) : ((opened c c strips null).sought c a).At k c a ↔ a = 0 := by
  have hk : 0 < k := Nat.pos_of_neZero k
  rw [sought_at_iff _ hc]
  constructor
  · rintro ⟨q, rfl, hreader, hround⟩
    have hround : 0 = q / k * c := Int.ofNat.inj hround
    have hq : q < k := by
      refine Nat.lt_of_not_le fun hle => ?_
      have := Nat.mul_pos (Nat.div_pos hle hk) hc
      omega
    rw [Nat.mod_eq_of_lt (by omega), Nat.mod_eq_of_lt hq] at hreader
    rw [show q = 0 by omega, Nat.zero_mul]
  · rintro rfl
    exact ⟨0, (Nat.zero_mul c).symm, by simp, by simp [opened]⟩

/-- `seekg` returns, and leaves the stream at the byte `a`, if and only if that is the start of a
block `q`, the reader of the block before it, counted with one reader too many, is the reader of
the block, and the stream is in the round of the block already. -/
theorem seekg_at_iff (s : POPFStream k) (hoffset : s.popfileOffset = c) (hc : 0 < c) (a : ℕ) :
    (∃ fuel p, s.seekg fuel a = some p ∧ p.At k c a) ↔
      ∃ q, a = q * c ∧ (q - 1) % (k + 1) = q % k ∧
        s.popfileCurrentReaderOffset = ↑(q / k * c) := by
  rw [← sought_at_iff s hc a]
  constructor
  · rintro ⟨fuel, p, hp, hat⟩
    exact eq_sought_of_seekg hoffset hc hp ▸ hat
  · exact fun hat => ⟨a + 1, _, seekg_eq_some hoffset hc a, hat⟩

local instance neZero_two : NeZero 2 := ⟨by decide⟩

/-- The stream of a file with two strips, and blocks of two bytes, after two rounds. -/
def thirdRound : POPFStream 2 :=
  { opened 2 2 (stripsOf 2 2 [1, 2, 3, 4, 5, 6, 7, 8, 9, 10]) fun _ => true with
    popfileCurrentReaderOffset := 4 }

/-- In the third round its first block is found. -/
theorem seekg_at_thirdRound : ∃ fuel p, thirdRound.seekg fuel 8 = some p ∧ p.At 2 2 8 :=
  (thirdRound.seekg_at_iff rfl Nat.two_pos 8).mpr ⟨4, rfl, by decide, rfl⟩

/-- After `seekg(2)` on a file with blocks of two bytes the stream is still at the first reader. -/
theorem exists_seekg_not_at :
    ¬ ∀ (k c : ℕ) [NeZero k] (strips : Fin k → List UInt8) (null : Fin k → Bool) (a : ℕ), 1 ≤ c →
      ∃ fuel p, (opened c c strips null).seekg fuel a = some p ∧ p.At k c a := by
  intro h
  obtain ⟨fuel, p, hp, hat⟩ := h 2 2 (stripsOf 2 2 [1, 2, 3, 4, 5, 6, 7, 8]) (fun _ => true) 2
    one_le_two
  rw [eq_sought_of_seekg rfl Nat.two_pos hp] at hat
  exact absurd ((sought_at_opened_iff Nat.two_pos _ _ 2).mp hat) (by decide)

end POPFStream

end PopCpp.PopFile.Reading
