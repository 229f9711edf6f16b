/-
# Loading a buffer from memory

`get_load` writes the header words into the first 20 bytes and returns the address of the
vector, and `load` is to make a buffer out of these bytes again.  `load` of `pop_buffer_xdr` is
written like `Recv`, but it copies all of the bytes into the 20 that are left after `Reset`,
before `resize` makes room for them.  `load` of `pop_buffer_raw` only copies: it neither makes
room, nor reads the header words, nor moves the unpack position.

Nothing is known of memory outside of the vector, so copying into it is undefined, whatever
capacity the vector may have kept.
-/
import PopCpp.Buffer.Framing
import PopCpp.Buffer.BoolArray

namespace PopCpp.Buffer

open Bytes CInt

/-! ### `get_size`, `get_load` and `load` -/

/-- `get_size()`. -/
def getSize (b : PopBuffer) : ℤ := wrap b.packeddata.length

/-- `get_load()`, the same in both classes but for the layout of the words: null, or the bytes
that are at the address. -/
def getLoad (F : Format) : BufM (Option (List UInt8)) := do
  let b ← this
  if b.packeddata = [] then pure none
  else
    match headerWords (wrap b.packeddata.length) b.header with
    | none => pure none
    | some h => do
        store 0 (h.flatMap F.putWord)
        let b ← this
        pure (some b.packeddata)

/-- `memcpy(packeddata.data(), data, length)`. -/
def copyIn (data : List UInt8) (length : ℤ) : BufM Unit := fun b =>
  if sizeT length ≤ data.length then store 0 (data.take (sizeT length)) b else .undefined

/-- `pop_buffer_raw::load(data, length)`. -/
def Raw.load (data : List UInt8) (length : ℤ) : BufM Unit := copyIn data length

/-- `pop_buffer_xdr::load(data, length)`. -/
def Xdr.load (lib : XdrLib) (data : List UInt8) (length : ℤ) : BufM Unit := do
  Xdr.reset
  copyIn data length
  let h ← Buffer.load 0 20
  let n := (word (xdr lib) h 0).toInt
  if n < 20 then pure ()
  else do
    let b ← this
    let read := readHeader b.header (word (xdr lib) h 1) (word (xdr lib) h 2)
      (word (xdr lib) h 3) (word (xdr lib) h 4)
    setHeader read.1
    if read.2 = false then pure ()
    else resize (sizeT length)

/-! ### What is to be restored -/

/-- The buffer `t'` has the contents of `b`, and is to be unpacked from the start. -/
structure Restored (b t' : PopBuffer) : Prop where
  fields : t'.header.fields = b.header.fields
  size : t'.packeddata.length = b.packeddata.length
  payload : t'.packeddata.drop 20 = b.packeddata.drop 20
  unpackpos : t'.unpackpos = 20

/-- `load(get_load(), get_size())` on `t` returns, and `t` is then what `b` is. -/
def Undone (F : Format) (load : List UInt8 → ℤ → BufM Unit) (b t : PopBuffer) : Prop :=
  ∃ data b' t', getLoad F b = .ok (some data) b' ∧ load data (getSize b') t = .ok () t' ∧
    Restored b t'

/-- The buffer `t` needs nothing but the bytes that `load` of `pop_buffer_raw` copies. -/
structure Raw.Prepared (b t : PopBuffer) : Prop where
  fields : t.header.fields = b.header.fields
  size : t.packeddata.length = b.packeddata.length
  unpackpos : t.unpackpos = 20
  copied : sizeT (wrap b.packeddata.length) ≤ b.packeddata.length
  rest : t.packeddata.drop (max (sizeT (wrap b.packeddata.length)) 20) =
    b.packeddata.drop (max (sizeT (wrap b.packeddata.length)) 20)

/-! ### What the calls do -/

variable {F : Format} {b t : PopBuffer}

/-- The bytes that `get_load` returns, with a header that can be read again. -/
lemma getLoad_eq (hF : F.Frames) (htype : b.header.type = TYPE_REQUEST ∨
    b.header.type = TYPE_RESPONSE ∨ b.header.type = TYPE_EXCEPTION)
    (hheader : 20 ≤ b.packeddata.length) :
    ∃ hs, hs.length = 20 ∧ word F hs 0 = BitVec.ofInt 32 (wrap b.packeddata.length) ∧
      (∀ old, readHeader old (word F hs 1) (word F hs 2) (word F hs 3) (word F hs 4) =
        (old.received b.header, true)) ∧
      getLoad F b = .ok (some (hs ++ b.packeddata.drop 20))
        { b with packeddata := hs ++ b.packeddata.drop 20 } := by
  obtain ⟨ws, hs, hwords, hhs, hlen, h0, hread⟩ :=
    headerBytes_of_type hF htype (wrap b.packeddata.length)
  have hne : b.packeddata ≠ [] := by
    intro h
    simp [h] at hheader
  refine ⟨hs, hlen, h0, hread, ?_⟩
  rw [getLoad, BufM.bind_ok (rfl : this b = .ok b b), if_neg hne]
  simp only [hwords, hhs]
  rw [BufM.bind_ok (store_zero (by omega)), hlen]
  rfl

/-- `load(get_load(), get_size())` with these bytes. -/
lemma undone_iff (hF : F.Frames) (htype : b.header.type = TYPE_REQUEST ∨
    b.header.type = TYPE_RESPONSE ∨ b.header.type = TYPE_EXCEPTION)
    (hheader : 20 ≤ b.packeddata.length) :
    ∃ hs, hs.length = 20 ∧ word F hs 0 = BitVec.ofInt 32 (wrap b.packeddata.length) ∧
      (∀ old, readHeader old (word F hs 1) (word F hs 2) (word F hs 3) (word F hs 4) =
        (old.received b.header, true)) ∧
      ∀ load t, Undone F load b t ↔
        ∃ t', load (hs ++ b.packeddata.drop 20) (wrap b.packeddata.length) t = .ok () t' ∧
          Restored b t' := by
  obtain ⟨hs, hlen, h0, hread, hload⟩ := getLoad_eq hF htype hheader
  have hsize : getSize { b with packeddata := hs ++ b.packeddata.drop 20 } =
      wrap b.packeddata.length := by
    rw [getSize, List.length_append, hlen, List.length_drop, Nat.add_sub_of_le hheader]
  refine ⟨hs, hlen, h0, hread, fun load t => ⟨?_, ?_⟩⟩
  · rintro ⟨data, b', t', hdata, hback, hrestored⟩
    rw [hload] at hdata
    cases hdata
    rw [hsize] at hback
    exact ⟨t', hback, hrestored⟩
  · rintro ⟨t', hback, hrestored⟩
    exact ⟨_, _, t', hload, by rwa [hsize], hrestored⟩

lemma copyIn_eq_ok {data : List UInt8} {n : ℤ} {t' : PopBuffer} :
    copyIn data n t = .ok () t' ↔ sizeT n ≤ data.length ∧ sizeT n ≤ t.packeddata.length ∧
      t' = { t with packeddata := data.take (sizeT n) ++ t.packeddata.drop (sizeT n) } := by
  rw [copyIn]
  by_cases hread : sizeT n ≤ data.length
  · have hlen : (data.take (sizeT n)).length = sizeT n := by
      rw [List.length_take, Nat.min_eq_left hread]
    rw [if_pos hread]
    by_cases hwrite : sizeT n ≤ t.packeddata.length
    · rw [store_zero (by omega), hlen]
      simp only [Result.ok.injEq, true_and, hread, hwrite]
      exact eq_comm
    · have hne : data.take (sizeT n) ≠ [] := by
        intro h
        rw [h, List.length_nil] at hlen
        omega
      rw [store, if_neg hne, if_neg (by omega)]
      simp [hwrite]
  · simp [hread]

/-! ### The raw encoding -/

lemma drop_eq_drop_iff {α : Type} {xs ys : List α} {m : ℕ} :
    xs.drop m = ys.drop m ↔ ∀ i, m ≤ i → xs[i]? = ys[i]? := by
  constructor
  · intro h i hi
    have hget := congrArg (fun zs => zs[i - m]?) h
    simpa only [List.getElem?_drop, Nat.add_sub_cancel' hi] using hget
  · intro h
    ext j : 1
    rw [List.getElem?_drop, List.getElem?_drop]
    exact h _ (Nat.le_add_right m j)

/-- What has not been copied has to be there. -/
lemma drop_copied_iff {α : Type} {data xs ys : List α} {k m : ℕ} (hk : k ≤ data.length)
    (hdata : data.drop m = xs.drop m) :
    (data.take k ++ ys.drop k).drop m = xs.drop m ↔ ys.drop (max k m) = xs.drop (max k m) := by
  have hcopied : ∀ i, (data.take k ++ ys.drop k)[i]? = if i < k then data[i]? else ys[i]? := by
    intro i
    split
    · next hi =>
        rw [List.getElem?_append_left (by rw [List.length_take]; omega),
          List.getElem?_take_of_lt hi]
    · next hi =>
        rw [List.getElem?_append_right (by rw [List.length_take]; omega), List.length_take,
          Nat.min_eq_left hk, List.getElem?_drop, Nat.add_sub_cancel' (by omega)]
  rw [drop_eq_drop_iff] at hdata ⊢
  rw [drop_eq_drop_iff]
  constructor
  · intro h i hi
    rw [← h i (by omega), hcopied, if_neg (by omega)]
  · intro h i hi
    rw [hcopied]
    split
    · exact hdata i hi
    · exact h i (by omega)

lemma undone_raw_iff (htype : b.header.type = TYPE_REQUEST ∨ b.header.type = TYPE_RESPONSE ∨
    b.header.type = TYPE_EXCEPTION) (hheader : 20 ≤ b.packeddata.length) :
    Undone raw Raw.load b t ↔ Raw.Prepared b t := by
  obtain ⟨hs, hlen, -, -, hundone⟩ := undone_iff frames_raw htype hheader
  rw [hundone]
  set k := sizeT (wrap b.packeddata.length) with hk
  have hdatalen : (hs ++ b.packeddata.drop 20).length = b.packeddata.length := by
    rw [List.length_append, hlen, List.length_drop, Nat.add_sub_of_le hheader]
  have hdata : (hs ++ b.packeddata.drop 20).drop 20 = b.packeddata.drop 20 := List.drop_left' hlen
  have hsame : ∀ hle : k ≤ b.packeddata.length, k ≤ t.packeddata.length →
      ((hs ++ b.packeddata.drop 20).take k ++ t.packeddata.drop k).length =
        t.packeddata.length := by
    intro hle hle'
    rw [List.length_append, List.length_take, hdatalen, List.length_drop]
    omega
  constructor
  · rintro ⟨t', hload, hfields, hsize, hpayload, hpos⟩
    obtain ⟨hread, hwrite, rfl⟩ := copyIn_eq_ok.mp hload
    rw [hdatalen] at hread
    exact ⟨hfields, (hsame hread hwrite).symm.trans hsize, hpos, hread,
      (drop_copied_iff (by rwa [hdatalen]) hdata).mp hpayload⟩
  · rintro ⟨hfields, hsize, hpos, hcopied, hrest⟩
    have hwrite : k ≤ t.packeddata.length := by rwa [hsize]
    refine ⟨_, copyIn_eq_ok.mpr ⟨by rwa [hdatalen], hwrite, rfl⟩, hfields, ?_, ?_, hpos⟩
    · exact (hsame hcopied hwrite).trans hsize
    · exact (drop_copied_iff (by rwa [hdatalen]) hdata).mpr hrest

/-! ### The XDR encoding -/

/-- Without an overrun `load` leaves 20 bytes at most. -/
lemma Xdr.length_load_le {lib : XdrLib} {data : List UInt8} {n : ℤ} {t' : PopBuffer}
    (h : Xdr.load lib data n t = .ok () t') : t'.packeddata.length ≤ 20 := by
  rw [Xdr.load, BufM.bind_ok (rfl : Xdr.reset t = .ok _ _)] at h
  obtain ⟨u, t₁, hcopy, h⟩ := BufM.bind_eq_ok.mp h
  obtain ⟨hread, hwrite, rfl⟩ := copyIn_eq_ok.mp hcopy
  rw [List.length_replicate] at hwrite
  obtain ⟨bs, t₂, hload, h⟩ := BufM.bind_eq_ok.mp h
  have hlen : t₂.packeddata.length ≤ 20 := by
    simp only [Buffer.load] at hload
    split at hload
    · cases hload
      simp only [List.length_append, List.length_take, List.length_drop, List.length_replicate]
      omega
    · cases hload
  simp only at h
  split at h
  · cases h
    exact hlen
  · rw [BufM.bind_ok (rfl : this t₂ = .ok t₂ t₂),
      BufM.bind_ok (rfl : setHeader _ t₂ = .ok () _)] at h
    split at h
    · cases h
      exact hlen
    · exact (resize_eq_ok h).2.le.trans hwrite

lemma undone_xdr_iff (lib : XdrLib) (htype : b.header.type = TYPE_REQUEST ∨
    b.header.type = TYPE_RESPONSE ∨ b.header.type = TYPE_EXCEPTION)
    (hheader : 20 ≤ b.packeddata.length) :
    Undone (xdr lib) (Xdr.load lib) b t ↔ b.packeddata.length = 20 := by
  obtain ⟨hs, hlen, h0, hread, hundone⟩ := undone_iff (frames_xdr lib) htype hheader
  rw [hundone]
  constructor
  · rintro ⟨t', hload, hrestored⟩
    have hle := Xdr.length_load_le hload
    rw [hrestored.size] at hle
    omega
  · intro hsize
    have hpayload : b.packeddata.drop 20 = [] := List.drop_of_length_le hsize.le
    have hn : wrap (b.packeddata.length : ℤ) = 20 := by
      rw [hsize]
      decide
    have hk : sizeT 20 = 20 := by decide
    have hcopy : copyIn hs 20 { t with unpackpos := 20, packeddata := List.replicate 20 0 } =
        .ok () { t with unpackpos := 20, packeddata := hs } := by
      refine copyIn_eq_ok.mpr ⟨by omega, by simp [hk], ?_⟩
      rw [hk, List.take_of_length_le hlen.le, List.drop_of_length_le (by simp), List.append_nil]
    have hloaded : Buffer.load 0 20 { t with unpackpos := 20, packeddata := hs } =
        .ok hs { t with unpackpos := 20, packeddata := hs } := by
      simp [Buffer.load, hlen, List.take_of_length_le]
    -- the size in the message is that of a message without payload
    have hsizeword : (word (xdr lib) hs 0).toInt = 20 := by
      rw [h0, hn]
      rfl
    have hresize : resize 20 ⟨t.header.received b.header, 20, hs⟩ =
        .ok () ⟨t.header.received b.header, 20, hs⟩ := by
      simp [resize, hlen, List.take_of_length_le]
    refine ⟨⟨t.header.received b.header, 20, hs⟩, ?_, fields_received htype _, ?_, ?_, rfl⟩
    · rw [hpayload, List.append_nil, hn, Xdr.load, BufM.bind_ok (rfl : Xdr.reset t = .ok _ _),
        BufM.bind_ok hcopy, BufM.bind_ok hloaded]
      simp only [hsizeword, lt_irrefl, if_false]
      rw [BufM.bind_ok (rfl : this _ = .ok _ _)]
      simp only [hread, Bool.true_eq_false, if_false]
      rw [BufM.bind_ok (rfl : setHeader _ _ = .ok _ _), hk, hresize]
    · exact hlen.trans hsize.symm
    · rw [hpayload]
      exact List.drop_of_length_le hlen.le

/-- **Loading.**  `load` of `pop_buffer_raw` makes `b` out of a buffer that has the same size,
the same header and its unpack position at the start already, and as far as it does not copy
the same payload; `load` of `pop_buffer_xdr` does so exactly if there is no payload. -/
theorem load_undoes_getLoad_iff (b t : PopBuffer) (htype : b.header.type = TYPE_REQUEST ∨
    b.header.type = TYPE_RESPONSE ∨ b.header.type = TYPE_EXCEPTION)
    (hheader : 20 ≤ b.packeddata.length) :
    (Undone raw Raw.load b t ↔ Raw.Prepared b t) ∧
      ∀ lib, Undone (xdr lib) (Xdr.load lib) b t ↔ b.packeddata.length = 20 :=
  ⟨undone_raw_iff htype hheader, fun lib => undone_xdr_iff lib htype hheader⟩

/-- An exception has no payload; and a request of the raw encoding is loaded into a buffer of its
size that has its header. -/
theorem load_undoes_getLoad_iff_exception :
    Undone (xdr XdrLib.standard) (Xdr.load XdrLib.standard)
        ⟨⟨TYPE_EXCEPTION, 0, 0, 0, 5⟩, 20, List.replicate 20 0⟩ (empty ⟨0, 0, 0, 0, 0⟩) ∧
      Undone raw Raw.load ⟨⟨TYPE_REQUEST, 7, 12, 1, 0⟩, 20, List.replicate 20 0 ++ [1, 2, 3, 4]⟩
        ⟨⟨TYPE_REQUEST, 7, 12, 1, 0⟩, 20, List.replicate 24 0⟩ := by
  have hxdr := (load_undoes_getLoad_iff
    ⟨⟨TYPE_EXCEPTION, 0, 0, 0, 5⟩, 20, List.replicate 20 0⟩ (empty ⟨0, 0, 0, 0, 0⟩)
    (.inr (.inr rfl)) (by decide)).2
  have hraw := (load_undoes_getLoad_iff
    ⟨⟨TYPE_REQUEST, 7, 12, 1, 0⟩, 20, List.replicate 20 0 ++ [1, 2, 3, 4]⟩
    ⟨⟨TYPE_REQUEST, 7, 12, 1, 0⟩, 20, List.replicate 24 0⟩ (.inl rfl) (by decide)).1
  exact ⟨(hxdr XdrLib.standard).mpr rfl, hraw.mpr ⟨rfl, rfl, rfl, by decide, by decide⟩⟩

/-- A request with four bytes of arguments is not restored in a new buffer. -/
theorem request_not_loaded :
    ¬Undone raw Raw.load ⟨⟨TYPE_REQUEST, 7, 12, 1, 0⟩, 20, List.replicate 20 0 ++ [1, 2, 3, 4]⟩
        (empty ⟨0, 0, 0, 0, 0⟩) ∧
      ∀ lib, ¬Undone (xdr lib) (Xdr.load lib)
        ⟨⟨TYPE_REQUEST, 7, 12, 1, 0⟩, 20, List.replicate 20 0 ++ [1, 2, 3, 4]⟩
          (empty ⟨0, 0, 0, 0, 0⟩) := by
  refine ⟨fun h => ?_, fun lib h => ?_⟩
  · have hsize := ((undone_raw_iff (.inl rfl) (by decide)).mp h).size
    exact absurd hsize (by decide)
  · have hsize := (undone_xdr_iff lib (.inl rfl) (by decide)).mp h
    exact absurd hsize (by decide)

end PopCpp.Buffer
