/-
# Bounds

The count that a caller passes to `UnPack` often comes from the message itself, so it can be
any `int`.  The number of bytes is computed from it modulo `2 ^ 32` and then checked against
the end of the buffer.  This file works out for which counts the check is enough.

For `pop_buffer_xdr` a number of bytes that has wrapped around to a small positive one does no
harm, because `xdr_vector` stops at the end of its window.  One that is negative passes the
check as soon as it is not below minus the unpack position, and then the window is larger than
the buffer.  `pop_buffer_raw` has no window: whatever is left of the number of bytes after it
has wrapped around is copied, and the caller is not told.
-/
import PopCpp.Buffer.RoundTrip
import PopCpp.Buffer.Framing

namespace PopCpp.Buffer

open Bytes CInt

variable {α : Type}

/-! ### What is asked for -/

/-- The elements stand one after the other from the unpack position on, each in `w` bytes of
the payload, and are what `get` makes of these. -/
def Delivered (get : List UInt8 → Option α) (w : ℕ) (b : PopBuffer) (vs : List α) : Prop :=
  ∀ (i : ℕ) (h : i < vs.length), 20 ≤ b.unpackpos + (i * w : ℕ) ∧
    b.unpackpos + (i * w + w : ℕ) ≤ b.packeddata.length ∧
    get ((b.packeddata.drop (b.unpackpos.toNat + i * w)).take w) = some vs[i]

/-- The call throws and leaves the unpack position where it is, or it returns `n` elements of
the payload. -/
def InBounds (m : BufM (List α)) (get : List UInt8 → Option α) (w : ℕ) (n : ℤ)
    (b : PopBuffer) : Prop :=
  (∃ e b', m b = .throws e b' ∧ b'.unpackpos = b.unpackpos) ∨
    ∃ vs b', m b = .ok vs b' ∧ (vs.length : ℤ) = n ∧ Delivered get w b vs

/-- What `pop_buffer_xdr` makes of the bytes of one element. -/
def Xdr.element (lib : XdrLib) : (k : Kind) → List UInt8 → Option k.Val
  | .int => lib.xdr_int.get
  | .unsigned => lib.xdr_u_int.get
  | .long => lib.xdr_long.get
  | .ulong => lib.xdr_u_long.get
  | .short => lib.xdr_short.get
  | .ushort => lib.xdr_u_short.get
  | .bool => fun bs => some (bs.headD 0 != 0)
  | .char => fun bs => some (bs.headD 0)
  | .uchar => fun bs => some (bs.headD 0)
  | .schar => fun bs => some (bs.headD 0)
  | .float => lib.xdr_float.get
  | .double => lib.xdr_double.get

/-- How many bytes these are. -/
def Xdr.width : Kind → ℕ
  | .bool | .char | .uchar | .schar => 1
  | .double => 8
  | _ => 4

/-- How many bytes `UnPack` of `pop_buffer_xdr` reckons with for one element. -/
def Xdr.room : Kind → ℤ
  | .bool | .char | .uchar | .schar => 1
  | .long | .ulong | .double => 8
  | _ => 4

/-- The number of bytes comes out negative, and the check does not notice. -/
def Xdr.Unnoticed (k : Kind) (n : ℤ) (b : PopBuffer) : Prop :=
  wrap (Xdr.room k * n) < 0 ∧ 0 ≤ wrap (Xdr.room k * n) + b.unpackpos ∧
    wrap (Xdr.room k * n) + b.unpackpos ≤ b.packeddata.length

/-- The number of bytes is an `int`, or what it has wrapped around to is positive and beyond
the end of the buffer. -/
def Raw.Noticed (k : Kind) (n : ℤ) (b : PopBuffer) : Prop :=
  n * k.size < 2 ^ 31 ∨
    0 < wrap (n * k.size) ∧ b.packeddata.length < wrap (n * k.size) + b.unpackpos

lemma InBounds.of_throws {m : BufM (List α)} {get : List UInt8 → Option α} {w : ℕ} {n : ℤ}
    {b : PopBuffer} {e : Thrown} (h : m b = .throws e b) : InBounds m get w n b :=
  .inl ⟨e, b, h, rfl⟩

/-- Nothing is asked for and nothing is delivered. -/
lemma InBounds.of_nil {m : BufM (List α)} {get : List UInt8 → Option α} {w : ℕ} {n : ℤ}
    {b : PopBuffer} (hn : n = 0) (h : m b = .ok [] b) : InBounds m get w n b :=
  .inr ⟨[], b, h, hn.symm, fun _ hi => absurd hi (by simp)⟩

/-! ### Arrays of XDR numbers -/

section Vector

variable {P : XdrProc α} {w : ℕ} {rep : α → Option ℕ} {val : ℕ → α}

lemma vectorGet_done (hP : P.Encodes w rep val) (n window : ℕ) (bs : List UInt8)
    (hw : n * w ≤ window) (hbs : n * w ≤ bs.length) :
    ∃ vs, vectorGet P n window bs = .done vs ∧ vs.length = n ∧
      ∀ (i : ℕ) (h : i < vs.length), P.get ((bs.drop (i * w)).take w) = some vs[i] := by
  induction n generalizing window bs with
  | zero => exact ⟨[], rfl, rfl, fun _ hi => absurd hi (by simp)⟩
  | succ n ih =>
      rw [Nat.succ_mul] at hw hbs
      have hget := hP.get_eq (bs.take w) (by rw [List.length_take]; omega)
      obtain ⟨vs, hvs, hlen, hall⟩ := ih (window - w) (bs.drop w) (by omega)
        (by rw [List.length_drop]; omega)
      refine ⟨val (ofBe (bs.take w)) :: vs, ?_, by rw [List.length_cons, hlen], ?_⟩
      · rw [vectorGet, hP.width_eq, if_neg (by omega), if_neg (by omega), hget]
        simp only [hvs]
      · intro i hi
        cases i with
        | zero => simpa using hget
        | succ i =>
            have := hall i (by simpa using hi)
            rwa [List.drop_drop, show w + i * w = (i + 1) * w by ring] at this

lemma vectorGet_failed (hP : P.Encodes w rep val) (n window : ℕ) (bs : List UInt8)
    (hw : window < n * w) (hbs : window ≤ bs.length) : vectorGet P n window bs = .failed := by
  induction n generalizing window bs with
  | zero => exact absurd hw (by simp)
  | succ n ih =>
      rw [Nat.succ_mul] at hw
      rw [vectorGet, hP.width_eq]
      split
      · rfl
      · next hroom =>
          rw [if_neg (by omega), hP.get_eq _ (by rw [List.length_take]; omega)]
          simp only [ih (window - w) (bs.drop w) (by omega)
            (by rw [List.length_drop]; omega)]

/-- In a window that is larger than the vector, the end of the vector comes first. -/
lemma vectorGet_undefined (hP : P.Encodes w rep val) (n window : ℕ) (bs : List UInt8)
    (hw : bs.length + w ≤ window) (hbs : bs.length < n * w) :
    vectorGet P n window bs = .undefined := by
  induction n generalizing window bs with
  | zero => exact absurd hbs (by simp)
  | succ n ih =>
      rw [Nat.succ_mul] at hbs
      rw [vectorGet, hP.width_eq, if_neg (by omega)]
      split
      · rfl
      · next hroom =>
          rw [hP.get_eq _ (by rw [List.length_take]; omega)]
          simp only [ih (window - w) (bs.drop w)
            (by rw [List.length_drop]; omega) (by rw [List.length_drop]; omega)]

/-- The widths of the types: what the library reads, and what `UnPack` reckons with. -/
def Widths (w : ℕ) (width : ℤ) : Prop :=
  (w = 4 ∧ width = 4) ∨ (w = 4 ∧ width = 8) ∨ (w = 8 ∧ width = 8)

/-- Too many elements for a number of bytes that is not negative. -/
lemma wrap_lt_of_nonneg {width : ℤ} (hw : Widths w width) {n : ℕ} (hn : n < 2 ^ 31)
    (h0 : 0 ≤ wrap (width * n)) (hne : wrap (width * n) ≠ width * n) :
    wrap (width * n) < (n * w : ℕ) := by
  simp only [wrap] at h0 hne ⊢
  rcases hw with ⟨rfl, rfl⟩ | ⟨rfl, rfl⟩ | ⟨rfl, rfl⟩ <;> omega

/-- Too many elements for the vector, when the number of bytes is negative. -/
lemma size_lt_of_neg {width : ℤ} (hw : Widths w width) {n size : ℕ} {pos : ℤ} (hn : n < 2 ^ 31)
    (hpos : pos < 2 ^ 31) (hsize : size < 2 ^ 31) (h0 : wrap (width * n) < 0)
    (hcheck : 0 ≤ wrap (width * n) + pos) : size < pos + (n * w : ℕ) := by
  simp only [wrap] at h0 hcheck
  rcases hw with ⟨rfl, rfl⟩ | ⟨rfl, rfl⟩ | ⟨rfl, rfl⟩ <;> omega

lemma Widths.bounds {width : ℤ} (hw : Widths w width) : 0 < w ∧ w ≤ 8 := by
  rcases hw with ⟨rfl, rfl⟩ | ⟨rfl, rfl⟩ | ⟨rfl, rfl⟩ <;> omega

lemma Widths.mul_le {width : ℤ} (hw : Widths w width) (n : ℕ) : ((n * w : ℕ) : ℤ) ≤ width * n := by
  rcases hw with ⟨rfl, rfl⟩ | ⟨rfl, rfl⟩ | ⟨rfl, rfl⟩ <;> omega

variable {width : ℤ} {reason : String} {n : ℕ} {b : PopBuffer}

/-- A number of bytes that is not negative gives a window that ends in the vector. -/
lemma unPackVector_inBounds (hP : P.Encodes w rep val) (hw : Widths w width) (hn : 0 < n)
    (hn' : n < 2 ^ 31) (hpos : 20 ≤ b.unpackpos) (h0 : 0 ≤ wrap (width * n))
    (hin : wrap (width * n) + b.unpackpos ≤ b.packeddata.length)
    (hcheck : checkUnPack "Wrong buffer format in pop_buffer_xdr::CheckUnPack"
      (wrap (width * n)) b = .ok () b) :
    InBounds (unPackVector P width reason n) P.get w n b := by
  have hwindow := uInt_of_nonneg (fits_wrap (width * n)) h0
  have hrest : (b.packeddata.drop b.unpackpos.toNat).length =
      b.packeddata.length - b.unpackpos.toNat := List.length_drop ..
  have hcall := unPackVector_eq P reason hn (by omega) hcheck
  by_cases heq : wrap (width * n) = width * n
  · have hmul := hw.mul_le n
    obtain ⟨vs, hvs, hlen, hall⟩ := vectorGet_done hP n (uInt (wrap (width * n)))
      (b.packeddata.drop b.unpackpos.toNat) (by omega) (by omega)
    rw [hvs] at hcall
    refine .inr ⟨vs, _, hcall, by omega, fun i hi => ?_⟩
    have hend : i * w + w ≤ n * w := by
      rw [← Nat.succ_mul]
      exact Nat.mul_le_mul_right w (by omega)
    have hget := hall i hi
    rw [List.drop_drop] at hget
    exact ⟨by omega, by omega, hget⟩
  · have hfew := wrap_lt_of_nonneg hw hn' h0 heq
    rw [vectorGet_failed hP _ _ _ (by omega) (by omega)] at hcall
    exact .of_throws hcall

/-- A negative number of bytes gives a window that is larger than the vector. -/
lemma unPackVector_undefined (hP : P.Encodes w rep val) (hw : Widths w width) (hn : 0 < n)
    (hn' : n < 2 ^ 31) (hpos : 20 ≤ b.unpackpos) (hpos' : b.unpackpos < 2 ^ 31)
    (hsize : b.packeddata.length < 2 ^ 31) (h0 : wrap (width * n) < 0)
    (hin : 0 ≤ wrap (width * n) + b.unpackpos)
    (hcheck : checkUnPack "Wrong buffer format in pop_buffer_xdr::CheckUnPack"
      (wrap (width * n)) b = .ok () b) :
    unPackVector P width reason n b = .undefined := by
  have hfits := fits_wrap (width * n)
  have hwindow := uInt_of_neg hfits h0
  have hrest : (b.packeddata.drop b.unpackpos.toNat).length =
      b.packeddata.length - b.unpackpos.toNat := List.length_drop ..
  have hmany := size_lt_of_neg hw hn' hpos' hsize h0 hin
  obtain ⟨hw0, hw8⟩ := hw.bounds
  have hmul : 0 < n * w := Nat.mul_pos hn hw0
  simp only [Fits] at hfits
  rw [unPackVector_eq P reason hn (by omega) hcheck,
    vectorGet_undefined hP _ _ _ (by omega) (by omega)]

end Vector

/-! ### Arrays of bytes -/

section Bytes

variable {reason : String} {b : PopBuffer}

lemma headD_take_one {l : List UInt8} {i : ℕ} (h : i < l.length) :
    ((l.drop i).take 1).headD 0 = l[i] := by
  rw [List.drop_eq_getElem_cons h]
  rfl

lemma delivered_bytes (pos n : ℕ) (hpos : b.unpackpos = pos) (hpos20 : 20 ≤ pos)
    (hin : pos + n ≤ b.packeddata.length) :
    Delivered (fun bs => some (bs.headD 0)) 1 b ((b.packeddata.drop pos).take n) := by
  intro i hi
  rw [List.length_take, List.length_drop] at hi
  refine ⟨by omega, by omega, ?_⟩
  rw [hpos, Int.toNat_natCast, Nat.mul_one]
  show some (((b.packeddata.drop (pos + i)).take 1).headD 0) = _
  rw [headD_take_one (by omega), List.getElem_take, List.getElem_drop]

variable {n : ℕ}

lemma unPackChar_inBounds (hn' : n < 2 ^ 31) (hpos : 20 ≤ b.unpackpos)
    (hpos' : b.unpackpos < 2 ^ 31) (hsize : b.packeddata.length < 2 ^ 31) :
    InBounds (unPackChar reason n) (fun bs => some (bs.headD 0)) 1 n b := by
  rcases Nat.eq_zero_or_pos n with rfl | hn
  · exact .of_nil rfl rfl
  have hcall := unPackChar_eq reason (n := n) (by omega) (by omega) (by omega) hpos' hsize
  split at hcall
  · next hin =>
      refine .inr ⟨_, _, hcall, ?_, ?_⟩
      · rw [List.length_take, List.length_drop]
        omega
      · rw [Int.toNat_natCast]
        exact delivered_bytes _ _ (by omega) (by omega) (by omega)
  · exact .of_throws hcall

lemma unPackBool_inBounds (hn' : n < 2 ^ 31) (hpos : 20 ≤ b.unpackpos)
    (hpos' : b.unpackpos < 2 ^ 31) (hsize : b.packeddata.length < 2 ^ 31) :
    InBounds (Xdr.unPackBool n) (fun bs => some (bs.headD 0 != 0)) 1 n b := by
  rcases Nat.eq_zero_or_pos n with rfl | hn
  · exact .of_nil rfl rfl
  have hcall := unPackBool_eq hn hn' (by omega) hpos' hsize
  split at hcall
  · next hin =>
      refine .inr ⟨_, _, hcall, ?_, fun i hi => ?_⟩
      · rw [List.length_map, List.length_take, List.length_drop]
        omega
      · obtain ⟨hfrom, hto, hbyte⟩ := delivered_bytes (b := b) b.unpackpos.toNat n (by omega)
          (by omega) (by omega) i (by simpa using hi)
        rw [List.getElem_map, ← Option.some.inj hbyte]
        exact ⟨hfrom, hto, rfl⟩
  · exact .of_throws hcall

end Bytes

/-! ### `pop_buffer_xdr` -/

section Xdr

variable {n : ℕ} {b : PopBuffer}

lemma not_inBounds_of_undefined {m : BufM (List α)} {get : List UInt8 → Option α} {w : ℕ}
    {n : ℤ} (h : m b = .undefined) : ¬InBounds m get w n b := by
  rintro (⟨e, b', hthrows, -⟩ | ⟨vs, b', hok, -⟩)
  · exact absurd (h.symm.trans hthrows) (by simp)
  · exact absurd (h.symm.trans hok) (by simp)

/-- The check is what decides, for an array of XDR numbers. -/
lemma unPackVector_inBounds_iff {P : XdrProc α} {w : ℕ} {rep : α → Option ℕ} {val : ℕ → α}
    (hP : P.Encodes w rep val) {width : ℤ} (hw : Widths w width) {reason : String}
    (hn' : n < 2 ^ 31) (hpos : 20 ≤ b.unpackpos) (hpos' : b.unpackpos < 2 ^ 31)
    (hsize : b.packeddata.length < 2 ^ 31) :
    InBounds (unPackVector P width reason n) P.get w n b ↔
      ¬(wrap (width * n) < 0 ∧ 0 ≤ wrap (width * n) + b.unpackpos ∧
        wrap (width * n) + b.unpackpos ≤ b.packeddata.length) := by
  rcases Nat.eq_zero_or_pos n with rfl | hn
  · refine iff_of_true (.of_nil rfl rfl) ?_
    rintro ⟨hneg, -⟩
    simp [wrap] at hneg
  have hcheck := checkUnPack_eq "Wrong buffer format in pop_buffer_xdr::CheckUnPack"
    (fits_wrap (width * n)) (by omega) hpos' hsize
  split at hcheck
  · next hin =>
      rcases lt_or_ge (wrap (width * n)) 0 with hneg | h0
      · exact iff_of_false (not_inBounds_of_undefined
          (unPackVector_undefined hP hw hn hn' hpos hpos' hsize hneg hin.1 hcheck))
          (fun h => h ⟨hneg, hin⟩)
      · exact iff_of_true (unPackVector_inBounds hP hw hn hn' hpos h0 hin.2 hcheck)
          (fun h => absurd h.1 (by omega))
  · next hout =>
      refine iff_of_true (.of_throws (e := popThrowFormat
        "Wrong buffer format in pop_buffer_xdr::CheckUnPack") ?_) (fun h => hout h.2)
      simp only [unPackVector, if_neg (show ¬((n : ℤ) ≤ 0) by omega)]
      exact BufM.bind_throws hcheck

/-- A count of bytes does not wrap around. -/
lemma not_unnoticed_of_room_one {k : Kind} (hk : Xdr.room k = 1) (hn' : n < 2 ^ 31) :
    ¬Xdr.Unnoticed k n b := by
  rintro ⟨hneg, -⟩
  rw [hk, wrap_eq_self (by simp only [Fits]; omega)] at hneg
  omega

lemma xdr_inBounds_iff {lib : XdrLib} (hlib : lib.Documented) (k : Kind) (hn' : n < 2 ^ 31)
    (hpos : 20 ≤ b.unpackpos) (hpos' : b.unpackpos < 2 ^ 31)
    (hsize : b.packeddata.length < 2 ^ 31) :
    InBounds ((xdr lib).unPack k n) (Xdr.element lib k) (Xdr.width k) n b ↔
      ¬Xdr.Unnoticed k n b := by
  cases k with
  | int => exact unPackVector_inBounds_iff hlib.int (.inl ⟨rfl, rfl⟩) hn' hpos hpos' hsize
  | unsigned => exact unPackVector_inBounds_iff hlib.u_int (.inl ⟨rfl, rfl⟩) hn' hpos hpos' hsize
  | long =>
      exact unPackVector_inBounds_iff hlib.long (.inr (.inl ⟨rfl, rfl⟩)) hn' hpos hpos' hsize
  | ulong =>
      exact unPackVector_inBounds_iff hlib.u_long (.inr (.inl ⟨rfl, rfl⟩)) hn' hpos hpos' hsize
  | short => exact unPackVector_inBounds_iff hlib.short (.inl ⟨rfl, rfl⟩) hn' hpos hpos' hsize
  | ushort => exact unPackVector_inBounds_iff hlib.u_short (.inl ⟨rfl, rfl⟩) hn' hpos hpos' hsize
  | float => exact unPackVector_inBounds_iff hlib.float (.inl ⟨rfl, rfl⟩) hn' hpos hpos' hsize
  | double =>
      exact unPackVector_inBounds_iff hlib.double (.inr (.inr ⟨rfl, rfl⟩)) hn' hpos hpos' hsize
  | bool =>
      exact iff_of_true (unPackBool_inBounds hn' hpos hpos' hsize)
        (not_unnoticed_of_room_one rfl hn')
  | char =>
      exact iff_of_true (unPackChar_inBounds hn' hpos hpos' hsize)
        (not_unnoticed_of_room_one rfl hn')
  | uchar =>
      exact iff_of_true (unPackChar_inBounds hn' hpos hpos' hsize)
        (not_unnoticed_of_room_one rfl hn')
  | schar =>
      exact iff_of_true (unPackChar_inBounds hn' hpos hpos' hsize)
        (not_unnoticed_of_room_one rfl hn')

end Xdr

/-! ### `pop_buffer_raw` -/

section Raw

variable {n : ℕ} {b : PopBuffer}

lemma Kind.length_elements (k : Kind) (n : ℕ) (bs : List UInt8) :
    (k.elements n bs).length = n := by
  induction n generalizing bs with
  | zero => rfl
  | succ n ih => rw [Kind.elements, List.length_cons, ih]

lemma Kind.getElem_elements (k : Kind) {n i : ℕ} {bs : List UInt8}
    (h : i < (k.elements n bs).length) :
    (k.elements n bs)[i] = k.ofBytes ((bs.drop (i * k.size)).take k.size) := by
  induction n generalizing i bs with
  | zero => exact absurd h (by simp [Kind.elements])
  | succ n ih =>
      cases i with
      | zero => simp [Kind.elements]
      | succ i =>
          have hdrop : (bs.drop k.size).drop (i * k.size) = bs.drop ((i + 1) * k.size) := by
            rw [List.drop_drop, show k.size + i * k.size = (i + 1) * k.size by ring]
          rw [← hdrop]
          exact ih (by simpa [Kind.elements] using h)

lemma rawUnPack_of_nonpos (k : Kind) (h : wrap ((n : ℤ) * k.size) ≤ 0) :
    Raw.unPack k n b = .ok [] b := by
  rw [Raw.unPack, unPackChar, if_pos h, BufM.bind_ok (BufM.pure_apply _ b), List.length_nil,
    Nat.zero_div]
  rfl

/-- The whole of `UnPack(T*, n)`, when the number of bytes comes out positive. -/
lemma rawUnPack_of_pos (k : Kind) (h : 0 < wrap ((n : ℤ) * k.size)) (hpos : 0 ≤ b.unpackpos)
    (hpos' : b.unpackpos < 2 ^ 31) (hsize : b.packeddata.length < 2 ^ 31) :
    Raw.unPack k n b =
      if wrap (n * k.size) + b.unpackpos ≤ b.packeddata.length then
        .ok (k.elements ((wrap (n * k.size)).toNat / k.size)
            ((b.packeddata.drop b.unpackpos.toNat).take (wrap (n * k.size)).toNat))
          { b with unpackpos := wrap (b.unpackpos + align4 (wrap (n * k.size))) }
      else .throws (popThrowFormat "Wrong buffer format in pop_buffer_raw::CheckUnPack") b := by
  have hfits := fits_wrap ((n : ℤ) * k.size)
  simp only [Fits] at hfits
  have hcall := unPackChar_eq "Wrong buffer format in pop_buffer_raw::CheckUnPack" h
    (by omega) hpos hpos' hsize
  rw [Raw.unPack]
  split at hcall
  · next hin =>
      have hlen : ((b.packeddata.drop b.unpackpos.toNat).take
          (wrap ((n : ℤ) * k.size)).toNat).length = (wrap ((n : ℤ) * k.size)).toNat := by
        rw [List.length_take, List.length_drop]
        omega
      rw [BufM.bind_ok hcall, BufM.pure_apply, hlen, if_pos hin]
  · next hout => rw [BufM.bind_throws hcall, if_neg hout]

/-- A single element. -/
lemma rawUnPack_one (k : Kind) {b : PopBuffer} (hpos : 0 ≤ b.unpackpos)
    (hpos' : b.unpackpos < 2 ^ 31) (hsize : b.packeddata.length < 2 ^ 31) :
    raw.unPack k 1 b =
      if (k.size : ℤ) + b.unpackpos ≤ b.packeddata.length then
        .ok [k.ofBytes ((b.packeddata.drop b.unpackpos.toNat).take k.size)]
          { b with unpackpos := wrap (b.unpackpos + align4 k.size) }
      else .throws (popThrowFormat "Wrong buffer format in pop_buffer_raw::CheckUnPack") b := by
  have hsmall : wrap (((1 : ℕ) : ℤ) * k.size) = k.size := by cases k <;> rfl
  have hcall := rawUnPack_of_pos k (n := 1) (by rw [hsmall]; exact mod_cast k.size_pos) hpos hpos'
    hsize
  rw [hsmall, Int.toNat_natCast, Nat.div_self k.size_pos] at hcall
  rw [raw_unPack]
  refine hcall.trans ?_
  split
  · rw [Kind.elements, Kind.elements, List.take_take, Nat.min_self]
  · rfl

lemma delivered_elements (k : Kind) {m : ℕ} (hpos : 20 ≤ b.unpackpos)
    (hin : b.unpackpos + m ≤ b.packeddata.length) :
    Delivered (fun bs => some (k.ofBytes bs)) k.size b
      (k.elements (m / k.size) ((b.packeddata.drop b.unpackpos.toNat).take m)) := by
  intro i hi
  have hlt : i < m / k.size := by rwa [k.length_elements] at hi
  have hend : i * k.size + k.size ≤ m := by
    calc i * k.size + k.size = (i + 1) * k.size := by ring
      _ ≤ m / k.size * k.size := Nat.mul_le_mul_right _ hlt
      _ ≤ m := Nat.div_mul_le_self ..
  refine ⟨by omega, by omega, ?_⟩
  rw [k.getElem_elements hi, List.drop_take, List.take_take, List.drop_drop,
    Nat.min_eq_left (by omega)]

lemma not_inBounds_of_ok {m : BufM (List α)} {get : List UInt8 → Option α} {w : ℕ} {n : ℤ}
    {vs : List α} {b' : PopBuffer} (h : m b = .ok vs b') (hlen : (vs.length : ℤ) ≠ n) :
    ¬InBounds m get w n b := by
  rintro (⟨e, b'', hthrows, -⟩ | ⟨vs', b'', hok, hlen', -⟩)
  · exact absurd (h.symm.trans hthrows) (by simp)
  · obtain ⟨rfl, -⟩ : vs = vs' ∧ b' = b'' := by simpa using h.symm.trans hok
    exact hlen hlen'

lemma raw_inBounds_iff (k : Kind) (hpos : 20 ≤ b.unpackpos) (hpos' : b.unpackpos < 2 ^ 31)
    (hsize : b.packeddata.length < 2 ^ 31) :
    InBounds (raw.unPack k n) (fun bs => some (k.ofBytes bs)) k.size n b ↔
      Raw.Noticed k n b := by
  rw [raw_unPack, Raw.Noticed]
  have hfits := fits_wrap ((n : ℤ) * k.size)
  have hk := k.size_pos
  have hcast : (n : ℤ) * k.size = (n * k.size : ℕ) := (Nat.cast_mul n k.size).symm
  simp only [Fits] at hfits
  by_cases hsmall : (n : ℤ) * k.size < 2 ^ 31
  · -- the number of bytes is exact
    refine iff_of_true ?_ (.inl hsmall)
    have hwrap : wrap ((n : ℤ) * k.size) = (n * k.size : ℕ) := by
      rw [hcast, wrap_natCast (by omega)]
    rcases Nat.eq_zero_or_pos n with rfl | hn
    · exact .of_nil rfl (rawUnPack_of_nonpos k (by rw [hwrap]; simp))
    have hprod : 0 < n * k.size := Nat.mul_pos hn hk
    have hcall := rawUnPack_of_pos k (n := n) (by omega) (by omega) hpos' hsize
    rw [hwrap, Int.toNat_natCast] at hcall
    split at hcall
    · next hin =>
        refine .inr ⟨_, _, hcall, ?_, delivered_elements k hpos (by omega)⟩
        rw [k.length_elements, Nat.mul_div_cancel _ hk]
    · exact .of_throws hcall
  · have hn : 0 < n := by
      rcases Nat.eq_zero_or_pos n with rfl | hn
      · simp at hsmall
      · exact hn
    rcases lt_or_ge 0 (wrap ((n : ℤ) * k.size)) with h0 | hnonpos
    · have hcall := rawUnPack_of_pos k (n := n) h0 (by omega) hpos' hsize
      split at hcall
      · next hin =>
          -- fewer elements than were asked for
          refine iff_of_false (not_inBounds_of_ok hcall ?_) (by omega)
          rw [k.length_elements]
          have hfew : (wrap ((n : ℤ) * k.size)).toNat / k.size < n :=
            (Nat.div_lt_iff_lt_mul hk).mpr (by omega)
          omega
      · next hout => exact iff_of_true (.of_throws hcall) (.inr ⟨h0, by omega⟩)
    · exact iff_of_false (not_inBounds_of_ok (rawUnPack_of_nonpos k hnonpos) (by simp; omega))
        (by omega)

end Raw

/-- **Bounds.**  When `UnPack` throws or delivers what it was asked for, out of the payload. -/
theorem unPack_inBounds_iff (lib : XdrLib) (hlib : lib.Documented) (k : Kind) (n : ℤ)
    (hn : 0 ≤ n) (hn' : n < 2 ^ 31) (b : PopBuffer) (hpos : 20 ≤ b.unpackpos)
    (hpos' : b.unpackpos < 2 ^ 31) (hsize : b.packeddata.length < 2 ^ 31) :
    (InBounds ((xdr lib).unPack k n) (Xdr.element lib k) (Xdr.width k) n b ↔
      ¬Xdr.Unnoticed k n b) ∧
    (InBounds (raw.unPack k n) (fun bs => some (k.ofBytes bs)) k.size n b ↔
      Raw.Noticed k n b) := by
  obtain ⟨n, rfl⟩ := Int.eq_ofNat_of_zero_le hn
  exact ⟨xdr_inBounds_iff hlib k (by omega) hpos hpos' hsize,
    raw_inBounds_iff k hpos hpos' hsize⟩

/-- A buffer that was received with two words, of which the first, a count, has been read. -/
def receivedBuffer (count : List UInt8) : PopBuffer :=
  ⟨⟨TYPE_RESPONSE, 0, 0, 0, 0⟩, 24, List.replicate 20 0 ++ count ++ [0, 0, 0, 7]⟩

theorem unPack_inBounds_iff_receivedBuffer :
    InBounds ((xdr XdrLib.standard).unPack .int 1) (Xdr.element XdrLib.standard .int) 4 1
        (receivedBuffer [0, 0, 0, 1]) ∧
      InBounds (raw.unPack .int 1) (fun bs => some (Kind.ofBytes .int bs)) 4 1
        (receivedBuffer [0, 0, 0, 1]) := by
  have hboth := unPack_inBounds_iff XdrLib.standard XdrLib.standard_documented .int 1 (by decide)
    (by decide) (receivedBuffer [0, 0, 0, 1]) (by decide) (by decide) (by decide)
  refine ⟨hboth.1.mpr ?_, hboth.2.mpr (.inl (by decide))⟩
  rintro ⟨hneg, -⟩
  exact absurd hneg (by decide)

/-- Two counts that a peer can send: for `2 ^ 30 - 1` the `pop_buffer_xdr` reads past the end
of the buffer, and for `2 ^ 30` the `pop_buffer_raw` returns without an element. -/
theorem unPack_out_of_bounds :
    ((xdr XdrLib.standard).unPack .int 0x3fffffff (receivedBuffer [0x3f, 0xff, 0xff, 0xff]) =
        .undefined ∧
      ¬InBounds ((xdr XdrLib.standard).unPack .int 0x3fffffff)
        (Xdr.element XdrLib.standard .int) 4 0x3fffffff
        (receivedBuffer [0x3f, 0xff, 0xff, 0xff])) ∧
      (raw.unPack .int 0x40000000 (receivedBuffer [0, 0, 0, 0x40]) =
        .ok [] (receivedBuffer [0, 0, 0, 0x40]) ∧
      ¬InBounds (raw.unPack .int 0x40000000) (fun bs => some (Kind.ofBytes .int bs)) 4 0x40000000
        (receivedBuffer [0, 0, 0, 0x40])) := by
  have hcheck : checkUnPack "Wrong buffer format in pop_buffer_xdr::CheckUnPack"
      (wrap (4 * (0x3fffffff : ℕ))) (receivedBuffer [0x3f, 0xff, 0xff, 0xff]) =
        .ok () (receivedBuffer [0x3f, 0xff, 0xff, 0xff]) :=
    (checkUnPack_eq _ (fits_wrap _) (by decide) (by decide) (by decide)).trans (if_pos (by decide))
  have hxdr : (xdr XdrLib.standard).unPack .int 0x3fffffff
      (receivedBuffer [0x3f, 0xff, 0xff, 0xff]) = .undefined :=
    unPackVector_undefined (n := 0x3fffffff) XdrLib.standard_documented.int (.inl ⟨rfl, rfl⟩)
      (by decide) (by decide) (by decide) (by decide) (by decide) (by decide) (by decide) hcheck
  have hraw : raw.unPack .int 0x40000000 (receivedBuffer [0, 0, 0, 0x40]) =
      .ok [] (receivedBuffer [0, 0, 0, 0x40]) := by
    rw [raw_unPack]
    exact rawUnPack_of_nonpos (n := 0x40000000) .int (by decide)
  exact ⟨⟨hxdr, not_inBounds_of_undefined hxdr⟩, hraw, not_inBounds_of_ok hraw (by decide)⟩

end PopCpp.Buffer
