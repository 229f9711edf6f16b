/-
# What packing and unpacking do to a buffer

Two judgements about calls on a buffer of fewer than `2 ^ 31` bytes.  `Appends m bs` says that
the call `m` returns and that its whole effect is to append `bs`; `Reads m bs v` says that,
wherever `bs` stands at the unpack position, `m` returns `v` and moves the position over `bs`.
Both compose along sequences of calls.  This file has the rules and the judgements for the two
building blocks of the encodings: arrays of bytes and arrays of XDR numbers.
-/
import PopCpp.Buffer.Xdr
import PopCpp.Buffer.Raw

namespace PopCpp.Buffer

open Bytes CInt

variable {α β : Type}

/-! ### Judgements -/

/-- The call returns and appends `bs`, in every buffer in which there is room. -/
def Appends (m : BufM Unit) (bs : List UInt8) : Prop :=
  ∀ b : PopBuffer, b.packeddata.length + bs.length < 2 ^ 31 →
    m b = .ok () { b with packeddata := b.packeddata ++ bs }

/-- The call returns `v` and moves the unpack position over `bs`, wherever `bs` is. -/
def Reads (m : BufM α) (bs : List UInt8) (v : α) : Prop :=
  ∀ (b : PopBuffer) (pre post : List UInt8), b.packeddata = pre ++ bs ++ post →
    b.unpackpos = pre.length → b.packeddata.length < 2 ^ 31 →
    m b = .ok v { b with unpackpos := (pre.length + bs.length : ℕ) }

lemma Appends.pure : Appends (pure ()) [] := by
  intro b _
  simp

lemma Appends.bind {m m' : BufM Unit} {bs bs' : List UInt8} (h : Appends m bs)
    (h' : Appends m' bs') : Appends (m >>= fun _ => m') (bs ++ bs') := by
  intro b hb
  rw [List.length_append] at hb
  rw [BufM.bind_ok (h b (by omega)), h' _ (by simp only [List.length_append]; omega)]
  simp only [List.append_assoc]

lemma Reads.pure (v : α) : Reads (pure v) [] v := by
  intro b pre post _ hpos _
  have hb : { b with unpackpos := ((pre.length + 0 : ℕ) : ℤ) } = b := by
    rw [Nat.add_zero, ← hpos]
  exact congrArg (Result.ok v) hb.symm

lemma Reads.bind {m : BufM α} {f : α → BufM β} {bs bs' : List UInt8} {v : α} {w : β}
    (h : Reads m bs v) (h' : Reads (f v) bs' w) : Reads (m >>= f) (bs ++ bs') w := by
  intro b pre post hb hpos hlen
  have hfirst := h b pre (bs' ++ post) (by rw [hb]; simp) hpos hlen
  have hsecond := h' { b with unpackpos := (pre.length + bs.length : ℕ) } (pre ++ bs) post
    (by rw [hb]; simp) (by simp) hlen
  refine (BufM.bind_ok hfirst).trans (hsecond.trans ?_)
  simp only [List.length_append, Nat.add_assoc]

/-- A call that reads something, followed by the construction of the result. -/
lemma Reads.map {m : BufM α} {bs : List UInt8} {v : α} (h : Reads m bs v) (g : α → β) :
    Reads (m >>= fun x => Pure.pure (g x)) bs (g v) := by
  have hmap := h.bind (f := fun x => Pure.pure (g x)) (Reads.pure (g v))
  rwa [List.append_nil] at hmap

/-! ### Padding -/

/-- `bs` followed by as many zero bytes as make `k` bytes. -/
def padTo (k : ℕ) (bs : List UInt8) : List UInt8 := bs ++ List.replicate (k - bs.length) 0

/-- The length of `n` bytes padded to a multiple of 4. -/
def roundUp4 (n : ℕ) : ℕ := (n + 3) / 4 * 4

/-- Padding to a multiple of 4 bytes. -/
def pad4 (bs : List UInt8) : List UInt8 := padTo (roundUp4 bs.length) bs

lemma length_padTo {k : ℕ} {bs : List UInt8} (h : bs.length ≤ k) : (padTo k bs).length = k := by
  simp only [padTo, List.length_append, List.length_replicate]
  omega

lemma le_roundUp4 (n : ℕ) : n ≤ roundUp4 n := by
  simp only [roundUp4]
  omega

@[simp] lemma length_pad4 (bs : List UInt8) : (pad4 bs).length = roundUp4 bs.length :=
  length_padTo (le_roundUp4 _)

lemma align4_natCast {n : ℕ} (h1 : 1 ≤ n) (h : roundUp4 n < 2 ^ 31) :
    align4 n = (roundUp4 n : ℕ) := by
  simp only [roundUp4] at h ⊢
  rw [align4_eq (by omega) (by omega)]
  omega

/-! ### Growing the vector -/

lemma resize_add {b : PopBuffer} {k : ℕ} (h : b.packeddata.length + k < 2 ^ 63) :
    resize (b.packeddata.length + k) b =
      .ok () { b with packeddata := b.packeddata ++ List.replicate k 0 } := by
  simp only [resize, if_pos h]
  rw [List.take_of_length_le (Nat.le_add_right _ _), Nat.add_sub_cancel_left]

lemma store_length {b : PopBuffer} {old bs : List UInt8} {k : ℕ}
    (hb : b.packeddata = old ++ List.replicate k 0) (h : bs.length ≤ k) :
    store old.length bs b = .ok () { b with packeddata := old ++ padTo k bs } := by
  by_cases hbs : bs = []
  · subst hbs
    simp [store, padTo, ← hb]
  · have hin : (0 : ℤ) ≤ (old.length : ℤ) ∧
        (old.length : ℤ) + (bs.length : ℤ) ≤ (b.packeddata.length : ℤ) := by
      rw [hb, List.length_append, List.length_replicate]
      omega
    rw [store, if_neg hbs, if_pos hin, Int.toNat_natCast, hb]
    rw [List.take_left, List.drop_append, List.drop_of_length_le (by omega), List.nil_append,
      List.drop_replicate, List.append_assoc, padTo]
    congr 5
    omega

/-- Making room for `k` bytes at the end and writing into it. -/
lemma resize_store {b : PopBuffer} {bs : List UInt8} {k : ℕ} (hk : bs.length ≤ k)
    (h : b.packeddata.length + k < 2 ^ 63) :
    (resize (b.packeddata.length + k) >>= fun _ => store b.packeddata.length bs) b =
      .ok () { b with packeddata := b.packeddata ++ padTo k bs } := by
  rw [BufM.bind_ok (resize_add h)]
  exact store_length rfl hk

/-! ### Arrays of bytes -/

theorem packChar_appends (data : List UInt8) : Appends (packChar data) (pad4 data) := by
  intro b hb
  rw [length_pad4] at hb
  rcases Nat.eq_zero_or_pos data.length with h0 | hpos
  · obtain rfl : data = [] := List.eq_nil_of_length_eq_zero h0
    simp [packChar, pad4, padTo, roundUp4]
  · have hn : ¬((data.length : ℤ) ≤ 0) := by omega
    have ht : wrap (b.packeddata.length : ℤ) = b.packeddata.length := wrap_natCast (by omega)
    have hsize : sizeT (wrap ((b.packeddata.length : ℤ) + align4 data.length)) =
        b.packeddata.length + roundUp4 data.length := by
      rw [align4_natCast hpos (by omega), ← Nat.cast_add,
        wrap_natCast (by omega), sizeT_natCast (by omega)]
    simp only [packChar, if_neg hn]
    rw [BufM.bind_ok (rfl : this b = .ok b b)]
    simp only [ht, hsize]
    exact resize_store (le_roundUp4 _) (by omega)

lemma checkUnPack_eq {b : PopBuffer} (reason : String) {sz : ℤ} (hsz : Fits sz)
    (hpos : 0 ≤ b.unpackpos) (hpos' : b.unpackpos < 2 ^ 31)
    (hsize : b.packeddata.length < 2 ^ 31) :
    checkUnPack reason sz b =
      if 0 ≤ sz + b.unpackpos ∧ sz + b.unpackpos ≤ b.packeddata.length then .ok () b
      else .throws (popThrowFormat reason) b := by
  simp only [Fits] at hsz
  have hle := sizeT_wrap_le_iff (x := sz + b.unpackpos) (by omega) (by omega) hsize
  rw [checkUnPack]
  split <;> split <;> first | rfl | omega

lemma checkUnPack_ok {b : PopBuffer} {reason : String} {sz pos : ℕ} (hpos : b.unpackpos = pos)
    (h : sz + pos ≤ b.packeddata.length) (hlen : b.packeddata.length < 2 ^ 31) :
    checkUnPack reason sz b = .ok () b := by
  rw [checkUnPack_eq reason (by simp only [Fits]; omega) (by omega) (by omega) hlen,
    if_pos (by omega)]

/-- Bytes that are loaded behind their check: this is how single bytes are unpacked. -/
lemma checkUnPack_load_eq {α : Type} {b : PopBuffer} (reason : String) {n : ℤ} (hn : 0 < n)
    (hn' : n < 2 ^ 31) (hpos : 0 ≤ b.unpackpos) (hpos' : b.unpackpos < 2 ^ 31)
    (hsize : b.packeddata.length < 2 ^ 31) (k : List UInt8 → BufM α) :
    (checkUnPack reason n >>= fun _ => this >>= fun b => load b.unpackpos n.toNat >>= k) b =
      if n + b.unpackpos ≤ b.packeddata.length then
        k ((b.packeddata.drop b.unpackpos.toNat).take n.toNat) b
      else .throws (popThrowFormat reason) b := by
  have hfits : Fits n := by
    simp only [Fits]
    omega
  have hcheck := checkUnPack_eq reason hfits hpos hpos' hsize
  split
  · next hin =>
      rw [if_pos ⟨by omega, hin⟩] at hcheck
      have hload : load b.unpackpos n.toNat b =
          .ok ((b.packeddata.drop b.unpackpos.toNat).take n.toNat) b := by
        rw [load, if_pos ⟨hpos, by omega⟩]
      rw [BufM.bind_ok hcheck, BufM.bind_ok (rfl : this b = .ok b b), BufM.bind_ok hload]
  · next hout =>
      rw [if_neg (by omega)] at hcheck
      exact BufM.bind_throws hcheck

/-- The whole of `UnPack(char*, n)`. -/
lemma unPackChar_eq {b : PopBuffer} (reason : String) {n : ℤ} (hn : 0 < n) (hn' : n < 2 ^ 31)
    (hpos : 0 ≤ b.unpackpos) (hpos' : b.unpackpos < 2 ^ 31) (hsize : b.packeddata.length < 2 ^ 31) :
    unPackChar reason n b =
      if n + b.unpackpos ≤ b.packeddata.length then
        .ok ((b.packeddata.drop b.unpackpos.toNat).take n.toNat)
          { b with unpackpos := wrap (b.unpackpos + align4 n) }
      else .throws (popThrowFormat reason) b := by
  rw [unPackChar, if_neg (by omega)]
  exact checkUnPack_load_eq reason hn hn' hpos hpos' hsize _

theorem unPackChar_reads (reason : String) (data : List UInt8) :
    Reads (unPackChar reason data.length) (pad4 data) data := by
  intro b pre post hb hpos hlen
  have hsize : b.packeddata.length = pre.length + roundUp4 data.length + post.length := by
    rw [hb, List.length_append, List.length_append, length_pad4]
  rcases Nat.eq_zero_or_pos data.length with h0 | h1
  · obtain rfl : data = [] := List.eq_nil_of_length_eq_zero h0
    exact Reads.pure [] b pre post hb hpos hlen
  · have hle := le_roundUp4 data.length
    have hdata : (b.packeddata.drop b.unpackpos.toNat).take (data.length : ℤ).toNat = data := by
      rw [hpos, Int.toNat_natCast, Int.toNat_natCast, hb, List.append_assoc, List.drop_left, pad4,
        padTo, List.append_assoc, List.take_left]
    have hend : wrap (b.unpackpos + align4 data.length) =
        (pre.length + (pad4 data).length : ℕ) := by
      rw [hpos, align4_natCast h1 (by omega), ← Nat.cast_add,
        wrap_natCast (by omega), length_pad4]
    rw [unPackChar_eq reason (by omega) (by omega) (by omega) (by omega) hlen,
      if_pos (by omega), hdata, hend]

/-! ### Arrays of XDR numbers -/

/-- The library encodes every element of `vs` into `w` bytes and decodes them again. -/
structure XdrProc.Carries (P : XdrProc α) (w : ℕ) (enc : α → List UInt8) (vs : List α) :
    Prop where
  width_eq : P.width = w
  put_eq : ∀ v ∈ vs, P.put v = some (enc v)
  length_eq : ∀ v ∈ vs, (enc v).length = w
  get_eq : ∀ v ∈ vs, P.get (enc v) = some v

variable {P : XdrProc α} {w : ℕ} {enc : α → List UInt8} {vs : List α}

lemma XdrProc.Encodes.carries {rep : α → Option ℕ} {val : ℕ → α} {m : α → ℕ}
    (h : P.Encodes w rep val) (hrep : ∀ v ∈ vs, rep v = some (m v))
    (hval : ∀ v ∈ vs, val (m v % 256 ^ w) = v) : P.Carries w (fun v => be w (m v)) vs where
  width_eq := h.width_eq
  put_eq v hv := by rw [h.put_eq, hrep v hv, Option.map_some]
  length_eq v _ := length_be ..
  get_eq v hv := by rw [h.get_eq _ (length_be ..), ofBe_be, hval v hv]

lemma XdrProc.Carries.tail {v : α} (h : P.Carries w enc (v :: vs)) : P.Carries w enc vs where
  width_eq := h.width_eq
  put_eq u hu := h.put_eq u (List.mem_cons_of_mem v hu)
  length_eq u hu := h.length_eq u (List.mem_cons_of_mem v hu)
  get_eq u hu := h.get_eq u (List.mem_cons_of_mem v hu)

lemma XdrProc.Carries.length_flatMap (h : P.Carries w enc vs) :
    (vs.flatMap enc).length = vs.length * w := by
  induction vs with
  | nil => simp
  | cons v vs ih =>
      rw [List.flatMap_cons, List.length_append, ih h.tail, h.length_eq v List.mem_cons_self,
        List.length_cons]
      ring

lemma vectorPut_eq (h : P.Carries w enc vs) {window : ℕ} (hw : vs.length * w ≤ window) :
    vectorPut P window vs = (vs.flatMap enc, true) := by
  induction vs generalizing window with
  | nil => rfl
  | cons v vs ih =>
      have hlen := h.length_eq v List.mem_cons_self
      have hroom : w + vs.length * w ≤ window := by
        rw [List.length_cons, Nat.succ_mul] at hw
        omega
      rw [vectorPut, h.put_eq v List.mem_cons_self]
      simp only [hlen]
      rw [if_neg (by omega), ih h.tail (by omega), List.flatMap_cons]

lemma vectorGet_eq (h : P.Carries w enc vs) {window : ℕ} (hw : vs.length * w ≤ window)
    (post : List UInt8) :
    vectorGet P vs.length window (vs.flatMap enc ++ post) = .done vs := by
  induction vs generalizing window with
  | nil => rfl
  | cons v vs ih =>
      have hlen := h.length_eq v List.mem_cons_self
      have hroom : w + vs.length * w ≤ window := by
        rw [List.length_cons, Nat.succ_mul] at hw
        omega
      have htake : (enc v ++ (vs.flatMap enc ++ post)).take w = enc v := by
        rw [← hlen, List.take_left]
      have hdrop : (enc v ++ (vs.flatMap enc ++ post)).drop w = vs.flatMap enc ++ post := by
        rw [← hlen, List.drop_left]
      rw [List.length_cons, vectorGet, h.width_eq, if_neg (by omega), List.flatMap_cons,
        List.append_assoc, if_neg (by rw [List.length_append, hlen]; omega), htake, hdrop,
        h.get_eq v List.mem_cons_self]
      have hrest : vectorGet P vs.length (window - w) (vs.flatMap enc ++ post) = .done vs :=
        ih h.tail (by omega)
      simp only [hrest]

/-- The bytes of an array with `width` bytes of room for each element. -/
def vectorBytes (width : ℕ) (enc : α → List UInt8) (vs : List α) : List UInt8 :=
  padTo (vs.length * width) (vs.flatMap enc)

lemma length_vectorBytes (h : P.Carries w enc vs) {width : ℕ} (hw : w ≤ width) :
    (vectorBytes width enc vs).length = vs.length * width := by
  refine length_padTo ?_
  rw [h.length_flatMap]
  exact Nat.mul_le_mul_left _ hw

/-- Making room for an array at the end and encoding it there. -/
lemma resize_encode (h : P.Carries w enc vs) {width : ℕ} (hw : w ≤ width) (reason : String)
    {b : PopBuffer} (hb : b.packeddata.length + vs.length * width < 2 ^ 31) :
    (resize (b.packeddata.length + vs.length * width) >>= fun _ =>
        encode P reason b.packeddata.length (vs.length * width : ℕ) vs) b =
      .ok () { b with packeddata := b.packeddata ++ vectorBytes width enc vs } := by
  have hle : vs.length * w ≤ vs.length * width := Nat.mul_le_mul_left _ hw
  have hwindow : uInt ((vs.length * width : ℕ) : ℤ) = vs.length * width := by
    have := uInt_of_nonneg (x := ((vs.length * width : ℕ) : ℤ)) (by simp only [Fits]; omega)
      (by omega)
    omega
  have hput : vectorPut P (uInt ((vs.length * width : ℕ) : ℤ)) vs = (vs.flatMap enc, true) := by
    rw [hwindow]
    exact vectorPut_eq h hle
  rw [BufM.bind_ok (resize_add (by omega))]
  simp only [encode, hput, if_true]
  rw [BufM.bind_ok (store_length rfl (by rw [h.length_flatMap]; exact hle))]
  rfl

theorem packVector_appends (h : P.Carries w enc vs) {width : ℕ} (hw : w ≤ width)
    (reason : String) : Appends (packVector P width reason vs) (vectorBytes width enc vs) := by
  intro b hb
  rw [length_vectorBytes h hw] at hb
  rcases Nat.eq_zero_or_pos vs.length with h0 | hpos
  · obtain rfl : vs = [] := List.eq_nil_of_length_eq_zero h0
    simp [packVector, vectorBytes, padTo]
  · have hn : ¬((vs.length : ℤ) ≤ 0) := by omega
    have hold : wrap (b.packeddata.length : ℤ) = b.packeddata.length := wrap_natCast (by omega)
    have hsz : wrap ((vs.length : ℤ) * (width : ℤ)) = (vs.length * width : ℕ) := by
      rw [← Nat.cast_mul]
      exact wrap_natCast (by omega)
    have hsize : sizeT (wrap (((vs.length * width : ℕ) : ℤ) + (b.packeddata.length : ℤ))) =
        b.packeddata.length + vs.length * width := by
      rw [← Nat.cast_add, wrap_natCast (by omega), sizeT_natCast (by omega)]
      omega
    simp only [packVector, if_neg hn]
    rw [BufM.bind_ok (rfl : this b = .ok b b)]
    simp only [hold, hsz, hsize]
    exact resize_encode h hw reason hb

theorem packInt_appends {lib : XdrLib} {vs : List (BitVec 32)} {enc : BitVec 32 → List UInt8}
    (h : lib.xdr_int.Carries 4 enc vs) : Appends (Xdr.packInt lib vs) (vectorBytes 4 enc vs) := by
  intro b hb
  rw [length_vectorBytes h le_rfl] at hb
  rcases Nat.eq_zero_or_pos vs.length with h0 | hpos
  · obtain rfl : vs = [] := List.eq_nil_of_length_eq_zero h0
    simp [Xdr.packInt, vectorBytes, padTo]
  · have hn : ¬((vs.length : ℤ) ≤ 0) := by omega
    have hsz : wrap ((vs.length : ℤ) * 4) = (vs.length * 4 : ℕ) := by
      rw [wrap_eq_self (by simp only [Fits]; omega)]
      omega
    have hsize : sizeT (((vs.length * 4 : ℕ) : ℤ) + (b.packeddata.length : ℤ)) =
        b.packeddata.length + vs.length * 4 := by
      rw [← Nat.cast_add, sizeT_natCast (by omega)]
      omega
    simp only [Xdr.packInt, if_neg hn]
    rw [BufM.bind_ok (rfl : this b = .ok b b)]
    simp only [hsz, hsize]
    exact resize_encode h le_rfl _ hb

/-- The whole of `UnPack(T*, n)`, after the check. -/
lemma unPackVector_eq {width : ℤ} {n : ℕ} {b : PopBuffer} (P : XdrProc α) (reason : String)
    (hn : 0 < n) (hpos : 0 ≤ b.unpackpos)
    (hcheck : checkUnPack "Wrong buffer format in pop_buffer_xdr::CheckUnPack"
      (wrap (width * n)) b = .ok () b) :
    unPackVector P width reason n b =
      match vectorGet P n (uInt (wrap (width * n))) (b.packeddata.drop b.unpackpos.toNat) with
      | .done vs => .ok vs { b with unpackpos := wrap (b.unpackpos + wrap (width * n)) }
      | .failed => .throws (popThrow reason) b
      | .undefined => .undefined := by
  simp only [unPackVector, if_neg (show ¬((n : ℤ) ≤ 0) by omega)]
  rw [BufM.bind_ok hcheck, BufM.bind_apply, decode, if_pos hpos, Int.toNat_natCast]
  cases vectorGet P n (uInt (wrap (width * n))) (b.packeddata.drop b.unpackpos.toNat) <;> rfl

theorem unPackVector_reads (h : P.Carries w enc vs) {width : ℕ} (hw : w ≤ width)
    (reason : String) :
    Reads (unPackVector P width reason vs.length) (vectorBytes width enc vs) vs := by
  intro b pre post hb hpos hlen
  have hsize : b.packeddata.length = pre.length + vs.length * width + post.length := by
    rw [hb, List.length_append, List.length_append, length_vectorBytes h hw]
  rcases Nat.eq_zero_or_pos vs.length with h0 | h1
  · obtain rfl : vs = [] := List.eq_nil_of_length_eq_zero h0
    have hnil : vectorBytes width enc ([] : List α) = [] := by simp [vectorBytes, padTo]
    rw [hnil] at hb ⊢
    exact Reads.pure [] b pre post hb hpos hlen
  · have hle : vs.length * w ≤ vs.length * width := Nat.mul_le_mul_left _ hw
    have hfits : Fits (vs.length * width : ℕ) := by
      simp only [Fits]
      omega
    have hsz : wrap ((width : ℤ) * (vs.length : ℤ)) = (vs.length * width : ℕ) := by
      rw [← Nat.cast_mul, Nat.mul_comm, wrap_eq_self hfits]
    have hcheck : checkUnPack "Wrong buffer format in pop_buffer_xdr::CheckUnPack"
        (wrap ((width : ℤ) * (vs.length : ℤ))) b = .ok () b := by
      rw [hsz]
      exact checkUnPack_ok hpos (by omega) hlen
    have hwindow : uInt ((vs.length * width : ℕ) : ℤ) = vs.length * width := by
      have := uInt_of_nonneg hfits (by omega)
      omega
    have hrest : b.packeddata.drop b.unpackpos.toNat = vs.flatMap enc ++
        (List.replicate (vs.length * width - (vs.flatMap enc).length) 0 ++ post) := by
      rw [hpos, Int.toNat_natCast, hb, List.append_assoc, List.drop_left, vectorBytes, padTo,
        List.append_assoc]
    have hend : wrap (b.unpackpos + (vs.length * width : ℕ)) =
        (pre.length + (vectorBytes width enc vs).length : ℕ) := by
      rw [hpos, ← Nat.cast_add, wrap_natCast (by omega), length_vectorBytes h hw]
    rw [unPackVector_eq P reason h1 (by omega) hcheck, hsz, hwindow, hrest, vectorGet_eq h hle,
      hend]

end PopCpp.Buffer
