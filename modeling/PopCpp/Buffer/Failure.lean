/-
# A call of `Pack` that throws

`pop_buffer_xdr` grows the vector first and encodes into the new bytes, and the library may refuse
an element, so the exception leaves the new bytes in the buffer.  A call that cannot grow the
vector leaves it as it was.
-/
import PopCpp.Buffer.Serialize

namespace PopCpp.Buffer

open Bytes CInt

/-- An exception leaves the buffer as it was. -/
def Atomic (m : BufM Unit) (b : PopBuffer) : Prop := ∀ e b', m b = .throws e b' → b' = b

namespace Xdr

/-- `oldsize`: a `size_t` for arrays of `int`, and an `int` for all others. -/
def oldsize (k : Kind) (l : ℕ) : ℤ :=
  match k with
  | .int => l
  | _ => wrap l

/-- What the size of `l` bytes is changed to. -/
def grown (k : Kind) (sz : ℤ) (l : ℕ) : ℕ :=
  match k with
  | .int => sizeT (sz + l)
  | _ => sizeT (wrap (sz + wrap l))

/-- How many bytes are asked for. -/
def asked (k : Kind) (n : ℕ) : ℤ := wrap (n * room k)

/-- No exception leaves anything behind: bytes are copied; or there is nothing to pack; or the
vector refuses the size; or the library encodes everything; or no bytes are added; or the first
element is written outside the vector. -/
def Kept (k : Kind) (vs : List k.Val) (l : ℕ) : Prop :=
  room k = 1 ∨ vs = [] ∨ 2 ^ 63 ≤ grown k (asked k vs.length) l ∨
    (XdrFits (.array k vs) ∧ vs.length * room k < 2 ^ 32) ∨
    (asked k vs.length = 0 ∧ grown k (asked k vs.length) l = l) ∨
    (asked k vs.length ≠ 0 ∧ (asked k vs.length < 0 ∨ oldsize k l < 0) ∧
      XdrFits (.array k (vs.take 1)))

end Xdr

/-! ### How far the library gets -/

section Vector

variable {α : Type} {P : XdrProc α} {w : ℕ} {rep : α → Option ℕ} {val : ℕ → α}

lemma vectorPut_eq_true_iff (hP : P.Encodes w rep val) {window : ℕ} {vs : List α} :
    (vectorPut P window vs).2 = true ↔ (∀ v ∈ vs, rep v ≠ none) ∧ vs.length * w ≤ window := by
  induction vs generalizing window with
  | nil => simp [vectorPut]
  | cons v vs ih =>
      rw [vectorPut, hP.put_eq, List.forall_mem_cons, List.length_cons, Nat.succ_mul]
      cases hrep : rep v with
      | none => simp
      | some m =>
          simp only [Option.map_some, length_be]
          split
          · next hlt =>
              simp only [Bool.false_eq_true, false_iff, not_and, not_le]
              intro _
              omega
          · next hge =>
              simp only [ih, ne_eq, reduceCtorEq, not_false_eq_true, true_and]
              exact and_congr_right fun _ => by omega

lemma length_vectorPut_le (hP : P.Encodes w rep val) {window : ℕ} {vs : List α} :
    (vectorPut P window vs).1.length ≤ window := by
  induction vs generalizing window with
  | nil => simp [vectorPut]
  | cons v vs ih =>
      rw [vectorPut, hP.put_eq]
      cases hrep : rep v with
      | none => simp
      | some m =>
          simp only [Option.map_some, length_be]
          split
          · simp
          · next hge =>
              have hrest : (vectorPut P (window - w) vs).1.length ≤ window - w := ih
              rw [List.length_append, length_be]
              omega

/-- Something is written if the first element is encoded and fits into the window. -/
lemma vectorPut_ne_nil_iff (hP : P.Encodes w rep val) (hw : 0 < w) {window : ℕ} {vs : List α}
    (hvs : vs ≠ []) :
    (vectorPut P window vs).1 ≠ [] ↔ (∀ v ∈ vs.take 1, rep v ≠ none) ∧ w ≤ window := by
  obtain ⟨v, vs, rfl⟩ := List.exists_cons_of_ne_nil hvs
  rw [vectorPut, hP.put_eq, List.take_succ_cons, List.take_zero, List.forall_mem_singleton]
  cases hrep : rep v with
  | none => simp
  | some m =>
      have hne : be w m ≠ [] := by
        rw [← List.length_pos_iff, length_be]
        exact hw
      simp only [Option.map_some, length_be]
      split
      · next hlt => simp [hlt]
      · next hge => simp [hne, not_lt.mp hge]

lemma resize_cases (size : ℕ) (b : PopBuffer) :
    (2 ^ 63 ≤ size ∧ resize size b = .throws .lengthError b) ∨
      size < 2 ^ 63 ∧ ∃ b', resize size b = .ok () b' ∧ b'.packeddata.length = size ∧
        (b' = b ↔ size = b.packeddata.length) := by
  rcases Nat.lt_or_ge size (2 ^ 63) with hlt | hge
  · have hresize : resize size b = .ok () { b with
        packeddata := b.packeddata.take size ++ List.replicate (size - b.packeddata.length) 0 } :=
      if_pos hlt
    obtain ⟨-, hlen⟩ := resize_eq_ok hresize
    refine .inr ⟨hlt, _, hresize, hlen, fun hsame => ?_, fun hsize => ?_⟩
    · rw [← hlen, hsame]
    · rw [hsize, List.take_length, Nat.sub_self, List.replicate_zero, List.append_nil]
  · exact .inl ⟨hge, if_neg (not_lt.mpr hge)⟩

lemma encode_throws_iff {reason : String} {old sz : ℤ} {vs : List α} {e : Thrown}
    {b b' : PopBuffer} :
    encode P reason old sz vs b = .throws e b' ↔
      (vectorPut P (uInt sz) vs).2 = false ∧ popThrow reason = e ∧
        store old (vectorPut P (uInt sz) vs).1 b = .ok () b' := by
  have hencode : encode P reason old sz vs =
      store old (vectorPut P (uInt sz) vs).1 >>= fun _ =>
        if (vectorPut P (uInt sz) vs).2 = true then pure () else throwing (popThrow reason) := rfl
  rw [hencode, BufM.bind_apply]
  cases hstore : store old (vectorPut P (uInt sz) vs).1 b with
  | ok u b₁ => cases (vectorPut P (uInt sz) vs).2 <;> simp [throwing]
  | throws e₁ b₁ =>
      rw [store] at hstore
      split_ifs at hstore
  | undefined => simp

/-- The vector is resized, and then the library fails or not. -/
lemma resize_encode_atomic_iff (hP : P.Encodes w rep val) (reason : String) {vs : List α}
    {old sz : ℤ} {size : ℕ} {b : PopBuffer} (hsame : size = b.packeddata.length → sz = 0) :
    Atomic (resize size >>= fun _ => encode P reason old sz vs) b ↔
      2 ^ 63 ≤ size ∨ (vectorPut P (uInt sz) vs).2 = true ∨
        (sz = 0 ∧ size = b.packeddata.length) ∨
        ((vectorPut P (uInt sz) vs).1 ≠ [] ∧
          ¬(0 ≤ old ∧ old + (vectorPut P (uInt sz) vs).1.length ≤ size)) := by
  rcases resize_cases size b with ⟨hbig, hresize⟩ | ⟨hlt, b₁, hresize, hlen, hb₁⟩
  · refine iff_of_true (fun e b' h => ?_) (.inl hbig)
    rw [BufM.bind_throws hresize] at h
    cases h
    rfl
  rw [Atomic, BufM.bind_ok hresize]
  simp only [encode_throws_iff]
  cases hput : (vectorPut P (uInt sz) vs).2 with
  | true => exact iff_of_true (fun e b' h => absurd h.1 (by simp)) (.inr (.inl rfl))
  | false =>
      rcases eq_or_ne (vectorPut P (uInt sz) vs).1 [] with hnil | hne
      · -- Nothing is written: only the new size is left.
        have hstore : store old (vectorPut P (uInt sz) vs).1 b₁ = .ok () b₁ := if_pos hnil
        constructor
        · intro h
          have hsize := hb₁.mp (h (popThrow reason) b₁ ⟨rfl, rfl, hstore⟩)
          exact .inr (.inr (.inl ⟨hsame hsize, hsize⟩))
        · rintro (hbig | htrue | ⟨-, hsize⟩ | ⟨hne, -⟩) e b' ⟨-, -, h⟩
          · omega
          · cases htrue
          · rw [hstore] at h
            cases h
            exact hb₁.mpr hsize
          · exact absurd hnil hne
      · by_cases hin : 0 ≤ old ∧ old + (vectorPut P (uInt sz) vs).1.length ≤ size
        · -- Some elements are written, so the vector has not kept its size.
          have hsz : sz ≠ 0 := by
            rintro rfl
            have hle : (vectorPut P (uInt 0) vs).1.length ≤ uInt 0 := length_vectorPut_le hP
            rw [show uInt 0 = 0 from rfl] at hle hne
            exact hne (List.eq_nil_of_length_eq_zero (by omega))
          obtain ⟨b₂, hstore⟩ : ∃ b₂, store old (vectorPut P (uInt sz) vs).1 b₁ = .ok () b₂ :=
            ⟨_, by rw [store, if_neg hne, if_pos (by rw [hlen]; exact hin)]⟩
          refine iff_of_false (fun h => ?_) ?_
          · have hb₂ := h (popThrow reason) b₂ ⟨rfl, rfl, hstore⟩
            obtain ⟨-, -, hsize⟩ := store_eq_ok hne hstore
            rw [hb₂, hlen] at hsize
            exact hsz (hsame hsize.symm)
          · rintro (hbig | htrue | ⟨hzero, -⟩ | ⟨-, hout⟩)
            · omega
            · cases htrue
            · exact hsz hzero
            · exact hout hin
        · refine iff_of_true (fun e b' h => ?_) (.inr (.inr (.inr ⟨hne, hin⟩)))
          rw [store, if_neg hne, hlen, if_neg hin] at h
          cases h.2.2

/-- The window has room for all elements unless their number of bytes wraps around. -/
lemma window_all_iff {width : ℤ} (hw : Widths w width) (n : ℕ) :
    n * w ≤ uInt (wrap (n * width)) ↔ n * width < 2 ^ 32 := by
  simp only [uInt, wrap]
  rcases hw with ⟨rfl, rfl⟩ | ⟨rfl, rfl⟩ | ⟨rfl, rfl⟩ <;> omega

lemma window_first_iff {width : ℤ} (hw : Widths w width) (n : ℕ) :
    w ≤ uInt (wrap (n * width)) ↔ wrap (n * width) ≠ 0 := by
  simp only [uInt, wrap]
  rcases hw with ⟨rfl, rfl⟩ | ⟨rfl, rfl⟩ | ⟨rfl, rfl⟩ <;> omega

/-- Elements are written outside the vector if it has shrunk, or in front of it. -/
lemma outside_iff {sz old : ℤ} {size : ℕ} {bs : List UInt8} (hbs : bs ≠ [])
    (hle : bs.length ≤ uInt sz) (hsz : Fits sz) (hsize : 0 ≤ old → (size : ℤ) = sz + old) :
    ¬(0 ≤ old ∧ old + bs.length ≤ size) ↔ sz < 0 ∨ old < 0 := by
  have hpos : 0 < bs.length := List.length_pos_iff.mpr hbs
  simp only [Fits] at hsz
  simp only [uInt] at hle
  omega

/-- The same in terms of the array. -/
lemma resize_encode_kept_iff (hP : P.Encodes w rep val) {width : ℤ} (hw : Widths w width)
    (reason : String) {vs : List α} (hvs : vs ≠ []) {old : ℤ} {size : ℕ} {b : PopBuffer}
    (hsame : size = b.packeddata.length → wrap (vs.length * width) = 0)
    (hsize : size < 2 ^ 63 → 0 ≤ old → (size : ℤ) = wrap (vs.length * width) + old) :
    Atomic (resize size >>= fun _ => encode P reason old (wrap (vs.length * width)) vs) b ↔
      2 ^ 63 ≤ size ∨ ((∀ v ∈ vs, rep v ≠ none) ∧ vs.length * width < 2 ^ 32) ∨
        (wrap (vs.length * width) = 0 ∧ size = b.packeddata.length) ∨
        (wrap (vs.length * width) ≠ 0 ∧ (wrap (vs.length * width) < 0 ∨ old < 0) ∧
          ∀ v ∈ vs.take 1, rep v ≠ none) := by
  have hpos : 0 < w := hw.bounds.1
  rw [resize_encode_atomic_iff hP reason hsame, vectorPut_eq_true_iff hP, window_all_iff hw]
  rcases Nat.lt_or_ge size (2 ^ 63) with hlt | hge
  · have hlast : ((vectorPut P (uInt (wrap (vs.length * width))) vs).1 ≠ [] ∧
        ¬(0 ≤ old ∧ old + (vectorPut P (uInt (wrap (vs.length * width))) vs).1.length ≤ size)) ↔
        (wrap (vs.length * width) ≠ 0 ∧ (wrap (vs.length * width) < 0 ∨ old < 0) ∧
          ∀ v ∈ vs.take 1, rep v ≠ none) := by
      constructor
      · rintro ⟨hne, hout⟩
        rw [outside_iff hne (length_vectorPut_le hP) (fits_wrap _) (hsize hlt)] at hout
        rw [vectorPut_ne_nil_iff hP hpos hvs, window_first_iff hw] at hne
        exact ⟨hne.2, hout, hne.1⟩
      · rintro ⟨hsz, hout, hfirst⟩
        have hne := (vectorPut_ne_nil_iff hP hpos hvs).mpr
          ⟨hfirst, (window_first_iff hw vs.length).mpr hsz⟩
        exact ⟨hne, (outside_iff hne (length_vectorPut_le hP) (fits_wrap _) (hsize hlt)).mpr hout⟩
    rw [hlast]
  · exact iff_of_true (.inl hge) (.inl hge)

end Vector

/-! ### The types -/

section Types

variable {lib : XdrLib}

open Xdr

/-- Where nothing but the size can be refused. -/
lemma packChar_atomic (data : List UInt8) (b : PopBuffer) : Atomic (packChar data) b := by
  intro e b' h
  rw [packChar] at h
  split at h
  · cases h
  rw [BufM.bind_ok (rfl : this b = .ok b b)] at h
  rcases resize_cases (sizeT (wrap (wrap b.packeddata.length + align4 data.length))) b with
    ⟨-, hresize⟩ | ⟨-, b₁, hresize, -⟩
  · rw [BufM.bind_throws hresize] at h
    cases h
    rfl
  · rw [BufM.bind_ok hresize, store] at h
    split_ifs at h

/-- Numbers whose `oldsize` is an `int`. -/
lemma packVector_atomic_iff {k : Kind} {P : XdrProc k.Val} {w : ℕ} {rep : k.Val → Option ℕ}
    {val : ℕ → k.Val} (hP : P.Encodes w rep val) (hw : Widths w (room k)) (hk : k ≠ .int)
    {reason : String} (hpack : Xdr.pack lib k = packVector P (room k) reason)
    (hfits : ∀ vs : List k.Val, XdrFits (.array k vs) ↔ ∀ v ∈ vs, rep v ≠ none)
    (vs : List k.Val) (b : PopBuffer) :
    Atomic (Xdr.pack lib k vs) b ↔ Kept k vs b.packeddata.length := by
  have hold : oldsize k b.packeddata.length = wrap b.packeddata.length := by
    cases k with
    | int => exact absurd rfl hk
    | _ => rfl
  have hgrown : grown k (asked k vs.length) b.packeddata.length =
      sizeT (wrap (asked k vs.length + wrap b.packeddata.length)) := by
    cases k with
    | int => exact absurd rfl hk
    | _ => rfl
  have hroom : room k ≠ 1 := by
    rcases hw with ⟨-, h⟩ | ⟨-, h⟩ | ⟨-, h⟩ <;> omega
  rw [Kept, hold, hgrown, hfits, hfits, hpack, packVector, asked]
  rcases eq_or_ne vs [] with rfl | hvs
  · refine iff_of_true (fun e b' h => ?_) (.inr (.inl rfl))
    rw [if_pos (by simp)] at h
    cases h
  · have hn : ¬((vs.length : ℤ) ≤ 0) := by
      have := List.length_pos_iff.mpr hvs
      omega
    have hsz := fits_wrap (vs.length * room k)
    have hl := fits_wrap (b.packeddata.length : ℤ)
    -- the vector can keep its size only if no bytes are asked for
    have hsame : sizeT (wrap (wrap (vs.length * room k) + wrap b.packeddata.length)) =
        b.packeddata.length → wrap (vs.length * room k) = 0 := by
      simp only [Fits] at hsz
      simp only [sizeT, wrap] at hsz ⊢
      omega
    -- a sum that has wrapped around is negative, and no size
    have hsize : sizeT (wrap (wrap (vs.length * room k) + wrap b.packeddata.length)) < 2 ^ 63 →
        0 ≤ wrap (b.packeddata.length : ℤ) →
        (sizeT (wrap (wrap (vs.length * room k) + wrap b.packeddata.length)) : ℤ) =
          wrap (vs.length * room k) + wrap b.packeddata.length := by
      intro hlt hnonneg
      have heq := sizeT_lt_eq (fits_wrap _) hlt
      have hge : 0 ≤ wrap (wrap (vs.length * room k) + wrap b.packeddata.length) := by omega
      simp only [Fits] at hsz hl
      rw [heq]
      refine wrap_eq_self ?_
      simp only [Fits]
      generalize wrap (b.packeddata.length : ℤ) = l at *
      generalize wrap (vs.length * room k) = sz at *
      simp only [wrap] at hge
      omega
    have hkept := resize_encode_kept_iff hP hw reason hvs hsame hsize
    rw [if_neg hn, Atomic, BufM.bind_ok (rfl : this b = .ok b b)]
    refine hkept.trans ?_
    simp only [hroom, hvs, false_or]

/-- Arrays of `int`, whose `oldsize` is a `size_t`. -/
lemma packInt_atomic_iff (hlib : lib.Documented) (vs : List (BitVec 32)) (b : PopBuffer)
    (hb : b.packeddata.length < 2 ^ 63) :
    Atomic (packInt lib vs) b ↔ Kept .int vs b.packeddata.length := by
  have hfits : ∀ ws : List (BitVec 32), XdrFits (.array .int ws) ↔
      ∀ v ∈ ws, some v.toNat ≠ none := fun ws => ⟨fun _ v _ => by simp, fun _ => trivial⟩
  have hasked : asked .int vs.length = wrap (vs.length * 4) := rfl
  have hgrown : grown .int (wrap (vs.length * 4)) b.packeddata.length =
      sizeT (wrap (vs.length * 4) + b.packeddata.length) := rfl
  have hold : oldsize .int b.packeddata.length = b.packeddata.length := rfl
  rw [Kept, hasked, hgrown, hold, hfits, hfits, packInt]
  rcases eq_or_ne vs [] with rfl | hvs
  · refine iff_of_true (fun e b' h => ?_) (.inr (.inl rfl))
    rw [if_pos (by simp)] at h
    cases h
  · have hn : ¬((vs.length : ℤ) ≤ 0) := by
      have := List.length_pos_iff.mpr hvs
      omega
    have hsz := fits_wrap ((vs.length : ℤ) * 4)
    simp only [Fits] at hsz
    have hsame : sizeT (wrap (vs.length * 4) + b.packeddata.length) = b.packeddata.length →
        wrap ((vs.length : ℤ) * 4) = 0 := by
      simp only [sizeT]
      omega
    have hsize : sizeT (wrap (vs.length * 4) + b.packeddata.length) < 2 ^ 63 →
        0 ≤ (b.packeddata.length : ℤ) →
        (sizeT (wrap (vs.length * 4) + b.packeddata.length) : ℤ) =
          wrap (vs.length * 4) + b.packeddata.length := by
      simp only [sizeT]
      omega
    have hkept := resize_encode_kept_iff hlib.int (.inl ⟨rfl, rfl⟩)
      "Exception in serialization 1" hvs hsame hsize
    rw [if_neg hn, Atomic, BufM.bind_ok (rfl : this b = .ok b b)]
    refine hkept.trans ?_
    have hroom : room .int ≠ 1 := by decide
    simp only [hroom, hvs, false_or]
    rfl

lemma packLong_atomic_iff (hlib : lib.Documented) (vs : List (BitVec 64)) (b : PopBuffer) :
    Atomic (Xdr.pack lib .long vs) b ↔ Kept .long vs b.packeddata.length := by
  have hfits : ∀ ws : List (BitVec 64), XdrFits (.array .long ws) ↔
      ∀ v ∈ ws, longCode v ≠ none :=
    fun ws => forall₂_congr fun v _ => longCode_ne_none_iff.symm
  exact packVector_atomic_iff (k := .long) hlib.long (.inr (.inl ⟨rfl, rfl⟩)) (by decide) rfl
    hfits vs b

/-- **Exceptions.**  When a call of `Pack` that throws leaves the buffer as it was. -/
theorem pack_atomic_iff (lib : XdrLib) (hlib : lib.Documented) (k : Kind) (vs : List k.Val)
    (b : PopBuffer) (hb : b.packeddata.length < 2 ^ 63) :
    Atomic ((xdr lib).pack k vs) b ↔ Xdr.Kept k vs b.packeddata.length := by
  have hword : ∀ {α : Type} (f : α → ℕ) (vs : List α), True ↔ ∀ v ∈ vs, some (f v) ≠ none :=
    fun f vs => ⟨fun _ v _ => by simp, fun _ => trivial⟩
  cases k with
  | int => exact packInt_atomic_iff hlib vs b hb
  | unsigned =>
      exact packVector_atomic_iff hlib.u_int (.inl ⟨rfl, rfl⟩) (by decide) rfl (hword _) vs b
  | long => exact packLong_atomic_iff hlib vs b
  | ulong =>
      have hfits : ∀ ws : List (BitVec 64), XdrFits (.array .ulong ws) ↔
          ∀ v ∈ ws, uLongCode v ≠ none :=
        fun ws => forall₂_congr fun v _ => uLongCode_ne_none_iff.symm
      exact packVector_atomic_iff (k := .ulong) hlib.u_long (.inr (.inl ⟨rfl, rfl⟩)) (by decide) rfl
        hfits vs b
  | short =>
      exact packVector_atomic_iff hlib.short (.inl ⟨rfl, rfl⟩) (by decide) rfl (hword _) vs b
  | ushort =>
      exact packVector_atomic_iff hlib.u_short (.inl ⟨rfl, rfl⟩) (by decide) rfl (hword _) vs b
  | bool => exact iff_of_true (packChar_atomic _ b) (.inl rfl)
  | char => exact iff_of_true (packChar_atomic _ b) (.inl rfl)
  | uchar => exact iff_of_true (packChar_atomic _ b) (.inl rfl)
  | schar => exact iff_of_true (packChar_atomic _ b) (.inl rfl)
  | float =>
      exact packVector_atomic_iff hlib.float (.inl ⟨rfl, rfl⟩) (by decide) rfl (hword _) vs b
  | double =>
      exact packVector_atomic_iff hlib.double (.inr (.inr ⟨rfl, rfl⟩)) (by decide) rfl (hword _)
        vs b

/-- 2^28 `long`s: the number of bytes wraps around to a negative one, which the vector refuses, and
the exception leaves the buffer as it was. -/
theorem pack_atomic_iff_refused :
    (xdr XdrLib.standard).pack .long (List.replicate (2 ^ 28) 1) (empty ⟨0, 0, 0, 0, 0⟩) =
        .throws .lengthError (empty ⟨0, 0, 0, 0, 0⟩) ∧
      Atomic ((xdr XdrLib.standard).pack .long (List.replicate (2 ^ 28) 1))
        (empty ⟨0, 0, 0, 0, 0⟩) := by
  have hlength : (List.replicate (2 ^ 28) (1 : BitVec 64)).length = 2 ^ 28 := List.length_replicate
  generalize List.replicate (2 ^ 28) (1 : BitVec 64) = vs at hlength ⊢
  constructor
  · have hsize : sizeT (wrap (wrap ((vs.length : ℤ) * 8) + wrap 20)) = 2 ^ 64 - 2 ^ 31 + 20 := by
      rw [hlength]
      decide
    show packVector _ 8 _ vs _ = _
    rw [packVector, if_neg (by rw [hlength]; decide), BufM.bind_ok (rfl : this _ = .ok _ _)]
    refine BufM.bind_throws ?_
    show resize (sizeT (wrap (wrap ((vs.length : ℤ) * 8) + wrap 20))) _ = _
    rw [hsize]
    rfl
  · refine (pack_atomic_iff XdrLib.standard XdrLib.standard_documented .long vs
      (empty ⟨0, 0, 0, 0, 0⟩) (by decide)).mpr (.inr (.inr (.inl ?_)))
    rw [hlength]
    decide

/-- A `long` that does not fit in 32 bits throws, and leaves 8 bytes in the buffer. -/
theorem pack_long_not_atomic :
    ¬∀ (k : Kind) (vs : List k.Val) (b : PopBuffer),
      Atomic ((xdr XdrLib.standard).pack k vs) b := by
  intro h
  have hkept := (packLong_atomic_iff XdrLib.standard_documented [0x80000000]
    (empty ⟨0, 0, 0, 0, 0⟩)).mp (h .long [0x80000000] (empty ⟨0, 0, 0, 0, 0⟩))
  have hval : (0x80000000 : BitVec 64).toInt = 2 ^ 31 := rfl
  have hunfit : ¬XdrFits (.array .long [0x80000000]) := by
    intro hfits
    have hlong := hfits 0x80000000 List.mem_cons_self
    omega
  rcases hkept with hroom | hnil | hbig | ⟨hfits, -⟩ | ⟨hzero, -⟩ | ⟨-, -, hfits⟩
  · exact absurd hroom (by decide)
  · cases hnil
  · exact absurd hbig (by decide)
  · exact hunfit hfits
  · exact absurd hzero (by decide)
  · exact hunfit hfits

end Types

end PopCpp.Buffer
