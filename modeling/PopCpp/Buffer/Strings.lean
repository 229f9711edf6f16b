/-
# Strings in all the buffers

A string is packed with its length and a terminating NUL, and `UnPack` takes the characters up
to the first NUL whatever the length was.  The MPI buffer (`popc_buffer_xdr_mpi`) is made an
encoding like the other two here, so that what is said about strings is said about all three.
-/
import PopCpp.Buffer.Serialize
import PopCpp.Buffer.XdrMpi

namespace PopCpp.Buffer

open Bytes CInt

/-! ### The MPI buffer as an encoding -/

/-- What an array of the caller holds before it is unpacked into. -/
structure Stale where
  vals : PopBuffer → (k : Kind) → ℕ → List k.Val
  length_vals : ∀ b k n, (vals b k n).length = n

/-- `popc_buffer_xdr_mpi`. -/
def mpi (lib : XdrLib) (stale : Stale) : Format where
  reset := Xdr.reset
  pack := XdrMpi.pack lib
  unPack k n := fun b => XdrMpi.unPack lib k (stale.vals b k n.toNat) b
  putWord v := be 4 v.toNat
  getWord bs := BitVec.ofNat 32 (ofBe bs)

/-- Arrays of the caller that hold zeros. -/
def Stale.zeros : Stale where
  vals _ k n := k.elements n []
  length_vals _ k n := k.length_elements n []

section Mpi

variable {lib : XdrLib} {stale : Stale}

lemma mpi_unPack_reads {k : Kind} {n : ℕ} {bs : List UInt8} {v : List k.Val}
    (h : ∀ ts : List k.Val, ts.length = n → Reads (XdrMpi.unPack lib k ts) bs v) :
    Reads ((mpi lib stale).unPack k n) bs v :=
  fun b => h (stale.vals b k n) (stale.length_vals b k n) b

lemma carries_mpi {k : Kind} {P : XdrProc k.Val} {w : ℕ} {enc : k.Val → List UInt8}
    {vs : List k.Val} (h : P.Carries w enc vs)
    (hpack : XdrMpi.pack lib k = XdrMpi.packVector P (XdrMpi.words w) (XdrMpi.words w))
    (hunPack : XdrMpi.unPack lib k = XdrMpi.unPackVector P (XdrMpi.words w) (XdrMpi.words w)) :
    Carries ((mpi lib stale).pack k vs) ((mpi lib stale).unPack k vs.length) (vs.length * w)
      vs := by
  refine ⟨vs.flatMap enc, h.length_flatMap, ?_, mpi_unPack_reads fun ts hts => ?_⟩
  · have happ := XdrMpi.packVector_words_appends h
    rwa [← hpack] at happ
  · rw [hunPack]
    exact XdrMpi.unPackVector_words_reads h hts

/-- An array of numbers is not packed into a buffer that is too long for a message. -/
lemma fills_mpi {α : Type} {P : XdrProc α} {w : ℕ} {enc : α → List UInt8} {vs : List α}
    (h : P.Carries w enc vs) (hw : 0 < w) (hvs : vs ≠ []) (hlt : vs.length * w < 2 ^ 31) :
    Fills (XdrMpi.packVector P (XdrMpi.words w) (XdrMpi.words w) vs) (vs.length * w) := by
  have hpos : 0 < vs.length * w := Nat.mul_pos (List.length_pos_iff.mpr hvs) hw
  have hn : ¬((vs.length : ℤ) ≤ 0) := by
    have := List.length_pos_iff.mpr hvs
    omega
  have hput : vectorPut P (uInt (XdrMpi.words w vs.length)) vs = (vs.flatMap enc, true) := by
    rw [XdrMpi.uInt_words hlt]
    exact vectorPut_eq h le_rfl
  have hne : vs.flatMap enc ≠ [] := by
    intro hnil
    have hlen := h.length_flatMap
    rw [hnil, List.length_nil] at hlen
    omega
  intro b b' hb hpack
  have hroom : b.packeddata.length + vs.length * w < 2 ^ 31 := by
    simp only [XdrMpi.packVector, if_neg hn] at hpack
    rw [BufM.bind_ok (rfl : this b = .ok b b), hput, XdrMpi.words_eq hlt] at hpack
    obtain ⟨_, b₁, hresize, hstore⟩ := BufM.bind_eq_ok.mp hpack
    obtain ⟨hsize, -⟩ := XdrMpi.resize_wrap_eq_ok hresize
    obtain ⟨h0, hin, -⟩ := store_eq_ok hne hstore
    -- A buffer of `2 ^ 31` bytes has a negative `oldsize`, and a larger one is no `int`.
    simp only [wrap] at h0 hsize
    omega
  have hlen := h.length_flatMap
  rw [XdrMpi.packVector_words_appends h b (by rw [hlen]; exact hroom)] at hpack
  cases hpack
  rw [List.length_append, hlen]
  exact ⟨hroom, rfl⟩

theorem transports_mpi (hlib : lib.Documented) : (mpi lib stale).Transports where
  int vs := carries_mpi (hlib.int.carries_word (w := 4) vs) rfl rfl
  float vs := carries_mpi (hlib.float.carries_word (w := 4) vs) rfl rfl
  flag v := by
    have happ : Appends (XdrMpi.packBool [v]) (pad4 [if v then 1 else 0]) :=
      packChar_appends [if v then 1 else 0]
    refine ⟨pad4 [if v then 1 else 0], ?_, happ, mpi_unPack_reads fun ts hts => ?_⟩
    · rw [length_pad4, List.length_singleton, roundUp4_one]
    · have hshort : [v].length ≤ 4 := by simp
      exact XdrMpi.unPackBool_reads hshort hts
  char data := ⟨packChar_appends data, mpi_unPack_reads (XdrMpi.codes_char data).2⟩
  takesInt vs hvs hlen := by
    refine (fills_mpi (hlib.int.carries_word (w := 4) vs) (by decide) hvs hlen).takes ?_
    have := List.length_pos_iff.mpr hvs
    omega
  fillsFloat vs hvs hlen := fills_mpi (hlib.float.carries_word (w := 4) vs) (by decide) hvs hlen
  fillsFlag v := by
    have h := fills_packChar (List.cons_ne_nil (if v then (1 : UInt8) else 0) [])
    rwa [List.length_singleton, roundUp4_one] at h
  roomChar _ hdata _ _ _ hb h := packChar_eq_ok hdata hb h
  lengthChar n hn _ b b' bs h := by
    have hlen : (stale.vals b .char n.toNat).length = n.toNat := stale.length_vals b .char n.toNat
    have hchars : unPackChar "Wrong packed data size" (stale.vals b .char n.toNat).length b =
        .ok bs b' := h
    rw [hlen] at hchars
    show bs.length = n.toNat
    rw [length_unPackChar (by omega) hchars, Int.toNat_natCast]

end Mpi

/-- The buffers that there are. -/
inductive Implemented : Format → Prop where
  | raw : Implemented raw
  | xdr {lib : XdrLib} (hlib : lib.Documented) : Implemented (xdr lib)
  | mpi {lib : XdrLib} (hlib : lib.Documented) (stale : Stale) : Implemented (mpi lib stale)

lemma Implemented.transports {F : Format} (h : Implemented F) : F.Transports := by
  cases h with
  | raw => exact transports_raw
  | xdr hlib => exact transports_xdr hlib
  | mpi hlib _ => exact transports_mpi hlib

/-! ### Lists of strings -/

section Strings

variable {F : Format}

/-- The strings are packed at the end of a buffer, and unpacked again from there. -/
def StringsReturn (F : Format) (b : PopBuffer) (ss : List (List UInt8)) : Prop :=
  ∃ b' b'', packStrings F ss b = .ok () b' ∧ unPackStrings F ss.length b' = .ok ss b''

/-- Strings that have been packed have found room in a message. -/
lemma Format.Transports.room_of_packStrings (hF : F.Transports) {ss : List (List UInt8)}
    (hlen : ∀ s ∈ ss, s.length + 1 < 2 ^ 31) {b b' : PopBuffer}
    (hb : b.packeddata.length < 2 ^ 31) (h : packStrings F ss b = .ok () b') :
    b.packeddata.length + (ss.map stringSize).sum < 2 ^ 31 := by
  induction ss generalizing b with
  | nil => simpa using hb
  | cons s ss ih =>
      rw [List.forall_mem_cons] at hlen
      obtain ⟨_, b₁, hfirst, hrest⟩ := BufM.bind_eq_ok.mp h
      obtain ⟨hlt, hsize⟩ := hF.fillsString hlen.1 b b₁ (by omega) hfirst
      have hroom := ih hlen.2 hlt hrest
      rw [List.map_cons, List.sum_cons]
      omega

/-- **Strings** come back from a buffer of any kind exactly if none of them has a NUL character,
and there is room for their lengths, their terminators and the padding. -/
theorem strings_return_iff (F : Format) (hF : Implemented F) (ss : List (List UInt8))
    (b : PopBuffer) (hb : b.packeddata.length < 2 ^ 31)
    (hpos : b.unpackpos = b.packeddata.length) :
    StringsReturn F b ss ↔
      (∀ s ∈ ss, 0 ∉ s) ∧ b.packeddata.length + (ss.map stringSize).sum < 2 ^ 31 := by
  have htransports := hF.transports
  constructor
  · rintro ⟨b', b'', hpack, hunPack⟩
    have hnul : ∀ s ∈ ss, 0 ∉ s :=
      Format.Transports.returnsString_nulFree.strings ss.length b' b'' ss hunPack
    have hlen : ∀ s ∈ ss, s.length + 1 < 2 ^ 31 :=
      htransports.returnsString.strings ss.length b' b'' ss hunPack
    exact ⟨hnul, htransports.room_of_packStrings hlen hb hpack⟩
  · rintro ⟨hnul, hroom⟩
    obtain ⟨bs, hbs, happ, hread⟩ := htransports.strings hnul
    have hlen : (b.packeddata ++ bs).length = b.packeddata.length + bs.length :=
      List.length_append
    have hunPack := hread { b with packeddata := b.packeddata ++ bs } b.packeddata []
      (by simp) hpos (by rw [hlen, hbs]; exact hroom)
    exact ⟨_, _, happ b (by rw [hbs]; exact hroom), hunPack⟩

/-- Two strings, one of them empty, in an MPI buffer. -/
theorem strings_return_iff_mpi :
    StringsReturn (mpi XdrLib.standard Stale.zeros) (empty ⟨0, 0, 0, 0, 0⟩) [[97, 98], []] := by
  have hreturn := strings_return_iff (mpi XdrLib.standard Stale.zeros)
    (.mpi XdrLib.standard_documented Stale.zeros) [[97, 98], []] (empty ⟨0, 0, 0, 0, 0⟩)
    (by decide) (by decide)
  exact hreturn.mpr (by decide)

/-- A string with a NUL in its middle does not come back from a raw buffer. -/
theorem string_with_nul_lost :
    ¬∀ (F : Format), Implemented F → ∀ ss : List (List UInt8), (ss.map List.length).sum < 2 ^ 31 →
      (ss.map stringSize).sum < 2 ^ 31 - 20 → StringsReturn F (empty ⟨0, 0, 0, 0, 0⟩) ss := by
  intro h
  obtain ⟨b', b'', -, hunPack⟩ := h raw .raw [[97, 0, 98]] (by decide) (by decide)
  have hnul := Format.Transports.returnsString_nulFree.strings 1 b' b'' [[97, 0, 98]] hunPack
  exact hnul [97, 0, 98] (by simp) (by decide)

end Strings

end PopCpp.Buffer
