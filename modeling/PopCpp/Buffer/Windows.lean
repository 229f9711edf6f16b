/-
# Strings in a message that was received

The length of a string is what the peer says.  `UnPack` copies a window of so many characters
out of the payload and assigns the result to the string as a C string, which ends at its first
NUL; in a window without one the assignment runs on into whatever memory follows.
-/
import PopCpp.Buffer.Strings

namespace PopCpp.Buffer

open Bytes CInt

/-! ### The windows of a payload -/

namespace Format

variable (F : Format) (data : List UInt8)

/-- How many characters are declared at `p`: none if the length is not positive. -/
def lengthAt (p : ℕ) : ℕ := (F.getWord ((data.drop p).take 4)).toInt.toNat

/-- The characters themselves. -/
def windowAt (p : ℕ) : List UInt8 := (data.drop (p + 4)).take (F.lengthAt data p)

/-- Where the next string begins. -/
def nextAt (p : ℕ) : ℕ := p + 4 + roundUp4 (F.lengthAt data p)

/-- The windows of the next strings. -/
def windows : ℕ → ℕ → List (List UInt8)
  | 0, _ => []
  | n + 1, p => F.windowAt data p :: windows n (F.nextAt data p)

/-- All the windows that lie in the payload, up to the first that does not, have a NUL. -/
def Terminated : ℕ → ℕ → Prop
  | 0, _ => True
  | n + 1, p => p + 4 + F.lengthAt data p ≤ data.length →
      (F.lengthAt data p = 0 ∨ 0 ∈ F.windowAt data p) ∧ Terminated n (F.nextAt data p)

instance decidableTerminated : ∀ n p, Decidable (F.Terminated data n p)
  | 0, _ => inferInstanceAs (Decidable True)
  | n + 1, p =>
      have := decidableTerminated n (F.nextAt data p)
      inferInstanceAs (Decidable (p + 4 + F.lengthAt data p ≤ data.length →
        (F.lengthAt data p = 0 ∨ 0 ∈ F.windowAt data p) ∧ F.Terminated data n (F.nextAt data p)))

end Format

/-- `UnPack` of `n` strings does not read past a window, and where it returns, each string is
made of the first characters of its own. -/
def StaysInWindows (F : Format) (n : ℕ) (b : PopBuffer) : Prop :=
  unPackStrings F n b ≠ .undefined ∧ ∀ ss b', unPackStrings F n b = .ok ss b' →
    List.Forall₂ (· <+: ·) ss (F.windows b.packeddata n b.unpackpos.toNat)

/-! ### Reading anywhere -/

/-- The position is an `int` that may have wrapped around behind the end of the payload. -/
structure At (b : PopBuffer) (p : ℕ) : Prop where
  pos : b.unpackpos = wrap p
  lt : p < 2 ^ 31 + 4
  size : b.packeddata.length < 2 ^ 31

/-- How an encoding reads single integers and characters, wherever they are. -/
structure Format.Scans (F : Format) : Prop where
  int : ∀ (b : PopBuffer) (p : ℕ), At b p →
    (p + 4 ≤ b.packeddata.length ∧
      unPackInt1 F b = .ok (F.getWord ((b.packeddata.drop p).take 4)).toInt
        { b with unpackpos := (p + 4 : ℕ) }) ∨
    b.packeddata.length < p + 4 ∧ ∃ e, unPackInt1 F b = .throws (.popException e) b
  char : ∀ (b : PopBuffer) (p n : ℕ), b.unpackpos = p → p < 2 ^ 31 →
    b.packeddata.length < 2 ^ 31 → 0 < n → n < 2 ^ 31 →
    (p + n ≤ b.packeddata.length ∧
      F.unPack .char n b = .ok ((b.packeddata.drop p).take n)
        { b with unpackpos := wrap (p + roundUp4 n : ℕ) }) ∨
    b.packeddata.length < p + n ∧ ∃ e, F.unPack .char n b = .throws (.popException e) b

section Reading

variable {b : PopBuffer} {p n : ℕ}

lemma At.checkUnPack_four (h : At b p) (reason : String) :
    checkUnPack reason 4 b =
      if p + 4 ≤ b.packeddata.length then .ok () b
      else .throws (popThrowFormat reason) b := by
  have hpos := h.pos
  have hlt := h.lt
  have hsize := h.size
  have hsum : wrap (4 + b.unpackpos) = wrap (p + 4 : ℕ) := by
    rw [hpos, add_comm, wrap_wrap_add, Nat.cast_add, Nat.cast_ofNat]
  have hle := sizeT_wrap_le_iff (x := ((p + 4 : ℕ) : ℤ)) (by omega) (by omega) hsize
  rw [checkUnPack, hsum]
  split <;> split <;> first | rfl | omega

lemma At.unpackpos_eq (h : At b p) (hp : p < 2 ^ 31) : b.unpackpos = p := by
  rw [h.pos, wrap_natCast (by omega)]

lemma unPackChar_at (reason : String) (hpos : b.unpackpos = p) (hp : p < 2 ^ 31)
    (hsize : b.packeddata.length < 2 ^ 31) (hn : 0 < n) (hn' : n < 2 ^ 31) :
    (p + n ≤ b.packeddata.length ∧
      unPackChar reason n b = .ok ((b.packeddata.drop p).take n)
        { b with unpackpos := wrap (p + roundUp4 n : ℕ) }) ∨
    b.packeddata.length < p + n ∧ ∃ e, unPackChar reason n b = .throws (.popException e) b := by
  have hcall := unPackChar_eq reason (b := b) (n := n) (by omega) (by omega) (by omega)
    (by omega) hsize
  have hmove : wrap ((p : ℤ) + align4 n) = wrap (p + roundUp4 n : ℕ) := by
    rw [align4_eq_wrap (by omega) (by omega), add_comm, wrap_wrap_add, roundUp4]
    congr 1
    omega
  rw [hpos, hmove] at hcall
  split at hcall
  · next hin => exact .inl ⟨by omega, hcall⟩
  · next hout => exact .inr ⟨by omega, _, hcall⟩

lemma raw_elements_char (bs : List UInt8) : Kind.char.elements bs.length bs = bs := by
  have hall := Kind.char.elements_flatMap_bytes bs
  have hid : bs.flatMap (Kind.bytes .char) = bs := List.flatMap_singleton' bs
  rwa [hid] at hall

lemma scans_raw : raw.Scans where
  int b p h := by
    have hcheck := h.checkUnPack_four "Wrong buffer format in pop_buffer_raw::CheckUnPack"
    have hsize := h.size
    split at hcheck
    · next hin =>
        have hpos := h.unpackpos_eq (by omega)
        have hcall := rawUnPack_one .int (b := b) (by omega) (by omega) hsize
        have hend : wrap ((p : ℤ) + align4 (Kind.size .int)) = (p + 4 : ℕ) := by
          rw [show align4 (Kind.size .int) = 4 by decide, wrap_eq_self (by simp only [Fits]; omega)]
          omega
        rw [hpos, hend, if_pos (by rw [show Kind.size .int = 4 from rfl]; omega)] at hcall
        refine .inl ⟨hin, ?_⟩
        rw [unPackInt1, BufM.bind_ok hcall]
        rfl
    · next hout =>
        have hone : wrap (1 * (Kind.size .int : ℤ)) = 4 := by decide
        have hchars : unPackChar "Wrong buffer format in pop_buffer_raw::CheckUnPack" 4 b =
            .throws (popThrowFormat "Wrong buffer format in pop_buffer_raw::CheckUnPack") b := by
          rw [unPackChar, if_neg (by decide)]
          exact BufM.bind_throws hcheck
        rw [← hone] at hchars
        have hcall : raw.unPack .int 1 b =
            .throws (popThrowFormat "Wrong buffer format in pop_buffer_raw::CheckUnPack") b := by
          rw [raw_unPack]
          exact BufM.bind_throws hchars
        exact .inr ⟨by omega, _, BufM.bind_throws hcall⟩
  char b p n hpos hp hsize hn hn' := by
    have hone : wrap ((n : ℤ) * (Kind.char.size : ℤ)) = n := by
      rw [show (Kind.char.size : ℤ) = 1 from rfl, mul_one, wrap_eq_self]
      simp only [Fits]
      omega
    rw [raw_unPack, Raw.unPack, hone]
    rcases unPackChar_at "Wrong buffer format in pop_buffer_raw::CheckUnPack" hpos hp hsize hn hn'
      with ⟨hin, hok⟩ | ⟨hout, e, hthrows⟩
    · refine .inl ⟨hin, ?_⟩
      rw [BufM.bind_ok hok, BufM.pure_apply, show Kind.char.size = 1 from rfl, Nat.div_one,
        raw_elements_char]
    · exact .inr ⟨hout, e, BufM.bind_throws hthrows⟩

lemma scans_xdr {lib : XdrLib} (hlib : lib.Documented) : (xdr lib).Scans where
  int b p h := by
    have hcheck := h.checkUnPack_four "Wrong buffer format in pop_buffer_xdr::CheckUnPack"
    have hsize := h.size
    have hfour : wrap (4 * ((1 : ℕ) : ℤ)) = 4 := by decide
    split at hcheck
    · next hin =>
        have hpos := h.unpackpos_eq (by omega)
        have hcall := unPackVector_eq lib.xdr_int "Exception in serialization 2" (n := 1)
          Nat.one_pos (by omega) (hfour ▸ hcheck)
        have hget := hlib.int.get_eq ((b.packeddata.drop p).take 4)
          (by rw [List.length_take, List.length_drop]; omega)
        have hvector : vectorGet lib.xdr_int 1 4 (b.packeddata.drop p) =
            .done [BitVec.ofNat 32 (ofBe ((b.packeddata.drop p).take 4))] := by
          rw [vectorGet, hlib.int.width_eq, if_neg (lt_irrefl 4),
            if_neg (by rw [List.length_drop]; omega), hget]
          rfl
        have hend : wrap ((p : ℤ) + 4) = (p + 4 : ℕ) := by
          rw [wrap_eq_self (by simp only [Fits]; omega)]
          omega
        rw [hfour, hpos, Int.toNat_natCast, show uInt 4 = 4 by decide, hvector, hend] at hcall
        exact .inl ⟨hin, BufM.bind_ok hcall⟩
    · next hout =>
        exact .inr ⟨by omega, _, BufM.bind_throws (BufM.bind_throws hcheck)⟩
  char _ _ _ hpos hp hsize hn hn' := unPackChar_at _ hpos hp hsize hn hn'

lemma scans_mpi {lib : XdrLib} (hlib : lib.Documented) (stale : Stale) :
    (mpi lib stale).Scans where
  int b p h := by
    have hcheck := h.checkUnPack_four "Wrong packed data size"
    have hsize := h.size
    obtain ⟨t, ht⟩ := List.length_eq_one_iff.mp (stale.length_vals b .int 1)
    have hcall : unPackInt1 (mpi lib stale) b =
        (XdrMpi.unPackInt lib [t] >>= fun xs => pure ((xs.headD 0).toInt)) b := by
      rw [← ht]
      rfl
    have hwords : XdrMpi.words 4 1 = 4 := by decide
    split at hcheck
    · next hin =>
        have hpos := h.unpackpos_eq (by omega)
        have hget := hlib.int.get_eq ((b.packeddata.drop p).take 4)
          (by rw [List.length_take, List.length_drop]; omega)
        have hvector : vectorRead lib.xdr_int (uInt 4) [t] (b.packeddata.drop p) =
            some [BitVec.ofNat 32 (ofBe ((b.packeddata.drop p).take 4))] := by
          rw [show uInt 4 = 4 by decide, vectorRead, hlib.int.width_eq, if_neg (lt_irrefl 4),
            if_neg (by rw [List.length_drop]; omega), hget]
          rfl
        have hend : wrap ((p : ℤ) + 4) = (p + 4 : ℕ) := by
          rw [wrap_eq_self (by simp only [Fits]; omega)]
          omega
        have hwindow : checkUnPack "Wrong packed data size" (XdrMpi.words 4 [t].length) b =
            .ok () b := by
          rw [List.length_singleton, Nat.cast_one, hwords]
          exact hcheck
        have hread : XdrMpi.unPackVector lib.xdr_int (XdrMpi.words 4) (XdrMpi.words 4) [t] b = _ :=
          XdrMpi.unPackVector_eq (List.cons_ne_nil t []) (by omega) hwindow
        rw [List.length_singleton, Nat.cast_one, hwords, hpos, Int.toNat_natCast, hvector, hend]
          at hread
        exact .inl ⟨hin, hcall.trans (BufM.bind_ok hread)⟩
    · next hout =>
        have hread : XdrMpi.unPackInt lib [t] b =
            .throws (popThrowFormat "Wrong packed data size") b := by
          simp only [XdrMpi.unPackInt, XdrMpi.unPackVector, List.length_singleton, Nat.cast_one,
            hwords, if_neg (show ¬((1 : ℤ) ≤ 0) by decide)]
          exact BufM.bind_throws hcheck
        exact .inr ⟨by omega, _, hcall.trans (BufM.bind_throws hread)⟩
  char b p n hpos hp hsize hn hn' := by
    have hlen : (stale.vals b .char n).length = n := stale.length_vals b .char n
    have hchars : (mpi lib stale).unPack .char n b =
        unPackChar "Wrong packed data size" (stale.vals b .char n).length b := rfl
    rw [hchars, hlen]
    exact unPackChar_at _ hpos hp hsize hn hn'

lemma Implemented.scans {F : Format} (h : Implemented F) : F.Scans := by
  cases h with
  | raw => exact scans_raw
  | xdr hlib => exact scans_xdr hlib
  | mpi hlib stale => exact scans_mpi hlib stale

end Reading

/-! ### Strings -/

section Strings

variable {F : Format} {b : PopBuffer} {p n : ℕ}

/-- One string: where its window is in the payload, it takes a NUL to return. -/
lemma unPackString_at (hF : F.Scans) (h : At b p) :
    (p + 4 + F.lengthAt b.packeddata p ≤ b.packeddata.length ∧
      unPackString F b =
        if F.lengthAt b.packeddata p = 0 ∨ 0 ∈ F.windowAt b.packeddata p then
          .ok (cut (F.windowAt b.packeddata p))
            { b with unpackpos := wrap (F.nextAt b.packeddata p) }
        else .undefined) ∨
    b.packeddata.length < p + 4 + F.lengthAt b.packeddata p ∧
      ∃ e b', unPackString F b = .throws e b' := by
  have hsize := h.size
  rcases hF.int b p h with ⟨hin, hint⟩ | ⟨hout, e, hthrows⟩
  · have hlt : (F.getWord ((b.packeddata.drop p).take 4)).toInt < 2 ^ 31 := BitVec.toInt_lt
    rw [unPackString, BufM.bind_ok hint]
    by_cases hpos : (F.getWord ((b.packeddata.drop p).take 4)).toInt > 0
    · have hlen : ((F.lengthAt b.packeddata p : ℕ) : ℤ) =
          (F.getWord ((b.packeddata.drop p).take 4)).toInt := Int.toNat_of_nonneg (by omega)
      have hne : F.lengthAt b.packeddata p ≠ 0 := by omega
      rw [if_pos hpos, ← hlen]
      rcases hF.char { b with unpackpos := (p + 4 : ℕ) } (p + 4) (F.lengthAt b.packeddata p) rfl
        (by omega) hsize (by omega) (by omega) with ⟨hfit, hok⟩ | ⟨hshort, e, hthrows⟩
      · refine .inl ⟨hfit, ?_⟩
        rw [BufM.bind_ok hok, assignString, cString]
        simp only [hne, false_or]
        split <;> next hnul => simp [Format.windowAt, Format.nextAt, cut, hnul]
      · exact .inr ⟨hshort, _, _, BufM.bind_throws hthrows⟩
    · have hzero : F.lengthAt b.packeddata p = 0 := Int.toNat_of_nonpos (by omega)
      refine .inl ⟨by omega, ?_⟩
      have hend : wrap (F.nextAt b.packeddata p) = (p + 4 : ℕ) := by
        rw [Format.nextAt, hzero, show roundUp4 0 = 0 from rfl,
          wrap_natCast (by omega), Nat.add_zero]
      rw [if_neg hpos, if_pos (.inl hzero), Format.windowAt, hzero, List.take_zero, hend]
      rfl
  · exact .inr ⟨by omega, _, b, BufM.bind_throws hthrows⟩

lemma cut_prefix (s : List UInt8) : cut s <+: s := List.takeWhile_prefix _

/-- The next string is behind this one, perhaps with padding that the payload does not have. -/
lemma At.next (h : At b p) (hfit : p + 4 + F.lengthAt b.packeddata p ≤ b.packeddata.length) :
    At { b with unpackpos := wrap (F.nextAt b.packeddata p) } (F.nextAt b.packeddata p) := by
  have hsize := h.size
  refine ⟨rfl, ?_, hsize⟩
  simp only [Format.nextAt, roundUp4]
  omega

/-- Strings in terminated windows: each is what is in front of the NUL. -/
lemma unPackStrings_of_terminated (hF : F.Scans) (h : At b p)
    (hterm : F.Terminated b.packeddata n p) :
    (∃ b', unPackStrings F n b = .ok ((F.windows b.packeddata n p).map cut) b') ∨
      ∃ e b', unPackStrings F n b = .throws e b' := by
  induction n generalizing b p with
  | zero => exact .inl ⟨b, rfl⟩
  | succ n ih =>
      rcases unPackString_at hF h with ⟨hfit, hstring⟩ | ⟨-, e, b', hthrows⟩
      · obtain ⟨hnul, hrest⟩ := hterm hfit
        rw [if_pos hnul] at hstring
        rw [unPackStrings, BufM.bind_ok hstring]
        rcases ih (h.next hfit) hrest with ⟨b', hok⟩ | ⟨e, b', hthrows⟩
        · exact .inl ⟨b', BufM.bind_ok hok⟩
        · exact .inr ⟨e, b', BufM.bind_throws hthrows⟩
      · exact .inr ⟨e, b', BufM.bind_throws hthrows⟩

lemma unPackStrings_of_not_terminated (hF : F.Scans) (h : At b p)
    (hterm : ¬F.Terminated b.packeddata n p) : unPackStrings F n b = .undefined := by
  induction n generalizing b p with
  | zero => exact absurd trivial hterm
  | succ n ih =>
      rw [Format.Terminated, Classical.not_imp] at hterm
      obtain ⟨hfit, hterm⟩ := hterm
      rcases unPackString_at hF h with ⟨-, hstring⟩ | ⟨hshort, -⟩
      · rw [unPackStrings]
        split at hstring
        · next hnul =>
            have hrest := ih (h.next hfit) fun hrest => hterm ⟨hnul, hrest⟩
            rw [BufM.bind_ok hstring, BufM.bind_apply, hrest]
        · rw [BufM.bind_apply, hstring]
      · omega

/-- **Windows.**  `UnPack` of strings stays in their windows exactly if each window that lies in
the payload, up to the first that does not, has a NUL. -/
theorem staysInWindows_iff (F : Format) (hF : Implemented F) (n : ℕ) (b : PopBuffer)
    (hpos : 20 ≤ b.unpackpos) (hpos' : b.unpackpos < 2 ^ 31)
    (hsize : b.packeddata.length < 2 ^ 31) :
    StaysInWindows F n b ↔ F.Terminated b.packeddata n b.unpackpos.toNat := by
  have hp : ((b.unpackpos.toNat : ℕ) : ℤ) = b.unpackpos := Int.toNat_of_nonneg (by omega)
  have hat : At b b.unpackpos.toNat := by
    refine ⟨?_, by omega, hsize⟩
    rw [hp, wrap_eq_self (by simp only [Fits]; omega)]
  constructor
  · intro hstays
    by_contra hterm
    exact hstays.1 (unPackStrings_of_not_terminated hF.scans hat hterm)
  · intro hterm
    rcases unPackStrings_of_terminated hF.scans hat hterm with ⟨b', hok⟩ | ⟨e, b', hthrows⟩
    · refine ⟨by simp [hok], fun ss b'' h => ?_⟩
      obtain ⟨rfl, -⟩ : (F.windows b.packeddata n b.unpackpos.toNat).map cut = ss ∧ b' = b'' := by
        simpa [hok] using h
      rw [List.forall₂_map_left_iff, List.forall₂_same]
      exact fun w _ => cut_prefix w
    · exact ⟨by simp [hthrows], fun ss b'' h => by simp [hthrows] at h⟩

/-- A message with these bytes behind its header. -/
def receivedPayload (payload : List UInt8) : PopBuffer :=
  ⟨⟨TYPE_REQUEST, 0, 0, 0, 0⟩, 20, List.replicate 20 0 ++ payload⟩

/-- Two strings are asked for: of the first more is sent than its C string has, and the window of
the second is not all there. -/
theorem staysInWindows_iff_receivedPayload :
    StaysInWindows (xdr XdrLib.standard) 2
      (receivedPayload [0, 0, 0, 3, 97, 0, 98, 0, 0x7f, 0xff, 0xff, 0xff]) := by
  have hstays := staysInWindows_iff (xdr XdrLib.standard) (.xdr XdrLib.standard_documented) 2
    (receivedPayload [0, 0, 0, 3, 97, 0, 98, 0, 0x7f, 0xff, 0xff, 0xff]) (by decide) (by decide)
    (by decide)
  exact hstays.mpr (by decide)

/-- A window of 4 characters, none of them a NUL. -/
theorem window_left :
    ¬∀ F : Format, Implemented F → ∀ (n : ℕ) (b : PopBuffer), b.unpackpos = 20 →
      b.packeddata.length < 2 ^ 31 → StaysInWindows F n b := by
  intro h
  have hstays := h (xdr XdrLib.standard) (.xdr XdrLib.standard_documented) 1
    (receivedPayload [0, 0, 0, 4, 97, 98, 99, 100]) rfl (by decide)
  have hat : At (receivedPayload [0, 0, 0, 4, 97, 98, 99, 100]) 20 :=
    ⟨by decide, by decide, by decide⟩
  exact hstays.1 (unPackStrings_of_not_terminated (scans_xdr XdrLib.standard_documented) hat
    (by decide))

end Strings

end PopCpp.Buffer
