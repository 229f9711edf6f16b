/-
# The overloads of the MPI buffer

The MPI buffer drops what the XDR library returns.  An array of numbers is written as far as the
window goes and the library encodes, and read as far as the window goes, so what is not moved
is what the array held before.  The window of an array of shorts has room for every second one;
that of other numbers has room for all, unless the number of their bytes is no `int`.
-/
import PopCpp.Buffer.Overloads

namespace PopCpp.Buffer

open Bytes CInt

namespace XdrMpi

/-! ### Numbers, as far as the window goes -/

section Window

variable {α : Type} {P : XdrProc α} {w : ℕ} {rep : α → Option ℕ} {val : ℕ → α}
  {enc : α → List UInt8}

lemma put_of_encodes (hP : P.Encodes w rep val) {v : α} {bs : List UInt8} (h : P.put v = some bs) :
    bs.length = w := by
  rw [hP.put_eq, Option.map_eq_some_iff] at h
  obtain ⟨m, -, rfl⟩ := h
  exact length_be w m

lemma vectorPut_window (hP : P.Encodes w rep val) (hw : 0 < w) {vs : List α} {window : ℕ}
    (h : P.Carries w enc (vs.take (window / w))) :
    (vectorPut P window vs).1 = (vs.take (window / w)).flatMap enc := by
  induction vs generalizing window with
  | nil => simp [vectorPut]
  | cons v vs ih =>
      rcases Nat.lt_or_ge window w with hlt | hge
      · rw [Nat.div_eq_of_lt hlt, List.take_zero, List.flatMap_nil, vectorPut]
        split
        · rfl
        · next bs hput => rw [if_pos (by rw [put_of_encodes hP hput]; exact hlt)]
      · rw [Nat.div_eq_sub_div hw hge, List.take_succ_cons] at h ⊢
        have hlen := h.length_eq v List.mem_cons_self
        rw [vectorPut, h.put_eq v List.mem_cons_self]
        simp only [hlen, if_neg (not_lt.mpr hge)]
        rw [ih h.tail, List.flatMap_cons]

lemma vectorRead_window (hw : 0 < w) (hwidth : P.width = w) (post : List UInt8) {vs : List α} :
    ∀ {old : List α} {window : ℕ}, old.length = vs.length → P.Carries w enc (vs.take (window / w)) →
      vectorRead P window old ((vs.take (window / w)).flatMap enc ++ post) =
        some (vs.take (window / w) ++ old.drop (window / w)) := by
  induction vs with
  | nil =>
      intro old window hold _
      obtain rfl := List.eq_nil_of_length_eq_zero hold
      simp [vectorRead]
  | cons v vs ih =>
      intro old window hold h
      obtain ⟨t, ts, rfl⟩ := List.exists_cons_of_length_eq_add_one hold
      rcases Nat.lt_or_ge window w with hlt | hge
      · rw [vectorRead, hwidth, if_pos hlt, Nat.div_eq_of_lt hlt]
        rfl
      · rw [Nat.div_eq_sub_div hw hge, List.take_succ_cons] at h ⊢
        have hlen := h.length_eq v List.mem_cons_self
        have htake : (enc v ++ ((vs.take ((window - w) / w)).flatMap enc ++ post)).take w =
            enc v := by
          rw [← hlen, List.take_left]
        have hdrop : (enc v ++ ((vs.take ((window - w) / w)).flatMap enc ++ post)).drop w =
            (vs.take ((window - w) / w)).flatMap enc ++ post := by
          rw [← hlen, List.drop_left]
        rw [vectorRead, hwidth, if_neg (not_lt.mpr hge), List.flatMap_cons, List.append_assoc,
          if_neg (by rw [List.length_append, hlen]; omega), htake, hdrop,
          h.get_eq v List.mem_cons_self]
        simp only [ih (by simpa using hold) h.tail, Option.map_some, List.cons_append,
          List.drop_succ_cons]

lemma ofBe_zeros (n : ℕ) : ofBe (List.replicate n 0) = 0 := by
  rw [ofBe, List.reverse_replicate]
  induction n with
  | zero => rfl
  | succ n ih => rw [List.replicate_succ, ofLe, ih]; rfl

/-- Where the library does not encode an element there are zeros, which are read as a number that
it does encode.  So what is read back is right only if the window has no such element. -/
lemma encodes_of_vectorRead (hP : P.Encodes w rep val) (hw : 0 < w) (hzero : rep (val 0) ≠ none)
    {vs : List α} : ∀ {old : List α} {window k : ℕ}, old.length = vs.length →
      vectorRead P window old ((vectorPut P window vs).1 ++ List.replicate k 0) = some vs →
      (∀ v ∈ vs.take (window / w), rep v ≠ none) ∧
        vs.drop (window / w) = old.drop (window / w) := by
  induction vs with
  | nil =>
      intro old window k hold _
      obtain rfl := List.eq_nil_of_length_eq_zero hold
      simp
  | cons v vs ih =>
      intro old window k hold h
      obtain ⟨t, ts, rfl⟩ := List.exists_cons_of_length_eq_add_one hold
      rcases Nat.lt_or_ge window w with hlt | hge
      · rw [vectorRead, hP.width_eq, if_pos hlt] at h
        rw [Nat.div_eq_of_lt hlt, Option.some.inj h]
        simp
      · rw [vectorRead, hP.width_eq, if_neg (not_lt.mpr hge)] at h
        rw [Nat.div_eq_sub_div hw hge, List.take_succ_cons, List.drop_succ_cons,
          List.drop_succ_cons, List.forall_mem_cons]
        split at h
        · cases h
        · next hlen =>
            cases hrep : rep v with
            | none =>
                -- nothing was written from here on
                have hput : (vectorPut P window (v :: vs)).1 = [] := by
                  rw [vectorPut, hP.put_eq, hrep]
                  rfl
                rw [hput, List.nil_append, List.length_replicate] at hlen
                rw [hput, List.nil_append, List.take_replicate, Nat.min_eq_left (by omega),
                  hP.get_eq _ List.length_replicate, ofBe_zeros] at h
                obtain ⟨vs', -, hvs⟩ := Option.map_eq_some_iff.mp h
                rw [← (List.cons.inj hvs).1] at hrep
                exact absurd hrep hzero
            | some m =>
                have hput : (vectorPut P window (v :: vs)).1 =
                    be w m ++ (vectorPut P (window - w) vs).1 := by
                  rw [vectorPut, hP.put_eq, hrep]
                  simp only [Option.map_some, length_be, if_neg (not_lt.mpr hge)]
                rw [hput, List.append_assoc, List.take_left' (length_be w m),
                  List.drop_left' (length_be w m), hP.get_eq _ (length_be w m)] at h
                obtain ⟨vs', hrest, hvs⟩ := Option.map_eq_some_iff.mp h
                rw [(List.cons.inj hvs).2] at hrest
                obtain ⟨hall, hdrop⟩ := ih (by simpa using hold) hrest
                exact ⟨⟨by simp, hall⟩, hdrop⟩

/-- Room that is an `int` is added at the end. -/
lemma resize_room {b : PopBuffer} {r : ℤ} {bs : List UInt8} (hb : b.packeddata.length < 2 ^ 31)
    (hr : 0 ≤ r) (hroom : b.packeddata.length + r.toNat < 2 ^ 31) (hbs : bs.length ≤ r.toNat) :
    (resize (sizeT (wrap (r + wrap b.packeddata.length))) >>= fun _ =>
        store (wrap b.packeddata.length) bs) b =
      .ok () { b with packeddata := b.packeddata ++ padTo r.toNat bs } := by
  have hold : wrap (b.packeddata.length : ℤ) = b.packeddata.length := wrap_natCast (by omega)
  have hsum : r + (b.packeddata.length : ℤ) = (b.packeddata.length + r.toNat : ℕ) := by omega
  have hsize : sizeT (wrap (r + (b.packeddata.length : ℤ))) = b.packeddata.length + r.toNat := by
    rw [hsum, wrap_natCast (by omega), sizeT_natCast (by omega)]
  rw [hold, hsize]
  exact resize_store hbs (by omega)

end Window

/-! ### Arrays of numbers -/

/-- How many bytes are added for `n` elements of a type. -/
def room : Kind → ℤ → ℤ
  | .short | .ushort => align2
  | .bool | .char | .uchar | .schar => align4
  | .double => words 8
  | _ => words 4

/-- The window of the library, or the number of bytes that are copied. -/
def window : Kind → ℤ → ℤ
  | .short | .ushort => words 2
  | .bool | .char | .uchar | .schar => id
  | .double => words 8
  | _ => words 4

/-- The bytes of an element in the window. -/
def width : Kind → ℕ
  | .bool | .char | .uchar | .schar => 1
  | .double => 8
  | _ => 4

/-- How many of `n` elements are moved. -/
def moved (k : Kind) (n : ℕ) : ℕ := (window k n).toNat / width k

/-- The elements in the window are encoded, and the others are there already. -/
def Restored (k : Kind) (vs old : List k.Val) : Prop :=
  0 ≤ room k vs.length ∧ 0 ≤ window k vs.length ∧
    XdrFits (.array k (vs.take (moved k vs.length))) ∧
    vs.drop (moved k vs.length) = old.drop (moved k vs.length)

/-- A type of numbers. -/
structure Packed (lib : XdrLib) (k : Kind) (P : XdrProc k.Val) (rep : k.Val → Option ℕ)
    (val : ℕ → k.Val) : Prop where
  encodes : P.Encodes (width k) rep val
  zero : rep (val 0) ≠ none
  pos : 0 < width k
  pack_eq : pack lib k = packVector P (room k) (window k)
  unPack_eq : unPack lib k = unPackVector P (window k) (room k)
  fits_iff : ∀ vs : List k.Val, XdrFits (.array k vs) ↔ ∀ v ∈ vs, rep v ≠ none
  carries : ∀ vs : List k.Val, XdrFits (.array k vs) → ∃ enc, P.Carries (width k) enc vs
  fits_room : ∀ n, Fits (room k n)
  fits_window : ∀ n, Fits (window k n)
  /-- Where one of them is no `int`, nothing fits into the room, and something into the window. -/
  neg : ∀ n : ℕ, 0 < n → n < 2 ^ 31 → room k n < 0 ∨ window k n < 0 →
    room k n ≤ 0 ∧ width k ≤ uInt (window k n)
  le_room : ∀ n : ℕ, 0 < n → n < 2 ^ 31 → 0 ≤ room k n → 0 ≤ window k n → window k n ≤ room k n
  moved_le : ∀ n : ℕ, moved k n ≤ n

section Packed

variable {lib : XdrLib} {k : Kind} {P : XdrProc k.Val} {rep : k.Val → Option ℕ} {val : ℕ → k.Val}

/-- The bytes of the elements in the window fit into the room. -/
lemma Packed.exists_bytes (hk : Packed lib k P rep val) {vs : List k.Val} (hvs : vs ≠ [])
    (hlt : vs.length < 2 ^ 31) (hroom : 0 ≤ room k vs.length) (hwindow : 0 ≤ window k vs.length)
    (hfits : XdrFits (.array k (vs.take (moved k vs.length)))) :
    ∃ enc, P.Carries (width k) enc (vs.take (moved k vs.length)) ∧
      ((vs.take (moved k vs.length)).flatMap enc).length ≤ (room k vs.length).toNat := by
  obtain ⟨enc, hcarries⟩ := hk.carries _ hfits
  have hle := hk.le_room vs.length (List.length_pos_iff.mpr hvs) hlt hroom hwindow
  have hcount := hk.moved_le vs.length
  have hmul : moved k vs.length * width k ≤ (window k vs.length).toNat :=
    Nat.div_mul_le_self ..
  refine ⟨enc, hcarries, ?_⟩
  rw [hcarries.length_flatMap, List.length_take, Nat.min_eq_left hcount]
  omega

lemma Packed.uInt_window (hk : Packed lib k P rep val) {n : ℕ} (h : 0 ≤ window k n) :
    uInt (window k n) = (window k n).toNat := by
  have hcast := uInt_of_nonneg (hk.fits_window n) h
  omega

lemma Packed.appends_array (hk : Packed lib k P rep val) {vs : List k.Val} (hvs : vs ≠ [])
    (hroom : 0 ≤ room k vs.length) (hwindow : 0 ≤ window k vs.length) {enc : k.Val → List UInt8}
    (hcarries : P.Carries (width k) enc (vs.take (moved k vs.length)))
    (hbytes : ((vs.take (moved k vs.length)).flatMap enc).length ≤ (room k vs.length).toNat) :
    Appends (pack lib k vs)
      (padTo (room k vs.length).toNat ((vs.take (moved k vs.length)).flatMap enc)) := by
  intro b hb
  have hn : ¬((vs.length : ℤ) ≤ 0) := by
    have hpos := List.length_pos_iff.mpr hvs
    omega
  have hput : (vectorPut P (window k vs.length).toNat vs).1 =
      (vs.take (moved k vs.length)).flatMap enc := vectorPut_window hk.encodes hk.pos hcarries
  rw [length_padTo hbytes] at hb
  rw [hk.pack_eq, packVector, if_neg hn, BufM.bind_ok (rfl : this b = .ok b b),
    hk.uInt_window hwindow, hput]
  exact resize_room (by omega) hroom hb hbytes

lemma Packed.reads_array (hk : Packed lib k P rep val) {vs old : List k.Val} (hvs : vs ≠ [])
    (hold : old.length = vs.length) (hwindow : 0 ≤ window k vs.length)
    (hle : window k vs.length ≤ room k vs.length) {enc : k.Val → List UInt8}
    (hcarries : P.Carries (width k) enc (vs.take (moved k vs.length)))
    (hbytes : ((vs.take (moved k vs.length)).flatMap enc).length ≤ (room k vs.length).toNat)
    (hdrop : vs.drop (moved k vs.length) = old.drop (moved k vs.length)) :
    Reads (unPack lib k old)
      (padTo (room k vs.length).toNat ((vs.take (moved k vs.length)).flatMap enc)) vs := by
  intro b pre post hb hpos hlen
  have hsize : b.packeddata.length = pre.length + (room k vs.length).toNat + post.length := by
    rw [hb, List.length_append, List.length_append, length_padTo hbytes]
  have hcheck : checkUnPack "Wrong packed data size" (window k old.length) b = .ok () b := by
    rw [hold, ← Int.toNat_of_nonneg hwindow]
    exact checkUnPack_ok hpos (by omega) hlen
  have holdne : old ≠ [] := by
    rw [← List.length_pos_iff, hold, List.length_pos_iff]
    exact hvs
  have hdest : b.packeddata.drop b.unpackpos.toNat =
      (vs.take (moved k vs.length)).flatMap enc ++ (List.replicate
        ((room k vs.length).toNat - ((vs.take (moved k vs.length)).flatMap enc).length)
          0 ++ post) := by
    rw [hpos, Int.toNat_natCast, hb, List.append_assoc, List.drop_left, padTo,
      List.append_assoc]
  have hread : vectorRead P (window k vs.length).toNat old
      (b.packeddata.drop b.unpackpos.toNat) = some vs := by
    have hwindow := vectorRead_window hk.pos hk.encodes.width_eq (List.replicate
      ((room k vs.length).toNat - ((vs.take (moved k vs.length)).flatMap enc).length) 0 ++ post)
      hold hcarries
    rw [hdest]
    refine hwindow.trans ?_
    show some (vs.take (moved k vs.length) ++ old.drop (moved k vs.length)) = some vs
    rw [← hdrop, List.take_append_drop]
  have hend : wrap (b.unpackpos + room k vs.length) =
      (pre.length + (room k vs.length).toNat : ℕ) := by
    rw [hpos, wrap_eq_self (by simp only [Fits]; omega)]
    omega
  rw [hk.unPack_eq, unPackVector_eq holdne (by omega) hcheck, hold, hk.uInt_window hwindow, hread,
    hend, length_padTo hbytes]

lemma Packed.carries_array (hk : Packed lib k P rep val) {vs old : List k.Val} (hvs : vs ≠ [])
    (hlt : vs.length < 2 ^ 31) (hold : old.length = vs.length) (h : Restored k vs old) :
    Carries (pack lib k vs) (unPack lib k old) (room k vs.length).toNat vs := by
  obtain ⟨hroom, hwindow, hfits, hdrop⟩ := h
  obtain ⟨enc, hcarries, hbytes⟩ := hk.exists_bytes hvs hlt hroom hwindow hfits
  have hle := hk.le_room vs.length (List.length_pos_iff.mpr hvs) hlt hroom hwindow
  exact ⟨_, length_padTo hbytes, hk.appends_array hvs hroom hwindow hcarries hbytes,
    hk.reads_array hvs hold hwindow hle hcarries hbytes hdrop⟩

/-- Nothing is left to read in a buffer that has not grown. -/
lemma vectorRead_nil {α : Type} {P : XdrProc α} {w : ℕ} (hwidth : P.width = w) (hw : 0 < w) {n : ℕ}
    (hn : w ≤ n) {old : List α} (hold : old ≠ []) : vectorRead P n old [] = none := by
  obtain ⟨t, ts, rfl⟩ := List.exists_cons_of_ne_nil hold
  rw [vectorRead, hwidth, if_neg (not_lt.mpr hn), if_pos (by simpa using hw)]

lemma Packed.needs_array (hk : Packed lib k P rep val) {vs old : List k.Val}
    {b b' c c' : PopBuffer} (hvs : vs ≠ []) (hn : vs.length < 2 ^ 31)
    (hold : old.length = vs.length)
    (h : (Overload.mpiArray lib k).Trip vs old b b' c c') :
    Restored k vs old ∧ b.packeddata.length + (room k vs.length).toNat < 2 ^ 31 := by
  obtain ⟨hstart, hpack, hdata, hpos, hunPack, -⟩ := h
  have hvspos : 0 < vs.length := List.length_pos_iff.mpr hvs
  have holdne : old ≠ [] := by
    rw [← List.length_pos_iff, hold]
    exact hvspos
  have hstored : (resize (sizeT (wrap (room k vs.length + wrap b.packeddata.length))) >>= fun _ =>
      store (wrap b.packeddata.length) (vectorPut P (uInt (window k vs.length)) vs).1) b =
        .ok () b' := by
    have hcall : packVector P (room k) (window k) vs b = .ok () b' := hk.pack_eq ▸ hpack
    rwa [packVector, if_neg (by omega), BufM.bind_ok (rfl : this b = .ok b b)] at hcall
  have hread : vectorRead P (uInt (window k vs.length)) old
      (c.packeddata.drop b.packeddata.length) = some vs := by
    have hcall : unPackVector P (window k) (room k) old c = .ok vs c' := hk.unPack_eq ▸ hunPack
    obtain ⟨hread, -⟩ := unPackVector_eq_ok holdne hcall
    rwa [hpos, if_pos (by omega), Int.toNat_natCast, hold] at hread
  have hwrap : wrap (b.packeddata.length : ℤ) = b.packeddata.length := wrap_natCast (by omega)
  have hroomfits := hk.fits_room vs.length
  simp only [Fits] at hroomfits
  -- How long the buffer is.
  obtain ⟨_, b₁, hresize, hstore⟩ := BufM.bind_eq_ok.mp hstored
  obtain ⟨hsize, -⟩ := resize_wrap_eq_ok hresize
  obtain ⟨hsame, -⟩ := store_keeps hstore
  rw [hwrap, ← hsame] at hsize
  by_cases hneg : room k vs.length < 0 ∨ window k vs.length < 0
  · obtain ⟨hroom, hwindow⟩ := hk.neg vs.length hvspos hn hneg
    have hempty : c.packeddata.drop b.packeddata.length = [] := by
      rw [hdata, List.drop_eq_nil_iff]
      simp only [wrap] at hsize
      omega
    rw [hempty, vectorRead_nil hk.encodes.width_eq hk.pos hwindow holdne] at hread
    cases hread
  · rw [not_or, not_lt, not_lt] at hneg
    obtain ⟨hroom, hwindow⟩ := hneg
    have hfit : b.packeddata.length + (room k vs.length).toNat < 2 ^ 31 := by
      simp only [wrap] at hsize
      omega
    have hbytes : (vectorPut P (uInt (window k vs.length)) vs).1.length ≤
        (room k vs.length).toNat := by
      rcases List.eq_nil_or_concat (vectorPut P (uInt (window k vs.length)) vs).1 with hnil | hne
      · rw [hnil]
        exact Nat.zero_le _
      · have hput : (vectorPut P (uInt (window k vs.length)) vs).1 ≠ [] := by
          obtain ⟨l, a, hconcat⟩ := hne
          simp [hconcat]
        obtain ⟨-, hin, -⟩ := store_eq_ok hput hstore
        rw [hwrap, ← hsame] at hin
        simp only [wrap] at hsize
        omega
    rw [resize_room hstart hroom hfit hbytes] at hstored
    cases hstored
    rw [hdata, List.drop_left, padTo, hk.uInt_window hwindow] at hread
    obtain ⟨hall, hdrop⟩ := encodes_of_vectorRead hk.encodes hk.pos hk.zero hold hread
    exact ⟨⟨hroom, hwindow, (hk.fits_iff _).mpr hall, hdrop⟩, hfit⟩

end Packed

/-! ### The types -/

section Types

variable {lib : XdrLib}

lemma fits_words (w n : ℤ) : Fits (words w n) := fits_wrap _

/-- Numbers with a window for all of them. -/
lemma packed_words {k : Kind} {P : XdrProc k.Val} {rep : k.Val → Option ℕ} {val : ℕ → k.Val}
    (hencodes : P.Encodes (width k) rep val) (hzero : rep (val 0) ≠ none)
    (hwidth : width k = 4 ∨ width k = 8) (hroom : room k = words (width k))
    (hwindow : window k = words (width k))
    (hpack : pack lib k = packVector P (words (width k)) (words (width k)))
    (hunPack : unPack lib k = unPackVector P (words (width k)) (words (width k)))
    (hfits : ∀ vs : List k.Val, XdrFits (.array k vs) ↔ ∀ v ∈ vs, rep v ≠ none)
    (hcarries : ∀ vs : List k.Val, XdrFits (.array k vs) → ∃ enc, P.Carries (width k) enc vs) :
    Packed lib k P rep val where
  encodes := hencodes
  zero := hzero
  pos := by omega
  pack_eq := by rw [hpack, hroom, hwindow]
  unPack_eq := by rw [hunPack, hroom, hwindow]
  fits_iff := hfits
  carries := hcarries
  fits_room n := by rw [hroom]; exact fits_words _ n
  fits_window n := by rw [hwindow]; exact fits_words _ n
  neg n _ _ h := by
    rw [hroom, hwindow] at *
    have hneg : words (width k) n < 0 := or_self_iff.mp h
    have huInt := uInt_of_neg (fits_words (width k) n) hneg
    have hwords := fits_words (width k) n
    simp only [Fits] at hwords
    exact ⟨hneg.le, by omega⟩
  le_room n _ _ _ _ := by rw [hroom, hwindow]
  moved_le n := by
    rw [moved, hwindow, words]
    rcases hwidth with h | h <;>
    · rw [h]
      simp only [wrap]
      omega

/-- Shorts, with a window for every second one. -/
lemma packed_align2 {k : Kind} {P : XdrProc k.Val} {rep : k.Val → Option ℕ} {val : ℕ → k.Val}
    (hencodes : P.Encodes (width k) rep val) (hrep : ∀ v, rep v ≠ none) (hwidth : width k = 4)
    (hroom : room k = align2) (hwindow : window k = words 2)
    (hpack : pack lib k = packVector P align2 (words 2))
    (hunPack : unPack lib k = unPackVector P (words 2) align2)
    (hfits : ∀ vs : List k.Val, XdrFits (.array k vs))
    (hcarries : ∀ vs : List k.Val, ∃ enc, P.Carries (width k) enc vs) :
    Packed lib k P rep val where
  encodes := hencodes
  zero := hrep _
  pos := by omega
  pack_eq := by rw [hpack, hroom, hwindow]
  unPack_eq := by rw [hunPack, hroom, hwindow]
  fits_iff vs := ⟨fun _ v _ => hrep v, fun _ => hfits vs⟩
  carries vs _ := hcarries vs
  fits_room n := by rw [hroom]; exact fits_wrap _
  fits_window n := by rw [hwindow]; exact fits_words 2 n
  neg n hpos hlt h := by
    rw [hroom, hwindow, hwidth] at *
    simp only [align2, words, wrap, uInt] at h ⊢
    rw [Int.tdiv_eq_ediv_of_nonneg (by omega)] at h ⊢
    omega
  le_room n hpos hlt hr hw := by
    rw [hroom, hwindow] at *
    simp only [align2, words, wrap] at hr hw ⊢
    rw [Int.tdiv_eq_ediv_of_nonneg (by omega)] at hr ⊢
    omega
  moved_le n := by
    rw [moved, hwindow, hwidth, words]
    simp only [wrap]
    omega

/-- A type of numbers, or of single bytes that are copied. -/
inductive Moves (lib : XdrLib) : Kind → Prop
  | numbers {k : Kind} (P : XdrProc k.Val) (rep : k.Val → Option ℕ) (val : ℕ → k.Val)
      (h : Packed lib k P rep val) : Moves lib k
  | char : Moves lib .char
  | uchar : Moves lib .uchar
  | schar : Moves lib .schar

lemma moves (hlib : lib.Documented) {k : Kind} (hk : k ≠ .bool) : Moves lib k := by
  have hword : ∀ {α : Type} (f : α → ℕ) (vs : List α), True ↔ ∀ v ∈ vs, some (f v) ≠ none :=
    fun f vs => ⟨fun _ v _ => by simp, fun _ => trivial⟩
  cases k with
  | int =>
      exact .numbers lib.xdr_int _ _ (packed_words hlib.int (by simp) (.inl rfl) rfl rfl rfl rfl
        (hword _) fun vs _ => ⟨_, hlib.int.carries_word (w := 4) vs⟩)
  | unsigned =>
      exact .numbers lib.xdr_u_int _ _ (packed_words hlib.u_int (by simp) (.inl rfl) rfl rfl rfl rfl
        (hword _) fun vs _ => ⟨_, hlib.u_int.carries_word (w := 4) vs⟩)
  | long =>
      exact .numbers lib.xdr_long _ _ (packed_words hlib.long (by decide) (.inl rfl) rfl rfl rfl rfl
        (fun vs => forall₂_congr fun v _ => longCode_ne_none_iff.symm)
        fun vs h => ⟨_, hlib.carries_long h⟩)
  | ulong =>
      exact .numbers lib.xdr_u_long _ _ (packed_words hlib.u_long (by decide) (.inl rfl) rfl rfl rfl
        rfl (fun vs => forall₂_congr fun v _ => uLongCode_ne_none_iff.symm)
        fun vs h => ⟨_, hlib.carries_u_long h⟩)
  | short =>
      refine .numbers lib.xdr_short _ _ (packed_align2 hlib.short (fun v => by simp [shortCode]) rfl
        rfl rfl rfl rfl (fun _ => trivial) fun vs => ⟨_, hlib.short.carries (fun v _ => rfl) ?_⟩)
      intro v _
      rw [shortValue, toNat_mod_256_pow_four, BitVec.ofNat_toNat, BitVec.setWidth_eq]
      exact setWidth_signExtend_short v
  | ushort =>
      refine .numbers lib.xdr_u_short _ _ (packed_align2 hlib.u_short
        (fun v => by simp [uShortCode]) rfl rfl rfl rfl rfl (fun _ => trivial)
        fun vs => ⟨_, hlib.u_short.carries (fun v _ => rfl) ?_⟩)
      intro v _
      rw [shortValue, toNat_mod_256_pow_four, BitVec.ofNat_toNat, BitVec.setWidth_eq]
      ext i hi
      simp
  | bool => exact absurd rfl hk
  | char => exact .char
  | uchar => exact .uchar
  | schar => exact .schar
  | float =>
      exact .numbers lib.xdr_float _ _ (packed_words hlib.float (by simp) (.inl rfl) rfl rfl rfl rfl
        (hword _) fun vs _ => ⟨_, hlib.float.carries_word (w := 4) vs⟩)
  | double =>
      exact .numbers lib.xdr_double _ _ (packed_words hlib.double (by simp) (.inr rfl) rfl rfl rfl
        rfl (hword _) fun vs _ => ⟨_, hlib.double.carries_word (w := 8) vs⟩)

lemma length_vectorRead {α : Type} {P : XdrProc α} {old vs : List α} {window : ℕ}
    {bs : List UInt8} (h : vectorRead P window old bs = some vs) : vs.length = old.length := by
  induction old generalizing window bs vs with
  | nil =>
      obtain rfl : [] = vs := by simpa [vectorRead] using h
      rfl
  | cons t ts ih =>
      rw [vectorRead] at h
      split at h
      · rw [← Option.some.inj h]
      · split at h
        · cases h
        · split at h
          · rw [← Option.some.inj h]
          · obtain ⟨vs', hrest, rfl⟩ := Option.map_eq_some_iff.mp h
            rw [List.length_cons, List.length_cons, ih hrest]

lemma length_unPack (lib : XdrLib) {k : Kind} (hlib : lib.Documented) (hk : k ≠ .bool)
    (old : List k.Val) : Returns (unPack lib k old) fun vs => vs.length = old.length := by
  cases moves hlib hk with
  | numbers P rep val h =>
      intro b b' vs hvs
      rw [h.unPack_eq] at hvs
      rcases eq_or_ne old [] with rfl | hold
      · obtain ⟨rfl, -⟩ : [] = vs ∧ b = b' := by simpa [unPackVector] using hvs
        rfl
      · exact length_vectorRead (unPackVector_eq_ok hold hvs).1
  | char => exact length_unPackChars _ old.length
  | uchar => exact length_unPackChars _ old.length
  | schar => exact length_unPackChars _ old.length

/-- Bytes are copied, unless their number is no `int` with the padding. -/
lemma chars_iff {n : ℕ} (hn : 0 < n) (hlt : n < 2 ^ 31) :
    0 ≤ align4 n ↔ roundUp4 n < 2 ^ 31 := by
  have hround : ((n : ℤ) - 1) / 4 * 4 + 4 = roundUp4 n := by
    simp only [roundUp4]
    omega
  rw [align4_eq_wrap (by omega) (by omega), show (((n : ℤ) - 1) / 4 + 1) * 4 = roundUp4 n by omega]
  have hle : roundUp4 n ≤ 2 ^ 31 := by
    simp only [roundUp4]
    omega
  simp only [wrap]
  omega

lemma carries_chars {vs old : List UInt8} (hvs : vs ≠ []) (hlt : vs.length < 2 ^ 31)
    (hold : old.length = vs.length) (h : 0 ≤ align4 vs.length) :
    Carries (packChar vs) (unPackChars old) (align4 vs.length).toNat vs := by
  have hpos : 0 < vs.length := List.length_pos_iff.mpr hvs
  obtain ⟨happ, hread⟩ := codes_char vs
  refine ⟨pad4 vs, ?_, happ, hread old hold⟩
  rw [length_pad4, align4_natCast hpos ((chars_iff hpos hlt).mp h), Int.toNat_natCast]

lemma needs_chars {vs : List UInt8} {b b' : PopBuffer} (hvs : vs ≠ []) (hlt : vs.length < 2 ^ 31)
    (hb : b.packeddata.length < 2 ^ 31) (h : packChar vs b = .ok () b') :
    0 ≤ align4 vs.length ∧ b.packeddata.length + (align4 vs.length).toNat < 2 ^ 31 := by
  have hpos : 0 < vs.length := List.length_pos_iff.mpr hvs
  have hroom := packChar_eq_ok hvs (by omega) h
  have hround : roundUp4 vs.length < 2 ^ 31 := by omega
  refine ⟨(chars_iff hpos hlt).mpr hround, ?_⟩
  rw [align4_natCast hpos hround, Int.toNat_natCast]
  exact hroom

/-- For bytes nothing else is to be restored. -/
lemma restored_chars {k : Kind} {vs old : List k.Val} (hroom : room k = align4)
    (hwindow : window k = id) (hwidth : width k = 1) (hold : old.length = vs.length)
    (hfits : ∀ vs : List k.Val, XdrFits (.array k vs)) :
    Restored k vs old ↔ 0 ≤ align4 vs.length := by
  have hmoved : moved k vs.length = vs.length := by
    rw [moved, hwindow, hwidth, id, Int.toNat_natCast, Nat.div_one]
  rw [Restored, hmoved, hroom, hwindow, List.drop_length, ← hold, List.drop_length]
  exact ⟨fun h => h.1, fun h => ⟨h, Int.natCast_nonneg _, hfits _, rfl⟩⟩

/-- An array comes back if what the window has of it is encoded, and the rest is there already. -/
lemma exact_mpi (hlib : lib.Documented) {k : Kind} (hk : k ≠ .bool) :
    (Overload.mpiArray lib k).Exact (fun vs => (room k vs.length).toNat) (Restored k) where
  onlyReads old := onlyReads_unPack lib k old
  length old := length_unPack lib hlib hk old
  carries vs old hvs hlt hold h := by
    cases moves hlib hk with
    | numbers P rep val hpacked => exact hpacked.carries_array hvs hlt hold h
    | char => exact carries_chars hvs hlt hold h.1
    | uchar => exact carries_chars hvs hlt hold h.1
    | schar => exact carries_chars hvs hlt hold h.1
  needs vs old b b' c c' hvs hlt hold _ h := by
    cases moves hlib hk with
    | numbers P rep val hpacked => exact hpacked.needs_array hvs hlt hold h
    | char =>
        obtain ⟨hnonneg, hroom⟩ := needs_chars hvs hlt h.start h.pack
        exact ⟨(restored_chars rfl rfl rfl hold fun _ => trivial).mpr hnonneg, hroom⟩
    | uchar =>
        obtain ⟨hnonneg, hroom⟩ := needs_chars hvs hlt h.start h.pack
        exact ⟨(restored_chars rfl rfl rfl hold fun _ => trivial).mpr hnonneg, hroom⟩
    | schar =>
        obtain ⟨hnonneg, hroom⟩ := needs_chars hvs hlt h.start h.pack
        exact ⟨(restored_chars rfl rfl rfl hold fun _ => trivial).mpr hnonneg, hroom⟩

end Types

end XdrMpi

end PopCpp.Buffer
