/-
# Arrays of `bool` in the XDR encoding

`UnPack(bool*, n)` of `pop_buffer_xdr` moves the unpack position after its loop, by
`((n - 1) / 4 + 1) * 4` as everywhere else; but the loop has counted `n` down to -1 by then,
so that it always moves by 4.  For an array of at most 4 elements this is right.  For a longer
one the next call of `UnPack` reads from the middle of the array.
-/
import PopCpp.Buffer.RoundTrip
import Mathlib.Data.List.TakeWhile

namespace PopCpp.Buffer

open Bytes CInt

/-- After the whole sequence has been packed, every call of `UnPack`, in order, returns what
was packed and stops where the matching call of `Pack` stopped. -/
def InStep (F : Format) (hd : Header) (items : List Item) : Prop :=
  ∃ b, packAll F items (empty hd) = .ok () b ∧
    ∀ pre, pre <+: items → ∃ b₁ b₂, packAll F pre (empty hd) = .ok () b₁ ∧
      unPackAll F (pre.map Item.shape) b = .ok pre b₂ ∧ b₂.unpackpos = b₁.packeddata.length

variable {F : Format} {lib : XdrLib} {hd : Header}

/-! ### Sequences in parts -/

lemma unPackAll_concat {pre : List Shape} {s : Shape} {is : List Item} {b b' : PopBuffer}
    (h : unPackAll F pre b = .ok is b') :
    unPackAll F (pre ++ [s]) b = (unPackItem F s >>= fun i => pure (is ++ [i])) b' := by
  induction pre generalizing b is with
  | nil =>
      obtain ⟨rfl, rfl⟩ : [] = is ∧ b = b' := by simpa [unPackAll] using h
      rfl
  | cons t pre ih =>
      obtain ⟨j, b₁, hfirst, h⟩ := BufM.bind_eq_ok.mp h
      obtain ⟨js, b₂, hrest, h⟩ := BufM.bind_eq_ok.mp h
      obtain ⟨rfl, rfl⟩ : j :: js = is ∧ b₂ = b' := by simpa using h
      rw [List.cons_append, unPackAll, BufM.bind_ok hfirst, BufM.bind_apply, ih hrest,
        BufM.bind_apply, BufM.bind_apply]
      cases unPackItem F s b₂ <;> rfl

/-! ### Packing -/

/-- `Pack` appends as many bytes as the size of the item says, also for long arrays of
`bool`. -/
lemma packItem_xdr_appends (hlib : lib.Documented) {i : Item} (h : XdrFits i) :
    ∃ bs, bs.length = xdrSize i ∧ Appends (packItem (xdr lib) i) bs := by
  by_cases hshort : ShortBools i
  · obtain ⟨bs, hbs, hcode⟩ := codes_xdr hlib h hshort
    exact ⟨bs, hbs, hcode.appends⟩
  · cases i with
    | array k vs =>
        cases k with
        | bool =>
            refine ⟨pad4 (List.map (fun v : Bool => if v then 1 else 0) vs), ?_,
              packChar_appends _⟩
            rw [length_pad4, List.length_map]
            rfl
        | _ => exact absurd trivial hshort
    | strings ss => exact absurd trivial hshort

lemma packAll_xdr_appends (hlib : lib.Documented) {items : List Item}
    (h : ∀ i ∈ items, XdrFits i) :
    ∃ bs, bs.length = (items.map xdrSize).sum ∧ Appends (packAll (xdr lib) items) bs := by
  induction items with
  | nil => exact ⟨[], rfl, Appends.pure⟩
  | cons i items ih =>
      obtain ⟨bs, hbs, happ⟩ := packItem_xdr_appends hlib (h i List.mem_cons_self)
      obtain ⟨bs', hbs', happ'⟩ := ih fun j hj => h j (List.mem_cons_of_mem i hj)
      refine ⟨bs ++ bs', ?_, happ.bind happ'⟩
      rw [List.length_append, hbs, hbs', List.map_cons, List.sum_cons]

/-! ### What a call of `Pack` that returned has needed -/

lemma resize_eq_ok {n : ℕ} {u : Unit} {b b' : PopBuffer} (h : resize n b = .ok u b') :
    n < 2 ^ 63 ∧ b'.packeddata.length = n := by
  simp only [resize] at h
  split at h
  · next hn =>
      cases h
      refine ⟨hn, ?_⟩
      rw [List.length_append, List.length_take, List.length_replicate]
      omega
  · exact absurd h (by simp)

lemma store_eq_ok {pos : ℤ} {bs : List UInt8} {u : Unit} {b b' : PopBuffer} (hbs : bs ≠ [])
    (h : store pos bs b = .ok u b') :
    0 ≤ pos ∧ pos + bs.length ≤ b.packeddata.length ∧
      b'.packeddata.length = b.packeddata.length := by
  simp only [store, if_neg hbs] at h
  split at h
  · next hin =>
      cases h
      refine ⟨hin.1, hin.2, ?_⟩
      simp only [List.length_append, List.length_take, List.length_drop]
      omega
  · exact absurd h (by simp)

/-- The size that a vector was given is the `int` that was asked for. -/
lemma sizeT_lt_eq {x : ℤ} (hx : Fits x) (h : sizeT x < 2 ^ 63) : (sizeT x : ℤ) = x := by
  have hnonneg : 0 ≤ x := by
    by_contra hneg
    have := lt_sizeT_of_neg hx (by omega)
    omega
  exact sizeT_of_nonneg hnonneg (by simp only [Fits] at hx; omega)

lemma lt_of_wrap_align {l n : ℕ} (hl : l < 2 ^ 32) (hn : 1 ≤ n)
    (h : 0 ≤ wrap l ∧ wrap l + n ≤ wrap (wrap l + align4 n)) : l + roundUp4 n < 2 ^ 31 := by
  have hfits := fits_wrap (wrap l + align4 n)
  have halign := align4_eq_wrap (n := n) (by omega) (by
    simp only [Fits] at hfits
    omega)
  rw [halign] at h
  simp only [wrap] at h
  simp only [roundUp4]
  omega

lemma packChar_eq_ok {data : List UInt8} {u : Unit} {b b' : PopBuffer} (hdata : data ≠ [])
    (hb : b.packeddata.length < 2 ^ 32) (h : packChar data b = .ok u b') :
    b.packeddata.length + roundUp4 data.length < 2 ^ 31 := by
  have hpos : 0 < data.length := List.length_pos_iff.mpr hdata
  have hn : ¬((data.length : ℤ) ≤ 0) := by omega
  simp only [packChar, if_neg hn] at h
  rw [BufM.bind_ok (rfl : this b = .ok b b)] at h
  obtain ⟨_, b₁, hresize, hstore⟩ := BufM.bind_eq_ok.mp h
  obtain ⟨hlt, hlen⟩ := resize_eq_ok hresize
  obtain ⟨h0, hin, -⟩ := store_eq_ok hdata hstore
  have hsize := sizeT_lt_eq (fits_wrap _) hlt
  rw [← hlen] at hsize
  refine lt_of_wrap_align hb hpos ?_
  rw [← hsize]
  exact ⟨h0, hin⟩

lemma vectorPut_eq_true {α : Type} {P : XdrProc α} {w : ℕ} {rep : α → Option ℕ} {val : ℕ → α}
    (hP : P.Encodes w rep val) {window : ℕ} {vs : List α}
    (h : (vectorPut P window vs).2 = true) :
    (∀ v ∈ vs, rep v ≠ none) ∧ (vectorPut P window vs).1.length = vs.length * w := by
  induction vs generalizing window with
  | nil => simp [vectorPut]
  | cons v vs ih =>
      rw [vectorPut, hP.put_eq] at h ⊢
      cases hrep : rep v with
      | none => simp [hrep] at h
      | some m =>
          simp only [hrep, Option.map_some, length_be] at h ⊢
          split at h
          · exact absurd h (by simp)
          · next hroom =>
              obtain ⟨hall, hlen⟩ := ih h
              rw [if_neg hroom]
              refine ⟨fun u hu => ?_, ?_⟩
              · rcases List.mem_cons.mp hu with rfl | hu
                · simp [hrep]
                · exact hall u hu
              · rw [List.length_append, length_be, hlen, List.length_cons]
                ring

lemma encode_eq_ok {α : Type} {P : XdrProc α} {w : ℕ} {rep : α → Option ℕ} {val : ℕ → α}
    (hP : P.Encodes w rep val) (hw : 0 < w) {reason : String} {dest sz : ℤ} {vs : List α}
    (hvs : vs ≠ []) {u : Unit} {b b' : PopBuffer} (h : encode P reason dest sz vs b = .ok u b') :
    (∀ v ∈ vs, rep v ≠ none) ∧ 0 ≤ dest ∧
      dest + (vs.length * w : ℕ) ≤ b.packeddata.length ∧
      b'.packeddata.length = b.packeddata.length := by
  simp only [encode] at h
  obtain ⟨_, b₁, hstore, h⟩ := BufM.bind_eq_ok.mp h
  split at h
  · next hput =>
      obtain rfl : b₁ = b' := by simpa using h
      obtain ⟨hall, hlen⟩ := vectorPut_eq_true hP hput
      have hpos : 0 < vs.length * w := Nat.mul_pos (List.length_pos_iff.mpr hvs) hw
      have hne : (vectorPut P (uInt sz) vs).1 ≠ [] := by
        intro hnil
        rw [hnil, List.length_nil] at hlen
        omega
      obtain ⟨h0, hin, hsame⟩ := store_eq_ok hne hstore
      rw [hlen] at hin
      exact ⟨hall, h0, hin, hsame⟩
  · exact absurd h (by simp [throwing])

/-- Room of at most twice the bytes that are used cannot wrap around unnoticed. -/
lemma lt_of_wrap_room {l j k : ℕ} (hl : l < 2 ^ 31) (hk : k ≤ 2 * j)
    (h : (l : ℤ) + j ≤ wrap (wrap k + l)) : l + k < 2 ^ 31 := by
  simp only [wrap] at h
  omega

lemma packVector_eq_ok {α : Type} {P : XdrProc α} {w width : ℕ} {rep : α → Option ℕ}
    {val : ℕ → α} (hP : P.Encodes w rep val) (hw : 0 < w) (hwidth : width ≤ 2 * w)
    {reason : String} {vs : List α} (hvs : vs ≠ []) {u : Unit} {b b' : PopBuffer}
    (hb : b.packeddata.length < 2 ^ 31) (h : packVector P width reason vs b = .ok u b') :
    (∀ v ∈ vs, rep v ≠ none) ∧ b.packeddata.length + vs.length * width < 2 ^ 31 := by
  have hpos : 0 < vs.length := List.length_pos_iff.mpr hvs
  have hn : ¬((vs.length : ℤ) ≤ 0) := by omega
  have hold : wrap (b.packeddata.length : ℤ) = b.packeddata.length := wrap_natCast (by omega)
  simp only [packVector, if_neg hn] at h
  rw [BufM.bind_ok (rfl : this b = .ok b b)] at h
  obtain ⟨_, b₁, hresize, hencode⟩ := BufM.bind_eq_ok.mp h
  obtain ⟨hlt, hlen⟩ := resize_eq_ok hresize
  obtain ⟨hall, -, hin, -⟩ := encode_eq_ok hP hw hvs hencode
  refine ⟨hall, ?_⟩
  have hle : vs.length * width ≤ 2 * (vs.length * w) := by
    calc vs.length * width ≤ vs.length * (2 * w) := Nat.mul_le_mul_left _ hwidth
      _ = 2 * (vs.length * w) := by ring
  rw [hold] at hin
  rw [hold, ← Nat.cast_mul] at hlen hlt
  refine lt_of_wrap_room hb hle ?_
  rw [← sizeT_lt_eq (fits_wrap _) hlt, ← hlen]
  exact hin

/-- `Pack(const int*, n)` reckons with `size_t` and can go beyond `2 ^ 31` bytes. -/
lemma packInt_eq_ok (hlib : lib.Documented) {vs : List (BitVec 32)} (hvs : vs ≠ []) {u : Unit}
    {b b' : PopBuffer} (hb : b.packeddata.length < 2 ^ 32)
    (h : Xdr.packInt lib vs b = .ok u b') :
    b'.packeddata.length = b.packeddata.length + vs.length * 4 := by
  have hpos : 0 < vs.length := List.length_pos_iff.mpr hvs
  have hn : ¬((vs.length : ℤ) ≤ 0) := by omega
  simp only [Xdr.packInt, if_neg hn] at h
  rw [BufM.bind_ok (rfl : this b = .ok b b)] at h
  obtain ⟨_, b₁, hresize, hencode⟩ := BufM.bind_eq_ok.mp h
  obtain ⟨hlt, hlen⟩ := resize_eq_ok hresize
  obtain ⟨-, -, hin, hsame⟩ := encode_eq_ok hlib.int (by omega) hvs hencode
  have hsz := fits_wrap ((vs.length : ℤ) * 4)
  rw [hsame, hlen]
  rw [hlen] at hin
  simp only [Fits] at hsz
  simp only [sizeT] at hlt hin ⊢
  have hwrap : wrap ((vs.length : ℤ) * 4) ≤ vs.length * 4 := by
    simp only [wrap]
    omega
  omega

/-! ### What a call of `UnPack` that returned has done -/

lemma advance_eq_ok {k : ℤ} {u : Unit} {b b' : PopBuffer} (h : advance k b = .ok u b') :
    b'.unpackpos = wrap (b.unpackpos + k) := by
  cases h
  rfl

lemma checkUnPack_eq_ok {reason : String} {sz : ℤ} {u : Unit} {b b' : PopBuffer}
    (h : checkUnPack reason sz b = .ok u b') : b' = b := by
  simp only [checkUnPack] at h
  split at h
  · exact absurd h (by simp)
  · cases h
    rfl

lemma load_eq_ok {pos : ℤ} {n : ℕ} {bs : List UInt8} {b b' : PopBuffer}
    (h : load pos n b = .ok bs b') : bs.length = n ∧ b' = b := by
  simp only [load] at h
  split at h
  · cases h
    refine ⟨?_, rfl⟩
    rw [List.length_take, List.length_drop]
    omega
  · exact absurd h (by simp)

lemma fits_unPackVector {α : Type} {P : XdrProc α} {width : ℤ} {reason : String} {n : ℤ}
    {vs : List α} {b b' : PopBuffer} (hn : 0 < n)
    (h : unPackVector P width reason n b = .ok vs b') : Fits b'.unpackpos := by
  simp only [unPackVector, if_neg (not_le.mpr hn)] at h
  obtain ⟨_, b₁, -, h⟩ := BufM.bind_eq_ok.mp h
  obtain ⟨data, b₂, -, h⟩ := BufM.bind_eq_ok.mp h
  obtain ⟨_, b₃, hadvance, h⟩ := BufM.bind_eq_ok.mp h
  obtain ⟨-, rfl⟩ : data = vs ∧ b₃ = b' := by simpa using h
  rw [advance_eq_ok hadvance]
  exact fits_wrap _

lemma length_unPackChar {reason : String} {n : ℤ} {bs : List UInt8} {b b' : PopBuffer}
    (hn : 0 < n) (h : unPackChar reason n b = .ok bs b') : bs.length = n.toNat := by
  simp only [unPackChar, if_neg (not_le.mpr hn)] at h
  obtain ⟨_, b₁, -, h⟩ := BufM.bind_eq_ok.mp h
  obtain ⟨b₂, b₃, -, h⟩ := BufM.bind_eq_ok.mp h
  obtain ⟨data, b₄, hload, h⟩ := BufM.bind_eq_ok.mp h
  obtain ⟨_, b₅, -, h⟩ := BufM.bind_eq_ok.mp h
  obtain ⟨rfl, -⟩ : data = bs ∧ b₅ = b' := by simpa using h
  exact (load_eq_ok hload).1

/-- A non-empty array of `bool` moves the unpack position by 4, whatever its length. -/
lemma unPackBool_moves_four {n : ℤ} (hn : 0 < n) {vs : List Bool} {b b' : PopBuffer}
    (h : Xdr.unPackBool n b = .ok vs b') : b'.unpackpos = wrap (b.unpackpos + 4) := by
  have halign : align4 (-1) = 4 := by decide
  simp only [Xdr.unPackBool, if_neg (not_le.mpr hn), halign] at h
  obtain ⟨_, b₁, hcheck, hrest⟩ := BufM.bind_eq_ok.mp h
  obtain rfl := checkUnPack_eq_ok hcheck
  rw [BufM.bind_ok (rfl : this b₁ = .ok b₁ b₁)] at hrest
  obtain ⟨data, b₂, hload, htail⟩ := BufM.bind_eq_ok.mp hrest
  obtain ⟨-, rfl⟩ := load_eq_ok hload
  obtain ⟨_, b₃, hadvance, hend⟩ := BufM.bind_eq_ok.mp htail
  obtain ⟨-, rfl⟩ : _ ∧ b₃ = b' := by simpa using hend
  exact advance_eq_ok hadvance

lemma cString_eq_some {bs s : List UInt8} (h : cString bs = some s) :
    0 ∉ s ∧ s.length < bs.length := by
  rw [cString] at h
  split at h
  · next h0 =>
      obtain rfl : bs.takeWhile (· != 0) = s := by simpa using h
      refine ⟨fun hmem => ?_, ?_⟩
      · have := List.mem_takeWhile_imp hmem
        simp at this
      · have hprefix := List.takeWhile_prefix (· != 0) (l := bs)
        refine lt_of_le_of_ne hprefix.length_le fun heq => ?_
        have hall : bs.takeWhile (· != 0) = bs := hprefix.eq_of_length heq
        rw [← hall] at h0
        have := List.mem_takeWhile_imp h0
        simp at this
  · exact absurd h (by simp)

/-- A string that `UnPack` returns ends at its first NUL. -/
lemma not_mem_of_unPackString {s : List UInt8} {b b' : PopBuffer}
    (h : unPackString F b = .ok s b') : 0 ∉ s := by
  obtain ⟨len, b₁, -, h⟩ := BufM.bind_eq_ok.mp h
  split at h
  · obtain ⟨tmpstr, b₂, -, h⟩ := BufM.bind_eq_ok.mp h
    rw [assignString] at h
    cases hstr : cString tmpstr with
    | none => simp [hstr] at h
    | some t =>
        obtain ⟨rfl, -⟩ : t = s ∧ b₂ = b' := by simpa [hstr] using h
        exact (cString_eq_some hstr).1
  · obtain ⟨rfl, -⟩ : [] = s ∧ b₁ = b' := by simpa using h
    exact List.not_mem_nil

/-- The length of a string that `UnPack` returns is an `int`, in an encoding that returns as many
characters as it was asked for. -/
lemma length_lt_of_unPackString {s : List UInt8} {b b' : PopBuffer}
    (hchar : ∀ n : ℤ, 0 < n → n < 2 ^ 31 → ∀ (b b' : PopBuffer) (bs : List UInt8),
      F.unPack .char n b = .ok bs b' → bs.length = n.toNat)
    (h : unPackString F b = .ok s b') : s.length + 1 < 2 ^ 31 := by
  obtain ⟨len, b₁, hint, h⟩ := BufM.bind_eq_ok.mp h
  have hlen : len < 2 ^ 31 := by
    obtain ⟨xs, b₂, -, hint⟩ := BufM.bind_eq_ok.mp hint
    obtain ⟨rfl, -⟩ : (xs.headD 0).toInt = len ∧ b₂ = b₁ := by simpa using hint
    exact BitVec.toInt_lt (x := xs.headD 0)
  split at h
  · next hpos =>
      obtain ⟨tmpstr, b₂, hchars, h⟩ := BufM.bind_eq_ok.mp h
      have htmp : tmpstr.length = len.toNat := hchar len hpos hlen _ _ _ hchars
      rw [assignString] at h
      cases hstr : cString tmpstr with
      | none => simp [hstr] at h
      | some t =>
          obtain ⟨rfl, -⟩ : t = s ∧ b₂ = b' := by simpa [hstr] using h
          obtain ⟨-, hlt⟩ := cString_eq_some hstr
          omega
  · obtain ⟨rfl, -⟩ : [] = s ∧ b₁ = b' := by simpa using h
    simp

lemma unPackString_eq_ok {s : List UInt8} {b b' : PopBuffer}
    (h : unPackString (xdr lib) b = .ok s b') : 0 ∉ s ∧ s.length + 1 < 2 ^ 31 :=
  ⟨not_mem_of_unPackString h,
    length_lt_of_unPackString (fun _ hn _ _ _ _ hchars => length_unPackChar hn hchars) h⟩

lemma unPackStrings_eq_ok {n : ℕ} {ss : List (List UInt8)} {b b' : PopBuffer}
    (h : unPackStrings (xdr lib) n b = .ok ss b') :
    ∀ s ∈ ss, 0 ∉ s ∧ s.length + 1 < 2 ^ 31 := by
  induction n generalizing ss b b' with
  | zero =>
      obtain ⟨rfl, -⟩ : [] = ss ∧ b = b' := by simpa [unPackStrings] using h
      simp
  | succ n ih =>
      obtain ⟨s, b₁, hfirst, h⟩ := BufM.bind_eq_ok.mp h
      obtain ⟨ss', b₂, hrest, h⟩ := BufM.bind_eq_ok.mp h
      obtain ⟨rfl, -⟩ : s :: ss' = ss ∧ b₂ = b' := by simpa using h
      intro t ht
      rcases List.mem_cons.mp ht with rfl | ht
      · exact unPackString_eq_ok hfirst
      · exact ih hrest t ht

/-! ### One call of each -/

lemma packString_eq_ok (hlib : lib.Documented) {s : List UInt8} (hs : s.length + 1 < 2 ^ 31)
    {u : Unit} {b b' : PopBuffer} (hb : b.packeddata.length < 2 ^ 31)
    (h : packString (xdr lib) s b = .ok u b') :
    b.packeddata.length + (4 + roundUp4 (s.length + 1)) < 2 ^ 31 := by
  have hwrap : wrap ((s.length : ℤ) + 1) = (s.length + 1 : ℕ) := by
    rw [wrap_eq_self (by simp only [Fits]; omega)]
    omega
  obtain ⟨_, b₁, hint, hchars⟩ := BufM.bind_eq_ok.mp h
  have hlen : b₁.packeddata.length = b.packeddata.length + 1 * 4 :=
    packInt_eq_ok hlib (List.cons_ne_nil _ _) (by omega) hint
  rw [hwrap, if_pos (by omega), Int.toNat_natCast, List.take_of_length_le (by simp)] at hchars
  have hroom := packChar_eq_ok (by simp) (by omega) hchars
  rw [List.length_append, List.length_singleton, hlen] at hroom
  omega

lemma packStrings_eq_ok (hlib : lib.Documented) {ss : List (List UInt8)}
    (hss : ∀ s ∈ ss, 0 ∉ s ∧ s.length + 1 < 2 ^ 31) {u : Unit} {b b' : PopBuffer}
    (hb : b.packeddata.length < 2 ^ 31) (h : packStrings (xdr lib) ss b = .ok u b') :
    b.packeddata.length + stringsSize ss < 2 ^ 31 := by
  induction ss generalizing b with
  | nil => simpa [stringsSize] using hb
  | cons s ss ih =>
      obtain ⟨hnul, hlen⟩ := hss s List.mem_cons_self
      obtain ⟨_, b₁, hfirst, hrest⟩ := BufM.bind_eq_ok.mp h
      have hroom := packString_eq_ok hlib hlen hb hfirst
      obtain ⟨bs, hbs, happ, -⟩ := codes_string (codesStrings_xdr hlib) hnul
      rw [happ b (by omega)] at hfirst
      cases hfirst
      have hsize := ih (fun t ht => hss t (List.mem_cons_of_mem s ht))
        (by rw [List.length_append, hbs]; exact hroom) hrest
      rw [List.length_append, hbs] at hsize
      simp only [stringsSize, List.map_cons, List.sum_cons] at hsize ⊢
      omega

lemma toInt_of_longCode {v : BitVec 64} (h : longCode v ≠ none) :
    -2 ^ 31 ≤ v.toInt ∧ v.toInt < 2 ^ 31 := by
  have hv : (v.setWidth 32).signExtend 64 = v := by
    by_contra hne
    exact h (if_neg hne)
  have hint : v.toInt = (v.setWidth 32).toInt := by
    rw [← BitVec.toInt_signExtend_of_le (x := v.setWidth 32) (v := 64) (by decide), hv]
  have hle : -2 ^ 31 ≤ (v.setWidth 32).toInt := BitVec.le_toInt (v.setWidth 32)
  have hlt : (v.setWidth 32).toInt < 2 ^ 31 := BitVec.toInt_lt (x := v.setWidth 32)
  omega

lemma toNat_of_uLongCode {v : BitVec 64} (h : uLongCode v ≠ none) : v.toNat < 2 ^ 32 := by
  have hv : (v.setWidth 32).setWidth 64 = v := by
    by_contra hne
    exact h (if_neg hne)
  have hnat : v.toNat = ((v.setWidth 32).setWidth 64).toNat := by rw [hv]
  rw [BitVec.toNat_setWidth, Nat.mod_eq_of_lt (by have := (v.setWidth 32).isLt; omega)] at hnat
  have := (v.setWidth 32).isLt
  omega

lemma longCode_ne_none_iff {v : BitVec 64} :
    longCode v ≠ none ↔ -2 ^ 31 ≤ v.toInt ∧ v.toInt < 2 ^ 31 := by
  refine ⟨toInt_of_longCode, fun h => ?_⟩
  rw [longCode, if_pos (signExtend_setWidth_long h)]
  simp

lemma uLongCode_ne_none_iff {v : BitVec 64} : uLongCode v ≠ none ↔ v.toNat < 2 ^ 32 := by
  refine ⟨toNat_of_uLongCode, fun h => ?_⟩
  rw [uLongCode, if_pos (setWidth_setWidth_ulong h)]
  simp

lemma unPackItem_array_eq_ok {k : Kind} {n : ℕ} {vs : List k.Val} {b b' : PopBuffer}
    (h : unPackItem F (.array k n) b = .ok (.array k vs) b') : F.unPack k n b = .ok vs b' := by
  obtain ⟨ws, b₁, hws, h⟩ := BufM.bind_eq_ok.mp h
  obtain ⟨rfl, rfl⟩ : ws = vs ∧ b₁ = b' := by simpa using h
  exact hws

/-- A non-empty array of `bool` that is read in step has at most 4 elements. -/
lemma shortBools_of_moves {data : List Bool} (hdata : data ≠ []) {b b' c c' : PopBuffer}
    (hroom : b.packeddata.length + roundUp4 data.length < 2 ^ 31)
    (hpack : Xdr.packBool data b = .ok () b') (hunpack : Xdr.unPackBool data.length c = .ok data c')
    (hpos : c.unpackpos = b.packeddata.length) (hpos' : c'.unpackpos = b'.packeddata.length) :
    data.length ≤ 4 := by
  have h1 : 0 < data.length := List.length_pos_iff.mpr hdata
  have hle := le_roundUp4 data.length
  have hfour : 4 ≤ roundUp4 data.length := by
    simp only [roundUp4]
    omega
  have hmoved := unPackBool_moves_four (by omega) hunpack
  rw [hpos, wrap_eq_self (by simp only [Fits]; omega), hpos'] at hmoved
  rw [Xdr.packBool, packChar_appends _ b (by rw [length_pad4, List.length_map]; exact hroom)]
    at hpack
  cases hpack
  rw [List.length_append, length_pad4, List.length_map] at hmoved
  omega

/-- What a call of `Pack` and a call of `UnPack` need that end at the same place. -/
lemma item_eq_ok (hlib : lib.Documented) {i : Item} {b b' c c' : PopBuffer}
    (hb : b.packeddata.length < 2 ^ 31) (hpack : packItem (xdr lib) i b = .ok () b')
    (hunpack : unPackItem (xdr lib) i.shape c = .ok i c')
    (hpos : c.unpackpos = b.packeddata.length) (hpos' : c'.unpackpos = b'.packeddata.length) :
    XdrFits i ∧ ShortBools i ∧ b.packeddata.length + xdrSize i < 2 ^ 31 := by
  cases i with
  | array k vs =>
      replace hunpack := unPackItem_array_eq_ok hunpack
      -- an empty array packs to nothing, whatever its kind
      by_cases hvs : vs = []
      · subst hvs
        cases k <;> simpa [XdrFits, ShortBools, xdrSize, roundUp4] using hb
      cases k with
      | int =>
          refine ⟨trivial, trivial, ?_⟩
          -- the packing side reckons with `size_t`: the bound comes from where the reading ends
          have hlen := packInt_eq_ok hlib hvs (by omega) hpack
          have hpos : 0 < vs.length := List.length_pos_iff.mpr hvs
          have hfits := fits_unPackVector (by omega) hunpack
          simp only [Fits] at hfits
          simp only [xdrSize]
          omega
      | unsigned =>
          obtain ⟨-, hroom⟩ := packVector_eq_ok hlib.u_int (by decide) (by decide) hvs hb hpack
          exact ⟨trivial, trivial, hroom⟩
      | long =>
          obtain ⟨hall, hroom⟩ := packVector_eq_ok hlib.long (by decide) (by decide) hvs hb hpack
          exact ⟨fun v hv => toInt_of_longCode (hall v hv), trivial, hroom⟩
      | ulong =>
          obtain ⟨hall, hroom⟩ := packVector_eq_ok hlib.u_long (by decide) (by decide) hvs hb hpack
          exact ⟨fun v hv => toNat_of_uLongCode (hall v hv), trivial, hroom⟩
      | short =>
          obtain ⟨-, hroom⟩ := packVector_eq_ok hlib.short (by decide) (by decide) hvs hb hpack
          exact ⟨trivial, trivial, hroom⟩
      | ushort =>
          obtain ⟨-, hroom⟩ := packVector_eq_ok hlib.u_short (by decide) (by decide) hvs hb hpack
          exact ⟨trivial, trivial, hroom⟩
      | bool =>
          -- bytes go out and words are read back, so equal positions bound the length
          have hroom := packChar_eq_ok (by simpa using hvs) (by omega) hpack
          rw [List.length_map] at hroom
          exact ⟨trivial, shortBools_of_moves hvs hroom hpack hunpack hpos hpos', hroom⟩
      | char => exact ⟨trivial, trivial, packChar_eq_ok hvs (by omega) hpack⟩
      | uchar => exact ⟨trivial, trivial, packChar_eq_ok hvs (by omega) hpack⟩
      | schar => exact ⟨trivial, trivial, packChar_eq_ok hvs (by omega) hpack⟩
      | float =>
          obtain ⟨-, hroom⟩ := packVector_eq_ok hlib.float (by decide) (by decide) hvs hb hpack
          exact ⟨trivial, trivial, hroom⟩
      | double =>
          obtain ⟨-, hroom⟩ := packVector_eq_ok hlib.double (by decide) (by decide) hvs hb hpack
          exact ⟨trivial, trivial, hroom⟩
  | strings ss =>
      obtain ⟨ts, b₁, hts, h⟩ := BufM.bind_eq_ok.mp hunpack
      obtain ⟨rfl, rfl⟩ : ts = ss ∧ b₁ = c' := by simpa using h
      have hss := unPackStrings_eq_ok hts
      exact ⟨fun s hs => (hss s hs).1, trivial, packStrings_eq_ok hlib hss hb hpack⟩

/-! ### Whole sequences -/

lemma packAll_append (pre post : List Item) (b : PopBuffer) :
    packAll F (pre ++ post) b = (packAll F pre >>= fun _ => packAll F post) b := by
  induction pre generalizing b with
  | nil => rfl
  | cons i pre ih =>
      rw [List.cons_append, packAll, packAll, BufM.bind_apply, BufM.bind_apply, BufM.bind_apply]
      cases packItem F i b with
      | ok u b' => exact ih b'
      | throws e b' => rfl
      | undefined => rfl

lemma packAll_singleton (i : Item) (b : PopBuffer) : packAll F [i] b = packItem F i b := by
  rw [packAll, BufM.bind_apply]
  cases packItem F i b <;> rfl

/-- What a sequence needs that is read in step; by induction on how much of it has been read. -/
lemma InStep.needs (hlib : lib.Documented) {items : List Item} (h : InStep (xdr lib) hd items) :
    (∀ i ∈ items, XdrFits i ∧ ShortBools i) ∧ 20 + (items.map xdrSize).sum < 2 ^ 31 := by
  obtain ⟨b, -, hstep⟩ := h
  have hpre : ∀ pre, pre <+: items →
      (∀ i ∈ pre, XdrFits i ∧ ShortBools i) ∧ 20 + (pre.map xdrSize).sum < 2 ^ 31 := by
    intro pre
    induction pre using List.reverseRecOn with
    | nil => simp
    | append_singleton pre i ih =>
        intro hprefix
        have hpre : pre <+: items := (List.prefix_append pre [i]).trans hprefix
        obtain ⟨hall, hsize⟩ := ih hpre
        obtain ⟨b₁, b₂, hpack, hunpack, hpos⟩ := hstep pre hpre
        obtain ⟨b₁', b₂', hpack', hunpack', hpos'⟩ := hstep (pre ++ [i]) hprefix
        rw [packAll_append, BufM.bind_ok hpack, packAll_singleton] at hpack'
        rw [List.map_append, List.map_singleton, unPackAll_concat hunpack] at hunpack'
        obtain ⟨j, b₃, hitem, hend⟩ := BufM.bind_eq_ok.mp hunpack'
        obtain ⟨rfl, rfl⟩ : j = i ∧ b₃ = b₂' := by simpa using hend
        obtain ⟨bs, hbs, happ⟩ := packAll_xdr_appends hlib fun i hi => (hall i hi).1
        have hlen : b₁.packeddata.length = 20 + (pre.map xdrSize).sum := by
          rw [happ (empty hd) (by rw [hbs]; exact hsize)] at hpack
          cases hpack
          rw [List.length_append, hbs]
          rfl
        obtain ⟨hfits, hshort, hroom⟩ := item_eq_ok hlib (by omega) hpack' hitem hpos hpos'
        refine ⟨List.forall_mem_append.mpr ⟨hall, ?_⟩, ?_⟩
        · rw [List.forall_mem_singleton]
          exact ⟨hfits, hshort⟩
        · rw [List.map_append, List.sum_append, List.map_singleton, List.sum_singleton]
          omega
  exact hpre items (List.prefix_refl items)

lemma inStep_of_needs (hlib : lib.Documented) {items : List Item}
    (hall : ∀ i ∈ items, XdrFits i ∧ ShortBools i)
    (hsize : 20 + (items.map xdrSize).sum < 2 ^ 31) : InStep (xdr lib) hd items := by
  have hcodes : ∀ is : List Item, (∀ i ∈ is, i ∈ items) →
      ∃ bs, bs.length = (is.map xdrSize).sum ∧ Appends (packAll (xdr lib) is) bs ∧
        Reads (unPackAll (xdr lib) (is.map Item.shape)) bs is := fun is his =>
    codes_all fun i hi => codes_xdr hlib (hall i (his i hi)).1 (hall i (his i hi)).2
  obtain ⟨b, hpacked, -, -⟩ := round_trip_of_codes
    (fun i hi => codes_xdr hlib (hall i hi).1 (hall i hi).2) hsize hd
  refine ⟨b, hpacked, ?_⟩
  rintro pre ⟨post, rfl⟩
  obtain ⟨bs, hbs, happ, hread⟩ := hcodes pre fun i hi => List.mem_append_left post hi
  obtain ⟨bs', hbs', happ', -⟩ := hcodes post fun i hi => List.mem_append_right pre hi
  have hlen : (empty hd).packeddata.length = 20 := rfl
  rw [List.map_append, List.sum_append] at hsize
  have hfirst := happ (empty hd) (by omega)
  rw [packAll_append, happ.bind happ' (empty hd) (by rw [List.length_append]; omega)] at hpacked
  cases hpacked
  refine ⟨_, _, hfirst, hread _ (empty hd).packeddata bs' (by simp) rfl ?_, ?_⟩
  · simp only [List.length_append]
    omega
  · simp only [List.length_append]

/-- **Arrays of `bool`.**  An array of `bool` and whatever is packed after it are read in step
if and only if no array of `bool` has more than 4 elements, within what the encoding can
hold anyway. -/
theorem xdr_bool_inStep_iff (lib : XdrLib) (hlib : lib.Documented) (hd : Header)
    (data : List Bool) (rest : List Item) :
    InStep (xdr lib) hd (.array .bool data :: rest) ↔
      data.length ≤ 4 ∧ (∀ i ∈ rest, XdrFits i ∧ ShortBools i) ∧
        20 + (roundUp4 data.length + (rest.map xdrSize).sum) < 2 ^ 31 := by
  constructor
  · intro h
    obtain ⟨hall, hsize⟩ := h.needs hlib
    rw [List.forall_mem_cons] at hall
    exact ⟨hall.1.2, hall.2, hsize⟩
  · rintro ⟨hdata, hrest, hsize⟩
    refine inStep_of_needs hlib ?_ hsize
    rw [List.forall_mem_cons]
    exact ⟨⟨trivial, hdata⟩, hrest⟩

/-- Three `bool`s and an `int`. -/
theorem xdr_bool_inStep_iff_three :
    InStep (xdr XdrLib.standard) ⟨0, 0, 0, 0, 0⟩
      [.array .bool [true, false, true], .array .int [7]] := by
  refine (xdr_bool_inStep_iff _ XdrLib.standard_documented _ _ _).mpr ⟨by decide, ?_, by decide⟩
  intro i hi
  rw [List.mem_singleton.mp hi]
  exact ⟨trivial, trivial⟩

/-- After five `bool`s the next `int` is read from the last of them, with its padding. -/
theorem xdr_bool_five_not_inStep :
    (¬InStep (xdr XdrLib.standard) ⟨0, 0, 0, 0, 0⟩
      [.array .bool [true, true, true, true, true], .array .int [7]]) ∧
    ∃ b b', packAll (xdr XdrLib.standard)
        [.array .bool [true, true, true, true, true], .array .int [7]]
        (empty ⟨0, 0, 0, 0, 0⟩) = .ok () b ∧
      unPackAll (xdr XdrLib.standard) [.array .bool 5, .array .int 1] b =
        .ok [.array .bool [true, true, true, true, true], .array .int [0x01000000]] b' := by
  constructor
  · intro h
    have hshort := ((h.needs XdrLib.standard_documented).1 _ List.mem_cons_self).2
    exact absurd hshort (by simp [ShortBools])
  · exact ⟨_, _, rfl, rfl⟩

end PopCpp.Buffer
