/-
# Round trips

Whatever sequence of arrays and strings is packed into an empty buffer, the matching sequence
of calls of `UnPack` returns it and ends at the end of the buffer.  The argument is one for
both encodings: each call of `Pack` appends some bytes that the matching call of `UnPack`
reads (`Codes`), and this composes.  A string is a length and an array of characters, so it
needs nothing new.
-/
import Mathlib.Data.List.TakeWhile
import PopCpp.Buffer.Codec

namespace PopCpp.Buffer

open Bytes CInt

/-! ### Calls that match -/

/-- `Pack` of `i` appends `bs`, and the matching `UnPack` reads it. -/
structure Codes (F : Format) (i : Item) (bs : List UInt8) : Prop where
  appends : Appends (packItem F i) bs
  reads : Reads (unPackItem F i.shape) bs i

lemma Codes.of_array {F : Format} {k : Kind} {vs : List k.Val} {bs : List UInt8}
    (hpack : Appends (F.pack k vs) bs) (hunpack : Reads (F.unPack k vs.length) bs vs) :
    Codes F (.array k vs) bs :=
  ⟨hpack, hunpack.map (Item.array k)⟩

/-- Lists of items, from codes for each. -/
lemma codes_all {F : Format} {size : Item → ℕ} {items : List Item}
    (h : ∀ i ∈ items, ∃ bs, bs.length = size i ∧ Codes F i bs) :
    ∃ bs, bs.length = (items.map size).sum ∧ Appends (packAll F items) bs ∧
      Reads (unPackAll F (items.map Item.shape)) bs items := by
  induction items with
  | nil => exact ⟨[], rfl, Appends.pure, Reads.pure []⟩
  | cons i items ih =>
      obtain ⟨bs, hbs, hcode⟩ := h i List.mem_cons_self
      obtain ⟨bs', hbs', happ, hread⟩ := ih fun j hj => h j (List.mem_cons_of_mem i hj)
      refine ⟨bs ++ bs', ?_, hcode.appends.bind happ, ?_⟩
      · rw [List.length_append, hbs, hbs', List.map_cons, List.sum_cons]
      · exact hcode.reads.bind (hread.map (i :: ·))

/-- **Round trips.**  Items with codes that fit into a buffer are packed, and unpacked to what
they were, with the unpack position at the end. -/
theorem round_trip_of_codes {F : Format} {size : Item → ℕ} {items : List Item}
    (h : ∀ i ∈ items, ∃ bs, bs.length = size i ∧ Codes F i bs)
    (hsize : 20 + (items.map size).sum < 2 ^ 31) (hd : Header) :
    ∃ b, packAll F items (empty hd) = .ok () b ∧
      b.packeddata.length = 20 + (items.map size).sum ∧
      unPackAll F (items.map Item.shape) b =
        .ok items { b with unpackpos := b.packeddata.length } := by
  obtain ⟨bs, hbs, happ, hread⟩ := codes_all h
  have hlen : (empty hd).packeddata.length = 20 := rfl
  have hpacked := happ (empty hd) (by omega)
  refine ⟨_, hpacked, by rw [List.length_append, hlen, hbs], ?_⟩
  have hback := hread { empty hd with packeddata := (empty hd).packeddata ++ bs }
    (empty hd).packeddata [] (by simp) rfl (by rw [List.length_append]; omega)
  rw [hback, List.length_append]

/-! ### Strings -/

section Strings

variable {F : Format}

/-- What strings are made of: single `int`s in 4 bytes, and arrays of `char` padded to a
multiple of 4. -/
structure Format.CodesStrings (F : Format) : Prop where
  int : ∀ x : BitVec 32, ∃ bs, bs.length = 4 ∧ Appends (F.pack .int [x]) bs ∧
    Reads (F.unPack .int 1) bs [x]
  char : ∀ data : List UInt8, Appends (F.pack .char data) (pad4 data) ∧
    Reads (F.unPack .char data.length) (pad4 data) data

lemma Format.CodesStrings.int1 (h : F.CodesStrings) {x : ℤ} (hx : Fits x) :
    ∃ bs, bs.length = 4 ∧ Appends (packInt1 F x) bs ∧ Reads (unPackInt1 F) bs x := by
  obtain ⟨bs, hbs, happ, hread⟩ := h.int (BitVec.ofInt 32 x)
  refine ⟨bs, hbs, happ, ?_⟩
  have hback := hread.map fun xs => (xs.headD 0).toInt
  have hval : (([BitVec.ofInt 32 x] : List (BitVec 32)).headD 0).toInt = x := by
    rw [List.headD_cons, toInt_ofInt_of_fits hx]
  rw [hval] at hback
  exact hback

/-- What of a string a C string holds: everything up to the first NUL. -/
def cut (s : List UInt8) : List UInt8 := s.takeWhile (· != 0)

lemma cut_eq_self_iff {s : List UInt8} : cut s = s ↔ 0 ∉ s := by
  rw [cut, List.takeWhile_eq_self_iff]
  constructor
  · intro h hmem
    simpa using h 0 hmem
  · intro h c hc
    have hne : c ≠ 0 := fun hc0 => h (hc0 ▸ hc)
    simpa using hne

lemma cString_concat (s : List UInt8) : cString (s ++ [0]) = some (cut s) := by
  rw [cString, if_pos (by simp), cut, List.takeWhile_append]
  split
  · next hlen => simp [(List.takeWhile_prefix _).eq_of_length hlen]
  · rfl

/-- A string is packed as its length and its characters: what `f` reads of the characters, for the
length, is read of all that is packed. -/
lemma codes_chars (hF : F.CodesStrings) (s : List UInt8) {α : Type} {f : ℤ → BufM α} {v : α}
    (hf : Reads (F.unPack .char (s ++ [0]).length) (pad4 (s ++ [0])) (s ++ [0]) →
      Reads (f (s ++ [0]).length) (pad4 (s ++ [0])) v) :
    ∃ bs, bs.length = 4 + roundUp4 (s.length + 1) ∧ Appends (packString F s) bs ∧
      Reads (unPackInt1 F >>= f) bs v := by
  obtain ⟨bs, hbs, happ, hread⟩ := hF.int1 (fits_wrap (s.length + 1))
  obtain ⟨happ', hread'⟩ := hF.char (s ++ [0])
  have hlen : (s ++ [0]).length = s.length + 1 := by simp
  have hroom := le_roundUp4 (s.length + 1)
  refine ⟨bs ++ pad4 (s ++ [0]), by rw [List.length_append, length_pad4, hbs, hlen], ?_, ?_⟩
  · intro b hb
    have hsize : (bs ++ pad4 (s ++ [0])).length = 4 + roundUp4 (s.length + 1) := by
      rw [List.length_append, length_pad4, hbs, hlen]
    have hwrap : wrap ((s.length : ℤ) + 1) = (s.length + 1 : ℕ) := by
      rw [wrap_eq_self (by simp only [Fits]; omega)]
      omega
    have hchars : (if wrap ((s.length : ℤ) + 1) > 0 then
        F.pack .char ((s ++ [0]).take (wrap ((s.length : ℤ) + 1)).toNat) else pure ()) =
        F.pack .char (s ++ [0]) := by
      rw [hwrap, if_pos (by omega), Int.toNat_natCast, ← hlen, List.take_length]
    have hpack : packString F s = (packInt1 F (wrap ((s.length : ℤ) + 1)) >>= fun _ =>
        F.pack .char (s ++ [0])) := by
      rw [packString, hchars]
    rw [hpack]
    exact happ.bind happ' b hb
  · intro b pre post hb hpos hsize
    have hall : b.packeddata.length =
        pre.length + (4 + roundUp4 (s.length + 1)) + post.length := by
      rw [hb, List.length_append, List.length_append, List.length_append, length_pad4, hbs, hlen]
    have hwrap : wrap ((s.length : ℤ) + 1) = ((s ++ [0]).length : ℕ) := by
      rw [wrap_eq_self (by simp only [Fits]; omega), hlen]
      omega
    rw [hwrap] at hread
    exact hread.bind (hf hread') b pre post hb hpos hsize

/-- A string arrives up to its first NUL. -/
lemma codes_cut (hF : F.CodesStrings) (s : List UInt8) :
    ∃ bs, bs.length = 4 + roundUp4 (s.length + 1) ∧ Appends (packString F s) bs ∧
      Reads (unPackString F) bs (cut s) := by
  refine codes_chars hF s fun hread => ?_
  have hstr : Reads (assignString (s ++ [0])) [] (cut s) := by
    rw [assignString, cString_concat]
    exact Reads.pure (cut s)
  have hback := hread.bind hstr
  rw [List.append_nil] at hback
  rw [if_pos (by simp)]
  exact hback

lemma codes_string (hF : F.CodesStrings) {s : List UInt8} (h : 0 ∉ s) :
    ∃ bs, bs.length = 4 + roundUp4 (s.length + 1) ∧ Appends (packString F s) bs ∧
      Reads (unPackString F) bs s := by
  have hcodes := codes_cut hF s
  rwa [cut_eq_self_iff.mpr h] at hcodes

lemma codes_strings (hF : F.CodesStrings) {ss : List (List UInt8)} (h : ∀ s ∈ ss, 0 ∉ s) :
    ∃ bs, bs.length = (ss.map fun s => 4 + roundUp4 (s.length + 1)).sum ∧
      Codes F (.strings ss) bs := by
  have hlist : ∃ bs, bs.length = (ss.map fun s => 4 + roundUp4 (s.length + 1)).sum ∧
      Appends (packStrings F ss) bs ∧ Reads (unPackStrings F ss.length) bs ss := by
    induction ss with
    | nil => exact ⟨[], rfl, Appends.pure, Reads.pure []⟩
    | cons s ss ih =>
        obtain ⟨bs, hbs, happ, hread⟩ := codes_string hF (h s List.mem_cons_self)
        obtain ⟨bs', hbs', happ', hread'⟩ := ih fun t ht => h t (List.mem_cons_of_mem s ht)
        refine ⟨bs ++ bs', ?_, happ.bind happ', hread.bind (hread'.map (s :: ·))⟩
        rw [List.length_append, hbs, hbs', List.map_cons, List.sum_cons]
  obtain ⟨bs, hbs, happ, hread⟩ := hlist
  exact ⟨bs, hbs, happ, hread.map Item.strings⟩

end Strings

/-- How many bytes strings take. -/
def stringsSize (ss : List (List UInt8)) : ℕ := (ss.map fun s => 4 + roundUp4 (s.length + 1)).sum

/-! ### The XDR encoding -/

section Xdr

variable {lib : XdrLib}

/-- How many bytes `pop_buffer_xdr` takes for an item. -/
def xdrSize : Item → ℕ
  | .array .int vs => vs.length * 4
  | .array .unsigned vs => vs.length * 4
  | .array .long vs => vs.length * 8
  | .array .ulong vs => vs.length * 8
  | .array .short vs => vs.length * 4
  | .array .ushort vs => vs.length * 4
  | .array .bool vs => roundUp4 vs.length
  | .array .char vs => roundUp4 vs.length
  | .array .uchar vs => roundUp4 vs.length
  | .array .schar vs => roundUp4 vs.length
  | .array .float vs => vs.length * 4
  | .array .double vs => vs.length * 8
  | .strings ss => stringsSize ss

/-- The values that `pop_buffer_xdr` has an encoding for: a `long` and an `unsigned long` of
32 bits, and strings without NUL. -/
def XdrFits : Item → Prop
  | .array .long vs => ∀ v ∈ vs, -2 ^ 31 ≤ v.toInt ∧ v.toInt < 2 ^ 31
  | .array .ulong vs => ∀ v ∈ vs, v.toNat < 2 ^ 32
  | .array _ _ => True
  | .strings ss => ∀ s ∈ ss, 0 ∉ s

lemma toNat_mod_256_pow_four (v : BitVec 32) : v.toNat % 256 ^ 4 = v.toNat :=
  Nat.mod_eq_of_lt v.isLt

lemma setWidth_signExtend_short (v : BitVec 16) : (v.signExtend 32).setWidth 16 = v := by
  ext i hi
  have h32 : i < 32 := by omega
  rw [BitVec.getElem_setWidth, BitVec.getLsbD_signExtend, if_pos hi, BitVec.getLsbD_eq_getElem hi]
  simp [h32]

lemma signExtend_setWidth_long {v : BitVec 64} (h : -2 ^ 31 ≤ v.toInt ∧ v.toInt < 2 ^ 31) :
    (v.setWidth 32).signExtend 64 = v := by
  apply BitVec.eq_of_toInt_eq
  rw [BitVec.toInt_signExtend_of_le (by decide), BitVec.toInt_setWidth]
  rw [BitVec.toInt_eq_toNat_bmod] at *
  have hlt := v.isLt
  simp only [Int.bmod_def] at *
  omega

lemma setWidth_setWidth_ulong {v : BitVec 64} (h : v.toNat < 2 ^ 32) :
    (v.setWidth 32).setWidth 64 = v := by
  apply BitVec.eq_of_toNat_eq
  simp only [BitVec.toNat_setWidth]
  omega

/-- A number that is read back as it is written. -/
lemma XdrProc.Encodes.carries_word {w : ℕ} {P : XdrProc (BitVec (8 * w))}
    (h : P.Encodes w (fun v => some v.toNat) (BitVec.ofNat (8 * w)))
    (vs : List (BitVec (8 * w))) : P.Carries w (fun v => be w v.toNat) vs :=
  h.carries (fun _ _ => rfl) fun v _ => by rw [← ofBe_be, ofNat_ofBe_be]

/-- A `long` of 32 bits is read back as it is written. -/
lemma XdrLib.Documented.carries_long (hlib : lib.Documented) {vs : List (BitVec 64)}
    (h : ∀ v ∈ vs, -2 ^ 31 ≤ v.toInt ∧ v.toInt < 2 ^ 31) :
    lib.xdr_long.Carries 4 (fun v => be 4 (v.setWidth 32).toNat) vs := by
  refine hlib.long.carries (fun v hv => if_pos ?_) fun v hv => ?_
  · exact signExtend_setWidth_long (h v hv)
  · rw [longValue, toNat_mod_256_pow_four, BitVec.ofNat_toNat, BitVec.setWidth_eq]
    exact signExtend_setWidth_long (h v hv)

lemma XdrLib.Documented.carries_u_long (hlib : lib.Documented) {vs : List (BitVec 64)}
    (h : ∀ v ∈ vs, v.toNat < 2 ^ 32) :
    lib.xdr_u_long.Carries 4 (fun v => be 4 (v.setWidth 32).toNat) vs := by
  refine hlib.u_long.carries (fun v hv => if_pos ?_) fun v hv => ?_
  · exact setWidth_setWidth_ulong (h v hv)
  · rw [uLongValue, toNat_mod_256_pow_four, BitVec.ofNat_toNat, BitVec.setWidth_eq]
    exact setWidth_setWidth_ulong (h v hv)

/-- An array of XDR numbers, from what the library does with each. -/
lemma codes_vector {α : Type} {P : XdrProc α} {w width : ℕ} {enc : α → List UInt8}
    {vs : List α} (h : P.Carries w enc vs) (hw : w ≤ width) (reason reason' : String) :
    ∃ bs, bs.length = vs.length * width ∧ Appends (packVector P width reason vs) bs ∧
      Reads (unPackVector P width reason' vs.length) bs vs :=
  ⟨vectorBytes width enc vs, length_vectorBytes h hw, packVector_appends h hw reason,
    unPackVector_reads h hw reason'⟩

lemma codes_xdr_char (data : List UInt8) :
    ∃ bs, bs.length = roundUp4 data.length ∧ Appends (packChar data) bs ∧
      Reads (Xdr.unPackChars data.length) bs data :=
  ⟨pad4 data, length_pad4 data, packChar_appends data, unPackChar_reads _ data⟩

lemma codes_xdr_int (hlib : lib.Documented) (vs : List (BitVec 32)) :
    ∃ bs, bs.length = vs.length * 4 ∧ Appends (Xdr.packInt lib vs) bs ∧
      Reads (Xdr.unPackInt lib vs.length) bs vs := by
  have hcarries := hlib.int.carries_word (w := 4) vs
  exact ⟨_, length_vectorBytes hcarries le_rfl, packInt_appends hcarries,
    unPackVector_reads hcarries le_rfl _⟩

/-- The whole of `UnPack(bool*, n)`: it moves by 4 bytes, whatever `n` is. -/
lemma unPackBool_eq {n : ℕ} {b : PopBuffer} (hn : 0 < n) (hn' : n < 2 ^ 31)
    (hpos : 0 ≤ b.unpackpos) (hpos' : b.unpackpos < 2 ^ 31)
    (hsize : b.packeddata.length < 2 ^ 31) :
    Xdr.unPackBool n b =
      if n + b.unpackpos ≤ b.packeddata.length then
        .ok (((b.packeddata.drop b.unpackpos.toNat).take n).map (· != 0))
          { b with unpackpos := wrap (b.unpackpos + 4) }
      else .throws (popThrowFormat "Wrong buffer format in pop_buffer_xdr::CheckUnPack") b := by
  have halign : align4 (-1) = 4 := by decide
  rw [Xdr.unPackBool, if_neg (by omega), halign]
  exact checkUnPack_load_eq _ (by omega) (by omega) hpos hpos' hsize _

/-- This is what `Pack(const bool*, n)` has appended when there are at most 4 elements. -/
theorem unPackBool_reads {data : List Bool} (h : data.length ≤ 4) :
    Reads (Xdr.unPackBool data.length) (pad4 (data.map fun v => if v then 1 else 0)) data := by
  intro b pre post hb hpos hlen
  rcases Nat.eq_zero_or_pos data.length with h0 | h1
  · obtain rfl : data = [] := List.eq_nil_of_length_eq_zero h0
    exact Reads.pure [] b pre post hb hpos hlen
  · have hround : (pad4 (data.map fun v => if v then (1 : UInt8) else 0)).length = 4 := by
      rw [length_pad4, List.length_map, roundUp4]
      omega
    have hsize : b.packeddata.length = pre.length + 4 + post.length := by
      rw [hb, List.length_append, List.length_append, hround]
    have hmap : (data.map fun v => if v then (1 : UInt8) else 0).map (· != 0) = data := by
      rw [List.map_map]
      refine (List.map_congr_left fun v _ => ?_).trans (List.map_id data)
      cases v <;> rfl
    have hdata : ((b.packeddata.drop b.unpackpos.toNat).take data.length).map (· != 0) = data := by
      rw [hpos, Int.toNat_natCast, hb, List.append_assoc, List.drop_left, pad4, padTo,
        List.append_assoc, List.take_left' (by rw [List.length_map]), hmap]
    have hend : wrap (b.unpackpos + 4) = (pre.length + 4 : ℕ) := by
      rw [hpos, wrap_eq_self (by simp only [Fits]; omega)]
      omega
    rw [unPackBool_eq h1 (by omega) (by omega) (by omega) hlen, if_pos (by omega), hdata, hend,
      hround]

/-- Arrays that `pop_buffer_xdr` transports: of all types, but no more than 4 `bool`s. -/
lemma codes_xdr_array (hlib : lib.Documented) {k : Kind} {vs : List k.Val}
    (h : XdrFits (.array k vs)) (hbool : k = .bool → vs.length ≤ 4) :
    ∃ bs, bs.length = xdrSize (.array k vs) ∧ Appends ((xdr lib).pack k vs) bs ∧
      Reads ((xdr lib).unPack k vs.length) bs vs := by
  cases k with
  | int => exact codes_xdr_int hlib vs
  | unsigned => exact codes_vector (hlib.u_int.carries_word (w := 4) vs) le_rfl _ _
  | long => exact codes_vector (hlib.carries_long h) (by decide) _ _
  | ulong => exact codes_vector (hlib.carries_u_long h) (by decide) _ _
  | short =>
      refine codes_vector (hlib.short.carries (fun v _ => rfl) fun v _ => ?_) le_rfl _ _
      rw [shortValue, toNat_mod_256_pow_four, BitVec.ofNat_toNat, BitVec.setWidth_eq]
      exact setWidth_signExtend_short v
  | ushort =>
      refine codes_vector (hlib.u_short.carries (fun v _ => rfl) fun v _ => ?_) le_rfl _ _
      rw [shortValue, toNat_mod_256_pow_four, BitVec.ofNat_toNat, BitVec.setWidth_eq]
      ext i hi
      simp
  | bool =>
      refine ⟨_, ?_, packChar_appends _, unPackBool_reads (hbool rfl)⟩
      rw [length_pad4, List.length_map]
      rfl
  | char => exact codes_xdr_char vs
  | uchar => exact codes_xdr_char vs
  | schar => exact codes_xdr_char vs
  | float => exact codes_vector (hlib.float.carries_word (w := 4) vs) le_rfl _ _
  | double => exact codes_vector (hlib.double.carries_word (w := 8) vs) le_rfl _ _

lemma codesStrings_xdr (hlib : lib.Documented) : (xdr lib).CodesStrings where
  int x := codes_xdr_int hlib [x]
  char data := ⟨packChar_appends data, unPackChar_reads _ data⟩

/-- The item has no array of more than 4 `bool`s. -/
def ShortBools : Item → Prop
  | .array .bool vs => vs.length ≤ 4
  | _ => True

lemma codes_xdr (hlib : lib.Documented) {i : Item} (h : XdrFits i) (hbool : ShortBools i) :
    ∃ bs, bs.length = xdrSize i ∧ Codes (xdr lib) i bs := by
  cases i with
  | array k vs =>
      obtain ⟨bs, hbs, happ, hread⟩ := codes_xdr_array hlib h (by rintro rfl; exact hbool)
      exact ⟨bs, hbs, Codes.of_array happ hread⟩
  | strings ss => exact codes_strings (codesStrings_xdr hlib) h

/-- **The XDR round trip.** -/
theorem xdr_round_trip (lib : XdrLib) (hlib : lib.Documented) (items : List Item)
    (hfits : ∀ i ∈ items, XdrFits i) (hbool : ∀ i ∈ items, ShortBools i)
    (hsize : 20 + (items.map xdrSize).sum < 2 ^ 31) (hd : Header) :
    ∃ b, packAll (xdr lib) items (empty hd) = .ok () b ∧
      b.packeddata.length = 20 + (items.map xdrSize).sum ∧
      unPackAll (xdr lib) (items.map Item.shape) b =
        .ok items { b with unpackpos := b.packeddata.length } :=
  round_trip_of_codes (fun i hi => codes_xdr hlib (hfits i hi) (hbool i hi)) hsize hd

end Xdr

/-- A procedure that behaves as its documentation says. -/
def XdrProc.standard {α : Type} (w : ℕ) (rep : α → Option ℕ) (val : ℕ → α) : XdrProc α where
  put v := (rep v).map (be w)
  width := w
  get bs := some (val (ofBe bs))

lemma XdrProc.standard_encodes {α : Type} (w : ℕ) (rep : α → Option ℕ) (val : ℕ → α) :
    (XdrProc.standard w rep val).Encodes w rep val :=
  ⟨fun _ => rfl, rfl, fun _ _ => rfl⟩

/-- The library as documented. -/
def XdrLib.standard : XdrLib where
  xdr_int := .standard 4 (fun v => some v.toNat) (BitVec.ofNat 32)
  xdr_u_int := .standard 4 (fun v => some v.toNat) (BitVec.ofNat 32)
  xdr_long := .standard 4 longCode longValue
  xdr_u_long := .standard 4 uLongCode uLongValue
  xdr_short := .standard 4 shortCode shortValue
  xdr_u_short := .standard 4 uShortCode shortValue
  xdr_float := .standard 4 (fun v => some v.toNat) (BitVec.ofNat 32)
  xdr_double := .standard 8 (fun v => some v.toNat) (BitVec.ofNat 64)

lemma XdrLib.standard_documented : XdrLib.standard.Documented where
  int := XdrProc.standard_encodes ..
  u_int := XdrProc.standard_encodes ..
  long := XdrProc.standard_encodes ..
  u_long := XdrProc.standard_encodes ..
  short := XdrProc.standard_encodes ..
  u_short := XdrProc.standard_encodes ..
  float := XdrProc.standard_encodes ..
  double := XdrProc.standard_encodes ..

/-- A negative `long`, five characters, an empty array and a string. -/
def sampleItems : List Item :=
  [.array .long [BitVec.ofInt 64 (-2), 7], .array .char [104, 101, 108, 108, 111],
    .array .double [], .strings [[112, 111, 112]]]

theorem xdr_round_trip_sampleItems :
    ∃ b, packAll (xdr XdrLib.standard) sampleItems (empty ⟨0, 0, 0, 0, 0⟩) = .ok () b ∧
      b.packeddata.length = 52 ∧
      unPackAll (xdr XdrLib.standard) (sampleItems.map Item.shape) b =
        .ok sampleItems { b with unpackpos := b.packeddata.length } := by
  refine xdr_round_trip XdrLib.standard XdrLib.standard_documented sampleItems ?_ ?_ (by decide) _
  · intro i hi
    simp only [sampleItems, List.mem_cons, List.not_mem_nil, or_false] at hi
    rcases hi with rfl | rfl | rfl | rfl
    · intro v hv
      simp only [List.mem_cons, List.not_mem_nil, or_false] at hv
      rcases hv with rfl | rfl <;> decide
    · trivial
    · trivial
    · intro s hs
      rw [List.mem_singleton.mp hs]
      decide
  · intro i hi
    simp only [sampleItems, List.mem_cons, List.not_mem_nil, or_false] at hi
    rcases hi with rfl | rfl | rfl | rfl <;> trivial

/-! ### The raw encoding -/

section Raw

/-- How many bytes `pop_buffer_raw` takes for an item. -/
def rawSize : Item → ℕ
  | .array k vs => roundUp4 (vs.length * k.size)
  | .strings ss => stringsSize ss

/-- The strings of an item have no NUL. -/
def NulFree : Item → Prop
  | .array _ _ => True
  | .strings ss => ∀ s ∈ ss, 0 ∉ s

lemma Kind.length_bytes (k : Kind) (v : k.Val) : (k.bytes v).length = k.size := by
  cases k <;> simp [Kind.bytes, Kind.size]

lemma Kind.size_pos (k : Kind) : 0 < k.size := by
  cases k <;> decide

lemma Kind.ofBytes_bytes (k : Kind) (v : k.Val) : k.ofBytes (k.bytes v) = v := by
  cases k with
  | int => exact ofNat_ofLe_le (w := 4) v
  | unsigned => exact ofNat_ofLe_le (w := 4) v
  | long => exact ofNat_ofLe_le (w := 8) v
  | ulong => exact ofNat_ofLe_le (w := 8) v
  | short => exact ofNat_ofLe_le (w := 2) v
  | ushort => exact ofNat_ofLe_le (w := 2) v
  | bool => cases v <;> rfl
  | char => rfl
  | uchar => rfl
  | schar => rfl
  | float => exact ofNat_ofLe_le (w := 4) v
  | double => exact ofNat_ofLe_le (w := 8) v

lemma Kind.length_flatMap_bytes (k : Kind) (vs : List k.Val) :
    (vs.flatMap k.bytes).length = vs.length * k.size := by
  induction vs with
  | nil => simp
  | cons v vs ih =>
      rw [List.flatMap_cons, List.length_append, ih, k.length_bytes, List.length_cons]
      ring

lemma Kind.elements_flatMap_bytes (k : Kind) (vs : List k.Val) :
    k.elements vs.length (vs.flatMap k.bytes) = vs := by
  induction vs with
  | nil => rfl
  | cons v vs ih =>
      have hlen := k.length_bytes v
      rw [List.flatMap_cons, List.length_cons, Kind.elements, ← hlen, List.take_left,
        List.drop_left, ih, k.ofBytes_bytes]

lemma codes_raw_array (k : Kind) (vs : List k.Val) :
    Appends (raw.pack k vs) (pad4 (vs.flatMap k.bytes)) ∧
      Reads (raw.unPack k vs.length) (pad4 (vs.flatMap k.bytes)) vs := by
  rw [raw_pack, raw_unPack]
  have hbytes := k.length_flatMap_bytes vs
  have hround := le_roundUp4 (vs.length * k.size)
  have hwrap : vs.length * k.size < 2 ^ 31 →
      wrap ((vs.length : ℤ) * (k.size : ℤ)) = (vs.length * k.size : ℕ) := by
    intro hlt
    rw [← Nat.cast_mul]
    exact wrap_natCast (by omega)
  constructor
  · intro b hb
    have hroom := hb
    rw [length_pad4, hbytes] at hroom
    have hpack : Raw.pack k vs = packChar (vs.flatMap k.bytes) := by
      rw [Raw.pack, hwrap (by omega), Int.toNat_natCast, ← hbytes, List.take_length]
    rw [hpack]
    exact packChar_appends _ b hb
  · intro b pre post hb hpos hlen
    have hroom : b.packeddata.length =
        pre.length + roundUp4 (vs.length * k.size) + post.length := by
      rw [hb, List.length_append, List.length_append, length_pad4, hbytes]
    have hread := (unPackChar_reads "Wrong buffer format in pop_buffer_raw::CheckUnPack"
      (vs.flatMap k.bytes)).map fun bs => k.elements (bs.length / k.size) bs
    rw [hbytes, Nat.mul_div_cancel _ k.size_pos, k.elements_flatMap_bytes] at hread
    rw [Raw.unPack, hwrap (by omega)]
    exact hread b pre post hb hpos hlen

lemma codesStrings_raw : raw.CodesStrings where
  int x := by
    have hcodes := codes_raw_array .int [x]
    refine ⟨pad4 ([x].flatMap (Kind.bytes .int)), ?_, hcodes⟩
    rw [length_pad4, Kind.length_flatMap_bytes]
    simp [roundUp4, Kind.size]
  char data := by
    have hcodes := codes_raw_array .char data
    have hid : data.flatMap (Kind.bytes .char) = data := List.flatMap_singleton' data
    rwa [hid] at hcodes

lemma codes_raw {i : Item} (h : NulFree i) : ∃ bs, bs.length = rawSize i ∧ Codes raw i bs := by
  cases i with
  | array k vs =>
      obtain ⟨happ, hread⟩ := codes_raw_array k vs
      refine ⟨pad4 (vs.flatMap k.bytes), ?_, Codes.of_array happ hread⟩
      rw [length_pad4, Kind.length_flatMap_bytes]
      rfl
  | strings ss => exact codes_strings codesStrings_raw h

/-- **The raw round trip.** -/
theorem raw_round_trip (items : List Item) (hnul : ∀ i ∈ items, NulFree i)
    (hsize : 20 + (items.map rawSize).sum < 2 ^ 31) (hd : Header) :
    ∃ b, packAll raw items (empty hd) = .ok () b ∧
      b.packeddata.length = 20 + (items.map rawSize).sum ∧
      unPackAll raw (items.map Item.shape) b =
        .ok items { b with unpackpos := b.packeddata.length } :=
  round_trip_of_codes (fun i hi => codes_raw (hnul i hi)) hsize hd

theorem raw_round_trip_sampleItems :
    ∃ b, packAll raw sampleItems (empty ⟨0, 0, 0, 0, 0⟩) = .ok () b ∧
      b.packeddata.length = 52 ∧
      unPackAll raw (sampleItems.map Item.shape) b =
        .ok sampleItems { b with unpackpos := b.packeddata.length } := by
  refine raw_round_trip sampleItems ?_ (by decide) _
  intro i hi
  simp only [sampleItems, List.mem_cons, List.not_mem_nil, or_false] at hi
  rcases hi with rfl | rfl | rfl | rfl
  · trivial
  · trivial
  · trivial
  · intro s hs
    rw [List.mem_singleton.mp hs]
    decide

end Raw

end PopCpp.Buffer
