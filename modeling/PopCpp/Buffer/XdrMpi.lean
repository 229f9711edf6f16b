/-
# The XDR encoding of the MPI buffers

`popc_buffer_xdr_mpi` (`lib/dynamic/popc_buffer_xdr_mpi.cpp`) is a copy of `pop_buffer_xdr` with
other windows: a `long` has 4 bytes, and an array of `n` shorts gets room for every second one
only.  What the library returns is dropped.  When it fails, the bytes that it has not written
stay 0, and the elements of the array that it has not decoded stay what they were; so `UnPack`
is given here what the array held before.
-/
import PopCpp.Buffer.BoolArray

namespace PopCpp.Buffer

open Bytes CInt

/-- `xdr_vector` with `XDR_DECODE` into an array: what the array holds afterwards.  It stops at
the first element that it cannot decode; `none` if it reads past the end of the vector. -/
def vectorRead {α : Type} (P : XdrProc α) : ℕ → List α → List UInt8 → Option (List α)
  | _, [], _ => some []
  | window, t :: ts, bs =>
      if window < P.width then some (t :: ts)
      else if bs.length < P.width then none
      else
        match P.get (bs.take P.width) with
        | none => some (t :: ts)
        | some v => (vectorRead P (window - P.width) ts (bs.drop P.width)).map (v :: ·)

namespace XdrMpi

/-! ### The members of `popc_buffer_xdr_mpi` -/

section Vector

variable {α : Type} (P : XdrProc α)

/-- `n * w` bytes. -/
def words (w n : ℤ) : ℤ := wrap (n * w)

/-- `((n - 1) / 2 + 1) * 4` bytes. -/
def align2 (n : ℤ) : ℤ := wrap (((wrap (n - 1)).tdiv 2 + 1) * 4)

/-- `Pack(const T*, n)` with the bytes that are added and the window of the library. -/
def packVector (room window : ℤ → ℤ) (data : List α) : BufM Unit :=
  let n : ℤ := data.length
  if n ≤ 0 then pure ()
  else do
    let b ← this
    let oldsize := wrap b.packeddata.length
    resize (sizeT (wrap (room n + oldsize)))
    store oldsize (vectorPut P (uInt (window n)) data).1

/-- `UnPack(T*, n)` into `data`, with the window of the library and the step of `unpackpos`. -/
def unPackVector (window step : ℤ → ℤ) (data : List α) : BufM (List α) :=
  let n : ℤ := data.length
  if n ≤ 0 then pure data
  else do
    let sz := window n
    checkUnPack "Wrong packed data size" sz
    let b ← this
    let dest := if 0 ≤ b.unpackpos then b.packeddata.drop b.unpackpos.toNat else []
    match vectorRead P (uInt sz) data dest with
    | some data => do
        advance (step n)
        pure data
    | none => fun _ => .undefined

end Vector

variable (lib : XdrLib)

def packInt := packVector lib.xdr_int (words 4) (words 4)
def packUnsigned := packVector lib.xdr_u_int (words 4) (words 4)
def packLong := packVector lib.xdr_long (words 4) (words 4)
def packULong := packVector lib.xdr_u_long (words 4) (words 4)
def packShort := packVector lib.xdr_short align2 (words 2)
def packUShort := packVector lib.xdr_u_short align2 (words 2)
def packFloat := packVector lib.xdr_float (words 4) (words 4)
def packDouble := packVector lib.xdr_double (words 8) (words 8)

def unPackInt := unPackVector lib.xdr_int (words 4) (words 4)
def unPackUnsigned := unPackVector lib.xdr_u_int (words 4) (words 4)
def unPackLong := unPackVector lib.xdr_long (words 4) (words 4)
def unPackULong := unPackVector lib.xdr_u_long (words 4) (words 4)
def unPackShort := unPackVector lib.xdr_short (words 2) align2
def unPackUShort := unPackVector lib.xdr_u_short (words 2) align2
def unPackFloat := unPackVector lib.xdr_float (words 4) (words 4)
def unPackDouble := unPackVector lib.xdr_double (words 8) (words 8)

/-- `Pack(const bool*, n)`: room as for `n` characters, and a byte for each element. -/
def packBool (data : List Bool) : BufM Unit := packChar (data.map fun v => if v then 1 else 0)

def unPackChars (data : List UInt8) : BufM (List UInt8) :=
  unPackChar "Wrong packed data size" data.length

/-- `UnPack(bool*, n)`: the loop counts `n` down to -1 before `unpackpos` is moved. -/
def unPackBool (data : List Bool) : BufM (List Bool) :=
  let n : ℤ := data.length
  if n ≤ 0 then pure data
  else do
    checkUnPack "Wrong packed data size" n
    let b ← this
    let bs ← load b.unpackpos n.toNat
    advance (align4 (-1))
    pure (bs.map (· != 0))

def pack : (k : Kind) → List k.Val → BufM Unit
  | .int => packInt lib
  | .unsigned => packUnsigned lib
  | .long => packLong lib
  | .ulong => packULong lib
  | .short => packShort lib
  | .ushort => packUShort lib
  | .bool => packBool
  | .char => packChar
  | .uchar => packChar
  | .schar => packChar
  | .float => packFloat lib
  | .double => packDouble lib

def unPack : (k : Kind) → List k.Val → BufM (List k.Val)
  | .int => unPackInt lib
  | .unsigned => unPackUnsigned lib
  | .long => unPackLong lib
  | .ulong => unPackULong lib
  | .short => unPackShort lib
  | .ushort => unPackUShort lib
  | .bool => unPackBool
  | .char => unPackChars
  | .uchar => unPackChars
  | .schar => unPackChars
  | .float => unPackFloat lib
  | .double => unPackDouble lib

/-! ### Sequences of calls -/

/-- An array with the type of its elements. -/
structure Values where
  kind : Kind
  vals : List kind.Val

/-- The values have been packed, and arrays of the same types and lengths are unpacked. -/
def Values.Matches (t v : Values) : Prop := t.kind = v.kind ∧ t.vals.length = v.vals.length

def packAll : List Values → BufM Unit
  | [] => pure ()
  | v :: vs => do
      pack lib v.kind v.vals
      packAll vs

/-- The matching calls of `UnPack`, into arrays that hold something already. -/
def unPackAll : List Values → BufM (List Values)
  | [] => pure []
  | t :: ts => do
      let vals ← unPack lib t.kind t.vals
      let vs ← unPackAll ts
      pure (⟨t.kind, vals⟩ :: vs)

/-- Whatever the arrays held before, the matching calls of `UnPack` return what was packed into
the empty buffer, and end at its end. -/
def RoundTrips (hd : Header) (vs : List Values) : Prop :=
  ∃ b, packAll lib vs (empty hd) = .ok () b ∧
    ∀ ts, List.Forall₂ Values.Matches ts vs → ∃ b', unPackAll lib ts b = .ok vs b' ∧
      b'.unpackpos = b.packeddata.length

/-- How many bytes are taken for an array. -/
def Values.size (v : Values) : ℕ :=
  match v.kind with
  | .short => (v.vals.length + 1) / 2 * 4
  | .ushort => (v.vals.length + 1) / 2 * 4
  | .bool => roundUp4 v.vals.length
  | .char => roundUp4 v.vals.length
  | .uchar => roundUp4 v.vals.length
  | .schar => roundUp4 v.vals.length
  | .double => v.vals.length * 8
  | _ => v.vals.length * 4

/-- How far `UnPack` moves. -/
def Values.step (v : Values) : ℕ :=
  match v.kind with
  | .bool => if v.vals.length = 0 then 0 else 4
  | _ => v.size

/-- There are no shorts. -/
def Values.NoShorts (v : Values) : Prop :=
  match v.kind with
  | .short => v.vals.length = 0
  | .ushort => v.vals.length = 0
  | _ => True

/-- The array has no shorts and at most 4 `bool`s. -/
def Values.Intact (v : Values) : Prop :=
  match v.kind with
  | .short => v.vals.length = 0
  | .ushort => v.vals.length = 0
  | .bool => v.vals.length ≤ 4
  | _ => True

/-! ### Arrays that arrive -/

section Arrive

variable {α : Type} {P : XdrProc α} {w : ℕ} {enc : α → List UInt8} {vs : List α}

lemma vectorRead_eq (h : P.Carries w enc vs) (post : List UInt8) :
    ∀ {ts : List α} {window : ℕ}, ts.length = vs.length → vs.length * w ≤ window →
      vectorRead P window ts (vs.flatMap enc ++ post) = some vs := by
  induction vs with
  | nil =>
      intro ts window hts _
      rw [List.eq_nil_of_length_eq_zero hts]
      rfl
  | cons v vs ih =>
      intro ts window hts hw
      obtain ⟨t, ts, rfl⟩ := List.exists_cons_of_length_eq_add_one hts
      have hlen := h.length_eq v List.mem_cons_self
      have hroom : w + vs.length * w ≤ window := by
        rw [List.length_cons, Nat.succ_mul] at hw
        omega
      have htake : (enc v ++ (vs.flatMap enc ++ post)).take w = enc v := by
        rw [← hlen, List.take_left]
      have hdrop : (enc v ++ (vs.flatMap enc ++ post)).drop w = vs.flatMap enc ++ post := by
        rw [← hlen, List.drop_left]
      rw [vectorRead, h.width_eq, if_neg (by omega), List.flatMap_cons, List.append_assoc,
        if_neg (by rw [List.length_append, hlen]; omega), htake, hdrop,
        h.get_eq v List.mem_cons_self]
      simp only [ih h.tail (by simpa using hts) (show vs.length * w ≤ window - w by omega),
        Option.map_some]

/-- The bytes of an array of numbers fit. -/
lemma words_eq {n : ℕ} (h : n * w < 2 ^ 31) : words w n = (n * w : ℕ) := by
  rw [words, ← Nat.cast_mul]
  exact wrap_natCast (by omega)

lemma uInt_words {n : ℕ} (h : n * w < 2 ^ 31) : uInt (words w n) = n * w := by
  have := uInt_of_nonneg (x := ((n * w : ℕ) : ℤ)) (by simp only [Fits]; omega) (by omega)
  rw [words_eq h]
  omega

lemma packVector_words_appends (h : P.Carries w enc vs) :
    Appends (packVector P (words w) (words w) vs) (vs.flatMap enc) := by
  intro b hb
  rw [h.length_flatMap] at hb
  rcases Nat.eq_zero_or_pos vs.length with h0 | hpos
  · obtain rfl : vs = [] := List.eq_nil_of_length_eq_zero h0
    simp [packVector]
  · have hn : ¬((vs.length : ℤ) ≤ 0) := by omega
    have hold : wrap (b.packeddata.length : ℤ) = b.packeddata.length := wrap_natCast (by omega)
    have hsize : sizeT (wrap (words w vs.length + (b.packeddata.length : ℤ))) =
        b.packeddata.length + vs.length * w := by
      rw [words_eq (by omega), ← Nat.cast_add, wrap_natCast (by omega),
        sizeT_natCast (by omega)]
      omega
    have hput : vectorPut P (uInt (words w vs.length)) vs = (vs.flatMap enc, true) := by
      rw [uInt_words (by omega)]
      exact vectorPut_eq h le_rfl
    have hfull : padTo (vs.length * w) (vs.flatMap enc) = vs.flatMap enc := by
      rw [padTo, h.length_flatMap, Nat.sub_self, List.replicate_zero, List.append_nil]
    simp only [packVector, if_neg hn]
    rw [BufM.bind_ok (rfl : this b = .ok b b)]
    simp only [hold, hsize, hput]
    rw [resize_store h.length_flatMap.le (by omega), hfull]

/-- What `UnPack` does after the check. -/
lemma unPackVector_eq {ts : List α} (hts : ts ≠ []) {window step : ℤ → ℤ} {b : PopBuffer}
    (hpos : 0 ≤ b.unpackpos)
    (hcheck : checkUnPack "Wrong packed data size" (window ts.length) b = .ok () b) :
    unPackVector P window step ts b =
      match vectorRead P (uInt (window ts.length)) ts (b.packeddata.drop b.unpackpos.toNat) with
      | some vs => .ok vs { b with unpackpos := wrap (b.unpackpos + step ts.length) }
      | none => .undefined := by
  have hn : ¬((ts.length : ℤ) ≤ 0) := by
    have hlen := List.length_pos_iff.mpr hts
    omega
  simp only [unPackVector, if_neg hn]
  rw [BufM.bind_ok hcheck, BufM.bind_ok (rfl : this b = .ok b b), if_pos hpos]
  cases vectorRead P (uInt (window ts.length)) ts (b.packeddata.drop b.unpackpos.toNat) <;> rfl

lemma unPackVector_words_reads (h : P.Carries w enc vs) {ts : List α}
    (hts : ts.length = vs.length) :
    Reads (unPackVector P (words w) (words w) ts) (vs.flatMap enc) vs := by
  intro b pre post hb hpos hlen
  have hbytes := h.length_flatMap
  have hsize : b.packeddata.length = pre.length + vs.length * w + post.length := by
    rw [hb, List.length_append, List.length_append, hbytes]
  rcases Nat.eq_zero_or_pos vs.length with h0 | h1
  · obtain rfl : vs = [] := List.eq_nil_of_length_eq_zero h0
    obtain rfl : ts = [] := List.eq_nil_of_length_eq_zero hts
    exact Reads.pure [] b pre post hb hpos hlen
  · have hcheck : checkUnPack "Wrong packed data size" (words w ts.length) b = .ok () b := by
      rw [hts, words_eq (by omega)]
      exact checkUnPack_ok hpos (by omega) hlen
    have hdest : b.packeddata.drop b.unpackpos.toNat = vs.flatMap enc ++ post := by
      rw [hpos, Int.toNat_natCast, hb, List.append_assoc, List.drop_left]
    have hread : vectorRead P (uInt (words w vs.length)) ts (vs.flatMap enc ++ post) = some vs :=
      vectorRead_eq h post hts (uInt_words (by omega)).ge
    have hend : wrap (b.unpackpos + words w vs.length) =
        (pre.length + (vs.flatMap enc).length : ℕ) := by
      rw [hpos, words_eq (by omega), ← Nat.cast_add, wrap_natCast (by omega), hbytes]
    have hne : ts ≠ [] := List.length_pos_iff.mp (by omega)
    rw [unPackVector_eq hne (by omega) hcheck, hdest, hts, hread, hend]

end Arrive

/-- Only the text of the exception is not the one of `pop_buffer_xdr`. -/
lemma unPackBool_eq_ok_iff {data vs : List Bool} {b b' : PopBuffer} :
    unPackBool data b = .ok vs b' ↔ Xdr.unPackBool data.length b = .ok vs b' := by
  have hcheck : ∀ (reason : String) (sz : ℤ) (u : Unit) (b b' : PopBuffer),
      checkUnPack reason sz b = .ok u b' ↔
        sizeT (wrap (sz + b.unpackpos)) ≤ b.packeddata.length ∧ b = b' := by
    intro reason sz u b b'
    rw [checkUnPack]
    split
    · next hlt => simp [not_le.mpr hlt]
    · next hle => simp [not_lt.mp hle]
  rw [unPackBool, Xdr.unPackBool]
  split
  · next hn =>
      obtain rfl : data = [] := List.eq_nil_of_length_eq_zero (by omega)
      rfl
  · simp only [BufM.bind_eq_ok, hcheck]

lemma unPackBool_reads {vs ts : List Bool} (h : vs.length ≤ 4) (hts : ts.length = vs.length) :
    Reads (unPackBool ts) (pad4 (vs.map fun v => if v then 1 else 0)) vs := by
  intro b pre post hb hpos hlen
  rw [unPackBool_eq_ok_iff, hts]
  exact Buffer.unPackBool_reads h b pre post hb hpos hlen

/-! ### The types -/

section Types

variable {lib : XdrLib}

/-- The type is packed as numbers of `w` bytes each. -/
structure Numbers (lib : XdrLib) (k : Kind) (P : XdrProc k.Val) (w : ℕ) : Prop where
  pack_eq : pack lib k = packVector P (words w) (words w)
  unPack_eq : unPack lib k = unPackVector P (words w) (words w)
  size_eq : ∀ vs : List k.Val, Values.size ⟨k, vs⟩ = vs.length * w
  step_eq : ∀ vs : List k.Val, Values.step ⟨k, vs⟩ = vs.length * w
  noShorts : ∀ vs : List k.Val, Values.NoShorts ⟨k, vs⟩
  width_eq : P.width = w
  pos : 0 < w
  dvd : 4 ∣ w
  carries : ∀ vs : List k.Val, XdrFits (.array k vs) → ∃ enc, P.Carries w enc vs

/-- How a type is packed. -/
inductive Layout (lib : XdrLib) : Kind → Prop
  | numbers {k : Kind} (P : XdrProc k.Val) (w : ℕ) (h : Numbers lib k P w) : Layout lib k
  | short : Layout lib .short
  | ushort : Layout lib .ushort
  | bool : Layout lib .bool
  | char : Layout lib .char
  | uchar : Layout lib .uchar
  | schar : Layout lib .schar

lemma layout (hlib : lib.Documented) (k : Kind) : Layout lib k := by
  cases k with
  | int =>
      exact .numbers lib.xdr_int 4 ⟨rfl, rfl, fun _ => rfl, fun _ => rfl, fun _ => trivial,
        hlib.int.width_eq, by decide, by decide, fun vs _ => ⟨_, hlib.int.carries_word (w := 4) vs⟩⟩
  | unsigned =>
      exact .numbers lib.xdr_u_int 4 ⟨rfl, rfl, fun _ => rfl, fun _ => rfl, fun _ => trivial,
        hlib.u_int.width_eq, by decide, by decide,
        fun vs _ => ⟨_, hlib.u_int.carries_word (w := 4) vs⟩⟩
  | long =>
      exact .numbers lib.xdr_long 4 ⟨rfl, rfl, fun _ => rfl, fun _ => rfl, fun _ => trivial,
        hlib.long.width_eq, by decide, by decide, fun vs h => ⟨_, hlib.carries_long h⟩⟩
  | ulong =>
      exact .numbers lib.xdr_u_long 4 ⟨rfl, rfl, fun _ => rfl, fun _ => rfl, fun _ => trivial,
        hlib.u_long.width_eq, by decide, by decide, fun vs h => ⟨_, hlib.carries_u_long h⟩⟩
  | short => exact .short
  | ushort => exact .ushort
  | bool => exact .bool
  | char => exact .char
  | uchar => exact .uchar
  | schar => exact .schar
  | float =>
      exact .numbers lib.xdr_float 4 ⟨rfl, rfl, fun _ => rfl, fun _ => rfl, fun _ => trivial,
        hlib.float.width_eq, by decide, by decide,
        fun vs _ => ⟨_, hlib.float.carries_word (w := 4) vs⟩⟩
  | double =>
      exact .numbers lib.xdr_double 8 ⟨rfl, rfl, fun _ => rfl, fun _ => rfl, fun _ => trivial,
        hlib.double.width_eq, by decide, by decide,
        fun vs _ => ⟨_, hlib.double.carries_word (w := 8) vs⟩⟩

/-- `Pack` appends `bs`, from which the matching `UnPack` restores the array. -/
structure Codes (lib : XdrLib) (v : Values) (bs : List UInt8) : Prop where
  appends : Appends (pack lib v.kind v.vals) bs
  reads : ∀ ts : List v.kind.Val, ts.length = v.vals.length →
    Reads (unPack lib v.kind ts) bs v.vals

lemma codes_char (data : List UInt8) :
    Appends (packChar data) (pad4 data) ∧ ∀ ts : List UInt8, ts.length = data.length →
      Reads (unPackChars ts) (pad4 data) data := by
  refine ⟨packChar_appends data, fun ts hts => ?_⟩
  rw [unPackChars, hts]
  exact unPackChar_reads _ data

lemma codes_nil (lib : XdrLib) (k : Kind) : Codes lib ⟨k, []⟩ [] := by
  constructor
  · cases k <;> exact Appends.pure
  · intro ts hts
    obtain rfl : ts = [] := List.eq_nil_of_length_eq_zero hts
    cases k <;> exact Reads.pure []

lemma codes_of_intact (hlib : lib.Documented) {v : Values}
    (hfits : XdrFits (.array v.kind v.vals)) (hintact : v.Intact) :
    ∃ bs, bs.length = v.size ∧ XdrMpi.Codes lib v bs := by
  obtain ⟨k, vs⟩ := v
  cases layout hlib k with
  | numbers P w h =>
      obtain ⟨enc, hcarries⟩ := h.carries vs hfits
      refine ⟨vs.flatMap enc, by rw [hcarries.length_flatMap, h.size_eq], ?_, fun ts hts => ?_⟩
      · exact h.pack_eq ▸ packVector_words_appends hcarries
      · exact h.unPack_eq ▸ unPackVector_words_reads hcarries hts
  | short =>
      obtain rfl : vs = [] := List.eq_nil_of_length_eq_zero hintact
      exact ⟨[], rfl, codes_nil lib _⟩
  | ushort =>
      obtain rfl : vs = [] := List.eq_nil_of_length_eq_zero hintact
      exact ⟨[], rfl, codes_nil lib _⟩
  | bool =>
      refine ⟨_, ?_, packChar_appends _, fun ts hts => unPackBool_reads hintact hts⟩
      rw [length_pad4, List.length_map]
      rfl
  | char => exact ⟨pad4 vs, length_pad4 vs, (codes_char vs).1, (codes_char vs).2⟩
  | uchar => exact ⟨pad4 vs, length_pad4 vs, (codes_char vs).1, (codes_char vs).2⟩
  | schar => exact ⟨pad4 vs, length_pad4 vs, (codes_char vs).1, (codes_char vs).2⟩

lemma codes_all (hlib : lib.Documented) {vs : List Values}
    (hfits : ∀ v ∈ vs, XdrFits (.array v.kind v.vals)) (hintact : ∀ v ∈ vs, v.Intact) :
    ∃ bs, bs.length = (vs.map Values.size).sum ∧ Appends (packAll lib vs) bs ∧
      ∀ ts, List.Forall₂ Values.Matches ts vs → Reads (unPackAll lib ts) bs vs := by
  induction vs with
  | nil =>
      refine ⟨[], rfl, Appends.pure, fun ts hts => ?_⟩
      cases hts
      exact Reads.pure []
  | cons v vs ih =>
      obtain ⟨bs, hbs, hcode⟩ :=
        codes_of_intact hlib (hfits v List.mem_cons_self) (hintact v List.mem_cons_self)
      obtain ⟨bs', hbs', happ, hread⟩ := ih (fun u hu => hfits u (List.mem_cons_of_mem v hu))
        fun u hu => hintact u (List.mem_cons_of_mem v hu)
      refine ⟨bs ++ bs', ?_, hcode.appends.bind happ, fun ts hts => ?_⟩
      · rw [List.length_append, hbs, hbs', List.map_cons, List.sum_cons]
      · cases hts with
        | @cons t _ ts _ ht hts =>
            obtain ⟨k, vals⟩ := t
            obtain ⟨hk, hlength⟩ := ht
            obtain rfl : k = v.kind := hk
            exact (hcode.reads vals hlength).bind ((hread ts hts).map (v :: ·))

end Types

/-! ### What a call of `Pack` that returned has done -/

lemma resize_wrap_eq_ok {x : ℤ} {u : Unit} {b b' : PopBuffer}
    (h : resize (sizeT (wrap x)) b = .ok u b') :
    (b'.packeddata.length : ℤ) = wrap x ∧ b'.unpackpos = b.unpackpos := by
  obtain ⟨hlt, hlen⟩ := resize_eq_ok h
  refine ⟨by rw [hlen, sizeT_lt_eq (fits_wrap x) hlt], ?_⟩
  rw [resize, if_pos hlt] at h
  cases h
  rfl

lemma store_keeps {pos : ℤ} {bs : List UInt8} {u : Unit} {b b' : PopBuffer}
    (h : store pos bs b = .ok u b') :
    b'.packeddata.length = b.packeddata.length ∧ b'.unpackpos = b.unpackpos := by
  by_cases hbs : bs = []
  · rw [store, if_pos hbs] at h
    cases h
    exact ⟨rfl, rfl⟩
  · refine ⟨(store_eq_ok hbs h).2.2, ?_⟩
    rw [store, if_neg hbs] at h
    split at h
    · cases h
      rfl
    · cases h

/-- The vector has an `int` of bytes, a multiple of 4. -/
structure Aligned (b : PopBuffer) : Prop where
  lt : b.packeddata.length < 2 ^ 31
  dvd : 4 ∣ b.packeddata.length

/-- Room for a multiple of 4 bytes, with something written into it. -/
lemma Aligned.of_room {b b' : PopBuffer} (hb : Aligned b) {x : ℤ} (hx : 4 ∣ x) {pos : ℤ}
    {bs : List UInt8} {u : Unit}
    (h : (resize (sizeT (wrap (x + wrap b.packeddata.length))) >>= fun _ => store pos bs) b =
      .ok u b') :
    Aligned b' ∧ b'.unpackpos = b.unpackpos ∧
      (b'.packeddata.length : ℤ) = wrap (x + b.packeddata.length) := by
  have hold : wrap (b.packeddata.length : ℤ) = b.packeddata.length :=
    wrap_eq_self (by have := hb.lt; simp only [Fits]; omega)
  rw [hold] at h
  obtain ⟨_, b₁, hresize, hstore⟩ := BufM.bind_eq_ok.mp h
  obtain ⟨hlen, hpos⟩ := resize_wrap_eq_ok hresize
  obtain ⟨hlen', hpos'⟩ := store_keeps hstore
  have hdvd := hb.dvd
  have hfits := fits_wrap (x + b.packeddata.length)
  rw [← hlen'] at hlen
  refine ⟨⟨?_, ?_⟩, hpos'.trans hpos, hlen⟩
  · simp only [Fits] at hfits
    omega
  · simp only [wrap] at hlen
    omega

lemma dvd_words {w : ℤ} (h : 4 ∣ w) (n : ℤ) : 4 ∣ words w n := by
  have hmul : 4 ∣ n * w := h.mul_left n
  simp only [words, wrap]
  omega

lemma dvd_align2 (n : ℤ) : 4 ∣ align2 n := by
  simp only [align2, wrap]
  omega

lemma dvd_align4 (n : ℤ) : 4 ∣ align4 n := by
  simp only [align4, wrap]
  omega

section Inversion

variable {α : Type} {P : XdrProc α}

lemma packVector_aligned {room window : ℤ → ℤ} (hroom : ∀ n, 4 ∣ room n) {vs : List α} {u : Unit}
    {b b' : PopBuffer} (hb : Aligned b) (h : packVector P room window vs b = .ok u b') :
    Aligned b' ∧ b'.unpackpos = b.unpackpos := by
  rw [packVector] at h
  split at h
  · cases h
    exact ⟨hb, rfl⟩
  · rw [BufM.bind_ok (rfl : this b = .ok b b)] at h
    obtain ⟨haligned, hpos, -⟩ := hb.of_room (hroom _) h
    exact ⟨haligned, hpos⟩

lemma packChar_aligned {data : List UInt8} {u : Unit} {b b' : PopBuffer} (hb : Aligned b)
    (h : packChar data b = .ok u b') : Aligned b' ∧ b'.unpackpos = b.unpackpos := by
  rw [packChar] at h
  split at h
  · cases h
    exact ⟨hb, rfl⟩
  · rw [BufM.bind_ok (rfl : this b = .ok b b)] at h
    simp only [add_comm (wrap (b.packeddata.length : ℤ))] at h
    obtain ⟨haligned, hpos, -⟩ := hb.of_room (dvd_align4 _) h
    exact ⟨haligned, hpos⟩

/-- Numbers whose bytes are an `int` have been given room for all of them. -/
lemma room_of_packVector {w : ℕ} (hw : 4 ∣ w) {vs : List α} {u : Unit} {b b' : PopBuffer}
    (hb : Aligned b) (hlt : vs.length * w < 2 ^ 31)
    (h : packVector P (words w) (words w) vs b = .ok u b') :
    b.packeddata.length + vs.length * w < 2 ^ 31 := by
  have hlen := hb.lt
  rw [packVector] at h
  split at h
  · next hn =>
      have hzero : vs.length = 0 := by omega
      rw [hzero]
      omega
  · rw [BufM.bind_ok (rfl : this b = .ok b b)] at h
    obtain ⟨-, -, hsize⟩ := hb.of_room (dvd_words (Int.natCast_dvd_natCast.mpr hw) _) h
    rw [words_eq hlt] at hsize
    simp only [wrap] at hsize
    omega

/-! ### What a call of `UnPack` that returned has done -/

lemma unPackVector_eq_ok {window step : ℤ → ℤ} {ts vs : List α} {b b' : PopBuffer}
    (hts : ts ≠ []) (h : unPackVector P window step ts b = .ok vs b') :
    vectorRead P (uInt (window ts.length)) ts
        (if 0 ≤ b.unpackpos then b.packeddata.drop b.unpackpos.toNat else []) = some vs ∧
      b' = { b with unpackpos := wrap (b.unpackpos + step ts.length) } := by
  have hn : ¬((ts.length : ℤ) ≤ 0) := by
    have := List.length_pos_iff.mpr hts
    omega
  rw [unPackVector, if_neg hn] at h
  obtain ⟨_, b₁, hcheck, hrest⟩ := BufM.bind_eq_ok.mp h
  obtain rfl := checkUnPack_eq_ok hcheck
  rw [BufM.bind_ok (rfl : this b₁ = .ok b₁ b₁)] at hrest
  cases hread : vectorRead P (uInt (window ts.length)) ts
      (if 0 ≤ b₁.unpackpos then b₁.packeddata.drop b₁.unpackpos.toNat else []) with
  | none =>
      simp only [hread] at hrest
      cases hrest
  | some data =>
      simp only [hread] at hrest
      obtain ⟨_, b₂, hadvance, hend⟩ := BufM.bind_eq_ok.mp hrest
      obtain ⟨rfl, rfl⟩ : data = vs ∧ b₂ = b' := by simpa using hend
      cases hadvance
      exact ⟨rfl, rfl⟩

/-- If no element is left as it was, the window and the bytes have been enough for all. -/
lemma length_le_of_vectorRead {f : α → α} (hf : ∀ v, f v ≠ v) (vs : List α) :
    ∀ {window : ℕ} {bs : List UInt8}, vectorRead P window (vs.map f) bs = some vs →
      vs.length * P.width ≤ window ∧ vs.length * P.width ≤ bs.length := by
  induction vs with
  | nil => intro _ _ _; simp
  | cons v vs ih =>
      intro window bs h
      rw [List.map_cons, vectorRead] at h
      split_ifs at h with hwindow hlen
      · exact absurd (List.cons.inj (Option.some.inj h)).1 (hf v)
      · split at h
        · exact absurd (List.cons.inj (Option.some.inj h)).1 (hf v)
        · next u hget =>
            obtain ⟨us, hus, hcons⟩ := Option.map_eq_some_iff.mp h
            obtain ⟨-, rfl⟩ := List.cons.inj hcons
            obtain ⟨hw, hb⟩ := ih hus
            rw [List.length_drop] at hb
            rw [List.length_cons, Nat.succ_mul]
            omega

end Inversion

lemma load_advance_eq_ok {β : Type} {reason : String} {n : ℕ} {step : ℤ} {g : List UInt8 → β}
    {vs : β} {b b' : PopBuffer}
    (h : (checkUnPack reason n >>= fun _ => this >>= fun b => load b.unpackpos (n : ℤ).toNat >>=
      fun data => advance step >>= fun _ => pure (g data)) b = .ok vs b') :
    0 ≤ b.unpackpos ∧ b.unpackpos + n ≤ b.packeddata.length ∧
      b' = { b with unpackpos := wrap (b.unpackpos + step) } := by
  obtain ⟨_, b₁, hcheck, hrest⟩ := BufM.bind_eq_ok.mp h
  obtain rfl := checkUnPack_eq_ok hcheck
  rw [BufM.bind_ok (rfl : this b₁ = .ok b₁ b₁), Int.toNat_natCast] at hrest
  obtain ⟨data, b₂, hload, hrest'⟩ := BufM.bind_eq_ok.mp hrest
  obtain ⟨-, rfl⟩ := load_eq_ok hload
  obtain ⟨_, b₃, hadvance, hend⟩ := BufM.bind_eq_ok.mp hrest'
  obtain ⟨-, rfl⟩ : _ ∧ b₃ = b' := by simpa using hend
  rw [load] at hload
  split at hload
  · next hin =>
      cases hadvance
      exact ⟨hin.1, hin.2, rfl⟩
  · cases hload

/-! ### When everything arrives -/

section Arrives

variable {lib : XdrLib}

/-- Another value of the type. -/
def another : (k : Kind) → k.Val → k.Val
  | .int, v => v + 1
  | .unsigned, v => v + 1
  | .long, v => v + 1
  | .ulong, v => v + 1
  | .short, v => v + 1
  | .ushort, v => v + 1
  | .bool, v => !v
  | .char, v => v + 1
  | .uchar, v => v + 1
  | .schar, v => v + 1
  | .float, v => v + 1
  | .double, v => v + 1

lemma another_ne (k : Kind) (v : k.Val) : another k v ≠ v := by
  cases k <;> simp [another]

/-- The array with other values. -/
def Values.another (v : Values) : Values := ⟨v.kind, v.vals.map (XdrMpi.another v.kind)⟩

lemma matches_another (vs : List Values) :
    List.Forall₂ Values.Matches (vs.map Values.another) vs := by
  induction vs with
  | nil => exact .nil
  | cons v vs ih => exact .cons ⟨rfl, List.length_map _⟩ ih

lemma unPack_nil (lib : XdrLib) (k : Kind) : unPack lib k [] = pure [] := by
  cases k <;> rfl

lemma step_nil (k : Kind) : Values.step ⟨k, []⟩ = 0 := by
  cases k <;> rfl

lemma uInt_words_two_lt {n : ℕ} (hn : 0 < n) : uInt (words 2 n) < n * 4 := by
  simp only [uInt, words, wrap]
  omega

/-- A short that is to be decoded has no window of 4 bytes. -/
lemma not_unPackShort {P : XdrProc (BitVec 16)} (hP : P.width = 4) {f : BitVec 16 → BitVec 16}
    (hf : ∀ v, f v ≠ v) {vs : List (BitVec 16)} (hvs : vs ≠ []) {step : ℤ → ℤ}
    {b b' : PopBuffer} : unPackVector P (words 2) step (vs.map f) b ≠ .ok vs b' := by
  intro h
  obtain ⟨hread, -⟩ := unPackVector_eq_ok (by simpa using hvs) h
  obtain ⟨hwindow, -⟩ := length_le_of_vectorRead hf vs hread
  have hlt := uInt_words_two_lt (List.length_pos_iff.mpr hvs)
  rw [List.length_map, hP] at hwindow
  omega

/-- An aligned position from which `n` bytes can be read is `roundUp4 n` before the end. -/
lemma Aligned.roundUp4_le {b : PopBuffer} (hb : Aligned b) {p n : ℕ} (hp : 4 ∣ p)
    (h : p + n ≤ b.packeddata.length) : p + roundUp4 n ≤ b.packeddata.length := by
  have hdvd := hb.dvd
  simp only [roundUp4]
  omega

lemma unPackVector_words_moves {α : Type} {P : XdrProc α} {w : ℕ} (hwidth : P.width = w)
    (hw : 0 < w) {f : α → α} (hf : ∀ v, f v ≠ v) {vs : List α} (hvs : vs ≠ []) {b b' : PopBuffer}
    {p : ℕ} (hb : Aligned b) (hpos : b.unpackpos = p)
    (h : unPackVector P (words w) (words w) (vs.map f) b = .ok vs b') :
    vs.length * w < 2 ^ 31 ∧ b' = { b with unpackpos := (p + vs.length * w : ℕ) } := by
  have hlt := hb.lt
  obtain ⟨hread, rfl⟩ := unPackVector_eq_ok (by simpa using hvs) h
  obtain ⟨-, hbytes⟩ := length_le_of_vectorRead hf vs hread
  have hpositive : 0 < vs.length * w := Nat.mul_pos (List.length_pos_iff.mpr hvs) hw
  rw [hpos, if_pos (by omega), Int.toNat_natCast, List.length_drop, hwidth] at hbytes
  have hsmall : vs.length * w < 2 ^ 31 := by omega
  refine ⟨hsmall, ?_⟩
  rw [List.length_map, words_eq hsmall, hpos, ← Nat.cast_add,
    wrap_natCast (by omega)]

lemma unPackChars_moves {ts vs : List UInt8} (hts : 0 < ts.length) {b b' : PopBuffer} {p : ℕ}
    (hb : Aligned b) (hpos : b.unpackpos = p) (hp : 4 ∣ p) (h : unPackChars ts b = .ok vs b') :
    roundUp4 ts.length < 2 ^ 31 ∧
      b' = { b with unpackpos := (p + roundUp4 ts.length : ℕ) } := by
  have hlt := hb.lt
  rw [unPackChars, unPackChar, if_neg (by omega)] at h
  obtain ⟨-, hin, rfl⟩ := load_advance_eq_ok (g := fun data => data) h
  have hend := hb.roundUp4_le hp (n := ts.length) (by omega)
  refine ⟨by omega, ?_⟩
  rw [align4_natCast hts (by omega), hpos, ← Nat.cast_add,
    wrap_natCast (by omega)]

lemma unPackBool_moves {ts vs : List Bool} (hts : 0 < ts.length) {b b' : PopBuffer} {p : ℕ}
    (hb : Aligned b) (hpos : b.unpackpos = p) (hp : 4 ∣ p) (h : unPackBool ts b = .ok vs b') :
    b' = { b with unpackpos := (p + 4 : ℕ) } := by
  have hlt := hb.lt
  rw [unPackBool, if_neg (by omega)] at h
  obtain ⟨-, hin, rfl⟩ := load_advance_eq_ok (g := List.map (· != 0)) h
  have hend := hb.roundUp4_le hp (n := 1) (by omega)
  have hstep : align4 (-1) = (4 : ℕ) := by decide
  have hone : roundUp4 1 = 4 := rfl
  rw [hstep, hpos, ← Nat.cast_add, wrap_natCast (by omega)]

/-- A call of `UnPack` that replaces all of the array has moved by its step. -/
lemma unPack_eq_ok (hlib : lib.Documented) {k : Kind} {vs : List k.Val} {b b' : PopBuffer}
    {p : ℕ} (hb : Aligned b) (hpos : b.unpackpos = p) (hp : 4 ∣ p)
    (h : unPack lib k (vs.map (another k)) b = .ok vs b') :
    Values.NoShorts ⟨k, vs⟩ ∧ (Values.step ⟨k, vs⟩ < 2 ^ 31 ∧ 4 ∣ Values.step ⟨k, vs⟩) ∧
      b' = { b with unpackpos := (p + Values.step ⟨k, vs⟩ : ℕ) } := by
  by_cases hvs : vs = []
  · subst hvs
    rw [List.map_nil, unPack_nil] at h
    cases h
    rw [step_nil, Nat.add_zero, ← hpos]
    exact ⟨by cases k <;> trivial, ⟨by decide, dvd_zero 4⟩, rfl⟩
  have hlen : 0 < (vs.map (another k)).length := by
    rw [List.length_map]
    exact List.length_pos_iff.mpr hvs
  have hround : ∀ n, 4 ∣ roundUp4 n := fun n => Nat.dvd_mul_left 4 _
  cases layout hlib k with
  | numbers P w hk =>
      rw [hk.unPack_eq] at h
      obtain ⟨hsmall, hmoved⟩ :=
        unPackVector_words_moves hk.width_eq hk.pos (another_ne k) hvs hb hpos h
      rw [hk.step_eq]
      exact ⟨hk.noShorts vs, ⟨hsmall, hk.dvd.mul_left _⟩, hmoved⟩
  | short => exact absurd h (not_unPackShort hlib.short.width_eq (another_ne .short) hvs)
  | ushort => exact absurd h (not_unPackShort hlib.u_short.width_eq (another_ne .ushort) hvs)
  | bool =>
      have hmoved := unPackBool_moves hlen hb hpos hp h
      have hstep : Values.step ⟨.bool, vs⟩ = 4 := if_neg (by simpa using hvs)
      rw [hstep]
      exact ⟨trivial, ⟨by decide, dvd_rfl⟩, hmoved⟩
  | char =>
      obtain ⟨hsmall, hmoved⟩ := unPackChars_moves hlen hb hpos hp h
      rw [List.length_map] at hsmall hmoved
      exact ⟨trivial, ⟨hsmall, hround _⟩, hmoved⟩
  | uchar =>
      obtain ⟨hsmall, hmoved⟩ := unPackChars_moves hlen hb hpos hp h
      rw [List.length_map] at hsmall hmoved
      exact ⟨trivial, ⟨hsmall, hround _⟩, hmoved⟩
  | schar =>
      obtain ⟨hsmall, hmoved⟩ := unPackChars_moves hlen hb hpos hp h
      rw [List.length_map] at hsmall hmoved
      exact ⟨trivial, ⟨hsmall, hround _⟩, hmoved⟩

lemma unPackAll_moves (hlib : lib.Documented) (vs : List Values) :
    ∀ {b b' : PopBuffer} {p : ℕ}, Aligned b → b.unpackpos = p → 4 ∣ p →
      unPackAll lib (vs.map Values.another) b = .ok vs b' →
      (∀ v ∈ vs, v.NoShorts ∧ v.step < 2 ^ 31) ∧
        b' = { b with unpackpos := (p + (vs.map Values.step).sum : ℕ) } := by
  induction vs with
  | nil =>
      intro b b' p _ hpos _ h
      cases h
      refine ⟨fun v hv => absurd hv List.not_mem_nil, ?_⟩
      rw [List.map_nil, List.sum_nil, Nat.add_zero, ← hpos]
  | cons v vs ih =>
      intro b b' p hb hpos hp h
      obtain ⟨vals, b₁, hfirst, htail⟩ := BufM.bind_eq_ok.mp h
      obtain ⟨us, b₂, hrest, hend⟩ := BufM.bind_eq_ok.mp htail
      obtain ⟨hcons, rfl⟩ := Result.ok.inj hend
      obtain ⟨hv, rfl⟩ := List.cons.inj hcons
      obtain ⟨k, vals'⟩ := v
      have hv : (⟨k, vals⟩ : Values) = ⟨k, vals'⟩ := hv
      cases hv
      obtain ⟨hshorts, ⟨hsmall, hdvd⟩, rfl⟩ := unPack_eq_ok hlib hb hpos hp hfirst
      obtain ⟨hall, rfl⟩ := ih (b := { b with unpackpos := (p + Values.step ⟨k, vals'⟩ : ℕ) })
        ⟨hb.lt, hb.dvd⟩ rfl (Nat.dvd_add hp hdvd) hrest
      refine ⟨List.forall_mem_cons.mpr ⟨⟨hshorts, hsmall⟩, hall⟩, ?_⟩
      rw [List.map_cons, List.sum_cons, Nat.add_assoc]

lemma pack_aligned (hlib : lib.Documented) {k : Kind} {vs : List k.Val} {u : Unit}
    {b b' : PopBuffer} (hb : Aligned b) (h : pack lib k vs b = .ok u b') :
    Aligned b' ∧ b'.unpackpos = b.unpackpos := by
  cases layout hlib k with
  | numbers P w hk =>
      rw [hk.pack_eq] at h
      exact packVector_aligned (dvd_words (Int.natCast_dvd_natCast.mpr hk.dvd)) hb h
  | short => exact packVector_aligned dvd_align2 hb h
  | ushort => exact packVector_aligned dvd_align2 hb h
  | bool => exact packChar_aligned hb h
  | char => exact packChar_aligned hb h
  | uchar => exact packChar_aligned hb h
  | schar => exact packChar_aligned hb h

lemma packAll_aligned (hlib : lib.Documented) (vs : List Values) :
    ∀ {b b' : PopBuffer} {u : Unit}, Aligned b → packAll lib vs b = .ok u b' →
      Aligned b' ∧ b'.unpackpos = b.unpackpos := by
  induction vs with
  | nil =>
      intro b b' u hb h
      cases h
      exact ⟨hb, rfl⟩
  | cons v vs ih =>
      intro b b' u hb h
      obtain ⟨_, b₁, hfirst, hrest⟩ := BufM.bind_eq_ok.mp h
      obtain ⟨hb₁, hpos₁⟩ := pack_aligned hlib hb hfirst
      obtain ⟨hb', hpos'⟩ := ih hb₁ hrest
      exact ⟨hb', hpos'.trans hpos₁⟩

/-- What is appended, when it is known that there was room. -/
lemma Appends.length_eq {m : BufM Unit} {bs : List UInt8} (h : Appends m bs) {u : Unit}
    {b b' : PopBuffer} (hroom : b.packeddata.length + bs.length < 2 ^ 31) (hm : m b = .ok u b') :
    b'.packeddata.length = b.packeddata.length + bs.length := by
  rw [h b hroom] at hm
  cases hm
  rw [List.length_append]

lemma packChar_length {data : List UInt8} {u : Unit} {b b' : PopBuffer} (hb : Aligned b)
    (h : packChar data b = .ok u b') :
    b'.packeddata.length = b.packeddata.length + roundUp4 data.length := by
  by_cases hdata : data = []
  · subst hdata
    cases h
    rfl
  · have hlt := hb.lt
    have hroom := packChar_eq_ok hdata (by omega) h
    rw [← length_pad4 data] at hroom ⊢
    exact Appends.length_eq (packChar_appends data) hroom h

lemma pack_length (hlib : lib.Documented) {v : Values} (hfits : XdrFits (.array v.kind v.vals))
    (hshorts : v.NoShorts) (hsmall : v.step < 2 ^ 31) {u : Unit} {b b' : PopBuffer}
    (hb : Aligned b) (h : pack lib v.kind v.vals b = .ok u b') :
    b'.packeddata.length = b.packeddata.length + v.size := by
  obtain ⟨k, vs⟩ := v
  cases layout hlib k with
  | numbers P w hk =>
      obtain ⟨enc, hcarries⟩ := hk.carries vs hfits
      rw [hk.step_eq] at hsmall
      rw [hk.pack_eq] at h
      have hroom := room_of_packVector hk.dvd hb hsmall h
      rw [hk.size_eq, ← hcarries.length_flatMap]
      rw [← hcarries.length_flatMap] at hroom
      exact Appends.length_eq (packVector_words_appends hcarries) hroom h
  | short =>
      obtain rfl : vs = [] := List.eq_nil_of_length_eq_zero hshorts
      cases h
      rfl
  | ushort =>
      obtain rfl : vs = [] := List.eq_nil_of_length_eq_zero hshorts
      cases h
      rfl
  | bool =>
      have hlen := packChar_length hb h
      rwa [List.length_map] at hlen
  | char => exact packChar_length hb h
  | uchar => exact packChar_length hb h
  | schar => exact packChar_length hb h

lemma packAll_length (hlib : lib.Documented) (vs : List Values)
    (hfits : ∀ v ∈ vs, XdrFits (.array v.kind v.vals))
    (hmoves : ∀ v ∈ vs, v.NoShorts ∧ v.step < 2 ^ 31) :
    ∀ {b b' : PopBuffer} {u : Unit}, Aligned b → packAll lib vs b = .ok u b' →
      b'.packeddata.length = b.packeddata.length + (vs.map Values.size).sum := by
  induction vs with
  | nil =>
      intro b b' u _ h
      cases h
      rfl
  | cons v vs ih =>
      intro b b' u hb h
      obtain ⟨_, b₁, hfirst, hrest⟩ := BufM.bind_eq_ok.mp h
      obtain ⟨hshorts, hsmall⟩ := hmoves v List.mem_cons_self
      have hlen := pack_length hlib (hfits v List.mem_cons_self) hshorts hsmall hb hfirst
      have hlen' := ih (fun u hu => hfits u (List.mem_cons_of_mem v hu))
        (fun u hu => hmoves u (List.mem_cons_of_mem v hu)) (pack_aligned hlib hb hfirst).1 hrest
      rw [hlen', hlen, List.map_cons, List.sum_cons, Nat.add_assoc]

lemma Values.step_le_size (v : Values) : v.step ≤ v.size := by
  obtain ⟨k, vs⟩ := v
  cases k with
  | bool =>
      simp only [Values.step, Values.size, roundUp4]
      split_ifs <;> omega
  | _ => exact le_rfl

/-- An array of more than 4 `bool`s is longer than the move over it. -/
lemma Values.intact_of_step_eq {v : Values} (hshorts : v.NoShorts) (h : v.step = v.size) :
    v.Intact := by
  obtain ⟨k, vs⟩ := v
  cases k with
  | bool =>
      simp only [Values.step, Values.size, roundUp4] at h
      show vs.length ≤ 4
      split_ifs at h <;> omega
  | short => exact hshorts
  | ushort => exact hshorts
  | _ => trivial

lemma sum_step_le (vs : List Values) : (vs.map Values.step).sum ≤ (vs.map Values.size).sum := by
  induction vs with
  | nil => exact le_rfl
  | cons v vs ih => exact Nat.add_le_add v.step_le_size ih

/-- If the moves are together as long as the arrays, then each is as long as its array. -/
lemma step_eq_of_sum_eq {vs : List Values}
    (h : (vs.map Values.step).sum = (vs.map Values.size).sum) :
    ∀ v ∈ vs, v.step = v.size := by
  induction vs with
  | nil => exact fun v hv => absurd hv List.not_mem_nil
  | cons v vs ih =>
      have hle := sum_step_le vs
      have hv := v.step_le_size
      simp only [List.map_cons, List.sum_cons] at h
      exact List.forall_mem_cons.mpr ⟨by omega, ih (by omega)⟩

/-- **When the arrays come back.**  Whatever is in the arrays into which it is unpacked, a
sequence of arrays is returned and ends at the end of the buffer exactly if it has no shorts, no
array of more than 4 `bool`s, and a size that is an `int`. -/
theorem mpi_round_trip_iff (lib : XdrLib) (hlib : lib.Documented) (hd : Header) (vs : List Values)
    (hfits : ∀ v ∈ vs, XdrFits (.array v.kind v.vals)) :
    RoundTrips lib hd vs ↔
      (∀ v ∈ vs, v.Intact) ∧ 20 + (vs.map Values.size).sum < 2 ^ 31 := by
  have hempty : (empty hd).packeddata.length = 20 := rfl
  constructor
  · rintro ⟨b, hpack, hunpack⟩
    obtain ⟨b', hback, hend⟩ := hunpack _ (matches_another vs)
    have haligned : Aligned (empty hd) :=
      ⟨by rw [hempty]; decide, by rw [hempty]; decide⟩
    obtain ⟨hb, hpos⟩ := packAll_aligned hlib vs haligned hpack
    obtain ⟨hmoves, rfl⟩ := unPackAll_moves hlib vs (p := 20) hb hpos (by decide) hback
    have hlen := packAll_length hlib vs hfits hmoves haligned hpack
    have hlt := hb.lt
    rw [hempty] at hlen
    have hsum : (vs.map Values.step).sum = (vs.map Values.size).sum := by
      have hend' : ((20 + (vs.map Values.step).sum : ℕ) : ℤ) = b.packeddata.length := hend
      omega
    refine ⟨fun v hv => ?_, by omega⟩
    exact Values.intact_of_step_eq (hmoves v hv).1 (step_eq_of_sum_eq hsum v hv)
  · rintro ⟨hintact, hsize⟩
    obtain ⟨bs, hbs, happ, hread⟩ := codes_all hlib hfits hintact
    have hpacked := happ (empty hd) (by omega)
    refine ⟨_, hpacked, fun ts hts => ⟨_, hread ts hts _ (empty hd).packeddata [] (by simp) rfl
      (by simp only [List.length_append]; omega), ?_⟩⟩
    simp only [List.length_append]

/-- A negative `long`, three `bool`s, five characters and an empty array of shorts. -/
def sampleValues : List Values :=
  [⟨.long, [BitVec.ofInt 64 (-2)]⟩, ⟨.bool, [true, false, true]⟩,
    ⟨.char, [104, 101, 108, 108, 111]⟩, ⟨.short, []⟩, ⟨.double, [1]⟩]

theorem mpi_round_trip_iff_sampleValues :
    RoundTrips XdrLib.standard ⟨0, 0, 0, 0, 0⟩ sampleValues := by
  refine (mpi_round_trip_iff _ XdrLib.standard_documented _ sampleValues ?_).mpr ⟨?_, by decide⟩
  · simp [sampleValues, XdrFits]
  · simp [sampleValues, Values.Intact]

/-- There is a window of 2 bytes for a short, and the library takes 4: the short into which it is
unpacked keeps its value. -/
theorem mpi_short_lost : ¬RoundTrips XdrLib.standard ⟨0, 0, 0, 0, 0⟩ [⟨.short, [1]⟩] := by
  rintro ⟨b, -, hunpack⟩
  obtain ⟨b', hback, -⟩ := hunpack [⟨.short, [7]⟩] (.cons ⟨rfl, rfl⟩ .nil)
  obtain ⟨vals, b₁, hshort, hrest⟩ := BufM.bind_eq_ok.mp hback
  obtain ⟨us, b₂, -, hend⟩ := BufM.bind_eq_ok.mp hrest
  obtain ⟨hcons, -⟩ := Result.ok.inj hend
  cases hcons
  have hne : ∀ v : BitVec 16, v + 6 ≠ v := fun v => by simp
  exact not_unPackShort XdrLib.standard_documented.short.width_eq hne (List.cons_ne_nil 1 []) hshort

end Arrives

end XdrMpi

end PopCpp.Buffer
