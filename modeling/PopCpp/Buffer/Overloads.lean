/-
# The overloads of `Pack` and `UnPack`

A vector is packed through the overload of `Pack` for arrays of its elements, whatever these are.
An overload is given here by what it does with an array, and `UnPack` also by what the array held
before.  `Exact` says exactly when an overload restores an array; it is proved for all the
overloads of arithmetic types and of strings, in each kind of buffer.  A count of bytes that is
no `int` is cut by the raw buffer and by the MPI buffer: these move the first elements only.
-/
import PopCpp.Buffer.Windows

namespace PopCpp.Buffer

open Bytes CInt

/-- `Pack` and `UnPack` for arrays of a type. -/
structure Overload (T : Type) where
  pack : List T → BufM Unit
  /-- It is given what the array holds before. -/
  unPack : List T → BufM (List T)
  /-- A new element of a vector. -/
  fresh : T

/-- What an array holds after its first elements have been written. -/
def overwrite {T : Type} (old vs : List T) : List T := vs ++ old.drop vs.length

namespace Overload

/-- The arithmetic types, in the raw and in the XDR buffer. -/
def array (F : Format) (k : Kind) : Overload k.Val where
  pack := F.pack k
  unPack old := do
    let vs ← F.unPack k old.length
    pure (overwrite old vs)
  fresh := k.ofBytes []

/-- The arithmetic types, in the MPI buffer. -/
def mpiArray (lib : XdrLib) (k : Kind) : Overload k.Val where
  pack := XdrMpi.pack lib k
  unPack := XdrMpi.unPack lib k
  fresh := k.ofBytes []

lemma array_pack (F : Format) (k : Kind) : (array F k).pack = F.pack k := rfl

lemma array_unPack (F : Format) (k : Kind) (old : List k.Val) :
    (array F k).unPack old = F.unPack k old.length >>= fun vs => pure (overwrite old vs) :=
  rfl

/-- `std::string`. -/
def string (F : Format) : Overload (List UInt8) where
  pack := packStrings F
  unPack old := unPackStrings F old.length
  fresh := []

end Overload

/-! ### Calls that only read -/

/-- A call that returned has left the bytes as they are, and the position an `int`. -/
def OnlyReads {α : Type} (u : BufM α) : Prop :=
  ∀ b v b', u b = .ok v b' → b'.packeddata = b.packeddata ∧ (Fits b.unpackpos → Fits b'.unpackpos)

section OnlyReads

variable {α β : Type}

lemma OnlyReads.pure (v : α) : OnlyReads (pure v) := by
  intro b w b' h
  obtain ⟨-, rfl⟩ : v = w ∧ b = b' := by simpa using h
  exact ⟨rfl, id⟩

lemma OnlyReads.bind {u : BufM α} {f : α → BufM β} (h : OnlyReads u) (h' : ∀ v, OnlyReads (f v)) :
    OnlyReads (u >>= f) := by
  intro b w b'' hw
  obtain ⟨v, b', hfirst, hsecond⟩ := BufM.bind_eq_ok.mp hw
  obtain ⟨hdata, hpos⟩ := h b v b' hfirst
  obtain ⟨hdata', hpos'⟩ := h' v b' w b'' hsecond
  exact ⟨hdata'.trans hdata, fun hfits => hpos' (hpos hfits)⟩

lemma OnlyReads.map {u : BufM α} (h : OnlyReads u) (f : α → β) :
    OnlyReads (u >>= fun v => Pure.pure (f v)) :=
  h.bind fun v => OnlyReads.pure (f v)

lemma OnlyReads.undefined : OnlyReads (fun _ => .undefined : BufM α) := by
  intro b v b' h
  cases h

lemma onlyReads_this : OnlyReads this := by
  intro b v b' h
  cases h
  exact ⟨rfl, id⟩

lemma onlyReads_advance (k : ℤ) : OnlyReads (advance k) := by
  intro b v b' h
  cases h
  exact ⟨rfl, fun _ => fits_wrap _⟩

lemma onlyReads_checkUnPack (reason : String) (sz : ℤ) : OnlyReads (checkUnPack reason sz) := by
  intro b v b' h
  obtain rfl := checkUnPack_eq_ok h
  exact ⟨rfl, id⟩

lemma onlyReads_load (pos : ℤ) (n : ℕ) : OnlyReads (load pos n) := by
  intro b v b' h
  obtain ⟨-, rfl⟩ := load_eq_ok h
  exact ⟨rfl, id⟩

lemma onlyReads_decode (P : XdrProc α) (reason : String) (sz n : ℤ) :
    OnlyReads (decode P reason sz n) := by
  intro b v b' h
  rw [decode] at h
  split at h
  · cases h
    exact ⟨rfl, id⟩
  · cases h
  · cases h

lemma onlyReads_unPackChar (reason : String) (n : ℤ) : OnlyReads (unPackChar reason n) := by
  rw [unPackChar]
  split
  · exact OnlyReads.pure []
  · refine (onlyReads_checkUnPack reason n).bind fun _ => onlyReads_this.bind fun b => ?_
    exact (onlyReads_load b.unpackpos n.toNat).bind fun bs => (onlyReads_advance _).map fun _ => bs

lemma onlyReads_unPackVector (P : XdrProc α) (width : ℤ) (reason : String) (n : ℤ) :
    OnlyReads (unPackVector P width reason n) := by
  rw [unPackVector]
  split
  · exact OnlyReads.pure []
  · refine (onlyReads_checkUnPack _ _).bind fun _ => ?_
    refine (onlyReads_decode P reason _ n).bind fun vs => ?_
    exact (onlyReads_advance _).map fun _ => vs

lemma XdrMpi.onlyReads_unPackVector (P : XdrProc α) (window step : ℤ → ℤ) (data : List α) :
    OnlyReads (XdrMpi.unPackVector P window step data) := by
  rw [XdrMpi.unPackVector]
  split
  · exact OnlyReads.pure data
  · refine (onlyReads_checkUnPack _ _).bind fun _ => onlyReads_this.bind fun b => ?_
    simp only
    split
    · exact (onlyReads_advance _).map fun _ => _
    · exact OnlyReads.undefined

/-- The bytes of `bool`s. -/
lemma onlyReads_bytes (reason : String) (n k : ℤ) (f : List UInt8 → β) :
    OnlyReads (checkUnPack reason n >>= fun _ => this >>= fun b => load b.unpackpos n.toNat >>=
      fun bs => advance k >>= fun _ => Pure.pure (f bs)) := by
  refine (onlyReads_checkUnPack reason n).bind fun _ => onlyReads_this.bind fun b => ?_
  exact (onlyReads_load b.unpackpos n.toNat).bind fun bs => (onlyReads_advance k).map fun _ => f bs

lemma onlyReads_raw (k : Kind) (n : ℤ) : OnlyReads (raw.unPack k n) := by
  rw [raw_unPack]
  exact (onlyReads_unPackChar _ _).map _

lemma onlyReads_xdr (lib : XdrLib) (k : Kind) (n : ℤ) : OnlyReads ((xdr lib).unPack k n) := by
  cases k with
  | int => exact onlyReads_unPackVector lib.xdr_int 4 _ n
  | unsigned => exact onlyReads_unPackVector lib.xdr_u_int 4 _ n
  | long => exact onlyReads_unPackVector lib.xdr_long 8 _ n
  | ulong => exact onlyReads_unPackVector lib.xdr_u_long 8 _ n
  | short => exact onlyReads_unPackVector lib.xdr_short 4 _ n
  | ushort => exact onlyReads_unPackVector lib.xdr_u_short 4 _ n
  | bool =>
      show OnlyReads (Xdr.unPackBool n)
      rw [Xdr.unPackBool]
      split
      · exact OnlyReads.pure []
      · exact onlyReads_bytes _ n _ _
  | char => exact onlyReads_unPackChar _ n
  | uchar => exact onlyReads_unPackChar _ n
  | schar => exact onlyReads_unPackChar _ n
  | float => exact onlyReads_unPackVector lib.xdr_float 4 _ n
  | double => exact onlyReads_unPackVector lib.xdr_double 8 _ n

lemma XdrMpi.onlyReads_unPack (lib : XdrLib) (k : Kind) (old : List k.Val) :
    OnlyReads (XdrMpi.unPack lib k old) := by
  cases k with
  | int => exact XdrMpi.onlyReads_unPackVector lib.xdr_int _ _ old
  | unsigned => exact XdrMpi.onlyReads_unPackVector lib.xdr_u_int _ _ old
  | long => exact XdrMpi.onlyReads_unPackVector lib.xdr_long _ _ old
  | ulong => exact XdrMpi.onlyReads_unPackVector lib.xdr_u_long _ _ old
  | short => exact XdrMpi.onlyReads_unPackVector lib.xdr_short _ _ old
  | ushort => exact XdrMpi.onlyReads_unPackVector lib.xdr_u_short _ _ old
  | bool =>
      show OnlyReads (XdrMpi.unPackBool old)
      rw [XdrMpi.unPackBool]
      split
      · exact OnlyReads.pure old
      · exact onlyReads_bytes _ _ _ _
  | char => exact onlyReads_unPackChar _ _
  | uchar => exact onlyReads_unPackChar _ _
  | schar => exact onlyReads_unPackChar _ _
  | float => exact XdrMpi.onlyReads_unPackVector lib.xdr_float _ _ old
  | double => exact XdrMpi.onlyReads_unPackVector lib.xdr_double _ _ old

lemma Implemented.onlyReads {F : Format} (h : Implemented F) (k : Kind) (n : ℤ) :
    OnlyReads (F.unPack k n) := by
  cases h with
  | raw => exact onlyReads_raw k n
  | xdr _ => exact onlyReads_xdr _ k n
  | mpi _ stale => exact fun b => XdrMpi.onlyReads_unPack _ k (stale.vals b k n.toNat) b

lemma Implemented.onlyReads_int1 {F : Format} (h : Implemented F) : OnlyReads (unPackInt1 F) :=
  (h.onlyReads .int 1).map _

lemma Implemented.onlyReads_string {F : Format} (h : Implemented F) :
    OnlyReads (unPackString F) := by
  refine h.onlyReads_int1.bind fun len => ?_
  split
  · refine (h.onlyReads .char len).bind fun tmpstr => ?_
    rw [assignString]
    split
    · exact OnlyReads.pure _
    · exact OnlyReads.undefined
  · exact OnlyReads.pure []

lemma Implemented.onlyReads_strings {F : Format} (h : Implemented F) (n : ℕ) :
    OnlyReads (unPackStrings F n) := by
  induction n with
  | zero => exact OnlyReads.pure []
  | succ n ih => exact h.onlyReads_string.bind fun s => ih.map (s :: ·)

end OnlyReads

/-! ### Arrays that come back -/

namespace Overload

variable {T : Type}

/-- An array is packed at the end of a buffer `b`, which leaves `b'`; the bytes from there on are
unpacked again, into `old`, up to the end. -/
structure Trip (o : Overload T) (vs old : List T) (b b' c c' : PopBuffer) : Prop where
  start : b.packeddata.length < 2 ^ 31
  pack : o.pack vs b = .ok () b'
  data : c.packeddata = b'.packeddata
  pos : c.unpackpos = b.packeddata.length
  unPack : o.unPack old c = .ok vs c'
  finish : c'.unpackpos = b'.packeddata.length

/-- When exactly an array comes back, and how many bytes it takes. -/
structure Exact (o : Overload T) (size : List T → ℕ) (Fit : List T → List T → Prop) : Prop where
  onlyReads : ∀ old, OnlyReads (o.unPack old)
  length : ∀ old, Returns (o.unPack old) fun vs => vs.length = old.length
  carries : ∀ vs old, vs ≠ [] → vs.length < 2 ^ 31 → old.length = vs.length → Fit vs old →
    Carries (o.pack vs) (o.unPack old) (size vs) vs
  needs : ∀ vs old b b' c c', vs ≠ [] → vs.length < 2 ^ 31 → old.length = vs.length →
    c.packeddata.length < 2 ^ 31 → o.Trip vs old b b' c c' →
    Fit vs old ∧ b.packeddata.length + size vs < 2 ^ 31

/-- Strings come back if they have no NUL. -/
lemma exact_string {F : Format} (hF : Implemented F) :
    (string F).Exact (fun ss => (ss.map stringSize).sum) fun ss _ => ∀ s ∈ ss, 0 ∉ s where
  onlyReads old := hF.onlyReads_strings old.length
  length old := by
    have hlength : ∀ n, Returns (unPackStrings F n) fun ss => ss.length = n := by
      intro n
      induction n with
      | zero => exact Returns.pure rfl
      | succ n ih =>
          refine (Returns.trivial _).bind fun s _ => ih.bind fun ss hss => Returns.pure ?_
          rw [List.length_cons, hss]
    exact hlength old.length
  carries ss old _ _ hold hnul := by
    have hcarries := hF.transports.strings hnul
    rwa [← hold] at hcarries
  needs ss old b b' c c' _ _ _ _ h := by
    have hnul := Format.Transports.returnsString_nulFree.strings old.length c c' ss h.unPack
    have hlen := hF.transports.returnsString.strings old.length c c' ss h.unPack
    exact ⟨hnul, hF.transports.room_of_packStrings hlen h.start h.pack⟩

lemma overwrite_take_drop {vs old : List T} {j : ℕ} (hj : j ≤ vs.length)
    (h : vs.drop j = old.drop j) : overwrite old (vs.take j) = vs := by
  rw [overwrite, List.length_take, Nat.min_eq_left hj, ← h, List.take_append_drop]

lemma drop_of_overwrite {vs ws old : List T} {j : ℕ} (hj : ws.length = j)
    (h : overwrite old ws = vs) : vs.drop j = old.drop j := by
  rw [← h, overwrite, List.drop_append, List.drop_eq_nil_of_le hj.le, hj, Nat.sub_self,
    List.drop_zero, List.nil_append]

end Overload

/-! ### The raw buffer -/

section Raw

variable (k : Kind)

/-- How many elements of `n` are moved: so many as the number of bytes has, once it is an `int`. -/
def Raw.moved (n : ℕ) : ℕ := (wrap (n * k.size)).toNat / k.size

lemma Raw.moved_mul (n : ℕ) : Raw.moved k n * k.size = (wrap (n * k.size)).toNat := by
  cases k <;> simp only [Raw.moved, Kind.size, wrap] <;> omega

lemma Raw.moved_le (n : ℕ) : Raw.moved k n ≤ n := by
  have hcast : ((n * k.size : ℕ) : ℤ) = (n : ℤ) * k.size := Nat.cast_mul ..
  have hle : wrap ((n : ℤ) * k.size) ≤ n * k.size := wrap_le (by omega)
  have hmul : Raw.moved k n * k.size ≤ n * k.size := by
    rw [Raw.moved_mul]
    omega
  exact Nat.le_of_mul_le_mul_right hmul k.size_pos

lemma Raw.moved_mul_lt (n : ℕ) : Raw.moved k n * k.size < 2 ^ 31 := by
  have hfits := fits_wrap ((n : ℤ) * k.size)
  simp only [Fits] at hfits
  rw [Raw.moved_mul]
  omega

lemma Kind.take_flatMap_bytes (vs : List k.Val) (j : ℕ) :
    (vs.flatMap k.bytes).take (j * k.size) = (vs.take j).flatMap k.bytes := by
  induction vs generalizing j with
  | nil => simp
  | cons v vs ih =>
      cases j with
      | zero => simp
      | succ j =>
          have hlen := k.length_bytes v
          have hsize : (j + 1) * k.size = (k.bytes v).length + j * k.size := by
            rw [hlen]
            ring
          rw [List.flatMap_cons, List.take_succ_cons, List.flatMap_cons, hsize,
            List.take_length_add_append, ih]

lemma raw_pack_moved (vs : List k.Val) :
    raw.pack k vs = raw.pack k (vs.take (Raw.moved k vs.length)) := by
  have hlen : (vs.take (Raw.moved k vs.length)).length = Raw.moved k vs.length := by
    rw [List.length_take, Nat.min_eq_left (Raw.moved_le k _)]
  have hlt : (vs.take (Raw.moved k vs.length)).length * k.size < 2 ^ 31 := by
    rw [hlen]
    exact Raw.moved_mul_lt k vs.length
  rw [raw_pack_eq hlt, raw_pack, Raw.pack, ← Raw.moved_mul, k.take_flatMap_bytes]

lemma raw_unPack_moved (n : ℕ) : raw.unPack k n = raw.unPack k (Raw.moved k n) := by
  have hlt := Raw.moved_mul_lt k n
  have hwrap : wrap ((Raw.moved k n : ℤ) * k.size) = (Raw.moved k n * k.size : ℕ) := by
    rw [← Nat.cast_mul]
    exact wrap_natCast (by omega)
  rw [raw_unPack, Raw.unPack, Raw.unPack, hwrap, Raw.moved_mul]
  rcases le_or_gt (wrap ((n : ℤ) * k.size)) 0 with hneg | hpos
  · rw [unPackChar, unPackChar, if_pos hneg, if_pos (by omega)]
  · rw [Int.toNat_of_nonneg hpos.le]

lemma length_rawUnPack (n : ℕ) : Returns (raw.unPack k n) fun vs => vs.length = Raw.moved k n := by
  intro b b' vs h
  rw [raw_unPack_moved, raw_unPack, Raw.unPack] at h
  obtain ⟨bs, b₁, hbs, h⟩ := BufM.bind_eq_ok.mp h
  obtain ⟨rfl, -⟩ : k.elements (bs.length / k.size) bs = vs ∧ b₁ = b' := by simpa using h
  have hlt := Raw.moved_mul_lt k n
  have hwrap : wrap ((Raw.moved k n : ℤ) * k.size) = (Raw.moved k n * k.size : ℕ) := by
    rw [← Nat.cast_mul]
    exact wrap_natCast (by omega)
  rw [hwrap] at hbs
  have hlen : bs.length = Raw.moved k n * k.size := by
    rcases Nat.eq_zero_or_pos (Raw.moved k n * k.size) with h0 | hpos
    · rw [h0, unPackChar, if_pos (by simp)] at hbs
      obtain ⟨rfl, -⟩ : [] = bs ∧ b = b₁ := by simpa using hbs
      rw [h0, List.length_nil]
    · rw [length_unPackChar (by omega) hbs, Int.toNat_natCast]
  rw [k.length_elements, hlen, Nat.mul_div_cancel _ k.size_pos]

/-- An array comes back if the elements that are not moved are there already. -/
lemma exact_raw : (Overload.array raw k).Exact
    (fun vs => roundUp4 (Raw.moved k vs.length * k.size))
    (fun vs old => vs.drop (Raw.moved k vs.length) = old.drop (Raw.moved k vs.length)) where
  onlyReads old := (onlyReads_raw k old.length).map _
  length old := by
    refine (length_rawUnPack k old.length).bind fun vs hvs => Returns.pure ?_
    have hle := Raw.moved_le k old.length
    rw [overwrite, List.length_append, List.length_drop, hvs]
    omega
  carries vs old _ _ hold hfit := by
    have hle := Raw.moved_le k vs.length
    have hlen : (vs.take (Raw.moved k vs.length)).length = Raw.moved k vs.length := by
      rw [List.length_take, Nat.min_eq_left hle]
    have hcarries := (carries_raw k (vs.take (Raw.moved k vs.length))).map (overwrite old)
    rw [hlen, Overload.overwrite_take_drop hle hfit, ← raw_pack_moved, ← raw_unPack_moved]
      at hcarries
    rw [Overload.array_pack, Overload.array_unPack, hold]
    exact hcarries
  needs vs old b b' c c' _ _ hold _ h := by
    obtain ⟨ws, c₁, hws, hend⟩ := BufM.bind_eq_ok.mp h.unPack
    obtain ⟨hvs, -⟩ : overwrite old ws = vs ∧ c₁ = c' := by simpa using hend
    rw [hold] at hws
    refine ⟨Overload.drop_of_overwrite (length_rawUnPack k vs.length _ _ _ hws) hvs, ?_⟩
    have hstart := h.start
    have hlen : (vs.take (Raw.moved k vs.length)).length = Raw.moved k vs.length := by
      rw [List.length_take, Nat.min_eq_left (Raw.moved_le k _)]
    have hbytes := k.length_flatMap_bytes (vs.take (Raw.moved k vs.length))
    rw [hlen] at hbytes
    have hpack : packChar ((vs.take (Raw.moved k vs.length)).flatMap k.bytes) b = .ok () b' := by
      rw [← raw_pack_eq (by rw [hlen]; exact Raw.moved_mul_lt k _), ← raw_pack_moved,
        ← Overload.array_pack]
      exact h.pack
    rw [← hbytes]
    rcases List.eq_nil_or_concat ((vs.take (Raw.moved k vs.length)).flatMap k.bytes) with hnil | hne
    · rw [hnil, List.length_nil, show roundUp4 0 = 0 from rfl]
      omega
    · refine packChar_eq_ok ?_ (by omega) hpack
      obtain ⟨l, a, hconcat⟩ := hne
      simp [hconcat]

end Raw

/-! ### The XDR buffer -/

section Xdr

variable {lib : XdrLib}

lemma length_vectorGet {α : Type} {P : XdrProc α} {n window : ℕ} {bs : List UInt8} {vs : List α}
    (h : vectorGet P n window bs = .done vs) : vs.length = n := by
  induction n generalizing window bs vs with
  | zero =>
      obtain rfl : [] = vs := by simpa [vectorGet] using h
      rfl
  | succ n ih =>
      rw [vectorGet] at h
      split at h
      · cases h
      · split at h
        · cases h
        · split at h
          · cases h
          · split at h
            · next hrest =>
                cases h
                rw [List.length_cons, ih hrest]
            · cases h
            · cases h

lemma length_unPackVector {α : Type} (P : XdrProc α) (width : ℤ) (reason : String) (n : ℕ) :
    Returns (unPackVector P width reason n) fun vs => vs.length = n := by
  intro b b' vs h
  rw [unPackVector] at h
  split at h
  · obtain ⟨rfl, -⟩ : [] = vs ∧ b = b' := by simpa using h
    rw [List.length_nil]
    omega
  · obtain ⟨_, b₁, -, h⟩ := BufM.bind_eq_ok.mp h
    obtain ⟨ws, b₂, hws, h⟩ := BufM.bind_eq_ok.mp h
    obtain ⟨_, b₃, -, h⟩ := BufM.bind_eq_ok.mp h
    obtain ⟨rfl, -⟩ : ws = vs ∧ b₃ = b' := by simpa using h
    rw [decode, Int.toNat_natCast] at hws
    split at hws
    · next hget =>
        cases hws
        exact length_vectorGet hget
    · cases hws
    · cases hws

lemma length_unPackChars (reason : String) (n : ℕ) :
    Returns (unPackChar reason n) fun bs => bs.length = n := by
  intro b b' bs h
  rcases Nat.eq_zero_or_pos n with rfl | hpos
  · rw [unPackChar, if_pos (by simp)] at h
    obtain ⟨rfl, -⟩ : [] = bs ∧ b = b' := by simpa using h
    rfl
  · rw [length_unPackChar (by omega) h, Int.toNat_natCast]

lemma length_xdrUnPack {k : Kind} (hk : k ≠ .bool) (n : ℕ) :
    Returns ((xdr lib).unPack k n) fun vs => vs.length = n := by
  cases k with
  | int => exact length_unPackVector lib.xdr_int 4 _ n
  | unsigned => exact length_unPackVector lib.xdr_u_int 4 _ n
  | long => exact length_unPackVector lib.xdr_long 8 _ n
  | ulong => exact length_unPackVector lib.xdr_u_long 8 _ n
  | short => exact length_unPackVector lib.xdr_short 4 _ n
  | ushort => exact length_unPackVector lib.xdr_u_short 4 _ n
  | bool => exact absurd rfl hk
  | char => exact length_unPackChars _ n
  | uchar => exact length_unPackChars _ n
  | schar => exact length_unPackChars _ n
  | float => exact length_unPackVector lib.xdr_float 4 _ n
  | double => exact length_unPackVector lib.xdr_double 8 _ n

lemma overwrite_of_length {T : Type} {old vs : List T} (h : vs.length = old.length) :
    overwrite old vs = vs := by
  rw [overwrite, h, List.drop_length, List.append_nil]

/-- An array comes back if the library encodes all its elements. -/
lemma exact_xdr (hlib : lib.Documented) {k : Kind} (hk : k ≠ .bool) :
    (Overload.array (xdr lib) k).Exact (fun vs => xdrSize (.array k vs))
      (fun vs _ => XdrFits (.array k vs)) where
  onlyReads old := (onlyReads_xdr lib k old.length).map _
  length old := by
    refine (length_xdrUnPack hk old.length).bind fun vs hvs => Returns.pure ?_
    rw [overwrite_of_length hvs, hvs]
  carries vs old _ _ hold hfit := by
    obtain ⟨bs, hbs, happ, hread⟩ := codes_xdr_array hlib hfit fun hbool => absurd hbool hk
    have hread := hread.map (overwrite old)
    rw [overwrite_of_length hold.symm, ← hold] at hread
    exact ⟨bs, hbs, happ, hread⟩
  needs vs old b b' c c' _ _ hold _ h := by
    obtain ⟨ws, c₁, hws, hend⟩ := BufM.bind_eq_ok.mp h.unPack
    obtain ⟨hvs, rfl⟩ : overwrite old ws = vs ∧ c₁ = c' := by simpa using hend
    rw [overwrite_of_length (length_xdrUnPack hk old.length c c₁ ws hws)] at hvs
    rw [hvs, hold] at hws
    have hunPack : unPackItem (xdr lib) (Item.array k vs).shape c = .ok (.array k vs) c₁ :=
      BufM.bind_ok hws
    obtain ⟨hfits, -, hroom⟩ := item_eq_ok hlib h.start (i := .array k vs) h.pack hunPack h.pos
      h.finish
    exact ⟨hfits, hroom⟩

end Xdr

end PopCpp.Buffer
