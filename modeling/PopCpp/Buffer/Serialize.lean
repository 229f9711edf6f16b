/-
# Objects in a buffer

A class that can be passed to a method has a `Serialize`, which packs the members of an object
one after the other, or unpacks them into another object.  Three judgements about such calls,
each with its rules: `Carries` says that what is packed is unpacked again, `Takes` how much room
a call of `Pack` that returned has found, and `Returns` what holds of everything that a call of
`UnPack` returns.  The last part has them for what all objects are made of, in both encodings:
integers and floating point numbers, single flags and strings.
-/
import PopCpp.Buffer.BoolArray
import PopCpp.Buffer.Bounds

namespace PopCpp.Buffer

open Bytes CInt

variable {α β : Type}

/-! ### The judgements -/

/-- `p` appends `k` bytes, and where these are `u` reads `v` from them. -/
def Carries (p : BufM Unit) (u : BufM α) (k : ℕ) (v : α) : Prop :=
  ∃ bs, bs.length = k ∧ Appends p bs ∧ Reads u bs v

/-- A call of `p` that returned has appended `k` bytes to the buffer, or it leaves a buffer that
is too long for a message, by less than `c` bytes. -/
def Takes (p : BufM Unit) (k c : ℕ) : Prop :=
  ∀ b b' : PopBuffer, p b = .ok () b' →
    (b.packeddata.length < 2 ^ 31 →
      (b'.packeddata.length < 2 ^ 31 ∧ b'.packeddata.length = b.packeddata.length + k) ∨
        (2 ^ 31 ≤ b'.packeddata.length ∧ b'.packeddata.length < 2 ^ 31 + c)) ∧
    (2 ^ 31 ≤ b.packeddata.length → b.packeddata.length + c < 2 ^ 31 + 2 ^ 30 →
      2 ^ 31 ≤ b'.packeddata.length ∧ b'.packeddata.length ≤ b.packeddata.length + c)

/-- A call of `p` that returned has found room for `k` bytes in a message, also when it was made
on a buffer that was a little too long already. -/
def Fills (p : BufM Unit) (k : ℕ) : Prop :=
  ∀ b b' : PopBuffer, b.packeddata.length + 5 < 2 ^ 31 + 2 ^ 30 → p b = .ok () b' →
    b'.packeddata.length < 2 ^ 31 ∧ b'.packeddata.length = b.packeddata.length + k

/-- Everything that `u` returns satisfies `P`. -/
def Returns (u : BufM α) (P : α → Prop) : Prop := ∀ b b' v, u b = .ok v b' → P v

lemma bind_bind (p : BufM α) (f : α → BufM β) {γ : Type} (g : β → BufM γ) :
    p >>= f >>= g = p >>= fun v => f v >>= g := by
  funext b
  rw [BufM.bind_apply, BufM.bind_apply, BufM.bind_apply]
  cases p b <;> rfl

lemma Carries.pure (v : α) : Carries (pure ()) (pure v) 0 v := ⟨[], rfl, Appends.pure, Reads.pure v⟩

lemma Carries.bind {p p' : BufM Unit} {u : BufM α} {f : α → BufM β} {k k' : ℕ} {v : α} {w : β}
    (h : Carries p u k v) (h' : Carries p' (f v) k' w) :
    Carries (p >>= fun _ => p') (u >>= f) (k + k') w := by
  obtain ⟨bs, hbs, happ, hread⟩ := h
  obtain ⟨bs', hbs', happ', hread'⟩ := h'
  exact ⟨bs ++ bs', by rw [List.length_append, hbs, hbs'], happ.bind happ', hread.bind hread'⟩

lemma Carries.map {p : BufM Unit} {u : BufM α} {k : ℕ} {v : α} (h : Carries p u k v) (g : α → β) :
    Carries p (u >>= fun x => Pure.pure (g x)) k (g v) := by
  obtain ⟨bs, hbs, happ, hread⟩ := h
  exact ⟨bs, hbs, happ, hread.map g⟩

/-- What is packed into an empty buffer is unpacked from it, and nothing is left. -/
lemma Carries.of_empty {p : BufM Unit} {u : BufM α} {k : ℕ} {v : α} (h : Carries p u k v)
    (hk : 20 + k < 2 ^ 31) (hd : Header) :
    ∃ b b', p (empty hd) = .ok () b ∧ b.packeddata.length = 20 + k ∧ u b = .ok v b' ∧
      b'.unpackpos = b.packeddata.length := by
  obtain ⟨bs, hbs, happ, hread⟩ := h
  have hlen : (empty hd).packeddata.length = 20 := rfl
  have hpacked := happ (empty hd) (by omega)
  have hback := hread { empty hd with packeddata := (empty hd).packeddata ++ bs }
    (empty hd).packeddata [] (by simp) rfl (by rw [List.length_append]; omega)
  exact ⟨_, _, hpacked, by rw [List.length_append, hlen, hbs], hback, by rw [List.length_append]⟩

lemma Takes.pure : Takes (pure ()) 0 0 := by
  intro b b' h
  obtain rfl : b = b' := by simpa using h
  omega

lemma Takes.mono {p : BufM Unit} {k c c' : ℕ} (h : Takes p k c) (hc : c ≤ c') : Takes p k c' := by
  intro b b' hp
  have := h b b' hp
  omega

lemma Takes.bind {p p' : BufM Unit} {k k' c c' : ℕ} (h : Takes p k c) (h' : Takes p' k' c')
    (hc : c + c' < 2 ^ 30) : Takes (p >>= fun _ => p') (k + k') (c + c') := by
  intro b b'' hp
  obtain ⟨_, b', hfirst, hsecond⟩ := BufM.bind_eq_ok.mp hp
  have h1 := h b b' hfirst
  have h2 := h' b' b'' hsecond
  omega

/-- The same for a single number, or what is no worse. -/
lemma Takes.next {p p' : BufM Unit} {k k' c : ℕ} (h : Takes p k 5) (h' : Takes p' k' c)
    (hc : c + 5 < 2 ^ 30) : Takes (p >>= fun _ => p') (k + k') (c + 5) := by
  rw [Nat.add_comm c]
  exact h.bind h' (by omega)

lemma Fills.takes {p : BufM Unit} {k c : ℕ} (h : Fills p k) (hc : 5 ≤ c) : Takes p k c := by
  intro b b' hp
  have := fun hb => h b b' hb hp
  omega

lemma Fills.bind {p p' : BufM Unit} {k k' c : ℕ} (h : Fills p k) (h' : Takes p' k' c)
    (hc : 5 ≤ c) : Takes (p >>= fun _ => p') (k + k') c := by
  intro b b'' hp
  obtain ⟨_, b', hfirst, hsecond⟩ := BufM.bind_eq_ok.mp hp
  have h1 := fun hb => h b b' hb hfirst
  have h2 := h' b' b'' hsecond
  omega

/-- A message that was packed has had room for everything. -/
lemma Takes.room {p : BufM Unit} {k c : ℕ} (h : Takes p k c) {b b' : PopBuffer}
    (hb : b.packeddata.length < 2 ^ 31) (hp : p b = .ok () b')
    (hb' : b'.packeddata.length < 2 ^ 31) : b.packeddata.length + k < 2 ^ 31 := by
  have := (h b b' hp).1 hb
  omega

lemma Returns.pure {P : α → Prop} {v : α} (h : P v) : Returns (pure v) P := by
  intro b b' w hw
  obtain ⟨rfl, -⟩ : v = w ∧ b = b' := by simpa using hw
  exact h

lemma Returns.bind {u : BufM α} {f : α → BufM β} {P : α → Prop} {Q : β → Prop}
    (h : Returns u P) (h' : ∀ v, P v → Returns (f v) Q) : Returns (u >>= f) Q := by
  intro b b'' w hw
  obtain ⟨v, b', hfirst, hsecond⟩ := BufM.bind_eq_ok.mp hw
  exact h' v (h b b' v hfirst) b' b'' w hsecond

lemma Returns.imp {u : BufM α} {P Q : α → Prop} (h : Returns u P) (hPQ : ∀ v, P v → Q v) :
    Returns u Q := fun b b' v hv => hPQ v (h b b' v hv)

/-- Whatever it returns. -/
lemma Returns.trivial (u : BufM α) : Returns u fun _ => True := fun _ _ _ _ => True.intro

/-! ### What objects are made of -/

/-- How many bytes a string takes. -/
def stringSize (s : List UInt8) : ℕ := 4 + roundUp4 (s.length + 1)

lemma length_le_sum_stringSize (ss : List (List UInt8)) :
    ss.length ≤ (ss.map stringSize).sum := by
  induction ss with
  | nil => exact Nat.zero_le _
  | cons s ss ih =>
      rw [List.map_cons, List.sum_cons, List.length_cons, stringSize]
      omega

/-- What an encoding does with arrays of numbers, with single flags and with characters. -/
structure Format.Transports (F : Format) : Prop where
  int : ∀ vs : List (BitVec 32),
    Carries (F.pack .int vs) (F.unPack .int vs.length) (vs.length * 4) vs
  float : ∀ vs : List (BitVec 32),
    Carries (F.pack .float vs) (F.unPack .float vs.length) (vs.length * 4) vs
  flag : ∀ v : Bool, Carries (F.pack .bool [v]) (F.unPack .bool 1) 4 [v]
  char : ∀ data : List UInt8, Appends (F.pack .char data) (pad4 data) ∧
    Reads (F.unPack .char data.length) (pad4 data) data
  takesInt : ∀ vs : List (BitVec 32), vs ≠ [] → vs.length * 4 < 2 ^ 31 →
    Takes (F.pack .int vs) (vs.length * 4) (vs.length * 4 + 1)
  fillsFloat : ∀ vs : List (BitVec 32), vs ≠ [] → vs.length * 4 < 2 ^ 31 →
    Fills (F.pack .float vs) (vs.length * 4)
  fillsFlag : ∀ v : Bool, Fills (F.pack .bool [v]) 4
  roomChar : ∀ data : List UInt8, data ≠ [] → data.length < 2 ^ 31 → ∀ b b' : PopBuffer,
    b.packeddata.length < 2 ^ 32 → F.pack .char data b = .ok () b' →
      b.packeddata.length + roundUp4 data.length < 2 ^ 31
  lengthChar : ∀ n : ℤ, 0 < n → n < 2 ^ 31 →
    Returns (F.unPack .char n) fun bs => bs.length = n.toNat

section Xdr

variable {lib : XdrLib}

lemma fills_packChar {data : List UInt8} (hdata : data ≠ []) :
    Fills (packChar data) (roundUp4 data.length) := by
  intro b b' hb h
  have hroom := packChar_eq_ok hdata (by omega) h
  rw [packChar_appends data b (by rw [length_pad4]; exact hroom)] at h
  cases h
  rw [List.length_append, length_pad4]
  exact ⟨hroom, rfl⟩

lemma fills_packFloat (hlib : lib.Documented) {vs : List (BitVec 32)} (hvs : vs ≠ []) :
    Fills (Xdr.packFloat lib vs) (vs.length * 4) := by
  have hpos : 0 < vs.length := List.length_pos_iff.mpr hvs
  have hn : ¬((vs.length : ℤ) ≤ 0) := by omega
  intro b b' hlt h
  have hb : b.packeddata.length < 2 ^ 31 := by
    -- Otherwise `oldsize` is negative: the elements are written in front of the vector.
    by_contra hb
    have hold : wrap (b.packeddata.length : ℤ) < 0 := by
      simp only [wrap]
      omega
    simp only [Xdr.packFloat, packVector, if_neg hn] at h
    rw [BufM.bind_ok (rfl : this b = .ok b b)] at h
    obtain ⟨_, b₁, -, hencode⟩ := BufM.bind_eq_ok.mp h
    obtain ⟨-, hdest, -⟩ := encode_eq_ok hlib.float (by decide) hvs hencode
    omega
  obtain ⟨-, hroom⟩ := packVector_eq_ok hlib.float (by decide) (by decide) hvs hb h
  have hcarries := hlib.float.carries_word (w := 4) vs
  have hlen := length_vectorBytes hcarries (Nat.le_refl 4)
  have happ : Appends (Xdr.packFloat lib vs) (vectorBytes 4 (fun v => be 4 v.toNat) vs) :=
    packVector_appends hcarries (Nat.le_refl 4) _
  rw [happ b (by rw [hlen]; exact hroom)] at h
  cases h
  rw [List.length_append, hlen]
  exact ⟨hroom, rfl⟩

lemma takes_packInt (hlib : lib.Documented) {vs : List (BitVec 32)} (hvs : vs ≠ [])
    (hlen : vs.length * 4 < 2 ^ 31) :
    Takes (Xdr.packInt lib vs) (vs.length * 4) (vs.length * 4 + 1) := by
  intro b b' h
  have hsize : b.packeddata.length < 2 ^ 32 →
      b'.packeddata.length = b.packeddata.length + vs.length * 4 := fun hb =>
    packInt_eq_ok hlib hvs hb h
  omega

lemma roundUp4_one : roundUp4 1 = 4 := by decide

lemma carries_flag (v : Bool) : Carries (Xdr.packBool [v]) (Xdr.unPackBool 1) 4 [v] := by
  refine ⟨pad4 [if v then 1 else 0], ?_, packChar_appends _, ?_⟩
  · rw [length_pad4, List.length_singleton, roundUp4_one]
  · have hshort : [v].length ≤ 4 := by simp
    exact unPackBool_reads hshort

theorem transports_xdr (hlib : lib.Documented) : (xdr lib).Transports where
  int := codes_xdr_int hlib
  float vs := codes_vector (hlib.float.carries_word (w := 4) vs) (Nat.le_refl 4) _ _
  flag v := carries_flag v
  char data := (codesStrings_xdr hlib).char data
  takesInt vs hvs hlen := takes_packInt hlib hvs hlen
  fillsFloat vs hvs _ := fills_packFloat hlib hvs
  fillsFlag v := by
    have h := fills_packChar (List.cons_ne_nil (if v then (1 : UInt8) else 0) [])
    rwa [List.length_singleton, roundUp4_one] at h
  roomChar _ hdata _ _ _ hb h := packChar_eq_ok hdata hb h
  lengthChar _ hn _ _ _ _ h := length_unPackChar hn h

end Xdr

section Raw

lemma raw_pack_eq {k : Kind} {vs : List k.Val} (h : vs.length * k.size < 2 ^ 31) :
    raw.pack k vs = packChar (vs.flatMap k.bytes) := by
  have hwrap : wrap ((vs.length : ℤ) * (k.size : ℤ)) = (vs.length * k.size : ℕ) := by
    rw [← Nat.cast_mul]
    exact wrap_natCast (by omega)
  rw [raw_pack, Raw.pack, hwrap, Int.toNat_natCast, ← k.length_flatMap_bytes, List.take_length]

lemma fills_raw {k : Kind} {vs : List k.Val} (hvs : vs ≠ []) (h : vs.length * k.size < 2 ^ 31) :
    Fills (raw.pack k vs) (roundUp4 (vs.length * k.size)) := by
  have hne : vs.flatMap k.bytes ≠ [] := by
    intro hnil
    have hlen := k.length_flatMap_bytes vs
    rw [hnil, List.length_nil] at hlen
    have := Nat.mul_pos (List.length_pos_iff.mpr hvs) k.size_pos
    omega
  have hfills := fills_packChar hne
  rw [k.length_flatMap_bytes] at hfills
  rw [raw_pack_eq h]
  exact hfills

lemma carries_raw (k : Kind) (vs : List k.Val) :
    Carries (raw.pack k vs) (raw.unPack k vs.length) (roundUp4 (vs.length * k.size)) vs := by
  obtain ⟨happ, hread⟩ := codes_raw_array k vs
  exact ⟨_, by rw [length_pad4, k.length_flatMap_bytes], happ, hread⟩

lemma roundUp4_mul_four (n : ℕ) : roundUp4 (n * 4) = n * 4 := by
  simp only [roundUp4]
  omega

theorem transports_raw : raw.Transports where
  int vs := by
    have h := carries_raw .int vs
    rwa [show Kind.size .int = 4 from rfl, roundUp4_mul_four] at h
  float vs := by
    have h := carries_raw .float vs
    rwa [show Kind.size .float = 4 from rfl, roundUp4_mul_four] at h
  flag v := by
    have h := carries_raw .bool [v]
    rwa [List.length_singleton, show Kind.size .bool = 1 from rfl, Nat.one_mul, roundUp4_one] at h
  char data := codesStrings_raw.char data
  takesInt vs hvs hlen := by
    have h := fills_raw (k := .int) hvs hlen
    rw [show Kind.size .int = 4 from rfl, roundUp4_mul_four] at h
    refine h.takes ?_
    have := List.length_pos_iff.mpr hvs
    omega
  fillsFloat vs hvs hlen := by
    have h := fills_raw (k := .float) hvs hlen
    rwa [show Kind.size .float = 4 from rfl, roundUp4_mul_four] at h
  fillsFlag v := by
    have h := fills_raw (k := .bool) (List.cons_ne_nil v []) (by simp [Kind.size])
    rwa [List.length_singleton, show Kind.size .bool = 1 from rfl, Nat.one_mul, roundUp4_one] at h
  roomChar data hdata hlen b b' hb h := by
    have hid : data.flatMap (Kind.bytes .char) = data := List.flatMap_singleton' data
    rw [raw_pack_eq (by rw [show Kind.size .char = 1 from rfl]; omega), hid] at h
    exact packChar_eq_ok hdata hb h
  lengthChar n hn hn' b b' bs h := by
    rw [raw_unPack, Raw.unPack, show Kind.size .char = 1 from rfl] at h
    obtain ⟨cs, b₁, hcs, h⟩ := BufM.bind_eq_ok.mp h
    obtain ⟨rfl, -⟩ : Kind.elements .char (cs.length / 1) cs = bs ∧ b₁ = b' := by simpa using h
    have hwrap : wrap (n * ((1 : ℕ) : ℤ)) = n := by
      rw [Nat.cast_one, Int.mul_one]
      exact wrap_eq_self (by simp only [Fits]; omega)
    rw [hwrap] at hcs
    rw [Kind.length_elements, Nat.div_one, length_unPackChar hn hcs]

end Raw

/-- The encodings of a message. -/
inductive Standard : Format → Prop where
  | raw : Standard raw
  | xdr {lib : XdrLib} (hlib : lib.Documented) : Standard (xdr lib)

lemma Standard.transports {F : Format} (h : Standard F) : F.Transports := by
  cases h with
  | raw => exact transports_raw
  | xdr hlib => exact transports_xdr hlib

/-! ### Strings, single integers and flags -/

section Parts

variable {F : Format}

/-- `Pack(&x, 1)` for a `bool`. -/
def packFlag (F : Format) (v : Bool) : BufM Unit := F.pack .bool [v]

/-- `UnPack(&x, 1)` for a `bool`. -/
def unPackFlag (F : Format) : BufM Bool := do
  let vs ← F.unPack .bool 1
  pure (vs.headD false)

/-- `Pack(&x, 1)` for an `int` given by its bits. -/
def packBits1 (F : Format) (v : BitVec 32) : BufM Unit := F.pack .int [v]

/-- `UnPack(&x, 1)` for an `int`. -/
def unPackBits1 (F : Format) : BufM (BitVec 32) := do
  let vs ← F.unPack .int 1
  pure (vs.headD 0)

/-- `Pack(&x, 1)` for a `float`. -/
def packFloat1 (F : Format) (v : BitVec 32) : BufM Unit := F.pack .float [v]

/-- `UnPack(&x, 1)` for a `float`. -/
def unPackFloat1 (F : Format) : BufM (BitVec 32) := do
  let vs ← F.unPack .float 1
  pure (vs.headD 0)

namespace Format.Transports

variable (hF : F.Transports)
include hF

lemma codesStrings : F.CodesStrings where
  int x := hF.int [x]
  char := hF.char

lemma stringCut (s : List UInt8) :
    Carries (packString F s) (unPackString F) (stringSize s) (cut s) :=
  codes_cut hF.codesStrings s

lemma string {s : List UInt8} (h : 0 ∉ s) :
    Carries (packString F s) (unPackString F) (stringSize s) s :=
  codes_string hF.codesStrings h

lemma int1 {x : ℤ} (hx : Fits x) : Carries (packInt1 F x) (unPackInt1 F) 4 x :=
  hF.codesStrings.int1 hx

lemma bits1 (v : BitVec 32) : Carries (packBits1 F v) (unPackBits1 F) 4 v :=
  (hF.int [v]).map fun vs => vs.headD 0

lemma flag1 (v : Bool) : Carries (packFlag F v) (unPackFlag F) 4 v :=
  (hF.flag v).map fun vs => vs.headD false

lemma float1 (v : BitVec 32) : Carries (packFloat1 F v) (unPackFloat1 F) 4 v :=
  (hF.float [v]).map fun vs => vs.headD 0

lemma float2 (v w : BitVec 32) : Carries (F.pack .float [v, w]) (F.unPack .float 2) 8 [v, w] :=
  hF.float [v, w]

lemma int3 (x y z : BitVec 32) :
    Carries (F.pack .int [x, y, z]) (F.unPack .int 3) 12 [x, y, z] :=
  hF.int [x, y, z]

lemma takesInt1 (x : ℤ) : Takes (packInt1 F x) 4 5 :=
  hF.takesInt [BitVec.ofInt 32 x] (List.cons_ne_nil _ _) (by simp)

lemma takesBits1 (v : BitVec 32) : Takes (packBits1 F v) 4 5 :=
  hF.takesInt [v] (List.cons_ne_nil _ _) (by simp)

lemma fillsFlag1 (v : Bool) : Fills (packFlag F v) 4 := hF.fillsFlag v

lemma fillsFloat1 (v : BitVec 32) : Fills (packFloat1 F v) 4 :=
  hF.fillsFloat [v] (List.cons_ne_nil _ _) (by simp)

lemma fillsFloat2 (v w : BitVec 32) : Fills (F.pack .float [v, w]) 8 :=
  hF.fillsFloat [v, w] (List.cons_ne_nil _ _) (by simp)

lemma takesInt3 (x y z : BitVec 32) : Takes (F.pack .int [x, y, z]) 12 13 :=
  hF.takesInt [x, y, z] (List.cons_ne_nil _ _) (by simp)

/-- A string is not packed into a buffer that is too long for a message. -/
lemma fillsString {s : List UInt8} (hlen : s.length + 1 < 2 ^ 31) :
    Fills (packString F s) (stringSize s) := by
  intro b b' hb h
  have hroom : b.packeddata.length + stringSize s < 2 ^ 31 := by
    have hwrap : wrap ((s.length : ℤ) + 1) = (s.length + 1 : ℕ) := by
      rw [wrap_eq_self (by simp only [Fits]; omega)]
      omega
    obtain ⟨_, b₁, hint, hchars⟩ := BufM.bind_eq_ok.mp h
    have htakes := hF.takesInt1 _ b b₁ hint
    rw [hwrap, if_pos (by omega), Int.toNat_natCast, List.take_of_length_le (by simp)] at hchars
    have hchar := hF.roomChar _ (by simp) (by simpa using hlen) b₁ b' (by omega) hchars
    rw [List.length_append, List.length_singleton] at hchar
    simp only [stringSize]
    omega
  obtain ⟨bs, hbs, happ, -⟩ := hF.stringCut s
  rw [happ b (by rw [hbs]; exact hroom)] at h
  cases h
  rw [List.length_append, hbs]
  exact ⟨hroom, rfl⟩

lemma stringsCut (ss : List (List UInt8)) :
    Carries (packStrings F ss) (unPackStrings F ss.length) (ss.map stringSize).sum
      (ss.map cut) := by
  induction ss with
  | nil => exact Carries.pure []
  | cons s ss ih => exact (hF.stringCut s).bind (ih.map (cut s :: ·))

lemma strings {ss : List (List UInt8)} (h : ∀ s ∈ ss, 0 ∉ s) :
    Carries (packStrings F ss) (unPackStrings F ss.length) (ss.map stringSize).sum ss := by
  have hcarries := hF.stringsCut ss
  have hcut : ss.map cut = ss := by
    conv_rhs => rw [← List.map_id ss]
    exact List.map_congr_left fun s hs => cut_eq_self_iff.mpr (h s hs)
  rwa [hcut] at hcarries

lemma takesStrings {ss : List (List UInt8)} (hlen : ∀ s ∈ ss, s.length + 1 < 2 ^ 31) :
    Takes (packStrings F ss) (ss.map stringSize).sum 5 := by
  induction ss with
  | nil => exact Takes.pure.mono (Nat.zero_le 5)
  | cons s ss ih =>
      rw [List.forall_mem_cons] at hlen
      exact (hF.fillsString hlen.1).bind (ih hlen.2) (Nat.le_refl 5)

/-- The length of a string that `UnPack` returns is an `int`. -/
lemma returnsString : Returns (unPackString F) fun s => s.length + 1 < 2 ^ 31 :=
  fun _ _ _ h => length_lt_of_unPackString hF.lengthChar h

omit hF in
lemma returnsString_nulFree : Returns (unPackString F) fun s => 0 ∉ s :=
  fun _ _ _ h => not_mem_of_unPackString h

end Format.Transports

/-- What holds of each string that `UnPack` returns holds of all of them. -/
lemma Returns.strings {F : Format} {P : List UInt8 → Prop} (h : Returns (unPackString F) P)
    (n : ℕ) : Returns (unPackStrings F n) fun ss => ∀ s ∈ ss, P s := by
  induction n with
  | zero => exact Returns.pure (by simp)
  | succ n ih =>
      refine h.bind fun s hs => ih.bind fun ss hss => Returns.pure ?_
      rw [List.forall_mem_cons]
      exact ⟨hs, hss⟩

end Parts

end PopCpp.Buffer
