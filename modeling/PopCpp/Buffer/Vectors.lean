/-
# Vectors, and vectors of vectors

The templates `Pack(const std::vector<T>*, n)` and `UnPack(std::vector<T>*, n)` of `pop_buffer`
are an overload for arrays of vectors, made of the overload for arrays of elements.  They assert
that `n` is 1 and do not look at it otherwise.  Where assertions are checked, a vector of more than
one vector ends the program.  Where they are not, of an array of vectors only the first goes
through: the vector loses all its inner vectors but the first, and the receiver finds the others as
its own vector had them.
-/
import PopCpp.Buffer.MpiOverloads

namespace PopCpp.Buffer

open Bytes CInt

/-! ### The templates -/

/-- `vect->resize(n)`. -/
def resizeTo {T : Type} (fresh : T) (n : ℕ) (v : List T) : List T :=
  v.take n ++ List.replicate (n - v.length) fresh

lemma length_resizeTo {T : Type} (fresh : T) (n : ℕ) (v : List T) :
    (resizeTo fresh n v).length = n := by
  rw [resizeTo, List.length_append, List.length_take, List.length_replicate]
  omega

lemma resizeTo_zero {T : Type} (fresh : T) (v : List T) : resizeTo fresh 0 v = [] := by
  simp [resizeTo]

namespace Overload

variable {T : Type}

/-- `assert(n == 1)`, which ends the program if it fails, unless `NDEBUG` is defined. -/
def assertOne (ndebug : Bool) (n : ℕ) : BufM Unit := fun b =>
  if ndebug = true ∨ n = 1 then .ok () b else .undefined

/-- The overload for arrays of `std::vector<T>`.  The array is never empty, and but for the
assertion `n` is ignored. -/
def vector (ndebug : Bool) (F : Format) (o : Overload T) : Overload (List T) where
  pack
    | [] => fun _ => .undefined
    | vect :: vs => do
        assertOne ndebug (vs.length + 1)
        let s := wrap vect.length
        packInt1 F s
        if s > 0 then o.pack (vect.take s.toNat) else pure ()
  unPack
    | [] => fun _ => .undefined
    | vect :: rest => do
        assertOne ndebug (rest.length + 1)
        let s ← unPackInt1 F
        if s < 0 then throwing .lengthError
        else if s > 0 then do
          let vect ← o.unPack (resizeTo o.fresh s.toNat vect)
          pure (vect :: rest)
        else pure (resizeTo o.fresh s.toNat vect :: rest)
  fresh := []

/-- A vector is unpacked where it was packed, into what is there already, and nothing of what was
packed is left. -/
def Restores (o : Overload T) (vs old : List T) (b : PopBuffer) : Prop :=
  ∃ b' c', o.pack vs b = .ok () b' ∧
    o.unPack old { b' with unpackpos := b.packeddata.length } = .ok vs c' ∧
    c'.unpackpos = b'.packeddata.length

/-- The bytes of the first vector. -/
def vectorSize (size : List T → ℕ) : List (List T) → ℕ
  | [] => 0
  | vect :: _ => 4 + if vect.length = 0 then 0 else size vect

/-- The first vector comes back, and the others are there already, or there are none. -/
def VectorFit (ndebug : Bool) (fresh : T) (Fit : List T → List T → Prop) :
    List (List T) → List (List T) → Prop
  | vect :: vs, old :: rest => vect.length < 2 ^ 31 ∧ (ndebug = true ∨ vs = []) ∧ vs = rest ∧
      (vect ≠ [] → Fit vect (resizeTo fresh vect.length old))
  | _, _ => False

variable {F : Format} {o : Overload T} {size : List T → ℕ} {Fit : List T → List T → Prop}
  {ndebug : Bool}

lemma assertOne_of_fit {α : Type} {vs : List (List T)} (h : ndebug = true ∨ vs = [])
    (next : BufM α) : (assertOne ndebug (vs.length + 1) >>= fun _ => next) = next := by
  funext b
  refine BufM.bind_ok (if_pos ?_)
  simpa using h

lemma fit_of_assertOne_eq_ok {vs : List (List T)} {b b' : PopBuffer}
    (h : assertOne ndebug (vs.length + 1) b = .ok () b') :
    (ndebug = true ∨ vs = []) ∧ b' = b := by
  rw [assertOne] at h
  split at h
  · next hone =>
      cases h
      exact ⟨by simpa using hone, rfl⟩
  · cases h

lemma vector_pack_nil {vs : List (List T)} (hfit : ndebug = true ∨ vs = []) :
    (o.vector ndebug F).pack ([] :: vs) =
      packInt1 F (([] : List T).length : ℤ) >>= fun _ => pure () := by
  have hwrap : wrap ((([] : List T).length : ℕ) : ℤ) = ([] : List T).length :=
    wrap_eq_self (by simp [Fits])
  rw [vector]
  simp only [assertOne_of_fit hfit, hwrap,
    if_neg (show ¬((([] : List T).length : ℕ) : ℤ) > 0 by simp)]

lemma vector_pack {vect : List T} (hne : vect ≠ []) (hlt : vect.length < 2 ^ 31)
    {vs : List (List T)} (hfit : ndebug = true ∨ vs = []) :
    (o.vector ndebug F).pack (vect :: vs) = packInt1 F vect.length >>= fun _ => o.pack vect := by
  have hpos : 0 < vect.length := List.length_pos_iff.mpr hne
  have hwrap : wrap (vect.length : ℤ) = vect.length := wrap_natCast (by omega)
  rw [vector]
  simp only [assertOne_of_fit hfit, hwrap,
    if_pos (show (vect.length : ℤ) > 0 by omega), Int.toNat_natCast, List.take_length]

/-- `UnPack` behind the assertion. -/
lemma vector_unPack (old : List T) (rest : List (List T)) :
    (o.vector ndebug F).unPack (old :: rest) = assertOne ndebug (rest.length + 1) >>= fun _ =>
      unPackInt1 F >>= fun s =>
        if s < 0 then throwing .lengthError
        else if s > 0 then
          o.unPack (resizeTo o.fresh s.toNat old) >>= fun vect => pure (vect :: rest)
        else pure (resizeTo o.fresh s.toNat old :: rest) :=
  rfl

lemma Exact.carries_vector (h : o.Exact size Fit) (hF : Implemented F) {vect old : List T}
    {rest : List (List T)} (hlt : vect.length < 2 ^ 31) (hone : ndebug = true ∨ rest = [])
    (hfit : vect ≠ [] → Fit vect (resizeTo o.fresh vect.length old)) :
    Carries ((o.vector ndebug F).pack (vect :: rest)) ((o.vector ndebug F).unPack (old :: rest))
      (vectorSize size (vect :: rest)) (vect :: rest) := by
  have hint : Carries (packInt1 F (vect.length : ℤ)) (unPackInt1 F) 4 (vect.length : ℤ) :=
    hF.transports.int1 (by simp only [Fits]; omega)
  rw [vector_unPack, vectorSize, assertOne_of_fit hone]
  rcases eq_or_ne vect [] with rfl | hne
  · rw [vector_pack_nil hone, if_pos List.length_nil]
    refine Carries.bind hint ?_
    rw [List.length_nil, Nat.cast_zero, if_neg (lt_irrefl (0 : ℤ)), if_neg (lt_irrefl (0 : ℤ)),
      Int.toNat_zero, resizeTo_zero]
    exact Carries.pure ([] :: rest)
  · have hpos : 0 < vect.length := List.length_pos_iff.mpr hne
    have hrest := (h.carries vect _ hne hlt (length_resizeTo o.fresh vect.length old)
      (hfit hne)).map (· :: rest)
    rw [vector_pack hne hlt hone, if_neg hpos.ne']
    refine Carries.bind hint ?_
    rw [if_neg (by omega), if_pos (by omega), Int.toNat_natCast]
    exact hrest

/-- What the length of a vector is read as, and what is left to read. -/
lemma unPackInt1_of_ok (hF : Implemented F) {b c c' : PopBuffer} {s : ℤ}
    (hb : b.packeddata.length < 2 ^ 31) (hc : c.packeddata.length < 2 ^ 31)
    (hpos : c.unpackpos = b.packeddata.length) (h : unPackInt1 F c = .ok s c') :
    b.packeddata.length + 4 < 2 ^ 31 ∧ s < 2 ^ 31 ∧ c'.packeddata = c.packeddata ∧
      c'.unpackpos = (b.packeddata.length + 4 : ℕ) := by
  have hat : At c b.packeddata.length := by
    refine ⟨?_, by omega, hc⟩
    rw [hpos, wrap_natCast (by omega)]
  rcases hF.scans.int c _ hat with ⟨hin, hok⟩ | ⟨-, e, hthrows⟩
  · rw [h] at hok
    cases hok
    exact ⟨by omega, BitVec.toInt_lt, rfl, rfl⟩
  · rw [h] at hthrows
    cases hthrows

lemma Exact.needs_vector (h : o.Exact size Fit) (hF : Implemented F) {vect old : List T}
    {vs rest : List (List T)} {b b' c c' : PopBuffer} (hc : c.packeddata.length < 2 ^ 31)
    (htrip : (o.vector ndebug F).Trip (vect :: vs) (old :: rest) b b' c c') :
    VectorFit ndebug o.fresh Fit (vect :: vs) (old :: rest) ∧
      b.packeddata.length + vectorSize size (vect :: vs) < 2 ^ 31 := by
  obtain ⟨hstart, hpack, hdata, hpos, hunPack, hfinish⟩ := htrip
  obtain ⟨_, b₀, hassert, -⟩ := BufM.bind_eq_ok.mp hpack
  obtain ⟨hone, -⟩ := fit_of_assertOne_eq_ok hassert
  obtain ⟨_, c₀, hassert', -⟩ := BufM.bind_eq_ok.mp hunPack
  obtain ⟨hone', -⟩ := fit_of_assertOne_eq_ok hassert'
  rw [vector_unPack, assertOne_of_fit hone'] at hunPack
  obtain ⟨s, c₁, hint, hunPack⟩ := BufM.bind_eq_ok.mp hunPack
  obtain ⟨hroom, hslt, hdata₁, hpos₁⟩ := unPackInt1_of_ok hF hstart hc hpos hint
  split at hunPack
  · cases hunPack
  split at hunPack
  · next hneg hspos =>
      -- The vector has as many elements as were read: this many were announced.
      obtain ⟨vect', c₂, hvect, hend⟩ := BufM.bind_eq_ok.mp hunPack
      obtain ⟨heq, rfl⟩ : vect' :: rest = vect :: vs ∧ c₂ = c' := by simpa using hend
      obtain ⟨rfl, rfl⟩ := List.cons.inj heq
      have hlen : vect'.length = s.toNat := by
        rw [h.length _ _ _ _ hvect, length_resizeTo]
      have hne : vect' ≠ [] := by
        rw [← List.length_pos_iff]
        omega
      rw [vector_pack hne (by omega) hone] at hpack
      obtain ⟨_, b₁, hint₁, hpack⟩ := BufM.bind_eq_ok.mp hpack
      obtain ⟨bs, hbs, happ, -⟩ := hF.transports.int1 (x := (vect'.length : ℤ))
        (by simp only [Fits]; omega)
      rw [happ b (by omega)] at hint₁
      cases hint₁
      have hlen₁ : (b.packeddata ++ bs).length = b.packeddata.length + 4 := by
        rw [List.length_append, hbs]
      rw [← hlen] at hvect
      obtain ⟨hfit, hsize⟩ := h.needs vect' _ _ b' c₁ c₂ hne (by omega)
        (length_resizeTo o.fresh vect'.length old) (by rw [hdata₁]; exact hc)
        ⟨by rw [hlen₁]; exact hroom, hpack, by rw [hdata₁, hdata], by rw [hpos₁, hlen₁], hvect,
          hfinish⟩
      rw [hlen₁] at hsize
      rw [vectorSize, if_neg (by omega)]
      exact ⟨⟨by omega, hone, rfl, fun _ => hfit⟩, by omega⟩
  · next hneg hspos =>
      obtain rfl : s = 0 := by omega
      rw [Int.toNat_zero, resizeTo_zero] at hunPack
      obtain ⟨heq, -⟩ : [] :: rest = vect :: vs ∧ c₁ = c' := by simpa using hunPack
      obtain ⟨rfl, rfl⟩ := List.cons.inj heq
      rw [vectorSize, if_pos List.length_nil]
      exact ⟨⟨by simp, hone, rfl, fun hne => absurd rfl hne⟩, hroom⟩

lemma onlyReads_assertOne (n : ℕ) : OnlyReads (assertOne ndebug n) := by
  intro b v b' hassert
  rw [assertOne] at hassert
  split at hassert
  · exact OnlyReads.pure () b v b' hassert
  · cases hassert

lemma onlyReads_vector (hF : Implemented F) (h : ∀ old, OnlyReads (o.unPack old)) :
    ∀ old, OnlyReads ((o.vector ndebug F).unPack old)
  | [] => OnlyReads.undefined
  | old :: rest => by
      rw [vector_unPack]
      refine OnlyReads.bind (onlyReads_assertOne _) fun _ => hF.onlyReads_int1.bind fun s => ?_
      split
      · intro b v b' hthrows
        cases hthrows
      · split
        · exact (h _).map (· :: rest)
        · exact OnlyReads.pure _

/-- From the elements of a vector to vectors. -/
lemma Exact.vector (h : o.Exact size Fit) (hF : Implemented F) :
    (o.vector ndebug F).Exact (vectorSize size) (VectorFit ndebug o.fresh Fit) where
  onlyReads := onlyReads_vector hF h.onlyReads
  length old := by
    cases old with
    | nil => intro b b' vs hvs; cases hvs
    | cons old rest =>
        rw [vector_unPack]
        refine (Returns.trivial _).bind fun _ _ => (Returns.trivial _).bind fun s _ => ?_
        split
        · intro b b' vs hvs
          cases hvs
        · split
          · exact (Returns.trivial _).bind fun vect _ => Returns.pure rfl
          · exact Returns.pure rfl
  carries vs old hvs _ hold hfit := by
    obtain ⟨vect, vs, rfl⟩ := List.exists_cons_of_ne_nil hvs
    obtain ⟨t, rest, rfl⟩ := List.exists_cons_of_length_eq_add_one hold
    obtain ⟨hlt, hone, rfl, hfirst⟩ := hfit
    exact h.carries_vector hF hlt hone hfirst
  needs vs old b b' c c' hvs _ hold hc htrip := by
    obtain ⟨vect, vs, rfl⟩ := List.exists_cons_of_ne_nil hvs
    obtain ⟨t, rest, rfl⟩ := List.exists_cons_of_length_eq_add_one hold
    exact h.needs_vector hF hc htrip

/-- The rest of the run follows from the positions, which are `int`s. -/
lemma Exact.restores_iff (h : o.Exact size Fit) {vs old : List T} {b : PopBuffer} (hvs : vs ≠ [])
    (hlt : vs.length < 2 ^ 31) (hold : old.length = vs.length)
    (hb : b.packeddata.length < 2 ^ 31) :
    o.Restores vs old b ↔ Fit vs old ∧ b.packeddata.length + size vs < 2 ^ 31 := by
  constructor
  · rintro ⟨b', c', hpack, hunPack, hfinish⟩
    obtain ⟨-, hfits⟩ := h.onlyReads old _ vs c' hunPack
    have hend : Fits c'.unpackpos := hfits (by simp only [Fits]; omega)
    rw [hfinish] at hend
    simp only [Fits] at hend
    exact h.needs vs old b b' { b' with unpackpos := b.packeddata.length } c' hvs hlt hold
      (by simp only; omega) ⟨hb, hpack, rfl, rfl, hunPack, hfinish⟩
  · rintro ⟨hfit, hroom⟩
    obtain ⟨bs, hbs, happ, hread⟩ := h.carries vs old hvs hlt hold hfit
    have hlen : (b.packeddata ++ bs).length = b.packeddata.length + size vs := by
      rw [List.length_append, hbs]
    have hunPack := hread { b with
        unpackpos := b.packeddata.length, packeddata := b.packeddata ++ bs }
      b.packeddata [] (by simp) rfl (by rw [hlen]; exact hroom)
    refine ⟨_, _, happ b (by rw [hbs]; exact hroom), hunPack, ?_⟩
    rw [List.length_append]

/-! ### To any depth -/

/-- `T`, or vectors of vectors of it. -/
def Nested (T : Type) : ℕ → Type
  | 0 => T
  | d + 1 => List (Nested T d)

/-- Each template calls the one of its elements. -/
def nested (ndebug : Bool) (F : Format) (o : Overload T) : (d : ℕ) → Overload (Nested T d)
  | 0 => o
  | d + 1 => (nested ndebug F o d).vector ndebug F

def nestedSize (size : List T → ℕ) : (d : ℕ) → List (Nested T d) → ℕ
  | 0 => size
  | d + 1 => vectorSize (nestedSize size d)

def NestedFit (ndebug : Bool) (F : Format) (o : Overload T) (Fit : List T → List T → Prop) :
    (d : ℕ) → List (Nested T d) → List (Nested T d) → Prop
  | 0 => Fit
  | d + 1 => VectorFit ndebug (nested ndebug F o d).fresh (NestedFit ndebug F o Fit d)

lemma Exact.nested (h : o.Exact size Fit) (hF : Implemented F) (d : ℕ) :
    (o.nested ndebug F d).Exact (nestedSize size d) (NestedFit ndebug F o Fit d) := by
  induction d with
  | zero => exact h
  | succ d ih => exact ih.vector hF

end Overload

/-! ### The element types -/

/-- The classes of buffers. -/
inductive BufferClass where
  | raw
  | xdr
  | mpi
deriving DecidableEq, Repr

/-- The types that have an overload of their own.  There is no vector of `bool`: it has no
elements that a pointer can point to. -/
inductive ElementType where
  | number (k : Kind) (h : k ≠ .bool)
  | string

def ElementType.Val : ElementType → Type
  | .number k _ => k.Val
  | .string => List UInt8

namespace BufferClass

/-- In the MPI buffer the length of a vector is read over a 0. -/
def format (lib : XdrLib) : BufferClass → Format
  | raw => Buffer.raw
  | xdr => Buffer.xdr lib
  | mpi => Buffer.mpi lib Stale.zeros

def overload (lib : XdrLib) : BufferClass → (e : ElementType) → Overload e.Val
  | raw, .number k _ => Overload.array Buffer.raw k
  | xdr, .number k _ => Overload.array (Buffer.xdr lib) k
  | mpi, .number k _ => Overload.mpiArray lib k
  | cls, .string => Overload.string (cls.format lib)

/-- How many bytes an array of elements takes. -/
def size : BufferClass → (e : ElementType) → List e.Val → ℕ
  | raw, .number k _ => fun vs => roundUp4 (Raw.moved k vs.length * k.size)
  | xdr, .number k _ => fun vs => xdrSize (.array k vs)
  | mpi, .number k _ => fun vs => (XdrMpi.room k vs.length).toNat
  | _, .string => fun ss => (ss.map stringSize).sum

/-- What an array of elements must have to come back, over what was there before. -/
def Fit : BufferClass → (e : ElementType) → List e.Val → List e.Val → Prop
  | raw, .number k _ => fun vs old =>
      vs.drop (Raw.moved k vs.length) = old.drop (Raw.moved k vs.length)
  | xdr, .number k _ => fun vs _ => XdrFits (.array k vs)
  | mpi, .number k _ => XdrMpi.Restored k
  | _, .string => fun (ss : List (List UInt8)) _ => ∀ s ∈ ss, 0 ∉ s

/-- `std::vector<...std::vector<T>...>`, with `d` vectors inside the outermost one. -/
def vectors (ndebug : Bool) (lib : XdrLib) (cls : BufferClass) (e : ElementType) (d : ℕ) :
    Overload (List (Overload.Nested e.Val d)) :=
  ((cls.overload lib e).nested ndebug (cls.format lib) d).vector ndebug (cls.format lib)

variable {lib : XdrLib}

lemma implemented (hlib : lib.Documented) : ∀ cls : BufferClass, Implemented (cls.format lib)
  | raw => .raw
  | xdr => .xdr hlib
  | mpi => .mpi hlib Stale.zeros

lemma exact (hlib : lib.Documented) (cls : BufferClass) (e : ElementType) :
    (cls.overload lib e).Exact (cls.size e) (cls.Fit e) := by
  cases e with
  | number k hk =>
      cases cls with
      | raw => exact exact_raw k
      | xdr => exact exact_xdr hlib hk
      | mpi => exact XdrMpi.exact_mpi hlib hk
  | string =>
      cases cls with
      | raw => exact Overload.exact_string (raw.implemented hlib)
      | xdr => exact Overload.exact_string (xdr.implemented hlib)
      | mpi => exact Overload.exact_string (mpi.implemented hlib)

lemma restores_vectors_iff (ndebug : Bool) (hlib : lib.Documented) (cls : BufferClass)
    (e : ElementType) (d : ℕ) (v old : List (Overload.Nested e.Val d)) {b : PopBuffer}
    (hb : b.packeddata.length < 2 ^ 31) :
    (cls.vectors ndebug lib e d).Restores [v] [old] b ↔
      Overload.VectorFit ndebug ((cls.overload lib e).nested ndebug (cls.format lib) d).fresh
          (Overload.NestedFit ndebug (cls.format lib) (cls.overload lib e) (cls.Fit e) d)
          [v] [old] ∧
        b.packeddata.length + Overload.vectorSize (Overload.nestedSize (cls.size e) d) [v] <
          2 ^ 31 := by
  have hexact : (cls.vectors ndebug lib e d).Exact _ _ :=
    ((cls.exact hlib e).nested (cls.implemented hlib) d).vector (cls.implemented hlib)
  have hold : [old].length = [v].length := rfl
  exact hexact.restores_iff (List.cons_ne_nil v []) (by simp) hold hb

end BufferClass

/-- **Vectors of vectors** come back exactly if at each depth the first inner vector comes back,
all the others are there already, or there are none where assertions are checked, and there is
room. -/
theorem vectors_restored_iff (ndebug : Bool) (lib : XdrLib) (hlib : lib.Documented)
    (cls : BufferClass) (e : ElementType) (d : ℕ) (v old : List (Overload.Nested e.Val d))
    (b : PopBuffer) (hb : b.packeddata.length < 2 ^ 31) :
    (cls.vectors ndebug lib e d).Restores [v] [old] b ↔
      v.length < 2 ^ 31 ∧
      (v ≠ [] →
        Overload.NestedFit ndebug (cls.format lib) (cls.overload lib e) (cls.Fit e) d v
          (resizeTo ((cls.overload lib e).nested ndebug (cls.format lib) d).fresh v.length old)) ∧
      b.packeddata.length + Overload.vectorSize (Overload.nestedSize (cls.size e) d) [v] <
        2 ^ 31 := by
  rw [BufferClass.restores_vectors_iff ndebug hlib cls e d v old hb, Overload.VectorFit, and_assoc,
    and_assoc]
  simp only [or_true, true_and]

/-- A vector of `int`s, as the only one in a vector, into a vector that is empty. -/
theorem vectors_restored_iff_single :
    (BufferClass.xdr.vectors false XdrLib.standard (.number .int (by decide)) 1).Restores
      [([[1, 2]] : List (List (BitVec 32)))] [([] : List (List (BitVec 32)))]
      (empty ⟨0, 0, 0, 0, 0⟩) := by
  have hrestored := vectors_restored_iff false XdrLib.standard XdrLib.standard_documented .xdr
    (.number .int (by decide)) 1 ([[1, 2]] : List (List (BitVec 32))) ([] : List (List (BitVec 32)))
    (empty ⟨0, 0, 0, 0, 0⟩) (by decide)
  refine hrestored.mpr ⟨by decide, fun _ => ⟨by decide, .inr rfl, rfl, fun _ => trivial⟩, by decide⟩

/-- Two vectors of one `int` each do not come back, with assertions or without. -/
theorem second_vector_lost :
    ¬∀ (cls : BufferClass) (e : ElementType) (d : ℕ) (v : List (Overload.Nested e.Val d)),
      ∃ ndebug, (cls.vectors ndebug XdrLib.standard e d).Restores [v] [[]]
        (empty ⟨0, 0, 0, 0, 0⟩) := by
  intro h
  obtain ⟨ndebug, hrestored⟩ :=
    h .xdr (.number .int (by decide)) 1 ([[1], [2]] : List (List (BitVec 32)))
  have hempty : (empty ⟨0, 0, 0, 0, 0⟩).packeddata.length < 2 ^ 31 := by decide
  obtain ⟨⟨-, -, -, hfit⟩, -⟩ := (BufferClass.restores_vectors_iff ndebug
    XdrLib.standard_documented .xdr (.number .int (by decide)) 1
    ([[1], [2]] : List (List (BitVec 32))) [] hempty).mp hrestored
  obtain ⟨-, -, hrest, -⟩ := hfit (List.cons_ne_nil _ _)
  have hne : ([[2]] : List (List (BitVec 32))) ≠ [[]] := by decide
  exact hne hrest

end PopCpp.Buffer
