/-
# Which values survive marshalling

A parameter is packed by the statements of `Marshal` and read back by those of `DeMarshal`.  The
result is the value again, by the same operations, exactly if the statements are accepted by the
compiler and no container in the value is larger than an `int` can say.

The first condition fails where `TypeArray` writes the name of its element type: unlike
`TypeTemplate`, which writes the declaration, it leaves a bare `std::vector` behind.
-/
import PopCpp.Parser.Refinement

namespace Parser

open Simulation

/-! ### Types that the emitted text can name -/

mutual

/-- The element types of arrays have names; those of containers can be declared and followed by
a reference. -/
def DataType.nameable : DataType → Bool
  | .basic _ => true
  | .array _ b => b.isStandardType || (b.isTypeName && b.nameable)
  | .ptr _ b => b.nameable
  | .equal _ t => t.nameable
  | .struct _ as => as.nameable
  | .seqClass _ _ => true
  | .seq _ k e => decide (k = .vector ∧ e.isStandardType = true) || (e.castable && e.nameable)
  | .map _ k v => k.castable && v.castable && k.nameable && v.nameable
  | .parClass _ => true

/-- The same for the attributes of a structure. -/
def Attributes.nameable : Attributes → Bool
  | .nil => true
  | .cons t _ rest => t.nameable && rest.nameable

end

lemma DataType.compiles_marshal_basic {b : DataType} (hb : b.isStandardType) (l : LVal)
    (n : Option Size) (g : Gen) : (b.marshal l n g).1.compiles = true := by
  obtain ⟨name, rfl, -⟩ := DataType.eq_basic_of_isStandardType hb
  simp only [DataType.marshal]
  split_ifs <;> rfl

lemma DataType.compiles_deMarshal_basic {b : DataType} (hb : b.isStandardType) (l : LVal)
    (n : Option Size) (g : Gen) : (b.deMarshal l n g).1.compiles = true := by
  obtain ⟨name, rfl, -⟩ := DataType.eq_basic_of_isStandardType hb
  simp only [DataType.deMarshal]
  split_ifs <;> rfl

lemma DataType.nameable_basic {b : DataType} (hb : b.isStandardType) : b.nameable = true := by
  obtain ⟨name, rfl, -⟩ := DataType.eq_basic_of_isStandardType hb
  rfl

mutual

/-- The code that packs a type is accepted by the compiler exactly if the type is nameable. -/
lemma DataType.compiles_marshal : ∀ (t : DataType) (l : LVal) (n : Option Size) (g : Gen),
    (t.marshal l n g).1.compiles = t.nameable
  | .basic name, l, n, g => by
    simp only [DataType.marshal, DataType.nameable]
    split_ifs <;> rfl
  | .array c b, l, n, g => by
    simp only [DataType.marshal, DataType.nameable]
    split_ifs with hb
    · rw [DataType.compiles_marshal_basic hb, hb, Bool.true_or]
    · simp [Stmt.compiles, b.compiles_marshal, hb]
  | .ptr _ b, l, none, g => by
    simp only [DataType.marshal, DataType.nameable, b.compiles_marshal]
  | .ptr _ b, l, some n, g => by
    simp only [DataType.marshal, DataType.nameable]
    split_ifs with hb
    · rw [DataType.compiles_marshal_basic hb, DataType.nameable_basic hb]
    · simp only [Stmt.compiles, b.compiles_marshal]
  | .equal _ t, l, n, g => by
    simp only [DataType.marshal, DataType.nameable, t.compiles_marshal]
  | .struct _ as, l, n, g => by
    simp only [DataType.marshal, DataType.nameable, as.compiles_marshal]
  | .seqClass _ _, l, n, g => by
    simp only [DataType.marshal, DataType.nameable, Stmt.compiles]
  | .seq q k e, l, n, g => by
    simp only [DataType.marshal, DataType.nameable]
    split_ifs with hk
    · simp [Stmt.compiles, hk]
    · simp [Stmt.compiles, DataType.iterable, e.compiles_marshal, hk]
  | .map q k v, l, n, g => by
    simp [DataType.marshal, DataType.nameable, Stmt.compiles, DataType.iterable,
      k.compiles_marshal, v.compiles_marshal, Bool.and_assoc]
  | .parClass _, l, n, g => by
    simp only [DataType.marshal, DataType.nameable, Stmt.compiles]

lemma Attributes.compiles_marshal : ∀ (as : Attributes) (l : LVal) (k : ℕ) (g : Gen),
    (as.marshal l k g).1.compiles = as.nameable
  | .nil, l, k, g => rfl
  | .cons t f rest, l, k, g => by
    simp only [Attributes.marshal, Attributes.nameable, Stmt.compiles, t.compiles_marshal,
      rest.compiles_marshal]

end

mutual

/-- The same for the code that unpacks it. -/
lemma DataType.compiles_deMarshal : ∀ (t : DataType) (l : LVal) (n : Option Size) (g : Gen),
    (t.deMarshal l n g).1.compiles = t.nameable
  | .basic name, l, n, g => by
    simp only [DataType.deMarshal, DataType.nameable]
    split_ifs <;> rfl
  | .array c b, l, n, g => by
    simp only [DataType.deMarshal, DataType.nameable]
    split_ifs with hb
    · rw [DataType.compiles_deMarshal_basic hb, hb, Bool.true_or]
    · simp [Stmt.compiles, b.compiles_deMarshal, hb]
  | .ptr _ b, l, none, g => by
    simp only [DataType.deMarshal, DataType.nameable, b.compiles_deMarshal]
  | .ptr _ b, l, some n, g => by
    simp only [DataType.deMarshal, DataType.nameable]
    split_ifs with hb
    · rw [DataType.compiles_deMarshal_basic hb, DataType.nameable_basic hb]
    · simp only [Stmt.compiles, b.compiles_deMarshal]
  | .equal _ t, l, n, g => by
    simp only [DataType.deMarshal, DataType.nameable, t.compiles_deMarshal]
  | .struct _ as, l, n, g => by
    simp only [DataType.deMarshal, DataType.nameable, as.compiles_deMarshal]
  | .seqClass _ _, l, n, g => by
    simp only [DataType.deMarshal, DataType.nameable, Stmt.compiles]
  | .seq q k e, l, n, g => by
    simp only [DataType.deMarshal, DataType.nameable]
    split_ifs with hk
    · simp [Stmt.compiles, hk]
    · simp [Stmt.compiles, DataType.iterable, e.compiles_deMarshal, hk]
  | .map q k v, l, n, g => by
    simp [DataType.deMarshal, DataType.nameable, Stmt.compiles, k.compiles_deMarshal,
      v.compiles_deMarshal, Bool.and_assoc]
  | .parClass _, l, n, g => by
    simp only [DataType.deMarshal, DataType.nameable, Stmt.compiles]

lemma Attributes.compiles_deMarshal : ∀ (as : Attributes) (l : LVal) (k : ℕ) (g : Gen),
    (as.deMarshal l k g).1.compiles = as.nameable
  | .nil, l, k, g => rfl
  | .cons t f rest, l, k, g => by
    simp only [Attributes.deMarshal, Attributes.nameable, Stmt.compiles, t.compiles_deMarshal,
      rest.compiles_deMarshal]

end

/-! ### A pointer with its size -/

/-- A pointer to a block of values without pointers, or a typedef of one. -/
def DataType.blockPointer : DataType → Bool
  | .ptr _ b => b.pointerFree
  | .equal _ t => t.blockPointer
  | _ => false

section

variable {α : Type} {σ : State α} {n m : ℕ} {x : Var} [Inhabited α] (lt : KeyOrder α)

/-- The block behind a pointer, packed by a loop over its indices. -/
lemma simulates_packItems {item : Var} {l : LVal} {body : Stmt}
    {f : Rose α → Option (List (Item α))} {ts : List (Rose α)} (hl : l.Below n)
    (h : σ.read (l.loc σ) = some (.node ts)) (hx : σ.ints x.id = ts.length)
    (hitem : n ≤ item.id) (hm : n ≤ m)
    (hbody : ∀ u τ, u ∈ ts → τ.read (LVal.loc τ (.index l item)) = some u →
      Simulates (run lt body τ) (f u) (Packed τ m)) :
    Simulates (run lt (.forItems item (.var x) body) σ) (encodeAll f ts) (Packed σ n) := by
  simp only [run, Size.val, hx, Int.toNat_natCast]
  refine simulates_encodeAll ts σ n fun j u a τ hj hτ => ?_
  have hset := Packed.setInt τ hitem j
  refine hset.simulates_nil (hbody u _ (List.mem_of_getElem? hj) ?_) hm
  have hloc : LVal.loc (τ.setInt item j) (.index l item) = (l.loc σ).child j := by
    simp only [LVal.loc, hset.frame.loc_eq hl, hτ.frame.loc_eq hl]
    simp [State.setInt]
  rw [hloc, ← hj, ← read_child h, State.read, State.read, hset.objs, hτ.objs]

/-- The block behind a pointer, unpacked by a loop over its indices. -/
lemma simulates_unPackItems {item : Var} {l : LVal} {body : Stmt}
    {f : Rose α → List (Item α) → Option (Rose α × List (Item α))} {ts : List (Rose α)}
    (hl : l.Below n) (h : σ.read (l.loc σ) = some (.node ts)) (hx : σ.ints x.id = ts.length)
    (hitem : n ≤ item.id) (hm : n ≤ m)
    (hbody : ∀ u τ, u ∈ ts → τ.read (LVal.loc τ (.index l item)) = some u →
      (LVal.loc τ (.index l item)).obj = (l.loc σ).obj →
      Simulates (run lt body τ) (f u τ.buf) (Filled τ m (LVal.loc τ (.index l item)))) :
    Simulates (run lt (.forItems item (.var x) body) σ)
      ((decodeAll f ts σ.buf).map fun s => (.node s.1, s.2)) (Filled σ n (l.loc σ)) := by
  simp only [run, Size.val, hx, Int.toNat_natCast]
  refine simulates_decodeAll h fun j u r τ hj hτ hr => ?_
  have hset := Filled.setInt hitem hr (j : ℤ)
  have hloc : LVal.loc (τ.setInt item j) (.index l item) = (l.loc σ).child j := by
    simp only [LVal.loc, hset.loc_eq hl, hτ.loc_eq hl]
    simp [State.setInt]
  have hsim := hbody u _ (List.mem_of_getElem? hj) (by rw [hloc]; exact hset.read)
    (by rw [hloc]; rfl)
  rw [hloc] at hsim
  exact hset.simulates hsim hm

/-- Packing a block. -/
lemma DataType.simulates_marshal_block : ∀ (t : DataType) {l : LVal} {g : Gen} {σ : State α}
    {v : Rose α}, t.blockPointer → l.Below g.fresh → x.id < g.fresh →
    σ.ints x.id = v.children.length → σ.read (l.loc σ) = some v → t.HasType lt v →
    Simulates (run lt (t.marshal l (some (.var x)) g).1 σ) (t.encode v) (Packed σ g.fresh)
  | .ptr _ b, l, g, σ, v, hp, hl, hx, hsize, hr, hv => by
    obtain ⟨ts, rfl, hts⟩ := hv
    simp only [DataType.marshal, DataType.encode, Rose.children]
    by_cases hb : b.isStandardType
    · simp only [hb, if_true]
      exact simulates_packBlock lt hb _ hr hsize (by simp)
    · simp only [encodeBlock, if_neg hb]
      refine simulates_packItems (m := g.fresh + 1) lt hl hr hsize le_rfl (by simp) ?_
      intro u τ hu hτ
      refine b.simulates_marshal lt hp (fun y hy => ?_) hτ (hts u hu)
      rcases List.mem_cons.mp (by simpa only [LVal.vars] using hy) with rfl | hy
      · simp
      · exact (hl y hy).trans (by simp)
  | .equal _ t, l, g, σ, v, hp, hl, hx, hsize, hr, hv => by
    simp only [DataType.marshal, DataType.encode]
    exact t.simulates_marshal_block hp hl hx hsize hr hv

/-- Unpacking a block. -/
lemma DataType.simulates_deMarshal_block : ∀ (t : DataType) {l : LVal} {g : Gen}
    {σ : State α} {w : Rose α}, t.blockPointer → l.Below g.fresh → x.id < g.fresh →
    σ.ints x.id = w.children.length → (l.loc σ).obj < g.fresh →
    σ.read (l.loc σ) = some w → t.Holds w →
    Simulates (run lt (t.deMarshal l (some (.var x)) g).1 σ) (t.decode lt w σ.buf)
      (Filled σ g.fresh (l.loc σ))
  | .ptr _ b, l, g, σ, w, hp, hl, hx, hsize, hloc, hr, hw => by
    obtain ⟨ts, rfl, hts⟩ := hw
    simp only [DataType.deMarshal, DataType.decode, Rose.children]
    by_cases hb : b.isStandardType
    · simp only [hb, if_true]
      refine simulates_unPackBlock lt hb hl hr (fun τ hτ => ?_) (by simp)
      exact ((hτ g.fresh).ints x.id hx).trans hsize
    · simp only [decodeBlock, if_neg hb]
      refine simulates_unPackItems (m := g.fresh + 1) lt hl hr hsize le_rfl (by simp) ?_
      intro u τ hu hτ hobj
      refine b.simulates_deMarshal lt hp (fun y hy => ?_)
        (by rw [hobj]; exact hloc.trans (by simp)) hτ (hts u hu)
      rcases List.mem_cons.mp (by simpa only [LVal.vars] using hy) with rfl | hy
      · simp
      · exact (hl y hy).trans (by simp)
  | .equal _ t, l, g, σ, w, hp, hl, hx, hsize, hloc, hr, hw => by
    simp only [DataType.deMarshal, DataType.decode]
    exact t.simulates_deMarshal_block hp hl hx hsize hloc hr hw

/-- A block is read back into a block of the same length. -/
lemma DataType.decode_encode_block : ∀ (t : DataType) (v : Rose α), t.blockPointer →
    t.HasType lt v → t.fits v → ∃ a, t.encode v = some a ∧ ∀ w rest, t.HasType lt w →
      w.children.length = v.children.length → t.decode lt w (a ++ rest) = some (v, rest)
  | .ptr _ b, v, hp, hv, hf => by
    obtain ⟨ts, rfl, hts⟩ := hv
    obtain ⟨a, ha, hdec⟩ := decodeBlock_encodeBlock (P := b.HasType lt)
      (fun h1 h2 u => DataType.eq_node_of_isVoid lt h1 h2) hts
      (fun u hu => b.decode_encode lt u hp (hts u hu) (hf u hu))
    refine ⟨a, by rw [DataType.encode]; exact ha, ?_⟩
    rintro w rest ⟨ws, rfl, hws⟩ hlen
    simp only [DataType.decode, Rose.children]
    rw [hdec ws rest hlen hws]
    rfl
  | .equal _ t, v, hp, hv, hf => by
    obtain ⟨a, ha, hdec⟩ := t.decode_encode_block v hp hv hf
    refine ⟨a, by rw [DataType.encode]; exact ha, fun w rest hw hlen => ?_⟩
    rw [DataType.decode]
    exact hdec w rest hw hlen

end

/-! ### Parameters -/

mutual

/-- No vector of `bool` occurs in the type; its elements are not objects. -/
def DataType.noBoolVector : DataType → Bool
  | .basic _ => true
  | .array _ b => b.noBoolVector
  | .ptr _ b => b.noBoolVector
  | .equal _ t => t.noBoolVector
  | .struct _ as => as.noBoolVector
  | .seqClass _ _ => true
  | .seq _ k e => !(decide (k = .vector) && e.getExpandType == "bool") && e.noBoolVector
  | .map _ k v => k.noBoolVector && v.noBoolVector
  | .parClass _ => true

/-- The same for the attributes of a structure. -/
def Attributes.noBoolVector : Attributes → Bool
  | .nil => true
  | .cons t _ rest => t.noBoolVector && rest.noBoolVector

end

/-- The type of a parameter that can be sent: a pointer is the parameter itself, which has a size
expression then. -/
structure DataType.Sendable (t : DataType) (sized : Bool) : Prop where
  accepted : t.canMarshal ≠ 0
  pointers : if sized then t.blockPointer else t.pointerFree
  noBools : t.noBoolVector

section

variable {α : Type}

/-- A state in which the code of a parameter begins: the parameter is the object 0, and the
integer 1 is the size of a sized one. -/
structure Start (sized : Bool) (v : Rose α) (buf : List (Item α)) (σ : State α) : Prop where
  obj : σ.objs 0 = v
  size : sized → σ.ints 1 = v.children.length
  buf : σ.buf = buf
  ops : σ.ops = []

variable [Inhabited α] (lt : KeyOrder α) {t : DataType} {sized : Bool} {v w : Rose α}
  {buf : List (Item α)} {σ : State α}

/-- Whatever the target has contained before, unpacking what has been packed leaves it equal to
the value, with nothing in the buffer, and performs the operations of the packing. -/
def DataType.RoundTrips (t : DataType) (p : UserName) (sized : Bool) (c d : ℕ) (v : Rose α) :
    Prop :=
  ∀ w σ, t.HasType lt w → (sized → w.children.length = v.children.length) →
    Start sized v [] σ → ∃ σ', execute lt (t.marshalParam p sized c) σ = some σ' ∧
      ∀ τ, Start sized w σ'.buf τ → ∃ τ', execute lt (t.deMarshalParam p sized d) τ = some τ' ∧
        τ'.objs 0 = v ∧ τ'.buf = [] ∧ τ'.ops = σ'.ops

lemma simulates_marshalParam (h : t.Sendable sized) (p : UserName) (c : ℕ)
    (hσ : Start sized v buf σ) (hv : t.HasType lt v) :
    Simulates (run lt (t.marshalParam p sized c) σ) (t.encode v) (Packed σ 2) := by
  have hbelow : (LVal.var ⟨0, .user p.text⟩).Below 2 := LVal.below_of_vars rfl (by simp)
  have hread : σ.read (LVal.loc σ (.var ⟨0, .user p.text⟩)) = some v := by
    rw [← hσ.obj]
    exact Rose.get?_nil
  have hp := h.pointers
  cases sized with
  | false => exact t.simulates_marshal lt hp hbelow hread hv
  | true => exact t.simulates_marshal_block lt hp hbelow (by simp) (hσ.size rfl) hread hv

lemma simulates_deMarshalParam (h : t.Sendable sized) (p : UserName) (d : ℕ)
    (hσ : Start sized w buf σ) (hw : t.HasType lt w) :
    Simulates (run lt (t.deMarshalParam p sized d) σ) (t.decode lt w buf)
      (Filled σ 2 ⟨0, []⟩) := by
  have hbelow : (LVal.var ⟨0, .user p.text⟩).Below 2 := LVal.below_of_vars rfl (by simp)
  have hread : σ.read (LVal.loc σ (.var ⟨0, .user p.text⟩)) = some w := by
    rw [← hσ.obj]
    exact Rose.get?_nil
  have hp := h.pointers
  rw [← hσ.buf]
  cases sized with
  | false =>
    exact t.simulates_deMarshal lt hp hbelow (by simp [LVal.loc]) hread
      (t.holds_of_hasType lt hw)
  | true =>
    exact t.simulates_deMarshal_block lt hp hbelow (by simp) (hσ.size rfl) (by simp [LVal.loc])
      hread (t.holds_of_hasType lt hw)

lemma DataType.Sendable.decode_encode (h : t.Sendable sized) (hv : t.HasType lt v)
    (hf : t.fits v) : ∃ a, t.encode v = some a ∧ ∀ w, t.HasType lt w →
      (sized → w.children.length = v.children.length) → t.decode lt w a = some (v, []) := by
  have hp := h.pointers
  cases sized with
  | false =>
    obtain ⟨a, ha, hdec⟩ := t.decode_encode lt v hp hv hf
    exact ⟨a, ha, fun w hw _ => by simpa using hdec w [] hw⟩
  | true =>
    obtain ⟨a, ha, hdec⟩ := t.decode_encode_block lt v hp hv hf
    exact ⟨a, ha, fun w hw hlen => by simpa using hdec w [] hw (hlen rfl)⟩

lemma DataType.compiles_marshalParam (t : DataType) (p : UserName) (sized : Bool) (c : ℕ) :
    (t.marshalParam p sized c).compiles = t.nameable :=
  t.compiles_marshal _ _ _

lemma DataType.compiles_deMarshalParam (t : DataType) (p : UserName) (sized : Bool) (c : ℕ) :
    (t.deMarshalParam p sized c).compiles = t.nameable :=
  t.compiles_deMarshal _ _ _

/-- A value that fits survives. -/
lemma DataType.Sendable.roundTrips (h : t.Sendable sized) (hv : t.HasType lt v)
    (hname : t.nameable = true) (hf : t.fits v) (p : UserName) (c d : ℕ) :
    t.RoundTrips lt p sized c d v := by
  intro w σ hw hlen hσ
  obtain ⟨a, ha, hdec⟩ := h.decode_encode lt hv hf
  obtain ⟨σ', hs, hpacked⟩ := (simulates_marshalParam lt h p c hσ hv).done a ha
  have hbuf : σ'.buf = a := by simpa [hσ.buf] using hpacked.buf
  have hops : σ'.ops = a.map Item.op := by simpa [hσ.ops] using hpacked.ops
  refine ⟨σ', by rw [execute, t.compiles_marshalParam, if_pos hname, hs], fun τ hτ => ?_⟩
  rw [hbuf] at hτ
  obtain ⟨τ', hs', hfilled⟩ := (simulates_deMarshalParam lt h p d hτ hw).done _ (hdec w hw hlen)
  refine ⟨τ', by rw [execute, t.compiles_deMarshalParam, if_pos hname, hs'], hfilled.obj_eq,
    hfilled.buf, ?_⟩
  obtain ⟨b, hb, hops'⟩ := hfilled.ops
  have hab : a = b := by
    rw [hτ.buf] at hb
    simpa using hb
  rw [hops', hops, hτ.ops, hab]
  rfl

/-- A value that survives fits: what is read from a buffer is no larger than its sizes say. -/
lemma DataType.RoundTrips.fits {p : UserName} {c d : ℕ}
    (hround : t.RoundTrips lt p sized c d v) (h : t.Sendable sized) (hv : t.HasType lt v) :
    t.nameable = true ∧ t.fits v := by
  obtain ⟨σ, hσ⟩ : ∃ σ : State α, Start sized v [] σ :=
    ⟨⟨[], [], fun _ => v.children.length, fun _ => ⟨0, []⟩, fun _ => v⟩, rfl, fun _ => rfl, rfl,
      rfl⟩
  obtain ⟨σ', hpack, hunpack⟩ := hround v σ hv (fun _ => rfl) hσ
  obtain ⟨τ, hτ⟩ : ∃ τ : State α, Start sized v σ'.buf τ :=
    ⟨{ σ with buf := σ'.buf }, hσ.obj, hσ.size, rfl, hσ.ops⟩
  obtain ⟨τ', hrun, hobj, -, -⟩ := hunpack τ hτ
  simp only [execute, t.compiles_marshalParam, t.compiles_deMarshalParam] at hpack hrun
  split_ifs at hpack hrun with hname
  refine ⟨hname, ?_⟩
  have hsim := simulates_marshalParam lt h p c hσ hv
  have hsim' := simulates_deMarshalParam lt h p d hτ hv
  cases henc : t.encode v with
  | none => simp [hsim.stuck henc] at hpack
  | some a =>
    obtain ⟨s, hs, hpacked⟩ := hsim.done a henc
    obtain rfl : s = σ' := by simpa [hs] using hpack
    have hbuf : s.buf = a := by simpa [hσ.buf] using hpacked.buf
    rw [hbuf] at hsim'
    cases hdec : t.decode lt v a with
    | none => simp [hsim'.stuck hdec] at hrun
    | some r =>
      obtain ⟨s', hs', hfilled⟩ := hsim'.done r hdec
      obtain rfl : s' = τ' := by simpa [hs'] using hrun
      have hr : r.1 = v := by rw [← hfilled.obj_eq, hobj]
      rw [← hr]
      exact (t.fits_of_decode lt v a r (t.sizesFit_encode henc) hdec).1

/-- A value survives marshalling exactly if the emitted text can name the types in it and no
container in it has `2 ^ 31` elements or more. -/
theorem roundTrips_iff (t : DataType) (p : UserName) (sized : Bool) (c d : ℕ) (v : Rose α)
    (h : t.Sendable sized) (hv : t.HasType lt v) :
    t.RoundTrips lt p sized c d v ↔ t.nameable = true ∧ t.fits v :=
  ⟨fun hround => hround.fits lt h hv, fun ⟨hname, hf⟩ => h.roundTrips lt hv hname hf p c d⟩

end

/-- `struct Row { int id; std::vector<std::list<int>> cells; };` -/
def rowStruct : DataType :=
  .struct (some "Row") (.cons (.basic "int") "id"
    (.cons (.seq true .vector (.seq true .list (.basic "int"))) "cells" .nil))

/-- A row with the cells `{7, 8}` and `{}`. -/
def row : Rose ℕ :=
  .node [.leaf 1, .node [.node [.leaf 7, .leaf 8], .node []]]

theorem rowStruct_roundTrips :
    rowStruct.RoundTrips (fun _ _ _ => false) ⟨"r", by decide⟩ false 0 0 row := by
  have hrow : rowStruct.HasType (fun _ _ _ => false) row := by
    refine ⟨_, rfl, _, _, rfl, ⟨1, rfl⟩, _, _, rfl, ⟨_, rfl, ?_⟩, rfl⟩
    intro u hu
    rcases List.mem_pair.mp hu with rfl | rfl
    · exact ⟨_, rfl, by simp [DataType.HasType]⟩
    · exact ⟨_, rfl, by simp⟩
  refine (roundTrips_iff _ rowStruct ⟨"r", by decide⟩ false 0 0 row
    ⟨by decide, by decide, by decide⟩ hrow).mpr ⟨by decide, ?_⟩
  simp [rowStruct, row, DataType.fits, Attributes.fits, Rose.children]

/-- `struct Buckets { std::vector<int> lists[4]; };` -/
def bucketStruct : DataType :=
  .struct (some "Buckets") (.cons (.array ⟨[⟨"4", 4, []⟩], by decide⟩
    (.seq true .vector (.basic "int"))) "lists" .nil)

/-- Buckets with the lists `{1}`, `{2, 3}`, `{}` and `{4}`. -/
def buckets : Rose ℕ :=
  .node [.node [.node [.leaf 1], .node [.leaf 2, .leaf 3], .node [], .node [.leaf 4]]]

/-- Buckets can be marshalled, and the code that packs them declares a pointer to `std::vector`,
which is not a type. -/
theorem buckets_not_roundTrips :
    bucketStruct.Sendable false ∧ bucketStruct.HasType (fun _ _ _ => false) buckets ∧
    (bucketStruct.marshalParam ⟨"b", by decide⟩ false 0).compiles = false ∧
    ¬ bucketStruct.RoundTrips (fun _ _ _ => false) ⟨"b", by decide⟩ false 0 0 buckets := by
  have hsend : bucketStruct.Sendable false := ⟨by decide, by decide, by decide⟩
  have htype : bucketStruct.HasType (fun _ _ _ => false) buckets := by
    refine ⟨_, rfl, _, _, rfl, ⟨_, rfl, by decide, ?_⟩, rfl⟩
    simp [DataType.HasType]
  refine ⟨hsend, htype, by decide, fun hround => ?_⟩
  have hname := (hround.fits _ hsend htype).1
  exact absurd hname (by decide)

end Parser
