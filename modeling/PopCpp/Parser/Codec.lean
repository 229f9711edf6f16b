/-
# The wire format of a type

What the code of a type does to the buffer, as two functions: `encode` gives the items that a
value is packed into, `decode` reads a value back into a target.  The size of a container goes
through an `int`, so that both are partial and `decode` does not invert `encode` on every value.
`DataType.fits` is the exact condition: no container in the value has `2 ^ 31` elements or more.

The functions are about types without pointers; a pointer is a block of memory, which only a
parameter itself can be.
-/
import PopCpp.Parser.Semantics

namespace Parser

variable {α : Type} (lt : KeyOrder α)

/-! ### Values -/

mutual

/-- The values of a type. -/
def DataType.HasType : DataType → Rose α → Prop
  | .basic name, v => if name = "void" then v = .node [] else ∃ a, v = .leaf a
  | .array c b, v => ∃ ts, v = .node ts ∧ ts.length = c.size ∧ ∀ u ∈ ts, b.HasType u
  | .ptr _ b, v => ∃ ts, v = .node ts ∧ ∀ u ∈ ts, b.HasType u
  | .equal _ t, v => t.HasType v
  | .struct _ as, v => ∃ ts, v = .node ts ∧ as.HasTypes ts
  | .seqClass _ _, v => ∃ a, v = .leaf a
  | .seq _ _ e, v => ∃ ts, v = .node ts ∧ ∀ u ∈ ts, e.HasType u
  | .map _ k w, v => ∃ ts, v = .node ts ∧
      (∀ u ∈ ts, ∃ a b, u = .node [a, b] ∧ k.HasType a ∧ w.HasType b) ∧
      ts.Pairwise fun u u' => lt k (entryKey u) (entryKey u') = true
  | .parClass _, v => ∃ a, v = .leaf a

/-- The values of the attributes of a structure. -/
def Attributes.HasTypes : Attributes → List (Rose α) → Prop
  | .nil, ts => ts = []
  | .cons t _ rest, ts => ∃ u us, ts = u :: us ∧ t.HasType u ∧ rest.HasTypes us

end

mutual

/-- No container in a value is larger than an `int` can say. -/
def DataType.fits : DataType → Rose α → Prop
  | .basic _, _ => True
  | .array _ b, v => ∀ u ∈ v.children, b.fits u
  | .ptr _ b, v => ∀ u ∈ v.children, b.fits u
  | .equal _ t, v => t.fits v
  | .struct _ as, v => as.fits v.children
  | .seqClass _ _, _ => True
  | .seq _ _ e, v => v.children.length < 2 ^ 31 ∧ ∀ u ∈ v.children, e.fits u
  | .map _ k w, v => v.children.length < 2 ^ 31 ∧
      ∀ u ∈ v.children, k.fits (u.child 0) ∧ w.fits (u.child 1)
  | .parClass _, _ => True

/-- The same for the attributes of a structure. -/
def Attributes.fits : Attributes → List (Rose α) → Prop
  | .nil, _ => True
  | .cons t _ rest, ts => t.fits (ts.headD (.node [])) ∧ rest.fits ts.tail

end

mutual

/-- An object of the type, whatever its contents: the shape that the code which unpacks the type
needs of its target. -/
def DataType.Holds : DataType → Rose α → Prop
  | .basic _, _ => True
  | .array c b, w => ∃ ts, w = .node ts ∧ ts.length = c.size ∧ ∀ u ∈ ts, b.Holds u
  | .ptr _ b, w => ∃ ts, w = .node ts ∧ ∀ u ∈ ts, b.Holds u
  | .equal _ t, w => t.Holds w
  | .struct _ as, w => ∃ ts, w = .node ts ∧ as.Holds ts
  | .seqClass _ _, _ => True
  | .seq _ _ e, w => ∃ ts, w = .node ts ∧ ∀ u ∈ ts, e.Holds u
  | .map _ _ _, w => ∃ ts, w = .node ts
  | .parClass _, _ => True

/-- The same for the attributes of a structure. -/
def Attributes.Holds : Attributes → List (Rose α) → Prop
  | .nil, ts => ts = []
  | .cons t _ rest, ts => ∃ u us, ts = u :: us ∧ t.Holds u ∧ rest.Holds us

end

mutual

lemma DataType.holds_of_hasType : ∀ (t : DataType) {v : Rose α}, t.HasType lt v → t.Holds v
  | .basic _, _, _ => trivial
  | .array _ b, _, ⟨ts, h1, h2, h3⟩ => ⟨ts, h1, h2, fun u hu => b.holds_of_hasType (h3 u hu)⟩
  | .ptr _ b, _, ⟨ts, h1, h2⟩ => ⟨ts, h1, fun u hu => b.holds_of_hasType (h2 u hu)⟩
  | .equal _ t, _, h => t.holds_of_hasType h
  | .struct _ as, _, ⟨ts, h1, h2⟩ => ⟨ts, h1, as.holds_of_hasTypes h2⟩
  | .seqClass _ _, _, _ => trivial
  | .seq _ _ e, _, ⟨ts, h1, h2⟩ => ⟨ts, h1, fun u hu => e.holds_of_hasType (h2 u hu)⟩
  | .map _ _ _, _, ⟨ts, h1, _⟩ => ⟨ts, h1⟩
  | .parClass _, _, _ => trivial

lemma Attributes.holds_of_hasTypes : ∀ (as : Attributes) {ts : List (Rose α)},
    as.HasTypes lt ts → as.Holds ts
  | .nil, _, h => h
  | .cons t _ rest, _, ⟨u, us, h1, h2, h3⟩ =>
    ⟨u, us, h1, t.holds_of_hasType h2, rest.holds_of_hasTypes h3⟩

end

/-! ### Encoding -/

/-- The items of a list of values. -/
def encodeAll (f : Rose α → Option (List (Item α))) : List (Rose α) → Option (List (Item α))
  | [] => some []
  | v :: vs => (f v).bind fun a => (encodeAll f vs).map fun b => a ++ b

/-- The items of the elements of an array; those of a standard type go in one piece. -/
def encodeBlock (b : DataType) (f : Rose α → Option (List (Item α))) (vs : List (Rose α)) :
    Option (List (Item α)) :=
  if b.isStandardType then
    if b.isVoid then some [] else some [.data (b.getName.getD "") vs]
  else encodeAll f vs

mutual

/-- The items that a value is packed into. -/
def DataType.encode : DataType → Rose α → Option (List (Item α))
  | .basic name, v => if name = "void" then some [] else some [.data name [v]]
  | .array _ b, v => encodeBlock b b.encode v.children
  | .ptr _ b, v => encodeBlock b b.encode v.children
  | .equal _ t, v => t.encode v
  | .struct _ as, v => as.encode v.children
  | .seqClass name _, v => some [.object name v]
  | .seq _ k e, v =>
    if k = .vector ∧ e.isStandardType then
      if 0 ≤ CInt.wrap v.children.length then
        some [.size (CInt.wrap v.children.length), .data (e.getName.getD "")
          (v.children.take (CInt.wrap v.children.length).toNat)]
      else none
    else
      (encodeAll e.encode v.children).map fun a => .size (CInt.wrap v.children.length) :: a
  | .map _ k w, v =>
    (encodeAll (fun u => (k.encode (u.child 0)).bind fun a =>
      (w.encode (u.child 1)).map fun b => a ++ b) v.children).map
        fun a => .size (CInt.wrap v.children.length) :: a
  | .parClass name, v => some [.object name v]

/-- The items of the attributes of a structure. -/
def Attributes.encode : Attributes → List (Rose α) → Option (List (Item α))
  | .nil, _ => some []
  | .cons t _ rest, ts => (t.encode (ts.headD (.node []))).bind fun a =>
    (rest.encode ts.tail).map fun b => a ++ b

end

/-- The elements of a vector of a standard type go in one piece. -/
lemma DataType.encode_vector {q : Bool} {k : SeqKind} {e : DataType}
    (hk : k = .vector ∧ e.isStandardType) (ts : List (Rose α)) :
    (DataType.seq q k e).encode (.node ts) =
      if 0 ≤ CInt.wrap ts.length then
        some [.size (CInt.wrap ts.length), .data (e.getName.getD "")
          (ts.take (CInt.wrap ts.length).toNat)]
      else none := by
  rw [DataType.encode, if_pos hk]
  rfl

/-- The sizes in a buffer are `int`s. -/
def SizesFit (buf : List (Item α)) : Prop := ∀ n, Item.size n ∈ buf → n < 2 ^ 31

lemma SizesFit.append {a b : List (Item α)} (ha : SizesFit a) (hb : SizesFit b) :
    SizesFit (a ++ b) := by
  intro n hn
  rcases List.mem_append.mp hn with h | h
  · exact ha n h
  · exact hb n h

lemma sizesFit_nil : SizesFit ([] : List (Item α)) := by
  intro n hn
  cases hn

lemma SizesFit.cons_wrap {a : List (Item α)} (ha : SizesFit a) (x : ℤ) :
    SizesFit (.size (CInt.wrap x) :: a) := by
  intro n hn
  rcases List.mem_cons.mp hn with h | h
  · obtain rfl : n = CInt.wrap x := by simpa using h
    exact (CInt.fits_wrap x).2
  · exact ha n h

lemma sizesFit_encodeAll {f : Rose α → Option (List (Item α))} {vs : List (Rose α)}
    (hf : ∀ v a, f v = some a → SizesFit a) {a : List (Item α)} (h : encodeAll f vs = some a) :
    SizesFit a := by
  induction vs generalizing a with
  | nil =>
    obtain rfl : [] = a := by simpa [encodeAll] using h
    exact sizesFit_nil
  | cons v vs ih =>
    obtain ⟨b, hb, hrest⟩ := Option.bind_eq_some_iff.mp (by simpa only [encodeAll] using h)
    obtain ⟨c, hc, rfl⟩ := Option.map_eq_some_iff.mp hrest
    exact (hf v b hb).append (ih hc)

lemma sizesFit_data (type : String) (vs : List (Rose α)) : SizesFit [Item.data type vs] := by
  intro n hn
  simp at hn

lemma sizesFit_encodeBlock {b : DataType} {f : Rose α → Option (List (Item α))}
    {vs : List (Rose α)} (hf : ∀ v a, f v = some a → SizesFit a) {a : List (Item α)}
    (h : encodeBlock b f vs = some a) : SizesFit a := by
  rw [encodeBlock] at h
  split_ifs at h with h1 h2
  · obtain rfl : [] = a := by simpa using h
    exact sizesFit_nil
  · obtain rfl : [Item.data (b.getName.getD "") vs] = a := by simpa using h
    exact sizesFit_data _ _
  · exact sizesFit_encodeAll hf h

mutual

lemma DataType.sizesFit_encode : ∀ (t : DataType) {v : Rose α} {a : List (Item α)},
    t.encode v = some a → SizesFit a
  | .basic name, v, a, h => by
    rw [DataType.encode] at h
    split_ifs at h
    · obtain rfl : [] = a := by simpa using h
      exact sizesFit_nil
    · obtain rfl : [Item.data name [v]] = a := by simpa using h
      exact sizesFit_data _ _
  | .array _ b, v, a, h =>
    sizesFit_encodeBlock (fun _ _ h => b.sizesFit_encode h)
      (by simpa only [DataType.encode] using h)
  | .ptr _ b, v, a, h =>
    sizesFit_encodeBlock (fun _ _ h => b.sizesFit_encode h)
      (by simpa only [DataType.encode] using h)
  | .equal _ t, v, a, h => t.sizesFit_encode (by simpa only [DataType.encode] using h)
  | .struct _ as, v, a, h => as.sizesFit_encode (by simpa only [DataType.encode] using h)
  | .seqClass name _, v, a, h => by
    obtain rfl : [Item.object name v] = a := by simpa [DataType.encode] using h
    intro n hn
    simp at hn
  | .seq _ k e, v, a, h => by
    rw [DataType.encode] at h
    split_ifs at h with h1 h2
    · obtain rfl := Option.some.inj h
      exact (sizesFit_data _ _).cons_wrap _
    · obtain ⟨c, hc, rfl⟩ := Option.map_eq_some_iff.mp h
      exact (sizesFit_encodeAll (fun _ _ h => e.sizesFit_encode h) hc).cons_wrap _
  | .map _ k w, v, a, h => by
    rw [DataType.encode] at h
    obtain ⟨c, hc, rfl⟩ := Option.map_eq_some_iff.mp h
    refine (sizesFit_encodeAll (fun u d hd => ?_) hc).cons_wrap _
    obtain ⟨x, hx, hrest⟩ := Option.bind_eq_some_iff.mp hd
    obtain ⟨y, hy, rfl⟩ := Option.map_eq_some_iff.mp hrest
    exact (k.sizesFit_encode hx).append (w.sizesFit_encode hy)
  | .parClass name, v, a, h => by
    obtain rfl : [Item.object name v] = a := by simpa [DataType.encode] using h
    intro n hn
    simp at hn

lemma Attributes.sizesFit_encode : ∀ (as : Attributes) {ts : List (Rose α)}
    {a : List (Item α)}, as.encode ts = some a → SizesFit a
  | .nil, ts, a, h => by
    obtain rfl : [] = a := by simpa [Attributes.encode] using h
    exact sizesFit_nil
  | .cons t _ rest, ts, a, h => by
    rw [Attributes.encode] at h
    obtain ⟨x, hx, hrest⟩ := Option.bind_eq_some_iff.mp h
    obtain ⟨y, hy, rfl⟩ := Option.map_eq_some_iff.mp hrest
    exact (t.sizesFit_encode hx).append (rest.sizesFit_encode hy)

end

/-! ### Decoding -/

/-- `UnPack` of `n` values of a standard type. -/
def takeData (type : String) (n : ℕ) : List (Item α) → Option (List (Rose α) × List (Item α))
  | .data type' vs :: rest => if type' = type ∧ vs.length = n then some (vs, rest) else none
  | _ => none

/-- `UnPack` of a size. -/
def takeSize : List (Item α) → Option (ℤ × List (Item α))
  | .size n :: rest => some (n, rest)
  | _ => none

/-- `Serialize(buf, false)`. -/
def takeObject (type : String) : List (Item α) → Option (Rose α × List (Item α))
  | .object type' v :: rest => if type' = type then some (v, rest) else none
  | _ => none

/-- Read a list of values, each into its own target. -/
def decodeAll (f : Rose α → List (Item α) → Option (Rose α × List (Item α))) :
    List (Rose α) → List (Item α) → Option (List (Rose α) × List (Item α))
  | [], buf => some ([], buf)
  | w :: ws, buf => (f w buf).bind fun r => (decodeAll f ws r.2).map fun s => (r.1 :: s.1, s.2)

/-- Read the elements of an array. -/
def decodeBlock (b : DataType) (f : Rose α → List (Item α) → Option (Rose α × List (Item α)))
    (ws : List (Rose α)) (buf : List (Item α)) : Option (List (Rose α) × List (Item α)) :=
  if b.isStandardType then
    if b.isVoid then some (ws, buf) else takeData (b.getName.getD "") ws.length buf
  else decodeAll f ws buf

/-- Read `n` entries into a map, key and value each through one variable. -/
def decodeEntries (less : Rose α → Rose α → Bool)
    (f g : Rose α → List (Item α) → Option (Rose α × List (Item α))) :
    ℕ → (key value : Rose α) → List (Rose α) → List (Item α) →
      Option (List (Rose α) × List (Item α))
  | 0, _, _, es, buf => some (es, buf)
  | n + 1, key, value, es, buf => (f key buf).bind fun r => (g value r.2).bind fun s =>
    decodeEntries less f g n r.1 s.1 (insertEntry less r.1 s.1 es) s.2

/-! ### What is decoded fits -/

lemma SizesFit.tail {i : Item α} {buf : List (Item α)} (h : SizesFit (i :: buf)) :
    SizesFit buf :=
  fun n hn => h n (List.mem_cons_of_mem i hn)

lemma takeData_eq_some {type : String} {n : ℕ} {buf : List (Item α)}
    {r : List (Rose α) × List (Item α)} (h : takeData type n buf = some r) :
    buf = .data type r.1 :: r.2 ∧ r.1.length = n := by
  unfold takeData at h
  split at h
  · split_ifs at h with hc
    obtain rfl := Option.some.inj h
    obtain ⟨rfl, rfl⟩ := hc
    exact ⟨rfl, rfl⟩
  · cases h

lemma takeSize_eq_some {buf : List (Item α)} {r : ℤ × List (Item α)}
    (h : takeSize buf = some r) : buf = .size r.1 :: r.2 := by
  unfold takeSize at h
  split at h
  · obtain rfl := Option.some.inj h
    rfl
  · cases h

lemma takeObject_eq_some {type : String} {buf : List (Item α)} {r : Rose α × List (Item α)}
    (h : takeObject type buf = some r) : buf = .object type r.1 :: r.2 := by
  unfold takeObject at h
  split at h
  · split_ifs at h with hc
    obtain rfl := Option.some.inj h
    rw [hc]
  · cases h

section Lists

variable {P : Rose α → Prop} {f : Rose α → List (Item α) → Option (Rose α × List (Item α))}

lemma decodeAll_fits
    (hf : ∀ w buf r, SizesFit buf → f w buf = some r → P r.1 ∧ SizesFit r.2)
    {ws : List (Rose α)} {buf : List (Item α)} {r : List (Rose α) × List (Item α)}
    (hbuf : SizesFit buf) (h : decodeAll f ws buf = some r) :
    (∀ v ∈ r.1, P v) ∧ r.1.length = ws.length ∧ SizesFit r.2 := by
  induction ws generalizing buf r with
  | nil =>
    obtain rfl : ([], buf) = r := by simpa [decodeAll] using h
    exact ⟨by simp, rfl, hbuf⟩
  | cons w ws ih =>
    obtain ⟨x, hx, hrest⟩ := Option.bind_eq_some_iff.mp (by simpa only [decodeAll] using h)
    obtain ⟨y, hy, rfl⟩ := Option.map_eq_some_iff.mp hrest
    obtain ⟨hP, hbuf'⟩ := hf w buf x hbuf hx
    obtain ⟨hPs, hlen, hbuf''⟩ := ih hbuf' hy
    exact ⟨by simpa using ⟨hP, hPs⟩, by simp [hlen], hbuf''⟩

lemma decodeBlock_fits {b : DataType} (hstd : ∀ name, b = .basic name → ∀ v, P v)
    (hf : ∀ w buf r, SizesFit buf → f w buf = some r → P r.1 ∧ SizesFit r.2)
    {ws : List (Rose α)} {buf : List (Item α)} {r : List (Rose α) × List (Item α)}
    (hbuf : SizesFit buf) (h : decodeBlock b f ws buf = some r) :
    (∀ v ∈ r.1, P v) ∧ SizesFit r.2 := by
  unfold decodeBlock at h
  split_ifs at h with h1 h2
  · obtain ⟨name, rfl, -⟩ := DataType.eq_basic_of_isStandardType h1
    obtain rfl := Option.some.inj h
    exact ⟨fun v _ => hstd name rfl v, hbuf⟩
  · obtain ⟨name, rfl, -⟩ := DataType.eq_basic_of_isStandardType h1
    obtain ⟨rfl, -⟩ := takeData_eq_some h
    exact ⟨fun v _ => hstd name rfl v, hbuf.tail⟩
  · obtain ⟨h3, -, h4⟩ := decodeAll_fits hf hbuf h
    exact ⟨h3, h4⟩

lemma decodeAll_holds {Q : Rose α → Prop}
    (hf : ∀ w buf r, Q w → f w buf = some r → Q r.1) {ws : List (Rose α)}
    {buf : List (Item α)} {r : List (Rose α) × List (Item α)} (hws : ∀ w ∈ ws, Q w)
    (h : decodeAll f ws buf = some r) : r.1.length = ws.length ∧ ∀ v ∈ r.1, Q v := by
  induction ws generalizing buf r with
  | nil =>
    obtain rfl : ([], buf) = r := by simpa [decodeAll] using h
    exact ⟨rfl, by simp⟩
  | cons w ws ih =>
    obtain ⟨hw, hws⟩ := List.forall_mem_cons.mp hws
    obtain ⟨x, hx, hrest⟩ := Option.bind_eq_some_iff.mp (by simpa only [decodeAll] using h)
    obtain ⟨y, hy, rfl⟩ := Option.map_eq_some_iff.mp hrest
    obtain ⟨hlen, hQ⟩ := ih hws hy
    exact ⟨by simp [hlen], by simpa using ⟨hf w buf x hw hx, hQ⟩⟩

lemma decodeBlock_holds {Q : Rose α → Prop} {b : DataType}
    (hstd : ∀ name, b = .basic name → ∀ v, Q v)
    (hf : ∀ w buf r, Q w → f w buf = some r → Q r.1) {ws : List (Rose α)}
    {buf : List (Item α)} {r : List (Rose α) × List (Item α)} (hws : ∀ w ∈ ws, Q w)
    (h : decodeBlock b f ws buf = some r) : r.1.length = ws.length ∧ ∀ v ∈ r.1, Q v := by
  unfold decodeBlock at h
  split_ifs at h with h1 h2
  · obtain rfl := Option.some.inj h
    exact ⟨rfl, hws⟩
  · obtain ⟨name, rfl, -⟩ := DataType.eq_basic_of_isStandardType h1
    exact ⟨(takeData_eq_some h).2, fun v _ => hstd name rfl v⟩
  · exact decodeAll_holds hf hws h

/-- Every entry of the map after an insertion is an old one or has the new value. -/
lemma insertEntry_forall {less : Rose α → Rose α → Bool} {k v : Rose α} {es : List (Rose α)}
    {Q R : Rose α → Prop} (hk : Q k) (hv : R v)
    (hes : ∀ e ∈ es, Q (entryKey e) ∧ Q (e.child 0) ∧ R (e.child 1)) :
    ∀ e ∈ insertEntry less k v es, Q (entryKey e) ∧ Q (e.child 0) ∧ R (e.child 1) := by
  induction es with
  | nil => simp [insertEntry, entryKey, Rose.child, Rose.children, hk, hv]
  | cons e es ih =>
    obtain ⟨he, hes⟩ := List.forall_mem_cons.mp hes
    unfold insertEntry
    split_ifs
    · exact List.forall_mem_cons.mpr ⟨he, ih hes⟩
    · refine List.forall_mem_cons.mpr ⟨?_, List.forall_mem_cons.mpr ⟨he, hes⟩⟩
      simp [entryKey, Rose.child, Rose.children, hk, hv]
    · refine List.forall_mem_cons.mpr ⟨?_, hes⟩
      exact ⟨he.1, he.1, hv⟩

lemma length_insertEntry_le (less : Rose α → Rose α → Bool) (k v : Rose α)
    (es : List (Rose α)) : (insertEntry less k v es).length ≤ es.length + 1 := by
  induction es with
  | nil => simp [insertEntry]
  | cons e es ih =>
    unfold insertEntry
    split_ifs <;> simp [ih]

variable {g : Rose α → List (Item α) → Option (Rose α × List (Item α))} {Q R : Rose α → Prop}

lemma decodeEntries_fits {less : Rose α → Rose α → Bool}
    (hf : ∀ w buf r, SizesFit buf → f w buf = some r → Q r.1 ∧ SizesFit r.2)
    (hg : ∀ w buf r, SizesFit buf → g w buf = some r → R r.1 ∧ SizesFit r.2)
    {n : ℕ} {key value : Rose α} {es : List (Rose α)} {buf : List (Item α)}
    {r : List (Rose α) × List (Item α)} (hbuf : SizesFit buf)
    (hes : ∀ e ∈ es, Q (entryKey e) ∧ Q (e.child 0) ∧ R (e.child 1))
    (h : decodeEntries less f g n key value es buf = some r) :
    (∀ e ∈ r.1, Q (e.child 0) ∧ R (e.child 1)) ∧ r.1.length ≤ es.length + n ∧
      SizesFit r.2 := by
  induction n generalizing key value es buf with
  | zero =>
    obtain rfl : (es, buf) = r := by simpa [decodeEntries] using h
    exact ⟨fun e he => (hes e he).2, le_rfl, hbuf⟩
  | succ n ih =>
    obtain ⟨x, hx, hrest⟩ := Option.bind_eq_some_iff.mp (by simpa only [decodeEntries] using h)
    obtain ⟨y, hy, hrest⟩ := Option.bind_eq_some_iff.mp hrest
    obtain ⟨hQ, hbuf'⟩ := hf key buf x hbuf hx
    obtain ⟨hR, hbuf''⟩ := hg value x.2 y hbuf' hy
    obtain ⟨h1, h2, h3⟩ := ih hbuf'' (insertEntry_forall hQ hR hes) hrest
    have hlen := length_insertEntry_le less x.1 y.1 es
    exact ⟨h1, by omega, h3⟩

end Lists

lemma length_resized (u : Rose α) (n : ℕ) (ts : List (Rose α)) :
    (resized u n ts).length = n := by
  simp only [resized, List.length_append, List.length_take, List.length_replicate]
  omega

variable [Inhabited α]

mutual

/-- Read a value into a target. -/
def DataType.decode : DataType → Rose α → List (Item α) → Option (Rose α × List (Item α))
  | .basic name, w, buf =>
    if name = "void" then some (w, buf)
    else (takeData name 1 buf).map fun r => (r.1.headD w, r.2)
  | .array _ b, w, buf =>
    (decodeBlock b b.decode w.children buf).map fun r => (.node r.1, r.2)
  | .ptr _ b, w, buf =>
    (decodeBlock b b.decode w.children buf).map fun r => (.node r.1, r.2)
  | .equal _ t, w, buf => t.decode w buf
  | .struct _ as, w, buf => (as.decode w.children buf).map fun r => (.node r.1, r.2)
  | .seqClass name _, _, buf => takeObject name buf
  | .seq _ k e, w, buf => (takeSize buf).bind fun r =>
    if 0 ≤ r.1 then
      if k = .vector ∧ e.isStandardType then
        (takeData (e.getName.getD "") r.1.toNat r.2).map fun s => (.node s.1, s.2)
      else (decodeAll e.decode (resized e.init r.1.toNat w.children) r.2).map
        fun s => (.node s.1, s.2)
    else none
  | .map _ k w, _, buf => (takeSize buf).bind fun r =>
    (decodeEntries (lt k) k.decode w.decode r.1.toNat k.init w.init [] r.2).map
      fun s => (.node s.1, s.2)
  | .parClass name, _, buf => takeObject name buf

/-- Read the attributes of a structure. -/
def Attributes.decode : Attributes → List (Rose α) → List (Item α) →
    Option (List (Rose α) × List (Item α))
  | .nil, ts, buf => some (ts, buf)
  | .cons t _ rest, ts, buf => (t.decode (ts.headD (.node [])) buf).bind fun r =>
    (rest.decode ts.tail r.2).map fun s => (r.1 :: s.1, s.2)

end

mutual

/-- Whatever is read from a buffer with sizes in `int`s fits. -/
lemma DataType.fits_of_decode : ∀ (t : DataType) (w : Rose α) (buf : List (Item α))
    (r : Rose α × List (Item α)), SizesFit buf → t.decode lt w buf = some r →
    t.fits r.1 ∧ SizesFit r.2
  | .basic name, w, buf, r, hbuf, h => by
    rw [DataType.decode] at h
    split_ifs at h
    · obtain rfl := Option.some.inj h
      exact ⟨trivial, hbuf⟩
    · obtain ⟨x, hx, rfl⟩ := Option.map_eq_some_iff.mp h
      obtain ⟨rfl, -⟩ := takeData_eq_some hx
      exact ⟨trivial, hbuf.tail⟩
  | .array _ b, w, buf, r, hbuf, h => by
    rw [DataType.decode] at h
    obtain ⟨x, hx, rfl⟩ := Option.map_eq_some_iff.mp h
    exact decodeBlock_fits (P := b.fits) (by rintro name rfl v; exact trivial)
      (fun w buf r hb => b.fits_of_decode w buf r hb) hbuf hx
  | .ptr _ b, w, buf, r, hbuf, h => by
    rw [DataType.decode] at h
    obtain ⟨x, hx, rfl⟩ := Option.map_eq_some_iff.mp h
    exact decodeBlock_fits (P := b.fits) (by rintro name rfl v; exact trivial)
      (fun w buf r hb => b.fits_of_decode w buf r hb) hbuf hx
  | .equal _ t, w, buf, r, hbuf, h =>
    t.fits_of_decode w buf r hbuf (by simpa only [DataType.decode] using h)
  | .struct _ as, w, buf, r, hbuf, h => by
    rw [DataType.decode] at h
    obtain ⟨x, hx, rfl⟩ := Option.map_eq_some_iff.mp h
    exact as.fits_of_decode w.children buf x hbuf hx
  | .seqClass name _, w, buf, r, hbuf, h => by
    rw [DataType.decode] at h
    rw [takeObject_eq_some h] at hbuf
    exact ⟨trivial, hbuf.tail⟩
  | .seq _ k e, w, buf, r, hbuf, h => by
    rw [DataType.decode] at h
    obtain ⟨x, hx, hrest⟩ := Option.bind_eq_some_iff.mp h
    rw [takeSize_eq_some hx] at hbuf
    -- the count comes from the buffer, so the container is no longer than an `int` says
    have hx1 : x.1 < 2 ^ 31 := hbuf x.1 (by simp)
    split_ifs at hrest with h0 h1
    · obtain ⟨y, hy, rfl⟩ := Option.map_eq_some_iff.mp hrest
      obtain ⟨hy2, hlen⟩ := takeData_eq_some hy
      obtain ⟨name, rfl, -⟩ := DataType.eq_basic_of_isStandardType h1.2
      have hbuf' := hbuf.tail
      rw [hy2] at hbuf'
      refine ⟨⟨?_, fun u _ => trivial⟩, hbuf'.tail⟩
      simp only [Rose.children]
      omega
    · obtain ⟨y, hy, rfl⟩ := Option.map_eq_some_iff.mp hrest
      obtain ⟨h2, h3, h4⟩ := decodeAll_fits (P := e.fits)
        (fun w buf r hb => e.fits_of_decode w buf r hb) hbuf.tail hy
      rw [length_resized] at h3
      refine ⟨⟨?_, h2⟩, h4⟩
      simp only [Rose.children]
      omega
  | .map _ k w, _, buf, r, hbuf, h => by
    rw [DataType.decode] at h
    obtain ⟨x, hx, hrest⟩ := Option.bind_eq_some_iff.mp h
    rw [takeSize_eq_some hx] at hbuf
    have hx1 : x.1 < 2 ^ 31 := hbuf x.1 (by simp)
    obtain ⟨y, hy, rfl⟩ := Option.map_eq_some_iff.mp hrest
    obtain ⟨h2, h3, h4⟩ := decodeEntries_fits (Q := k.fits) (R := w.fits)
      (fun w buf r hb => k.fits_of_decode w buf r hb)
      (fun u buf r hb => w.fits_of_decode u buf r hb) hbuf.tail (by simp) hy
    refine ⟨⟨?_, h2⟩, h4⟩
    simp only [Rose.children]
    simp only [List.length_nil] at h3
    omega
  | .parClass name, w, buf, r, hbuf, h => by
    rw [DataType.decode] at h
    rw [takeObject_eq_some h] at hbuf
    exact ⟨trivial, hbuf.tail⟩

lemma Attributes.fits_of_decode : ∀ (as : Attributes) (ws : List (Rose α))
    (buf : List (Item α)) (r : List (Rose α) × List (Item α)), SizesFit buf →
    as.decode lt ws buf = some r → as.fits r.1 ∧ SizesFit r.2
  | .nil, ws, buf, r, hbuf, h => by
    obtain rfl : (ws, buf) = r := by simpa [Attributes.decode] using h
    exact ⟨trivial, hbuf⟩
  | .cons t _ rest, ws, buf, r, hbuf, h => by
    rw [Attributes.decode] at h
    obtain ⟨x, hx, hrest⟩ := Option.bind_eq_some_iff.mp h
    obtain ⟨y, hy, rfl⟩ := Option.map_eq_some_iff.mp hrest
    obtain ⟨h1, h2⟩ := t.fits_of_decode _ buf x hbuf hx
    obtain ⟨h3, h4⟩ := rest.fits_of_decode _ x.2 y h2 hy
    exact ⟨⟨h1, h3⟩, h4⟩

end

/-! ### Decoding inverts encoding -/

mutual

/-- No pointer occurs in the type. -/
def DataType.pointerFree : DataType → Bool
  | .basic _ => true
  | .array _ b => b.pointerFree
  | .ptr _ _ => false
  | .equal _ t => t.pointerFree
  | .struct _ as => as.pointerFree
  | .seqClass _ _ => true
  | .seq _ _ e => e.pointerFree
  | .map _ k v => k.pointerFree && v.pointerFree
  | .parClass _ => true

/-- The same for the attributes of a structure. -/
def Attributes.pointerFree : Attributes → Bool
  | .nil => true
  | .cons t _ rest => t.pointerFree && rest.pointerFree

end

mutual

/-- A new object has its type. -/
lemma DataType.hasType_init : ∀ t : DataType, t.HasType lt (t.init : Rose α)
  | .basic name => by
    simp only [DataType.HasType, DataType.init]
    split_ifs
    · rfl
    · exact ⟨default, rfl⟩
  | .array c b => by
    refine ⟨List.replicate c.size b.init, by simp only [DataType.init], by simp, ?_⟩
    intro u hu
    rw [List.eq_of_mem_replicate hu]
    exact b.hasType_init
  | .ptr _ _ => ⟨[], by simp only [DataType.init], by simp⟩
  | .equal _ t => by
    simp only [DataType.HasType, DataType.init]
    exact t.hasType_init
  | .struct _ as => ⟨as.inits, by simp only [DataType.init], as.hasTypes_inits⟩
  | .seqClass _ _ => ⟨default, by simp only [DataType.init]⟩
  | .seq _ _ _ => ⟨[], by simp only [DataType.init], by simp⟩
  | .map _ _ _ => ⟨[], by simp only [DataType.init], by simp, List.Pairwise.nil⟩
  | .parClass _ => ⟨default, by simp only [DataType.init]⟩

lemma Attributes.hasTypes_inits : ∀ as : Attributes, as.HasTypes lt (as.inits : List (Rose α))
  | .nil => rfl
  | .cons t _ rest => ⟨t.init, rest.inits, by simp only [Attributes.inits], t.hasType_init,
      rest.hasTypes_inits⟩

end

mutual

/-- Unpacking keeps the shape of its target. -/
lemma DataType.holds_of_decode : ∀ (t : DataType) (w : Rose α) (buf : List (Item α))
    (r : Rose α × List (Item α)), t.Holds w → t.decode lt w buf = some r → t.Holds r.1
  | .basic _, _, _, _, _, _ => trivial
  | .array c b, w, buf, r, hw, h => by
    obtain ⟨ts, rfl, hlen, hts⟩ := hw
    rw [DataType.decode] at h
    obtain ⟨x, hx, rfl⟩ := Option.map_eq_some_iff.mp h
    obtain ⟨h1, h2⟩ := decodeBlock_holds (Q := b.Holds)
      (by rintro name rfl v; exact trivial) (b.holds_of_decode) hts hx
    exact ⟨x.1, rfl, h1.trans hlen, h2⟩
  | .ptr _ b, w, buf, r, hw, h => by
    obtain ⟨ts, rfl, hts⟩ := hw
    rw [DataType.decode] at h
    obtain ⟨x, hx, rfl⟩ := Option.map_eq_some_iff.mp h
    have hx' := decodeBlock_holds (Q := b.Holds) (by rintro name rfl v; exact trivial)
      (b.holds_of_decode) hts hx
    exact ⟨x.1, rfl, hx'.2⟩
  | .equal _ t, w, buf, r, hw, h =>
    t.holds_of_decode w buf r hw (by simpa only [DataType.decode] using h)
  | .struct _ as, w, buf, r, hw, h => by
    obtain ⟨ts, rfl, hts⟩ := hw
    rw [DataType.decode] at h
    obtain ⟨x, hx, rfl⟩ := Option.map_eq_some_iff.mp h
    exact ⟨x.1, rfl, as.holds_of_decode ts buf x hts hx⟩
  | .seqClass _ _, _, _, _, _, _ => trivial
  | .seq _ k e, w, buf, r, hw, h => by
    obtain ⟨ts, rfl, hts⟩ := hw
    rw [DataType.decode] at h
    obtain ⟨x, hx, hrest⟩ := Option.bind_eq_some_iff.mp h
    split_ifs at hrest with h0 h1
    · obtain ⟨y, hy, rfl⟩ := Option.map_eq_some_iff.mp hrest
      obtain ⟨name, rfl, -⟩ := DataType.eq_basic_of_isStandardType h1.2
      exact ⟨y.1, rfl, fun u _ => trivial⟩
    · obtain ⟨y, hy, rfl⟩ := Option.map_eq_some_iff.mp hrest
      -- the target is resized first: what it keeps has the shape, and the new elements are initial
      refine ⟨y.1, rfl, (decodeAll_holds (e.holds_of_decode) ?_ hy).2⟩
      intro u hu
      rcases List.mem_append.mp hu with hu | hu
      · exact hts u (List.mem_of_mem_take hu)
      · rw [List.eq_of_mem_replicate hu]
        exact e.holds_of_hasType lt (e.hasType_init lt)
  | .map _ k w, _, buf, r, _, h => by
    rw [DataType.decode] at h
    obtain ⟨x, hx, hrest⟩ := Option.bind_eq_some_iff.mp h
    obtain ⟨y, hy, rfl⟩ := Option.map_eq_some_iff.mp hrest
    exact ⟨y.1, rfl⟩
  | .parClass _, _, _, _, _, _ => trivial

lemma Attributes.holds_of_decode : ∀ (as : Attributes) (ws : List (Rose α))
    (buf : List (Item α)) (r : List (Rose α) × List (Item α)), as.Holds ws →
    as.decode lt ws buf = some r → as.Holds r.1
  | .nil, ws, buf, r, hws, h => by
    obtain rfl : (ws, buf) = r := by simpa [Attributes.decode] using h
    exact hws
  | .cons t _ rest, ws, buf, r, hws, h => by
    obtain ⟨u, us, rfl, hu, hus⟩ := hws
    rw [Attributes.decode] at h
    obtain ⟨x, hx, hrest⟩ := Option.bind_eq_some_iff.mp h
    obtain ⟨y, hy, rfl⟩ := Option.map_eq_some_iff.mp hrest
    exact ⟨x.1, y.1, rfl, t.holds_of_decode u buf x hu hx, rest.holds_of_decode us x.2 y hus hy⟩

end

section Inversion

variable {α : Type} {enc : Rose α → Option (List (Item α))}
  {dec : Rose α → List (Item α) → Option (Rose α × List (Item α))} {P : Rose α → Prop}

/-- A value is read back, whatever was in the target and whatever follows in the buffer. -/
def Inverts (enc : Rose α → Option (List (Item α)))
    (dec : Rose α → List (Item α) → Option (Rose α × List (Item α))) (P : Rose α → Prop)
    (v : Rose α) : Prop :=
  ∃ a, enc v = some a ∧ ∀ w rest, P w → dec w (a ++ rest) = some (v, rest)

lemma decodeAll_encodeAll {vs : List (Rose α)} (h : ∀ v ∈ vs, Inverts enc dec P v) :
    ∃ a, encodeAll enc vs = some a ∧ ∀ ws rest, ws.length = vs.length → (∀ w ∈ ws, P w) →
      decodeAll dec ws (a ++ rest) = some (vs, rest) := by
  induction vs with
  | nil =>
    refine ⟨[], rfl, fun ws rest hlen _ => ?_⟩
    obtain rfl : ws = [] := by simpa using hlen
    rfl
  | cons v vs ih =>
    obtain ⟨hv, hvs⟩ := List.forall_mem_cons.mp h
    obtain ⟨a, ha, hdec⟩ := hv
    obtain ⟨b, hb, hdecs⟩ := ih hvs
    refine ⟨a ++ b, by simp [encodeAll, ha, hb], fun ws rest hlen hws => ?_⟩
    obtain ⟨w, ws, rfl⟩ := List.exists_cons_of_ne_nil (l := ws) (by rintro rfl; simp at hlen)
    obtain ⟨hw, hws⟩ := List.forall_mem_cons.mp hws
    rw [List.append_assoc, decodeAll, hdec w _ hw, Option.bind_some,
      hdecs ws rest (by simpa using hlen) hws]
    rfl

lemma decodeBlock_encodeBlock {b : DataType} {vs : List (Rose α)}
    (hvoid : b.isStandardType → b.isVoid → ∀ u, P u → u = .node [])
    (hvs : ∀ v ∈ vs, P v) (h : ∀ v ∈ vs, Inverts enc dec P v) :
    ∃ a, encodeBlock b enc vs = some a ∧ ∀ ws rest, ws.length = vs.length → (∀ w ∈ ws, P w) →
      decodeBlock b dec ws (a ++ rest) = some (vs, rest) := by
  by_cases hb : b.isStandardType
  · by_cases hv : b.isVoid
    · refine ⟨[], by simp [encodeBlock, hb, hv], fun ws rest hlen hws => ?_⟩
      have heq : ws = vs := by
        refine List.ext_getElem hlen fun i h1 h2 => ?_
        rw [hvoid hb hv _ (hws _ (List.getElem_mem h1)),
          hvoid hb hv _ (hvs _ (List.getElem_mem h2))]
      simp [decodeBlock, hb, hv, heq]
    · refine ⟨[.data (b.getName.getD "") vs], by simp [encodeBlock, hb, hv], ?_⟩
      intro ws rest hlen hws
      simp [decodeBlock, hb, hv, takeData, hlen]
  · obtain ⟨a, ha, hdec⟩ := decodeAll_encodeAll h
    exact ⟨a, by simp [encodeBlock, hb, ha], fun ws rest hlen hws => by
      simp [decodeBlock, hb, hdec ws rest hlen hws]⟩

/-- An entry with the greatest key goes to the end. -/
lemma insertEntry_last {less : Rose α → Rose α → Bool} {k v : Rose α} {es : List (Rose α)}
    (h : ∀ e ∈ es, less (entryKey e) k = true) :
    insertEntry less k v es = es ++ [.node [k, v]] := by
  induction es with
  | nil => rfl
  | cons e es ih =>
    obtain ⟨he, hes⟩ := List.forall_mem_cons.mp h
    simp [insertEntry, he, ih hes]

variable {enc' : Rose α → Option (List (Item α))}
  {dec' : Rose α → List (Item α) → Option (Rose α × List (Item α))} {P' : Rose α → Prop}

/-- The entries of a map come in the order of their keys and are put behind each other. -/
lemma decodeEntries_encodeAll (less : Rose α → Rose α → Bool) {es : List (Rose α)}
    (h : ∀ e ∈ es, ∃ a b, e = .node [a, b] ∧ P a ∧ P' b ∧ Inverts enc dec P a ∧
      Inverts enc' dec' P' b) :
    ∃ c, encodeAll (fun u => (enc (u.child 0)).bind fun a =>
        (enc' (u.child 1)).map fun b => a ++ b) es = some c ∧
      ∀ front key value rest, P key → P' value →
        (front ++ es).Pairwise (fun u u' => less (entryKey u) (entryKey u') = true) →
        decodeEntries less dec dec' es.length key value front (c ++ rest) =
          some (front ++ es, rest) := by
  induction es with
  | nil =>
    refine ⟨[], rfl, fun front key value rest _ _ _ => ?_⟩
    simp [decodeEntries]
  | cons e es ih =>
    obtain ⟨⟨a, b, rfl, hPa, hPb, ⟨x, hx, hdec⟩, ⟨y, hy, hdec'⟩⟩, hes⟩ :=
      List.forall_mem_cons.mp h
    obtain ⟨c, hc, hdecs⟩ := ih hes
    have hx' : enc ((Rose.node [a, b]).child 0) = some x := hx
    have hy' : enc' ((Rose.node [a, b]).child 1) = some y := hy
    refine ⟨x ++ y ++ c, by simp [encodeAll, hx', hy', hc], ?_⟩
    intro front key value rest hkey hvalue hsorted
    have hlast : insertEntry less a b front = front ++ [.node [a, b]] := by
      refine insertEntry_last fun e he => ?_
      exact (List.pairwise_append.mp hsorted).2.2 e he (.node [a, b]) (by simp)
    simp only [List.length_cons, decodeEntries, List.append_assoc]
    rw [hdec key _ hkey, Option.bind_some, hdec' value _ hvalue, Option.bind_some, hlast]
    have := hdecs (front ++ [.node [a, b]]) a b rest hPa hPb (by simpa using hsorted)
    simpa using this

end Inversion

omit [Inhabited α] in
lemma DataType.eq_node_of_isVoid {b : DataType} (h : b.isStandardType) (hv : b.isVoid)
    {u : Rose α} (hu : b.HasType lt u) : u = .node [] := by
  obtain ⟨name, rfl, -⟩ := DataType.eq_basic_of_isStandardType h
  have hname : name = "void" := by simpa [DataType.isVoid, DataType.getExpandType] using hv
  simpa [DataType.HasType, hname] using hu

mutual

/-- A value that fits is read back from the items that it is packed into. -/
lemma DataType.decode_encode : ∀ (t : DataType) (v : Rose α), t.pointerFree → t.HasType lt v →
    t.fits v → Inverts t.encode (t.decode lt) (t.HasType lt) v
  | .basic name, v, _, hv, _ => by
    by_cases hname : name = "void"
    · have hv' : v = .node [] := by simpa [DataType.HasType, hname] using hv
      refine ⟨[], by simp [DataType.encode, hname], fun w rest hw => ?_⟩
      have hw' : w = .node [] := by simpa [DataType.HasType, hname] using hw
      simp [DataType.decode, hname, hv', hw']
    · refine ⟨[.data name [v]], by simp [DataType.encode, hname], fun w rest _ => ?_⟩
      simp [DataType.decode, hname, takeData]
  | .array c b, v, hp, hv, hf => by
    obtain ⟨ts, rfl, hlen, hts⟩ := hv
    obtain ⟨a, ha, hdec⟩ := decodeBlock_encodeBlock (P := b.HasType lt)
      (fun h1 h2 u => DataType.eq_node_of_isVoid lt h1 h2) hts
      (fun u hu => b.decode_encode u hp (hts u hu) (hf u hu))
    refine ⟨a, by rw [DataType.encode]; exact ha, ?_⟩
    rintro w rest ⟨ws, rfl, hwlen, hws⟩
    simp only [DataType.decode, Rose.children]
    rw [hdec ws rest (hwlen.trans hlen.symm) hws]
    rfl
  | .ptr _ _, _, hp, _, _ => absurd hp (by simp [DataType.pointerFree])
  | .equal _ t, v, hp, hv, hf => by
    obtain ⟨a, ha, hdec⟩ := t.decode_encode v hp hv hf
    refine ⟨a, by simpa only [DataType.encode] using ha, fun w rest hw => ?_⟩
    rw [DataType.decode]
    exact hdec w rest hw
  | .struct _ as, v, hp, hv, hf => by
    obtain ⟨ts, rfl, hts⟩ := hv
    obtain ⟨a, ha, hdec⟩ := as.decode_encode ts hp hts hf
    refine ⟨a, by rw [DataType.encode]; exact ha, ?_⟩
    rintro w rest ⟨ws, rfl, hws⟩
    simp only [DataType.decode, Rose.children]
    rw [hdec ws rest hws]
    rfl
  | .seqClass name _, v, _, _, _ =>
    ⟨[.object name v], by simp only [DataType.encode], fun w rest _ => by
      simp [DataType.decode, takeObject]⟩
  | .seq _ k e, v, hp, hv, hf => by
    obtain ⟨ts, rfl, hts⟩ := hv
    obtain ⟨hlen, hfits⟩ := hf
    simp only [Rose.children] at hlen hfits
    have hwrap : CInt.wrap ts.length = ts.length := CInt.wrap_eq_self ⟨by omega, by omega⟩
    -- a vector of a standard type is packed as one block, every other sequence element by element
    by_cases hk : k = .vector ∧ e.isStandardType = true
    · refine ⟨[.size ts.length, .data (e.getName.getD "") ts], ?_, fun w rest _ => ?_⟩
      · simp [DataType.encode, hk, Rose.children, hwrap]
      · simp [DataType.decode, hk, takeSize, takeData]
    · obtain ⟨a, ha, hdec⟩ := decodeAll_encodeAll (P := e.HasType lt)
        (fun u hu => e.decode_encode u hp (hts u hu) (hfits u hu))
      refine ⟨.size ts.length :: a, ?_, ?_⟩
      · simp [DataType.encode, hk, Rose.children, hwrap, ha]
      · rintro w rest ⟨ws, rfl, hws⟩
        have hres : ∀ u ∈ resized e.init ts.length ws, e.HasType lt u := by
          intro u hu
          rcases List.mem_append.mp hu with hu | hu
          · exact hws u (List.mem_of_mem_take hu)
          · rw [List.eq_of_mem_replicate hu]
            exact e.hasType_init lt
        have := hdec (resized e.init ts.length ws) rest (length_resized _ _ _) hres
        simp [DataType.decode, hk, takeSize, Rose.children, this]
  | .map _ k w, v, hp, hv, hf => by
    obtain ⟨ts, rfl, hts, hsorted⟩ := hv
    obtain ⟨hlen, hfits⟩ := hf
    simp only [Rose.children] at hlen hfits
    obtain ⟨hpk, hpw⟩ := Bool.and_eq_true_iff.mp (by simpa only [DataType.pointerFree] using hp)
    have hwrap : CInt.wrap ts.length = ts.length := CInt.wrap_eq_self ⟨by omega, by omega⟩
    -- a map is read entry by entry, and the keys come in order
    have hinv : ∀ u ∈ ts, ∃ a b, u = .node [a, b] ∧ k.HasType lt a ∧ w.HasType lt b ∧
        Inverts k.encode (k.decode lt) (k.HasType lt) a ∧
        Inverts w.encode (w.decode lt) (w.HasType lt) b := by
      intro u hu
      obtain ⟨a, b, rfl, ha, hb⟩ := hts u hu
      obtain ⟨hfa, hfb⟩ := hfits _ hu
      exact ⟨a, b, rfl, ha, hb, k.decode_encode a hpk ha hfa, w.decode_encode b hpw hb hfb⟩
    obtain ⟨c, hc, hdec⟩ := decodeEntries_encodeAll (lt k) hinv
    refine ⟨.size ts.length :: c, ?_, fun u rest _ => ?_⟩
    · simp only [DataType.encode, Rose.children, hwrap]
      rw [hc]
      rfl
    · have := hdec [] k.init w.init rest (k.hasType_init lt) (w.hasType_init lt)
        (by simpa using hsorted)
      simp [DataType.decode, takeSize, this]
  | .parClass name, v, _, _, _ =>
    ⟨[.object name v], by simp only [DataType.encode], fun w rest _ => by
      simp [DataType.decode, takeObject]⟩

lemma Attributes.decode_encode : ∀ (as : Attributes) (ts : List (Rose α)), as.pointerFree →
    as.HasTypes lt ts → as.fits ts → ∃ a, as.encode ts = some a ∧
      ∀ ws rest, as.HasTypes lt ws → as.decode lt ws (a ++ rest) = some (ts, rest)
  | .nil, ts, _, hts, _ => by
    obtain rfl : ts = [] := hts
    refine ⟨[], rfl, fun ws rest hws => ?_⟩
    obtain rfl : ws = [] := hws
    rfl
  | .cons t _ rest, ts, hp, hts, hf => by
    obtain ⟨u, us, rfl, hu, hus⟩ := hts
    obtain ⟨hf1, hf2⟩ := hf
    obtain ⟨hp1, hp2⟩ := Bool.and_eq_true_iff.mp (by simpa only [Attributes.pointerFree] using hp)
    obtain ⟨a, ha, hdec⟩ := t.decode_encode u hp1 hu hf1
    obtain ⟨b, hb, hdecs⟩ := rest.decode_encode us hp2 hus hf2
    refine ⟨a ++ b, by simp [Attributes.encode, ha, hb], ?_⟩
    rintro ws r ⟨w, ws', rfl, hw, hws'⟩
    simp [Attributes.decode, hdec w (b ++ r) hw, hdecs ws' r hws']

end

end Parser
