/-
# What a piece of generated code moves

Code that packs and code that unpacks are compared by what they move: the sequence of their
operations on the buffer, each with its type and its count.  A count is either written in the
code, or it is one of the integers that have been moved before; these are numbered from the
beginning of the message.  Declarations, `resize` and the places of the values do not count.

`DataType.wire_marshal_eq` says that `Marshal` and `DeMarshal` of a type move the same.
-/
import PopCpp.Parser.Generator

namespace Parser

/-- How many values are moved. -/
inductive Count
  | one
  /-- The number of elements of an array. -/
  | card (c : Cardinal)
  /-- The integer number `k` of the message. -/
  | sent (k : ℕ)
  /-- As many as the container happens to have. -/
  | own

/-- An operation on the buffer, or a repetition of operations. -/
inductive Wire
  /-- An `int` that says how many values follow. -/
  | int
  | values (type : String) (n : Count)
  | object (type : String)
  /-- What a procedure of the user moves; `input` says that it is called for an argument. -/
  | user (proc : String) (n : Option Count) (input : Bool)
  | repeats (n : Count) (body : List Wire)

/-- What is known about the integer variables. -/
structure WireEnv where
  /-- The number of the next integer. -/
  next : ℕ
  /-- The integer that is in a variable. -/
  sent : ℕ → ℕ
  /-- The variable that has the size of a container. -/
  sizeOf : LVal → Option ℕ

namespace WireEnv

variable (Γ : WireEnv)

/-- The beginning of a message. -/
def start : WireEnv := ⟨0, fun _ => 0, fun _ => none⟩

/-- The count that is written as a size. -/
def count : Size → Count
  | .one => .one
  | .var x => .sent (Γ.sent x.id)
  | .card c => .card c

/-- The number of elements of a container. -/
def countOf (l : LVal) : Count :=
  match Γ.sizeOf l with
  | some x => .sent (Γ.sent x)
  | none => .own

/-- An integer is moved from or to a variable. -/
def setSent (x : ℕ) : WireEnv :=
  { Γ with next := Γ.next + 1, sent := Function.update Γ.sent x Γ.next }

/-- A container has as many elements as a variable says. -/
def setSize (l : LVal) (x : ℕ) : WireEnv := { Γ with sizeOf := Function.update Γ.sizeOf l (some x) }

@[simp] lemma next_setSent (x : ℕ) : (Γ.setSent x).next = Γ.next + 1 := rfl

@[simp] lemma next_setSize (l : LVal) (x : ℕ) : (Γ.setSize l x).next = Γ.next := rfl

@[simp] lemma count_setSent (x : ℕ) (name : Ident) :
    (Γ.setSent x).count (.var ⟨x, name⟩) = .sent Γ.next := by
  simp [count, setSent]

@[simp] lemma count_setSize (l : LVal) (x : ℕ) (n : Size) :
    (Γ.setSize l x).count n = Γ.count n := by
  cases n <;> rfl

/-- The size has been sent after the container was looked at. -/
@[simp] lemma countOf_setSent_setSize (l : LVal) (x : ℕ) :
    ((Γ.setSize l x).setSent x).countOf l = .sent Γ.next := by
  simp [countOf, setSent, setSize]

/-- The container has been resized after its size was received. -/
@[simp] lemma countOf_setSize_setSent (l : LVal) (x : ℕ) :
    ((Γ.setSent x).setSize l x).countOf l = .sent Γ.next := by
  simp [countOf, setSent, setSize]

end WireEnv

/-- What a statement moves. -/
def Stmt.wire : Stmt → WireEnv → List Wire × WireEnv
  | .skip, Γ => ([], Γ)
  | .seq s t, Γ =>
    let r := s.wire Γ
    let r' := t.wire r.2
    (r.1 ++ r'.1, r'.2)
  | .pack type _ n, Γ => ([.values type (Γ.count n)], Γ)
  | .unPack type _ n, Γ => ([.values type (Γ.count n)], Γ)
  | .declSize x l, Γ => ([], Γ.setSize l x.id)
  | .declInt _, Γ => ([], Γ)
  | .declParamSize _ _, Γ => ([], Γ)
  | .packInt x, Γ => ([.int], Γ.setSent x.id)
  | .unPackInt x, Γ => ([.int], Γ.setSent x.id)
  | .resize _ l x, Γ => ([], Γ.setSize l x.id)
  | .clear _, Γ => ([], Γ)
  | .declObj _ _, Γ => ([], Γ)
  | .mapSet _ _ _ _, Γ => ([], Γ)
  | .serialize type _ _, Γ => ([.object type], Γ)
  | .proc name _ n _, Γ => ([.user name (n.map Γ.count) false], Γ)
  | .forElems _ _ _ n _ body, Γ =>
    let r := body.wire Γ
    ([.repeats (Γ.count n) r.1], r.2)
  | .forItems _ n body, Γ =>
    let r := body.wire Γ
    ([.repeats (Γ.count n) r.1], r.2)
  | .forIter _ _ l body, Γ =>
    let r := body.wire Γ
    ([.repeats (Γ.countOf l) r.1], r.2)
  | .forCount _ n body, Γ =>
    let r := body.wire Γ
    ([.repeats (Γ.count (.var n)) r.1], r.2)

/-- Two results that move the same, after which the next integer has the same number. -/
structure SameWire {β : Type} (r r' : List β × WireEnv) : Prop where
  moved : r.1 = r'.1
  next : r.2.next = r'.2.next

section

variable {Γ Γ' : WireEnv} {n n' : Option Size}

lemma SameWire.seq {s t s' t' : Stmt} (hs : SameWire (s.wire Γ) (s'.wire Γ'))
    (ht : SameWire (t.wire (s.wire Γ).2) (t'.wire (s'.wire Γ').2)) :
    SameWire ((Stmt.seq s t).wire Γ) ((Stmt.seq s' t').wire Γ') :=
  ⟨by simp only [Stmt.wire, hs.moved, ht.moved], ht.next⟩

lemma count_getD (h : n.map Γ.count = n'.map Γ'.count) (d : Size)
    (hd : Γ.count d = Γ'.count d) : Γ.count (n.getD d) = Γ'.count (n'.getD d) := by
  cases n with
  | none =>
    cases n' with
    | none => exact hd
    | some m => simp at h
  | some m =>
    cases n' with
    | none => simp at h
    | some m' => simpa using h

mutual

/-- `Marshal` and `DeMarshal` of a type move the same, whatever they call their variables. -/
lemma DataType.wire_marshal_eq : ∀ (t : DataType) (l l' : LVal) (n n' : Option Size) (g g' : Gen)
    {Γ Γ' : WireEnv}, Γ.next = Γ'.next → n.map Γ.count = n'.map Γ'.count →
    SameWire ((t.marshal l n g).1.wire Γ) ((t.deMarshal l' n' g').1.wire Γ')
  | .basic name, l, l', n, n', g, g', Γ, Γ', hΓ, hn => by
    simp only [DataType.marshal, DataType.deMarshal]
    split_ifs
    · exact ⟨rfl, hΓ⟩
    · refine ⟨?_, hΓ⟩
      simp only [Stmt.wire, count_getD hn .one rfl]
  | .array c b, l, l', n, n', g, g', Γ, Γ', hΓ, hn => by
    have hcount := count_getD hn (.card c) rfl
    simp only [DataType.marshal, DataType.deMarshal]
    split_ifs
    · exact b.wire_marshal_eq _ _ _ _ _ _ hΓ (by simp [hcount])
    · have hb := b.wire_marshal_eq (.target ⟨g.fresh + 1, .popElem g.counter⟩)
        (.target ⟨g'.fresh + 1, .popElem g'.counter⟩) none none ⟨g.counter, g.fresh + 2⟩
        ⟨g'.counter, g'.fresh + 2⟩ hΓ rfl
      exact ⟨by simp only [Stmt.wire, hcount, hb.moved], hb.next⟩
  | .ptr _ b, l, l', none, none, g, g', Γ, Γ', hΓ, hn => by
    simp only [DataType.marshal, DataType.deMarshal]
    exact b.wire_marshal_eq _ _ _ _ _ _ hΓ rfl
  | .ptr _ b, l, l', none, some m, g, g', Γ, Γ', hΓ, hn => by simp at hn
  | .ptr _ b, l, l', some m, none, g, g', Γ, Γ', hΓ, hn => by simp at hn
  | .ptr _ b, l, l', some m, some m', g, g', Γ, Γ', hΓ, hn => by
    simp only [DataType.marshal, DataType.deMarshal]
    split_ifs
    · exact b.wire_marshal_eq _ _ _ _ _ _ hΓ hn
    · have hb := b.wire_marshal_eq (.index l ⟨g.fresh, .popItem⟩)
        (.index l' ⟨g'.fresh, .popItem⟩) none none ⟨g.counter, g.fresh + 1⟩
        ⟨g'.counter, g'.fresh + 1⟩ hΓ rfl
      have hm : Γ.count m = Γ'.count m' := by simpa using hn
      exact ⟨by simp only [Stmt.wire, hm, hb.moved], hb.next⟩
  | .equal _ t, l, l', n, n', g, g', Γ, Γ', hΓ, hn => by
    simp only [DataType.marshal, DataType.deMarshal]
    exact t.wire_marshal_eq _ _ _ _ _ _ hΓ hn
  | .struct _ as, l, l', n, n', g, g', Γ, Γ', hΓ, hn => by
    simp only [DataType.marshal, DataType.deMarshal]
    exact as.wire_marshal_eq _ _ _ _ _ _ hΓ
  | .seqClass _ _, l, l', n, n', g, g', Γ, Γ', hΓ, hn => ⟨rfl, hΓ⟩
  | .seq q k e, l, l', n, n', g, g', Γ, Γ', hΓ, hn => by
    simp only [DataType.marshal, DataType.deMarshal]
    split_ifs
    · refine ⟨?_, ?_⟩ <;> simp [Stmt.wire, hΓ]
    · -- both sides move the size first; the container is resized in between
      have hnext : ((Γ.setSize l g.fresh).setSent g.fresh).next =
          ((Γ'.setSent g'.fresh).setSize l' g'.fresh).next := by simp [hΓ]
      have he := e.wire_marshal_eq (.target ⟨g.fresh + 1, .elem g.counter⟩)
        (.target ⟨g'.fresh + 1, .elem g'.counter⟩) none none ⟨g.counter + 1, g.fresh + 2⟩
        ⟨g'.counter + 1, g'.fresh + 2⟩ hnext rfl
      refine ⟨?_, ?_⟩
      · simp [Stmt.wire, hΓ, he.moved]
      · simpa [Stmt.wire] using he.next
  | .map q k v, l, l', n, n', g, g', Γ, Γ', hΓ, hn => by
    simp only [DataType.marshal, DataType.deMarshal]
    have hnext : ((Γ.setSize l g.fresh).setSent g.fresh).next =
        (Γ'.setSent g'.fresh).next := by simp [hΓ]
    have hk := k.wire_marshal_eq (.first ⟨g.fresh + 1, .mapIterator g.counter⟩)
      (.var ⟨g'.fresh + 1, .elemKey g'.counter⟩) none none ⟨g.counter + 1, g.fresh + 2⟩
      ⟨g'.counter + 1, g'.fresh + 4⟩ hnext rfl
    have hv := fun h h' => v.wire_marshal_eq (.second ⟨g.fresh + 1, .mapIterator g.counter⟩)
      (.var ⟨g'.fresh + 2, .elemValue g'.counter⟩) none none h h' hk.next rfl
    refine ⟨?_, ?_⟩
    · simpa [Stmt.wire, hΓ, hk.moved] using (hv _ _).moved
    · simpa [Stmt.wire] using (hv _ _).next
  | .parClass _, l, l', n, n', g, g', Γ, Γ', hΓ, hn => ⟨rfl, hΓ⟩

/-- The same for the attributes of a structure. -/
lemma Attributes.wire_marshal_eq : ∀ (as : Attributes) (l l' : LVal) (k k' : ℕ) (g g' : Gen)
    {Γ Γ' : WireEnv}, Γ.next = Γ'.next →
    SameWire ((as.marshal l k g).1.wire Γ) ((as.deMarshal l' k' g').1.wire Γ')
  | .nil, l, l', k, k', g, g', Γ, Γ', hΓ => ⟨rfl, hΓ⟩
  | .cons t f rest, l, l', k, k', g, g', Γ, Γ', hΓ => by
    simp only [Attributes.marshal, Attributes.deMarshal]
    have ht := t.wire_marshal_eq (.field l k f) (.field l' k' f) none none g g' hΓ rfl
    exact ht.seq (rest.wire_marshal_eq _ _ _ _ _ _ ht.next)

end

mutual

/-- No value of the type could be sent. -/
def DataType.silent : DataType → Bool
  | .basic name => decide (name = "void")
  | .array _ b => b.isStandardType && b.silent
  | .ptr _ b => b.silent
  | .equal _ t => t.silent
  | .struct _ as => as.silent
  | .seqClass _ _ => false
  | .seq _ _ _ => false
  | .map _ _ _ => false
  | .parClass _ => false

/-- The same for the attributes of a structure. -/
def Attributes.silent : Attributes → Bool
  | .nil => true
  | .cons t _ rest => t.silent && rest.silent

end

lemma wire_marshal_basic {b : DataType} (hb : b.isStandardType) (l : LVal) (n : Option Size)
    (g : Gen) (Γ : WireEnv) : ((b.marshal l n g).1.wire Γ).1 = [] ↔ b.silent = true := by
  obtain ⟨name, rfl, -⟩ := DataType.eq_basic_of_isStandardType hb
  simp only [DataType.marshal, DataType.silent]
  split_ifs with hname <;> simp [Stmt.wire, hname]

mutual

/-- `Marshal` packs nothing exactly for a silent type. -/
lemma DataType.wire_marshal_eq_nil_iff : ∀ (t : DataType) (l : LVal) (g : Gen) (Γ : WireEnv),
    ((t.marshal l none g).1.wire Γ).1 = [] ↔ t.silent = true
  | .basic name, l, g, Γ => by
    simp only [DataType.marshal, DataType.silent]
    split_ifs with hname <;> simp [Stmt.wire, hname]
  | .array c b, l, g, Γ => by
    simp only [DataType.marshal, DataType.silent]
    split_ifs with hb
    · rw [wire_marshal_basic hb, hb, Bool.true_and]
    · simp [Stmt.wire, hb]
  | .ptr _ b, l, g, Γ => by
    simp only [DataType.marshal, DataType.silent]
    exact b.wire_marshal_eq_nil_iff _ g Γ
  | .equal _ t, l, g, Γ => by
    simp only [DataType.marshal, DataType.silent]
    exact t.wire_marshal_eq_nil_iff _ g Γ
  | .struct _ as, l, g, Γ => by
    simp only [DataType.marshal, DataType.silent]
    exact as.wire_marshal_eq_nil_iff _ 0 g Γ
  | .seqClass _ _, l, g, Γ => by simp [DataType.marshal, DataType.silent, Stmt.wire]
  | .seq _ _ e, l, g, Γ => by
    simp only [DataType.marshal, DataType.silent]
    split_ifs <;> simp [Stmt.wire]
  | .map _ _ _, l, g, Γ => by simp [DataType.marshal, DataType.silent, Stmt.wire]
  | .parClass _, l, g, Γ => by simp [DataType.marshal, DataType.silent, Stmt.wire]

/-- The same for the attributes of a structure. -/
lemma Attributes.wire_marshal_eq_nil_iff : ∀ (as : Attributes) (l : LVal) (k : ℕ) (g : Gen)
    (Γ : WireEnv), ((as.marshal l k g).1.wire Γ).1 = [] ↔ as.silent = true
  | .nil, l, k, g, Γ => by simp [Attributes.marshal, Attributes.silent, Stmt.wire]
  | .cons t f rest, l, k, g, Γ => by
    simp only [Attributes.marshal, Attributes.silent, Stmt.wire, List.append_eq_nil_iff,
      Bool.and_eq_true]
    rw [t.wire_marshal_eq_nil_iff, rest.wire_marshal_eq_nil_iff]

end

end

end Parser
