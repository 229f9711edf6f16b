/-
# The generator of marshalling code

For a variable of a type, `Marshal` emits the C++ statements that pack it into a buffer and
`DeMarshal` those that unpack it again.  The emitted text is kept as a syntax tree, with one
constructor for each piece of text that the generators put together.

A variable of the emitted text has its name and, besides, the number of the declaration that
the generator means by it.  The numbers are handed out in the order of the declarations; the
names come from the static `counter` of `DataType`, which arrays advance after they have
generated the code of their elements and containers before.

`Push` and `Pop` tell the buffer the name and the type of what comes next and are left out: no
variable occurs in them that does not occur in the statement they announce.
-/
import PopCpp.Parser.Types

namespace Parser

/-! ### The emitted text -/

/-- The identifiers of the emitted text. -/
inductive Ident
  /-- A name of the program: a parameter, `i`, or `it__elem<c>`. -/
  | user (name : String)
  /-- `__pop_size1_<p>`, the size of a parameter that is packed. -/
  | popSize1 (param : String)
  /-- `__pop_size2_<p>`, the size of a parameter that is unpacked. -/
  | popSize2 (param : String)
  /-- `_paroc_count<c>`. -/
  | parocCount (c : ℕ)
  /-- `_pop_elem<c>`. -/
  | popElem (c : ℕ)
  /-- `_pop_item`. -/
  | popItem
  /-- `_elem<c>`. -/
  | elem (c : ℕ)
  /-- `_elem<c>_size`. -/
  | elemSize (c : ℕ)
  /-- `_elem<c>_key`. -/
  | elemKey (c : ℕ)
  /-- `_elem<c>_value`. -/
  | elemValue (c : ℕ)
  deriving DecidableEq

/-- The loop variable `i` with which a map is unpacked. -/
def Ident.mapIndex : Ident := .user "i"

/-- The iterator `it__elem<c>` with which a map is packed. -/
def Ident.mapIterator (c : ℕ) : Ident := .user ("it__elem" ++ toString c)

/-- A variable: the declaration that is meant, and the name that is written. -/
structure Var where
  id : ℕ
  name : Ident
  deriving DecidableEq

/-- The operands that are handed down to the generator of a part of a variable. -/
inductive LVal
  /-- `x` -/
  | var (x : Var)
  /-- `l.f`, where `f` is the `k`-th attribute -/
  | field (l : LVal) (k : ℕ) (f : String)
  /-- `(*((T *)l))`, `(*(l))` or `(l)[0]`: the first element of `l` -/
  | head (l : LVal)
  /-- `(l[i])` -/
  | index (l : LVal) (i : Var)
  /-- `(*x)`: what the pointer or iterator `x` refers to -/
  | target (x : Var)
  /-- `x->first` -/
  | first (x : Var)
  /-- `x->second` -/
  | second (x : Var)
  deriving DecidableEq

/-- The variables that occur in an operand. -/
def LVal.vars : LVal → List Var
  | .var x => [x]
  | .field l _ _ => l.vars
  | .head l => l.vars
  | .index l i => i :: l.vars
  | .target x => [x]
  | .first x => [x]
  | .second x => [x]

/-- The number of elements, as it is written. -/
inductive Size
  | one
  | var (x : Var)
  | card (c : Cardinal)
  deriving DecidableEq

/-- The statements that the generators emit. -/
inductive Stmt
  | skip
  | seq (s t : Stmt)
  /-- `buf.Pack(&l, n);` -/
  | pack (type : String) (l : LVal) (n : Size)
  /-- `buf.UnPack(&l, n);` -/
  | unPack (type : String) (l : LVal) (n : Size)
  /-- `int x=l.size();` -/
  | declSize (x : Var) (l : LVal)
  /-- `int x;` or `int x=0;` -/
  | declInt (x : Var)
  /-- `int x=n;`, where `n` is the size expression of a parameter -/
  | declParamSize (x : Var) (n : String)
  /-- `buf.Pack(&x, 1);` for an `int` -/
  | packInt (x : Var)
  /-- `buf.UnPack(&x, 1);` for an `int` -/
  | unPackInt (x : Var)
  /-- `l.resize(x);`, where `l` is declared as a container of `element` -/
  | resize (element : DataType) (l : LVal) (x : Var)
  /-- `l.clear();` -/
  | clear (l : LVal)
  /-- `T x;` -/
  | declObj (type : DataType) (x : Var)
  /-- `l[key]=value;`, where `l` is declared as a map with keys of `keys` -/
  | mapSet (keys : DataType) (l : LVal) (key value : Var)
  /-- `((T &)(l)).Serialize(buf, true);`, or `false` -/
  | serialize (type : String) (l : LVal) (packing : Bool)
  /-- `proc(buf, x, n, flags, mem);`, a marshalling procedure of the user -/
  | proc (name : String) (x : Var) (n : Option Size) (packing : Bool)
  /-- `{ int cnt=n; for (T *elem =(T *)(l); cnt>0; cnt--, elem++) { body } }` -/
  | forElems (type : DataType) (cnt elem : Var) (n : Size) (l : LVal) (body : Stmt)
  /-- `{for (int item=0; item < n; item++) { body }}` -/
  | forItems (item : Var) (n : Size) (body : Stmt)
  /-- `for (T::iterator it=l.begin(); it!=l.end(); it++) { body }` -/
  | forIter (type : DataType) (it : Var) (l : LVal) (body : Stmt)
  /-- `for (int i=0; i<n; i++) { body }` -/
  | forCount (i n : Var) (body : Stmt)

/-! ### `Marshal` and `DeMarshal` -/

/-- The state of the generators: `DataType::counter`, and the number of the next
declaration. -/
structure Gen where
  counter : ℕ
  fresh : ℕ

mutual

/-- `Marshal`. -/
def DataType.marshal : DataType → LVal → Option Size → Gen → Stmt × Gen
  | .basic name, l, n, g => (if name = "void" then .skip else .pack name l (n.getD .one), g)
  | .array c b, l, n, g =>
    if b.isStandardType then b.marshal (.head l) (some (n.getD (.card c))) g
    else
      let cnt : Var := ⟨g.fresh, .parocCount g.counter⟩
      let elem : Var := ⟨g.fresh + 1, .popElem g.counter⟩
      let r := b.marshal (.target elem) none ⟨g.counter, g.fresh + 2⟩
      (.forElems b cnt elem (n.getD (.card c)) l r.1, ⟨r.2.counter + 1, r.2.fresh⟩)
  | .ptr _ b, l, none, g => b.marshal (.head l) none g
  | .ptr _ b, l, some n, g =>
    if b.isStandardType then b.marshal (.head l) (some n) g
    else
      let item : Var := ⟨g.fresh, .popItem⟩
      let r := b.marshal (.index l item) none ⟨g.counter, g.fresh + 1⟩
      (.forItems item n r.1, r.2)
  | .equal _ t, l, n, g => t.marshal l n g
  | .struct _ as, l, _, g => as.marshal l 0 g
  | .seqClass name _, l, _, g => (.serialize name l true, g)
  | .seq q k e, l, _, g =>
    let size : Var := ⟨g.fresh, .elemSize g.counter⟩
    if k = .vector ∧ e.isStandardType then
      (.seq (.declSize size l) (.seq (.packInt size)
        (.pack (e.getName.getD "") (.head l) (.var size))), ⟨g.counter + 1, g.fresh + 1⟩)
    else
      let it : Var := ⟨g.fresh + 1, .elem g.counter⟩
      let r := e.marshal (.target it) none ⟨g.counter + 1, g.fresh + 2⟩
      (.seq (.declSize size l) (.seq (.packInt size) (.forIter (.seq q k e) it l r.1)), r.2)
  | .map q k v, l, _, g =>
    let size : Var := ⟨g.fresh, .elemSize g.counter⟩
    let it : Var := ⟨g.fresh + 1, .mapIterator g.counter⟩
    let r := k.marshal (.first it) none ⟨g.counter + 1, g.fresh + 2⟩
    let s := v.marshal (.second it) none r.2
    (.seq (.declSize size l) (.seq (.packInt size)
      (.forIter (.map q k v) it l (.seq r.1 s.1))), s.2)
  | .parClass name, l, _, g => (.serialize name l true, g)

/-- The loop of `TypeStruct::Marshal`, from the `k`-th attribute on. -/
def Attributes.marshal : Attributes → LVal → ℕ → Gen → Stmt × Gen
  | .nil, _, _, g => (.skip, g)
  | .cons t f rest, l, k, g =>
    let r := t.marshal (.field l k f) none g
    let s := rest.marshal l (k + 1) r.2
    (.seq r.1 s.1, s.2)

end

mutual

/-- `DeMarshal`. -/
def DataType.deMarshal : DataType → LVal → Option Size → Gen → Stmt × Gen
  | .basic name, l, n, g => (if name = "void" then .skip else .unPack name l (n.getD .one), g)
  | .array c b, l, n, g =>
    if b.isStandardType then b.deMarshal (.head l) (some (n.getD (.card c))) g
    else
      let cnt : Var := ⟨g.fresh, .parocCount g.counter⟩
      let elem : Var := ⟨g.fresh + 1, .popElem g.counter⟩
      let r := b.deMarshal (.target elem) none ⟨g.counter, g.fresh + 2⟩
      (.forElems b cnt elem (n.getD (.card c)) l r.1, ⟨r.2.counter + 1, r.2.fresh⟩)
  | .ptr _ b, l, none, g => b.deMarshal (.head l) none g
  | .ptr _ b, l, some n, g =>
    if b.isStandardType then b.deMarshal (.head l) (some n) g
    else
      let item : Var := ⟨g.fresh, .popItem⟩
      let r := b.deMarshal (.index l item) none ⟨g.counter, g.fresh + 1⟩
      (.forItems item n r.1, r.2)
  | .equal _ t, l, n, g => t.deMarshal l n g
  | .struct _ as, l, _, g => as.deMarshal l 0 g
  | .seqClass name _, l, _, g => (.serialize name l false, g)
  | .seq q k e, l, _, g =>
    let size : Var := ⟨g.fresh, .elemSize g.counter⟩
    if k = .vector ∧ e.isStandardType then
      (.seq (.declInt size) (.seq (.unPackInt size) (.seq (.resize e l size)
        (.unPack (e.getName.getD "") (.head l) (.var size)))), ⟨g.counter + 1, g.fresh + 1⟩)
    else
      let it : Var := ⟨g.fresh + 1, .elem g.counter⟩
      let r := e.deMarshal (.target it) none ⟨g.counter + 1, g.fresh + 2⟩
      (.seq (.declInt size) (.seq (.unPackInt size) (.seq (.resize e l size)
        (.forIter (.seq q k e) it l r.1))), r.2)
  | .map _ k v, l, _, g =>
    let size : Var := ⟨g.fresh, .elemSize g.counter⟩
    let key : Var := ⟨g.fresh + 1, .elemKey g.counter⟩
    let value : Var := ⟨g.fresh + 2, .elemValue g.counter⟩
    let i : Var := ⟨g.fresh + 3, .mapIndex⟩
    let r := k.deMarshal (.var key) none ⟨g.counter + 1, g.fresh + 4⟩
    let s := v.deMarshal (.var value) none r.2
    (.seq (.declInt size) (.seq (.declObj k key) (.seq (.declObj v value)
      (.seq (.unPackInt size) (.seq (.clear l)
        (.forCount i size (.seq r.1 (.seq s.1 (.mapSet k l key value)))))))), s.2)
  | .parClass name, l, _, g => (.serialize name l false, g)

/-- The loop of `TypeStruct::DeMarshal`, from the `k`-th attribute on. -/
def Attributes.deMarshal : Attributes → LVal → ℕ → Gen → Stmt × Gen
  | .nil, _, _, g => (.skip, g)
  | .cons t f rest, l, k, g =>
    let r := t.deMarshal (.field l k f) none g
    let s := rest.deMarshal l (k + 1) r.2
    (.seq r.1 s.1, s.2)

end

lemma DataType.marshal_basic (name : String) (l : LVal) (n : Option Size) (g : Gen) :
    (DataType.basic name).marshal l n g =
      (if name = "void" then .skip else .pack name l (n.getD .one), g) :=
  rfl

lemma DataType.deMarshal_basic (name : String) (l : LVal) (n : Option Size) (g : Gen) :
    (DataType.basic name).deMarshal l n g =
      (if name = "void" then .skip else .unPack name l (n.getD .one), g) :=
  rfl

end Parser
