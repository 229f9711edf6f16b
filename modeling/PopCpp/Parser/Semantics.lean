/-
# The meaning of the emitted statements

The emitted text is run on a machine with objects, which are trees, integer variables, and
pointers and iterators, which are places in objects.  A buffer is the list of what has been
packed and not been unpacked yet; every `Pack`, `UnPack` and `Serialize` is recorded, with its
type and count.  A variable is taken for the declaration that the generator means by it.

An `UnPack` of the type and count of the `Pack` that filled the buffer gives back its values,
and `Serialize` gives back the object; this is all that is assumed of the two.  Where the C++
program would have no meaning (an access outside of an object, a negative count, an `UnPack`
that does not fit the buffer) the machine is stuck.

The text has to be accepted by the C++ compiler in the first place: `Stmt.compiles` looks at the
names of types in it.  Arrays write `GetName` of their element type into a cast, which for an
unnamed type is no name and for a container is the name of a template; containers write
`GetDeclaration`, in which the bounds of an array stand in front of a reference.
-/
import PopCpp.Lib.CInt
import PopCpp.Lib.Tree
import PopCpp.Lib.Simulation
import PopCpp.Parser.Generator

namespace Parser

open Simulation

/-! ### What a compiler accepts -/

namespace DataType

/-- `GetName` gives the name of a type. -/
def isTypeName : DataType → Bool
  | basic _ => true
  | equal _ _ => true
  | struct name _ => name.isSome
  | seqClass _ _ => true
  | parClass _ => true
  | _ => false

/-- `GetDeclaration(nullptr, ..)` gives a type. -/
def declares : DataType → Bool
  | basic _ => true
  | array _ b => b.declares
  | ptr _ b => b.declares
  | equal _ _ => true
  | struct name _ => name.isSome
  | seqClass _ _ => true
  | seq _ _ e => e.declares
  | map _ k v => k.declares && v.declares
  | parClass _ => true

/-- The text of `GetDeclaration` can be followed by `&` or by a variable. -/
def castable : DataType → Bool
  | array _ _ => false
  | t => t.declares

/-- The iterators of a container can be declared, and their targets cast. -/
def iterable : DataType → Bool
  | seq _ _ e => e.castable
  | map _ k v => k.castable && v.castable
  | _ => false

end DataType

/-- The types that are named in the statement are types. -/
def Stmt.compiles : Stmt → Bool
  | .seq s t => s.compiles && t.compiles
  | .declObj t _ => t.castable
  | .forElems t _ _ _ _ body => t.isTypeName && body.compiles
  | .forItems _ _ body => body.compiles
  | .forIter t _ _ body => t.iterable && body.compiles
  | .forCount _ _ body => body.compiles
  | _ => true

/-! ### Buffers and states -/

/-- What one operation puts into the buffer. -/
inductive Item (α : Type)
  /-- the size of a container -/
  | size (n : ℤ)
  /-- values of a standard type -/
  | data (type : String) (vs : List (Rose α))
  /-- an object of a class with a `Serialize` method -/
  | object (type : String) (v : Rose α)

/-- An operation on the buffer: the type and the number of the values. -/
structure Op where
  type : String
  count : ℕ
  deriving DecidableEq

/-- The operation that has packed an item. -/
def Item.op {α : Type} : Item α → Op
  | .size _ => ⟨"int", 1⟩
  | .data type vs => ⟨type, vs.length⟩
  | .object type _ => ⟨type, 1⟩

/-- A place in an object. -/
structure Loc where
  obj : ℕ
  path : List ℕ

/-- The element or attribute `k` of the part at a place. -/
def Loc.child (loc : Loc) (k : ℕ) : Loc := ⟨loc.obj, loc.path ++ [k]⟩

/-- A state of the machine. -/
structure State (α : Type) where
  buf : List (Item α)
  ops : List Op
  ints : ℕ → ℤ
  refs : ℕ → Loc
  objs : ℕ → Rose α

/-- The order of the keys, for each type of keys. -/
abbrev KeyOrder (α : Type) := DataType → Rose α → Rose α → Bool

namespace State

variable {α : Type} (σ : State α)

/-- The part of an object at a place. -/
def read (loc : Loc) : Option (Rose α) := Rose.get? loc.path (σ.objs loc.obj)

/-- Replace the part of an object at a place. -/
def write (loc : Loc) (v : Rose α) : Option (State α) :=
  (Rose.set? loc.path (σ.objs loc.obj) v).map fun o =>
    { σ with objs := Function.update σ.objs loc.obj o }

/-- Assign an integer variable. -/
def setInt (x : Var) (n : ℤ) : State α := { σ with ints := Function.update σ.ints x.id n }

/-- Assign a pointer or an iterator. -/
def setRef (x : Var) (loc : Loc) : State α := { σ with refs := Function.update σ.refs x.id loc }

/-- Declare an object. -/
def setObj (x : Var) (v : Rose α) : State α := { σ with objs := Function.update σ.objs x.id v }

/-- `Pack`. -/
def put (i : Item α) : State α := { σ with buf := σ.buf ++ [i], ops := σ.ops ++ [i.op] }

/-- `UnPack`: the first item of the buffer. -/
def take : Option (Item α × State α) :=
  match σ.buf with
  | [] => none
  | i :: rest => some (i, { σ with buf := rest, ops := σ.ops ++ [i.op] })

end State

section Run

variable {α : Type}

/-- The place of an operand. -/
def LVal.loc (σ : State α) : LVal → Loc
  | .var x => ⟨x.id, []⟩
  | .field l k _ => (l.loc σ).child k
  | .head l => (l.loc σ).child 0
  | .index l i => (l.loc σ).child (σ.ints i.id).toNat
  | .target x => σ.refs x.id
  | .first x => (σ.refs x.id).child 0
  | .second x => (σ.refs x.id).child 1

/-- The value of a size. -/
def Size.val (σ : State α) : Size → ℤ
  | .one => 1
  | .var x => σ.ints x.id
  | .card c => c.size

/-- The elements of a node. -/
def elements : Rose α → Option (List (Rose α))
  | .leaf _ => none
  | .node ts => some ts

/-- The values `Pack(&l, n)` reads: one value, or the first `n` elements of an array. -/
def packed (σ : State α) : LVal → Size → Option (List (Rose α))
  | l, .one => (σ.read (l.loc σ)).map fun v => [v]
  | .head l, n => ((σ.read (l.loc σ)).bind elements).bind fun ts =>
    if 0 ≤ n.val σ ∧ n.val σ ≤ ts.length then some (ts.take (n.val σ).toNat) else none
  | _, _ => none

/-- Where `UnPack(&l, n)` writes `vs`. -/
def unPacked (σ : State α) (vs : List (Rose α)) : LVal → Size → Option (State α)
  | l, .one => (vs.head?).bind fun v => σ.write (l.loc σ) v
  | .head l, n => ((σ.read (l.loc σ)).bind elements).bind fun ts =>
    if 0 ≤ n.val σ ∧ n.val σ ≤ ts.length ∧ vs.length = (n.val σ).toNat then
      σ.write (l.loc σ) (.node (vs ++ ts.drop (n.val σ).toNat))
    else none
  | _, _ => none

/-- The key of an entry of a map. -/
def entryKey : Rose α → Rose α
  | .node (k :: _) => k
  | t => t

/-- `operator[]` of a map, followed by an assignment: the entries stay in the order of their
keys; an entry with an equivalent key keeps the key. -/
def insertEntry (lt : Rose α → Rose α → Bool) (k v : Rose α) : List (Rose α) → List (Rose α)
  | [] => [.node [k, v]]
  | e :: es =>
    if lt (entryKey e) k then e :: insertEntry lt k v es
    else if lt k (entryKey e) then .node [k, v] :: e :: es
    else .node [entryKey e, v] :: es

variable [Inhabited α]

mutual

/-- The contents of a newly declared object of a type. -/
def DataType.init : DataType → Rose α
  | .basic name => if name = "void" then .node [] else .leaf default
  | .array c b => .node (List.replicate c.size b.init)
  | .ptr _ _ => .node []
  | .equal _ t => t.init
  | .struct _ as => .node as.inits
  | .seqClass _ _ => .leaf default
  | .seq _ _ _ => .node []
  | .map _ _ _ => .node []
  | .parClass _ => .leaf default

/-- The same for the attributes of a structure. -/
def Attributes.inits : Attributes → List (Rose α)
  | .nil => []
  | .cons t _ rest => t.init :: rest.inits

end

/-- `resize(n)` of a container. -/
def resized (init : Rose α) (n : ℕ) (ts : List (Rose α)) : List (Rose α) :=
  ts.take n ++ List.replicate (n - ts.length) init

/-- Run a statement.  The trip count of a loop is fixed when it is entered: no body changes the
bound of its own loop. -/
def run (lt : KeyOrder α) : Stmt → State α → Option (State α)
  | .skip, σ => some σ
  | .seq s t, σ => (run lt s σ).bind (run lt t)
  | .pack type l n, σ => (packed σ l n).map fun vs => σ.put (.data type vs)
  | .unPack type l n, σ => σ.take.bind fun r =>
    match r.1 with
    | .data type' vs =>
      if type' = type ∧ (vs.length : ℤ) = n.val σ then unPacked r.2 vs l n else none
    | _ => none
  | .declSize x l, σ => ((σ.read (l.loc σ)).bind elements).map fun ts =>
    σ.setInt x (CInt.wrap ts.length)
  | .declInt x, σ => some (σ.setInt x 0)
  | .packInt x, σ => some (σ.put (.size (σ.ints x.id)))
  | .unPackInt x, σ => σ.take.bind fun r =>
    match r.1 with
    | .size n => some (r.2.setInt x n)
    | _ => none
  | .resize e l x, σ => ((σ.read (l.loc σ)).bind elements).bind fun ts =>
    if 0 ≤ σ.ints x.id then
      σ.write (l.loc σ) (.node (resized e.init (σ.ints x.id).toNat ts))
    else none
  | .clear l, σ => σ.write (l.loc σ) (.node [])
  | .declObj t x, σ => some (σ.setObj x t.init)
  | .mapSet k l key value, σ => ((σ.read (l.loc σ)).bind elements).bind fun es =>
    σ.write (l.loc σ) (.node (insertEntry (lt k) (σ.objs key.id) (σ.objs value.id) es))
  | .serialize type l true, σ => (σ.read (l.loc σ)).map fun v => σ.put (.object type v)
  | .serialize type l false, σ => σ.take.bind fun r =>
    match r.1 with
    | .object type' v => if type' = type then r.2.write (l.loc r.2) v else none
    | _ => none
  -- the size expression and the procedures of the user are not part of the code of a type
  | .declParamSize _ _, _ => none
  | .proc _ _ _ _, _ => none
  | .forElems _ cnt elem n l body, σ =>
    loop (fun j τ => run lt body ((τ.setInt cnt (n.val σ - j)).setRef elem ((l.loc σ).child j)))
      (n.val σ).toNat 0 σ
  | .forItems item n body, σ =>
    loop (fun j τ => run lt body (τ.setInt item j)) (n.val σ).toNat 0 σ
  | .forIter _ it l body, σ => ((σ.read (l.loc σ)).bind elements).bind fun ts =>
    loop (fun j τ => run lt body (τ.setRef it ((l.loc σ).child j))) ts.length 0 σ
  | .forCount i n body, σ =>
    loop (fun j τ => run lt body (τ.setInt i j)) (σ.ints n.id).toNat 0 σ

/-- Compile a statement and run it. -/
def execute (lt : KeyOrder α) (s : Stmt) (σ : State α) : Option (State α) :=
  if s.compiles then run lt s σ else none

end Run

end Parser
