/-
# The data types of the parser

The parser keeps every type of a parallel class interface as a `DataType` object: standard
types, arrays, pointers, typedefs, structures, sequential classes, containers of the standard
library and parallel classes.  `canMarshal` decides which of them can travel in a message.

A type that contains itself is refused by `CanMarshal` (the mark of a type is found again), so
that every accepted type is a finite tree.  Standard names belong to the types that the parser
registers before it reads a file, and `FindDataType` finds these first: no other type answers
to a standard name.
-/
import Mathlib.Data.List.Basic
import Mathlib.Algebra.BigOperators.Group.List.Basic

namespace Parser

/-- `DataType::stdType`. -/
def stdType : List String :=
  ["bool", "char", "signed char", "unsigned char", "short", "short int", "unsigned short",
    "signed short", "int", "unsigned", "unsigned int", "signed int", "long", "signed long",
    "unsigned long", "long int", "long long", "long double", "float", "double", "void",
    "std::string", "string"]

/-- An identifier of the program that does not start with an underscore. -/
structure UserName where
  text : String
  plain : text.toList.head? ≠ some '_'
  deriving DecidableEq

/-- One dimension of an array declarator: the text between the brackets, its value as a
constant expression, and the identifiers that it mentions. -/
structure Dim where
  text : String
  value : ℕ
  idents : List UserName
  deriving DecidableEq

/-- The dimensions `[N][M]` of an array; the number of elements `(N)*(M)`, which the generated
code computes, is an `int`. -/
structure Cardinal where
  dims : List Dim
  fits : (dims.map Dim.value).prod < 2 ^ 31
  deriving DecidableEq

namespace Cardinal

/-- The value of the text that `GetCardinalSize` writes. -/
def size (c : Cardinal) : ℕ := (c.dims.map Dim.value).prod

/-- The identifiers in the text that `GetCardinalSize` writes. -/
def idents (c : Cardinal) : List UserName := c.dims.flatMap Dim.idents

/-- The declarator itself. -/
def text (c : Cardinal) : String := String.join (c.dims.map fun d => "[" ++ d.text ++ "]")

end Cardinal

/-- The containers with one element type. -/
inductive SeqKind
  | vector
  | list
  | deque
  deriving DecidableEq

/-- The name of a container, with or without `std::`. -/
def SeqKind.text (qualified : Bool) : SeqKind → String
  | .vector => if qualified then "std::vector" else "vector"
  | .list => if qualified then "std::list" else "list"
  | .deque => if qualified then "std::deque" else "deque"

mutual

/-- The class `DataType` and those derived from it. -/
inductive DataType
  /-- A `DataType` proper: a standard type, or a name that the parser knows nothing about. -/
  | basic (name : String)
  /-- `TypeArray`. -/
  | array (cardinal : Cardinal) (typebase : DataType)
  /-- `TypePtr`; its own size is never set. -/
  | ptr (nptr : ℕ) (typebase : DataType)
  /-- `TypeEqual`, a typedef. -/
  | equal (name : String) (type : DataType)
  /-- `TypeClassStruct` with `isClass` false. -/
  | struct (name : Option String) (attributes : Attributes)
  /-- `TypeClassStruct` with `isClass` true. -/
  | seqClass (name : String) (bases : Attributes)
  /-- `TypeTemplate` with one element type. -/
  | seq (qualified : Bool) (kind : SeqKind) (element : DataType)
  /-- `TypeTemplate` of a map. -/
  | map (qualified : Bool) (key value : DataType)
  /-- `Class`, a parallel class as a type. -/
  | parClass (name : String)

/-- The attributes of a structure, or the bases of a sequential class, with their names. -/
inductive Attributes
  | nil
  | cons (type : DataType) (name : String) (rest : Attributes)

end

namespace DataType

/-- `IsStandardType`. -/
def isStandardType : DataType → Bool
  | basic name => stdType.contains name
  | _ => false

/-- `GetName`; the types of declarators have none. -/
def getName : DataType → Option String
  | basic name => some name
  | array _ _ => none
  | ptr _ _ => none
  | equal name _ => some name
  | struct name _ => name
  | seqClass name _ => some name
  | seq q k _ => some (k.text q)
  | map q _ _ => some (if q then "std::map" else "map")
  | parClass name => some name

/-- `IsPointer`: the number of pointer levels. -/
def isPointer : DataType → ℕ
  | ptr n b => n + b.isPointer
  | equal _ t => t.isPointer
  | _ => 0

/-- `IsArray`. -/
def isArray : DataType → Bool
  | array _ _ => true
  | equal _ t => t.isArray
  | _ => false

/-- `IsParClass`. -/
def isParClass : DataType → Bool
  | parClass _ => true
  | equal _ t => t.isParClass
  | _ => false

/-- `GetExpandType`: the text by which `Same` compares types.  A container is its name. -/
def getExpandType : DataType → String
  | basic name => name
  | array c b => b.getExpandType ++ c.text
  | ptr n b => b.getExpandType ++ String.join (List.replicate n "*")
  | equal _ t => t.getExpandType
  | struct name _ => name.getD ""
  | seqClass name _ => name
  | seq q k _ => k.text q
  | map q _ _ => if q then "std::map" else "map"
  | parClass name => name

/-- `Same`. -/
def same (s t : DataType) : Bool := s.getExpandType == t.getExpandType

/-- `Same("void")`. -/
def isVoid (t : DataType) : Bool := t.getExpandType == "void"

end DataType

mutual

/-- `CanMarshal`: 0 if the type cannot be sent, 1 if it can, 2 if it needs a size. -/
def DataType.canMarshal : DataType → ℕ
  | .basic name => if stdType.contains name then 1 else 0
  | .array _ b => b.canMarshal
  | .ptr n b => if n = 1 ∧ b.canMarshal ≠ 0 then 2 else 0
  | .equal _ t => t.canMarshal
  | .struct _ as => if as.allMarshal then 1 else 0
  | .seqClass name bs => if name = "pop_base" ∨ bs.someMarshal then 1 else 0
  | .seq _ _ e => if e.canMarshal ≠ 0 then 1 else 0
  | .map _ k v => if k.canMarshal ≠ 0 ∧ v.canMarshal ≠ 0 then 1 else 0
  | .parClass _ => 1

/-- Every attribute answers 1. -/
def Attributes.allMarshal : Attributes → Bool
  | .nil => true
  | .cons t _ rest => decide (t.canMarshal = 1) && rest.allMarshal

/-- Some base can be marshalled. -/
def Attributes.someMarshal : Attributes → Bool
  | .nil => false
  | .cons t _ rest => decide (t.canMarshal ≠ 0) || rest.someMarshal

end

/-- The standard types are the plain ones with a standard name. -/
lemma DataType.eq_basic_of_isStandardType {t : DataType} (h : t.isStandardType) :
    ∃ name, t = .basic name ∧ name ∈ stdType := by
  cases t with
  | basic name => exact ⟨name, rfl, by simpa [isStandardType] using h⟩
  | _ => simp [isStandardType] at h

end Parser
