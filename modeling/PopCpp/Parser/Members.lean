/-
# Parameters and methods of parallel classes

A method of a parallel class keeps its parameters with the attributes that the user has given
them (`in`, `out`, `size=..`, `proc=..`) and with what the declarator says.  From these the
generators decide, for each parameter on its own, whether it travels to the object, back to the
caller, or both ways.

Every declaration has a type, so that a parameter without one is not modelled; its default value
and whether it was written as `x[]` only occur in the declaration of the method.
-/
import PopCpp.Parser.Types

namespace Parser

/-- `AccessType`. -/
inductive AccessType
  | pub
  | prot
  | priv
  deriving DecidableEq

/-- `MethodType`. -/
inductive MethodType
  | normal
  | constructor
  | destructor
  deriving DecidableEq

/-- `InvokeType`. -/
inductive InvokeType
  | autoselect
  | invokesync
  | invokeasync
  deriving DecidableEq

/-- `Param`. -/
structure Param where
  name : String
  mytype : DataType
  isInput : Bool := false
  isOutput : Bool := false
  isConst : Bool := false
  isRef : Bool := false
  isVoid : Bool := false
  paramSize : Option String := none
  marshalProc : Option String := none

namespace Param

/-- `InParam`. -/
def inParam (p : Param) : Bool :=
  if p.isInput || p.isConst then true else if p.isOutput then false else true

/-- `OutParam`. -/
def outParam (p : Param) : Bool :=
  if p.isConst then false
  else if p.isOutput then true
  else if p.isInput then false
  else p.isRef || decide (0 < p.mytype.isPointer) || p.mytype.isArray

/-- `CanMarshal`. -/
def canMarshal (p : Param) : Bool :=
  p.marshalProc.isSome || decide (p.mytype.canMarshal = 1) ||
    (decide (p.mytype.canMarshal = 2) && p.paramSize.isSome)

end Param

/-- `Method`, with the classes `Constructor` and `Destructor` that are derived from it. -/
structure Method where
  methodType : MethodType := .normal
  accessType : AccessType := .pub
  name : String
  params : List Param := []
  returnparam : Param := { name := "_RemoteRet", mytype := .basic "void" }
  invoketype : InvokeType := .invokesync
  isConcurrent : Bool := false
  isMutex : Bool := false
  isHidden : Bool := false
  isVirtual : Bool := false
  isPureVirtual : Bool := false
  isCollective : Bool := false

namespace Method

/-- The loop of `CheckMarshal`: the number of the first parameter that is refused, from the `i`-th
on, and 0 if there is none. -/
def refused : List Param → ℤ → ℤ
  | [], _ => 0
  | p :: ps, i =>
    if (p.mytype.isParClass && !p.isRef) || !p.canMarshal then i else refused ps (i + 1)

/-- `CheckMarshal`: 0 if the method can be called remotely, -1 if its result cannot be sent, and
otherwise the number of a parameter. -/
def checkMarshal (m : Method) : ℤ :=
  if m.accessType ≠ .pub ∨ m.isHidden then 0
  else if m.methodType = .normal ∧ m.returnparam.canMarshal = false then -1
  else refused m.params 1

/-- A result is returned: the method is a normal one and not declared `void`. -/
def hasReturn (m : Method) : Bool := decide (m.methodType = .normal) && !m.returnparam.mytype.isVoid

/-- `hasOutput`. -/
def hasOutput (m : Method) : Bool := m.hasReturn || m.params.any Param.outParam

/-- The types of the parameters are the same, one by one. -/
def sameParams : List Param → List Param → Bool
  | [], [] => true
  | p :: ps, q :: qs => p.mytype.same q.mytype && sameParams ps qs
  | _, _ => false

/-- `operator==`.  Only normal methods are ever compared with each other: it is called for a
method that is virtual or pure virtual, which is a normal one. -/
def same (m other : Method) : Bool :=
  decide (m.isVirtual = other.isVirtual) && decide (m.accessType = other.accessType) &&
    decide (m.methodType = other.methodType) && decide (m.name = other.name) &&
    m.returnparam.mytype.same other.returnparam.mytype && sameParams m.params other.params

end Method

end Parser
