/-
# Parallel classes

A parallel class has members and base classes; a base class has to be declared before it is
named, so that a class with all its bases is a finite tree.  `AddMember` numbers the methods of
a class; the class itself is known to the brokers by a number as well, which the user gives with
`classuid` or which is made from the name.

Members that are not methods have no number and nothing is dispatched to them, so that only the
methods are kept, in the order of their declarations.  A class is a group (`collective`) as soon
as one of its methods is.
-/
import PopCpp.Parser.Members

namespace Parser

/-! ### Classes and their bases -/

/-- What the declaration of a class says besides its bases. -/
structure ClassInfo where
  name : String
  /-- `classuid(..)` -/
  classid : Option ℕ := none
  /-- The class is declared as `parclass C = 0`. -/
  pureDecl : Bool := false
  isCoreCompilation : Bool := false
  methods : List Method := []

mutual

/-- `Class`. -/
inductive Class
  | mk (info : ClassInfo) (baseClass : BaseClasses)

/-- The list of `BaseClass` objects of a class. -/
inductive BaseClasses
  | nil
  | cons (type : AccessType) (base : Class) (rest : BaseClasses)

end

/-- A method as a member of a class, with its number. -/
structure Member where
  id : ℕ
  method : Method

/-- `isDefault` of a constructor. -/
def Method.isDefault (m : Method) : Bool := decide (m.methodType = .constructor) && m.params.isEmpty

/-- `AddMember` for one method after another; `endid` is the next number. -/
def addMembers : ℕ → List Method → List Member
  | _, [] => []
  | endid, m :: ms =>
    if m.isDefault then ⟨10, m⟩ :: addMembers endid ms else ⟨endid, m⟩ :: addMembers (endid + 1) ms

/-- The number that `IDFromString` makes of a character.  The comparisons with `Z` and `z` are
the wrong way round in the source: the capital letters from `A` to `Y` are dropped, and the small
ones are counted from `A`. -/
def idDigit (c : Char) : Option ℕ :=
  if 'A' ≤ c ∧ 'Z' ≤ c then some (c.toNat - 'A'.toNat)
  else if 'a' ≤ c ∧ 'z' ≤ c then some (c.toNat - 'a'.toNat + 26)
  else if c = '_' then some (2 * 26)
  else if '0' ≤ c ∧ c ≤ '9' then some (c.toNat - '0'.toNat + 2 * 26 + 1)
  else none

/-- `IDFromString`, in 32-bit arithmetic. -/
def idFromString (str : String) : ℕ :=
  let tmp := (str.toList.take 256).filterMap idDigit
  match tmp.getLast? with
  | none => 999 + 1000
  | some d => (tmp.dropLast.foldl (fun id t => (id * (2 * 26 + 11) + t) % 2 ^ 32) d + 1000) % 2 ^ 32

namespace Class

/-- The declaration of a class. -/
def info : Class → ClassInfo
  | .mk info _ => info

/-- `baseClass`. -/
def baseClass : Class → BaseClasses
  | .mk _ bs => bs

/-- `GetName`. -/
def name (C : Class) : String := C.info.name

/-- `memberList`. -/
def memberList (C : Class) : List Member := addMembers 11 C.info.methods

/-- The value of `CLASSUID_<name>`. -/
def uid (C : Class) : ℕ := (C.info.classid.getD (idFromString C.name)) % 2 ^ 32

/-- No constructor is declared. -/
def noConstructor (C : Class) : Bool :=
  !C.info.methods.any fun m => decide (m.methodType = .constructor)

/-- The member `constructor`, which stands for a constructor that is not declared. -/
def constructor (C : Class) : Member := ⟨10, { methodType := .constructor, name := C.name }⟩

/-- `is_collective`. -/
def isCollective (C : Class) : Bool := C.info.methods.any Method.isCollective

/-- `hasMethod`. -/
def hasMethod (C : Class) (x : Method) : Bool := C.info.methods.any fun t => t.same x

end Class

/-- The bases as a list. -/
def BaseClasses.toList : BaseClasses → List (AccessType × Class)
  | .nil => []
  | .cons type b rest => (type, b) :: rest.toList

mutual

/-- `methodInBaseClass`: the method is declared in a public base, or in one of its bases. -/
def Class.methodInBaseClass : Class → Method → Bool
  | .mk _ bs, x => bs.methodInBaseClass x

/-- The loop of `methodInBaseClass`. -/
def BaseClasses.methodInBaseClass : BaseClasses → Method → Bool
  | .nil, _ => false
  | .cons type b rest, x =>
    (decide (type = .pub) && (b.hasMethod x || b.methodInBaseClass x)) || rest.methodInBaseClass x

end

/-- The second loop of `findPureVirtual`: a pure virtual method is noted, and any other method
strikes out those it implements. -/
def implement (ms : List Method) (lst : List Method) : List Method :=
  ms.foldl (fun lst t => if t.isPureVirtual then lst ++ [t] else lst.filter fun v => !v.same t) lst

mutual

/-- `findPureVirtual`: the pure virtual methods that are not implemented. -/
def Class.findPureVirtual : Class → List Method → List Method
  | .mk info bs, lst => implement info.methods (bs.findPureVirtual lst)

/-- The first loop of `findPureVirtual`. -/
def BaseClasses.findPureVirtual : BaseClasses → List Method → List Method
  | .nil, lst => lst
  | .cons type b rest, lst =>
    rest.findPureVirtual (if type = .pub then b.findPureVirtual lst else lst)

end

namespace Class

/-- The answer of `findPureVirtual`: there is no public base. -/
def isRoot (C : Class) : Bool := C.baseClass.toList.all fun b => decide (b.1 ≠ .pub)

/-- `pureVirtual`, after `GenerateCode`. -/
def pureVirtual (C : Class) : Bool := C.info.pureDecl || !(C.findPureVirtual []).isEmpty

/-- `basePureVirtual`, after `GenerateCode`. -/
def basePureVirtual (C : Class) : Bool :=
  !C.info.pureDecl && !(C.findPureVirtual []).isEmpty && C.isRoot

end Class

mutual

/-- A class with all its bases, a class before its bases; one that is reached along two paths
occurs twice. -/
def Class.ancestry : Class → List Class
  | .mk info bs => .mk info bs :: bs.ancestry

/-- The bases with all their bases. -/
def BaseClasses.ancestry : BaseClasses → List Class
  | .nil => []
  | .cons _ b rest => b.ancestry ++ rest.ancestry

end

mutual

/-- A class and the classes that it is publicly derived from. -/
def Class.publicAncestry : Class → List Class
  | .mk info bs => .mk info bs :: bs.publicAncestry

/-- The same for the public ones among the bases. -/
def BaseClasses.publicAncestry : BaseClasses → List Class
  | .nil => []
  | .cons type b rest => (if type = .pub then b.publicAncestry else []) ++ rest.publicAncestry

end

/-! ### Numbers of methods -/

lemma le_id_of_mem_addMembers {t : Member} : ∀ {ms : List Method} {endid : ℕ},
    t ∈ addMembers endid ms → t.id = 10 ∧ t.method.isDefault ∨ endid ≤ t.id
  | [], _, ht => by simp [addMembers] at ht
  | m :: ms, endid, ht => by
    rw [addMembers] at ht
    split_ifs at ht with hm
    · rcases List.mem_cons.mp ht with rfl | ht
      · exact .inl ⟨rfl, hm⟩
      · exact le_id_of_mem_addMembers ht
    · rcases List.mem_cons.mp ht with rfl | ht
      · exact .inr (Nat.le_refl _)
      · rcases le_id_of_mem_addMembers ht with h | h
        · exact .inl h
        · exact .inr (by omega)

/-- Two methods of a class with the same number are the same, default constructors apart. -/
lemma eq_of_mem_addMembers {s t : Member} : ∀ {ms : List Method} {endid : ℕ}, 10 < endid →
    s ∈ addMembers endid ms → t ∈ addMembers endid ms → s.id = t.id → s.id ≠ 10 → s = t
  | [], _, _, hs, _, _, _ => by simp [addMembers] at hs
  | m :: ms, endid, hend, hs, ht, hst, hne => by
    rw [addMembers] at hs ht
    split_ifs at hs ht with hm
    · rcases List.mem_cons.mp hs with rfl | hs
      · exact absurd rfl hne
      · rcases List.mem_cons.mp ht with rfl | ht
        · exact absurd hst hne
        · exact eq_of_mem_addMembers hend hs ht hst hne
    · rcases List.mem_cons.mp hs with rfl | hs <;> rcases List.mem_cons.mp ht with rfl | ht
      · rfl
      · -- a later method has a larger number, or is a default constructor
        rcases le_id_of_mem_addMembers ht with ⟨h10, -⟩ | h
        · exact absurd (hst.trans h10) hne
        · have : endid = t.id := hst
          omega
      · rcases le_id_of_mem_addMembers hs with ⟨h10, -⟩ | h
        · exact absurd h10 hne
        · have : s.id = endid := hst
          omega
      · exact eq_of_mem_addMembers (by omega) hs ht hst hne

lemma ten_le_id {t : Member} {ms : List Method} (ht : t ∈ addMembers 11 ms) : 10 ≤ t.id := by
  rcases le_id_of_mem_addMembers ht with ⟨h, -⟩ | h <;> omega

lemma method_mem_of_mem_addMembers {t : Member} : ∀ {ms : List Method} {endid : ℕ},
    t ∈ addMembers endid ms → t.method ∈ ms
  | [], _, ht => by simp [addMembers] at ht
  | m :: ms, endid, ht => by
    rw [addMembers] at ht
    split_ifs at ht <;> rcases List.mem_cons.mp ht with rfl | ht
    · exact List.mem_cons_self
    · exact List.mem_cons_of_mem _ (method_mem_of_mem_addMembers ht)
    · exact List.mem_cons_self
    · exact List.mem_cons_of_mem _ (method_mem_of_mem_addMembers ht)

/-- Every method of a class is a member. -/
lemma exists_mem_addMembers {m : Method} : ∀ {ms : List Method} (endid : ℕ), m ∈ ms →
    ∃ t ∈ addMembers endid ms, t.method = m
  | m' :: ms, endid, hm => by
    rw [addMembers]
    rcases List.mem_cons.mp hm with rfl | hm
    · split_ifs
      · exact ⟨_, List.mem_cons_self, rfl⟩
      · exact ⟨_, List.mem_cons_self, rfl⟩
    · split_ifs
      · obtain ⟨t, ht, rfl⟩ := exists_mem_addMembers endid hm
        exact ⟨t, List.mem_cons_of_mem _ ht, rfl⟩
      · obtain ⟨t, ht, rfl⟩ := exists_mem_addMembers (endid + 1) hm
        exact ⟨t, List.mem_cons_of_mem _ ht, rfl⟩

/-! ### Ancestors -/

lemma Class.mem_ancestry_self (C : Class) : C ∈ C.ancestry := by
  cases C
  rw [Class.ancestry]
  exact List.mem_cons_self

mutual

lemma Class.ancestry_trans : ∀ (C : Class) {D E : Class}, D ∈ C.ancestry → E ∈ D.ancestry →
    E ∈ C.ancestry
  | .mk info bs, D, E, hD, hE => by
    rw [Class.ancestry] at hD ⊢
    rcases List.mem_cons.mp hD with rfl | hD
    · rwa [Class.ancestry] at hE
    · exact List.mem_cons_of_mem _ (bs.ancestry_trans hD hE)

lemma BaseClasses.ancestry_trans : ∀ (bs : BaseClasses) {D E : Class}, D ∈ bs.ancestry →
    E ∈ D.ancestry → E ∈ bs.ancestry
  | .nil, _, _, hD, _ => by simp [BaseClasses.ancestry] at hD
  | .cons _ b rest, D, E, hD, hE => by
    rw [BaseClasses.ancestry] at hD ⊢
    rcases List.mem_append.mp hD with hD | hD
    · exact List.mem_append_left _ (b.ancestry_trans hD hE)
    · exact List.mem_append_right _ (rest.ancestry_trans hD hE)

end

mutual

/-- The ancestors of a class are smaller. -/
lemma Class.sizeOf_le : ∀ (C : Class) {D : Class}, D ∈ C.ancestry → sizeOf D ≤ sizeOf C
  | .mk info bs, D, hD => by
    rw [Class.ancestry] at hD
    rcases List.mem_cons.mp hD with rfl | hD
    · exact Nat.le_refl _
    · have := bs.sizeOf_lt hD
      simp only [Class.mk.sizeOf_spec]
      omega

lemma BaseClasses.sizeOf_lt : ∀ (bs : BaseClasses) {D : Class}, D ∈ bs.ancestry →
    sizeOf D < sizeOf bs
  | .nil, _, hD => by simp [BaseClasses.ancestry] at hD
  | .cons _ b rest, D, hD => by
    rw [BaseClasses.ancestry] at hD
    rcases List.mem_append.mp hD with hD | hD
    · have := b.sizeOf_le hD
      simp only [BaseClasses.cons.sizeOf_spec]
      omega
    · have := rest.sizeOf_lt hD
      simp only [BaseClasses.cons.sizeOf_spec]
      omega

end

/-- No class is its own base. -/
lemma Class.notMem_baseClass_ancestry (C : Class) : C ∉ C.baseClass.ancestry := by
  intro h
  have := C.baseClass.sizeOf_lt h
  obtain ⟨info, bs⟩ := C
  simp only [Class.baseClass, Class.mk.sizeOf_spec] at this
  omega

lemma Class.mem_ancestry_iff (C : Class) {D : Class} :
    D ∈ C.ancestry ↔ D = C ∨ D ∈ C.baseClass.ancestry := by
  obtain ⟨info, bs⟩ := C
  rw [Class.ancestry, List.mem_cons]
  rfl

end Parser
