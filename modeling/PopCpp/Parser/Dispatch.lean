/-
# From the client stub to the function that serves a call

Four generators go through the members of a class: one writes the client stubs, one the cases of
the broker's `Invoke`, one declares the functions `Invoke_<name>_<id>` in the broker, and one
defines them.  Each of them decides on its own which members it takes.

A call carries the number of a class and the number of a method.  `Invoke` of the broker looks
at the first: the broker either has this number itself, and then the call is one of its own
cases or fails, or asks the brokers of its bases, one after the other.  A broker without bases
asks `pop_broker::Invoke`, which only knows the methods with numbers below 10.

The main result says for which classes the four generators agree and every call arrives.
-/
import PopCpp.Parser.Classes

namespace Parser

/-! ### The generators of a method -/

namespace Method

variable (C : Class) (m : Method)

/-- The method of a virtual declaration in a base is used instead of this one. -/
def inherited : Bool := m.isVirtual && C.methodInBaseClass m

/-- `GenerateClient` writes a stub that makes a call; the one of `Destructor` makes none. -/
def generateClient : Bool :=
  if m.methodType = .destructor then false else !(m.inherited C || m.isHidden)

/-- The conditions with which the generators of the broker begin. -/
def hasInvoke : Bool :=
  if m.methodType = .destructor ∨ m.accessType ≠ .pub ∨ m.isHidden then false
  else if m.inherited C then false
  else true

/-- `GenerateBrokerHeader` declares the function. -/
def generateBrokerHeader : Bool := m.hasInvoke C

/-- `generate_broker_header_pog` declares the function. -/
def generateBrokerHeaderPog : Bool := m.hasInvoke C

/-- `GenerateBroker` defines the function. -/
def generateBroker : Bool := m.hasInvoke C

end Method

/-! ### The generators of a class -/

namespace Class

variable (C : Class)

/-- The member is a constructor of an abstract class of the core. -/
def skipsConstructor (m : Method) : Bool :=
  C.pureVirtual && decide (m.methodType = .constructor) && C.info.isCoreCompilation

/-- `GenerateClient`: the members with a stub. -/
def clientStubs : List Member :=
  (C.memberList.filter fun t => decide (t.method.accessType = .pub) &&
    !C.skipsConstructor t.method && t.method.generateClient C) ++
  if C.noConstructor && !C.pureVirtual then [C.constructor] else []

/-- The members that `GenerateBroker` takes, once for `Invoke` and once for the functions. -/
def served (t : Member) : Bool :=
  decide (t.method.accessType = .pub) && !(decide (t.method.methodType = .destructor) ||
    t.method.isHidden || C.skipsConstructor t.method || t.method.inherited C)

/-- `GenerateBroker`: the members with a case in `Invoke`. -/
def dispatched : List Member :=
  C.memberList.filter C.served ++
  if C.noConstructor && !C.pureVirtual then [C.constructor] else []

/-- `GenerateBrokerHeader` and `generate_broker_header_pog`: the members whose functions are
declared.  Groups are expected to declare a constructor. -/
def declared : List Member :=
  if C.isCollective then
    C.memberList.filter fun t => decide (t.method.accessType = .pub) &&
      !C.skipsConstructor t.method && t.method.generateBrokerHeaderPog C
  else
    (C.memberList.filter fun t => decide (t.method.accessType = .pub) &&
      !C.skipsConstructor t.method && t.method.generateBrokerHeader C) ++
    if C.noConstructor && !C.pureVirtual then [C.constructor] else []

/-- `GenerateBroker`: the members whose functions are defined. -/
def defined : List Member :=
  (C.memberList.filter fun t => C.served t && t.method.generateBroker C) ++
  if C.noConstructor then [C.constructor] else []

end Class

/-! ### The text of a broker -/

/-- A function of a broker with the names of its buffer and its connection, where it is declared,
or the expressions that are passed for them, where it is called. -/
structure Function where
  name : String
  buffer : String
  connection : String
  deriving DecidableEq

/-- What `GenerateBroker` writes, as far as calls are concerned. -/
structure Broker where
  /-- The class that the broker belongs to. -/
  owner : Class
  /-- The head of `Invoke`. -/
  invoke : Function
  /-- The cases, each with its call. -/
  cases : List (Member × Function)
  /-- The bases, each with the call of its `Invoke`. -/
  bases : List (Class × Function)
  /-- The call of the runtime, for a class without bases. -/
  root : Option (String × Function)
  /-- The array `_paroc_minfo` with its declared size. -/
  methodinfo : List (ℕ × String)
  methodcount : ℤ

namespace Class

/-- The head of `Invoke`. -/
def invokeHead (C : Class) : Function :=
  if C.isCollective then ⟨"invoke", "_popc_buffer", "_popc_connection"⟩
  else ⟨"Invoke", "__brokerbuf", "peer"⟩

/-- The name `Invoke_<name>_<id>`. -/
def invokeName (t : Member) : String := "Invoke_" ++ t.method.name ++ "_" ++ toString t.id

/-- `GenerateBroker`.  The variable `methodcount` is a `char`. -/
def generateBroker (C : Class) : Broker where
  owner := C
  invoke := C.invokeHead
  cases :=
    ((C.memberList.filter C.served).map fun t =>
      (t, { C.invokeHead with name := invokeName t })) ++
    if C.noConstructor && !C.pureVirtual then
      [(C.constructor, ⟨invokeName C.constructor, "__brokerbuf", "peer"⟩)]
    else []
  bases := C.baseClass.toList.map fun b => (b.2, ⟨"Invoke", "__brokerbuf", "peer"⟩)
  root :=
    if C.baseClass.toList.isEmpty then
      some (if C.isCollective then "POPC_GroupBroker" else "pop_broker", C.invokeHead)
    else none
  methodinfo := C.dispatched.map fun t => (t.id, t.method.name)
  methodcount := (C.dispatched.length : ℤ).bmod 256

end Class

/-- The text only names what is declared where it stands: the functions that are called and
defined are declared in the broker, the functions of the bases exist under the name that is
written, and the arguments are the parameters of `Invoke`. -/
structure Broker.WellScoped (B : Broker) : Prop where
  cases : ∀ c ∈ B.cases, c.1 ∈ B.owner.declared ∧ c.2.buffer = B.invoke.buffer ∧
    c.2.connection = B.invoke.connection
  bases : ∀ b ∈ B.bases, b.2.name = b.1.invokeHead.name ∧ b.2.buffer = B.invoke.buffer ∧
    b.2.connection = B.invoke.connection
  root : ∀ r ∈ B.root, r.2.buffer = B.invoke.buffer ∧ r.2.connection = B.invoke.connection
  defined : ∀ t ∈ B.owner.defined, t ∈ B.owner.declared

/-! ### Where a call arrives -/

mutual

/-- `Invoke` of a broker for the class number `u` and the method number `i`: the class whose
function is called, and the member.  The function of a member is called by its case; the numbers
of `pop_broker::Invoke` are not those of members. -/
def Class.invoke : Class → ℕ → ℕ → Option (Class × Member)
  | .mk info bs, u, i =>
    if u = (Class.mk info bs).uid then
      ((Class.mk info bs).dispatched.find? fun t => decide (t.id = i)).map (.mk info bs, ·)
    else bs.invoke u i

/-- The calls of `Invoke` of the bases. -/
def BaseClasses.invoke : BaseClasses → ℕ → ℕ → Option (Class × Member)
  | .nil, _, _ => none
  | .cons _ b rest, u, i => (b.invoke u i).or (rest.invoke u i)

end

/-- The dispatch of a class and all its bases is complete and consistent. -/
structure Class.DispatchComplete (C : Class) : Prop where
  names : ∀ E ∈ C.ancestry, E.generateBroker.WellScoped
  client : ∀ E ∈ C.ancestry, ∀ t, t ∈ E.clientStubs ↔ t ∈ E.dispatched
  declared : ∀ E ∈ C.ancestry, ∀ t, t ∈ E.dispatched ↔ t ∈ E.declared
  defined : ∀ E ∈ C.ancestry, ∀ t, t ∈ E.dispatched ↔ t ∈ E.defined
  reached : ∀ E ∈ C.ancestry, ∀ D ∈ E.ancestry, ∀ t ∈ D.clientStubs,
    E.invoke D.uid t.id = some (D, t)

/-! ### The four sets -/

namespace Class

variable {C : Class} {t : Member}

lemma generateBroker_of_served (h : C.served t = true) : t.method.generateBroker C = true := by
  simp only [served, Bool.and_eq_true, decide_eq_true_eq, Bool.not_eq_true', Bool.or_eq_false_iff,
    decide_eq_false_iff_not] at h
  obtain ⟨hpub, ⟨⟨hd, hh⟩, -⟩, hin⟩ := h
  simp [Method.generateBroker, Method.hasInvoke, hpub, hd, hh, hin]

lemma served_eq_hasInvoke (C : Class) (t : Member) : C.served t =
    (decide (t.method.accessType = .pub) && !C.skipsConstructor t.method &&
      t.method.hasInvoke C) := by
  simp only [served, Method.hasInvoke]
  by_cases hd : t.method.methodType = .destructor <;>
    by_cases hp : t.method.accessType = .pub <;>
    cases t.method.isHidden <;> cases C.skipsConstructor t.method <;>
    cases t.method.inherited C <;> simp [hd, hp]

/-- The stubs and the cases of `Invoke` are always those of the same members. -/
lemma clientStubs_eq_dispatched (C : Class) : C.clientStubs = C.dispatched := by
  have hfilter : ∀ t : Member, (decide (t.method.accessType = .pub) &&
      !C.skipsConstructor t.method && t.method.generateClient C) = C.served t := by
    intro t
    simp only [served, Method.generateClient]
    by_cases hd : t.method.methodType = .destructor <;>
      cases t.method.isHidden <;> cases C.skipsConstructor t.method <;>
      cases t.method.inherited C <;> simp [hd]
  simp only [clientStubs, dispatched, hfilter]

lemma declared_eq (C : Class) : C.declared = C.memberList.filter C.served ++
    if C.noConstructor && !C.pureVirtual && !C.isCollective then [C.constructor] else [] := by
  have hfilter : ∀ t : Member, (decide (t.method.accessType = .pub) &&
      !C.skipsConstructor t.method && t.method.hasInvoke C) = C.served t :=
    fun t => (served_eq_hasInvoke C t).symm
  simp only [declared, Method.generateBrokerHeader, Method.generateBrokerHeaderPog, hfilter]
  cases C.isCollective <;> simp

lemma defined_eq (C : Class) : C.defined = C.memberList.filter C.served ++
    if C.noConstructor then [C.constructor] else [] := by
  have hfilter : ∀ t : Member, (C.served t && t.method.generateBroker C) = C.served t := by
    intro t
    cases h : C.served t with
    | false => rfl
    | true => rw [generateBroker_of_served h, Bool.and_self]
  simp only [defined, hfilter]

lemma mem_memberList (h : t ∈ C.memberList) : t.method ∈ C.info.methods :=
  method_mem_of_mem_addMembers h

/-- The constructor that is added is not one of the members. -/
lemma constructor_notMem_served (h : C.noConstructor = true) :
    C.constructor ∉ C.memberList.filter C.served := by
  intro hmem
  have hm := mem_memberList (List.mem_filter.mp hmem).1
  simp only [noConstructor, Bool.not_eq_true', List.any_eq_false, decide_eq_true_eq] at h
  exact h _ hm rfl

/-- The functions that are called are all declared exactly if no constructor is missing from
the declarations. -/
lemma dispatched_eq_declared_iff (C : Class) : (∀ t, t ∈ C.dispatched ↔ t ∈ C.declared) ↔
    (C.noConstructor = true → C.pureVirtual = false → C.isCollective = false) := by
  rw [declared_eq, dispatched]
  constructor
  · intro h hno hpure
    have := (h C.constructor).mp (by simp [hno, hpure])
    rcases List.mem_append.mp this with hmem | hmem
    · exact absurd hmem (constructor_notMem_served hno)
    · by_contra hcol
      simp [hcol] at hmem
  · intro h t
    cases hno : C.noConstructor <;> cases hpure : C.pureVirtual <;> simp_all

/-- The functions that are called are those that are defined exactly if no abstract class is
without a constructor. -/
lemma dispatched_eq_defined_iff (C : Class) : (∀ t, t ∈ C.dispatched ↔ t ∈ C.defined) ↔
    (C.noConstructor = true → C.pureVirtual = false) := by
  rw [defined_eq, dispatched]
  constructor
  · intro h hno
    have := (h C.constructor).mpr (by simp [hno])
    rcases List.mem_append.mp this with hmem | hmem
    · exact absurd hmem (constructor_notMem_served hno)
    · by_contra hpure
      simp [hno, hpure] at hmem
  · intro h t
    cases hno : C.noConstructor <;> simp_all

end Class

/-! ### The names in the text -/

lemma Class.invokeHead_name (C : Class) :
    C.invokeHead.name = "Invoke" ↔ C.isCollective = false := by
  unfold Class.invokeHead
  cases C.isCollective <;> decide

lemma Class.invokeHead_buffer (C : Class) :
    "__brokerbuf" = C.invokeHead.buffer ↔ C.isCollective = false := by
  unfold Class.invokeHead
  cases C.isCollective <;> decide

lemma Class.invokeHead_connection (C : Class) :
    "peer" = C.invokeHead.connection ↔ C.isCollective = false := by
  unfold Class.invokeHead
  cases C.isCollective <;> decide

/-- What has to be true of a class for its generators to agree. -/
structure Class.Sound (C : Class) : Prop where
  /-- A constructor is declared, if the class is abstract or a group. -/
  constructors : C.noConstructor = true → C.pureVirtual = false ∧ C.isCollective = false
  /-- Groups have no bases and are no bases. -/
  groups : ∀ b ∈ C.baseClass.toList, C.isCollective = false ∧ b.2.isCollective = false

lemma Class.base_call_iff (C : Class) (b : AccessType × Class) :
    ("Invoke" = b.2.invokeHead.name ∧ "__brokerbuf" = C.invokeHead.buffer ∧
      "peer" = C.invokeHead.connection) ↔ C.isCollective = false ∧ b.2.isCollective = false := by
  rw [eq_comm, b.2.invokeHead_name, C.invokeHead_buffer, C.invokeHead_connection]
  tauto

/-- The text of a broker agrees with its declarations exactly if the class is sound. -/
lemma Class.sound_iff (C : Class) : C.Sound ↔ C.generateBroker.WellScoped ∧
    (∀ t, t ∈ C.dispatched ↔ t ∈ C.declared) ∧ ∀ t, t ∈ C.dispatched ↔ t ∈ C.defined := by
  constructor
  · rintro ⟨hcons, hgroups⟩
    have hdec := C.dispatched_eq_declared_iff.mpr fun hno _ => (hcons hno).2
    have hdef := C.dispatched_eq_defined_iff.mpr fun hno => (hcons hno).1
    refine ⟨⟨?_, ?_, ?_, fun t ht => (hdec t).mp ((hdef t).mpr ht)⟩, hdec, hdef⟩
    · intro c hc
      rcases List.mem_append.mp hc with hc | hc
      · obtain ⟨t, ht, rfl⟩ := List.mem_map.mp hc
        exact ⟨(hdec t).mp (List.mem_append_left _ ht), rfl, rfl⟩
      · split_ifs at hc with hno
        · obtain rfl := List.mem_singleton.mp hc
          simp only [Bool.and_eq_true, Bool.not_eq_true'] at hno
          have hcol := (hcons hno.1).2
          exact ⟨(hdec _).mp (by simp [Class.dispatched, hno]), C.invokeHead_buffer.mpr hcol,
            C.invokeHead_connection.mpr hcol⟩
        · simp at hc
    · intro c hc
      obtain ⟨b, hb, rfl⟩ := List.mem_map.mp hc
      exact (C.base_call_iff b).mpr (hgroups b hb)
    · intro r hr
      cases hnil : C.baseClass.toList.isEmpty with
      | true =>
        obtain rfl : _ = r := by simpa [Class.generateBroker, hnil] using hr
        exact ⟨rfl, rfl⟩
      | false => simp [Class.generateBroker, hnil] at hr
  · rintro ⟨hscoped, hdec, hdef⟩
    refine ⟨fun hno => ?_, fun b hb => ?_⟩
    · have hpure := C.dispatched_eq_defined_iff.mp hdef hno
      exact ⟨hpure, C.dispatched_eq_declared_iff.mp hdec hno hpure⟩
    · exact (C.base_call_iff b).mp (hscoped.bases _ (List.mem_map_of_mem hb))

/-! ### Which calls arrive -/

mutual

/-- A call arrives at a class with its number, at a member with its number. -/
lemma Class.invoke_eq_some : ∀ (C : Class) {u i : ℕ} {r : Class × Member},
    C.invoke u i = some r → r.1 ∈ C.ancestry ∧ u = r.1.uid ∧ r.2 ∈ r.1.dispatched ∧ r.2.id = i
  | .mk info bs, u, i, r, h => by
    rw [Class.invoke] at h
    split_ifs at h with hu
    · obtain ⟨t, ht, rfl⟩ := Option.map_eq_some_iff.mp h
      have hid := List.find?_some ht
      exact ⟨Class.mem_ancestry_self _, hu, List.mem_of_find?_eq_some ht, by simpa using hid⟩
    · obtain ⟨hr, hrest⟩ := bs.invoke_eq_some h
      rw [Class.ancestry]
      exact ⟨List.mem_cons_of_mem _ hr, hrest⟩

lemma BaseClasses.invoke_eq_some : ∀ (bs : BaseClasses) {u i : ℕ} {r : Class × Member},
    bs.invoke u i = some r → r.1 ∈ bs.ancestry ∧ u = r.1.uid ∧ r.2 ∈ r.1.dispatched ∧ r.2.id = i
  | .nil, _, _, _, h => by simp [BaseClasses.invoke] at h
  | .cons _ b rest, u, i, r, h => by
    rw [BaseClasses.invoke, Option.or_eq_some_iff] at h
    rw [BaseClasses.ancestry]
    rcases h with h | ⟨-, h⟩
    · obtain ⟨hr, hrest⟩ := b.invoke_eq_some h
      exact ⟨List.mem_append_left _ hr, hrest⟩
    · obtain ⟨hr, hrest⟩ := rest.invoke_eq_some h
      exact ⟨List.mem_append_right _ hr, hrest⟩

end

/-- No two methods of the classes have both numbers in common. -/
def DistinctCalls (cs : List Class) : Prop :=
  ∀ D ∈ cs, ∀ t ∈ D.dispatched, ∀ D' ∈ cs, ∀ t' ∈ D'.dispatched, D.uid = D'.uid → t.id = t'.id →
    D = D' ∧ t = t'

/-- A class does not take the calls for one of its bases. -/
def Class.LeavesBases (C : Class) : Prop :=
  ∀ D ∈ C.baseClass.ancestry, D.uid = C.uid → D.dispatched = []

lemma DistinctCalls.mono {cs cs' : List Class} (h : DistinctCalls cs) (hsub : cs' ⊆ cs) :
    DistinctCalls cs' :=
  fun D hD t ht D' hD' t' ht' => h D (hsub hD) t ht D' (hsub hD') t' ht'

/-- What answers to the numbers of a member is the member. -/
lemma DistinctCalls.eq_of_invoke {cs : List Class} (h : DistinctCalls cs) {D E : Class}
    {t : Member} {r : Class × Member} (hE : E.ancestry ⊆ cs) (hD : D ∈ cs)
    (ht : t ∈ D.dispatched) (hr : E.invoke D.uid t.id = some r) : r = (D, t) := by
  obtain ⟨hmem, huid, ht', hid⟩ := E.invoke_eq_some hr
  obtain ⟨h1, h2⟩ := h r.1 (hE hmem) r.2 ht' D hD t ht huid.symm hid
  exact Prod.ext h1 h2

/-- The case that is found for the number of a member is its own. -/
lemma DistinctCalls.find_dispatched {cs : List Class} (h : DistinctCalls cs) {D : Class}
    {t : Member} (hD : D ∈ cs) (ht : t ∈ D.dispatched) :
    (D.dispatched.find? fun s => decide (s.id = t.id)) = some t := by
  cases hf : D.dispatched.find? fun s => decide (s.id = t.id) with
  | none => exact absurd (List.find?_eq_none.mp hf t ht) (by simp)
  | some s =>
    have hid : s.id = t.id := by simpa using List.find?_some hf
    rw [(h D hD s (List.mem_of_find?_eq_some hf) D hD t ht rfl hid).2]

mutual

/-- A call of any method of the class or of its bases arrives. -/
lemma Class.invoke_of_distinct : ∀ (C : Class), DistinctCalls C.ancestry →
    (∀ E ∈ C.ancestry, E.LeavesBases) → ∀ {D : Class} {t : Member}, D ∈ C.ancestry →
    t ∈ D.dispatched → C.invoke D.uid t.id = some (D, t)
  | .mk info bs, hdist, hleave, D, t, hD, ht => by
    have hsub : bs.ancestry ⊆ (Class.mk info bs).ancestry := by
      rw [Class.ancestry]
      exact List.subset_cons_self _ _
    rw [Class.invoke]
    rcases (Class.mk info bs).mem_ancestry_iff.mp hD with rfl | hbase
    · rw [if_pos rfl, hdist.find_dispatched hD ht]
      rfl
    · -- a base with the number of the class has no methods
      have hne : D.uid ≠ (Class.mk info bs).uid := by
        intro huid
        have hnil := hleave _ (Class.mem_ancestry_self _) D hbase huid
        simp [hnil] at ht
      rw [if_neg hne]
      exact bs.invoke_of_distinct (hdist.mono hsub) (fun E hE => hleave E (hsub hE)) hbase ht

lemma BaseClasses.invoke_of_distinct : ∀ (bs : BaseClasses), DistinctCalls bs.ancestry →
    (∀ E ∈ bs.ancestry, E.LeavesBases) → ∀ {D : Class} {t : Member}, D ∈ bs.ancestry →
    t ∈ D.dispatched → bs.invoke D.uid t.id = some (D, t)
  | .nil, _, _, _, _, hD, _ => by simp [BaseClasses.ancestry] at hD
  | .cons _ b rest, hdist, hleave, D, t, hD, ht => by
    rw [BaseClasses.ancestry] at hdist hleave
    rw [BaseClasses.invoke]
    have hDmem : D ∈ b.ancestry ++ rest.ancestry := by rwa [BaseClasses.ancestry] at hD
    cases hb : b.invoke D.uid t.id with
    | some r =>
      rw [hdist.eq_of_invoke (List.subset_append_left _ _) hDmem ht hb]
      rfl
    | none =>
      rcases List.mem_append.mp hDmem with hD | hD
      · have := b.invoke_of_distinct (hdist.mono (List.subset_append_left _ _))
          (fun E hE => hleave E (List.mem_append_left _ hE)) hD ht
        simp [hb] at this
      · exact rest.invoke_of_distinct (hdist.mono (List.subset_append_right _ _))
          (fun E hE => hleave E (List.mem_append_right _ hE)) hD ht

end

/-- Every call arrives exactly if the numbers tell the methods apart and no class takes the calls
for its bases. -/
lemma Class.reached_iff (C : Class) :
    (∀ E ∈ C.ancestry, ∀ D ∈ E.ancestry, ∀ t ∈ D.dispatched, E.invoke D.uid t.id = some (D, t)) ↔
      DistinctCalls C.ancestry ∧ ∀ E ∈ C.ancestry, E.LeavesBases := by
  constructor
  · intro h
    have hdist : DistinctCalls C.ancestry := by
      intro D hD t ht D' hD' t' ht' huid hid
      have hCC := C.mem_ancestry_self
      have hcall := h C hCC D hD t ht
      rw [huid, hid, h C hCC D' hD' t' ht'] at hcall
      simpa using hcall.symm
    refine ⟨hdist, fun E hE D hD huid => ?_⟩
    by_contra hne
    obtain ⟨t, ht⟩ := List.exists_mem_of_ne_nil _ hne
    have hDE := E.mem_ancestry_iff.mpr (.inr hD)
    have hcall := h E hE D hDE t ht
    -- the call is one of the class itself, which is not its own base
    obtain ⟨info, bs⟩ := E
    rw [Class.invoke, if_pos huid] at hcall
    obtain ⟨s, -, hs⟩ := Option.map_eq_some_iff.mp hcall
    obtain rfl : Class.mk info bs = D := congrArg Prod.fst hs
    exact Class.notMem_baseClass_ancestry _ hD
  · rintro ⟨hdist, hleave⟩ E hE D hD t ht
    have hsub : E.ancestry ⊆ C.ancestry := fun F hF => C.ancestry_trans hE hF
    exact E.invoke_of_distinct (hdist.mono hsub) (fun F hF => hleave F (hsub hF)) hD ht

/-- The dispatch of a class is complete and consistent exactly if it and all its bases are sound,
the numbers tell their methods apart, and no class takes the calls for its bases. -/
theorem Class.dispatchComplete_iff (C : Class) : C.DispatchComplete ↔
    (∀ E ∈ C.ancestry, E.Sound) ∧ DistinctCalls C.ancestry ∧ ∀ E ∈ C.ancestry, E.LeavesBases := by
  rw [← C.reached_iff]
  constructor
  · rintro ⟨hscoped, -, hdec, hdef, hreach⟩
    refine ⟨fun E hE => E.sound_iff.mpr ⟨hscoped E hE, hdec E hE, hdef E hE⟩, ?_⟩
    intro E hE D hD t ht
    rw [← D.clientStubs_eq_dispatched] at ht
    exact hreach E hE D hD t ht
  · rintro ⟨hsound, hreach⟩
    have hall := fun E hE => Class.sound_iff E |>.mp (hsound E hE)
    refine ⟨fun E hE => (hall E hE).1, fun E _ t => by rw [E.clientStubs_eq_dispatched],
      fun E hE => (hall E hE).2.1, fun E hE => (hall E hE).2.2, ?_⟩
    intro E hE D hD t ht
    rw [D.clientStubs_eq_dispatched] at ht
    exact hreach E hE D hD t ht

/-- `parclass Shape { public: classuid(1500); virtual void draw()=0; };` -/
def shapeClass : Class :=
  .mk { name := "Shape", classid := some 1500,
        methods := [{ name := "draw", isVirtual := true, isPureVirtual := true }] } .nil

/-- The broker of an abstract class without a constructor defines `Invoke_Shape_10`, which is
neither declared nor called. -/
theorem shape_not_dispatchComplete : shapeClass.constructor ∈ shapeClass.defined ∧
    shapeClass.constructor ∉ shapeClass.declared ∧
    shapeClass.constructor ∉ shapeClass.clientStubs ∧ ¬ shapeClass.DispatchComplete := by
  have hno : shapeClass.noConstructor = true := by decide
  have hpure : shapeClass.pureVirtual = true := by decide
  have hdef : shapeClass.constructor ∈ shapeClass.defined := by
    rw [Class.defined_eq, if_pos hno]
    exact List.mem_append_right _ (List.mem_singleton_self _)
  have hdec : shapeClass.constructor ∉ shapeClass.declared := by
    rw [Class.declared_eq]
    simpa [hpure] using Class.constructor_notMem_served hno
  have hclient : shapeClass.constructor ∉ shapeClass.clientStubs := by
    rw [Class.clientStubs_eq_dispatched, Class.dispatched]
    simpa [hpure] using Class.constructor_notMem_served hno
  refine ⟨hdef, hdec, hclient, fun h => ?_⟩
  have hself := shapeClass.mem_ancestry_self
  exact hclient ((h.client _ hself _).mpr ((h.defined _ hself _).mpr hdef))

end Parser
