/-
# Calls through abstract bases

A method is called through a stub of the class or, if the class has none for it, of one of its
public bases.  A virtual method that a base has declared gets no stub of its own: the call goes
to the broker's function of the base, which calls the method of the object.  The broker of the
object finds that function by asking the brokers of its bases, one after the other.

The main result says for which methods of a class this leads to a function with a body.
-/
import PopCpp.Parser.Dispatch
import PopCpp.Parser.Stubs

namespace Parser

/-- The methods have the same name and the same parameters, so that one hides or overrides the
other. -/
def Method.sameSignature (m other : Method) : Bool :=
  decide (m.methodType = .normal) && decide (m.name = other.name) &&
    Method.sameParams m.params other.params

/-! ### The stub that a call finds -/

mutual

/-- The stubs that a call of the method can mean, each with its class: those of the class itself
or, if it has none, of its public bases. -/
def Class.stubsFor : Class → Method → List (Class × Member)
  | .mk info bs, m =>
    let own := (Class.mk info bs).clientStubs.filter fun t => t.method.sameSignature m
    if own.isEmpty then bs.stubsFor m else own.map (.mk info bs, ·)

/-- The stubs of the public ones among the bases. -/
def BaseClasses.stubsFor : BaseClasses → Method → List (Class × Member)
  | .nil, _ => []
  | .cons type b rest, m => (if type = .pub then b.stubsFor m else []) ++ rest.stubsFor m

end

/-- The function of the broker serves the call of a stub: it takes in what the stub has packed,
calls the method of the object, and sends the response that the stub waits for. -/
def Class.serves (D : Class) (t : Member) : Prop :=
  ∀ c, ∃ b, D.generateBody t c = some b ∧ b.call.constructs = false ∧
    b.call.name = t.method.name ∧ b.call.arguments.length = t.method.params.length ∧
    ∀ c' client, D.generateClient t c' = .ok client → Mirrors client (some b)

/-- Calls of the method through the stubs of the class are answered: there is a stub, and the
numbers that it sends lead to a function of the broker that serves the call. -/
structure Class.Answers (C : Class) (m : Method) : Prop where
  stub : C.stubsFor m ≠ []
  served : ∀ r ∈ C.stubsFor m, C.invoke r.1.uid r.2.id = some r ∧ r.1.serves r.2

/-! ### The brokers that are asked -/

mutual

/-- The classes with the number `u` whose brokers are asked, in their order; the bases of a class
with this number are not asked. -/
def Class.asked : Class → ℕ → List Class
  | .mk info bs, u => if u = (Class.mk info bs).uid then [.mk info bs] else bs.asked u

/-- The same for the brokers of the bases. -/
def BaseClasses.asked : BaseClasses → ℕ → List Class
  | .nil, _ => []
  | .cons _ b rest, u => b.asked u ++ rest.asked u

end

/-- The class is asked for the call, before any other with a method of this number. -/
def Class.asksFirst (C D : Class) (t : Member) : Prop :=
  ∃ pre post, C.asked D.uid = pre ++ D :: post ∧ ∀ E ∈ pre, ∀ s ∈ E.dispatched, s.id ≠ t.id

/-- The case of a broker for a method number. -/
def Class.case (i : ℕ) (D : Class) : Option (Class × Member) :=
  (D.dispatched.find? fun t => decide (t.id = i)).map (D, ·)

mutual

/-- `Invoke` tries the cases of the classes that are asked. -/
lemma Class.invoke_eq_findSome : ∀ (C : Class) (u i : ℕ),
    C.invoke u i = (C.asked u).findSome? (Class.case i)
  | .mk info bs, u, i => by
    rw [Class.invoke, Class.asked]
    split_ifs
    · rw [List.findSome?_singleton]
      rfl
    · exact bs.invoke_eq_findSome u i

lemma BaseClasses.invoke_eq_findSome : ∀ (bs : BaseClasses) (u i : ℕ),
    bs.invoke u i = (bs.asked u).findSome? (Class.case i)
  | .nil, _, _ => rfl
  | .cons _ b rest, u, i => by
    rw [BaseClasses.invoke, BaseClasses.asked, List.findSome?_append, b.invoke_eq_findSome,
      rest.invoke_eq_findSome]

end

mutual

/-- A stub that a call finds is one of the class or of a public base. -/
lemma Class.mem_stubsFor : ∀ (C : Class) {m : Method} {r : Class × Member}, r ∈ C.stubsFor m →
    r.1 ∈ C.publicAncestry ∧ r.2 ∈ r.1.clientStubs ∧ r.2.method.sameSignature m = true
  | .mk info bs, m, r, hr => by
    rw [Class.stubsFor] at hr
    rw [Class.publicAncestry]
    split_ifs at hr
    · obtain ⟨h1, h2⟩ := bs.mem_stubsFor hr
      exact ⟨List.mem_cons_of_mem _ h1, h2⟩
    · obtain ⟨t, ht, rfl⟩ := List.mem_map.mp hr
      exact ⟨List.mem_cons_self, List.mem_filter.mp ht⟩

lemma BaseClasses.mem_stubsFor : ∀ (bs : BaseClasses) {m : Method} {r : Class × Member},
    r ∈ bs.stubsFor m →
    r.1 ∈ bs.publicAncestry ∧ r.2 ∈ r.1.clientStubs ∧ r.2.method.sameSignature m = true
  | .nil, m, r, hr => by simp [BaseClasses.stubsFor] at hr
  | .cons type b rest, m, r, hr => by
    rw [BaseClasses.stubsFor] at hr
    rw [BaseClasses.publicAncestry]
    rcases List.mem_append.mp hr with hr | hr
    · split_ifs at hr ⊢ with hpub
      · obtain ⟨h1, h2⟩ := b.mem_stubsFor hr
        exact ⟨List.mem_append_left _ h1, h2⟩
      · simp at hr
    · obtain ⟨h1, h2⟩ := rest.mem_stubsFor hr
      exact ⟨List.mem_append_right _ h1, h2⟩

end

mutual

/-- A call finds a stub if there is one in the class or in a public base. -/
lemma Class.stubsFor_ne_nil : ∀ (C : Class) {m : Method} {D : Class} {t : Member},
    D ∈ C.publicAncestry → t ∈ D.clientStubs → t.method.sameSignature m = true →
    C.stubsFor m ≠ []
  | .mk info bs, m, D, t, hD, ht, hm => by
    rw [Class.stubsFor]
    split_ifs with hown
    · rw [Class.publicAncestry] at hD
      rcases List.mem_cons.mp hD with rfl | hD
      · have : t ∈ (Class.mk info bs).clientStubs.filter fun t => t.method.sameSignature m :=
          List.mem_filter.mpr ⟨ht, hm⟩
        simp only [List.isEmpty_iff] at hown
        rw [hown] at this
        simp at this
      · exact bs.stubsFor_ne_nil hD ht hm
    · simpa using hown

lemma BaseClasses.stubsFor_ne_nil : ∀ (bs : BaseClasses) {m : Method} {D : Class} {t : Member},
    D ∈ bs.publicAncestry → t ∈ D.clientStubs → t.method.sameSignature m = true →
    bs.stubsFor m ≠ []
  | .nil, m, D, t, hD, ht, hm => by simp [BaseClasses.publicAncestry] at hD
  | .cons type b rest, m, D, t, hD, ht, hm => by
    rw [BaseClasses.publicAncestry] at hD
    rw [BaseClasses.stubsFor]
    intro hnil
    obtain ⟨h1, h2⟩ := List.append_eq_nil_iff.mp hnil
    rcases List.mem_append.mp hD with hD | hD
    · split_ifs at hD h1 with hpub
      · exact b.stubsFor_ne_nil hD ht hm h1
      · simp at hD
    · exact rest.stubsFor_ne_nil hD ht hm h2

end

namespace Class

variable {C D : Class} {m : Method} {t : Member}

lemma stubsFor_ne_nil_iff (C : Class) (m : Method) : C.stubsFor m ≠ [] ↔
    ∃ D ∈ C.publicAncestry, ∃ t ∈ D.clientStubs, t.method.sameSignature m = true := by
  constructor
  · intro h
    obtain ⟨r, hr⟩ := List.exists_mem_of_ne_nil _ h
    obtain ⟨h1, h2, h3⟩ := C.mem_stubsFor hr
    exact ⟨r.1, h1, r.2, h2, h3⟩
  · rintro ⟨D, hD, t, ht, hm⟩
    exact C.stubsFor_ne_nil hD ht hm

lemma normal_of_sameSignature (h : t.method.sameSignature m = true) :
    t.method.methodType = .normal := by
  simp only [Method.sameSignature, Bool.and_eq_true, decide_eq_true_eq] at h
  exact h.1.1

/-- The case of a normal method is found by its number. -/
lemma case_of_normal (ht : t ∈ D.dispatched) (hn : t.method.methodType = .normal) :
    D.case t.id = some (D, t) := by
  have hmember : ∀ s ∈ D.dispatched, s.id ≠ 10 → s ∈ D.memberList := by
    intro s hs hne
    rcases List.mem_append.mp hs with hs | hs
    · exact (List.mem_filter.mp hs).1
    · split_ifs at hs
      · obtain rfl := List.mem_singleton.mp hs
        exact absurd rfl hne
      · simp at hs
  have hne : t.id ≠ 10 := by
    rcases List.mem_append.mp ht with hs | hs
    · rcases le_id_of_mem_addMembers (List.mem_filter.mp hs).1 with ⟨-, hdef⟩ | h
      · simp [Method.isDefault, hn] at hdef
      · omega
    · split_ifs at hs
      · obtain rfl := List.mem_singleton.mp hs
        simp [Class.constructor] at hn
      · simp at hs
  unfold case
  cases hf : D.dispatched.find? fun s => decide (s.id = t.id) with
  | none => exact absurd (List.find?_eq_none.mp hf t ht) (by simp)
  | some s =>
    have hid : s.id = t.id := by simpa using List.find?_some hf
    have hs := List.mem_of_find?_eq_some hf
    rw [eq_of_mem_addMembers (by omega) (hmember s hs (by rw [hid]; exact hne))
      (hmember t ht hne) hid (by rw [hid]; exact hne)]
    rfl

/-- A call arrives at a normal method exactly if its class is asked first. -/
lemma invoke_eq_iff_asksFirst (C : Class) (ht : t ∈ D.dispatched)
    (hn : t.method.methodType = .normal) :
    C.invoke D.uid t.id = some (D, t) ↔ C.asksFirst D t := by
  have hnone : ∀ E : Class, E.case t.id = none ↔ ∀ s ∈ E.dispatched, s.id ≠ t.id := by
    intro E
    simp [case]
  rw [C.invoke_eq_findSome, List.findSome?_eq_some_iff]
  constructor
  · rintro ⟨pre, E, post, heq, hE, hpre⟩
    obtain ⟨s, -, hs⟩ := Option.map_eq_some_iff.mp hE
    obtain rfl : E = D := congrArg Prod.fst hs
    exact ⟨pre, post, heq, fun F hF => (hnone F).mp (hpre F hF)⟩
  · rintro ⟨pre, post, heq, hpre⟩
    exact ⟨pre, D, post, heq, case_of_normal ht hn, fun F hF => (hnone F).mpr (hpre F hF)⟩

/-- A function serves the calls of its stub exactly if it has a body. -/
lemma serves_iff (D : Class) (hn : t.method.methodType = .normal) :
    D.serves t ↔ D.fillsBodies = true := by
  constructor
  · intro h
    obtain ⟨b, hb, -⟩ := h 0
    by_contra hfill
    simp [generateBody, hfill] at hb
  · intro hfill c
    have hbody := fun c' client h => (mirrors_iff D t c' c client h).mpr (.inl hfill)
    unfold generateBody at hbody ⊢
    rw [if_pos hfill] at hbody ⊢
    exact ⟨_, rfl, by simp [Method.brokerCall, hn], rfl, by simp [Method.brokerCall], hbody⟩

/-- Calls of a method are answered exactly if a stub for it exists and, for every stub that a call
finds, its class fills the bodies of its functions and is asked before any other class with its
number that has a method with this number. -/
theorem answers_iff (C : Class) (m : Method) : C.Answers m ↔
    (∃ D ∈ C.publicAncestry, ∃ t ∈ D.clientStubs, t.method.sameSignature m = true) ∧
      ∀ r ∈ C.stubsFor m, r.1.fillsBodies = true ∧ C.asksFirst r.1 r.2 := by
  rw [← C.stubsFor_ne_nil_iff]
  have hr : ∀ r ∈ C.stubsFor m, (C.invoke r.1.uid r.2.id = some r ∧ r.1.serves r.2) ↔
      r.1.fillsBodies = true ∧ C.asksFirst r.1 r.2 := by
    intro r hr
    obtain ⟨-, hmem, hsig⟩ := C.mem_stubsFor hr
    rw [r.1.clientStubs_eq_dispatched] at hmem
    have hn := normal_of_sameSignature hsig
    rw [r.1.serves_iff hn, and_comm]
    exact and_congr_right fun _ => invoke_eq_iff_asksFirst C hmem hn
  constructor
  · rintro ⟨hstub, hserved⟩
    exact ⟨hstub, fun r h => (hr r h).mp (hserved r h)⟩
  · rintro ⟨hstub, hcond⟩
    exact ⟨hstub, fun r h => (hr r h).mpr (hcond r h)⟩

end Class

/-- `parclass Child: public Mother { public: classuid(1201); Child(); virtual void pv(); };` -/
def childClass : Class :=
  .mk { name := "Child", classid := some 1201
        methods :=
          [{ methodType := .constructor, name := "Child" }, { name := "pv", isVirtual := true }] }
    (.cons .pub motherClass .nil)

/-- `Child` implements everything, and the calls of `normal` and of `pv` arrive at functions of
`Mother` that are empty. -/
theorem child_not_answers : childClass.pureVirtual = false ∧
    childClass.stubsFor normalMember.method = [(motherClass, normalMember)] ∧
    childClass.invoke motherClass.uid normalMember.id = some (motherClass, normalMember) ∧
    motherClass.generateBody normalMember 0 = none ∧
    ¬ childClass.Answers normalMember.method := by
  have hstubs : childClass.stubsFor normalMember.method = [(motherClass, normalMember)] := rfl
  refine ⟨by decide, hstubs, rfl, rfl, fun h => ?_⟩
  have hfill := ((childClass.answers_iff _).mp h).2 (motherClass, normalMember)
    (by rw [hstubs]; exact List.mem_singleton_self _)
  exact absurd hfill.1 (by decide)

end Parser
