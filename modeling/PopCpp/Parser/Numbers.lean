/-
# The numbers of the methods and the table of a broker

`AddMember` numbers the methods of a class from 11 on and keeps 10 for the default constructor;
smaller numbers belong to the calls that every broker serves itself.  `GenerateBroker` writes a
case for each method that is dispatched and, in the same loop, an entry of the table from which
the runtime finds methods by name.  It counts the entries in a `char` and puts the declaration of
the table together in a buffer of 10240 bytes.
-/
import PopCpp.Parser.Dispatch

namespace Parser

/-! ### The text of the table -/

/-- An entry of the table. -/
def infoEntry (t : Member) : String :=
  "\x7b" ++ toString t.id ++ ",(char*)\"" ++ t.method.name ++ "\"\x7d"

/-- `methodinfo`, with the entries that it lists, and `methodcount`. -/
structure MethodInfo where
  methodinfo : String
  entries : List (ℕ × String)
  methodcount : ℤ

/-- Collect the number and the name of a method.  The count is a `char`. -/
def MethodInfo.collect (m : MethodInfo) (t : Member) : MethodInfo where
  methodinfo := m.methodinfo ++ (if m.methodcount = 0 then "" else ",") ++ infoEntry t
  entries := m.entries ++ [(t.id, t.method.name)]
  methodcount := (m.methodcount + 1).bmod 256

namespace Class

variable (C : Class)

/-- What `GenerateBroker` has collected after both loops. -/
def methodInfo : MethodInfo := C.dispatched.foldl MethodInfo.collect ⟨"", [], 0⟩

/-- The default constructor of the broker, printed for a table with the given text. -/
def brokerConstructor (methodinfo : String) (methodcount : ℤ) : String :=
  let brokername := C.name ++ "_popcobject_Broker"
  if C.isCollective then
    "\n" ++ brokername ++ "::" ++ brokername ++
      "()\n\x7b\n  static popc_method_info _popc_minfo[" ++ toString methodcount ++ "] = \x7b " ++
      methodinfo ++ " \x7d;\n  add_method_info(CLASSUID_" ++ C.name ++ ", _popc_minfo, " ++
      toString methodcount ++ ");\n\x7d\n"
  else
    "\n" ++ brokername ++ "::" ++ brokername ++
      "()\n\x7b\nstatic pop_method_info _paroc_minfo[" ++ toString methodcount ++ "]=\x7b" ++
      methodinfo ++ "\x7d;\nAddMethodInfo(CLASSUID_" ++ C.name ++ ", _paroc_minfo, " ++
      toString methodcount ++ ");\n\x7d"

/-- The entries of the table and its stated size; `none` if its declaration runs over the end of
the buffer, with the terminating zero byte. -/
def methodTable : Option (List (ℕ × String) × ℤ) :=
  let m := C.methodInfo
  if (C.brokerConstructor m.methodinfo m.methodcount).utf8ByteSize < 10240 then
    some (m.entries, m.methodcount)
  else none

/-- The methods are told apart by their numbers, the numbers of the runtime are left free, 10 is
the default constructor, and the table lists the cases of `Invoke`. -/
structure MethodsNumbered : Prop where
  distinct : (C.memberList.map Member.id).Nodup
  free : ∀ t ∈ C.memberList, 10 ≤ t.id
  default : C.constructor.id = 10 ∧ ∀ t ∈ C.memberList, t.id = 10 ↔ t.method.isDefault = true
  table : ∃ table, C.methodTable = some table ∧
    table.1 = C.generateBroker.cases.map (fun c => (c.1.id, c.1.method.name)) ∧
    table.2 = table.1.length

end Class

/-! ### Numbers -/

lemma ten_mem_addMembers : ∀ {ms : List Method} {endid : ℕ}, 10 < endid →
    (10 ∈ (addMembers endid ms).map Member.id ↔ 0 < ms.countP Method.isDefault)
  | [], _, _ => by simp [addMembers]
  | m :: ms, endid, hend => by
    rw [addMembers, List.countP_cons]
    split_ifs with hm
    · simp
    · have hne : 10 ≠ endid := Nat.ne_of_lt hend
      rw [List.map_cons, List.mem_cons, ten_mem_addMembers (Nat.lt_succ_of_lt hend)]
      simp [hne]

/-- Two methods have the same number exactly if there are two default constructors. -/
lemma nodup_addMembers : ∀ {ms : List Method} {endid : ℕ}, 10 < endid →
    (((addMembers endid ms).map Member.id).Nodup ↔ ms.countP Method.isDefault ≤ 1)
  | [], _, _ => by simp [addMembers]
  | m :: ms, endid, hend => by
    rw [addMembers, List.countP_cons]
    split_ifs with hm
    · rw [List.map_cons, List.nodup_cons, ten_mem_addMembers hend, nodup_addMembers hend]
      omega
    · have hnew : endid ∉ (addMembers (endid + 1) ms).map Member.id := by
        intro h
        obtain ⟨t, ht, hid⟩ := List.mem_map.mp h
        rcases le_id_of_mem_addMembers ht with ⟨h10, -⟩ | hle <;> omega
      rw [List.map_cons, List.nodup_cons, nodup_addMembers (Nat.lt_succ_of_lt hend)]
      simp [hnew]

lemma id_eq_ten_iff {t : Member} : ∀ {ms : List Method} {endid : ℕ}, 10 < endid →
    t ∈ addMembers endid ms → (t.id = 10 ↔ t.method.isDefault = true)
  | [], _, _, ht => absurd ht List.not_mem_nil
  | m :: ms, endid, hend, ht => by
    rw [addMembers] at ht
    split_ifs at ht with hm
    · rcases List.mem_cons.mp ht with rfl | ht
      · simp [hm]
      · exact id_eq_ten_iff hend ht
    · rcases List.mem_cons.mp ht with rfl | ht
      · simp [hm, Nat.ne_of_gt hend]
      · exact id_eq_ten_iff (Nat.lt_succ_of_lt hend) ht

/-! ### The table -/

lemma foldl_collect_entries (ts : List Member) : ∀ m : MethodInfo,
    (ts.foldl MethodInfo.collect m).entries =
      m.entries ++ ts.map fun t => (t.id, t.method.name) := by
  induction ts with
  | nil => exact fun m => (List.append_nil _).symm
  | cons t ts ih =>
      intro m
      rw [List.foldl_cons, ih, MethodInfo.collect, List.map_cons, List.append_assoc,
        List.singleton_append]

lemma foldl_collect_methodcount (ts : List Member) : ∀ m : MethodInfo,
    m.methodcount.bmod 256 = m.methodcount →
    (ts.foldl MethodInfo.collect m).methodcount = (m.methodcount + ts.length).bmod 256 := by
  induction ts with
  | nil => exact fun m hm => by simp [hm]
  | cons t ts ih =>
      intro m _
      have hone : (m.collect t).methodcount = (m.methodcount + 1).bmod 256 := rfl
      have hkept : (m.collect t).methodcount.bmod 256 = (m.collect t).methodcount := by
        rw [hone, Int.bmod_bmod]
      have hlength : ((t :: ts).length : ℤ) = 1 + (ts.length : ℤ) := by
        rw [List.length_cons]
        omega
      rw [List.foldl_cons, ih _ hkept, hone, Int.bmod_add_bmod, hlength, Int.add_assoc]

lemma intercalate_cons (sep : String) (l : List String) : ∀ s : String,
    sep.intercalate (s :: l) = s ++ String.join (l.map fun t => sep ++ t) := by
  induction l with
  | nil => exact fun s => by simp
  | cons t l ih =>
      intro s
      rw [String.intercalate_cons_cons, ih, List.map_cons, String.join_cons, String.append_assoc,
        String.append_assoc]

/-- As long as the count has not wrapped there is a comma before every entry but the first. -/
lemma foldl_collect_methodinfo (ts : List Member) : ∀ m : MethodInfo, 0 < m.methodcount →
    m.methodcount + ts.length < 128 → (ts.foldl MethodInfo.collect m).methodinfo =
      m.methodinfo ++ String.join (ts.map fun t => "," ++ infoEntry t) := by
  induction ts with
  | nil => exact fun m _ _ => by simp
  | cons t ts ih =>
      intro m hpos hlt
      rw [List.length_cons] at hlt
      push_cast at hlt
      have hcount : (m.methodcount + 1).bmod 256 = m.methodcount + 1 :=
        Int.bmod_eq_of_le (by omega) (by omega)
      rw [List.foldl_cons, ih]
      · simp [MethodInfo.collect, Int.ne_of_gt hpos, String.append_assoc]
      · simp only [MethodInfo.collect, hcount]
        omega
      · simp only [MethodInfo.collect, hcount]
        omega

namespace Class

variable {C : Class}

lemma methodInfo_entries : C.methodInfo.entries =
    C.generateBroker.cases.map (fun c => (c.1.id, c.1.method.name)) := by
  rw [methodInfo, foldl_collect_entries, generateBroker, dispatched]
  simp only [List.nil_append, List.map_append, List.map_map]
  congr 1
  split <;> rfl

lemma methodInfo_methodcount : C.methodInfo.methodcount = (C.dispatched.length : ℤ).bmod 256 := by
  rw [methodInfo, foldl_collect_methodcount _ _ rfl, zero_add]

lemma methodInfo_methodinfo (h : C.dispatched.length < 128) :
    C.methodInfo.methodinfo = ",".intercalate (C.dispatched.map infoEntry) := by
  rw [methodInfo]
  cases hts : C.dispatched with
  | nil => rfl
  | cons t ts =>
      rw [hts, List.length_cons] at h
      have hone : (MethodInfo.collect ⟨"", [], 0⟩ t).methodcount = 1 := rfl
      rw [List.foldl_cons, foldl_collect_methodinfo ts _ (by omega) (by omega), List.map_cons,
        intercalate_cons, List.map_map]
      simp [MethodInfo.collect, Function.comp_def]

/-- The text of the broker's constructor with all entries in its table. -/
def tableText (C : Class) : String :=
  C.brokerConstructor (",".intercalate (C.dispatched.map infoEntry)) C.dispatched.length

lemma methodTable_eq (h : C.dispatched.length < 128) : C.methodTable =
    if C.tableText.utf8ByteSize < 10240 then
      some (C.methodInfo.entries, (C.dispatched.length : ℤ))
    else none := by
  have hcount : C.methodInfo.methodcount = C.dispatched.length := by
    rw [methodInfo_methodcount]
    exact Int.bmod_eq_of_le (by omega) (by omega)
  rw [methodTable, methodInfo_methodinfo h, hcount, tableText]

lemma length_entries : C.methodInfo.entries.length = C.dispatched.length := by
  rw [methodInfo, foldl_collect_entries, List.length_append, List.length_map, List.length_nil,
    Nat.zero_add]

/-- From 128 methods on the `char` is not their number. -/
lemma MethodsNumbered.length_lt (h : C.MethodsNumbered) : C.dispatched.length < 128 := by
  obtain ⟨table, htable, -, hsize⟩ := h.table
  have hcount : table.1 = C.methodInfo.entries ∧ table.2 = C.methodInfo.methodcount := by
    rw [methodTable] at htable
    split at htable
    · rw [← Option.some.inj htable]
      exact ⟨rfl, rfl⟩
    · cases htable
  rw [hcount.1, hcount.2, methodInfo_methodcount, length_entries] at hsize
  have hlt : (C.dispatched.length : ℤ).bmod 256 < 128 := Int.bmod_lt (by decide)
  omega

/-- **When the numbers and the table of a class are right.**  One default constructor at most is
declared, fewer than 128 methods are dispatched, and the text of the table fits its buffer. -/
theorem methodsNumbered_iff (C : Class) : C.MethodsNumbered ↔
    C.info.methods.countP Method.isDefault ≤ 1 ∧ C.dispatched.length < 128 ∧
      C.tableText.utf8ByteSize < 10240 := by
  constructor
  · intro h
    have hlt := h.length_lt
    obtain ⟨table, htable, -, -⟩ := h.table
    refine ⟨(nodup_addMembers (by decide)).mp h.distinct, hlt, ?_⟩
    rw [methodTable_eq hlt] at htable
    by_contra hlong
    rw [if_neg hlong] at htable
    cases htable
  · rintro ⟨hone, hlt, hfits⟩
    refine ⟨(nodup_addMembers (by decide)).mpr hone, fun t ht => ten_le_id ht,
      ⟨rfl, fun t ht => id_eq_ten_iff (by decide) ht⟩, _,
      (methodTable_eq hlt).trans (if_pos hfits), methodInfo_entries, ?_⟩
    rw [length_entries]

/-- A class with a constructor and 127 methods. -/
def longClass : Class :=
  .mk { name := "Grid"
        methods := { methodType := .constructor, name := "Grid" } ::
          (List.range 127).map fun i => { name := "row" ++ toString i } } .nil

/-- The table of 128 methods states the size -128. -/
theorem longClass_miscounted : longClass.dispatched.length = 128 ∧
    longClass.methodInfo.methodcount = -128 ∧ ¬ longClass.MethodsNumbered := by
  have hlength : longClass.dispatched.length = 128 := by decide +kernel
  refine ⟨hlength, ?_, fun h => ?_⟩
  · rw [methodInfo_methodcount, hlength]
    rfl
  · have hlt := h.length_lt
    omega

end Class

end Parser
