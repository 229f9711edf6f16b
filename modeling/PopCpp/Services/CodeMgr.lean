/-
# The code registry

`CodeMgr` keeps for each object the platforms it can run on, as patterns, with a code file for
each.  An entry is looked for by its name when it is written, and by a match when it is read.  So
the answer to a query is decided by the whole history: the pattern is the first one registered that
matches, and the code file is the last one registered for that pattern (`queryCode_run`).
-/
import PopCpp.Lib.Upsert
import PopCpp.Utils.MatchWildcard

namespace PopCpp.CodeMgr

open Buffer Utils Upsert

/-! ### `CodeMgr` -/

/-- `CODE_MAX_STRING_SIZE` -/
def codeMaxStringSize : ℕ := 1024

/-- `codedata` -/
structure CodeData where
  platform : Str
  codefile : Str
deriving DecidableEq

/-- `codedb` -/
structure CodeDb where
  objname : Str
  platform : List CodeData
deriving DecidableEq

/-- The second half of `RegisterCode`: the entry of the platform is changed, or added. -/
def setPlatform (platform codefile : Str) (element : CodeDb) : CodeDb :=
  { element with
    platform := upsert CodeData.platform platform (fun d => { d with codefile := codefile })
      ⟨platform, cut codefile⟩ element.platform }

/-- `RegisterCode`: the element of the object is changed, or added. -/
def registerCode (info : List CodeDb) (objname platform codefile : Str) :
    Except String (List CodeDb) :=
  if codeMaxStringSize ≤ objname.length ∨ codeMaxStringSize ≤ platform.length ∨
      codeMaxStringSize ≤ codefile.length then
    .error "Could not register code"
  else
    .ok (upsert CodeDb.objname objname (setPlatform platform codefile)
      (setPlatform platform codefile ⟨cut objname, []⟩) info)

/-- `QueryCode`: what it returns, and the code file. -/
def queryCode (info : List CodeDb) (objname platform : Str) : ℤ × Str :=
  match info.find? fun element => objname = element.objname with
  | none => (0, [])
  | some element =>
      match element.platform.find? fun d => matchWildcard platform d.platform with
      | none => (0, [])
      | some d => (1, d.codefile)

/-- A string that has come in a message. -/
abbrev Text := {s : Str // 0 ∉ s}

/-- A call of `RegisterCode`. -/
structure Registration where
  objname : Text
  platform : Text
  codefile : Text
deriving DecidableEq

/-- A call: if it throws, the table is as it was. -/
def register (info : List CodeDb) (c : Registration) : List CodeDb :=
  match registerCode info c.objname c.platform c.codefile with
  | .ok info => info
  | .error _ => info

/-- The table after these calls. -/
def run (calls : List Registration) : List CodeDb := calls.foldl register []

/-! ### The history -/

namespace Registration

/-- All strings are below the limit. -/
def Short (c : Registration) : Prop :=
  c.objname.1.length < codeMaxStringSize ∧ c.platform.1.length < codeMaxStringSize ∧
    c.codefile.1.length < codeMaxStringSize

instance (c : Registration) : Decidable c.Short := inferInstanceAs (Decidable (_ ∧ _))

end Registration

/-- The calls that are not refused. -/
def accepted (calls : List Registration) : List Registration := calls.filter fun c => c.Short

/-- The calls for an object. -/
def callsFor (objname : Str) (calls : List Registration) : List Registration :=
  calls.filter fun c => c.objname.1 = objname

/-- The first of the calls with a pattern that matches the platform. -/
def winner (platform : Str) (calls : List Registration) : Option Registration :=
  calls.find? fun c => matchWildcard platform c.platform

/-- The code file of the last of the calls with this pattern. -/
def latest (calls : List Registration) (pattern : Str) : Str :=
  match calls.reverse.find? fun c => c.platform.1 = pattern with
  | some c => c.codefile
  | none => []

/-! ### The table -/

/-- What a call that is not refused does. -/
def store (info : List CodeDb) (c : Registration) : List CodeDb :=
  upsert CodeDb.objname c.objname.1 (setPlatform c.platform c.codefile)
    (setPlatform c.platform c.codefile ⟨c.objname, []⟩) info

/-- The element of an object after the calls for it. -/
def element (objname : Str) (calls : List Registration) : CodeDb :=
  calls.foldl (fun e c => setPlatform c.platform c.codefile e) ⟨objname, []⟩

section

variable {info : List CodeDb} {calls : List Registration} {c : Registration} {objname : Str}

lemma register_of_short (hc : c.Short) : register info c = store info c := by
  obtain ⟨h1, h2, h3⟩ := hc
  rw [register, registerCode, if_neg (by omega), cut_eq_self_iff.mpr c.objname.2]
  rfl

lemma registerCode_of_not_short (hc : ¬c.Short) :
    registerCode info c.objname c.platform c.codefile = .error "Could not register code" := by
  rw [Registration.Short] at hc
  exact if_pos (by omega)

lemma register_of_not_short (hc : ¬c.Short) : register info c = info := by
  rw [register, registerCode_of_not_short hc]

/-- The calls that are refused do not matter. -/
lemma run_eq (calls : List Registration) : run calls = (accepted calls).foldl store [] := by
  have h : ∀ info, calls.foldl register info = (accepted calls).foldl store info := by
    induction calls with
    | nil => exact fun _ => rfl
    | cons c calls ih =>
        intro info
        rw [List.foldl_cons, ih, accepted, accepted]
        by_cases hc : c.Short
        · rw [List.filter_cons_of_pos (by simpa using hc), register_of_short hc]
          rfl
        · rw [List.filter_cons_of_neg (by simpa using hc), register_of_not_short hc]
  exact h []

@[simp] lemma objname_setPlatform (platform codefile : Str) (e : CodeDb) :
    (setPlatform platform codefile e).objname = e.objname := rfl

@[simp] lemma objname_element : (element objname calls).objname = objname := by
  induction calls using List.reverseRecOn with
  | nil => rfl
  | append_singleton calls c ih => rw [element, List.foldl_concat]; exact ih

/-- The keys are different, in both levels of the table. -/
structure Keyed (info : List CodeDb) : Prop where
  objnames : (info.map CodeDb.objname).Nodup
  platforms : ∀ e ∈ info, (e.platform.map CodeData.platform).Nodup

lemma nodup_setPlatform {platform codefile : Str} {e : CodeDb}
    (h : (e.platform.map CodeData.platform).Nodup) :
    ((setPlatform platform codefile e).platform.map CodeData.platform).Nodup :=
  nodup_map_key_upsert (fun _ => rfl) rfl h

lemma Keyed.store (h : Keyed info) (c : Registration) : Keyed (store info c) where
  objnames := nodup_map_key_upsert (fun _ => rfl) rfl h.objnames
  platforms := forall_mem_upsert (fun _ => nodup_setPlatform) (nodup_setPlatform List.nodup_nil)
    h.platforms

lemma callsFor_concat : callsFor objname (calls ++ [c]) =
    if c.objname.1 = objname then callsFor objname calls ++ [c] else callsFor objname calls := by
  rw [callsFor, List.filter_append, List.filter_singleton]
  by_cases h : c.objname.1 = objname
  · simp [h, callsFor]
  · simp [h, callsFor]

lemma element_concat : element objname (calls ++ [c]) =
    setPlatform c.platform c.codefile (element objname calls) := List.foldl_concat ..

lemma find?_store_step (q : Str → Bool) : ((store info c).find? fun e => q e.objname) =
    ((info.find? fun e => q e.objname).map fun e =>
        if c.objname.1 = e.objname then setPlatform c.platform c.codefile e else e).or
      (if q c.objname then some (setPlatform c.platform c.codefile ⟨c.objname, []⟩) else none) := by
  refine find?_upsert CodeDb.objname ?_ ?_ q
  · exact objname_setPlatform _ _
  · exact objname_setPlatform _ _ _

lemma find?_setPlatform (q : Str → Bool) (e : CodeDb) :
    ((setPlatform c.platform c.codefile e).platform.find? fun d => q d.platform) =
      ((e.platform.find? fun d => q d.platform).map fun d =>
          if c.platform.1 = d.platform then { d with codefile := c.codefile.1 } else d).or
        (if q c.platform then some ⟨c.platform, cut c.codefile⟩ else none) := by
  refine find?_upsert CodeData.platform ?_ ?_ q
  · exact fun _ => rfl
  · rfl

/-- The element of an object in the table. -/
lemma find?_store (calls : List Registration) (objname : Str) :
    ((calls.foldl store []).find? fun e => objname = e.objname) =
      if callsFor objname calls = [] then none
      else some (element objname (callsFor objname calls)) := by
  induction calls using List.reverseRecOn with
  | nil => rfl
  | append_singleton calls c ih =>
      rw [List.foldl_concat, find?_store_step fun n => objname = n, ih, callsFor_concat]
      by_cases hc : c.objname.1 = objname
      · -- one more call for the object
        rw [if_pos hc, if_neg (List.append_ne_nil_of_right_ne_nil _ (by simp)), element_concat]
        by_cases hnil : callsFor objname calls = []
        · simp [hnil, hc, element]
        · simp [hnil, hc]
      · rw [if_neg hc]
        by_cases hnil : callsFor objname calls = []
        · simp [hnil, Ne.symm hc]
        · simp [hnil, hc]

lemma latest_concat {pattern : Str} : latest (calls ++ [c]) pattern =
    if c.platform.1 = pattern then c.codefile.1 else latest calls pattern := by
  rw [latest, List.reverse_concat, List.find?_cons]
  by_cases h : c.platform.1 = pattern
  · simp [h]
  · simp [h, latest]

/-- The entry that a search by pattern finds. -/
lemma find?_element (q : Str → Bool) (objname : Str) (calls : List Registration) :
    ((element objname calls).platform.find? fun d => q d.platform) =
      (calls.find? fun c => q c.platform).map fun c =>
        ⟨c.platform, latest calls c.platform⟩ := by
  induction calls using List.reverseRecOn with
  | nil => rfl
  | append_singleton calls c ih =>
      rw [element_concat, find?_setPlatform, ih, List.find?_append]
      cases hfind : calls.find? fun c => q c.platform with
      | none =>
          cases hq : q c.platform with
          | true => simp [hq, latest_concat, cut_eq_self_iff.mpr c.codefile.2]
          | false => simp [hq]
      | some c₀ =>
          simp only [Option.map_some, Option.some_or, latest_concat]
          split_ifs <;> rfl

/-- **Queries**, after calls that were not refused. -/
lemma queryCode_store (calls : List Registration) (objname platform : Str) :
    queryCode (calls.foldl store []) objname platform =
      match winner platform (callsFor objname calls) with
      | some c => (1, latest (callsFor objname calls) c.platform)
      | none => (0, []) := by
  rw [queryCode, find?_store]
  by_cases hnil : callsFor objname calls = []
  · rw [if_pos hnil, hnil]
    rfl
  · rw [if_neg hnil]
    simp only [find?_element (matchWildcard platform), winner]
    cases (callsFor objname calls).find? fun c => matchWildcard platform c.platform <;> rfl

/-- What was registered has its place in the table. -/
lemma exists_mem_store (hc : c ∈ calls) : ∃ e ∈ calls.foldl store [],
    e.objname = c.objname ∧ c.platform.1 ∈ e.platform.map CodeData.platform := by
  have hmem : c ∈ callsFor c.objname calls := List.mem_filter.mpr ⟨hc, by simp⟩
  have hfind := find?_store calls c.objname
  rw [if_neg (List.ne_nil_of_mem hmem)] at hfind
  refine ⟨_, List.mem_of_find?_eq_some hfind, objname_element, ?_⟩
  have hplatform := find?_element (fun n => n = c.platform.1) c.objname (callsFor c.objname calls)
  have hsome : ((callsFor c.objname calls).find? fun c' =>
      decide (c'.platform.1 = c.platform.1)).isSome = true :=
    List.find?_isSome.mpr ⟨c, hmem, by simp⟩
  obtain ⟨c', hc'⟩ := Option.isSome_iff_exists.mp hsome
  rw [hc', Option.map_some] at hplatform
  have hkey := List.find?_some hplatform
  rw [decide_eq_true_iff] at hkey
  exact hkey ▸ List.mem_map_of_mem (List.mem_of_find?_eq_some hplatform)

lemma keyed_store (calls : List Registration) : Keyed (calls.foldl store []) := by
  induction calls using List.reverseRecOn with
  | nil => exact ⟨List.nodup_nil, by simp⟩
  | append_singleton calls c ih =>
      rw [List.foldl_concat]
      exact ih.store c

lemma winner_eq_none_iff {platform : Str} : winner platform (callsFor objname calls) = none ↔
    ∀ c ∈ calls, c.objname.1 = objname → matchWildcard platform c.platform = false := by
  rw [winner, List.find?_eq_none]
  simp [callsFor]

end

/-- **The code registry.**  After any calls the names of the objects are different, and the patterns
of each object; every call that was not refused has its place; a query is answered with the code
file that was registered last for the first pattern that matches, and with nothing exactly if none
matches; and a call that is refused changes nothing. -/
theorem queryCode_run (calls : List Registration) :
    (Keyed (run calls) ∧ ∀ c ∈ accepted calls, ∃ e ∈ run calls,
      e.objname = c.objname ∧ c.platform.1 ∈ e.platform.map CodeData.platform) ∧
    (∀ objname platform : Str, queryCode (run calls) objname platform =
      match winner platform (callsFor objname (accepted calls)) with
      | some c => (1, latest (callsFor objname (accepted calls)) c.platform)
      | none => (0, [])) ∧
    (∀ objname platform : Str, queryCode (run calls) objname platform = (0, []) ↔
      ∀ c ∈ accepted calls, c.objname.1 = objname → matchWildcard platform c.platform = false) ∧
    ∀ c : Registration, ¬c.Short →
      registerCode (run calls) c.objname c.platform c.codefile = .error "Could not register code" ∧
        run (calls ++ [c]) = run calls := by
  have hquery : ∀ objname platform : Str, queryCode (run calls) objname platform =
      match winner platform (callsFor objname (accepted calls)) with
      | some c => (1, latest (callsFor objname (accepted calls)) c.platform)
      | none => (0, []) := fun objname platform => by
    rw [run_eq]
    exact queryCode_store (accepted calls) objname platform
  refine ⟨?_, hquery, fun objname platform => ?_, fun c hc => ?_⟩
  · rw [run_eq]
    exact ⟨keyed_store _, fun c hc => exists_mem_store hc⟩
  · rw [hquery, ← winner_eq_none_iff]
    cases winner platform (callsFor objname (accepted calls)) with
    | none => exact iff_of_true rfl rfl
    | some c => exact iff_of_false (by simp) (by simp)
  · refine ⟨registerCode_of_not_short hc, ?_⟩
    rw [run, List.foldl_concat]
    exact register_of_not_short hc

end PopCpp.CodeMgr
