/-
# The type graph of the parser

The types of a program refer to each other by pointers, so that a structure can contain itself.
Here a type is the number of a node, and `CanMarshal` runs over the graph with the marks that it
sets on the way: a type that is found marked is refused.  Its answer is 2 for a type that needs a
size, and it is the callers who have to see to one.

`Marshal` and `DeMarshal` recurse alike: `calls` lists the calls that one of them makes, each
with the size that is handed down.
-/
import PopCpp.Parser.Types
import Mathlib.Data.Finset.Basic
import Mathlib.Logic.Relation

namespace Parser

/-- `GetCardinalSize`. -/
def Cardinal.getCardinalSize (c : Cardinal) : String :=
  String.intercalate "*" (c.dims.map fun d => "(" ++ d.text ++ ")")

/-- `TypeTemplate::stlType`. -/
def stlType : List String :=
  ["std::vector", "vector", "std::list", "list", "std::deque", "deque", "std::map", "map"]

/-- A `DataType` with the types that it refers to. -/
inductive TypeNode
  /-- A `DataType` proper. -/
  | basic (name : String)
  /-- `TypeArray`. -/
  | array (cardinal : Cardinal) (typebase : ℕ)
  /-- `TypePtr`, with its own size. -/
  | ptr (nptr : ℕ) (size : Option String) (typebase : ℕ)
  /-- `TypeEqual`. -/
  | equal (type : ℕ)
  /-- `TypeClassStruct`. -/
  | classStruct (isClass : Bool) (name : Option String) (attributes : List (ℕ × String))
    (bases : List ℕ)
  /-- `TypeTemplate`. -/
  | template (name : String) (elements : List ℕ)
  /-- `Class`. -/
  | parClass

/-- The types of a program. -/
abbrev TypeGraph := ℕ → TypeNode

namespace TypeGraph

variable (g : TypeGraph)

/-- `IsStandardType`. -/
def isStandardType (t : ℕ) : Bool :=
  match g t with
  | .basic name => stdType.contains name
  | _ => false

/-! ### `CanMarshal` -/

/-- The types that are marked. -/
abbrev Marks := Finset ℕ

/-- An answer of `CanMarshal`, and the marks that it leaves; `none` while it has not returned. -/
abbrev Asks := Marks → Option (ℕ × Marks)

/-- Mark a type while it is asked; a type that is marked already is refused. -/
def underMark (t : ℕ) (ask : Asks) : Asks := fun marks =>
  if t ∈ marks then some (0, marks.erase t)
  else (ask (insert t marks)).map fun r => (r.1, r.2.erase t)

/-- Ask one type after the other, up to the first whose answer is a `stop`: was there one? -/
def askUntil (stop : ℕ → Bool) (ask : ℕ → Asks) : List ℕ → Marks → Option (Bool × Marks)
  | [], marks => some (false, marks)
  | t :: ts, marks => do
    let r ← ask t marks
    if stop r.1 then some (true, r.2) else askUntil stop ask ts r.2

/-- `CanMarshal`: 0 if the type cannot be sent, 1 if it can, 2 if it needs a size.  The calls are
nested at most `fuel` deep. -/
def canMarshal : ℕ → ℕ → Asks
  | 0, _ => fun _ => none
  | fuel + 1, t =>
    match g t with
    | .basic name => fun marks => some (if stdType.contains name then 1 else 0, marks)
    | .array _ b => underMark t (canMarshal fuel b)
    | .ptr nptr _ b => underMark t fun marks =>
      if nptr = 1 then
        (canMarshal fuel b marks).map fun r => (if r.1 ≠ 0 then 2 else 0, r.2)
      else some (0, marks)
    | .equal b => underMark t (canMarshal fuel b)
    | .classStruct false _ attributes _ => underMark t fun marks =>
      (askUntil (fun r => r ≠ 1) (canMarshal fuel) (attributes.map Prod.fst) marks).map
        fun r => (if r.1 then 0 else 1, r.2)
    | .classStruct true name _ bases => underMark t fun marks =>
      if name = none then some (0, marks)
      else if name = some "pop_base" then some (1, marks)
      else (askUntil (fun r => r ≠ 0) (canMarshal fuel) bases marks).map
        fun r => (if r.1 then 1 else 0, r.2)
    | .template name elements => fun marks =>
      if elements.isEmpty || !stlType.contains name then some (0, marks)
      else (askUntil (fun r => r = 0) (canMarshal fuel) elements marks).map
        fun r => (if r.1 then 0 else 1, r.2)
    | .parClass => fun marks => some (1, marks)

/-- `CanMarshal` answers `r`, with whatever marks it is called. -/
def Answers (t r : ℕ) : Prop := ∃ fuel marks marks', g.canMarshal fuel t marks = some (r, marks')

/-! ### The recursion of `Marshal` and `DeMarshal` -/

/-- A call of `Marshal` or `DeMarshal`: the type, and the argument `sizehelper`. -/
abbrev Call := ℕ × Option String

/-- The elements of a container that are marshalled one by one.  A vector of a standard type is
moved in one block; a map has two types of elements, the other containers the first one only. -/
def itemTypes (name : String) (elements : List ℕ) : List ℕ :=
  if (name = "vector" ∨ name = "std::vector") ∧
      (elements.take 1).all g.isStandardType = true then []
  else if name = "map" ∨ name = "std::map" then elements.take 2
  else elements.take 1

/-- The calls that `Marshal` makes, and `DeMarshal` likewise. -/
def calls (c : Call) : List Call :=
  match g c.1 with
  | .basic _ => []
  | .array cardinal b =>
    let tmpsize := c.2.getD cardinal.getCardinalSize
    if g.isStandardType b = true ∨ tmpsize = "1" then [(b, some tmpsize)] else [(b, none)]
  | .ptr _ size b =>
    let tmpsize := c.2.or size
    if g.isStandardType b = true ∨ tmpsize = none ∨ tmpsize = some "1" then [(b, tmpsize)]
    else [(b, none)]
  | .equal b => [(b, c.2)]
  | .classStruct isClass _ attributes _ =>
    if isClass then [] else attributes.map fun a => (a.1, none)
  | .template name elements => (g.itemTypes name elements).map fun e => (e, none)
  | .parClass => []

/-- The types of the elements over which the emitted code loops: those of an array, behind a
pointer with a size, and in a container. -/
def loopTypes (c : Call) : List ℕ :=
  match g c.1 with
  | .array cardinal b =>
    if g.isStandardType b = true ∨ c.2.getD cardinal.getCardinalSize = "1" then [] else [b]
  | .ptr _ size b =>
    if g.isStandardType b = true ∨ c.2.or size = none ∨ c.2.or size = some "1" then [] else [b]
  | .template name elements => g.itemTypes name elements
  | _ => []

/-- The second call is made, directly or not, on behalf of the first. -/
def Reaches (c d : Call) : Prop := Relation.ReflTransGen (fun c d => d ∈ g.calls c) c d

/-- A call for a pointer has a size: one that is handed down, or that of the pointer itself. -/
def Sized (c : Call) : Prop :=
  ∀ nptr size b, g c.1 = .ptr nptr size b → (c.2.or size).isSome = true

/-- A pointer without a size of its own, perhaps behind typedefs. -/
inductive BarePointer : ℕ → Prop
  | ptr {t nptr b : ℕ} (h : g t = .ptr nptr none b) : BarePointer t
  | equal {t b : ℕ} (h : g t = .equal b) (hb : BarePointer b) : BarePointer t

end TypeGraph

/-! ### Parameters -/

/-- What `Param` knows about the way a parameter is moved. -/
structure DeclaredParam where
  name : String
  mytype : ℕ
  isVoid : Bool := false
  paramSize : Option String := none
  marshalProc : Option String := none

namespace DeclaredParam

variable (p : DeclaredParam)

/-- `Param::CanMarshal`. -/
def canMarshal (g : TypeGraph) (fuel : ℕ) (marks : TypeGraph.Marks) : Option Bool :=
  (g.canMarshal fuel p.mytype marks).map fun r =>
    p.marshalProc.isSome || decide (r.1 = 1) || (decide (r.1 = 2) && p.paramSize.isSome)

/-- What `DeclareVariable` says of a parameter of `nptr` pointer levels: a pointer to a single
object is passed by the address of the object. -/
def reformat (nptr : ℕ) : Bool := !p.isVoid && decide (nptr = 1) && p.paramSize.isNone

/-- The size with which `Param::Marshal` (or `Param::UnMarshal`) calls the type. -/
def sizeinfo (packing reformat : Bool) : Option String :=
  if p.paramSize.isSome && !reformat then
    some ((if packing then "__pop_size1_" else "__pop_size2_") ++ p.name)
  else none

/-- The call with which a parameter is marshalled. -/
def call (packing reformat : Bool) : TypeGraph.Call := (p.mytype, p.sizeinfo packing reformat)

/-- A call that is made when the parameter is packed or unpacked, by name or by address. -/
def Makes (g : TypeGraph) (c : TypeGraph.Call) : Prop :=
  ∃ (packing address : Bool) (nptr : ℕ),
    g.Reaches (p.call packing (address && p.reformat nptr)) c

/-- Every pointer that is reached when the parameter is packed or unpacked has a size. -/
def AllSized (g : TypeGraph) : Prop := ∀ c, p.Makes g c → g.Sized c

end DeclaredParam

namespace TypeGraph

variable {g : TypeGraph}

/-! ### What an answer says about the types below -/

lemma underMark_eq_some {t r : ℕ} {ask : Asks} {marks marks' : Marks}
    (h : underMark t ask marks = some (r, marks')) :
    r = 0 ∨ ∃ marks₁ marks₂, ask marks₁ = some (r, marks₂) := by
  rw [underMark] at h
  split at h
  · exact Or.inl (congrArg Prod.fst (Option.some.inj h)).symm
  · obtain ⟨⟨r', marks₂⟩, hask, heq⟩ := Option.map_eq_some_iff.mp h
    obtain rfl : r' = r := congrArg Prod.fst heq
    exact Or.inr ⟨_, marks₂, hask⟩

/-- If no answer has been a `stop`, every type has given another one. -/
lemma exists_of_askUntil {stop : ℕ → Bool} {ask : ℕ → Asks} :
    ∀ {ts : List ℕ} {marks marks' : Marks}, askUntil stop ask ts marks = some (false, marks') →
      ∀ t ∈ ts, ∃ r marks₁ marks₂, ask t marks₁ = some (r, marks₂) ∧ stop r = false
  | [], _, _, _, _, ht => absurd ht List.not_mem_nil
  | u :: ts, marks, marks', h, t, ht => by
      obtain ⟨⟨r, marks₁⟩, hask, hrest⟩ := Option.bind_eq_some_iff.mp h
      dsimp only at hrest
      cases hstop : stop r with
      | true => simp [hstop] at hrest
      | false =>
          rw [if_neg (by simp [hstop])] at hrest
          rcases List.mem_cons.mp ht with rfl | ht
          · exact ⟨r, marks, marks₁, hask, hstop⟩
          · exact exists_of_askUntil hrest t ht

lemma Answers.array {t r b : ℕ} {cardinal : Cardinal} (h : g.Answers t r)
    (ht : g t = .array cardinal b) (hr : r ≠ 0) : g.Answers b r := by
  obtain ⟨_ | fuel, marks, marks', h⟩ := h
  · exact absurd h (by simp [canMarshal])
  · simp only [canMarshal, ht] at h
    obtain ⟨marks₁, marks₂, hb⟩ := (underMark_eq_some h).resolve_left hr
    exact ⟨fuel, marks₁, marks₂, hb⟩

lemma Answers.equal {t r b : ℕ} (h : g.Answers t r) (ht : g t = .equal b) (hr : r ≠ 0) :
    g.Answers b r := by
  obtain ⟨_ | fuel, marks, marks', h⟩ := h
  · exact absurd h (by simp [canMarshal])
  · simp only [canMarshal, ht] at h
    obtain ⟨marks₁, marks₂, hb⟩ := (underMark_eq_some h).resolve_left hr
    exact ⟨fuel, marks₁, marks₂, hb⟩

/-- A pointer is refused or needs a size, and then its base is not refused. -/
lemma Answers.ptr {t r nptr b : ℕ} {size : Option String} (h : g.Answers t r)
    (ht : g t = .ptr nptr size b) (hr : r ≠ 0) : r = 2 ∧ ∃ r' ≠ 0, g.Answers b r' := by
  obtain ⟨_ | fuel, marks, marks', h⟩ := h
  · exact absurd h (by simp [canMarshal])
  · simp only [canMarshal, ht] at h
    obtain ⟨marks₁, marks₂, hb⟩ := (underMark_eq_some h).resolve_left hr
    split at hb
    · obtain ⟨⟨r', marks₃⟩, hb, heq⟩ := Option.map_eq_some_iff.mp hb
      have hr' : (if r' ≠ 0 then 2 else 0) = r := congrArg Prod.fst heq
      split at hr'
      · next hne => exact ⟨hr'.symm, r', hne, fuel, marks₁, marks₃, hb⟩
      · exact absurd hr'.symm hr
    · exact absurd (congrArg Prod.fst (Option.some.inj hb)).symm hr

/-- All attributes of a structure that is not refused answer 1. -/
lemma Answers.struct {t r : ℕ} {name : Option String} {attributes : List (ℕ × String)}
    {bases : List ℕ} (h : g.Answers t r) (ht : g t = .classStruct false name attributes bases)
    (hr : r ≠ 0) : ∀ a ∈ attributes, g.Answers a.1 1 := by
  obtain ⟨_ | fuel, marks, marks', h⟩ := h
  · exact absurd h (by simp [canMarshal])
  · simp only [canMarshal, ht] at h
    obtain ⟨marks₁, marks₂, hb⟩ := (underMark_eq_some h).resolve_left hr
    obtain ⟨⟨refused, marks₃⟩, hb, heq⟩ := Option.map_eq_some_iff.mp hb
    cases refused with
    | true => exact absurd (congrArg Prod.fst heq).symm hr
    | false =>
        intro a ha
        obtain ⟨r', m₁, m₂, ha, hstop⟩ := exists_of_askUntil hb a.1 (List.mem_map_of_mem ha)
        obtain rfl : r' = 1 := by simpa using hstop
        exact ⟨fuel, m₁, m₂, ha⟩

/-- No element of a container that is not refused is refused. -/
lemma Answers.template {t r : ℕ} {name : String} {elements : List ℕ} (h : g.Answers t r)
    (ht : g t = .template name elements) (hr : r ≠ 0) :
    ∀ e ∈ elements, ∃ r' ≠ 0, g.Answers e r' := by
  obtain ⟨_ | fuel, marks, marks', h⟩ := h
  · exact absurd h (by simp [canMarshal])
  · simp only [canMarshal, ht] at h
    split at h
    · exact absurd (congrArg Prod.fst (Option.some.inj h)).symm hr
    · obtain ⟨⟨refused, marks₃⟩, hb, heq⟩ := Option.map_eq_some_iff.mp h
      cases refused with
      | true => exact absurd (congrArg Prod.fst heq).symm hr
      | false =>
          intro e he
          obtain ⟨r', m₁, m₂, he, hstop⟩ := exists_of_askUntil hb e he
          exact ⟨r', by simpa using hstop, fuel, m₁, m₂, he⟩

lemma mem_of_mem_itemTypes {name : String} {elements : List ℕ} {e : ℕ}
    (he : e ∈ g.itemTypes name elements) : e ∈ elements := by
  rw [itemTypes] at he
  split_ifs at he
  · exact absurd he List.not_mem_nil
  · exact List.mem_of_mem_take he
  · exact List.mem_of_mem_take he

/-- A pointer, also behind typedefs, never answers 1. -/
lemma BarePointer.not_answers_one {t : ℕ} (h : g.BarePointer t) : ¬ g.Answers t 1 := by
  induction h with
  | ptr ht => exact fun h => absurd (h.ptr ht Nat.one_ne_zero).1 (by decide)
  | equal ht _ ih => exact fun h => ih (h.equal ht Nat.one_ne_zero)

/-! ### Which calls have a size -/

/-- What holds of every call that is made for an accepted parameter: the type is not refused, and
a pointer is not left without a size. -/
structure Handed (g : TypeGraph) (c : Call) : Prop where
  accepted : ∃ r ≠ 0, g.Answers c.1 r
  handed : c.2 = none → ¬ g.BarePointer c.1

lemma Handed.sized {c : Call} (h : g.Handed c) : g.Sized c := by
  intro nptr size b ht
  cases hsize : c.2 with
  | some n => rfl
  | none =>
      cases size with
      | some n => rfl
      | none => exact absurd (.ptr ht) (h.handed hsize)

lemma Handed.step {c d : Call} (h : g.Handed c)
    (hloop : ∀ e ∈ g.loopTypes c, ¬ g.BarePointer e) (hd : d ∈ g.calls c) : g.Handed d := by
  obtain ⟨r, hr, hans⟩ := h.accepted
  cases ht : g c.1 with
  | basic name => simp [calls, ht] at hd
  | parClass => simp [calls, ht] at hd
  | array cardinal b =>
      have hb : ∃ r ≠ 0, g.Answers b r := ⟨r, hr, hans.array ht hr⟩
      simp only [calls, ht] at hd
      simp only [loopTypes, ht] at hloop
      split at hd
      · obtain rfl := List.mem_singleton.mp hd
        exact ⟨hb, fun hnone => absurd hnone (Option.some_ne_none _)⟩
      · next hpassed =>
          obtain rfl := List.mem_singleton.mp hd
          rw [if_neg hpassed] at hloop
          exact ⟨hb, fun _ => hloop b List.mem_cons_self⟩
  | ptr nptr size b =>
      obtain ⟨-, hb⟩ := hans.ptr ht hr
      have hsized : c.2.or size ≠ none := by
        rw [← Option.isSome_iff_ne_none]
        exact h.sized nptr size b ht
      simp only [calls, ht] at hd
      simp only [loopTypes, ht] at hloop
      split at hd
      · obtain rfl := List.mem_singleton.mp hd
        exact ⟨hb, fun hnone => absurd hnone hsized⟩
      · next hpassed =>
          obtain rfl := List.mem_singleton.mp hd
          rw [if_neg hpassed] at hloop
          exact ⟨hb, fun _ => hloop b List.mem_cons_self⟩
  | equal b =>
      simp only [calls, ht] at hd
      obtain rfl := List.mem_singleton.mp hd
      exact ⟨⟨r, hr, hans.equal ht hr⟩, fun hnone hb => h.handed hnone (.equal ht hb)⟩
  | classStruct isClass name attributes bases =>
      cases isClass with
      | true => simp [calls, ht] at hd
      | false =>
          -- No size is handed to an attribute, and none that needs one is accepted.
          simp only [calls, ht] at hd
          obtain ⟨a, ha, rfl⟩ := List.mem_map.mp hd
          have hone := hans.struct ht hr a ha
          exact ⟨⟨1, Nat.one_ne_zero, hone⟩, fun _ hbare => hbare.not_answers_one hone⟩
  | template name elements =>
      simp only [calls, ht] at hd
      simp only [loopTypes, ht] at hloop
      obtain ⟨e, he, rfl⟩ := List.mem_map.mp hd
      exact ⟨hans.template ht hr e (mem_of_mem_itemTypes he), fun _ => hloop e he⟩

/-- A size is not handed down to what the emitted code loops over. -/
lemma mem_calls_of_mem_loopTypes {c : Call} {e : ℕ} (he : e ∈ g.loopTypes c) :
    (e, none) ∈ g.calls c := by
  rw [loopTypes] at he
  rw [calls]
  split at he
  · next ht =>
      simp only [ht]
      split at he
      · exact absurd he List.not_mem_nil
      · next hpassed =>
          rw [if_neg hpassed, List.mem_singleton.mp he]
          exact List.mem_cons_self
  · next ht =>
      simp only [ht]
      split at he
      · exact absurd he List.not_mem_nil
      · next hpassed =>
          rw [if_neg hpassed, List.mem_singleton.mp he]
          exact List.mem_cons_self
  · next ht =>
      simp only [ht]
      exact List.mem_map_of_mem he
  · exact absurd he List.not_mem_nil

/-- A pointer without a size of its own, to which no size is handed, is reached as such. -/
lemma BarePointer.exists_reaches {t : ℕ} (h : g.BarePointer t) :
    ∃ c, g.Reaches (t, none) c ∧ ¬ g.Sized c := by
  induction h with
  | @ptr t nptr b ht =>
      exact ⟨(t, none), .refl, fun h => Bool.false_ne_true (h nptr none b ht)⟩
  | @equal t b ht _ ih =>
      obtain ⟨c, hc, hunsized⟩ := ih
      have hcall : (b, none) ∈ g.calls (t, none) := by simp [calls, ht]
      exact ⟨c, .head hcall hc, hunsized⟩

/-! ### Graphs without cycles

Where no type contains itself the marks are never met, and `CanMarshal` is the recursion over the
tree of a type. -/

/-- The types to which a type refers. -/
def parts (g : TypeGraph) (t : ℕ) : List ℕ :=
  match g t with
  | .basic _ => []
  | .array _ b => [b]
  | .ptr _ _ b => [b]
  | .equal b => [b]
  | .classStruct _ _ attributes bases => attributes.map Prod.fst ++ bases
  | .template _ elements => elements
  | .parClass => []

mutual

/-- A node with what it refers to is the tree. -/
def Unfolds (g : TypeGraph) : ℕ → DataType → Prop
  | t, .basic name => g t = .basic name
  | t, .array c b => ∃ u, g t = .array c u ∧ g.Unfolds u b
  | t, .ptr n b => ∃ u, g t = .ptr n none u ∧ g.Unfolds u b
  | t, .equal _ b => ∃ u, g t = .equal u ∧ g.Unfolds u b
  | t, .struct name as => ∃ attributes bases, g t = .classStruct false name attributes bases ∧
      g.UnfoldsAll (attributes.map Prod.fst) as
  | t, .seqClass name bs => ∃ attributes bases,
      g t = .classStruct true (some name) attributes bases ∧ g.UnfoldsAll bases bs
  | t, .seq q k e => ∃ u, g t = .template (k.text q) [u] ∧ g.Unfolds u e
  | t, .map q k v => ∃ u w, g t = .template (if q then "std::map" else "map") [u, w] ∧
      g.Unfolds u k ∧ g.Unfolds w v
  | t, .parClass _ => g t = .parClass

/-- The nodes are the attributes (or the bases) of a tree. -/
def UnfoldsAll (g : TypeGraph) : List ℕ → Attributes → Prop
  | [], .nil => True
  | u :: us, .cons t _ rest => g.Unfolds u t ∧ g.UnfoldsAll us rest
  | _, _ => False

end

/-- Every type comes after those to which it refers. -/
def Ranked (g : TypeGraph) (rank : ℕ → ℕ) : Prop := ∀ t, ∀ u ∈ g.parts t, rank u < rank t

section

variable {g : TypeGraph} {rank : ℕ → ℕ}

lemma underMark_of_lt {t r : ℕ} {marks : Marks} {ask : Asks}
    (hmarks : ∀ u ∈ marks, rank t < rank u)
    (h : ask (insert t marks) = some (r, insert t marks)) :
    underMark t ask marks = some (r, marks) := by
  have ht : t ∉ marks := fun ht => lt_irrefl _ (hmarks t ht)
  rw [underMark, if_neg ht, h]
  simp [ht]

lemma Ranked.lt_insert (hrank : g.Ranked rank) {t u : ℕ} {marks : Marks}
    (hmarks : ∀ u ∈ marks, rank t < rank u)
    (hu : u ∈ g.parts t) : ∀ w ∈ insert t marks, rank u < rank w := by
  intro w hw
  rcases Finset.mem_insert.mp hw with rfl | hw
  · exact hrank w u hu
  · exact (hrank t u hu).trans (hmarks w hw)

mutual

/-- The marks are those of types that come later. -/
theorem Unfolds.canMarshal_eq (hrank : g.Ranked rank) (fuel : ℕ) {t : ℕ} {marks : Marks} :
    ∀ {T : DataType}, g.Unfolds t T → rank t < fuel → (∀ u ∈ marks, rank t < rank u) →
      g.canMarshal fuel t marks = some (T.canMarshal, marks)
  | .basic name, ht, hf, hm => by
      obtain ⟨fuel, rfl⟩ := Nat.exists_eq_add_one_of_ne_zero (Nat.ne_zero_of_lt hf)
      rw [Unfolds] at ht
      simp only [TypeGraph.canMarshal, ht, DataType.canMarshal]
  | .parClass _, ht, hf, hm => by
      obtain ⟨fuel, rfl⟩ := Nat.exists_eq_add_one_of_ne_zero (Nat.ne_zero_of_lt hf)
      rw [Unfolds] at ht
      simp only [TypeGraph.canMarshal, ht, DataType.canMarshal]
  | .array c b, ⟨u, ht, hb⟩, hf, hm => by
      obtain ⟨fuel, rfl⟩ := Nat.exists_eq_add_one_of_ne_zero (Nat.ne_zero_of_lt hf)
      have hu : u ∈ g.parts t := by simp [parts, ht]
      simp only [TypeGraph.canMarshal, ht, DataType.canMarshal]
      have hlt := hrank t u hu
      exact underMark_of_lt hm (hb.canMarshal_eq hrank fuel (by omega) (hrank.lt_insert hm hu))
  | .ptr n b, ⟨u, ht, hb⟩, hf, hm => by
      obtain ⟨fuel, rfl⟩ := Nat.exists_eq_add_one_of_ne_zero (Nat.ne_zero_of_lt hf)
      have hu : u ∈ g.parts t := by simp [parts, ht]
      have hlt := hrank t u hu
      have hask := hb.canMarshal_eq hrank fuel (by omega) (hrank.lt_insert hm hu)
      simp only [TypeGraph.canMarshal, ht, DataType.canMarshal]
      refine underMark_of_lt hm ?_
      by_cases hn : n = 1
      · simp [hn, hask]
      · simp [hn]
  | .equal _ b, ⟨u, ht, hb⟩, hf, hm => by
      obtain ⟨fuel, rfl⟩ := Nat.exists_eq_add_one_of_ne_zero (Nat.ne_zero_of_lt hf)
      have hu : u ∈ g.parts t := by simp [parts, ht]
      simp only [TypeGraph.canMarshal, ht, DataType.canMarshal]
      have hlt := hrank t u hu
      exact underMark_of_lt hm (hb.canMarshal_eq hrank fuel (by omega) (hrank.lt_insert hm hu))
  | .struct name as, ⟨attributes, bases, ht, has⟩, hf, hm => by
      obtain ⟨fuel, rfl⟩ := Nat.exists_eq_add_one_of_ne_zero (Nat.ne_zero_of_lt hf)
      have hparts : ∀ u ∈ attributes.map Prod.fst, u ∈ g.parts t := fun u hu => by
        simp only [parts, ht]
        exact List.mem_append_left _ hu
      have hask := (has.askUntil_eq hrank fuel (fun u hu => (hrank t u (hparts u hu)).trans_le
        (Nat.le_of_lt_succ hf)) fun u hu => hrank.lt_insert hm (hparts u hu)).1
      simp only [TypeGraph.canMarshal, ht, DataType.canMarshal]
      refine underMark_of_lt hm ?_
      rw [hask]
      cases as.allMarshal <;> rfl
  | .seqClass name bs, ⟨attributes, bases, ht, hbs⟩, hf, hm => by
      obtain ⟨fuel, rfl⟩ := Nat.exists_eq_add_one_of_ne_zero (Nat.ne_zero_of_lt hf)
      have hparts : ∀ u ∈ bases, u ∈ g.parts t := fun u hu => by
        simp only [parts, ht]
        exact List.mem_append_right _ hu
      have hask := (hbs.askUntil_eq hrank fuel (fun u hu => (hrank t u (hparts u hu)).trans_le
        (Nat.le_of_lt_succ hf)) fun u hu => hrank.lt_insert hm (hparts u hu)).2
      simp only [TypeGraph.canMarshal, ht, DataType.canMarshal]
      refine underMark_of_lt hm ?_
      by_cases hname : name = "pop_base"
      · simp [hname]
      · simp only [reduceCtorEq, if_false, Option.some.injEq, hname, hask, false_or]
        cases bs.someMarshal <;> rfl
  | .seq q k e, ⟨u, ht, he⟩, hf, hm => by
      obtain ⟨fuel, rfl⟩ := Nat.exists_eq_add_one_of_ne_zero (Nat.ne_zero_of_lt hf)
      have hlt := hrank t u (by simp [parts, ht])
      have hask := he.canMarshal_eq hrank fuel (by omega) fun w hw => hlt.trans (hm w hw)
      have hstl : stlType.contains (k.text q) = true := by cases k <;> cases q <;> rfl
      simp only [TypeGraph.canMarshal, ht, DataType.canMarshal, askUntil, hask, hstl]
      by_cases hzero : e.canMarshal = 0 <;> simp [hzero]
  | .map q k v, ⟨u, w, ht, hk, hv⟩, hf, hm => by
      obtain ⟨fuel, rfl⟩ := Nat.exists_eq_add_one_of_ne_zero (Nat.ne_zero_of_lt hf)
      have hlt := hrank t u (by simp [parts, ht])
      have hlt' := hrank t w (by simp [parts, ht])
      have hask := hk.canMarshal_eq hrank fuel (by omega) fun x hx => hlt.trans (hm x hx)
      have hask' := hv.canMarshal_eq hrank fuel (by omega) fun x hx => hlt'.trans (hm x hx)
      have hstl : stlType.contains (if q then "std::map" else "map") = true := by cases q <;> rfl
      simp only [TypeGraph.canMarshal, ht, DataType.canMarshal, askUntil, hask, hstl]
      by_cases hzero : k.canMarshal = 0 <;> by_cases hzero' : v.canMarshal = 0 <;>
        simp [hzero, hzero', hask']

/-- The loops over the attributes of a structure and the bases of a class. -/
theorem UnfoldsAll.askUntil_eq (hrank : g.Ranked rank) (fuel : ℕ) {marks : Marks} :
    ∀ {us : List ℕ} {as : Attributes}, g.UnfoldsAll us as → (∀ u ∈ us, rank u < fuel) →
      (∀ u ∈ us, ∀ w ∈ marks, rank u < rank w) →
      askUntil (fun r => r ≠ 1) (g.canMarshal fuel) us marks = some (!as.allMarshal, marks) ∧
        askUntil (fun r => r ≠ 0) (g.canMarshal fuel) us marks = some (as.someMarshal, marks)
  | [], .nil, h, hf, hm => ⟨rfl, rfl⟩
  | u :: us, .cons t _ rest, ⟨ht, hrest⟩, hf, hm => by
      have hask := ht.canMarshal_eq hrank fuel (hf u List.mem_cons_self) (hm u List.mem_cons_self)
      obtain ⟨hall, hsome⟩ := hrest.askUntil_eq hrank fuel
        (fun w hw => hf w (List.mem_cons_of_mem _ hw))
        fun w hw => hm w (List.mem_cons_of_mem _ hw)
      rw [askUntil, askUntil, hask, Attributes.allMarshal, Attributes.someMarshal]
      constructor
      · by_cases hone : t.canMarshal = 1
        · simpa [hone] using hall
        · simp [hone]
      · by_cases hzero : t.canMarshal = 0
        · simpa [hzero] using hsome
        · simp [hzero]

end

end

end TypeGraph

/-! ### Accepted parameters -/

namespace DeclaredParam

variable {g : TypeGraph} {p : DeclaredParam}

/-- An accepted parameter is called with a size if its type needs one. -/
lemma handed_call {fuel : ℕ} {marks : TypeGraph.Marks} (hproc : p.marshalProc = none)
    (h : p.canMarshal g fuel marks = some true) (packing address : Bool) (nptr : ℕ) :
    g.Handed (p.call packing (address && p.reformat nptr)) := by
  obtain ⟨⟨stat, marks'⟩, hans, hstat⟩ := Option.map_eq_some_iff.mp h
  have hans' : g.Answers p.mytype stat := ⟨fuel, marks, marks', hans⟩
  simp only [hproc, Option.isSome_none, Bool.false_or, Bool.or_eq_true, Bool.and_eq_true,
    decide_eq_true_eq] at hstat
  rcases hstat with rfl | ⟨rfl, hsize⟩
  · exact ⟨⟨1, Nat.one_ne_zero, hans'⟩, fun _ hbare => hbare.not_answers_one hans'⟩
  · refine ⟨⟨2, Nat.succ_ne_zero 1, hans'⟩, fun hnone => ?_⟩
    have hreformat : p.reformat nptr = false := by
      rw [Option.isSome_iff_exists] at hsize
      obtain ⟨n, hn⟩ := hsize
      simp [reformat, hn]
    simp [call, sizeinfo, hsize, hreformat] at hnone

/-- **When every pointer has a size.**  In the calls for a parameter that is accepted, every
pointer has a size exactly if the code never loops over pointers that have none of their own. -/
theorem marshal_sized_iff (g : TypeGraph) (p : DeclaredParam) (fuel : ℕ)
    (marks : TypeGraph.Marks) (hproc : p.marshalProc = none)
    (h : p.canMarshal g fuel marks = some true) :
    p.AllSized g ↔ ∀ c, p.Makes g c → ∀ e ∈ g.loopTypes c, ¬ g.BarePointer e := by
  constructor
  · rintro hsized c ⟨packing, address, nptr, hc⟩ e he hbare
    obtain ⟨d, hd, hunsized⟩ := hbare.exists_reaches
    have hreach := (hc.tail (TypeGraph.mem_calls_of_mem_loopTypes he)).trans hd
    exact hunsized (hsized d ⟨packing, address, nptr, hreach⟩)
  · rintro hloop c ⟨packing, address, nptr, hc⟩
    have hhanded : g.Handed c := by
      induction hc with
      | refl => exact handed_call hproc h packing address nptr
      | tail hc hd ih => exact ih.step (hloop _ ⟨packing, address, nptr, hc⟩) hd
    exact hhanded.sized

/-- `int`, `int *` and `std::list<int *>`. -/
def listGraph : TypeGraph
  | 0 => .basic "int"
  | 1 => .ptr 1 none 0
  | 2 => .template "std::list" [1]
  | _ => .basic "unknown"

/-- A parameter `[size=n] int *row` is packed with its size. -/
theorem marshal_sized_iff_row :
    (⟨"row", 1, false, some "n", none⟩ : DeclaredParam).AllSized listGraph := by
  refine (marshal_sized_iff listGraph ⟨"row", 1, false, some "n", none⟩ 2 ∅ rfl rfl).mpr ?_
  rintro c ⟨packing, address, nptr, hc⟩ e he -
  have hle : c.1 ≤ 1 := by
    clear he
    induction hc with
    | refl => exact le_rfl
    | @tail b c _ hstep ih =>
        obtain ⟨_ | _ | t, size⟩ := b
        · exact absurd hstep List.not_mem_nil
        · obtain rfl := List.mem_singleton.mp hstep
          exact Nat.zero_le 1
        · exact absurd ih (by simp)
  obtain ⟨_ | _ | t, size⟩ := c
  · exact absurd he List.not_mem_nil
  · exact absurd he List.not_mem_nil
  · exact absurd hle (by simp)

/-- A parameter `std::list<int *> rows` is accepted without a size, and the code for its elements
is emitted without one. -/
theorem list_of_pointers_unsized :
    (⟨"rows", 2, false, none, none⟩ : DeclaredParam).canMarshal listGraph 3 ∅ = some true ∧
      ¬ (⟨"rows", 2, false, none, none⟩ : DeclaredParam).AllSized listGraph := by
  refine ⟨rfl, fun h => ?_⟩
  have hmakes : (⟨"rows", 2, false, none, none⟩ : DeclaredParam).Makes listGraph (1, none) :=
    ⟨true, false, 0, .single List.mem_cons_self⟩
  exact Bool.false_ne_true (h _ hmakes 1 none 0 rfl)

end DeclaredParam

end Parser
