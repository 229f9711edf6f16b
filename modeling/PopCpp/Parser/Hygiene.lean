/-
# Which emitted variables are captured

An occurrence of a variable in the emitted text should refer, under the scoping rules of C++,
to the declaration that the generator means by it.  `Stmt.hygienic` checks this for every
occurrence of a statement; a declaration is in scope in its own initialiser, and one that
stands in no block of its own stays in scope to the end of the surrounding block.

`DataType.clean` is a condition on the type, the name of the parameter and the value of the
counter, and the main result is that it is exact: the emitted text of a type is hygienic if and
only if the type is clean.  The generators go wrong in three places.

* An array takes its names from the counter and advances it only after its elements are done:
  an array of structures that hold an array declares the same pointer twice, and the inner
  one is initialised from itself.
* A map is unpacked in a loop over a variable called `i`, which hides a parameter of that name.
* A map is packed with an iterator called `it__elem<c>`, which hides such a parameter.
-/
import Mathlib.Tactic.Ring
import PopCpp.Lib.Scope
import PopCpp.Parser.Generator

namespace Parser

open Scope

/-! ### Scoping of the emitted text -/

/-- The names that occur in an operand. -/
def LVal.names (l : LVal) : List Ident := l.vars.map Var.name

/-- Every variable of the operand refers to the declaration that is meant. -/
def LVal.resolved (Γ : List Var) (l : LVal) : Bool :=
  l.vars.all fun x => decide (Resolves Var.name Γ x)

/-- The same for the text of a size; the identifiers of a dimension are constants of the
program, declared outside of the emitted text. -/
def Size.resolved (Γ : List Var) : Size → Bool
  | .one => true
  | .var x => decide (Resolves Var.name Γ x)
  | .card c => c.idents.all fun s => decide (Free Var.name Γ (.user s.text))

namespace Stmt

/-- What is in scope behind a statement, in the block in which it stands. -/
def scope : Stmt → List Var → List Var
  | .seq s t, Γ => t.scope (s.scope Γ)
  | .declSize x _, Γ => x :: Γ
  | .declInt x, Γ => x :: Γ
  | .declParamSize x _, Γ => x :: Γ
  | .declObj _ x, Γ => x :: Γ
  | _, Γ => Γ

/-- Every variable that occurs in the statement refers to the declaration that is meant. -/
def hygienic : Stmt → List Var → Bool
  | .skip, _ => true
  | .seq s t, Γ => s.hygienic Γ && t.hygienic (s.scope Γ)
  | .pack _ l n, Γ => l.resolved Γ && n.resolved Γ
  | .unPack _ l n, Γ => l.resolved Γ && n.resolved Γ
  | .declSize x l, Γ => l.resolved (x :: Γ)
  | .declInt _, _ => true
  | .declParamSize _ _, _ => true
  | .packInt x, Γ => decide (Resolves Var.name Γ x)
  | .unPackInt x, Γ => decide (Resolves Var.name Γ x)
  | .resize _ l x, Γ => l.resolved Γ && decide (Resolves Var.name Γ x)
  | .clear l, Γ => l.resolved Γ
  | .declObj _ _, _ => true
  | .mapSet _ l k v, Γ => l.resolved Γ && decide (Resolves Var.name Γ k) &&
      decide (Resolves Var.name Γ v)
  | .serialize _ l _, Γ => l.resolved Γ
  | .proc _ x n _, Γ => decide (Resolves Var.name Γ x) && n.all (Size.resolved Γ)
  | .forElems _ cnt elem n l body, Γ =>
    n.resolved (cnt :: Γ) && l.resolved (elem :: cnt :: Γ) &&
      decide (Resolves Var.name (elem :: cnt :: Γ) cnt) &&
      decide (Resolves Var.name (elem :: cnt :: Γ) elem) && body.hygienic (elem :: cnt :: Γ)
  | .forItems item n body, Γ =>
    n.resolved (item :: Γ) && decide (Resolves Var.name (item :: Γ) item) &&
      body.hygienic (item :: Γ)
  | .forIter _ it l body, Γ =>
    l.resolved (it :: Γ) && decide (Resolves Var.name (it :: Γ) it) && body.hygienic (it :: Γ)
  | .forCount i n body, Γ =>
    decide (Resolves Var.name (i :: Γ) i) && decide (Resolves Var.name (i :: Γ) n) &&
      body.hygienic (i :: Γ)

end Stmt

/-! ### The condition on the type -/

mutual

/-- By how much the generators of a type advance the counter. -/
def DataType.advance : DataType → ℕ
  | .basic _ => 0
  | .array _ b => if b.isStandardType then 0 else b.advance + 1
  | .ptr _ b => b.advance
  | .equal _ t => t.advance
  | .struct _ as => as.advance
  | .seqClass _ _ => 0
  | .seq _ k e => if k = .vector ∧ e.isStandardType then 1 else e.advance + 1
  | .map _ k v => k.advance + v.advance + 1
  | .parClass _ => 0

/-- The same for the attributes of a structure. -/
def Attributes.advance : Attributes → ℕ
  | .nil => 0
  | .cons t _ rest => t.advance + rest.advance

end

/-- The name that a map declares for its loop. -/
def Ident.mapLoop (packing : Bool) (c : ℕ) : Ident :=
  if packing then .mapIterator c else .mapIndex

mutual

/-- No name that the generated code of the type declares is one of the names in its operand,
`root`, and no identifier in the dimensions of an array is one of the names of the program in
scope there, `bound`.  `sized` says that the operand comes with a size of its own. -/
def DataType.clean (packing sized : Bool) :
    DataType → (root bound : List Ident) → (counter : ℕ) → Bool
  | .basic _, _, _, _ => true
  | .array card b, root, bound, c =>
    if b.isStandardType then
      sized || b.isVoid || card.idents.all fun s => !bound.contains (.user s.text)
    else
      (sized || card.idents.all fun s => !bound.contains (.user s.text)) &&
        !root.contains (.popElem c) && b.clean packing false [.popElem c] bound c
  | .ptr _ b, root, bound, c =>
    if sized then b.isStandardType || b.clean packing false (.popItem :: root) bound c
    else b.clean packing false root bound c
  | .equal _ t, root, bound, c => t.clean packing sized root bound c
  | .struct _ as, root, bound, c => as.clean packing root bound c
  | .seqClass _ _, _, _, _ => true
  | .seq _ k e, _, bound, c =>
    decide (k = .vector ∧ e.isStandardType) || e.clean packing false [.elem c] bound (c + 1)
  | .map _ k v, root, bound, c =>
    !root.contains (.mapLoop packing c) &&
      k.clean packing false [if packing then .mapIterator c else .elemKey c]
        (.mapLoop packing c :: bound) (c + 1) &&
      v.clean packing false [if packing then .mapIterator c else .elemValue c]
        (.mapLoop packing c :: bound) (c + 1 + k.advance)
  | .parClass _, _, _, _ => true

/-- The same for the attributes of a structure. -/
def Attributes.clean (packing : Bool) :
    Attributes → (root bound : List Ident) → (counter : ℕ) → Bool
  | .nil, _, _, _ => true
  | .cons t _ rest, root, bound, c =>
    t.clean packing false root bound c && rest.clean packing root bound (c + t.advance)

end

/-! ### Invariants of the scope -/

/-- The counter value in the name of a variable that belongs to a container. -/
def Ident.container? : Ident → Option ℕ
  | .elem c => some c
  | .elemSize c => some c
  | .elemKey c => some c
  | .elemValue c => some c
  | _ => none

/-- What the generators rely on: numbers and container names are still to be handed out, and
`bound` lists the names of the program in scope. -/
structure Scoped (Γ : List Var) (g : Gen) (bound : List Ident) : Prop where
  ids : ∀ y ∈ Γ, y.id < g.fresh
  counters : ∀ y ∈ Γ, ∀ c, y.name.container? = some c → c < g.counter
  users : ∀ s, .user s ∈ Γ.map Var.name ↔ .user s ∈ bound

/-- An operand whose variables refer to what is meant; no counting variable is among them. -/
structure Operand (Γ : List Var) (l : LVal) : Prop where
  resolves : ∀ x ∈ l.vars, Resolves Var.name Γ x
  notCount : ∀ x ∈ l.vars, ∀ c, x.name ≠ .parocCount c

/-- A size helper is the size variable of a parameter. -/
def Helper (Γ : List Var) (n : Option Size) : Prop :=
  ∀ m, n = some m → ∃ x, m = .var x ∧ Resolves Var.name Γ x ∧
    ∃ p, x.name = .popSize1 p ∨ x.name = .popSize2 p

/-- What generated code leaves in scope: variables of containers, under new numbers. -/
structure Extends (Γ Γ' : List Var) (g g' : Gen) : Prop where
  leak : ∃ Δ, Γ' = Δ ++ Γ ∧ ∀ y ∈ Δ, g.fresh ≤ y.id ∧ y.id < g'.fresh ∧
    ∃ c, y.name.container? = some c ∧ g.counter ≤ c ∧ c < g'.counter
  counter : g.counter ≤ g'.counter
  fresh : g.fresh ≤ g'.fresh

section Invariants

variable {Γ Γ' Γ'' : List Var} {g g' g'' : Gen} {bound : List Ident} {l : LVal} {x : Var}
  {n : Option Size}

lemma helper_none : Helper Γ none := by
  intro m hm
  cases hm

lemma Operand.resolved (ho : Operand Γ l) : l.resolved Γ = true := by
  simpa [LVal.resolved] using ho.resolves

/-- A new declaration captures a variable of the operand exactly when it has its name. -/
lemma Operand.resolved_cons_iff (hs : Scoped Γ g bound) (ho : Operand Γ l)
    (hx : g.fresh ≤ x.id) : l.resolved (x :: Γ) = true ↔ x.name ∉ l.names := by
  have hiff : ∀ y ∈ l.vars, (Resolves Var.name (x :: Γ) y ↔ x.name ≠ y.name) := by
    intro y hy
    have hne : x ≠ y := by
      rintro rfl
      have := hs.ids _ (ho.resolves _ hy).mem
      omega
    rw [resolves_cons_iff hne]
    exact and_iff_left (ho.resolves y hy)
  simp only [LVal.resolved, List.all_eq_true, decide_eq_true_eq, LVal.names, List.mem_map,
    not_exists, not_and]
  constructor
  · intro h y hy heq
    exact (hiff y hy).mp (h y hy) heq.symm
  · intro h y hy
    exact (hiff y hy).mpr fun heq => h y hy heq.symm

/-- An operand outlives a declaration of another name. -/
lemma Operand.cons (hs : Scoped Γ g bound) (ho : Operand Γ l) (hx : g.fresh ≤ x.id)
    (hname : x.name ∉ l.names) : Operand (x :: Γ) l := by
  refine ⟨?_, ho.notCount⟩
  simpa [LVal.resolved] using (ho.resolved_cons_iff hs hx).mpr hname

lemma Scoped.notMem_names (hs : Scoped Γ g bound) (ho : Operand Γ l) {c : ℕ}
    (hc : x.name.container? = some c) (hle : g.counter ≤ c) : x.name ∉ l.names := by
  intro hmem
  obtain ⟨y, hy, heq⟩ := List.mem_map.mp hmem
  have hlt := hs.counters y (ho.resolves y hy).mem c (by rw [heq, hc])
  omega

lemma Extends.refl (Γ : List Var) (g : Gen) : Extends Γ Γ g g :=
  ⟨⟨[], rfl, by simp⟩, le_rfl, le_rfl⟩

lemma Extends.of_le (hc : g.counter ≤ g'.counter) (hf : g.fresh ≤ g'.fresh) :
    Extends Γ Γ g g' :=
  ⟨⟨[], rfl, by simp⟩, hc, hf⟩

lemma Extends.trans (h : Extends Γ Γ' g g') (h' : Extends Γ' Γ'' g' g'') :
    Extends Γ Γ'' g g'' := by
  obtain ⟨⟨Δ, rfl, hΔ⟩, hc, hf⟩ := h
  obtain ⟨⟨Δ', rfl, hΔ'⟩, hc', hf'⟩ := h'
  refine ⟨⟨Δ' ++ Δ, by simp, ?_⟩, hc.trans hc', hf.trans hf'⟩
  intro y hy
  rcases List.mem_append.mp hy with hy | hy
  · obtain ⟨h1, h2, c, h3, h4, h5⟩ := hΔ' y hy
    exact ⟨by omega, h2, c, h3, by omega, h5⟩
  · obtain ⟨h1, h2, c, h3, h4, h5⟩ := hΔ y hy
    exact ⟨h1, by omega, c, h3, h4, by omega⟩

/-- Generated code that declares one variable of its container first. -/
lemma Extends.cons {c : ℕ} (hx : g.fresh ≤ x.id) (hx' : x.id < g'.fresh)
    (hname : x.name.container? = some c) (hc : g.counter ≤ c) (hc' : c < g'.counter) :
    Extends Γ (x :: Γ) g g' := by
  refine ⟨⟨[x], rfl, ?_⟩, by omega, by omega⟩
  intro y hy
  rw [List.mem_singleton.mp hy]
  exact ⟨hx, hx', c, hname, hc, hc'⟩

lemma Scoped.extends (hs : Scoped Γ g bound) (he : Extends Γ Γ' g g') :
    Scoped Γ' g' bound := by
  obtain ⟨⟨Δ, rfl, hΔ⟩, hc, hf⟩ := he
  refine ⟨?_, ?_, ?_⟩
  · intro y hy
    rcases List.mem_append.mp hy with hy | hy
    · exact (hΔ y hy).2.1
    · exact (hs.ids y hy).trans_le hf
  · intro y hy c hyc
    rcases List.mem_append.mp hy with hy | hy
    · obtain ⟨-, -, c', h1, -, h2⟩ := hΔ y hy
      obtain rfl : c' = c := Option.some_injective _ (h1.symm.trans hyc)
      exact h2
    · exact (hs.counters y hy c hyc).trans_le hc
  · intro s
    rw [← hs.users s, List.map_append, List.mem_append, or_iff_right]
    intro hmem
    obtain ⟨y, hy, heq⟩ := List.mem_map.mp hmem
    obtain ⟨-, -, c, h1, -⟩ := hΔ y hy
    simp [heq, Ident.container?] at h1

/-- Generated code captures no variable that was in scope before it. -/
lemma Extends.resolves_iff (he : Extends Γ Γ' g g')
    (hx : ∀ c, x.name.container? = some c → c < g.counter) :
    Resolves Var.name Γ' x ↔ Resolves Var.name Γ x := by
  obtain ⟨⟨Δ, rfl, hΔ⟩, -, -⟩ := he
  refine resolves_append_iff fun y hy heq => ?_
  obtain ⟨-, -, c, h1, h2, -⟩ := hΔ y hy
  have := hx c (by rw [← heq, h1])
  omega

lemma Extends.resolved_iff (he : Extends Γ Γ' g g')
    (hl : ∀ x ∈ l.vars, ∀ c, x.name.container? = some c → c < g.counter) :
    l.resolved Γ' = true ↔ l.resolved Γ = true := by
  simp only [LVal.resolved, List.all_eq_true, decide_eq_true_eq]
  exact forall₂_congr fun x hx => he.resolves_iff (hl x hx)

lemma Operand.extends (hs : Scoped Γ g bound) (ho : Operand Γ l) (he : Extends Γ Γ' g g') :
    Operand Γ' l := by
  refine ⟨fun x hx => ?_, ho.notCount⟩
  have hmem := (ho.resolves x hx).mem
  exact (he.resolves_iff (hs.counters x hmem)).mpr (ho.resolves x hx)

/-- The numbers of the declarations, with one more. -/
lemma Scoped.ids_cons (hs : Scoped Γ g bound) (hx : x.id < g'.fresh) (hf : g.fresh ≤ g'.fresh) :
    ∀ y ∈ x :: Γ, y.id < g'.fresh := by
  rw [List.forall_mem_cons]
  exact ⟨hx, fun y hy => (hs.ids y hy).trans_le hf⟩

lemma Scoped.counters_cons (hs : Scoped Γ g bound)
    (hname : ∀ c, x.name.container? = some c → c < g'.counter) (hc : g.counter ≤ g'.counter) :
    ∀ y ∈ x :: Γ, ∀ c, y.name.container? = some c → c < g'.counter := by
  rw [List.forall_mem_cons]
  exact ⟨hname, fun y hy c hyc => (hs.counters y hy c hyc).trans_le hc⟩

/-- A declaration under a name that is none of the program's. -/
lemma Scoped.cons (hs : Scoped Γ g bound) (hx : x.id < g'.fresh)
    (hname : ∀ c, x.name.container? = some c → c < g'.counter) (huser : ∀ s, x.name ≠ .user s)
    (hc : g.counter ≤ g'.counter) (hf : g.fresh ≤ g'.fresh) : Scoped (x :: Γ) g' bound := by
  refine ⟨hs.ids_cons hx hf, hs.counters_cons hname hc, ?_⟩
  intro s
  rw [← hs.users s, List.map_cons, List.mem_cons, or_iff_right]
  exact fun h => huser s h.symm

/-- A declaration under a name of the program. -/
lemma Scoped.consUser {s : String} (hs : Scoped Γ g bound) (hx : x.id < g'.fresh)
    (hname : x.name = .user s) (hc : g.counter ≤ g'.counter) (hf : g.fresh ≤ g'.fresh) :
    Scoped (x :: Γ) g' (.user s :: bound) := by
  have hnone : ∀ c, x.name.container? = some c → c < g'.counter := fun c hxc => by
    rw [hname] at hxc
    cases hxc
  refine ⟨hs.ids_cons hx hf, hs.counters_cons hnone hc, ?_⟩
  intro s'
  rw [List.map_cons, List.mem_cons, List.mem_cons, hname, hs.users s']

/-- A variable that is no counter, as an operand. -/
lemma operand_of_resolves (hl : l.vars = [x]) (hx : Resolves Var.name Γ x)
    (hname : ∀ c, x.name ≠ .parocCount c) : Operand Γ l := by
  refine ⟨?_, ?_⟩
  · intro y hy
    obtain rfl : y = x := by simpa [hl] using hy
    exact hx
  · intro y hy
    obtain rfl : y = x := by simpa [hl] using hy
    exact hname

/-- The new variable itself. -/
lemma operand_of_vars (hl : l.vars = [x]) (hname : ∀ c, x.name ≠ .parocCount c) :
    Operand (x :: Γ) l :=
  operand_of_resolves hl resolves_cons_self hname

end Invariants

/-! ### Statements -/

namespace Stmt

variable {s t : Stmt} {Γ : List Var} {x : Var} {l : LVal}

lemma hygienic_skip : Stmt.skip.hygienic Γ = true :=
  rfl

lemma hygienic_pack {name : String} {n : Size} :
    (Stmt.pack name l n).hygienic Γ = true ↔ l.resolved Γ = true ∧ n.resolved Γ = true :=
  Bool.and_eq_true_iff

lemma hygienic_seq :
    (Stmt.seq s t).hygienic Γ = true ↔ s.hygienic Γ = true ∧ t.hygienic (s.scope Γ) = true :=
  Bool.and_eq_true_iff

lemma hygienic_declSize : (Stmt.declSize x l).hygienic Γ = true ↔ l.resolved (x :: Γ) = true :=
  Iff.rfl

lemma hygienic_declInt : (Stmt.declInt x).hygienic Γ = true ↔ True :=
  Iff.intro (fun _ => trivial) fun _ => rfl

lemma hygienic_declObj (t : DataType) : (Stmt.declObj t x).hygienic Γ = true ↔ True :=
  Iff.intro (fun _ => trivial) fun _ => rfl

lemma hygienic_unPackInt : (Stmt.unPackInt x).hygienic Γ = true ↔ Resolves Var.name Γ x :=
  decide_eq_true_iff

lemma hygienic_resize (e : DataType) :
    (Stmt.resize e l x).hygienic Γ = true ↔ l.resolved Γ = true ∧ Resolves Var.name Γ x := by
  show (l.resolved Γ && decide (Resolves Var.name Γ x)) = true ↔ _
  rw [Bool.and_eq_true_iff, decide_eq_true_iff]

lemma hygienic_clear : (Stmt.clear l).hygienic Γ = true ↔ l.resolved Γ = true :=
  Iff.rfl

lemma hygienic_mapSet {k v : Var} (t : DataType) : (Stmt.mapSet t l k v).hygienic Γ = true ↔
    l.resolved Γ = true ∧ Resolves Var.name Γ k ∧ Resolves Var.name Γ v := by
  show (l.resolved Γ && decide (Resolves Var.name Γ k) && decide (Resolves Var.name Γ v)) = true ↔ _
  rw [Bool.and_eq_true_iff, Bool.and_eq_true_iff, decide_eq_true_iff, decide_eq_true_iff, and_assoc]

lemma hygienic_forCount {i n : Var} : (Stmt.forCount i n s).hygienic Γ = true ↔
    Resolves Var.name (i :: Γ) n ∧ s.hygienic (i :: Γ) = true := by
  show (decide (Resolves Var.name (i :: Γ) i) && decide (Resolves Var.name (i :: Γ) n) &&
    s.hygienic (i :: Γ)) = true ↔ _
  rw [Bool.and_eq_true_iff, Bool.and_eq_true_iff, decide_eq_true_iff, decide_eq_true_iff,
    and_iff_right resolves_cons_self]

lemma hygienic_forElems {cnt elem : Var} {n : Size} (b : DataType) :
    (Stmt.forElems b cnt elem n l s).hygienic Γ = true ↔
      n.resolved (cnt :: Γ) = true ∧ l.resolved (elem :: cnt :: Γ) = true ∧
        Resolves Var.name (elem :: cnt :: Γ) cnt ∧ s.hygienic (elem :: cnt :: Γ) = true := by
  show (n.resolved (cnt :: Γ) && l.resolved (elem :: cnt :: Γ) &&
    decide (Resolves Var.name (elem :: cnt :: Γ) cnt) &&
    decide (Resolves Var.name (elem :: cnt :: Γ) elem) && s.hygienic (elem :: cnt :: Γ)) = true ↔ _
  simp only [Bool.and_eq_true, decide_eq_true_eq, resolves_cons_self, and_true, and_assoc]

lemma hygienic_forItems {n : Size} : (Stmt.forItems x n s).hygienic Γ = true ↔
    n.resolved (x :: Γ) = true ∧ s.hygienic (x :: Γ) = true := by
  show (n.resolved (x :: Γ) && decide (Resolves Var.name (x :: Γ) x) &&
    s.hygienic (x :: Γ)) = true ↔ _
  simp only [Bool.and_eq_true, decide_eq_true_eq, resolves_cons_self, and_true]

lemma hygienic_forIter (t : DataType) : (Stmt.forIter t x l s).hygienic Γ = true ↔
    l.resolved (x :: Γ) = true ∧ s.hygienic (x :: Γ) = true := by
  show (l.resolved (x :: Γ) && decide (Resolves Var.name (x :: Γ) x) &&
    s.hygienic (x :: Γ)) = true ↔ _
  simp only [Bool.and_eq_true, decide_eq_true_eq, resolves_cons_self, and_true]

lemma hygienic_packInt : (Stmt.packInt x).hygienic Γ = true ↔ Resolves Var.name Γ x :=
  decide_eq_true_iff

end Stmt

/-! ### The loops -/

section Loops

variable {Γ : List Var} {g : Gen} {bound : List Ident} {l : LVal} {n : Option Size}
  {y : Var}

lemma Helper.cons (hn : Helper Γ n) (h1 : ∀ p, y.name ≠ .popSize1 p)
    (h2 : ∀ p, y.name ≠ .popSize2 p) : Helper (y :: Γ) n := by
  intro m hm
  obtain ⟨x, rfl, hx, p, hp⟩ := hn m hm
  refine ⟨x, rfl, hx.cons ?_, p, hp⟩
  intro heq
  rcases hp with hp | hp
  · exact h1 p (heq.trans hp)
  · exact h2 p (heq.trans hp)

/-- The text of a size is captured by names of the program only. -/
lemma Scoped.resolved_size (hs : Scoped Γ g bound) (hn : Helper Γ n) (c : Cardinal) :
    (n.getD (.card c)).resolved Γ = true ↔
      (n.isSome || c.idents.all fun s => !bound.contains (.user s.text)) = true := by
  cases n with
  | some m =>
    obtain ⟨x, rfl, hx, -⟩ := hn m rfl
    simp [Size.resolved, hx]
  | none =>
    simp [Size.resolved, free_iff_notMem, hs.users]

/-- The block of an array. -/
lemma Scoped.hygienic_forElems (hs : Scoped Γ g bound) (ho : Operand Γ l) (hn : Helper Γ n)
    (c : Cardinal) (b : DataType) (body : Stmt) :
    (Stmt.forElems b ⟨g.fresh, .parocCount g.counter⟩ ⟨g.fresh + 1, .popElem g.counter⟩
        (n.getD (.card c)) l body).hygienic Γ = true ↔
      (n.isSome || c.idents.all fun s => !bound.contains (.user s.text)) = true ∧
      .popElem g.counter ∉ l.names ∧
      body.hygienic (⟨g.fresh + 1, .popElem g.counter⟩ ::
        ⟨g.fresh, .parocCount g.counter⟩ :: Γ) = true := by
  have hcnt : Ident.parocCount g.counter ∉ l.names := by
    intro hmem
    obtain ⟨x, hx, heq⟩ := List.mem_map.mp hmem
    exact ho.notCount x hx _ heq
  have hs' : Scoped (⟨g.fresh, .parocCount g.counter⟩ :: Γ) ⟨g.counter, g.fresh + 1⟩ bound :=
    hs.cons (by simp) (by simp [Ident.container?]) (by simp) le_rfl (by simp)
  have ho' : Operand (⟨g.fresh, .parocCount g.counter⟩ :: Γ) l := ho.cons hs le_rfl hcnt
  have hn' := hn.cons (y := ⟨g.fresh, .parocCount g.counter⟩) (by simp) (by simp)
  have hres : Resolves Var.name (⟨g.fresh + 1, .popElem g.counter⟩ ::
      ⟨g.fresh, .parocCount g.counter⟩ :: Γ) ⟨g.fresh, .parocCount g.counter⟩ := by
    rw [resolves_cons_iff (by simp)]
    exact ⟨by simp, resolves_cons_self⟩
  rw [Stmt.hygienic_forElems, hs'.resolved_size hn', ho'.resolved_cons_iff hs' le_rfl,
    and_iff_right hres]

/-- What holds in the block of an array. -/
lemma Scoped.forElems (hs : Scoped Γ g bound) :
    Scoped (⟨g.fresh + 1, .popElem g.counter⟩ :: ⟨g.fresh, .parocCount g.counter⟩ :: Γ)
      ⟨g.counter, g.fresh + 2⟩ bound := by
  have hs' : Scoped (⟨g.fresh, .parocCount g.counter⟩ :: Γ) ⟨g.counter, g.fresh + 1⟩ bound :=
    hs.cons (by simp) (by simp [Ident.container?]) (by simp) le_rfl (by simp)
  exact hs'.cons (by simp) (by simp [Ident.container?]) (by simp) le_rfl (by simp)

/-- The loop over the elements of a sized pointer. -/
lemma hygienic_forItems {m : Size} (hn : Helper Γ (some m)) {item : Var}
    (hitem : item.name = .popItem) (body : Stmt) :
    (Stmt.forItems item m body).hygienic Γ = true ↔ body.hygienic (item :: Γ) = true := by
  have hn' := hn.cons (y := item) (by simp [hitem]) (by simp [hitem])
  obtain ⟨x, rfl, hx, -⟩ := hn' m rfl
  rw [Stmt.hygienic_forItems]
  simp [Size.resolved, hx]

/-- Packing a standard value. -/
lemma Operand.hygienic_basic (ho : Operand Γ l) (hn : Helper Γ n) (name : String) :
    ((DataType.basic name).marshal l n g).1.hygienic Γ = true := by
  rw [DataType.marshal_basic]
  split_ifs
  · rfl
  · refine Stmt.hygienic_pack.mpr ⟨ho.resolved, ?_⟩
    cases n with
    | none => rfl
    | some m =>
      obtain ⟨x, rfl, hx, -⟩ := hn m rfl
      simp [Size.resolved, hx]

/-- The same variables occur where a standard value is unpacked. -/
lemma hygienic_deMarshal_basic (name : String) :
    ((DataType.basic name).deMarshal l n g).1.hygienic Γ =
      ((DataType.basic name).marshal l n g).1.hygienic Γ := by
  rw [DataType.deMarshal_basic, DataType.marshal_basic]
  split_ifs <;> rfl

/-- Packing an array of standard values. -/
lemma Scoped.hygienic_stdArray (hs : Scoped Γ g bound) (ho : Operand Γ l) (hn : Helper Γ n)
    (c : Cardinal) (name : String) :
    ((DataType.basic name).marshal (.head l) (some (n.getD (.card c))) g).1.hygienic Γ = true ↔
      (n.isSome || (DataType.basic name).isVoid ||
        c.idents.all fun s => !bound.contains (.user s.text)) = true := by
  have hl : (LVal.head l).resolved Γ = true := ho.resolved
  simp only [DataType.marshal_basic, DataType.isVoid, DataType.getExpandType, Option.getD_some]
  split_ifs with h
  · simp [Stmt.hygienic_skip, h]
  · rw [Stmt.hygienic_pack, and_iff_right hl, hs.resolved_size hn, beq_eq_false_iff_ne.mpr h,
      Bool.or_false]

/-- The operand inside the loop of a sized pointer. -/
lemma Operand.index (hs : Scoped Γ g bound) (ho : Operand Γ l) (hi : .popItem ∉ l.names) :
    Operand (⟨g.fresh, .popItem⟩ :: Γ) (.index l ⟨g.fresh, .popItem⟩) := by
  have hl := ho.cons hs (x := ⟨g.fresh, .popItem⟩) le_rfl hi
  refine ⟨?_, ?_⟩
  · intro x hx
    rcases List.mem_cons.mp hx with rfl | hx
    · exact resolves_cons_self
    · exact hl.resolves x hx
  · intro x hx
    rcases List.mem_cons.mp hx with rfl | hx
    · simp
    · exact hl.notCount x hx

/-- The variable that holds the size of a container. -/
lemma Scoped.size (hs : Scoped Γ g bound) :
    Scoped (⟨g.fresh, .elemSize g.counter⟩ :: Γ) ⟨g.counter + 1, g.fresh + 1⟩ bound :=
  hs.extends (Extends.cons le_rfl (by simp) rfl le_rfl (by simp))

lemma Operand.size (hs : Scoped Γ g bound) (ho : Operand Γ l) :
    Operand (⟨g.fresh, .elemSize g.counter⟩ :: Γ) l :=
  ho.cons hs le_rfl (hs.notMem_names ho rfl le_rfl)

/-- The variables with which a map is unpacked. -/
lemma Extends.mapVars {g' : Gen} (hc : g.counter < g'.counter) (hf : g.fresh + 2 < g'.fresh) :
    Extends Γ (⟨g.fresh + 2, .elemValue g.counter⟩ :: ⟨g.fresh + 1, .elemKey g.counter⟩ ::
      ⟨g.fresh, .elemSize g.counter⟩ :: Γ) g g' := by
  refine ⟨⟨[⟨g.fresh + 2, .elemValue g.counter⟩, ⟨g.fresh + 1, .elemKey g.counter⟩,
    ⟨g.fresh, .elemSize g.counter⟩], rfl, ?_⟩, by omega, by omega⟩
  intro y hy
  simp only [List.mem_cons, List.not_mem_nil, or_false] at hy
  rcases hy with rfl | rfl | rfl
  · exact ⟨by simp, hf, g.counter, rfl, le_rfl, hc⟩
  · exact ⟨by simp, by simp only; omega, g.counter, rfl, le_rfl, hc⟩
  · exact ⟨by simp, by simp only; omega, g.counter, rfl, le_rfl, hc⟩

/-- The loop over the elements of a container. -/
lemma Scoped.hygienic_forIter (hs : Scoped Γ g bound) (ho : Operand Γ l) (it : Var)
    (hit : g.fresh < it.id) (t : DataType) (body : Stmt) :
    (Stmt.forIter t it l body).hygienic (⟨g.fresh, .elemSize g.counter⟩ :: Γ) = true ↔
      it.name ∉ l.names ∧
      body.hygienic (it :: ⟨g.fresh, .elemSize g.counter⟩ :: Γ) = true := by
  have hl := (ho.size hs).resolved_cons_iff hs.size (x := it) hit
  rw [Stmt.hygienic_forIter, hl]

end Loops

/-! ### Packing -/

mutual

lemma DataType.counter_marshal : ∀ (t : DataType) (l : LVal) (n : Option Size) (g : Gen),
    (t.marshal l n g).2.counter = g.counter + t.advance
  | .basic _, _, _, _ => by simp [DataType.marshal, DataType.advance]
  | .array c b, l, n, g => by
    by_cases hb : b.isStandardType
    · obtain ⟨name, rfl, -⟩ := DataType.eq_basic_of_isStandardType hb
      simp [DataType.marshal, DataType.advance, hb]
    · simp only [DataType.marshal, DataType.advance, hb, Bool.false_eq_true, ↓reduceIte,
        b.counter_marshal]
      omega
  | .ptr _ b, l, none, g => by
    simp only [DataType.marshal, DataType.advance, b.counter_marshal]
  | .ptr _ b, l, some n, g => by
    simp only [DataType.marshal, DataType.advance]
    split_ifs <;> simp only [b.counter_marshal]
  | .equal _ t, l, n, g => by
    simp only [DataType.marshal, DataType.advance, t.counter_marshal]
  | .struct _ as, l, _, g => by
    simp only [DataType.marshal, DataType.advance, as.counter_marshal]
  | .seqClass _ _, _, _, _ => by simp [DataType.marshal, DataType.advance]
  | .seq q k e, l, _, g => by
    simp only [DataType.marshal, DataType.advance]
    split_ifs
    · rfl
    · simp only [e.counter_marshal]
      omega
  | .map _ k v, l, _, g => by
    simp only [DataType.marshal, DataType.advance, k.counter_marshal, v.counter_marshal]
    omega
  | .parClass _, _, _, _ => by simp [DataType.marshal, DataType.advance]

lemma Attributes.counter_marshal : ∀ (as : Attributes) (l : LVal) (k : ℕ) (g : Gen),
    (as.marshal l k g).2.counter = g.counter + as.advance
  | .nil, _, _, _ => by simp [Attributes.marshal, Attributes.advance]
  | .cons t f rest, l, k, g => by
    simp only [Attributes.marshal, Attributes.advance, rest.counter_marshal, t.counter_marshal]
    omega

end

mutual

lemma DataType.extends_marshal : ∀ (t : DataType) (l : LVal) (n : Option Size) (g : Gen)
    (Γ : List Var), Extends Γ ((t.marshal l n g).1.scope Γ) g (t.marshal l n g).2
  | .basic name, _, _, g, Γ => by
    simp only [DataType.marshal]
    split_ifs <;> exact Extends.refl Γ g
  | .array c b, l, n, g, Γ => by
    simp only [DataType.marshal]
    split_ifs with hb
    · exact b.extends_marshal _ _ g Γ
    · have he := b.extends_marshal (.target ⟨g.fresh + 1, .popElem g.counter⟩) none
        ⟨g.counter, g.fresh + 2⟩ Γ
      have hc := he.counter
      have hf := he.fresh
      exact Extends.of_le (by simp only at hc ⊢; omega) (by simp only at hf ⊢; omega)
  | .ptr _ b, l, none, g, Γ => b.extends_marshal _ _ g Γ
  | .ptr _ b, l, some n, g, Γ => by
    simp only [DataType.marshal]
    split_ifs with hb
    · exact b.extends_marshal _ _ g Γ
    · have he := b.extends_marshal (.index l ⟨g.fresh, .popItem⟩) none
        ⟨g.counter, g.fresh + 1⟩ Γ
      have hf := he.fresh
      exact Extends.of_le he.counter (by simp only at hf ⊢; omega)
  | .equal _ t, l, n, g, Γ => t.extends_marshal l n g Γ
  | .struct _ as, l, _, g, Γ => as.extends_marshal l 0 g Γ
  | .seqClass _ _, _, _, g, Γ => Extends.refl Γ g
  | .seq q k e, l, _, g, Γ => by
    simp only [DataType.marshal]
    split_ifs with hk
    · exact Extends.cons (by simp) (by simp) rfl le_rfl (by simp)
    · have he := e.extends_marshal (.target ⟨g.fresh + 1, .elem g.counter⟩) none
        ⟨g.counter + 1, g.fresh + 2⟩ Γ
      have hc := he.counter
      have hf := he.fresh
      exact Extends.cons (by simp) (by simp only at hf ⊢; omega) rfl le_rfl hc
  | .map _ k v, l, _, g, Γ => by
    simp only [DataType.marshal]
    generalize hr : k.marshal (.first ⟨g.fresh + 1, .mapIterator g.counter⟩) none
      ⟨g.counter + 1, g.fresh + 2⟩ = r
    have hk := k.extends_marshal (.first ⟨g.fresh + 1, .mapIterator g.counter⟩) none
      ⟨g.counter + 1, g.fresh + 2⟩ Γ
    rw [hr] at hk
    have hv := v.extends_marshal (.second ⟨g.fresh + 1, .mapIterator g.counter⟩) none r.2 Γ
    have hc := hk.counter.trans hv.counter
    have hf := hk.fresh.trans hv.fresh
    exact Extends.cons (by simp) (by simp only at hf ⊢; omega) rfl le_rfl hc
  | .parClass _, _, _, g, Γ => Extends.refl Γ g

lemma Attributes.extends_marshal : ∀ (as : Attributes) (l : LVal) (k : ℕ) (g : Gen)
    (Γ : List Var), Extends Γ ((as.marshal l k g).1.scope Γ) g (as.marshal l k g).2
  | .nil, _, _, g, Γ => Extends.refl Γ g
  | .cons t f rest, l, k, g, Γ => by
    simp only [Attributes.marshal]
    exact (t.extends_marshal (.field l k f) none g Γ).trans
      (rest.extends_marshal l (k + 1) _ _)

end

mutual

/-- The emitted text of `Marshal` is hygienic exactly for the clean types. -/
lemma DataType.hygienic_marshal : ∀ (t : DataType) {l : LVal} {n : Option Size} {g : Gen}
    {Γ : List Var} {bound : List Ident}, Scoped Γ g bound → Operand Γ l → Helper Γ n →
    (n.isSome → .popItem ∉ l.names) →
    ((t.marshal l n g).1.hygienic Γ = true ↔
      t.clean true n.isSome l.names bound g.counter = true)
  | .basic name, l, n, g, Γ, bound, hs, ho, hn, _ => by
    simp only [ho.hygienic_basic hn, DataType.clean]
  | .array c b, l, n, g, Γ, bound, hs, ho, hn, _ => by
    by_cases hb : b.isStandardType
    · obtain ⟨name, rfl, -⟩ := DataType.eq_basic_of_isStandardType hb
      rw [DataType.marshal, if_pos hb, DataType.clean, if_pos hb]
      exact hs.hygienic_stdArray ho hn c name
    -- the loop variable is a new name, and the element is its target
    · have ih := b.hygienic_marshal hs.forElems (operand_of_vars rfl (by simp)) helper_none
        (l := .target ⟨g.fresh + 1, .popElem g.counter⟩) (by simp)
      simp only [DataType.marshal, DataType.clean, hb, Bool.false_eq_true, ↓reduceIte,
        hs.hygienic_forElems ho hn, ih, Bool.and_eq_true, and_assoc]
      simp [LVal.names, LVal.vars]
  | .ptr _ b, l, none, g, Γ, bound, hs, ho, hn, _ => by
    have ho' : Operand Γ (.head l) := ⟨ho.resolves, ho.notCount⟩
    simp only [DataType.marshal, DataType.clean, b.hygienic_marshal hs ho' helper_none (by simp)]
    rfl
  | .ptr _ b, l, some m, g, Γ, bound, hs, ho, hn, hi => by
    by_cases hb : b.isStandardType
    · obtain ⟨name, rfl, -⟩ := DataType.eq_basic_of_isStandardType hb
      have ho' : Operand Γ (.head l) := ⟨ho.resolves, ho.notCount⟩
      simp only [DataType.marshal, DataType.clean, hb, if_true, Option.isSome_some,
        Bool.true_or, iff_true]
      exact ho'.hygienic_basic hn name (g := g)
    -- `popitem` has no number: it must not be in the operand already
    · have hs' : Scoped (⟨g.fresh, .popItem⟩ :: Γ) ⟨g.counter, g.fresh + 1⟩ bound :=
        hs.cons (by simp) (by simp [Ident.container?]) (by simp) le_rfl (by simp)
      have ih := b.hygienic_marshal hs' (ho.index hs (hi rfl)) helper_none (by simp)
      simp only [DataType.marshal, DataType.clean, hb, Bool.false_eq_true, ↓reduceIte,
        hygienic_forItems hn, ih, Option.isSome_some, Bool.false_or]
      rfl
  | .equal _ t, l, n, g, Γ, bound, hs, ho, hn, hi => by
    simp only [DataType.marshal, DataType.clean, t.hygienic_marshal hs ho hn hi]
  | .struct _ as, l, _, g, Γ, bound, hs, ho, _, _ => by
    simp only [DataType.marshal, DataType.clean, as.hygienic_marshal hs ho]
  | .seqClass _ _, l, _, g, Γ, bound, hs, ho, _, _ => by
    simp [DataType.marshal, DataType.clean, Stmt.hygienic, ho.resolved]
  | .seq q k e, l, _, g, Γ, bound, hs, ho, _, _ => by
    have hl := (ho.size hs).resolved
    by_cases hk : k = .vector ∧ e.isStandardType = true
    · have hl' : (LVal.head l).resolved (⟨g.fresh, .elemSize g.counter⟩ :: Γ) = true := hl
      simp [DataType.marshal, DataType.clean, hk, Stmt.hygienic, Stmt.scope, Size.resolved, hl,
        hl', resolves_cons_self]
    · have hs' : Scoped (⟨g.fresh + 1, .elem g.counter⟩ :: ⟨g.fresh, .elemSize g.counter⟩ :: Γ)
          ⟨g.counter + 1, g.fresh + 2⟩ bound :=
        hs.size.cons (by simp) (by simp [Ident.container?]) (by simp) le_rfl (by simp)
      have ih := e.hygienic_marshal hs' (operand_of_vars rfl (by simp)) helper_none
        (l := .target ⟨g.fresh + 1, .elem g.counter⟩) (by simp)
      have hit : Ident.elem g.counter ∉ l.names :=
        hs.notMem_names ho (x := ⟨g.fresh + 1, .elem g.counter⟩) rfl le_rfl
      simp only [DataType.marshal, DataType.clean, hk, ↓reduceIte, Stmt.hygienic_seq,
        Stmt.hygienic_declSize, Stmt.hygienic_packInt, Stmt.scope, hl, resolves_cons_self,
        decide_false, Bool.false_or, true_and]
      rw [hs.hygienic_forIter ho _ (by simp), ih]
      simp only [hit, not_false_eq_true, true_and]
      rfl
  | .map q k v, l, _, g, Γ, bound, hs, ho, _, _ => by
    have hl := (ho.size hs).resolved
    let it : Var := ⟨g.fresh + 1, .mapIterator g.counter⟩
    have hs' : Scoped (it :: ⟨g.fresh, .elemSize g.counter⟩ :: Γ) ⟨g.counter + 1, g.fresh + 2⟩
        (.mapIterator g.counter :: bound) := hs.size.consUser (by simp [it]) rfl le_rfl (by simp)
    have hk : Operand (it :: ⟨g.fresh, .elemSize g.counter⟩ :: Γ) (.first it) :=
      operand_of_vars rfl (by simp [it, Ident.mapIterator])
    have hv : Operand (it :: ⟨g.fresh, .elemSize g.counter⟩ :: Γ) (.second it) :=
      operand_of_vars rfl (by simp [it, Ident.mapIterator])
    -- the text of the key may have declared counters before that of the value
    have he := k.extends_marshal (.first it) none ⟨g.counter + 1, g.fresh + 2⟩
      (it :: ⟨g.fresh, .elemSize g.counter⟩ :: Γ)
    have ihk := k.hygienic_marshal hs' hk helper_none (by simp)
    have ihv := v.hygienic_marshal (hs'.extends he) (hv.extends hs' he) helper_none (by simp)
    simp only [DataType.marshal, DataType.clean, Stmt.hygienic_seq, Stmt.hygienic_declSize,
      Stmt.hygienic_packInt, Stmt.scope, hl, resolves_cons_self, true_and]
    rw [hs.hygienic_forIter ho it (by simp [it]), Stmt.hygienic_seq, ihk, ihv, k.counter_marshal]
    simp [LVal.names, LVal.vars, it, Ident.mapLoop, and_assoc]
  | .parClass _, l, _, g, Γ, bound, hs, ho, _, _ => by
    simp [DataType.marshal, DataType.clean, Stmt.hygienic, ho.resolved]

lemma Attributes.hygienic_marshal : ∀ (as : Attributes) {l : LVal} {k : ℕ} {g : Gen}
    {Γ : List Var} {bound : List Ident}, Scoped Γ g bound → Operand Γ l →
    ((as.marshal l k g).1.hygienic Γ = true ↔ as.clean true l.names bound g.counter = true)
  | .nil, _, _, _, _, _, _, _ => by simp [Attributes.marshal, Attributes.clean, Stmt.hygienic]
  | .cons t f rest, l, k, g, Γ, bound, hs, ho => by
    have ho' : Operand Γ (.field l k f) := ⟨ho.resolves, ho.notCount⟩
    have he := t.extends_marshal (.field l k f) none g Γ
    have ih := t.hygienic_marshal hs ho' helper_none (by simp)
    have ihr := rest.hygienic_marshal (k := k + 1) (hs.extends he) (ho.extends hs he)
    simp only [Attributes.marshal, Attributes.clean, Stmt.hygienic, Bool.and_eq_true, ih, ihr,
      t.counter_marshal]
    rfl

end

/-! ### Unpacking -/

mutual

lemma DataType.counter_deMarshal : ∀ (t : DataType) (l : LVal) (n : Option Size) (g : Gen),
    (t.deMarshal l n g).2.counter = g.counter + t.advance
  | .basic _, _, _, _ => by simp [DataType.deMarshal, DataType.advance]
  | .array c b, l, n, g => by
    by_cases hb : b.isStandardType
    · obtain ⟨name, rfl, -⟩ := DataType.eq_basic_of_isStandardType hb
      simp [DataType.deMarshal, DataType.advance, hb]
    · simp only [DataType.deMarshal, DataType.advance, hb, Bool.false_eq_true, ↓reduceIte,
        b.counter_deMarshal]
      omega
  | .ptr _ b, l, none, g => by
    simp only [DataType.deMarshal, DataType.advance, b.counter_deMarshal]
  | .ptr _ b, l, some n, g => by
    simp only [DataType.deMarshal, DataType.advance]
    split_ifs <;> simp only [b.counter_deMarshal]
  | .equal _ t, l, n, g => by
    simp only [DataType.deMarshal, DataType.advance, t.counter_deMarshal]
  | .struct _ as, l, _, g => by
    simp only [DataType.deMarshal, DataType.advance, as.counter_deMarshal]
  | .seqClass _ _, _, _, _ => by simp [DataType.deMarshal, DataType.advance]
  | .seq q k e, l, _, g => by
    simp only [DataType.deMarshal, DataType.advance]
    split_ifs
    · rfl
    · simp only [e.counter_deMarshal]
      omega
  | .map _ k v, l, _, g => by
    simp only [DataType.deMarshal, DataType.advance, k.counter_deMarshal, v.counter_deMarshal]
    omega
  | .parClass _, _, _, _ => by simp [DataType.deMarshal, DataType.advance]

lemma Attributes.counter_deMarshal : ∀ (as : Attributes) (l : LVal) (k : ℕ) (g : Gen),
    (as.deMarshal l k g).2.counter = g.counter + as.advance
  | .nil, _, _, _ => by simp [Attributes.deMarshal, Attributes.advance]
  | .cons t f rest, l, k, g => by
    simp only [Attributes.deMarshal, Attributes.advance, rest.counter_deMarshal,
      t.counter_deMarshal]
    omega

end

mutual

lemma DataType.extends_deMarshal : ∀ (t : DataType) (l : LVal) (n : Option Size) (g : Gen)
    (Γ : List Var), Extends Γ ((t.deMarshal l n g).1.scope Γ) g (t.deMarshal l n g).2
  | .basic name, _, _, g, Γ => by
    simp only [DataType.deMarshal]
    split_ifs <;> exact Extends.refl Γ g
  | .array c b, l, n, g, Γ => by
    simp only [DataType.deMarshal]
    split_ifs with hb
    · exact b.extends_deMarshal _ _ g Γ
    · have he := b.extends_deMarshal (.target ⟨g.fresh + 1, .popElem g.counter⟩) none
        ⟨g.counter, g.fresh + 2⟩ Γ
      have hc := he.counter
      have hf := he.fresh
      exact Extends.of_le (by simp only at hc ⊢; omega) (by simp only at hf ⊢; omega)
  | .ptr _ b, l, none, g, Γ => b.extends_deMarshal _ _ g Γ
  | .ptr _ b, l, some n, g, Γ => by
    simp only [DataType.deMarshal]
    split_ifs with hb
    · exact b.extends_deMarshal _ _ g Γ
    · have he := b.extends_deMarshal (.index l ⟨g.fresh, .popItem⟩) none
        ⟨g.counter, g.fresh + 1⟩ Γ
      have hf := he.fresh
      exact Extends.of_le he.counter (by simp only at hf ⊢; omega)
  | .equal _ t, l, n, g, Γ => t.extends_deMarshal l n g Γ
  | .struct _ as, l, _, g, Γ => as.extends_deMarshal l 0 g Γ
  | .seqClass _ _, _, _, g, Γ => Extends.refl Γ g
  | .seq q k e, l, _, g, Γ => by
    simp only [DataType.deMarshal]
    split_ifs with hk
    · exact Extends.cons (by simp) (by simp) rfl le_rfl (by simp)
    · have he := e.extends_deMarshal (.target ⟨g.fresh + 1, .elem g.counter⟩) none
        ⟨g.counter + 1, g.fresh + 2⟩ Γ
      have hc := he.counter
      have hf := he.fresh
      exact Extends.cons (by simp) (by simp only at hf ⊢; omega) rfl le_rfl hc
  | .map _ k v, l, _, g, Γ => by
    simp only [DataType.deMarshal]
    generalize hr : k.deMarshal (.var ⟨g.fresh + 1, .elemKey g.counter⟩) none
      ⟨g.counter + 1, g.fresh + 4⟩ = r
    have hk := k.extends_deMarshal (.var ⟨g.fresh + 1, .elemKey g.counter⟩) none
      ⟨g.counter + 1, g.fresh + 4⟩ Γ
    rw [hr] at hk
    have hv := v.extends_deMarshal (.var ⟨g.fresh + 2, .elemValue g.counter⟩) none r.2 Γ
    have hc : g.counter + 1 ≤ (v.deMarshal (.var ⟨g.fresh + 2, .elemValue g.counter⟩) none
      r.2).2.counter := hk.counter.trans hv.counter
    have hf : g.fresh + 4 ≤ (v.deMarshal (.var ⟨g.fresh + 2, .elemValue g.counter⟩) none
      r.2).2.fresh := hk.fresh.trans hv.fresh
    exact Extends.mapVars hc (by omega)
  | .parClass _, _, _, g, Γ => Extends.refl Γ g

lemma Attributes.extends_deMarshal : ∀ (as : Attributes) (l : LVal) (k : ℕ) (g : Gen)
    (Γ : List Var), Extends Γ ((as.deMarshal l k g).1.scope Γ) g (as.deMarshal l k g).2
  | .nil, _, _, g, Γ => Extends.refl Γ g
  | .cons t f rest, l, k, g, Γ => by
    simp only [Attributes.deMarshal]
    exact (t.extends_deMarshal (.field l k f) none g Γ).trans
      (rest.extends_deMarshal l (k + 1) _ _)

end

mutual

/-- The emitted text of `DeMarshal` is hygienic exactly for the clean types. -/
lemma DataType.hygienic_deMarshal : ∀ (t : DataType) {l : LVal} {n : Option Size} {g : Gen}
    {Γ : List Var} {bound : List Ident}, Scoped Γ g bound → Operand Γ l → Helper Γ n →
    (n.isSome → .popItem ∉ l.names) →
    ((t.deMarshal l n g).1.hygienic Γ = true ↔
      t.clean false n.isSome l.names bound g.counter = true)
  | .basic name, l, n, g, Γ, bound, hs, ho, hn, _ => by
    simp only [hygienic_deMarshal_basic, ho.hygienic_basic hn, DataType.clean]
  | .array c b, l, n, g, Γ, bound, hs, ho, hn, _ => by
    by_cases hb : b.isStandardType
    · obtain ⟨name, rfl, -⟩ := DataType.eq_basic_of_isStandardType hb
      rw [DataType.deMarshal, if_pos hb, DataType.clean, if_pos hb]
      rw [hygienic_deMarshal_basic]
      exact hs.hygienic_stdArray ho hn c name
    · have ih := b.hygienic_deMarshal hs.forElems (operand_of_vars rfl (by simp)) helper_none
        (l := .target ⟨g.fresh + 1, .popElem g.counter⟩) (by simp)
      simp only [DataType.deMarshal, DataType.clean, hb, Bool.false_eq_true, ↓reduceIte,
        hs.hygienic_forElems ho hn, ih, Bool.and_eq_true, and_assoc]
      simp [LVal.names, LVal.vars]
  | .ptr _ b, l, none, g, Γ, bound, hs, ho, hn, _ => by
    have ho' : Operand Γ (.head l) := ⟨ho.resolves, ho.notCount⟩
    simp only [DataType.deMarshal, DataType.clean,
      b.hygienic_deMarshal hs ho' helper_none (by simp)]
    rfl
  | .ptr _ b, l, some m, g, Γ, bound, hs, ho, hn, hi => by
    by_cases hb : b.isStandardType
    · obtain ⟨name, rfl, -⟩ := DataType.eq_basic_of_isStandardType hb
      have ho' : Operand Γ (.head l) := ⟨ho.resolves, ho.notCount⟩
      rw [DataType.deMarshal, if_pos hb, hygienic_deMarshal_basic]
      simp only [ho'.hygienic_basic hn name, DataType.clean, hb, Option.isSome_some, if_true,
        Bool.true_or]
    · have hs' : Scoped (⟨g.fresh, .popItem⟩ :: Γ) ⟨g.counter, g.fresh + 1⟩ bound :=
        hs.cons (by simp) (by simp [Ident.container?]) (by simp) le_rfl (by simp)
      have ih := b.hygienic_deMarshal hs' (ho.index hs (hi rfl)) helper_none (by simp)
      simp only [DataType.deMarshal, DataType.clean, hb, Bool.false_eq_true, ↓reduceIte,
        hygienic_forItems hn, ih, Option.isSome_some, Bool.false_or]
      rfl
  | .equal _ t, l, n, g, Γ, bound, hs, ho, hn, hi => by
    simp only [DataType.deMarshal, DataType.clean, t.hygienic_deMarshal hs ho hn hi]
  | .struct _ as, l, _, g, Γ, bound, hs, ho, _, _ => by
    simp only [DataType.deMarshal, DataType.clean, as.hygienic_deMarshal hs ho]
  | .seqClass _ _, l, _, g, Γ, bound, hs, ho, _, _ => by
    simp [DataType.deMarshal, DataType.clean, Stmt.hygienic, ho.resolved]
  | .seq q k e, l, _, g, Γ, bound, hs, ho, _, _ => by
    have hl := (ho.size hs).resolved
    by_cases hk : k = .vector ∧ e.isStandardType = true
    · have hl' : (LVal.head l).resolved (⟨g.fresh, .elemSize g.counter⟩ :: Γ) = true := hl
      simp [DataType.deMarshal, DataType.clean, hk, Stmt.hygienic, Stmt.scope, Size.resolved, hl,
        hl', resolves_cons_self]
    · have hs' : Scoped (⟨g.fresh + 1, .elem g.counter⟩ :: ⟨g.fresh, .elemSize g.counter⟩ :: Γ)
          ⟨g.counter + 1, g.fresh + 2⟩ bound :=
        hs.size.cons (by simp) (by simp [Ident.container?]) (by simp) le_rfl (by simp)
      have ih := e.hygienic_deMarshal hs' (operand_of_vars rfl (by simp)) helper_none
        (l := .target ⟨g.fresh + 1, .elem g.counter⟩) (by simp)
      have hit : Ident.elem g.counter ∉ l.names :=
        hs.notMem_names ho (x := ⟨g.fresh + 1, .elem g.counter⟩) rfl le_rfl
      simp only [DataType.deMarshal, DataType.clean, hk, ↓reduceIte, Stmt.hygienic_seq,
        Stmt.hygienic_declInt, Stmt.hygienic_unPackInt, Stmt.hygienic_resize, Stmt.scope, hl,
        resolves_cons_self, decide_false, Bool.false_or, true_and]
      rw [hs.hygienic_forIter ho _ (by simp), ih]
      simp only [hit, not_false_eq_true, true_and]
      rfl
  | .map q k v, l, _, g, Γ, bound, hs, ho, _, _ => by
    let key : Var := ⟨g.fresh + 1, .elemKey g.counter⟩
    let value : Var := ⟨g.fresh + 2, .elemValue g.counter⟩
    let i : Var := ⟨g.fresh + 3, .mapIndex⟩
    let g4 : Gen := ⟨g.counter + 1, g.fresh + 4⟩
    let Γ3 : List Var := value :: key :: ⟨g.fresh, .elemSize g.counter⟩ :: Γ
    have he3 : Extends Γ Γ3 g ⟨g.counter + 1, g.fresh + 3⟩ :=
      Extends.mapVars (by simp) (by simp)
    have hs3 := hs.extends he3
    have hs4 : Scoped (i :: Γ3) g4 (.mapIndex :: bound) :=
      hs3.consUser (by simp [i, g4]) rfl le_rfl (by simp [g4])
    have ho3 := ho.extends hs he3
    have hl := ho3.resolved_cons_iff hs3 (x := i) le_rfl
    have hkey : Operand (i :: Γ3) (.var key) :=
      operand_of_resolves rfl ((resolves_cons_self.cons (by simp [key, value])).cons
        (by simp [key, i, Ident.mapIndex])) (by simp [key])
    have hvalue : Operand (i :: Γ3) (.var value) :=
      operand_of_resolves rfl (resolves_cons_self.cons (by simp [value, i, Ident.mapIndex]))
        (by simp [value])
    have hsize : Resolves Var.name Γ3 ⟨g.fresh, .elemSize g.counter⟩ :=
      (resolves_cons_self.cons (by simp [key])).cons (by simp [value])
    have hek := k.extends_deMarshal (.var key) none g4 (i :: Γ3)
    have hev := v.extends_deMarshal (.var value) none (k.deMarshal (.var key) none g4).2
      ((k.deMarshal (.var key) none g4).1.scope (i :: Γ3))
    have ihk := k.hygienic_deMarshal hs4 hkey helper_none (by simp)
    have ihv := v.hygienic_deMarshal (hs4.extends hek) (hvalue.extends hs4 hek) helper_none
      (by simp)
    -- the operand is written once more behind the code of key and value, inside the loop
    have hset := (hek.trans hev).resolved_iff (l := l) fun x hx c hc =>
      (hs.counters x (ho.resolves x hx).mem c hc).trans (Nat.lt_succ_self _)
    have hk6 := (hkey.extends hs4 (hek.trans hev)).resolves key (by simp [LVal.vars])
    have hv6 := (hvalue.extends hs4 (hek.trans hev)).resolves value (by simp [LVal.vars])
    simp only [DataType.deMarshal, DataType.clean, Stmt.hygienic_seq, Stmt.hygienic_declInt,
      Stmt.hygienic_declObj, Stmt.hygienic_unPackInt, Stmt.hygienic_clear,
      Stmt.hygienic_forCount, Stmt.hygienic_mapSet, Stmt.scope, true_and]
    have hsize4 : Resolves Var.name (i :: Γ3) ⟨g.fresh, .elemSize g.counter⟩ :=
      hsize.cons (by simp [i, Ident.mapIndex])
    rw [and_iff_right hsize, and_iff_right ho3.resolved, and_iff_right hsize4, ihk, ihv, hset,
      hl, and_iff_left (And.intro hk6 hv6), k.counter_deMarshal]
    simp only [LVal.names, LVal.vars, List.map_cons, List.map_nil, key, value, i, g4,
      Ident.mapLoop, Bool.and_eq_true, Option.isSome_none, Bool.false_eq_true, if_false,
      Bool.not_eq_true', List.contains_eq_mem, decide_eq_false_iff_not]
    constructor
    · rintro ⟨hk, hv, hloop⟩
      exact ⟨⟨hloop, hk⟩, hv⟩
    · rintro ⟨⟨hloop, hk⟩, hv⟩
      exact ⟨hk, hv, hloop⟩
  | .parClass _, l, _, g, Γ, bound, hs, ho, _, _ => by
    simp [DataType.deMarshal, DataType.clean, Stmt.hygienic, ho.resolved]

lemma Attributes.hygienic_deMarshal : ∀ (as : Attributes) {l : LVal} {k : ℕ} {g : Gen}
    {Γ : List Var} {bound : List Ident}, Scoped Γ g bound → Operand Γ l →
    ((as.deMarshal l k g).1.hygienic Γ = true ↔ as.clean false l.names bound g.counter = true)
  | .nil, _, _, _, _, _, _, _ => by simp [Attributes.deMarshal, Attributes.clean, Stmt.hygienic]
  | .cons t f rest, l, k, g, Γ, bound, hs, ho => by
    have ho' : Operand Γ (.field l k f) := ⟨ho.resolves, ho.notCount⟩
    have he := t.extends_deMarshal (.field l k f) none g Γ
    have ih := t.hygienic_deMarshal hs ho' helper_none (by simp)
    have ihr := rest.hygienic_deMarshal (k := k + 1) (hs.extends he) (ho.extends hs he)
    simp only [Attributes.deMarshal, Attributes.clean, Stmt.hygienic, Bool.and_eq_true, ih, ihr,
      t.counter_deMarshal]
    rfl

end

/-! ### The code of a parameter -/

/-- What is in scope where the code of the parameter `p` begins: the parameter and, if it is
sized, the variable that holds its size. -/
def paramScope (p : UserName) (sized : Bool) (size : Ident) : List Var :=
  (if sized then [⟨1, size⟩] else []) ++ [⟨0, .user p.text⟩]

/-- `Marshal`, called for the parameter `p` when the counter is at `c`. -/
def DataType.marshalParam (t : DataType) (p : UserName) (sized : Bool) (c : ℕ) : Stmt :=
  (t.marshal (.var ⟨0, .user p.text⟩)
    (if sized then some (.var ⟨1, .popSize1 p.text⟩) else none) ⟨c, 2⟩).1

/-- `DeMarshal`, called for the parameter `p` when the counter is at `c`. -/
def DataType.deMarshalParam (t : DataType) (p : UserName) (sized : Bool) (c : ℕ) : Stmt :=
  (t.deMarshal (.var ⟨0, .user p.text⟩)
    (if sized then some (.var ⟨1, .popSize2 p.text⟩) else none) ⟨c, 2⟩).1

section Param

variable (p : UserName) (sized : Bool) {size : Ident}

lemma scoped_paramScope (c : ℕ) (hsize : ∃ q, size = .popSize1 q ∨ size = .popSize2 q) :
    Scoped (paramScope p sized size) ⟨c, 2⟩ [.user p.text] := by
  obtain ⟨q, rfl | rfl⟩ := hsize <;> cases sized <;>
    exact ⟨by simp [paramScope], by simp [paramScope, Ident.container?], by simp [paramScope]⟩

lemma operand_paramScope (hsize : ∃ q, size = .popSize1 q ∨ size = .popSize2 q) :
    Operand (paramScope p sized size) (.var ⟨0, .user p.text⟩) := by
  obtain ⟨q, rfl | rfl⟩ := hsize <;> cases sized <;>
    exact ⟨by simp [paramScope, LVal.vars, Resolves], by simp [LVal.vars]⟩

lemma helper_paramScope (hsize : ∃ q, size = .popSize1 q ∨ size = .popSize2 q) :
    Helper (paramScope p sized size) (if sized then some (.var ⟨1, size⟩) else none) := by
  cases sized with
  | false => exact helper_none
  | true =>
    intro m hm
    obtain rfl : Size.var ⟨1, size⟩ = m := by simpa using hm
    obtain ⟨q, hq⟩ := hsize
    exact ⟨_, rfl, resolves_cons_self, q, hq⟩

end Param

/-- The emitted text of a parameter, packed when the counter is at `c` and unpacked when it is
at `d`, is hygienic exactly if its type is clean. -/
theorem hygienic_iff_clean (t : DataType) (p : UserName) (sized : Bool) (c d : ℕ) :
    ((t.marshalParam p sized c).hygienic (paramScope p sized (.popSize1 p.text)) = true ∧
      (t.deMarshalParam p sized d).hygienic (paramScope p sized (.popSize2 p.text)) = true) ↔
    (t.clean true sized [.user p.text] [.user p.text] c = true ∧
      t.clean false sized [.user p.text] [.user p.text] d = true) := by
  have h1 : ∃ q, Ident.popSize1 p.text = .popSize1 q ∨ Ident.popSize1 p.text = .popSize2 q :=
    ⟨p.text, Or.inl rfl⟩
  have h2 : ∃ q, Ident.popSize2 p.text = .popSize1 q ∨ Ident.popSize2 p.text = .popSize2 q :=
    ⟨p.text, Or.inr rfl⟩
  have hm := t.hygienic_marshal (scoped_paramScope p sized c h1) (operand_paramScope p sized h1)
    (helper_paramScope p sized h1) (by simp [LVal.names, LVal.vars])
  have hd := t.hygienic_deMarshal (scoped_paramScope p sized d h2)
    (operand_paramScope p sized h2) (helper_paramScope p sized h2)
    (by simp [LVal.names, LVal.vars])
  have hsome : ∀ z : Ident, (if sized then some (Size.var ⟨1, z⟩) else none).isSome = sized := by
    intro z
    cases sized <;> rfl
  rw [hsome] at hm hd
  exact and_congr hm hd

/-- `struct Point { int x; };` -/
def pointStruct : DataType := .struct (some "Point") (.cons (.basic "int") "x" .nil)

/-- `struct Segment { Point ends[2]; };` -/
def segmentStruct : DataType :=
  .struct (some "Segment") (.cons (.array ⟨[⟨"2", 2, []⟩], by decide⟩ pointStruct) "ends" .nil)

/-- The parameter `Segment path[3]` can be marshalled, and the code that packs it initialises
the pointer to the inner elements from itself. -/
theorem capture_nested_array :
    (DataType.array ⟨[⟨"3", 3, []⟩], by decide⟩ segmentStruct).canMarshal = 1 ∧
    (DataType.array ⟨[⟨"3", 3, []⟩], by decide⟩ segmentStruct).marshalParam
        ⟨"path", by decide⟩ false 0 =
      .forElems segmentStruct ⟨2, .parocCount 0⟩ ⟨3, .popElem 0⟩
        (.card ⟨[⟨"3", 3, []⟩], by decide⟩) (.var ⟨0, .user "path"⟩)
        (.seq (.forElems pointStruct ⟨4, .parocCount 0⟩ ⟨5, .popElem 0⟩
            (.card ⟨[⟨"2", 2, []⟩], by decide⟩) (.field (.target ⟨3, .popElem 0⟩) 0 "ends")
            (.seq (.pack "int" (.field (.target ⟨5, .popElem 0⟩) 0 "x") .one) .skip)) .skip) ∧
    ((DataType.array ⟨[⟨"3", 3, []⟩], by decide⟩ segmentStruct).marshalParam
        ⟨"path", by decide⟩ false 0).hygienic
      (paramScope ⟨"path", by decide⟩ false (.popSize1 "path")) = false := by
  refine ⟨by decide, rfl, by decide⟩

end Parser
