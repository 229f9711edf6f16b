/-
# Running a stub

The lines of a stub are run on the variables and the buffer of its side.  The code of a parameter
is run on the machine of `Parser/Semantics.lean`, with the parameter as its object and the size
that has been declared for it; it has to be accepted by the compiler and to mean what the
generator means.  Lines that pack put the items of the values into the buffer, and lines that
unpack fill the variables with the values of the items, of one parameter and of several.
-/
import Mathlib.Data.List.Nodup
import PopCpp.Parser.RoundTrip
import PopCpp.Parser.Stubs

namespace Parser

open Simulation

/-! ### Running a stub -/

/-- Where a stub stands: its variables, the sizes that it has declared for parameters, with the
names of their variables, and its buffer. -/
structure Side (α : Type) where
  vars : String → Rose α
  sizes : String → Option (Ident × ℤ)
  buf : List (Item α)

/-- The values of the size expressions, in which the variables of the stub may occur. -/
abbrev SizeValues (α : Type) := String → (String → Rose α) → ℤ

/-- What is declared where the code of the parameter `x` begins. -/
def codeScope (size : Option Ident) (x : String) : List Var :=
  (size.map fun n => (⟨1, n⟩ : Var)).toList ++ [⟨0, .user x⟩]

section Run

variable {α : Type}

/-- The code of the parameter `x` begins: the parameter is the object 0 and its size the integer
1. -/
def Side.enter (s : Side α) (x : String) : State α where
  buf := s.buf
  ops := []
  ints := fun i => if i = 1 then ((s.sizes x).map Prod.snd).getD 0 else 0
  refs := fun _ => ⟨0, []⟩
  objs := fun i => if i = 0 then s.vars x else .node []

/-- The code of the parameter `x` has ended. -/
def Side.leave (s : Side α) (x : String) (σ : State α) : Side α :=
  { s with vars := Function.update s.vars x (σ.objs 0), buf := σ.buf }

variable [Inhabited α] (lt : KeyOrder α) (val : SizeValues α)

/-- A new element of a block, whose type has one star less than the parameter. -/
def newElement (base : DataType) (nptr : ℕ) : Rose α := if nptr ≤ 1 then base.init else .node []

/-- Run a line.  The procedures of the user are not part of the stub; the address of an object is
only handed to them. -/
def Line.run : Line → Side α → Option (Side α)
  | .declare type x _, s => some { s with vars := Function.update s.vars x type.init }
  | .container base nptr x n, s =>
    let count := match n with
      | some e => val e s.vars
      | none => ((s.sizes x).map Prod.snd).getD 0
    some { s with vars := Function.update s.vars x
                    (.node (List.replicate count.toNat (newElement base nptr))) }
  | .packSize x n, s =>
    some { s with sizes := Function.update s.sizes x (some (.popSize1 x, val n s.vars))
                  buf := s.buf ++ [.size (val n s.vars)] }
  | .unPackSize x, s =>
    match s.buf with
    | .size z :: rest =>
      some { s with sizes := Function.update s.sizes x (some (.popSize2 x, z)), buf := rest }
    | _ => none
  | .memspool, s => some s
  | .proc _ _ _ _ _ _, _ => none
  | .code _ true _, _ => none
  | .code x false stmt, s =>
    if stmt.hygienic (codeScope ((s.sizes x).map Prod.fst) x) then
      (execute lt stmt (s.enter x)).map (s.leave x)
    else none

/-- Run lines one after the other. -/
def runLines : List Line → Side α → Option (Side α)
  | [], s => some s
  | x :: xs, s => (x.run lt val s).bind (runLines xs)

end Run

/-! ### The code of a parameter -/

section Code

variable {α : Type} [Inhabited α] (lt : KeyOrder α) (val : SizeValues α)

/-- The size that is handed to the generators of the code of a parameter. -/
def sizeOperand (sized : Bool) (size : Ident) : Option Size :=
  if sized then some (.var ⟨1, size⟩) else none

/-- What is known of the size of a parameter where its code begins. -/
def sizeKnown (sized : Bool) (size : Ident) (v : Rose α) : Option (Ident × ℤ) :=
  if sized then some (size, v.children.length) else none

variable {t : DataType} {sized : Bool} {v w : Rose α} {s : Side α} {x : String} {size : Ident}
  {c : ℕ} {rest : List (Item α)}

lemma DataType.Sendable.decode_append (h : t.Sendable sized) (hv : t.HasType lt v)
    (hf : t.fits v) : ∃ a, t.encode v = some a ∧ ∀ w rest, t.HasType lt w →
      (sized → w.children.length = v.children.length) →
      t.decode lt w (a ++ rest) = some (v, rest) := by
  have hp := h.pointers
  cases sized with
  | false =>
    obtain ⟨a, ha, hdec⟩ := t.decode_encode lt v hp hv hf
    exact ⟨a, ha, fun w rest hw _ => hdec w rest hw⟩
  | true =>
    obtain ⟨a, ha, hdec⟩ := t.decode_encode_block lt v hp hv hf
    exact ⟨a, ha, fun w rest hw hlen => hdec w rest hw (hlen rfl)⟩

omit [Inhabited α] in
lemma start_enter {buf : List (Item α)} (hbuf : s.buf = buf)
    (hsize : s.sizes x = sizeKnown sized size (s.vars x)) :
    Start sized (s.vars x) buf (s.enter x) := by
  refine ⟨rfl, ?_, hbuf, rfl⟩
  rintro rfl
  simp [Side.enter, hsize, sizeKnown]

/-- The code that packs a parameter puts the items of its value into the buffer. -/
lemma run_code_marshal (h : t.Sendable sized) (hname : t.nameable = true)
    (hclean : (t.marshal (.var ⟨0, .user x⟩) (sizeOperand sized size) ⟨c, 2⟩).1.hygienic
      (codeScope (if sized then some size else none) x) = true)
    (hv : t.HasType lt (s.vars x)) (hf : t.fits (s.vars x))
    (hsize : s.sizes x = sizeKnown sized size (s.vars x)) :
    (Line.code x false (t.marshal (.var ⟨0, .user x⟩) (sizeOperand sized size) ⟨c, 2⟩).1).run
      lt val s = some { s with buf := s.buf ++ (t.encode (s.vars x)).getD [] } := by
  obtain ⟨a, ha, -⟩ := h.decode_append lt hv hf
  have hstart := start_enter rfl hsize
  have hbelow : (LVal.var ⟨0, .user x⟩).Below 2 := LVal.below_of_vars rfl (by simp)
  have hread : (s.enter x).read (LVal.loc (s.enter x) (.var ⟨0, .user x⟩)) = some (s.vars x) :=
    Rose.get?_nil
  have hp := h.pointers
  have hsim : Simulates
      (run lt (t.marshal (.var ⟨0, .user x⟩) (sizeOperand sized size) ⟨c, 2⟩).1 (s.enter x))
      (t.encode (s.vars x)) (Packed (s.enter x) 2) := by
    cases sized with
    | false => exact t.simulates_marshal lt hp hbelow hread hv
    | true =>
      exact t.simulates_marshal_block lt hp hbelow (by simp) (hstart.size rfl) hread hv
  obtain ⟨σ, hσ, hpacked⟩ := hsim.done a ha
  have hscope : codeScope ((s.sizes x).map Prod.fst) x =
      codeScope (if sized then some size else none) x := by
    rw [hsize, sizeKnown]
    split_ifs <;> rfl
  have hcompiles := (t.compiles_marshal (.var ⟨0, .user x⟩) (sizeOperand sized size)
    ⟨c, 2⟩).trans hname
  have hobj : σ.objs 0 = s.vars x := by
    rw [hpacked.objs]
    rfl
  rw [Line.run, hscope, if_pos hclean, execute, if_pos hcompiles, hσ, Option.map_some, Side.leave,
    hobj, Function.update_eq_self, hpacked.buf, ha]
  rfl

/-- The code that unpacks a parameter fills the variable with the value. -/
lemma run_code_deMarshal (h : t.Sendable sized) (hname : t.nameable = true)
    (hclean : (t.deMarshal (.var ⟨0, .user x⟩) (sizeOperand sized size) ⟨c, 2⟩).1.hygienic
      (codeScope (if sized then some size else none) x) = true)
    (hv : t.HasType lt v) (hf : t.fits v) (hw : t.HasType lt (s.vars x))
    (hlen : sized → (s.vars x).children.length = v.children.length)
    (hsize : s.sizes x = sizeKnown sized size v) (hbuf : s.buf = (t.encode v).getD [] ++ rest) :
    (Line.code x false (t.deMarshal (.var ⟨0, .user x⟩) (sizeOperand sized size) ⟨c, 2⟩).1).run
      lt val s = some { s with vars := Function.update s.vars x v, buf := rest } := by
  obtain ⟨a, ha, hdec⟩ := h.decode_append lt hv hf
  rw [ha, Option.getD_some] at hbuf
  have hsize' : s.sizes x = sizeKnown sized size (s.vars x) := by
    rw [hsize, sizeKnown, sizeKnown]
    split_ifs with hsized
    · rw [hlen hsized]
    · rfl
  have hstart := start_enter hbuf hsize'
  have hbelow : (LVal.var ⟨0, .user x⟩).Below 2 := LVal.below_of_vars rfl (by simp)
  have hread : (s.enter x).read (LVal.loc (s.enter x) (.var ⟨0, .user x⟩)) = some (s.vars x) :=
    Rose.get?_nil
  have hp := h.pointers
  have hsim : Simulates
      (run lt (t.deMarshal (.var ⟨0, .user x⟩) (sizeOperand sized size) ⟨c, 2⟩).1 (s.enter x))
      (t.decode lt (s.vars x) (a ++ rest)) (Filled (s.enter x) 2 ⟨0, []⟩) := by
    rw [← hstart.buf]
    cases sized with
    | false =>
      exact t.simulates_deMarshal lt hp hbelow (by simp [LVal.loc]) hread
        (t.holds_of_hasType lt hw)
    | true =>
      exact t.simulates_deMarshal_block lt hp hbelow (by simp) (hstart.size rfl)
        (by simp [LVal.loc]) hread (t.holds_of_hasType lt hw)
  obtain ⟨σ, hσ, hfilled⟩ := hsim.done _ (hdec (s.vars x) rest hw hlen)
  have hscope : codeScope ((s.sizes x).map Prod.fst) x =
      codeScope (if sized then some size else none) x := by
    rw [hsize, sizeKnown]
    split_ifs <;> rfl
  have hcompiles := (t.compiles_deMarshal (.var ⟨0, .user x⟩) (sizeOperand sized size)
    ⟨c, 2⟩).trans hname
  rw [Line.run, hscope, if_pos hclean, execute, if_pos hcompiles, hσ, Option.map_some, Side.leave,
    hfilled.obj_eq, hfilled.buf]

end Code

/-! ### Blocks -/

lemma DataType.isPointer_of_pointerFree : ∀ t : DataType, t.pointerFree → t.isPointer = 0
  | .basic _, _ => rfl
  | .array _ _, _ => rfl
  | .equal _ t, h => t.isPointer_of_pointerFree h
  | .struct _ _, _ => rfl
  | .seqClass _ _, _ => rfl
  | .seq _ _ _, _ => rfl
  | .map _ _ _, _ => rfl
  | .parClass _, _ => rfl

lemma DataType.isPointer_of_blockPointer : ∀ t : DataType, t.blockPointer → t.canMarshal ≠ 0 →
    t.isPointer = 1
  | .ptr n b, h, hc => by
    have hn : n = 1 := by
      by_contra hne
      exact hc (by simp [DataType.canMarshal, hne])
    simp [DataType.isPointer, b.isPointer_of_pointerFree h, hn]
  | .equal _ t, h, hc => t.isPointer_of_blockPointer h hc

section Blocks

variable {α : Type} [Inhabited α] (lt : KeyOrder α)

lemma DataType.init_getBaseType : ∀ t : DataType, t.pointerFree →
    ((t.getBaseType.getD t).init : Rose α) = t.init
  | .basic _, _ => rfl
  | .array _ _, _ => rfl
  | .equal _ t, h => by
    rw [DataType.getBaseType, Option.getD_some, t.init_getBaseType h, DataType.init]
  | .struct _ _, _ => rfl
  | .seqClass _ _, _ => rfl
  | .seq _ _ _, _ => rfl
  | .map _ _ _, _ => rfl
  | .parClass _, _ => rfl

/-- A block that is allocated for a pointer has its type. -/
lemma DataType.hasType_block (n : ℕ) : ∀ t : DataType, t.blockPointer →
    t.HasType lt (.node (List.replicate n (newElement (t.getBaseType.getD t) 1)) : Rose α)
  | .ptr k b, h => by
    refine ⟨_, rfl, fun u hu => ?_⟩
    rw [List.eq_of_mem_replicate hu, newElement, if_pos le_rfl, DataType.getBaseType,
      Option.getD_some, b.init_getBaseType h]
    exact b.hasType_init lt
  | .equal _ t, h => by
    rw [DataType.getBaseType, Option.getD_some, DataType.HasType]
    exact t.hasType_block n h

end Blocks

/-! ### The lines of a parameter -/

/-- The stubs of a parameter are accepted by the compiler, and do what the generator means. -/
structure Param.Sound (p : Param) : Prop where
  /-- No procedure of the user is called. -/
  noProc : p.marshalProc = none
  declared : p.isVoid = false
  sendable : p.mytype.Sendable p.paramSize.isSome
  nameable : p.mytype.nameable = true
  marshalClean : ∀ c, (p.mytype.marshal (.var ⟨0, .user p.name⟩)
    (sizeOperand p.paramSize.isSome (.popSize1 p.name)) ⟨c, 2⟩).1.hygienic
      (codeScope (if p.paramSize.isSome then some (.popSize1 p.name) else none) p.name) = true
  deMarshalClean : ∀ c, (p.mytype.deMarshal (.var ⟨0, .user p.name⟩)
    (sizeOperand p.paramSize.isSome (.popSize2 p.name)) ⟨c, 2⟩).1.hygienic
      (codeScope (if p.paramSize.isSome then some (.popSize2 p.name) else none) p.name) = true

section Lines

variable {α : Type} [Inhabited α] (lt : KeyOrder α) (val : SizeValues α)

/-- The items that a parameter is packed into, with its size in front. -/
def Param.items (p : Param) (v : Rose α) : List (Item α) :=
  (if p.paramSize.isSome then [.size v.children.length] else []) ++ (p.mytype.encode v).getD []

/-- The sizes that are declared after the code of a parameter. -/
def Param.declares (p : Param) (size : Ident) (v : Rose α) (sizes : String → Option (Ident × ℤ)) :
    String → Option (Ident × ℤ) :=
  if p.paramSize.isSome then Function.update sizes p.name (some (size, v.children.length))
  else sizes

variable {p : Param} {s : Side α} {v : Rose α} {rest : List (Item α)}

/-- A size expression that says how long the block of its parameter is. -/
def Param.Tells (p : Param) (vars : String → Rose α) (v : Rose α) : Prop :=
  ∀ n, p.paramSize = some n → val n vars = v.children.length

lemma Param.Sound.reformat (h : p.Sound) : p.reformat = false := by
  cases hsize : p.paramSize with
  | some n => simp [Param.reformat, hsize]
  | none =>
    have hfree := h.sendable.pointers
    simp only [hsize, Option.isSome_none, Bool.false_eq_true, if_false] at hfree
    simp [Param.reformat, DataType.isPointer_of_pointerFree _ hfree]

lemma Param.Sound.isPointer (h : p.Sound) {n : String} (hsize : p.paramSize = some n) :
    p.mytype.isPointer = 1 := by
  have hblock := h.sendable.pointers
  simp only [hsize, Option.isSome_some, if_true] at hblock
  exact DataType.isPointer_of_blockPointer _ hblock h.sendable.accepted

lemma runLines_singleton (x : Line) (s : Side α) : runLines lt val [x] s = x.run lt val s := by
  rw [runLines]
  cases x.run lt val s <;> rfl

lemma runLines_append (a b : List Line) (s : Side α) :
    runLines lt val (a ++ b) s = (runLines lt val a s).bind (runLines lt val b) := by
  induction a generalizing s with
  | nil => rfl
  | cons x a ih => simp only [List.cons_append, runLines, ih, Option.bind_assoc]

/-- The lines that pack a parameter. -/
lemma Param.Sound.marshal_eq (h : p.Sound) (side : Bool) (c : ℕ) :
    (p.marshal false side c).1 = (p.paramSize.toList.map fun n => .packSize p.name n) ++
      [.code p.name false (p.mytype.marshal (.var ⟨0, .user p.name⟩)
        (sizeOperand p.paramSize.isSome (.popSize1 p.name)) ⟨c, 2⟩).1] := by
  cases hsize : p.paramSize <;>
    simp [Param.marshal, Param.sizeinfo, h.noProc, hsize, sizeOperand]

/-- The lines that unpack a parameter, which allocate memory for a block if they have to. -/
lemma Param.Sound.unMarshal_eq (h : p.Sound) (alloc side : Bool) (c : ℕ) :
    (p.unMarshal false alloc side c).1 =
      (if p.paramSize.isSome then
        .unPackSize p.name :: if alloc then
          [.container (p.mytype.getBaseType.getD p.mytype) 1 p.name none] else []
      else []) ++
      [.code p.name false (p.mytype.deMarshal (.var ⟨0, .user p.name⟩)
        (sizeOperand p.paramSize.isSome (.popSize2 p.name)) ⟨c, 2⟩).1] := by
  cases hsize : p.paramSize with
  | none => simp [Param.unMarshal, Param.sizeinfo, h.noProc, hsize, sizeOperand]
  | some n =>
    simp [Param.unMarshal, Param.sizeinfo, h.noProc, hsize, sizeOperand, h.isPointer hsize]

/-- The caller or the broker packs a parameter. -/
lemma Param.Sound.run_marshal (h : p.Sound) (side : Bool) (c : ℕ)
    (hv : p.mytype.HasType lt (s.vars p.name)) (hf : p.mytype.fits (s.vars p.name))
    (hval : p.Tells val s.vars (s.vars p.name))
    (hsizes : p.paramSize = none → s.sizes p.name = none) :
    runLines lt val (p.marshal false side c).1 s =
      some ⟨s.vars, p.declares (.popSize1 p.name) (s.vars p.name) s.sizes,
        s.buf ++ p.items (s.vars p.name)⟩ := by
  -- the size, if there is one, has been declared and packed before the code of the type
  obtain ⟨s', hpack, hvars, hsizes', hbuf⟩ : ∃ s' : Side α,
      runLines lt val (p.paramSize.toList.map fun n => .packSize p.name n) s = some s' ∧
        s'.vars = s.vars ∧ s'.sizes = p.declares (.popSize1 p.name) (s.vars p.name) s.sizes ∧
        s'.buf = s.buf ++
          if p.paramSize.isSome then [.size (s.vars p.name).children.length] else [] := by
    cases hsize : p.paramSize with
    | none => exact ⟨s, rfl, rfl, by simp [Param.declares, hsize], by simp⟩
    | some n =>
      rw [Option.toList_some, List.map_singleton, runLines_singleton, Line.run, hval n hsize]
      exact ⟨_, rfl, rfl, by simp [Param.declares, hsize], by simp⟩
  have hknown : s'.sizes p.name =
      sizeKnown p.paramSize.isSome (.popSize1 p.name) (s'.vars p.name) := by
    rw [hsizes', hvars, Param.declares, sizeKnown]
    split_ifs with hsize
    · exact Function.update_self ..
    · exact hsizes (by simpa using hsize)
  have hcode := run_code_marshal (s := s') lt val h.sendable h.nameable
    (h.marshalClean c) (hvars ▸ hv) (hvars ▸ hf) hknown
  rw [h.marshal_eq, runLines_append, hpack, Option.bind_some, runLines_singleton, hcode, hvars,
    hsizes', hbuf, Param.items, List.append_assoc]

/-- The caller or the broker unpacks a parameter; the block that it is unpacked into is allocated
or has the right length. -/
lemma Param.Sound.run_unMarshal (h : p.Sound) (alloc side : Bool) (c : ℕ)
    (hv : p.mytype.HasType lt v) (hf : p.mytype.fits v)
    (hw : p.mytype.HasType lt (s.vars p.name))
    (hlen : alloc = false → p.paramSize.isSome = true →
      (s.vars p.name).children.length = v.children.length)
    (hsizes : p.paramSize = none → s.sizes p.name = none) (hbuf : s.buf = p.items v ++ rest) :
    runLines lt val (p.unMarshal false alloc side c).1 s =
      some ⟨Function.update s.vars p.name v, p.declares (.popSize2 p.name) v s.sizes, rest⟩ := by
  -- the size, if there is one, has been unpacked and the block been allocated
  obtain ⟨s', hunpack, hvars, hw', hlen', hsizes', hbuf'⟩ : ∃ s' : Side α,
      runLines lt val (if p.paramSize.isSome then
        .unPackSize p.name :: if alloc then
          [.container (p.mytype.getBaseType.getD p.mytype) 1 p.name none] else []
        else []) s = some s' ∧
        Function.update s'.vars p.name v = Function.update s.vars p.name v ∧
        p.mytype.HasType lt (s'.vars p.name) ∧
        (p.paramSize.isSome = true → (s'.vars p.name).children.length = v.children.length) ∧
        s'.sizes = p.declares (.popSize2 p.name) v s.sizes ∧
        s'.buf = (p.mytype.encode v).getD [] ++ rest := by
    cases hsize : p.paramSize with
    | none =>
      exact ⟨s, rfl, rfl, hw, by simp, by simp [Param.declares, hsize],
        by simpa [Param.items, hsize] using hbuf⟩
    | some n =>
      have hbuf : s.buf = .size v.children.length :: ((p.mytype.encode v).getD [] ++ rest) := by
        simpa [Param.items, hsize] using hbuf
      have hblock := h.sendable.pointers
      simp only [hsize, Option.isSome_some, if_true] at hblock
      let sizes := Function.update s.sizes p.name
        (some (.popSize2 p.name, (v.children.length : ℤ)))
      have hdeclares : sizes = p.declares (.popSize2 p.name) v s.sizes := by
        rw [Param.declares, hsize, Option.isSome_some, if_pos rfl]
      cases alloc with
      | false =>
        refine ⟨⟨s.vars, sizes, _⟩, ?_, rfl, hw, fun _ => hlen rfl (by rw [hsize]; rfl), hdeclares,
          rfl⟩
        simp [runLines, Line.run, hbuf, sizes]
      | true =>
        let block : Rose α := .node (List.replicate v.children.length
          (newElement (p.mytype.getBaseType.getD p.mytype) 1))
        have hvar : Function.update s.vars p.name block p.name = block := Function.update_self ..
        refine ⟨⟨Function.update s.vars p.name block, sizes, _⟩, ?_, Function.update_idem .., ?_,
          fun _ => ?_, hdeclares, rfl⟩
        · simp [runLines, Line.run, hbuf, sizes, block]
        · show p.mytype.HasType lt (Function.update s.vars p.name block p.name)
          rw [hvar]
          exact p.mytype.hasType_block lt _ hblock
        · show (Function.update s.vars p.name block p.name).children.length = _
          rw [hvar, Rose.children, List.length_replicate]
  have hknown : s'.sizes p.name = sizeKnown p.paramSize.isSome (.popSize2 p.name) v := by
    rw [hsizes', Param.declares, sizeKnown]
    split_ifs with hsize
    · exact Function.update_self ..
    · exact hsizes (by simpa using hsize)
  have hcode := run_code_deMarshal (s := s') lt val h.sendable
    h.nameable (h.deMarshalClean c) hv hf hw' hlen' hknown hbuf'
  rw [h.unMarshal_eq, runLines_append, hunpack, Option.bind_some, runLines_singleton, hcode,
    hvars, hsizes']

end Lines

/-! ### The lines of several parameters -/

/-- The variables `vars`, where those of the parameters have the values `w`. -/
def override {β : Type} (ps : List Param) (w vars : String → β) : String → β :=
  fun x => if ps.any fun p => p.name == x then w x else vars x

section Override

variable {β : Type} {ps : List Param} {p : Param} (w vars : String → β)

@[simp] lemma override_nil : override [] w vars = vars := rfl

lemma override_of_mem (hp : p ∈ ps) : override ps w vars p.name = w p.name :=
  if_pos (List.any_eq_true.mpr ⟨p, hp, beq_self_eq_true p.name⟩)

lemma override_of_ne {x : String} (hx : ∀ p ∈ ps, p.name ≠ x) : override ps w vars x = vars x :=
  if_neg fun h => by
    obtain ⟨p, hp, hname⟩ := List.any_eq_true.mp h
    exact hx p hp (beq_iff_eq.mp hname)

lemma override_cons (p : Param) :
    override ps w (Function.update vars p.name (w p.name)) = override (p :: ps) w vars := by
  funext x
  by_cases hx : p.name = x
  · subst hx
    rw [override_of_mem w vars List.mem_cons_self]
    by_cases hps : ∃ q ∈ ps, q.name = p.name
    · obtain ⟨q, hq, hname⟩ := hps
      rw [← hname, override_of_mem w _ hq]
    · rw [override_of_ne w _ fun q hq hname => hps ⟨q, hq, hname⟩, Function.update_self]
  · have hname : (p.name == x) = false := beq_eq_false_iff_ne.mpr hx
    simp only [override, List.any_cons, hname, Bool.false_or, Function.update_of_ne (Ne.symm hx)]

end Override

/-- The variables of a stub are distinct. -/
def Distinct (all : List Param) : Prop := ∀ p ∈ all, ∀ q ∈ all, p.name = q.name → p = q

/-- Only parameters with a size have declared one. -/
def OnlySized (all : List Param) (sizes : String → Option (Ident × ℤ)) : Prop :=
  ∀ p ∈ all, p.paramSize = none → sizes p.name = none

section Lists

variable {α : Type} [Inhabited α] (lt : KeyOrder α) (val : SizeValues α)

/-- A parameter whose stubs are sound has a value that survives. -/
structure Param.Travels (p : Param) (v : Rose α) : Prop where
  sound : p.Sound
  hasType : p.mytype.HasType lt v
  fits : p.mytype.fits v

variable {all : List Param} {rest : List (Item α)}

omit [Inhabited α] in
lemma OnlySized.declares {sizes : String → Option (Ident × ℤ)} (h : OnlySized all sizes)
    (hall : Distinct all) {p : Param} (hp : p ∈ all) (size : Ident) (v : Rose α) :
    OnlySized all (p.declares size v sizes) := by
  intro q hq hnone
  rw [Param.declares]
  split_ifs with hsize
  · have hne : q.name ≠ p.name := by
      intro hname
      rw [hall q hq p hp hname] at hnone
      rw [hnone] at hsize
      exact absurd hsize (by simp)
    rw [Function.update_of_ne hne]
    exact h q hq hnone
  · exact h q hq hnone

/-- One parameter after the other is packed. -/
lemma run_emitAll_marshal (hall : Distinct all) {f : Param → ℕ → List Line × ℕ} (side : Bool) :
    ∀ (ps : List Param) (c : ℕ) (s : Side α), (∀ p ∈ ps, p ∈ all ∧ f p = p.marshal false side ∧
        p.Travels lt (s.vars p.name) ∧ p.Tells val s.vars (s.vars p.name)) →
      OnlySized all s.sizes → ∃ sizes, OnlySized all sizes ∧
        runLines lt val (emitAll f ps c).1 s =
          some ⟨s.vars, sizes, s.buf ++ ps.flatMap fun p => p.items (s.vars p.name)⟩
  | [], c, s, _, hsizes => ⟨s.sizes, hsizes, by
      rw [List.flatMap_nil, List.append_nil]
      rfl⟩
  | p :: ps, c, s, hps, hsizes => by
    obtain ⟨hp, hf, htravels, htells⟩ := hps p List.mem_cons_self
    have hrun := htravels.sound.run_marshal lt val side c htravels.hasType htravels.fits htells
      (hsizes p hp)
    obtain ⟨sizes, hsizes', hrest⟩ := run_emitAll_marshal hall side ps (p.marshal false side c).2
      ⟨s.vars, p.declares (.popSize1 p.name) (s.vars p.name) s.sizes,
        s.buf ++ p.items (s.vars p.name)⟩
      (fun q hq => hps q (List.mem_cons_of_mem _ hq)) (hsizes.declares hall hp _ _)
    refine ⟨sizes, hsizes', ?_⟩
    rw [emitAll, runLines_append, hf, hrun, Option.bind_some, hrest, List.flatMap_cons,
      List.append_assoc]

/-- One parameter after the other is unpacked into the variables of the caller. -/
lemma run_emitAll_unMarshal (hall : Distinct all) {f : Param → ℕ → List Line × ℕ}
    (w : String → Rose α) :
    ∀ (ps : List Param) (c : ℕ) (s : Side α), (∀ p ∈ ps, p ∈ all ∧
        f p = p.unMarshal false false true ∧ p.Travels lt (w p.name) ∧
        p.mytype.HasType lt (s.vars p.name) ∧ (p.paramSize.isSome = true →
          (s.vars p.name).children.length = (w p.name).children.length)) →
      (ps.map Param.name).Nodup → OnlySized all s.sizes →
      s.buf = (ps.flatMap fun p => p.items (w p.name)) ++ rest →
      ∃ sizes, OnlySized all sizes ∧
        runLines lt val (emitAll f ps c).1 s = some ⟨override ps w s.vars, sizes, rest⟩
  | [], c, s, _, _, hsizes, hbuf => ⟨s.sizes, hsizes, by
      rw [override_nil]
      exact congrArg (fun buf => some (Side.mk s.vars s.sizes buf)) hbuf⟩
  | p :: ps, c, s, hps, hnodup, hsizes, hbuf => by
    obtain ⟨hp, hf, htravels, htype, hlen⟩ := hps p List.mem_cons_self
    obtain ⟨hnotin, hnodup⟩ := List.nodup_cons.mp hnodup
    rw [List.flatMap_cons, List.append_assoc] at hbuf
    have hrun := htravels.sound.run_unMarshal lt val false true c htravels.hasType htravels.fits
      htype (fun _ => hlen) (hsizes p hp) hbuf
    have hother : ∀ q ∈ ps, Function.update s.vars p.name (w p.name) q.name = s.vars q.name :=
      fun q hq => Function.update_of_ne
        (fun hname => hnotin (List.mem_map.mpr ⟨q, hq, hname⟩)) _ _
    obtain ⟨sizes, hsizes', hrest⟩ := run_emitAll_unMarshal hall w ps
      (p.unMarshal false false true c).2
      ⟨Function.update s.vars p.name (w p.name),
        p.declares (.popSize2 p.name) (w p.name) s.sizes, _⟩
      (fun q hq => by
        obtain ⟨hq', hf', htravels', htype', hlen'⟩ := hps q (List.mem_cons_of_mem _ hq)
        refine ⟨hq', hf', htravels', ?_, ?_⟩
        · exact (congrArg (q.mytype.HasType lt) (hother q hq)).mpr htype'
        · exact fun hsome => (congrArg (List.length ∘ Rose.children) (hother q hq)).trans
            (hlen' hsome))
      hnodup (hsizes.declares hall hp _ _) rfl
    refine ⟨sizes, hsizes', ?_⟩
    rw [emitAll, runLines_append, hf, hrun, Option.bind_some, hrest, override_cons]

/-- A variable of the broker for a parameter that only travels back; a block is as long as that
of the caller. -/
def Param.fresh (p : Param) (arg : Rose α) : Rose α :=
  if p.paramSize.isSome then
    .node (List.replicate arg.children.length
      (newElement (p.mytype.getBaseType.getD p.mytype) p.mytype.isPointer))
  else p.mytype.init

/-- The declaration of a parameter. -/
lemma Param.Sound.run_declare {p : Param} (h : p.Sound) (s : Side α) :
    runLines lt val (p.declareVariable false) s =
      some { s with vars := Function.update s.vars p.name p.mytype.init } := by
  simp [Param.declareVariable, h.declared, h.reformat, runLines, Line.run]

/-- The broker unpacks the parameters that travel to it into variables that it declares. -/
lemma run_brokerInputs (hall : Distinct all) (w : String → Rose α) :
    ∀ (ps : List Param) (pool : Bool) (c : ℕ) (s : Side α),
      (∀ p ∈ ps, p ∈ all ∧ (p.inParam = true → p.Travels lt (w p.name))) →
      OnlySized all s.sizes →
      s.buf = ((ps.filter Param.inParam).flatMap fun p => p.items (w p.name)) ++ rest →
      ∃ sizes, OnlySized all sizes ∧ runLines lt val (Method.brokerInputs ps pool c).1 s =
        some ⟨override (ps.filter Param.inParam) w s.vars, sizes, rest⟩
  | [], pool, c, s, _, hsizes, hbuf => ⟨s.sizes, hsizes,
      congrArg (fun buf => some (Side.mk s.vars s.sizes buf)) hbuf⟩
  | p :: ps, pool, c, s, hps, hsizes, hbuf => by
    obtain ⟨hp, htravels⟩ := hps p List.mem_cons_self
    have htail : ∀ q ∈ ps, q ∈ all ∧ (q.inParam = true → q.Travels lt (w q.name)) :=
      fun q hq => hps q (List.mem_cons_of_mem _ hq)
    by_cases hin : p.inParam = true
    · obtain ⟨hsound, htype, hfits⟩ := htravels hin
      rw [List.filter_cons_of_pos hin, List.flatMap_cons, List.append_assoc] at hbuf
      have hvar : p.mytype.HasType lt
          (Function.update s.vars p.name p.mytype.init p.name : Rose α) := by
        rw [Function.update_self]
        exact p.mytype.hasType_init lt
      have hrun := hsound.run_unMarshal
        (s := { s with vars := Function.update s.vars p.name p.mytype.init })
        lt val true false c htype hfits hvar (fun h => absurd h (by decide)) (hsizes p hp) hbuf
      obtain ⟨sizes, hsizes', hrest⟩ := run_brokerInputs hall w ps pool
        (p.unMarshal false true false c).2
        ⟨Function.update s.vars p.name (w p.name),
          p.declares (.popSize2 p.name) (w p.name) s.sizes, _⟩ htail
        (hsizes.declares hall hp (.popSize2 p.name) (w p.name)) rfl
      refine ⟨sizes, hsizes', ?_⟩
      have hpool : (p.marshalProc.isSome && !pool) = false := by
        rw [hsound.noProc]
        rfl
      simp only [Method.brokerInputs, hin, if_true, hpool, Bool.or_false, hsound.reformat,
        Bool.false_eq_true, if_false, List.append_nil]
      rw [runLines_append, runLines_append, hsound.run_declare, Option.bind_some, hrun,
        Option.bind_some, Function.update_idem, hrest, List.filter_cons_of_pos hin, override_cons]
    · obtain ⟨sizes, hsizes', hrest⟩ := run_brokerInputs hall w ps pool c s htail hsizes
        (by rwa [List.filter_cons_of_neg hin] at hbuf)
      refine ⟨sizes, hsizes', ?_⟩
      rw [Method.brokerInputs, if_neg hin, hrest, List.filter_cons_of_neg hin]

/-- The broker declares the variables for the parameters that only travel back, the sizes of
which can be found from the parameters `ins`. -/
lemma run_declareOutputs {ins : List Param} (args w : String → Rose α) :
    ∀ (ps : List Param) (s : Side α), (∀ p ∈ ps, p.Sound ∧ w p.name = p.fresh (args p.name) ∧
        (∀ q ∈ ins, p.name ≠ q.name) ∧
        ∀ vars : String → Rose α, (∀ q ∈ ins, vars q.name = args q.name) →
          p.Tells val vars (args p.name)) →
      (∀ q ∈ ins, s.vars q.name = args q.name) →
      runLines lt val (ps.flatMap fun p => p.declareVariable true) s =
        some { s with vars := override ps w s.vars }
  | [], s, _, _ => rfl
  | p :: ps, s, hps, hins => by
    obtain ⟨hsound, hw, hnotin, htells⟩ := hps p List.mem_cons_self
    have hins' : ∀ v : Rose α, ∀ q ∈ ins,
        Function.update s.vars p.name v q.name = args q.name := fun v q hq =>
      (Function.update_of_ne (hnotin q hq).symm _ _).trans (hins q hq)
    have hdeclare : runLines lt val (p.declareVariable true) s =
        some { s with vars := Function.update s.vars p.name (w p.name) } := by
      rw [hw]
      cases hsize : p.paramSize with
      | none =>
        simp [Param.declareVariable, hsound.declared, hsound.reformat, runLines, Line.run,
          Param.fresh, hsize]
      | some n =>
        have hval := htells _ (hins' p.mytype.init) n hsize
        simp [Param.declareVariable, hsound.declared, hsound.reformat, runLines, Line.run,
          Param.fresh, hsize, hsound.isPointer hsize, hval]
    rw [List.flatMap_cons, runLines_append, hdeclare, Option.bind_some,
      run_declareOutputs args w ps _ (fun q hq => hps q (List.mem_cons_of_mem _ hq)) (hins' _)]
    simp only [override_cons]

end Lists

end Parser
