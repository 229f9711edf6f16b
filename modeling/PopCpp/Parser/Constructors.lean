/-
# Constructor definitions

The lexer rewrites the definition of a constructor of a parallel class: the class is generated under
another name, the bases in the initialiser list as well, and a statement is put at the beginning of
the body.  The parts of the definition are read by `ReadUntil`, one call for the name of a base, one
for its arguments and one up to the next comma.

The brackets are counted anew in each call.  So the call for the arguments stops after the first
nested group, and a comma in what follows is taken for the end of the initialiser
(`Args.Clean`).  A literal is not read as one, and a brace or a semicolon ends the reading anywhere.
-/
import PopCpp.Lib.StdString
import PopCpp.Parser.ReadUntil

namespace Parser

open StdString

/-! ### The rule for qualified names -/

/-- Why there is no result. -/
inductive LexFailure where
  /-- `ERROR: .. Bad base class initialization` -/
  | exit
  /-- a null pointer or a buffer that has not been filled -/
  | undefined
  /-- the fuel of the model -/
  | fuel
deriving DecidableEq

/-- The byte of `,`. -/
def comma : UInt8 := 44

/-- The byte of `:`. -/
def colon : UInt8 := 58

/-- The byte of an opening brace. -/
def lbrace : UInt8 := 123

/-- The byte of `;`. -/
def semicolon : UInt8 := 59

/-- `postfix` -/
def popcPostfix : List UInt8 := bytesOf "_popcobject"

/-- A byte of a name: `[_a-zA-Z0-9]`. -/
def isNameByte (b : UInt8) : Bool :=
  decide (b = 95 ∨ 97 ≤ b ∧ b ≤ 122 ∨ 65 ≤ b ∧ b ≤ 90 ∨ 48 ≤ b ∧ b ≤ 57)

/-- `sscanf(buf, " %[_a-zA-Z0-9]", clname)`: without a name there `clname` stays. -/
def scanName (clname buf : List UInt8) : List UInt8 :=
  let name := (buf.dropWhile isspace).takeWhile isNameByte
  if name = [] then clname else name

/-- `FindClass`: the class is known. -/
def findClass (classlist : List (List UInt8)) (clname : List UInt8) : Bool :=
  classlist.any (· == clname)

/-- `strstr(buf, clname)` -/
def strstrAt (clname : List UInt8) : List UInt8 → Option ℕ
  | [] => if clname = [] then some 0 else none
  | b :: buf => if clname <+: b :: buf then some 0 else (strstrAt clname buf).map (· + 1)

/-- The text up to the arguments of a base, with the postfix after the name of a class. -/
def nameText (classlist : List (List UInt8)) (clname buf : List UInt8) : Option (List UInt8) :=
  if findClass classlist clname then
    (strstrAt clname buf).map fun i =>
      buf.take (i + clname.length) ++ popcPostfix ++ buf.drop (i + clname.length)
  else some buf

/-- The arguments of a base, and what comes up to the next comma; `name` is what has been emitted
before, and `next` goes on with the next base. -/
def readArgs (eof : UInt8) (name : List UInt8)
    (next : List UInt8 → Except LexFailure (List UInt8 × List UInt8)) (input : List UInt8) :
    Except LexFailure (List UInt8 × List UInt8) :=
  match readUntil eof [rparen, lbrace, semicolon] input with
  | none => .error .fuel
  | some (params, input) =>
      if params.getLast? ≠ some rparen then .ok (name ++ params, input)
      else
        match readUntil eof [comma, lbrace, semicolon] input with
        | none => .error .fuel
        | some (separator, input) =>
            if separator.getLast? ≠ some comma then .ok (name ++ (params ++ separator), input)
            else (next input).map fun r => (name ++ (params ++ separator ++ r.1), r.2)

/-- The loop over the bases: what is emitted, and the rest of the input. -/
def initLoop (eof : UInt8) (classlist : List (List UInt8)) :
    ℕ → List UInt8 → List UInt8 → Except LexFailure (List UInt8 × List UInt8)
  | 0, _, _ => .error .fuel
  | fuel + 1, clname, input =>
      match readUntil eof [lparen, lbrace, semicolon] input with
      | none => .error .fuel
      | some (buf, input) =>
          if buf = [] then .ok ([], input)
          else if buf.getLast? ≠ some lparen then .error .exit
          else
            match nameText classlist (scanName clname buf) buf with
            | none => .error .undefined
            | some name =>
                readArgs eof name (initLoop eof classlist fuel (scanName clname buf)) input

/-- `thisBuf` -/
def thisText (clname : List UInt8) : List UInt8 :=
  bytesOf "__POPThis_" ++ clname ++ bytesOf "=new " ++ clname ++
    bytesOf "(GetAccessPointForThis()); __POPThis_" ++ clname ++ bytesOf "->_popc_async=false;"

/-- After the name of a constructor: its parameters and bases. -/
def constructorRest (eof : UInt8) (classlist : List (List UInt8)) (clname input : List UInt8) :
    Except LexFailure (List UInt8 × List UInt8) :=
  match readUntil eof [rparen, semicolon, lbrace] input with
  | none => .error .fuel
  | some (params, input) =>
      if params.getLast? ≠ some rparen then
        if params.getLast? ≠ some colon then .ok (params, input)
        else (initLoop eof classlist (input.length + 1) clname input).map fun r =>
          (params ++ r.1, r.2)
      else
        match readUntil eof [colon, semicolon, lbrace] input with
        | none => .error .fuel
        | some (buf, input) =>
            if buf.getLast? ≠ some colon then .ok (params ++ buf, input)
            else (initLoop eof classlist (input.length + 1) clname input).map fun r =>
              (params ++ buf ++ r.1, r.2)

/-- The action for a qualified name: what is emitted, and the rest of the input.  For a collective
class `thisBuf` is not filled. -/
def qualifiedName (eof : UInt8) (classlist : List (List UInt8)) (collective : Bool)
    (yytext input : List UInt8) : Except LexFailure (List UInt8 × List UInt8) :=
  let clname := yytext.takeWhile fun b => !isspace b && b != colon
  let rest := yytext.drop clname.length
  if findClass classlist clname then
    if clname = rest.dropWhile (fun b => isspace b || b == colon) then
      match constructorRest eof classlist clname input with
      | .error e => .error e
      | .ok (out, input) =>
          if collective then .error .undefined
          else .ok (clname ++ popcPostfix ++ rest ++ popcPostfix ++ out ++ thisText clname, input)
    else .ok (clname ++ popcPostfix ++ rest, input)
  else .ok (yytext, input)

@[simp]
lemma findClass_iff {classlist : List (List UInt8)} {clname : List UInt8} :
    findClass classlist clname = true ↔ clname ∈ classlist := by
  simp [findClass]

/-! ### The fuel is enough -/

section Fuel

variable {eof : UInt8} {classlist : List (List UInt8)} {clname name input : List UInt8}
  {next : List UInt8 → Except LexFailure (List UInt8 × List UInt8)} {fuel : ℕ}

lemma map_ne_fuel {x : Except LexFailure (List UInt8 × List UInt8)}
    (h : x ≠ .error .fuel) (f : List UInt8 × List UInt8 → List UInt8 × List UInt8) :
    x.map f ≠ .error .fuel := by
  cases x with
  | error e =>
      rintro ⟨⟩
      exact h rfl
  | ok r => exact nofun

lemma readArgs_ne_fuel (h : ∀ rest, rest.length ≤ input.length → next rest ≠ .error .fuel) :
    readArgs eof name next input ≠ .error .fuel := by
  obtain ⟨params, input', hparams, hlength, -⟩ :=
    exists_readUntil eof input (by decide : ¬Stops [rparen, lbrace, semicolon] 1)
  obtain ⟨separator, rest, hseparator, hrest, -⟩ :=
    exists_readUntil eof input' (by decide : ¬Stops [comma, lbrace, semicolon] 1)
  rw [readArgs, hparams]
  dsimp only
  split_ifs
  · exact nofun
  rw [hseparator]
  dsimp only
  split_ifs
  · exact nofun
  · exact map_ne_fuel (h rest (by omega)) _

/-- Each initialiser takes at least one byte, and the end of the input is no bracket. -/
lemma initLoop_ne_fuel (heof : eof ≠ lparen) (hfuel : input.length < fuel) :
    initLoop eof classlist fuel clname input ≠ .error .fuel := by
  induction fuel generalizing clname input with
  | zero => exact absurd hfuel (Nat.not_lt_zero _)
  | succ fuel ih =>
      obtain ⟨buf, rest, hread, hlength, hnil⟩ :=
        exists_readUntil eof input (by decide : ¬Stops [lparen, lbrace, semicolon] 1)
      rw [initLoop, hread]
      dsimp only
      split_ifs with hbuf hlast
      · exact nofun
      · exact nofun
      split
      · exact nofun
      refine readArgs_ne_fuel fun rest' hrest' => ih ?_
      have hne : input ≠ [] := by
        rintro rfl
        rw [hnil rfl] at hlast
        exact hlast fun h => heof (Option.some.inj h)
      have hpos := List.length_pos_of_ne_nil hne
      omega

lemma constructorRest_ne_fuel (heof : eof ≠ lparen) :
    constructorRest eof classlist clname input ≠ .error .fuel := by
  obtain ⟨params, input', hparams, -, -⟩ :=
    exists_readUntil eof input (by decide : ¬Stops [rparen, semicolon, lbrace] 1)
  obtain ⟨buf, rest, hbuf, -, -⟩ :=
    exists_readUntil eof input' (by decide : ¬Stops [colon, semicolon, lbrace] 1)
  rw [constructorRest, hparams]
  dsimp only
  split_ifs
  · exact nofun
  · exact map_ne_fuel (initLoop_ne_fuel heof (Nat.lt_succ_self _)) _
  rw [hbuf]
  dsimp only
  split_ifs
  · exact nofun
  · exact map_ne_fuel (initLoop_ne_fuel heof (Nat.lt_succ_self _)) _

/-- The fuel is enough. -/
theorem qualifiedName_ne_fuel {yytext : List UInt8} {collective : Bool} (heof : eof ≠ lparen) :
    qualifiedName eof classlist collective yytext input ≠ .error .fuel := by
  unfold qualifiedName
  extract_lets clname rest
  have hrest : constructorRest eof classlist clname input ≠ .error .fuel :=
    constructorRest_ne_fuel heof
  by_cases hclass : findClass classlist clname
  · by_cases hname : clname = rest.dropWhile fun b => isspace b || b == colon
    · rw [if_pos hclass, if_pos hname]
      cases hresult : constructorRest eof classlist clname input with
      | error e =>
          rintro ⟨⟩
          exact hrest hresult
      | ok r => cases collective <;> exact nofun
    · rw [if_pos hclass, if_neg hname]
      exact nofun
  · rw [if_neg hclass]
    exact nofun

end Fuel

/-! ### Definitions of constructors -/

/-- White space. -/
structure Blanks where
  bytes : List UInt8
  spaces : ∀ b ∈ bytes, isspace b = true

/-- A name. -/
structure BaseName where
  bytes : List UInt8
  nonempty : bytes ≠ []
  nameBytes : ∀ b ∈ bytes, isNameByte b = true
  notDigit : ∀ b, bytes.head? = some b → isdigit b = false

/-- The byte disturbs the reading anywhere: a quote, a brace or a semicolon. -/
def Disturbs (b : UInt8) : Prop := IsQuote b ∨ b = lbrace ∨ b = semicolon

/-- Parameters or arguments: bytes, literals and nested groups. -/
inductive Args where
  | nil
  | plain (b : UInt8)
      (h : b ≠ 0 ∧ b ≠ dquote ∧ b ≠ squote ∧ b ≠ lparen ∧ b ≠ rparen) (rest : Args)
  | literal (l : Literal) (h : 0 ∉ l.text) (rest : Args)
  | group (inner rest : Args)

namespace Args

def text : Args → List UInt8
  | nil => []
  | plain b _ rest => b :: rest.text
  | literal l _ rest => l.text ++ rest.text
  | group inner rest => lparen :: (inner.text ++ rparen :: rest.text)

/-- What comes after the first nested group. -/
def late : Args → List UInt8
  | nil => []
  | plain _ _ rest => rest.late
  | literal _ _ rest => rest.late
  | group _ rest => rest.text

/-- There is no literal, no brace and no semicolon. -/
def Undisturbed (a : Args) : Prop := ∀ b ∈ a.text, ¬Disturbs b

/-- Besides, no comma comes after the first nested group. -/
structure Clean (a : Args) : Prop where
  undisturbed : a.Undisturbed
  commas : comma ∉ a.late

end Args

/-- A base or a member in an initialiser list, with its arguments. -/
structure Init where
  before : Blanks
  name : BaseName
  mid : Blanks
  args : Args
  after : Blanks

/-- The text of it, with the name replaced. -/
def Init.render (f : List UInt8 → List UInt8) (i : Init) : List UInt8 :=
  i.before.bytes ++ f i.name.bytes ++ i.mid.bytes ++
    lparen :: (i.args.text ++ rparen :: i.after.bytes)

/-- What ends an initialiser. -/
def closing (inits : List Init) : UInt8 := if inits.isEmpty then lbrace else comma

/-- The text of an initialiser list, with the brace after it. -/
def renderInits (f : List UInt8 → List UInt8) : List Init → List UInt8
  | [] => []
  | i :: inits => i.render f ++ closing inits :: renderInits f inits

/-- `C::C(params) : b1(args1), .., bk(argsk) {`; nothing is initialised twice. -/
structure ConstructorDef where
  name : BaseName
  beforeScope : Blanks
  afterScope : Blanks
  beforeParams : Blanks
  params : Args
  afterParams : Blanks
  inits : List Init
  nodup : (inits.map fun i => i.name.bytes).Nodup

namespace ConstructorDef

variable (d : ConstructorDef) (f : List UInt8 → List UInt8)

/-- `C::C` -/
def qualified : List UInt8 :=
  f d.name.bytes ++ d.beforeScope.bytes ++ colon :: colon :: (d.afterScope.bytes ++ f d.name.bytes)

/-- What comes after it, up to the brace. -/
def header : List UInt8 :=
  d.beforeParams.bytes ++ lparen :: (d.params.text ++ rparen :: (d.afterParams.bytes ++
    if d.inits = [] then [lbrace] else colon :: renderInits f d.inits))

/-- The definition up to the brace, with names replaced. -/
def render : List UInt8 := d.qualified f ++ d.header f

/-- Everything is read as it is meant, and `thisBuf` is filled. -/
structure Clean (collective : Bool) : Prop where
  single : collective = false
  params : d.params.Undisturbed
  inits : ∀ i ∈ d.inits, i.args.Clean

end ConstructorDef

/-- The name as it is generated. -/
def generated (classlist : List (List UInt8)) (name : List UInt8) : List UInt8 :=
  if findClass classlist name then name ++ popcPostfix else name

/-- Whatever the other classes are and whatever comes after the definition, it is emitted with the
names of the classes replaced and the statement after it, and nothing more is read. -/
def ConstructorDef.Rewritten (d : ConstructorDef) (eof : UInt8) (collective : Bool) : Prop :=
  ∀ (classlist : List (List UInt8)) (rest : List UInt8), d.name.bytes ∈ classlist →
    qualifiedName eof classlist collective (d.qualified id) (d.header id ++ rest) =
      .ok (d.render (generated classlist) ++ thisText d.name.bytes, rest)

/-! ### Reading arguments -/

section Reading

variable {sep u v : List UInt8} {bracket : ℤ} {ch : UInt8}

/-- The byte is no quote, and a closing bracket if it is in the set. -/
def Allowed (sep : List UInt8) (ch : UInt8) : Prop :=
  ch ≠ dquote ∧ ch ≠ squote ∧ (ch ∈ sep → ch = rparen)

lemma Literal.text_eq_cons (l : Literal) : ∃ ch w, IsQuote ch ∧ l.text = ch :: w := by
  cases l with
  | string body _ => exact ⟨dquote, _, .inl rfl, rfl⟩
  | char body _ _ => exact ⟨squote, _, .inr rfl, rfl⟩

lemma Allowed.not_isQuote (h : Allowed sep ch) : ¬IsQuote ch := not_or.mpr ⟨h.1, h.2.1⟩

lemma passes_lparen (hone : 1 ∉ sep) (hlparen : Allowed sep lparen) {bracket' : ℤ}
    (h : Passes sep (bracket + 1) u bracket') : Passes sep bracket (lparen :: u) bracket' :=
  ⟨by decide, by decide, not_stops_shownByte hone (by decide)
    fun hmem => absurd (hlparen.2.2 hmem) (by decide), h⟩

/-- A closing bracket within brackets. -/
lemma passes_rparen (hone : 1 ∉ sep) (hbracket : 1 < bracket) {bracket' : ℤ}
    (h : Passes sep (bracket - 1) u bracket') : Passes sep bracket (rparen :: u) bracket' := by
  have hcount : countBracket bracket rparen = bracket - 1 := rfl
  refine ⟨by decide, by decide, ?_, h⟩
  rw [shownByte, if_pos ⟨rfl, by rw [hcount]; omega⟩]
  exact not_or.mpr ⟨by decide, hone⟩

/-- Within brackets the reading goes on through arguments, or through the beginning of them. -/
lemma Args.exists_passes (hone : 1 ∉ sep) (hlparen : Allowed sep lparen) (a : Args) :
    ∀ {u v : List UInt8} {bracket : ℤ}, a.text = u ++ v → (∀ ch ∈ u, Allowed sep ch) →
      0 < bracket → ∃ bracket' ≥ bracket, Passes sep bracket u bracket' ∧
        (v = [] → bracket' = bracket) := by
  induction a with
  | nil =>
      intro u v bracket h _ _
      obtain ⟨rfl, rfl⟩ := List.append_eq_nil_iff.mp h.symm
      exact ⟨bracket, le_refl _, rfl, fun _ => rfl⟩
  | plain b hb rest ih =>
      intro u v bracket h hallowed hpos
      rcases List.cons_eq_append_iff.mp h with ⟨rfl, rfl⟩ | ⟨u, rfl, hu⟩
      · exact ⟨bracket, le_refl _, rfl, nofun⟩
      · have hcount : countBracket bracket b = bracket := by
          rw [countBracket, if_neg hb.2.2.2.1, if_neg hb.2.2.2.2]
        obtain ⟨bracket', hle, hpasses, hend⟩ :=
          ih hu (fun ch hch => hallowed ch (List.mem_cons_of_mem _ hch)) hpos
        refine ⟨bracket', hle, ⟨hb.2.1, hb.2.2.1, ?_, hcount.symm ▸ hpasses⟩, hend⟩
        exact not_stops_shownByte hone hb.1 fun hmem =>
          hb.2.2.2.2 ((hallowed b List.mem_cons_self).2.2 hmem)
  | literal l hl rest ih =>
      intro u v bracket h hallowed _
      obtain ⟨ch, w, hquote, htext⟩ := l.text_eq_cons
      cases u with
      | nil =>
          refine ⟨bracket, le_refl _, rfl, fun hv => ?_⟩
          rw [Args.text, htext, hv] at h
      | cons ch' u =>
          rw [Args.text, htext] at h
          obtain ⟨rfl, -⟩ := List.cons.inj h
          exact absurd hquote (hallowed ch List.mem_cons_self).not_isQuote
  | group inner rest ihinner ihrest =>
      intro u v bracket h hallowed hpos
      rcases List.cons_eq_append_iff.mp h with ⟨rfl, rfl⟩ | ⟨u, rfl, hu⟩
      · exact ⟨bracket, le_refl _, rfl, nofun⟩
      have hallowed' : ∀ ch ∈ u, Allowed sep ch := fun ch hch =>
        hallowed ch (List.mem_cons_of_mem _ hch)
      rcases List.append_eq_append_iff.mp hu with ⟨w, rfl, hw⟩ | ⟨w, htext, rfl⟩
      · -- the group is read to its end
        have hinner : ∀ ch ∈ inner.text, Allowed sep ch := fun ch hch =>
          hallowed' ch (List.mem_append_left _ hch)
        obtain ⟨_, -, hpasses, hend⟩ :=
          ihinner (List.append_nil inner.text).symm hinner (by omega : 0 < bracket + 1)
        rw [hend rfl] at hpasses
        rcases List.cons_eq_append_iff.mp hw with ⟨rfl, rfl⟩ | ⟨w, rfl, hrest⟩
        · rw [List.append_nil]
          exact ⟨bracket + 1, by omega, passes_lparen hone hlparen hpasses, nofun⟩
        · obtain ⟨bracket', hle, hpasses', hend⟩ := ihrest hrest (fun ch hch =>
            hallowed' ch (List.mem_append_right _ (List.mem_cons_of_mem _ hch))) hpos
          refine ⟨bracket', hle, passes_lparen hone hlparen (hpasses.append ?_), hend⟩
          exact passes_rparen hone (by omega) (by rwa [Int.add_sub_cancel])
      · obtain ⟨bracket', hle, hpasses, -⟩ :=
          ihinner htext hallowed' (by omega : 0 < bracket + 1)
        exact ⟨bracket', by omega, passes_lparen hone hlparen hpasses, by simp⟩

/-- What is read as the arguments, without the last byte: everything up to the end of the first
nested group. -/
def Args.head : Args → List UInt8
  | nil => []
  | plain b _ rest => b :: rest.head
  | literal l _ rest => l.text ++ rest.head
  | group inner _ => lparen :: inner.text

/-- What is left over then. -/
def Args.tail : Args → List UInt8
  | nil => []
  | plain _ _ rest => rest.tail
  | literal _ _ rest => rest.tail
  | group _ rest => rest.text ++ [rparen]

lemma Args.text_append (a : Args) (w : List UInt8) :
    a.text ++ rparen :: w = a.head ++ rparen :: (a.tail ++ w) := by
  induction a with
  | nil => rfl
  | plain b hb rest ih => exact congrArg (b :: ·) ih
  | literal l hl rest ih =>
      rw [Args.text, Args.head, Args.tail, List.append_assoc, ih, List.append_assoc]
  | group inner rest =>
      simp [Args.text, Args.head, Args.tail]

lemma Args.exists_passes_head (hone : 1 ∉ sep) (hlparen : Allowed sep lparen) (a : Args) :
    ∀ {u v : List UInt8}, a.head = u ++ v → (∀ ch ∈ u, Allowed sep ch) →
      ∃ bracket, Passes sep 0 u bracket ∧ (v = [] → bracket ≤ 1) := by
  induction a with
  | nil =>
      intro u v h _
      obtain ⟨rfl, rfl⟩ := List.append_eq_nil_iff.mp h.symm
      exact ⟨0, rfl, fun _ => Int.one_nonneg⟩
  | plain b hb rest ih =>
      intro u v h hallowed
      rcases List.cons_eq_append_iff.mp h with ⟨rfl, rfl⟩ | ⟨u, rfl, hu⟩
      · exact ⟨0, rfl, nofun⟩
      · have hcount : countBracket 0 b = 0 := by
          rw [countBracket, if_neg hb.2.2.2.1, if_neg hb.2.2.2.2]
        obtain ⟨bracket, hpasses, hend⟩ :=
          ih hu fun ch hch => hallowed ch (List.mem_cons_of_mem _ hch)
        refine ⟨bracket, ⟨hb.2.1, hb.2.2.1, ?_, hcount.symm ▸ hpasses⟩, hend⟩
        exact not_stops_shownByte hone hb.1 fun hmem =>
          hb.2.2.2.2 ((hallowed b List.mem_cons_self).2.2 hmem)
  | literal l hl rest ih =>
      intro u v h hallowed
      obtain ⟨ch, w, hquote, htext⟩ := l.text_eq_cons
      cases u with
      | nil => exact ⟨0, rfl, fun _ => Int.one_nonneg⟩
      | cons ch' u =>
          rw [Args.head, htext] at h
          obtain ⟨rfl, -⟩ := List.cons.inj h
          exact absurd hquote (hallowed ch List.mem_cons_self).not_isQuote
  | group inner rest =>
      intro u v h hallowed
      rcases List.cons_eq_append_iff.mp h with ⟨rfl, rfl⟩ | ⟨u, rfl, hu⟩
      · exact ⟨0, rfl, nofun⟩
      · obtain ⟨bracket, -, hpasses, hend⟩ := inner.exists_passes hone hlparen hu
          (fun ch hch => hallowed ch (List.mem_cons_of_mem _ hch)) (by decide : (0 : ℤ) < 1)
        exact ⟨bracket, passes_lparen hone hlparen hpasses, fun hv => (hend hv).le⟩

end Reading

/-! ### Reading a name -/

lemma not_isspace_of_isNameByte {b : UInt8} (h : isNameByte b = true) : isspace b = false := by
  rw [isNameByte, decide_eq_true_iff] at h
  refine decide_eq_false_iff_not.mpr fun hspace => ?_
  simp only [UInt8.le_iff_toNat_le, ← UInt8.toNat_inj, UInt8.reduceToNat] at h hspace
  omega

lemma not_isNameByte_of_isspace {b : UInt8} (h : isspace b = true) : isNameByte b = false :=
  Bool.eq_false_iff.mpr fun hname => by
    rw [not_isspace_of_isNameByte hname] at h
    cases h

namespace BaseName

lemma not_isspace (name : BaseName) : ∀ b ∈ name.bytes, isspace b = false := fun b hb =>
  not_isspace_of_isNameByte (name.nameBytes b hb)

/-- Bytes that are not in a name. -/
lemma ne_of_mem {name : BaseName} {b c : UInt8} (hb : b ∈ name.bytes) (hc : isNameByte c = false) :
    b ≠ c := by
  rintro rfl
  rw [name.nameBytes b hb] at hc
  cases hc

end BaseName

lemma dropWhile_eq {p : UInt8 → Bool} {w v : List UInt8} (hw : ∀ b ∈ w, p b = true)
    (hv : ∀ b, v.head? = some b → p b = false) : (w ++ v).dropWhile p = v := by
  rw [List.dropWhile_append_of_pos hw]
  cases v with
  | nil => rfl
  | cons b v => exact List.dropWhile_cons_of_neg (by rw [hv b rfl]; exact Bool.false_ne_true)

lemma takeWhile_eq {p : UInt8 → Bool} {w v : List UInt8} (hw : ∀ b ∈ w, p b = true)
    (hv : ∀ b, v.head? = some b → p b = false) : (w ++ v).takeWhile p = w := by
  rw [List.takeWhile_append_of_pos hw]
  cases v with
  | nil => simp
  | cons b v =>
      rw [List.takeWhile_cons_of_neg (by rw [hv b rfl]; exact Bool.false_ne_true), List.append_nil]

lemma head?_blanks_append (ws : Blanks) (b : UInt8) (w : List UInt8) {c : UInt8}
    (h : (ws.bytes ++ b :: w).head? = some c) : isspace c = true ∨ c = b := by
  obtain ⟨l, hl⟩ := ws
  cases l with
  | nil => exact .inr (Option.some.inj h).symm
  | cons c' l =>
      obtain rfl : c' = c := Option.some.inj h
      exact .inl (hl c' List.mem_cons_self)

section Names

variable {classlist : List (List UInt8)} {clname : List UInt8} (before mid : Blanks)
  (name : BaseName)

lemma scanName_eq :
    scanName clname (before.bytes ++ (name.bytes ++ (mid.bytes ++ [lparen]))) = name.bytes := by
  have hdrop : (before.bytes ++ (name.bytes ++ (mid.bytes ++ [lparen]))).dropWhile isspace =
      name.bytes ++ (mid.bytes ++ [lparen]) := by
    refine dropWhile_eq before.spaces fun b hb => ?_
    rw [List.head?_append_of_ne_nil _ name.nonempty] at hb
    exact name.not_isspace b (List.mem_of_mem_head? hb)
  have htake : (name.bytes ++ (mid.bytes ++ [lparen])).takeWhile isNameByte = name.bytes := by
    refine takeWhile_eq name.nameBytes fun b hb => ?_
    rcases head?_blanks_append mid lparen [] hb with hb | rfl
    · exact not_isNameByte_of_isspace hb
    · rfl
  rw [scanName, hdrop, htake]
  exact if_neg name.nonempty

/-- The first place of a name after white space. -/
lemma strstrAt_blanks {clname : List UInt8} (hne : clname ≠ [])
    (hname : ∀ b, clname.head? = some b → isspace b = false) (w : List UInt8) :
    ∀ ws : List UInt8, (∀ b ∈ ws, isspace b = true) →
      strstrAt clname (ws ++ (clname ++ w)) = some ws.length
  | [], _ => by
    obtain ⟨b, l, rfl⟩ := List.exists_cons_of_ne_nil hne
    exact if_pos (List.prefix_append (b :: l) w)
  | b :: ws, h => by
    have hbegins : ¬clname <+: b :: (ws ++ (clname ++ w)) := by
      obtain ⟨c, l, rfl⟩ := List.exists_cons_of_ne_nil hne
      intro hbegins
      obtain ⟨rfl, -⟩ := List.cons_prefix_cons.mp hbegins
      have hspace := h c List.mem_cons_self
      rw [hname c rfl] at hspace
      cases hspace
    rw [List.cons_append, strstrAt, if_neg hbegins,
      strstrAt_blanks hne hname w ws fun b hb => h b (List.mem_cons_of_mem _ hb)]
    rfl

/-- Where a text is found. -/
lemma exists_of_strstrAt {clname : List UInt8} : ∀ {buf : List UInt8} {i : ℕ},
    strstrAt clname buf = some i → ∃ w v, buf = w ++ (clname ++ v) ∧ i = w.length
  | [], i, h => by
    rw [strstrAt] at h
    split_ifs at h with hnil
    exact ⟨[], [], by rw [hnil]; rfl, (Option.some.inj h).symm⟩
  | b :: buf, i, h => by
    rw [strstrAt] at h
    split_ifs at h with hbegins
    · obtain ⟨v, hv⟩ := hbegins
      exact ⟨[], v, hv.symm, (Option.some.inj h).symm⟩
    · obtain ⟨j, hj, rfl⟩ := Option.map_eq_some_iff.mp h
      obtain ⟨w, v, rfl, rfl⟩ := exists_of_strstrAt hj
      exact ⟨b :: w, v, rfl, rfl⟩

/-- The postfix is put after a place where the name is found. -/
lemma nameText_of_strstrAt {w v : List UInt8} (hmem : clname ∈ classlist)
    (h : strstrAt clname (w ++ (clname ++ v)) = some w.length) :
    nameText classlist clname (w ++ (clname ++ v)) =
      some (w ++ (clname ++ (popcPostfix ++ v))) := by
  have htake : (w ++ (clname ++ v)).take (w.length + clname.length) = w ++ clname := by
    rw [← List.append_assoc, ← List.length_append, List.take_left]
  have hdrop : (w ++ (clname ++ v)).drop (w.length + clname.length) = v := by
    rw [← List.append_assoc, ← List.length_append, List.drop_left]
  rw [nameText, if_pos (findClass_iff.mpr hmem), h, Option.map_some, htake, hdrop]
  simp

lemma exists_of_nameText {buf text : List UInt8} (hmem : clname ∈ classlist)
    (h : nameText classlist clname buf = some text) :
    ∃ w v, buf = w ++ (clname ++ v) ∧ text = w ++ (clname ++ (popcPostfix ++ v)) := by
  have hmap := h
  rw [nameText, if_pos (findClass_iff.mpr hmem)] at hmap
  obtain ⟨i, hfind, -⟩ := Option.map_eq_some_iff.mp hmap
  obtain ⟨w, v, rfl, rfl⟩ := exists_of_strstrAt hfind
  rw [nameText_of_strstrAt hmem hfind] at h
  exact ⟨w, v, rfl, (Option.some.inj h).symm⟩

lemma nameText_eq :
    nameText classlist name.bytes (before.bytes ++ (name.bytes ++ (mid.bytes ++ [lparen]))) =
      some (before.bytes ++ (generated classlist name.bytes ++ (mid.bytes ++ [lparen]))) := by
  by_cases hmem : name.bytes ∈ classlist
  · have hfind := strstrAt_blanks name.nonempty (fun b hb => name.not_isspace b
      (List.mem_of_mem_head? hb)) (mid.bytes ++ [lparen]) before.bytes before.spaces
    rw [nameText_of_strstrAt hmem hfind, generated, if_pos (findClass_iff.mpr hmem),
      List.append_assoc]
  · rw [nameText, if_neg (findClass_iff.not.mpr hmem), generated,
      if_neg (findClass_iff.not.mpr hmem)]

end Names

/-! ### What is read as it is meant -/

instance (b : UInt8) : Decidable (Disturbs b) :=
  inferInstanceAs (Decidable ((b = dquote ∨ b = squote) ∨ b = lbrace ∨ b = semicolon))

lemma ne_zero_of_isspace {b : UInt8} (h : isspace b = true) : b ≠ 0 := by
  rintro rfl
  cases h

lemma not_disturbs_of_isspace {b : UInt8} (h : isspace b = true) : ¬Disturbs b := by
  rintro ((rfl | rfl) | rfl | rfl) <;> cases h

namespace Args

lemma nul_not_mem_text : ∀ a : Args, 0 ∉ a.text
  | nil => List.not_mem_nil
  | plain _ h rest => List.not_mem_cons_of_ne_of_not_mem h.1.symm rest.nul_not_mem_text
  | literal _ h rest => fun hmem =>
    (List.mem_append.mp hmem).elim h rest.nul_not_mem_text
  | group inner rest => by
    rw [text, List.mem_cons, List.mem_append, List.mem_cons]
    rintro (h | h | h | h)
    · cases h
    · exact inner.nul_not_mem_text h
    · cases h
    · exact rest.nul_not_mem_text h

variable {a : Args} {b : UInt8}

lemma mem_text (hb : b ≠ rparen) : b ∈ a.text ↔ b ∈ a.head ∨ b ∈ a.tail := by
  have h := congrArg (b ∈ ·) (a.text_append [])
  simpa [hb] using h

lemma mem_tail (hb : b ≠ rparen) : b ∈ a.tail ↔ b ∈ a.late := by
  induction a with
  | nil => rfl
  | plain _ _ rest ih => exact ih
  | literal _ _ rest ih => exact ih
  | group _ rest => simp [tail, late, hb]

lemma nul_not_mem_tail : 0 ∉ a.tail := fun h =>
  a.nul_not_mem_text ((mem_text (by decide)).mpr (.inr h))

end Args

section Clean

variable {eof ch : UInt8} {classlist : List (List UInt8)} {clname name input rest w : List UInt8}
  {next : List UInt8 → Except LexFailure (List UInt8 × List UInt8)} {a : Args} {fuel : ℕ}

lemma allowed_of_not_disturbs {sep : List UInt8} (hsep : sep ⊆ [rparen, lbrace, semicolon])
    (h : ¬Disturbs ch) : Allowed sep ch := by
  obtain ⟨hquote, hrest⟩ := not_or.mp h
  refine ⟨fun h => hquote (.inl h), fun h => hquote (.inr h), fun hmem => ?_⟩
  exact (List.mem_cons.mp (hsep hmem)).resolve_right fun hmem => hrest (by simpa using hmem)

/-- The call for the arguments. -/
lemma readUntil_args (h : ∀ b ∈ a.head, ¬Disturbs b) :
    readUntil eof [rparen, lbrace, semicolon] (a.text ++ rparen :: input) =
      some (a.head ++ [rparen], a.tail ++ input) := by
  have hallowed : ∀ {b}, ¬Disturbs b → Allowed [rparen, lbrace, semicolon] b :=
    allowed_of_not_disturbs (by decide)
  obtain ⟨bracket, hpasses, hend⟩ := a.exists_passes_head (by decide) (hallowed (by decide))
    (List.append_nil a.head).symm fun b hb => hallowed (h b hb)
  have hcount : ¬(rparen = rparen ∧ 0 < countBracket bracket rparen) := by
    have hbracket := hend rfl
    rintro ⟨-, hpos⟩
    have hcount : countBracket bracket rparen = bracket - 1 := rfl
    omega
  rw [a.text_append]
  refine readUntil_stop eof _ (by decide) hpasses (by decide) (by decide) ?_
  rw [shownByte, if_neg hcount]
  exact .inr List.mem_cons_self

lemma exists_passes_separator (hw : ∀ b ∈ w, b ≠ 0 ∧ ¬Disturbs b ∧ b ≠ comma) :
    ∃ bracket, Passes [comma, lbrace, semicolon] 0 w bracket := by
  have hplain : ∀ b ∈ w, b ≠ 0 ∧ b ≠ dquote ∧ b ≠ squote ∧ b ∉ [comma, lbrace, semicolon] := by
    intro b hb
    obtain ⟨hnul, hdisturbs, hcomma⟩ := hw b hb
    simp only [Disturbs, IsQuote, not_or] at hdisturbs
    simp [hnul, hdisturbs, hcomma]
  exact exists_passes (by decide) hplain 0

/-- The call for what comes up to the next comma. -/
lemma readUntil_separator (hw : ∀ b ∈ w, b ≠ 0 ∧ ¬Disturbs b ∧ b ≠ comma)
    (hch : ch = comma ∨ ch = lbrace ∨ ch = semicolon) :
    readUntil eof [comma, lbrace, semicolon] (w ++ ch :: input) = some (w ++ [ch], input) := by
  obtain ⟨bracket, hpasses⟩ := exists_passes_separator hw
  rcases hch with rfl | rfl | rfl <;>
    exact readUntil_stop eof _ (by decide) hpasses (by decide) (by decide)
      (stops_shownByte (by decide) (by decide))

/-- Where the arguments are not disturbed, the first comma after the first nested group, or what
ends the initialiser, is taken for the separator. -/
lemma readArgs_eq (hhead : ∀ b ∈ a.head, ¬Disturbs b) {rest : List UInt8}
    (hrest : a.tail ++ rest = w ++ ch :: input) (hw : ∀ b ∈ w, b ≠ 0 ∧ ¬Disturbs b ∧ b ≠ comma)
    (hch : ch = comma ∨ ch = lbrace ∨ ch = semicolon) :
    readArgs eof name next (a.text ++ rparen :: rest) =
      if ch = comma then (next input).map fun r =>
        (name ++ (a.head ++ [rparen] ++ (w ++ [ch]) ++ r.1), r.2)
      else .ok (name ++ (a.head ++ [rparen] ++ (w ++ [ch])), input) := by
  have hparams : (a.head ++ [rparen]).getLast? = some rparen := List.getLast?_concat
  have hseparator : (w ++ [ch]).getLast? = some ch := List.getLast?_concat
  rw [readArgs, readUntil_args hhead, hrest]
  dsimp only
  rw [if_neg (not_not.mpr hparams), readUntil_separator hw hch]
  dsimp only
  rw [hseparator]
  by_cases hcomma : ch = comma
  · rw [if_pos hcomma, if_neg (not_not.mpr (congrArg some hcomma))]
  · rw [if_neg hcomma, if_pos fun h => hcomma (Option.some.inj h)]

/-- White space and names are passed, and no brackets are counted. -/
lemma passes_plain {sep : List UInt8} {bracket : ℤ}
    (hsep : sep ⊆ [lparen, rparen, comma, colon, lbrace, semicolon])
    (hw : ∀ b ∈ w, isspace b = true ∨ isNameByte b = true) : Passes sep bracket w bracket := by
  have hbytes : ∀ b ∈ sep, b ≠ 1 ∧ isNameByte b = false ∧ isspace b = false := by
    intro b hb
    have hmem := hsep hb
    simp only [List.mem_cons, List.not_mem_nil, or_false] at hmem
    rcases hmem with rfl | rfl | rfl | rfl | rfl | rfl <;> decide
  have hone : 1 ∉ sep := fun h => (hbytes 1 h).1 rfl
  induction w with
  | nil => rfl
  | cons b w ih =>
      obtain ⟨hb, hw⟩ := List.forall_mem_cons.mp hw
      have hne : ∀ c, isNameByte c = false → isspace c = false → b ≠ c := by
        rintro c hname hspace rfl
        rcases hb with hb | hb
        · rw [hspace] at hb
          cases hb
        · rw [hname] at hb
          cases hb
      have hcount : countBracket bracket b = bracket := by
        rw [countBracket, if_neg (hne _ rfl rfl), if_neg (hne _ rfl rfl)]
      refine ⟨hne _ rfl rfl, hne _ rfl rfl, ?_, hcount.symm ▸ ih hw⟩
      exact not_stops_shownByte hone (hne _ rfl rfl) fun hmem =>
        hne b (hbytes b hmem).2.1 (hbytes b hmem).2.2 rfl

/-- The call for the parameters. -/
lemma readUntil_params {before : Blanks} (h : a.Undisturbed) :
    readUntil eof [rparen, semicolon, lbrace]
        (before.bytes ++ lparen :: (a.text ++ rparen :: input)) =
      some (before.bytes ++ lparen :: (a.text ++ [rparen]), input) := by
  have hallowed : ∀ {b}, ¬Disturbs b → Allowed [rparen, semicolon, lbrace] b :=
    allowed_of_not_disturbs (by decide)
  obtain ⟨bracket, -, hpasses, hend⟩ := a.exists_passes (by decide) (hallowed (by decide))
    (List.append_nil a.text).symm (fun b hb => hallowed (h b hb)) (by decide : (0 : ℤ) < 1)
  obtain rfl := hend rfl
  have hall : Passes [rparen, semicolon, lbrace] 0 (before.bytes ++ lparen :: a.text) 1 :=
    (passes_plain (by decide) fun b hb => .inl (before.spaces b hb)).append
      (passes_lparen (by decide) (hallowed (by decide)) hpasses)
  have hread := readUntil_stop eof input (by decide) hall
    (by decide : rparen ≠ dquote) (by decide) (by decide)
  simpa using hread

/-- The call for the name of a base. -/
lemma initLoop_name (i : Init) :
    initLoop eof classlist (fuel + 1) clname
        (i.before.bytes ++ (i.name.bytes ++ (i.mid.bytes ++ lparen :: input))) =
      readArgs eof
        (i.before.bytes ++ (generated classlist i.name.bytes ++ (i.mid.bytes ++ [lparen])))
        (initLoop eof classlist fuel i.name.bytes) input := by
  have hpasses : Passes [lparen, lbrace, semicolon] 0
      (i.before.bytes ++ (i.name.bytes ++ i.mid.bytes)) 0 := by
    refine passes_plain (by decide) fun b hb => ?_
    rcases List.mem_append.mp hb with hb | hb
    · exact .inl (i.before.spaces b hb)
    rcases List.mem_append.mp hb with hb | hb
    · exact .inr (i.name.nameBytes b hb)
    · exact .inl (i.mid.spaces b hb)
  have hread : readUntil eof [lparen, lbrace, semicolon]
      (i.before.bytes ++ (i.name.bytes ++ (i.mid.bytes ++ lparen :: input))) =
        some (i.before.bytes ++ (i.name.bytes ++ (i.mid.bytes ++ [lparen])), input) := by
    have h := readUntil_stop eof input (by decide) hpasses
      (by decide : lparen ≠ dquote) (by decide) (by decide)
    simpa using h
  have hlast :
      (i.before.bytes ++ (i.name.bytes ++ (i.mid.bytes ++ [lparen]))).getLast? = some lparen := by
    simp
  have hne : i.before.bytes ++ (i.name.bytes ++ (i.mid.bytes ++ [lparen])) ≠ [] := by simp
  rw [initLoop, hread]
  dsimp only
  rw [if_neg hne, if_neg (not_not.mpr hlast), scanName_eq, nameText_eq]

lemma readArgs_clean {after : Blanks} (ha : a.Clean) (hch : ch = comma ∨ ch = lbrace) :
    readArgs eof name next (a.text ++ rparen :: (after.bytes ++ ch :: input)) =
      if ch = comma then (next input).map fun r =>
        (name ++ (a.text ++ rparen :: (after.bytes ++ ch :: r.1)), r.2)
      else .ok (name ++ (a.text ++ rparen :: (after.bytes ++ [ch])), input) := by
  have htext : ∀ w, a.head ++ [rparen] ++ (a.tail ++ after.bytes ++ [ch]) ++ w =
      a.text ++ rparen :: (after.bytes ++ ch :: w) := by
    intro w
    rw [a.text_append]
    simp
  have hw : ∀ b ∈ a.tail ++ after.bytes, b ≠ 0 ∧ ¬Disturbs b ∧ b ≠ comma := by
    intro b hb
    rcases List.mem_append.mp hb with hb | hb
    · refine ⟨fun h => a.nul_not_mem_tail (h ▸ hb), fun h => ?_, ?_⟩
      · by_cases hrparen : b = rparen
        · subst hrparen
          exact absurd h (by decide)
        · exact ha.undisturbed b ((Args.mem_text hrparen).mpr (.inr hb)) h
      · rintro rfl
        exact ha.commas ((Args.mem_tail (by decide)).mp hb)
    · have hspace := after.spaces b hb
      refine ⟨ne_zero_of_isspace hspace, not_disturbs_of_isspace hspace, ?_⟩
      rintro rfl
      cases hspace
  have hhead : ∀ b ∈ a.head, ¬Disturbs b := by
    intro b hb h
    by_cases hrparen : b = rparen
    · subst hrparen
      exact absurd h (by decide)
    · exact ha.undisturbed b ((Args.mem_text hrparen).mpr (.inl hb)) h
  rw [readArgs_eq hhead (List.append_assoc _ _ _).symm hw (hch.imp_right .inl)]
  simp only [htext]
  rw [← List.append_nil (a.head ++ [rparen] ++ (a.tail ++ after.bytes ++ [ch])), htext]

lemma length_le_renderInits (f : List UInt8 → List UInt8) (inits : List Init) :
    inits.length ≤ (renderInits f inits).length := by
  induction inits with
  | nil => exact le_refl _
  | cons i inits ih =>
      rw [renderInits, List.length_append, List.length_cons, List.length_cons]
      omega

lemma renderInits_cons_append (f : List UInt8 → List UInt8) (i : Init) (inits : List Init)
    (w : List UInt8) : renderInits f (i :: inits) ++ w = i.before.bytes ++ (f i.name.bytes ++
      (i.mid.bytes ++ lparen :: (i.args.text ++ rparen :: (i.after.bytes ++
        closing inits :: (renderInits f inits ++ w))))) := by
  simp [renderInits, Init.render]

/-- The loop over the bases. -/
lemma initLoop_clean {inits : List Init} (hne : inits ≠ []) (h : ∀ i ∈ inits, i.args.Clean) :
    inits.length ≤ fuel → initLoop eof classlist fuel clname (renderInits id inits ++ rest) =
      .ok (renderInits (generated classlist) inits, rest) := by
  induction inits generalizing fuel clname with
  | nil => exact absurd rfl hne
  | cons i inits ih =>
      intro hfuel
      obtain ⟨hi, hinits⟩ := List.forall_mem_cons.mp h
      obtain ⟨fuel, rfl⟩ := Nat.exists_eq_add_of_le' (Nat.one_le_of_lt hfuel)
      rw [renderInits_cons_append, id, initLoop_name]
      cases inits with
      | nil =>
          have hclosing : closing [] = lbrace := rfl
          rw [hclosing, readArgs_clean hi (.inr rfl), if_neg (by decide)]
          simp [renderInits, Init.render, closing]
      | cons j inits =>
          have hclosing : closing (j :: inits) = comma := rfl
          rw [hclosing, readArgs_clean hi (.inl rfl), if_pos rfl,
            ih (List.cons_ne_nil j inits) hinits (Nat.le_of_succ_le_succ hfuel)]
          simp [renderInits, Init.render, closing, Except.map]

/-- The parameters are not disturbed; after a colon the loop over the bases is entered. -/
lemma constructorRest_eq {before after : Blanks} (h : a.Undisturbed)
    (hch : ch = colon ∨ ch = lbrace) :
    constructorRest eof classlist clname
        (before.bytes ++ lparen :: (a.text ++ rparen :: (after.bytes ++ ch :: input))) =
      if ch = colon then (initLoop eof classlist (input.length + 1) clname input).map fun r =>
        (before.bytes ++ lparen :: (a.text ++ rparen :: (after.bytes ++ ch :: r.1)), r.2)
      else .ok (before.bytes ++ lparen :: (a.text ++ rparen :: (after.bytes ++ [ch])), input) := by
  have hpasses : Passes [colon, semicolon, lbrace] 0 after.bytes 0 :=
    passes_plain (by decide) fun b hb => .inl (after.spaces b hb)
  have hread : readUntil eof [colon, semicolon, lbrace] (after.bytes ++ ch :: input) =
      some (after.bytes ++ [ch], input) := by
    rcases hch with rfl | rfl <;>
      exact readUntil_stop eof _ (by decide) hpasses (by decide) (by decide)
        (stops_shownByte (by decide) (by decide))
  have hparams : (before.bytes ++ lparen :: (a.text ++ [rparen])).getLast? = some rparen := by
    rw [← List.cons_append, ← List.append_assoc, List.getLast?_concat]
  have hlast : (after.bytes ++ [ch]).getLast? = some ch := List.getLast?_concat
  rw [constructorRest, readUntil_params h]
  dsimp only
  rw [if_neg (not_not.mpr hparams), hread]
  dsimp only
  rw [hlast]
  by_cases hcolon : ch = colon
  · rw [if_pos hcolon, if_neg (not_not.mpr (congrArg some hcolon))]
    simp
  · rw [if_neg hcolon, if_pos fun h => hcolon (Option.some.inj h)]
    simp

end Clean

namespace ConstructorDef

variable {eof : UInt8} {collective : Bool} {classlist : List (List UInt8)} {input : List UInt8}

/-- The rule is for a constructor. -/
lemma qualifiedName_eq (d : ConstructorDef) (hname : d.name.bytes ∈ classlist) :
    qualifiedName eof classlist collective (d.qualified id) input =
      match constructorRest eof classlist d.name.bytes input with
      | .error e => .error e
      | .ok (out, input) =>
          if collective then .error .undefined
          else .ok (d.qualified (generated classlist) ++ out ++ thisText d.name.bytes, input) := by
  have hname_ne : ∀ b ∈ d.name.bytes, isspace b = false ∧ b ≠ colon := fun b hb =>
    ⟨d.name.not_isspace b hb, BaseName.ne_of_mem hb rfl⟩
  have htake : (d.qualified id).takeWhile (fun b => !isspace b && b != colon) = d.name.bytes := by
    rw [qualified, id, List.append_assoc]
    refine takeWhile_eq (fun b hb => by simp [hname_ne b hb]) fun b hb => ?_
    rcases head?_blanks_append d.beforeScope colon _ hb with h | h <;> simp [h]
  have hdrop : (d.qualified id).drop d.name.bytes.length =
      d.beforeScope.bytes ++ colon :: colon :: (d.afterScope.bytes ++ d.name.bytes) := by
    rw [qualified, id, List.append_assoc, List.drop_left]
  have hscope : (d.beforeScope.bytes ++ colon :: colon :: (d.afterScope.bytes ++
      d.name.bytes)).dropWhile (fun b => isspace b || b == colon) = d.name.bytes := by
    have hall : ∀ b ∈ d.beforeScope.bytes ++ colon :: colon :: d.afterScope.bytes,
        (isspace b || b == colon) = true := by
      intro b hb
      simp only [List.mem_append, List.mem_cons] at hb
      rcases hb with hb | rfl | rfl | hb
      · simp [d.beforeScope.spaces b hb]
      · rfl
      · rfl
      · simp [d.afterScope.spaces b hb]
    have hsplit : d.beforeScope.bytes ++ colon :: colon :: (d.afterScope.bytes ++ d.name.bytes) =
        d.beforeScope.bytes ++ colon :: colon :: d.afterScope.bytes ++ d.name.bytes := by simp
    rw [hsplit]
    refine dropWhile_eq hall fun b hb => ?_
    simp [hname_ne b (List.mem_of_mem_head? hb)]
  rw [qualifiedName]
  simp only [htake]
  rw [if_pos (findClass_iff.mpr hname), hdrop, if_pos hscope.symm]
  simp [qualified, generated, hname]

lemma rewritten_iff (d : ConstructorDef) : d.Rewritten eof collective ↔ collective = false ∧
    ∀ (classlist : List (List UInt8)) (rest : List UInt8), d.name.bytes ∈ classlist →
      constructorRest eof classlist d.name.bytes (d.header id ++ rest) =
        .ok (d.header (generated classlist), rest) := by
  constructor
  · intro h
    have hstep : ∀ (classlist : List (List UInt8)) (rest : List UInt8), d.name.bytes ∈ classlist →
        collective = false ∧ constructorRest eof classlist d.name.bytes (d.header id ++ rest) =
          .ok (d.header (generated classlist), rest) := by
      intro classlist rest hname
      have heq := h classlist rest hname
      rw [qualifiedName_eq d hname, render] at heq
      split at heq
      · cases heq
      next out input hrest =>
        split_ifs at heq with hcollective
        rw [hrest]
        obtain ⟨hout, rfl⟩ := Prod.mk.inj (Except.ok.inj heq)
        rw [List.append_left_inj, List.append_right_inj] at hout
        exact ⟨Bool.eq_false_iff.mpr hcollective, by rw [hout]⟩
    refine ⟨(hstep [d.name.bytes] [] List.mem_cons_self).1, fun classlist rest hname => ?_⟩
    exact (hstep classlist rest hname).2
  · rintro ⟨rfl, h⟩ classlist rest hname
    rw [qualifiedName_eq d hname, h classlist rest hname]
    rfl

lemma header_append {d : ConstructorDef} (hinits : d.inits ≠ []) (f : List UInt8 → List UInt8)
    (w : List UInt8) : d.header f ++ w = d.beforeParams.bytes ++ lparen :: (d.params.text ++
      rparen :: (d.afterParams.bytes ++ colon :: (renderInits f d.inits ++ w))) := by
  simp [header, hinits]

lemma Clean.rewritten {d : ConstructorDef} (h : d.Clean collective) :
    d.Rewritten eof collective := by
  refine d.rewritten_iff.mpr ⟨h.single, fun classlist rest _ => ?_⟩
  by_cases hinits : d.inits = []
  · have hheader : ∀ f rest, d.header f ++ rest = d.beforeParams.bytes ++ lparen ::
        (d.params.text ++ rparen :: (d.afterParams.bytes ++ lbrace :: rest)) := by
      intro f rest
      simp [header, hinits]
    rw [hheader, constructorRest_eq h.params (.inr rfl), if_neg (by decide),
      ← hheader (generated classlist), List.append_nil]
  · have hlength : d.inits.length ≤ (renderInits id d.inits ++ rest).length + 1 := by
      have hle := length_le_renderInits id d.inits
      rw [List.length_append]
      omega
    rw [header_append hinits, constructorRest_eq h.params (.inl rfl), if_pos rfl,
      initLoop_clean hinits h.inits hlength]
    simp [header, hinits, Except.map]

end ConstructorDef

end Parser
