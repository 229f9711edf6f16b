/-
# A remote call is a call

The two stubs of a method meet only in two messages.  They are run here one after the other, each
with variables of its own: the caller's stub packs the arguments, the function of the broker
unpacks them into variables that it declares, calls the method and packs what travels back, and
the caller's stub unpacks that into what the caller has passed.

Whatever the method does, the caller sees a call by copy: the object works on copies of the
arguments that travel to it and on new variables for the others, and what travels back is copied
into the arguments of the caller, if it waits.  A caller that does not wait goes on when it has sent
the request, and learns of no failure.  For a method that keeps to its declaration, this cannot be
told from a call of the method itself, unless the method fails and the caller does not wait.
-/
import PopCpp.Parser.StubLines

namespace Parser

/-! ### Calls -/

/-- What a function that returns leaves in its arguments, and its result. -/
abbrev Returned (α : Type) := (String → Rose α) × Rose α

/-- What a function does that is called with its arguments by name: what becomes of the object, and
what it leaves in its arguments and returns, unless it throws. -/
abbrev Body (ω α : Type) := ω → (String → Rose α) → ω × Option (Returned α)

/-- The function works on the argument of the caller, not on a copy. -/
def Param.shared (p : Param) : Bool :=
  p.isRef || decide (0 < p.mytype.isPointer) || p.mytype.isArray

namespace Method

variable {ω α : Type} (m : Method)

/-- The arguments that a function gets. -/
def arguments (vars : String → Rose α) : String → Rose α :=
  fun x => if m.params.any fun p => p.name == x then vars x else .node []

/-- A call of a function that is declared as the method: the object, the variables of the caller
and the result after it. -/
def call (f : Body ω α) : Body ω α := fun object vars =>
  ((f object (m.arguments vars)).1, (f object (m.arguments vars)).2.map fun r =>
    (fun x => if m.params.any fun p => p.shared && p.name == x then r.1 x else vars x,
      if m.hasReturn then r.2 else .node []))

end Method

section Remote

variable {ω α : Type} [Inhabited α] (lt : KeyOrder α) (val : SizeValues α)

/-- The function of the broker, with the request in its buffer; `reply` says whether the caller
waits.  When something throws there is no response. -/
def BrokerStub.serve (b : BrokerStub) (m : Method) (f : Body ω α) (reply : Bool) (object : ω)
    (request : List (Item α)) : ω × Option (List (Item α)) :=
  match runLines lt val b.request ⟨fun _ => .node [], fun _ => none, request⟩ with
  | none => (object, none)
  | some s =>
      ((m.call f object s.vars).1, (m.call f object s.vars).2.bind fun r =>
        if reply then
          (runLines lt val b.reply
            { vars := if b.call.result.isSome then Function.update r.1 m.returnparam.name r.2
                else r.1
              sizes := s.sizes
              buf := [] }).map Side.buf
        else some [])

/-- The function for the caller, with the function of the broker at the other end; the broker
sees in the header whether the caller waits.  A caller that does not is done with the request. -/
def ClientStub.remote (c : ClientStub) (b : BrokerStub) (m : Method) (f : Body ω α) : Body ω α :=
  fun object args =>
    match runLines lt val c.request ⟨args, fun _ => none, []⟩ with
    | none => (object, none)
    | some s =>
        let served := b.serve lt val m f (c.header.invokeCode.testBit 0) object s.buf
        (served.1,
          if c.waitreturn then
            served.2.bind fun reply =>
              (runLines lt val c.reply { s with buf := reply }).map fun t =>
                (t.vars, t.vars m.returnparam.name)
          else some (s.vars, .node []))

/-! ### Calls by copy -/

namespace Method

variable (m : Method)

/-- What the method gets in a call by copy. -/
def received (args : String → Rose α) : String → Rose α := fun x =>
  match m.params.find? fun p => p.name == x with
  | none => .node []
  | some p => if p.inParam then args x else p.fresh (args x)

/-- A call by copy.  A caller that does not wait gets nothing back. -/
def copied (f : Body ω α) : Body ω α := fun object args =>
  ((m.call f object (m.received args)).1,
    if m.waitreturn then
      (m.call f object (m.received args)).2.map fun r =>
        (fun x => if m.params.any fun p => p.outParam && p.name == x then r.1 x else args x, r.2)
    else some (args, .node []))

end Method

end Remote

/-! ### The stubs of a method -/

/-- The stubs of a method are accepted by the compiler, and do what the generators mean. -/
structure Method.Sound (m : Method) : Prop where
  distinct : ((m.returnparam :: m.params).map Param.name).Nodup
  params : ∀ p ∈ m.params, p.Sound
  result : m.hasReturn = true → m.returnparam.Sound ∧ m.returnparam.paramSize = none

namespace Method

variable {ω α : Type} [Inhabited α] (lt : KeyOrder α) (val : SizeValues α) {m : Method}

/-- Arguments that can travel: they have their types, and the size expressions, evaluated where
the parameters that travel to the object are known, say how long the blocks are. -/
structure Callable (m : Method) (args : String → Rose α) : Prop where
  hasType : ∀ p ∈ m.params, p.mytype.HasType lt (args p.name)
  fits : ∀ p ∈ m.params, p.inParam = true → p.mytype.fits (args p.name)
  tells : ∀ p ∈ m.params, ∀ vars : String → Rose α,
    (∀ q ∈ m.params, q.inParam = true → vars q.name = args q.name) →
      p.Tells val vars (args p.name)

/-- What a method leaves in its arguments, and its result, can travel back: the blocks are as long
as they were, and the size expressions still say so. -/
structure Returns (m : Method) (args after : String → Rose α) (result : Rose α) : Prop where
  hasType : ∀ p ∈ m.params, p.outParam = true → p.mytype.HasType lt (after p.name)
  fits : ∀ p ∈ m.params, p.outParam = true → p.mytype.fits (after p.name)
  length : ∀ p ∈ m.params, p.outParam = true → p.paramSize.isSome = true →
    (after p.name).children.length = (args p.name).children.length
  tells : ∀ p ∈ m.params, p.outParam = true → ∀ vars : String → Rose α,
    (∀ q ∈ m.params, vars q.name = after q.name) → p.Tells val vars (args p.name)
  result : m.hasReturn = true →
    m.returnparam.mytype.HasType lt result ∧ m.returnparam.mytype.fits result

lemma Sound.allDistinct (h : m.Sound) : Distinct (m.returnparam :: m.params) :=
  fun _ hp _ hq hname => List.inj_on_of_nodup_map h.distinct hp hq hname

lemma Sound.nodup (h : m.Sound) : (m.params.map Param.name).Nodup :=
  (List.nodup_cons.mp h.distinct).2

lemma Sound.name_ne (h : m.Sound) {p : Param} (hp : p ∈ m.params) :
    p.name ≠ m.returnparam.name := fun hname =>
  (List.nodup_cons.mp h.distinct).1 (List.mem_map.mpr ⟨p, hp, hname⟩)

omit [Inhabited α] in
lemma arguments_of_mem {p : Param} (hp : p ∈ m.params) (vars : String → Rose α) :
    m.arguments vars p.name = vars p.name :=
  if_pos (List.any_eq_true.mpr ⟨p, hp, beq_self_eq_true p.name⟩)

omit [Inhabited α] in
lemma arguments_congr {vars vars' : String → Rose α}
    (h : ∀ p ∈ m.params, vars p.name = vars' p.name) : m.arguments vars = m.arguments vars' := by
  funext x
  rw [arguments, arguments]
  split_ifs with hx
  · obtain ⟨p, hp, hname⟩ := List.any_eq_true.mp hx
    rw [← beq_iff_eq.mp hname]
    exact h p hp
  · rfl

lemma Sound.received_of_mem (h : m.Sound) {p : Param} (hp : p ∈ m.params)
    (args : String → Rose α) : m.received args p.name =
      if p.inParam then args p.name else p.fresh (args p.name) := by
  have hfind : m.params.find? (fun q => q.name == p.name) = some p := by
    cases hf : m.params.find? fun q => q.name == p.name with
    | none => exact absurd (beq_self_eq_true p.name) (by simpa using List.find?_eq_none.mp hf p hp)
    | some q =>
      have hname : q.name = p.name := by simpa using List.find?_some hf
      rw [h.allDistinct q (List.mem_cons_of_mem _ (List.mem_of_find?_eq_some hf)) p
        (List.mem_cons_of_mem _ hp) hname]
  rw [received, hfind]

/-- An argument is copied back if its parameter travels back. -/
lemma Sound.any_outParam (h : m.Sound) {p : Param} (hp : p ∈ m.params) :
    (m.params.any fun q => q.outParam && q.name == p.name) = p.outParam := by
  cases hout : p.outParam with
  | true => exact List.any_eq_true.mpr ⟨p, hp, by rw [hout, beq_self_eq_true]; rfl⟩
  | false =>
    refine Bool.eq_false_iff.mpr fun hany => ?_
    obtain ⟨q, hq, hq'⟩ := List.any_eq_true.mp hany
    obtain ⟨hqout, hname⟩ := Bool.and_eq_true_iff.mp hq'
    rw [h.allDistinct q (List.mem_cons_of_mem _ hq) p (List.mem_cons_of_mem _ hp)
      (beq_iff_eq.mp hname), hout] at hqout
    exact absurd hqout (by decide)

lemma received_arguments (args : String → Rose α) :
    m.received (m.arguments args) = m.received args := by
  funext x
  rw [received, received]
  cases hf : m.params.find? fun p => p.name == x with
  | none => rfl
  | some p =>
    have hx : m.arguments args x = args x := by
      have hname : p.name = x := by simpa using List.find?_some hf
      rw [← hname]
      exact arguments_of_mem (List.mem_of_find?_eq_some hf) args
    dsimp only
    rw [hx]

/-- The items of a request. -/
def requestItems (m : Method) (args : String → Rose α) : List (Item α) :=
  (m.params.filter Param.inParam).flatMap fun p => p.items (args p.name)

/-- The items of a response. -/
def replyItems (m : Method) (after : String → Rose α) (result : Rose α) : List (Item α) :=
  ((m.params.filter Param.outParam).flatMap fun p => p.items (after p.name)) ++
    if m.hasReturn then m.returnparam.items result else []

/-- The caller packs the request. -/
lemma Sound.run_clientRequest (h : m.Sound) {args : String → Rose α}
    (hargs : m.Callable lt val args) (c : ℕ) :
    ∃ sizes, OnlySized (m.returnparam :: m.params) sizes ∧
      runLines lt val (m.clientRequest c).1 ⟨args, fun _ => none, []⟩ =
        some ⟨args, sizes, m.requestItems args⟩ := by
  obtain ⟨sizes, hsizes, hrun⟩ := run_emitAll_marshal lt val h.allDistinct true
    (f := fun p => p.marshal false true) (m.params.filter Param.inParam) c
    ⟨args, fun _ => none, []⟩ (fun p hp => by
      obtain ⟨hp, hin⟩ := List.mem_filter.mp hp
      exact ⟨List.mem_cons_of_mem _ hp, rfl,
        ⟨h.params p hp, hargs.hasType p hp, hargs.fits p hp hin⟩,
        hargs.tells p hp args fun _ _ _ => rfl⟩)
    fun _ _ _ => rfl
  exact ⟨sizes, hsizes, hrun⟩

/-- The broker unpacks the request: its variables are what the method gets in a call by copy. -/
lemma Sound.run_brokerRequest (h : m.Sound) {args : String → Rose α}
    (hargs : m.Callable lt val args) (d : ℕ) :
    ∃ vars sizes, OnlySized (m.returnparam :: m.params) sizes ∧
      (∀ p ∈ m.params, vars p.name = m.received args p.name) ∧
      runLines lt val (m.brokerRequest d).1 ⟨fun _ => .node [], fun _ => none,
        m.requestItems args⟩ = some ⟨vars, sizes, []⟩ := by
  obtain ⟨sizes, hsizes, hinputs⟩ := run_brokerInputs lt val h.allDistinct args
    m.params false d ⟨fun _ => .node [], fun _ => none, m.requestItems args⟩
    (fun p hp => ⟨List.mem_cons_of_mem _ hp, fun hin =>
      ⟨h.params p hp, hargs.hasType p hp, hargs.fits p hp hin⟩⟩)
    (fun _ _ _ => rfl) (List.append_nil _).symm
  have hins : ∀ q ∈ m.params.filter Param.inParam, override (m.params.filter Param.inParam) args
      (fun _ => .node []) q.name = args q.name := fun q hq => override_of_mem _ _ hq
  have houtputs := run_declareOutputs lt val args (m.received args)
    (m.params.filter fun p => !p.inParam)
    ⟨override (m.params.filter Param.inParam) args fun _ => .node [], sizes, []⟩
    (fun p hp => by
      obtain ⟨hp, hin⟩ := List.mem_filter.mp hp
      have hin : p.inParam = false := by simpa using hin
      refine ⟨h.params p hp, ?_, fun q hq hname => ?_, fun vars hvars => ?_⟩
      · rw [h.received_of_mem hp, hin]
        rfl
      · obtain ⟨hq, hqin⟩ := List.mem_filter.mp hq
        rw [h.allDistinct p (List.mem_cons_of_mem _ hp) q (List.mem_cons_of_mem _ hq) hname,
          hqin] at hin
        exact absurd hin (by decide)
      · exact hargs.tells p hp vars fun q hq hqin => hvars q (List.mem_filter.mpr ⟨hq, hqin⟩))
    hins
  refine ⟨override (m.params.filter fun p => !p.inParam) (m.received args)
    (override (m.params.filter Param.inParam) args fun _ => .node []), sizes, hsizes,
    fun p hp => ?_, ?_⟩
  rotate_left
  · rw [brokerRequest, runLines_append, hinputs, Option.bind_some, houtputs]
  · rw [h.received_of_mem hp]
    by_cases hin : p.inParam = true
    · have hnotin : ∀ q ∈ m.params.filter fun p => !p.inParam, q.name ≠ p.name := by
        intro q hq hname
        obtain ⟨hq, hqin⟩ := List.mem_filter.mp hq
        rw [h.allDistinct q (List.mem_cons_of_mem _ hq) p (List.mem_cons_of_mem _ hp) hname,
          hin] at hqin
        exact absurd hqin (by decide)
      rw [override_of_ne _ _ hnotin, if_pos hin]
      exact hins p (List.mem_filter.mpr ⟨hp, hin⟩)
    · rw [override_of_mem _ _ (List.mem_filter.mpr ⟨hp, by simpa using hin⟩),
        h.received_of_mem hp]

/-- The broker packs the response. -/
lemma Sound.run_brokerReply (h : m.Sound) {args after : String → Rose α} {result : Rose α}
    (hreturns : m.Returns lt val args after result) {vars : String → Rose α}
    (hvars : ∀ p ∈ m.params, vars p.name = after p.name)
    (hresult : m.hasReturn = true → vars m.returnparam.name = result)
    {sizes : String → Option (Ident × ℤ)} (hsizes : OnlySized (m.returnparam :: m.params) sizes)
    (d : ℕ) : ∃ sizes', runLines lt val (m.brokerReply d).1 ⟨vars, sizes, []⟩ =
      some ⟨vars, sizes', m.replyItems after result⟩ := by
  obtain ⟨sizes', hsizes', hrun⟩ := run_emitAll_marshal lt val h.allDistinct false
    (f := fun p => p.marshal p.reformat false) (m.params.filter Param.outParam) d
    ⟨vars, sizes, []⟩ (fun p hp => by
      obtain ⟨hp, hout⟩ := List.mem_filter.mp hp
      have hvar := hvars p hp
      refine ⟨List.mem_cons_of_mem _ hp, ?_, ?_, ?_⟩
      · rw [(h.params p hp).reformat]
      · show p.Travels lt (vars p.name)
        rw [hvar]
        exact ⟨h.params p hp, hreturns.hasType p hp hout, hreturns.fits p hp hout⟩
      · intro n hn
        show val n vars = (vars p.name).children.length
        rw [hvar, hreturns.length p hp hout (by rw [hn]; rfl)]
        exact hreturns.tells p hp hout vars hvars n hn)
    hsizes
  have hitems : (m.params.filter Param.outParam).flatMap (fun p => p.items (vars p.name)) =
      (m.params.filter Param.outParam).flatMap fun p => p.items (after p.name) :=
    List.flatMap_congr fun p hp => by rw [hvars p (List.mem_filter.mp hp).1]
  rw [List.nil_append, hitems] at hrun
  cases hret : m.hasReturn with
  | false =>
    refine ⟨sizes', ?_⟩
    simp only [brokerReply, hret, Bool.false_eq_true, if_false, replyItems, List.append_nil]
    exact hrun
  | true =>
    obtain ⟨hsound, hunsized⟩ := h.result hret
    obtain ⟨htype, hfits⟩ := hreturns.result hret
    rw [← hresult hret] at htype hfits
    have hlast := hsound.run_marshal (s := ⟨vars, sizes', (m.params.filter Param.outParam).flatMap
        fun p => p.items (after p.name)⟩) lt val false
      (emitAll (fun p => p.marshal p.reformat false) (m.params.filter Param.outParam) d).2
      htype hfits (fun n hn => absurd (hunsized.symm.trans hn) (by simp))
      (hsizes' _ List.mem_cons_self)
    refine ⟨m.returnparam.declares (.popSize1 m.returnparam.name) (vars m.returnparam.name) sizes',
      ?_⟩
    simp only [brokerReply, hret, if_true, replyItems]
    rw [runLines_append, hrun, Option.bind_some, hlast, ← hresult hret]

/-- The caller unpacks the response into its arguments. -/
lemma Sound.run_clientReply (h : m.Sound) {args after : String → Rose α} {result : Rose α}
    (hargs : m.Callable lt val args) (hreturns : m.Returns lt val args after result)
    {sizes : String → Option (Ident × ℤ)} (hsizes : OnlySized (m.returnparam :: m.params) sizes)
    (c : ℕ) : ∃ t, runLines lt val (m.clientReply c).1
        ⟨args, sizes, m.replyItems after result⟩ = some t ∧
      (∀ p ∈ m.params, t.vars p.name = if p.outParam then after p.name else args p.name) ∧
      (m.hasReturn = true → t.vars m.returnparam.name = result) := by
  obtain ⟨sizes', hsizes', hrun⟩ := run_emitAll_unMarshal lt val h.allDistinct
    (f := fun p => p.unMarshal false false true) after (m.params.filter Param.outParam) c
    ⟨args, sizes, m.replyItems after result⟩ (fun p hp => by
      obtain ⟨hp, hout⟩ := List.mem_filter.mp hp
      exact ⟨List.mem_cons_of_mem _ hp, rfl,
        ⟨h.params p hp, hreturns.hasType p hp hout, hreturns.fits p hp hout⟩,
        hargs.hasType p hp, fun hsize => (hreturns.length p hp hout hsize).symm⟩)
    (h.nodup.sublist (List.filter_sublist.map _)) hsizes rfl
  have hparams : ∀ p ∈ m.params, override (m.params.filter Param.outParam) after args p.name =
      if p.outParam then after p.name else args p.name := by
    intro p hp
    split_ifs with hout
    · exact override_of_mem _ _ (List.mem_filter.mpr ⟨hp, hout⟩)
    · refine override_of_ne _ _ fun q hq hname => ?_
      obtain ⟨hq, hqout⟩ := List.mem_filter.mp hq
      rw [h.allDistinct q (List.mem_cons_of_mem _ hq) p (List.mem_cons_of_mem _ hp) hname] at hqout
      exact hout hqout
  cases hret : m.hasReturn with
  | false =>
    simp only [clientReply, hret, Bool.false_eq_true, if_false]
    exact ⟨_, hrun, hparams, fun htrue => absurd htrue (by decide)⟩
  | true =>
    obtain ⟨hsound, hunsized⟩ := h.result hret
    obtain ⟨htype, hfits⟩ := hreturns.result hret
    let s : Side α := ⟨Function.update (override (m.params.filter Param.outParam) after args)
      m.returnparam.name m.returnparam.mytype.init, sizes',
      if m.hasReturn then m.returnparam.items result else []⟩
    have hinit : s.vars m.returnparam.name = m.returnparam.mytype.init := Function.update_self ..
    have hvar : m.returnparam.mytype.HasType lt (s.vars m.returnparam.name) := by
      rw [hinit]
      exact m.returnparam.mytype.hasType_init lt
    have hbuf : s.buf = m.returnparam.items result ++ [] := by simp [s, hret]
    have hlast := hsound.run_unMarshal (s := s) lt val true true
      (emitAll (fun p => p.unMarshal false false true) (m.params.filter Param.outParam) c).2
      htype hfits hvar (fun hfalse => absurd hfalse (by decide)) (hsizes' _ List.mem_cons_self)
      hbuf
    simp only [clientReply, hret, if_true]
    refine ⟨⟨Function.update s.vars m.returnparam.name result,
      m.returnparam.declares (.popSize2 m.returnparam.name) result sizes', []⟩, ?_,
      fun p hp => ?_, fun _ => ?_⟩
    · rw [runLines_append, runLines_append, hrun, Option.bind_some, hsound.run_declare,
        Option.bind_some, hsound.reformat]
      exact hlast
    · exact (Function.update_of_ne (h.name_ne hp) _ _).trans
        ((Function.update_of_ne (h.name_ne hp) _ _).trans (hparams p hp))
    · exact Function.update_self ..

end Method

/-! ### Remote calls -/

section Calls

variable {ω α : Type} [Inhabited α] (lt : KeyOrder α) (val : SizeValues α)

namespace Method

variable {m : Method} {f : Body ω α} {object : ω}

/-- What two functions have left and returned is the same for the parameters that count, and for
the result if there is one. -/
def Alike (m : Method) (counts : Param → Prop) (r r' : Returned α) : Prop :=
  (∀ p ∈ m.params, counts p → r'.1 p.name = r.1 p.name) ∧ (m.hasReturn = true → r'.2 = r.2)

omit [Inhabited α] in
/-- A call of functions that cannot be told apart by the arguments of the method. -/
lemma call_congr {f g : Body ω α} {vars : String → Rose α}
    (hobject : (g object (m.arguments vars)).1 = (f object (m.arguments vars)).1)
    (halike : Option.Rel (m.Alike fun p => p.shared = true) (f object (m.arguments vars)).2
      (g object (m.arguments vars)).2) : m.call g object vars = m.call f object vars := by
  rw [call, call, hobject]
  refine congrArg _ ?_
  generalize (f object (m.arguments vars)).2 = outcome at halike ⊢
  generalize (g object (m.arguments vars)).2 = outcome' at halike ⊢
  cases halike with
  | none => rfl
  | @some r r' halike =>
    refine congrArg some (Prod.ext (funext fun x => ?_) ?_)
    · dsimp only
      split_ifs with hx
      · obtain ⟨p, hp, hx⟩ := List.any_eq_true.mp hx
        obtain ⟨hshared, hname⟩ := Bool.and_eq_true_iff.mp hx
        rw [← beq_iff_eq.mp hname]
        exact halike.1 p hp hshared
      · rfl
    · dsimp only
      split_ifs with hret
      · exact halike.2 hret
      · rfl

omit [Inhabited α] in
/-- A call depends on the variables of the parameters alone. -/
lemma call_of_params_eq (f : Body ω α) (object : ω) {vars vars' : String → Rose α}
    (hvars : ∀ p ∈ m.params, vars' p.name = vars p.name) :
    (m.call f object vars').1 = (m.call f object vars).1 ∧
      Option.Rel (m.Alike fun _ => True) (m.call f object vars).2 (m.call f object vars').2 := by
  rw [call, call, arguments_congr hvars]
  refine ⟨rfl, ?_⟩
  cases (f object (m.arguments vars)).2 with
  | none => exact .none
  | some r =>
    refine .some ⟨fun p hp _ => ?_, fun _ => rfl⟩
    dsimp only
    split_ifs
    · rfl
    · exact hvars p hp

/-- The header says whether the caller waits. -/
lemma testBit_invokeCode (m : Method) : m.invokeCode.testBit 0 = m.waitreturn := by
  rw [invokeCode]
  split_ifs with hcons hwait hmutex hconc hmutex hconc
  · rw [waitreturn, if_pos hcons]
    decide
  all_goals simp_all

/-- A caller that does not wait gets no result. -/
lemma waitreturn_of_hasReturn (hasync : m.asyncError = none) (hret : m.hasReturn = true) :
    m.waitreturn = true := by
  by_contra hwait
  rw [asyncError, if_neg hwait] at hasync
  split at hasync
  · simp at hasync
  · simp [hret] at hasync

omit [Inhabited α] in
lemma Callable.arguments [Inhabited α] {args : String → Rose α} (h : m.Callable lt val args) :
    m.Callable lt val (m.arguments args) where
  hasType p hp := by
    rw [arguments_of_mem hp]
    exact h.hasType p hp
  fits p hp hin := by
    rw [arguments_of_mem hp]
    exact h.fits p hp hin
  tells p hp vars hvars := by
    rw [arguments_of_mem hp]
    exact h.tells p hp vars fun q hq hin => (hvars q hq hin).trans (arguments_of_mem hq args)

omit [Inhabited α] in
lemma Returns.arguments [Inhabited α] {args after : String → Rose α} {result : Rose α}
    (h : m.Returns lt val args after result) :
    m.Returns lt val (m.arguments args) after result where
  hasType := h.hasType
  fits := h.fits
  length p hp hout hsize := by
    rw [arguments_of_mem hp]
    exact h.length p hp hout hsize
  tells p hp hout vars hvars := by
    rw [arguments_of_mem hp]
    exact h.tells p hp hout vars hvars
  result := h.result

end Method

namespace Class

variable {C : Class} {t : Member} {c d : ℕ} {client : ClientStub} {broker : BrokerStub}
  {f : Body ω α} {object : ω} {args : String → Rose α}

lemma header_of_generateClient (h : C.generateClient t c = .ok client) :
    client.header.invokeCode = t.method.invokeCode ∧ t.method.asyncError = none := by
  have hcheck := (generateClient_eq_ok h).1
  unfold generateClient at h
  rw [if_neg (by simpa using hcheck)] at h
  split at h
  · simp at h
  · simp at h
  · next hasync =>
    obtain rfl := Except.ok.inj h
    exact ⟨rfl, hasync⟩

lemma generateBody_eq_some (h : C.generateBody t d = some broker) :
    broker.request = (t.method.brokerRequest d).1 ∧
      broker.reply = (t.method.brokerReply (t.method.brokerRequest d).2).1 ∧
      broker.call = t.method.brokerCall := by
  unfold generateBody at h
  split at h
  · obtain rfl := Option.some.inj h
    exact ⟨rfl, rfl, rfl⟩
  · simp at h

/-- The broker packs what the method has left, and its result. -/
lemma run_reply (hbroker : C.generateBody t d = some broker) (hm : t.method.Sound)
    {r r' : (String → Rose α) × Rose α} (hreturns : t.method.Returns lt val args r.1 r.2)
    (halike : t.method.Alike (fun _ => True) r r') {sizes : String → Option (Ident × ℤ)}
    (hsizes : OnlySized (t.method.returnparam :: t.method.params) sizes) :
    (runLines lt val broker.reply
      { vars := if broker.call.result.isSome then
            Function.update r'.1 t.method.returnparam.name r'.2 else r'.1
        sizes := sizes
        buf := [] }).map Side.buf = some (t.method.replyItems r.1 r.2) := by
  obtain ⟨-, hreply, hcall⟩ := generateBody_eq_some hbroker
  obtain ⟨hafter, hresult⟩ := halike
  have hisSome : broker.call.result.isSome = t.method.hasReturn := by
    rw [hcall, Method.brokerCall]
    cases t.method.hasReturn <;> rfl
  rw [hreply, hisSome]
  -- the variable of the result is none of the parameters
  have hparams : ∀ p ∈ t.method.params, (if t.method.hasReturn then
      Function.update r'.1 t.method.returnparam.name r'.2 else r'.1) p.name = r.1 p.name := by
    intro p hp
    rw [← hafter p hp trivial]
    split_ifs
    · exact Function.update_of_ne (hm.name_ne hp) _ _
    · rfl
  obtain ⟨sizes', hpack⟩ := hm.run_brokerReply lt val hreturns hparams
    (fun hret => by rw [if_pos hret, Function.update_self, hresult hret]) hsizes
    (t.method.brokerRequest d).2
  rw [hpack]
  rfl

/-- The two stubs together do what a call by copy does. -/
lemma remote_of_copied (f : Body ω α) (object : ω)
    (hclient : C.generateClient t c = .ok client)
    (hbroker : C.generateBody t d = some broker) (hm : t.method.Sound)
    (hargs : t.method.Callable lt val args)
    (hreturns : ∀ r, (t.method.call f object (t.method.received args)).2 = some r →
      t.method.waitreturn = true → t.method.Returns lt val args r.1 r.2) :
    (client.remote lt val broker t.method f object args).1 =
        (t.method.copied f object args).1 ∧
      Option.Rel (t.method.Alike fun _ => True) (t.method.copied f object args).2
        (client.remote lt val broker t.method f object args).2 := by
  obtain ⟨-, hrequest, hwait, hreply⟩ := generateClient_eq_ok hclient
  obtain ⟨hheader, hasync⟩ := header_of_generateClient hclient
  obtain ⟨hbrequest, -, -⟩ := generateBody_eq_some hbroker
  -- the request is packed and unpacked
  obtain ⟨sizes, hsizes, hpack⟩ := hm.run_clientRequest lt val hargs c
  obtain ⟨vars, sizes', hsizes', hvars, hunpack⟩ := hm.run_brokerRequest lt val hargs d
  obtain ⟨hobject, halike⟩ := Method.call_of_params_eq f object hvars
  rw [Method.copied, ClientStub.remote, hrequest, hpack]
  dsimp only
  rw [BrokerStub.serve, hheader, Method.testBit_invokeCode, hbrequest, hunpack, hwait]
  refine ⟨hobject, ?_⟩
  dsimp only
  by_cases hw : t.method.waitreturn = true
  · rw [if_pos hw, if_pos hw]
    generalize hcall : (t.method.call f object (t.method.received args)).2 = outcome at halike ⊢
    generalize (t.method.call f object vars).2 = outcome' at halike ⊢
    cases halike with
    | none => exact .none
    | @some r r' halike =>
      -- the response is packed and unpacked
      have hret := hreturns r hcall hw
      obtain ⟨u, hunpack', hparams, hresult⟩ := hm.run_clientReply lt val hargs hret hsizes
        (t.method.clientRequest c).2
      rw [hreply, Option.bind_some, if_pos hw, if_pos hw,
        run_reply lt val hbroker hm hret halike hsizes', Option.map_some, Option.bind_some,
        hunpack', Option.map_some]
      refine .some ⟨fun p hp _ => (hparams p hp).trans ?_, hresult⟩
      dsimp only
      rw [hm.any_outParam hp]
  · rw [if_neg hw, if_neg hw]
    exact .some ⟨fun _ _ _ => rfl,
      fun htrue => absurd (Method.waitreturn_of_hasReturn hasync htrue) hw⟩

end Class

/-- The function for the caller, called through its declaration, makes a call by copy. -/
lemma call_remote {C : Class} {t : Member} {c d : ℕ} {client : ClientStub} {broker : BrokerStub}
    (hclient : C.generateClient t c = .ok client) (hbroker : C.generateBody t d = some broker)
    (hm : t.method.Sound) {f : Body ω α} {object : ω} {args : String → Rose α}
    (hargs : t.method.Callable lt val args)
    (hreturns : ∀ r, (t.method.call f object (t.method.received args)).2 = some r →
      t.method.waitreturn = true → t.method.Returns lt val args r.1 r.2) :
    t.method.call (client.remote lt val broker t.method f) object args =
      t.method.call (t.method.copied f) object args := by
  obtain ⟨hobject, halike⟩ := Class.remote_of_copied lt val f object hclient hbroker hm
    hargs.arguments fun r hr hw => by
      rw [Method.received_arguments] at hr
      exact (hreturns r hr hw).arguments
  refine Method.call_congr hobject ?_
  generalize (t.method.copied f object (t.method.arguments args)).2 = outcome at halike ⊢
  generalize (client.remote lt val broker t.method f object (t.method.arguments args)).2 =
    outcome' at halike ⊢
  cases halike with
  | none => exact .none
  | some h => exact .some ⟨fun p hp _ => h.1 p hp trivial, h.2⟩

/-- **A remote call is a call by copy.**  Whatever the method does, a call of the function for the
caller, with the function of the broker at the other end, does to the object and to the variables
of the caller what a call by copy does, and returns the same. -/
theorem remote_call_eq_copied (C : Class) (t : Member) (c d : ℕ) (client : ClientStub)
    (broker : BrokerStub) (hclient : C.generateClient t c = .ok client)
    (hbroker : C.generateBody t d = some broker) (hm : t.method.Sound) (f : Body ω α) (object : ω)
    (args : String → Rose α) (hargs : t.method.Callable lt val args)
    (hreturns : ∀ r, (t.method.call f object (t.method.received args)).2 = some r →
      t.method.waitreturn = true → t.method.Returns lt val args r.1 r.2) :
    t.method.call (client.remote lt val broker t.method f) object args =
      t.method.call (t.method.copied f) object args :=
  call_remote lt val hclient hbroker hm hargs hreturns

/-! ### Methods that keep to their declaration -/

/-- The method keeps to its declaration: what it does depends on the arguments that travel to the
object, and on how long the blocks are; what it changes travels back. -/
structure Method.KeepsDeclaration (m : Method) (f : Body ω α) : Prop where
  reads : ∀ object (args args' : String → Rose α),
    (∀ p ∈ m.params, p.inParam = true → args' p.name = args p.name) →
    (∀ p ∈ m.params, p.paramSize.isSome = true →
      (args' p.name).children.length = (args p.name).children.length) →
    (f object args').1 = (f object args).1 ∧
    Option.Rel (fun r r' => (∀ p ∈ m.params, p.shared = true → p.outParam = true →
      r'.1 p.name = r.1 p.name) ∧ r'.2 = r.2) (f object args).2 (f object args').2
  writes : ∀ object (args : String → Rose α) r, (f object args).2 = some r →
    ∀ p ∈ m.params, p.shared = true → (m.waitreturn && p.outParam) = false →
      r.1 p.name = args p.name

/-- A variable of the broker for a block is as long as the block of the caller. -/
lemma Method.Sound.length_received {m : Method} (h : m.Sound) {p : Param} (hp : p ∈ m.params)
    (hsize : p.paramSize.isSome = true) (args : String → Rose α) :
    (m.received args p.name).children.length = (args p.name).children.length := by
  rw [h.received_of_mem hp]
  split_ifs
  · rfl
  · rw [Param.fresh, if_pos hsize, Rose.children, List.length_replicate]

/-- What the method does to the variables of a call by copy is what it does to the caller's. -/
lemma Method.Sound.reads_received {m : Method} (h : m.Sound) {f : Body ω α}
    (hf : m.KeepsDeclaration f) (object : ω) (args : String → Rose α) :
    (f object (m.arguments (m.received args))).1 = (f object (m.arguments args)).1 ∧
    Option.Rel (fun r r' => (∀ p ∈ m.params, p.shared = true → p.outParam = true →
      r'.1 p.name = r.1 p.name) ∧ r'.2 = r.2)
      (f object (m.arguments args)).2 (f object (m.arguments (m.received args))).2 := by
  refine hf.reads object _ _ (fun p hp hin => ?_) fun p hp hsize => ?_
  · rw [arguments_of_mem hp, arguments_of_mem hp, h.received_of_mem hp, if_pos hin]
  · rw [arguments_of_mem hp, arguments_of_mem hp, h.length_received hp hsize]

/-- For a method that keeps to its declaration, a call by copy is a call, if the caller waits. -/
lemma Method.Sound.call_copied {m : Method} (h : m.Sound) {f : Body ω α}
    (hf : m.KeepsDeclaration f) (object : ω) (args : String → Rose α)
    (hwait : m.waitreturn = true) : m.call (m.copied f) object args = m.call f object args := by
  obtain ⟨hobject, hrel⟩ := h.reads_received hf object args
  have hwrites := hf.writes object (m.arguments args)
  refine call_congr (by rw [copied, received_arguments]; exact hobject) ?_
  rw [copied, received_arguments, if_pos hwait, call]
  dsimp only
  generalize (f object (m.arguments args)).2 = outcome at hrel hwrites ⊢
  generalize (f object (m.arguments (m.received args))).2 = outcome' at hrel ⊢
  cases hrel with
  | none => exact .none
  | @some r r' hrel =>
    refine .some ⟨fun p hp hshared => ?_, fun hret => (if_pos hret).trans hrel.2⟩
    have hany : (m.params.any fun q => q.shared && q.name == p.name) = true :=
      List.any_eq_true.mpr ⟨p, hp, by rw [hshared, beq_self_eq_true]; rfl⟩
    dsimp only
    rw [h.any_outParam hp, if_pos hany]
    split_ifs with hback
    · exact hrel.1 p hp hshared hback
    · exact (hwrites r rfl p hp hshared (by rw [hwait, eq_false_of_ne_true hback]; rfl)).symm

omit [Inhabited α] in
/-- What a function leaves that changes none of its arguments and returns nothing. -/
lemma Method.call_of_unchanged {m : Method} (hret : m.hasReturn = false) {f : Body ω α}
    {object : ω} {args : String → Rose α} {r : Returned α}
    (hr : (f object (m.arguments args)).2 = some r)
    (hsame : ∀ p ∈ m.params, p.shared = true → r.1 p.name = args p.name) :
    (m.call f object args).2 = some (args, .node []) := by
  rw [call, hr, Option.map_some, hret]
  refine congrArg some (Prod.ext (funext fun x => ?_) rfl)
  dsimp only
  split_ifs with hx
  · obtain ⟨p, hp, hx⟩ := List.any_eq_true.mp hx
    obtain ⟨hshared, hname⟩ := Bool.and_eq_true_iff.mp hx
    rw [← beq_iff_eq.mp hname]
    exact hsame p hp hshared
  · rfl

/-- A caller that does not wait keeps its variables, whatever becomes of the call. -/
lemma Method.Sound.call_copied_async {m : Method} (h : m.Sound) {f : Body ω α}
    (hf : m.KeepsDeclaration f) (object : ω) (args : String → Rose α)
    (hwait : m.waitreturn = false) (hret : m.hasReturn = false) :
    m.call (m.copied f) object args = ((m.call f object args).1, some (args, .node [])) := by
  refine Prod.ext ?_ (Method.call_of_unchanged hret (r := (m.arguments args, .node [])) ?_
    fun p hp _ => arguments_of_mem hp args)
  · show (m.copied f object (m.arguments args)).1 = _
    rw [copied, received_arguments]
    exact (h.reads_received hf object args).1
  · rw [copied, hwait]
    rfl

/-- **A remote call is a call.**  A call of a method that keeps to its declaration, made through
the two stubs, does to the object what a call of the method itself does.  If the caller waits, it
does the same to the variables of the caller, returns the same and fails as the method does.  If
it does not, it always returns and leaves the variables alone, and so does a call of the method
itself that does not fail. -/
theorem remote_call_eq_call (C : Class) (t : Member) (c d : ℕ) (client : ClientStub)
    (broker : BrokerStub) (hclient : C.generateClient t c = .ok client)
    (hbroker : C.generateBody t d = some broker) (hm : t.method.Sound) (f : Body ω α)
    (hf : t.method.KeepsDeclaration f) (object : ω) (args : String → Rose α)
    (hargs : t.method.Callable lt val args)
    (hreturns : ∀ r, (t.method.call f object (t.method.received args)).2 = some r →
      t.method.waitreturn = true → t.method.Returns lt val args r.1 r.2) :
    (t.method.call (client.remote lt val broker t.method f) object args).1 =
      (t.method.call f object args).1 ∧
    (t.method.waitreturn = true →
      (t.method.call (client.remote lt val broker t.method f) object args).2 =
        (t.method.call f object args).2) ∧
    (t.method.waitreturn = false →
      (t.method.call (client.remote lt val broker t.method f) object args).2 =
        some (args, .node []) ∧
      ∀ r, (t.method.call f object args).2 = some r → r = (args, .node [])) := by
  rw [call_remote lt val hclient hbroker hm hargs hreturns]
  cases hwait : t.method.waitreturn with
  | true =>
    rw [hm.call_copied hf object args hwait]
    exact ⟨rfl, fun _ => rfl, fun h => absurd h (by decide)⟩
  | false =>
    have hret : t.method.hasReturn = false := by
      by_contra h
      rw [Method.waitreturn_of_hasReturn (Class.header_of_generateClient hclient).2
        (eq_true_of_ne_false h)] at hwait
      exact absurd hwait (by decide)
    rw [hm.call_copied_async hf object args hwait hret]
    refine ⟨rfl, fun h => absurd h (by decide), fun _ => ⟨rfl, fun r hr => ?_⟩⟩
    obtain ⟨r', hr', -⟩ := Option.map_eq_some_iff.mp hr
    refine Option.some.inj (hr.symm.trans ?_)
    refine Method.call_of_unchanged hret hr' fun p hp hshared => ?_
    rw [hf.writes object _ r' hr' p hp hshared (by rw [hwait]; rfl), Method.arguments_of_mem hp]

end Calls

/-! ### A call of `scale` -/

/-- A matrix that counts its calls doubles a row. -/
def doubleRow : Body ℕ ℤ := fun calls args =>
  (calls + 1, some (Function.update args "row" (.node ((args "row").children.map fun u =>
    match u with
    | .leaf a => .leaf (2 * a)
    | .node ts => .node ts)), .node []))

/-- The size expression `n`. -/
def sizeOfRow : SizeValues ℤ := fun _ vars =>
  match vars "n" with
  | .leaf a => a
  | .node _ => 0

/-- The variables of a caller with a row of two numbers. -/
def callerOfScale (x : String) : Rose ℤ :=
  if x = "n" then .leaf 2 else if x = "row" then .node [.leaf 3, .leaf 4] else .node []

/-- The parameters of `scale`. -/
lemma forall_params_scale {P : Param → Prop} (hn : P { name := "n", mytype := .basic "int" })
    (hrow : P { name := "row", mytype := .ptr 1 (.basic "double"), isInput := true
                isOutput := true, paramSize := some "n" }) :
    ∀ p ∈ scaleMember.method.params, P p := by
  intro p hp
  rcases List.mem_pair.mp hp with rfl | rfl
  · exact hn
  · exact hrow

lemma sound_scale : scaleMember.method.Sound where
  distinct := by decide
  params := forall_params_scale
    ⟨rfl, rfl, ⟨by decide, by decide, by decide⟩, by decide, fun _ => rfl, fun _ => rfl⟩
    ⟨rfl, rfl, ⟨by decide, by decide, by decide⟩, by decide, fun _ => rfl, fun _ => rfl⟩
  result := fun h => absurd h (by decide)

lemma callable_scale :
    scaleMember.method.Callable (fun _ _ _ => false) sizeOfRow callerOfScale where
  hasType := forall_params_scale ⟨2, rfl⟩ ⟨_, rfl, by simp [DataType.HasType]⟩
  fits := forall_params_scale (fun _ => by simp [DataType.fits]) fun _ => by simp [DataType.fits]
  tells := forall_params_scale (fun _ _ n hn => absurd hn (by simp)) fun vars hvars n _ => by
    have hn : vars "n" = .leaf 2 := (hvars _ List.mem_cons_self (by decide)).trans rfl
    rw [sizeOfRow, hn]
    rfl

/-- The method only changes the row. -/
lemma keepsDeclaration_scale : scaleMember.method.KeepsDeclaration doubleRow where
  reads calls args args' hin _ := by
    have hrow : args' "row" = args "row" :=
      hin _ (List.mem_cons_of_mem _ List.mem_cons_self) (by decide)
    refine ⟨rfl, .some ⟨forall_params_scale (fun h => absurd h (by decide)) fun _ _ => ?_, rfl⟩⟩
    simp [hrow]
  writes calls args := by
    rintro _ ⟨⟩
    exact forall_params_scale (fun h => absurd h (by decide)) fun _ h => absurd h (by decide)

lemma returns_scale (r) (hr : (scaleMember.method.call doubleRow 0
    (scaleMember.method.received callerOfScale)).2 = some r) :
    scaleMember.method.Returns (fun _ _ _ => false) sizeOfRow callerOfScale r.1 r.2 := by
  obtain rfl := Option.some.inj hr
  exact
    { hasType := forall_params_scale (fun h => absurd h (by decide)) fun _ =>
        ⟨[.leaf 6, .leaf 8], rfl, by simp [DataType.HasType]⟩
      fits := forall_params_scale (fun h => absurd h (by decide)) fun _ => by simp [DataType.fits]
      length := forall_params_scale (fun h => absurd h (by decide)) fun _ _ => rfl
      tells := forall_params_scale (fun h => absurd h (by decide)) fun _ vars hvars n _ => by
        have hn : vars "n" = .leaf 2 := (hvars _ List.mem_cons_self).trans rfl
        rw [sizeOfRow, hn]
        rfl
      result := fun h => absurd h (by decide) }

theorem remote_call_eq_copied_scale : ∃ client broker,
    matrixClass.generateClient scaleMember 0 = .ok client ∧
    matrixClass.generateBody scaleMember 0 = some broker ∧
    scaleMember.method.call (client.remote (fun _ _ _ => false) sizeOfRow broker scaleMember.method
      doubleRow) 0 callerOfScale =
    scaleMember.method.call (scaleMember.method.copied doubleRow) 0 callerOfScale :=
  ⟨_, _, rfl, rfl, remote_call_eq_copied _ _ matrixClass scaleMember 0 0 _ _ rfl rfl sound_scale
    doubleRow 0 callerOfScale callable_scale fun r hr _ => returns_scale r hr⟩

theorem remote_call_eq_call_scale : ∃ client broker r,
    matrixClass.generateClient scaleMember 0 = .ok client ∧
    matrixClass.generateBody scaleMember 0 = some broker ∧
    scaleMember.method.call (client.remote (fun _ _ _ => false) sizeOfRow broker scaleMember.method
      doubleRow) 0 callerOfScale = (1, some r) ∧
    r.1 "n" = .leaf 2 ∧ r.1 "row" = .node [.leaf 6, .leaf 8] := by
  obtain ⟨hobject, hwait, -⟩ := remote_call_eq_call (fun _ _ _ => false) sizeOfRow matrixClass
    scaleMember 0 0 _ _ rfl rfl sound_scale doubleRow keepsDeclaration_scale 0 callerOfScale
    callable_scale fun r hr _ => returns_scale r hr
  exact ⟨_, _, _, rfl, rfl, Prod.ext hobject (hwait rfl), rfl, rfl⟩

end Parser
