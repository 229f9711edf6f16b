/-
# The emitted statements do what the wire format says

Packing a value runs as `encode` says and unpacking as `decode` says: the machine is stuck where
these are undefined, and otherwise leaves the buffer, the record of the operations and the target
that they give.  In both directions the variables that were declared before keep their values;
this is what lets the code of the parts of a value be put together.
-/
import Mathlib.Tactic.Ring
import PopCpp.Parser.Codec
import PopCpp.Parser.Hygiene

namespace Parser

open Simulation

section

variable {α : Type}

/-! ### Variables that keep their values -/

/-- The integers and pointers with numbers below `n` have the same values in both states. -/
structure Frame (n : ℕ) (σ τ : State α) : Prop where
  ints : ∀ i < n, τ.ints i = σ.ints i
  refs : ∀ i < n, τ.refs i = σ.refs i

variable {σ τ υ : State α} {n m : ℕ} {x : Var}

lemma Frame.refl (n : ℕ) (σ : State α) : Frame n σ σ := ⟨fun _ _ => rfl, fun _ _ => rfl⟩

lemma Frame.trans (h : Frame n σ τ) (h' : Frame n τ υ) : Frame n σ υ :=
  ⟨fun i hi => (h'.ints i hi).trans (h.ints i hi),
    fun i hi => (h'.refs i hi).trans (h.refs i hi)⟩

lemma Frame.mono (h : Frame m σ τ) (hn : n ≤ m) : Frame n σ τ :=
  ⟨fun i hi => h.ints i (hi.trans_le hn), fun i hi => h.refs i (hi.trans_le hn)⟩

lemma Frame.setInt (σ : State α) (hx : n ≤ x.id) (k : ℤ) : Frame n σ (σ.setInt x k) :=
  ⟨fun i hi => Function.update_of_ne (by omega) _ _, fun _ _ => rfl⟩

lemma Frame.setRef (σ : State α) (hx : n ≤ x.id) (loc : Loc) : Frame n σ (σ.setRef x loc) :=
  ⟨fun _ _ => rfl, fun i hi => Function.update_of_ne (by omega) _ _⟩

lemma Frame.take {i : Item α} (h : σ.take = some (i, τ)) (n : ℕ) : Frame n σ τ := by
  unfold State.take at h
  split at h
  · cases h
  · obtain ⟨-, rfl⟩ := Prod.mk.inj (Option.some.inj h)
    exact ⟨fun _ _ => rfl, fun _ _ => rfl⟩

/-- The variables of an operand have numbers below `n`. -/
def LVal.Below (n : ℕ) (l : LVal) : Prop := ∀ x ∈ l.vars, x.id < n

lemma LVal.Below.mono {l : LVal} (h : l.Below n) (hn : n ≤ m) : l.Below m :=
  fun x hx => (h x hx).trans_le hn

lemma LVal.below_of_vars {l : LVal} (hl : l.vars = [x]) (hx : x.id < n) : l.Below n := by
  intro y hy
  obtain rfl : y = x := by simpa [hl] using hy
  exact hx

/-- An operand stands for the same place in both states. -/
lemma Frame.loc_eq (h : Frame n σ τ) {l : LVal} (hl : l.Below n) : l.loc τ = l.loc σ := by
  induction l with
  | var x => rfl
  | field l k f ih => simp only [LVal.loc, ih hl]
  | head l ih => simp only [LVal.loc, ih hl]
  | index l i ih =>
    have hi : i.id < n := hl i (by simp [LVal.vars])
    simp only [LVal.loc, ih fun x hx => hl x (by simp [LVal.vars, hx]), h.ints i.id hi]
  | target x => exact h.refs x.id (hl x (by simp [LVal.vars]))
  | first x => simp only [LVal.loc, h.refs x.id (hl x (by simp [LVal.vars]))]
  | second x => simp only [LVal.loc, h.refs x.id (hl x (by simp [LVal.vars]))]

lemma read_child {loc : Loc} {ts : List (Rose α)} (h : σ.read loc = some (.node ts)) (k : ℕ) :
    σ.read (loc.child k) = ts[k]? :=
  Rose.get?_concat h k

lemma elements_read {loc : Loc} {ts : List (Rose α)} (h : σ.read loc = some (.node ts)) :
    (σ.read loc).bind elements = some ts := by
  rw [h]
  rfl

/-! ### Packing -/

/-- The items `a` have been packed, and nothing else has happened to what was there before. -/
structure Packed (σ : State α) (n : ℕ) (a : List (Item α)) (τ : State α) : Prop where
  frame : Frame n σ τ
  buf : τ.buf = σ.buf ++ a
  ops : τ.ops = σ.ops ++ a.map Item.op
  objs : τ.objs = σ.objs

lemma Packed.refl (σ : State α) (n : ℕ) : Packed σ n [] σ :=
  ⟨.refl n σ, by simp, by simp, rfl⟩

lemma Packed.trans {a b : List (Item α)} (h : Packed σ n a τ) (h' : Packed τ n b υ) :
    Packed σ n (a ++ b) υ :=
  ⟨h.frame.trans h'.frame, by simp [h.buf, h'.buf], by simp [h.ops, h'.ops],
    h'.objs.trans h.objs⟩

lemma Packed.mono {a : List (Item α)} (h : Packed σ m a τ) (hn : n ≤ m) : Packed σ n a τ :=
  ⟨h.frame.mono hn, h.buf, h.ops, h.objs⟩

lemma Packed.setInt (σ : State α) (hx : n ≤ x.id) (k : ℤ) : Packed σ n [] (σ.setInt x k) :=
  ⟨.setInt σ hx k, by simp [State.setInt], by simp [State.setInt], rfl⟩

lemma Packed.setRef (σ : State α) (hx : n ≤ x.id) (loc : Loc) :
    Packed σ n [] (σ.setRef x loc) :=
  ⟨.setRef σ hx loc, by simp [State.setRef], by simp [State.setRef], rfl⟩

lemma Packed.put (σ : State α) (n : ℕ) (i : Item α) : Packed σ n [i] (σ.put i) :=
  ⟨⟨fun _ _ => rfl, fun _ _ => rfl⟩, rfl, rfl, rfl⟩

/-- Packing does not change what an operand stands for. -/
lemma Packed.read_eq {a : List (Item α)} (h : Packed σ n a τ) {l : LVal} (hl : l.Below n) :
    τ.read (l.loc τ) = σ.read (l.loc σ) := by
  rw [h.frame.loc_eq hl, State.read, State.read, h.objs]

/-- What is packed after `a` comes behind it. -/
lemma Packed.simulates {a : List (Item α)} {r : Option (State α)}
    {o : Option (List (Item α))} (h : Packed σ n a τ) (hr : Simulates r o (Packed τ n)) :
    Simulates r (o.map fun b => a ++ b) (Packed σ n) :=
  hr.map fun _ _ hb => h.trans hb

lemma Packed.simulates_nil {r : Option (State α)} {o : Option (List (Item α))}
    (h : Packed σ n [] τ) (hr : Simulates r o (Packed τ m)) (hn : n ≤ m) :
    Simulates r o (Packed σ n) :=
  hr.mono fun _ _ hb => by simpa using h.trans (hb.mono hn)

/-- Packing one value after the other, as an iteration over the list. -/
lemma each_encodeAll (f : Rose α → Option (List (Item α))) (vs : List (Rose α))
    (a : List (Item α)) : each (fun v b => (f v).map fun c => b ++ c) vs a =
      (encodeAll f vs).map fun c => a ++ c := by
  induction vs generalizing a with
  | nil => simp [each, encodeAll]
  | cons v vs ih =>
    cases hv : f v with
    | none => simp [each, encodeAll, hv]
    | some c =>
      cases hvs : encodeAll f vs with
      | none => simp [each, encodeAll, hv, ih, hvs]
      | some d => simp [each, encodeAll, hv, ih, hvs]

/-- A loop over the elements of a list packs them one after the other if each pass packs its
element. -/
lemma simulates_encodeAll {body : ℕ → State α → Option (State α)}
    {f : Rose α → Option (List (Item α))} (ts : List (Rose α)) (σ : State α) (n : ℕ)
    (h : ∀ j u a τ, ts[j]? = some u → Packed σ n a τ →
      Simulates (body j τ) (f u) (Packed τ n)) :
    Simulates (loop body ts.length 0 σ) (encodeAll f ts) (Packed σ n) := by
  have hloop := simulates_loop body (fun v b => (f v).map fun c => b ++ c)
    (fun done todo a τ => ts = done ++ todo ∧ Packed σ n a τ) ?_ [] ts [] σ
    ⟨rfl, .refl σ n⟩
  · rw [each_encodeAll] at hloop
    simp only [List.nil_append, Option.map_id'] at hloop
    exact hloop.mono fun a τ hτ => hτ.2
  · rintro done u todo a τ ⟨hts, hτ⟩
    have hu : ts[done.length]? = some u := by simp [hts]
    refine (hτ.simulates (h _ u a τ hu hτ)).mono fun b υ hυ => ⟨by simp [hts], hυ⟩

/-- `Pack` of all elements of an array. -/
lemma packed_head {l : LVal} {ts : List (Rose α)} {k : Size}
    (h : σ.read (l.loc σ) = some (.node ts)) (hk : k.val σ = ts.length) (h1 : k ≠ .one) :
    packed σ (.head l) k = some ts := by
  cases k with
  | one => exact absurd rfl h1
  | var x => simp [packed, elements_read h, hk]
  | card c => simp [packed, elements_read h, hk]

variable [Inhabited α] (lt : KeyOrder α)

/-- The elements of a standard type are packed in one piece. -/
lemma simulates_packBlock {b : DataType} (hb : b.isStandardType) {l : LVal} {k : Size}
    {g : Gen} {f : Rose α → Option (List (Item α))} {ts : List (Rose α)} (n : ℕ)
    (h : σ.read (l.loc σ) = some (.node ts)) (hk : k.val σ = ts.length) (h1 : k ≠ .one) :
    Simulates (run lt (b.marshal (.head l) (some k) g).1 σ) (encodeBlock b f ts)
      (Packed σ n) := by
  obtain ⟨name, rfl, -⟩ := DataType.eq_basic_of_isStandardType hb
  by_cases hname : name = "void"
  · subst hname
    have hv : (DataType.basic "void").isVoid = true := rfl
    simp only [DataType.marshal, encodeBlock, hb, hv, if_true, run]
    exact .of_some (.refl σ n)
  · have hv : (DataType.basic name).isVoid = false := by
      simpa [DataType.isVoid, DataType.getExpandType] using hname
    simp only [DataType.marshal, encodeBlock, hb, hv, hname, if_true, if_false, run,
      Option.getD_some, packed_head h hk h1, Option.map_some, DataType.getName]
    exact .of_some (.put σ n _)

/-- The elements of an array, an array being packed by a loop over pointers to them. -/
lemma simulates_packElems {b : DataType} {cnt elem : Var} {k : Size} {l : LVal} {body : Stmt}
    {f : Rose α → Option (List (Item α))} {ts : List (Rose α)}
    (h : σ.read (l.loc σ) = some (.node ts)) (hk : k.val σ = ts.length)
    (hcnt : n ≤ cnt.id) (helem : n ≤ elem.id) (hm : n ≤ m)
    (hbody : ∀ u τ, u ∈ ts → τ.read (LVal.loc τ (.target elem)) = some u →
      Simulates (run lt body τ) (f u) (Packed τ m)) :
    Simulates (run lt (.forElems b cnt elem k l body) σ) (encodeAll f ts) (Packed σ n) := by
  simp only [run, hk, Int.toNat_natCast]
  refine simulates_encodeAll ts σ n fun j u a τ hj hτ => ?_
  have hstep : Packed τ n [] ((τ.setInt cnt (ts.length - j)).setRef elem ((l.loc σ).child j)) := by
    simpa using (Packed.setInt τ hcnt _).trans (.setRef _ helem _)
  refine hstep.simulates_nil (hbody u _ (List.mem_of_getElem? hj) ?_) hm
  have hread : τ.read ((l.loc σ).child j) = some u := by
    rw [← hj, ← read_child h, State.read, State.read, hτ.objs]
  simpa [LVal.loc, State.setRef, State.setInt, State.read] using hread

/-- The elements of a container, packed by a loop over iterators. -/
lemma simulates_packIter {t : DataType} {it : Var} {l : LVal} {body : Stmt}
    {f : Rose α → Option (List (Item α))} {ts : List (Rose α)}
    (h : σ.read (l.loc σ) = some (.node ts)) (hit : n ≤ it.id) (hm : n ≤ m)
    (hbody : ∀ u τ, u ∈ ts → τ.read (LVal.loc τ (.target it)) = some u →
      Simulates (run lt body τ) (f u) (Packed τ m)) :
    Simulates (run lt (.forIter t it l body) σ) (encodeAll f ts) (Packed σ n) := by
  simp only [run, elements_read h, Option.bind_some]
  refine simulates_encodeAll ts σ n fun j u a τ hj hτ => ?_
  refine (Packed.setRef τ hit _).simulates_nil (hbody u _ (List.mem_of_getElem? hj) ?_) hm
  have hread : τ.read ((l.loc σ).child j) = some u := by
    rw [← hj, ← read_child h, State.read, State.read, hτ.objs]
  simpa [LVal.loc, State.setRef, State.read] using hread

/-- The size of a container is packed before its elements. -/
lemma simulates_packSize {size : Var} {l : LVal} {s : Stmt} {ts : List (Rose α)}
    {o : Option (List (Item α))} (hl : l.Below n) (hsize : n ≤ size.id) (hm : n ≤ m)
    (h : σ.read (l.loc σ) = some (.node ts))
    (hs : ∀ τ, τ.read (l.loc τ) = some (.node ts) → τ.ints size.id = CInt.wrap ts.length →
      Simulates (run lt s τ) o (Packed τ m)) :
    Simulates (run lt (.seq (.declSize size l) (.seq (.packInt size) s)) σ)
      (o.map fun a => .size (CInt.wrap ts.length) :: a) (Packed σ n) := by
  have hτ : Packed σ n [.size (CInt.wrap ts.length)]
      ((σ.setInt size (CInt.wrap ts.length)).put (.size (CInt.wrap ts.length))) := by
    simpa using (Packed.setInt σ hsize (CInt.wrap ts.length)).trans (.put _ n _)
  have hint : ((σ.setInt size (CInt.wrap ts.length)).put
      (.size (CInt.wrap ts.length))).ints size.id = CInt.wrap ts.length := by
    simp [State.setInt, State.put]
  have hsim := hτ.simulates ((hs _ ((hτ.read_eq hl).trans h) hint).mono fun _ _ hb => hb.mono hm)
  simp only [run, elements_read h, Option.map_some, Option.bind_some]
  simpa [State.setInt] using hsim

omit [Inhabited α] in
/-- `Pack` of the first elements of an array. -/
lemma packed_var {l : LVal} {ts : List (Rose α)} {z : ℤ}
    (h : σ.read (l.loc σ) = some (.node ts)) (hz : σ.ints x.id = z) :
    packed σ (.head l) (.var x) =
      if 0 ≤ z ∧ z ≤ ts.length then some (ts.take z.toNat) else none := by
  subst hz
  simp only [packed, elements_read h, Option.bind_some, Size.val]
  rfl

/-- The elements of a vector of a standard type are packed in one piece. -/
lemma simulates_packVector {size : Var} {l : LVal} {type : String} {ts : List (Rose α)}
    (hl : l.Below n) (hsize : n ≤ size.id) (h : σ.read (l.loc σ) = some (.node ts)) :
    Simulates (run lt (.seq (.declSize size l) (.seq (.packInt size)
        (.pack type (.head l) (.var size)))) σ)
      (if 0 ≤ CInt.wrap ts.length then
        some [.size (CInt.wrap ts.length), .data type (ts.take (CInt.wrap ts.length).toNat)]
      else none) (Packed σ n) := by
  have hle : CInt.wrap ts.length ≤ ts.length := CInt.wrap_le (by simp)
  by_cases h0 : 0 ≤ CInt.wrap ts.length
  · have hsim := simulates_packSize (s := .pack type (.head l) (.var size))
      (o := some [.data type (ts.take (CInt.wrap ts.length).toNat)]) lt hl hsize le_rfl h ?_
    · rw [if_pos h0]
      rw [Option.map_some] at hsim
      exact hsim
    · intro τ hτ hint
      rw [run, packed_var hτ hint, if_pos ⟨h0, hle⟩, Option.map_some]
      exact .of_some (.put τ _ _)
  · have hsim := simulates_packSize (s := .pack type (.head l) (.var size))
      (o := none) lt hl hsize le_rfl h ?_
    · rw [if_neg h0]
      rw [Option.map_none] at hsim
      exact hsim
    · intro τ hτ hint
      rw [run, packed_var hτ hint, if_neg fun hc => h0 hc.1, Option.map_none]
      exact simulates_none

mutual

/-- Packing a value runs as its encoding says. -/
lemma DataType.simulates_marshal : ∀ (t : DataType) {l : LVal} {g : Gen} {σ : State α}
    {v : Rose α}, t.pointerFree → l.Below g.fresh → σ.read (l.loc σ) = some v →
    t.HasType lt v →
    Simulates (run lt (t.marshal l none g).1 σ) (t.encode v) (Packed σ g.fresh)
  | .basic name, l, g, σ, v, _, _, hr, _ => by
    by_cases hname : name = "void"
    · simp only [DataType.marshal, DataType.encode, hname, if_true, run]
      exact .of_some (.refl σ _)
    · simp only [DataType.marshal, DataType.encode, hname, if_false, run, Option.getD_none, packed,
        hr, Option.map_some]
      exact .of_some (.put σ _ _)
  | .array c b, l, g, σ, v, hp, hl, hr, hv => by
    obtain ⟨ts, rfl, hlen, hts⟩ := hv
    have hk : (Size.card c).val σ = ts.length := by simp [Size.val, hlen]
    simp only [DataType.marshal, DataType.encode, Rose.children, Option.getD_none]
    by_cases hb : b.isStandardType
    · simp only [hb, if_true]
      exact simulates_packBlock lt hb _ hr hk (by simp)
    · simp only [encodeBlock, if_neg hb]
      refine simulates_packElems (m := g.fresh + 2) lt hr hk le_rfl (by simp) (by simp) ?_
      intro u τ hu hτ
      exact b.simulates_marshal hp (LVal.below_of_vars rfl (by simp)) hτ (hts u hu)
  | .ptr _ _, _, _, _, _, hp, _, _, _ => absurd hp (by simp [DataType.pointerFree])
  | .equal _ t, l, g, σ, v, hp, hl, hr, hv => by
    simp only [DataType.marshal, DataType.encode]
    exact t.simulates_marshal hp hl hr hv
  | .struct _ as, l, g, σ, v, hp, hl, hr, hv => by
    obtain ⟨ts, rfl, hts⟩ := hv
    simp only [DataType.marshal, DataType.encode, Rose.children]
    exact as.simulates_marshal 0 hp hl hr (by simpa using hts)
  | .seqClass name _, l, g, σ, v, _, _, hr, _ => by
    simp only [DataType.marshal, DataType.encode, run, hr, Option.map_some]
    exact .of_some (.put σ _ _)
  | .seq q k e, l, g, σ, v, hp, hl, hr, hv => by
    obtain ⟨ts, rfl, hts⟩ := hv
    by_cases hk : k = .vector ∧ e.isStandardType = true
    · rw [DataType.encode_vector hk]
      simp only [DataType.marshal, if_pos hk]
      exact simulates_packVector lt hl le_rfl hr
    · simp only [DataType.marshal, DataType.encode, if_neg hk]
      refine simulates_packSize (m := g.fresh) lt hl le_rfl le_rfl hr fun τ hτ _ => ?_
      refine simulates_packIter (m := g.fresh + 2) lt hτ (by simp) (by simp) fun u υ hu hυ => ?_
      exact e.simulates_marshal hp (LVal.below_of_vars rfl (by simp)) hυ (hts u hu)
  | .map q k w, l, g, σ, v, hp, hl, hr, hv => by
    obtain ⟨ts, rfl, hts, hsorted⟩ := hv
    obtain ⟨hpk, hpw⟩ := Bool.and_eq_true_iff.mp (by simpa only [DataType.pointerFree] using hp)
    simp only [DataType.marshal, DataType.encode, Rose.children]
    refine simulates_packSize (m := g.fresh) lt hl le_rfl le_rfl hr fun τ hτ _ => ?_
    refine simulates_packIter (m := g.fresh + 2) lt hτ (by simp) (by simp) fun u υ hu hυ => ?_
    obtain ⟨a, b, rfl, ha, hb⟩ := hts u hu
    have hfresh := (k.extends_marshal (.first ⟨g.fresh + 1, .mapIterator g.counter⟩) none
      ⟨g.counter + 1, g.fresh + 2⟩ []).fresh
    refine (k.simulates_marshal hpk (LVal.below_of_vars rfl (by simp)) (read_child hυ 0)
      ha).bind fun x τ' hτ' => ?_
    have hb' := (hτ'.read_eq (l := .second ⟨g.fresh + 1, .mapIterator g.counter⟩)
      (LVal.below_of_vars rfl (by simp))).trans (read_child hυ 1)
    have hl' : (LVal.second ⟨g.fresh + 1, .mapIterator g.counter⟩).Below (g.fresh + 2) :=
      LVal.below_of_vars rfl (by simp)
    exact hτ'.simulates ((w.simulates_marshal hpw (hl'.mono hfresh) hb' hb).mono
      fun _ _ hy => hy.mono hfresh)
  | .parClass name, l, g, σ, v, _, _, hr, _ => by
    simp only [DataType.marshal, DataType.encode, run, hr, Option.map_some]
    exact .of_some (.put σ _ _)

/-- The attributes from the `k`-th on. -/
lemma Attributes.simulates_marshal : ∀ (as : Attributes) (k : ℕ) {l : LVal} {g : Gen}
    {σ : State α} {ts : List (Rose α)}, as.pointerFree → l.Below g.fresh →
    σ.read (l.loc σ) = some (.node ts) → as.HasTypes lt (ts.drop k) →
    Simulates (run lt (as.marshal l k g).1 σ) (as.encode (ts.drop k)) (Packed σ g.fresh)
  | .nil, k, l, g, σ, ts, _, _, _, _ => by
    simp only [Attributes.marshal, Attributes.encode, run]
    exact .of_some (.refl σ _)
  | .cons t f rest, k, l, g, σ, ts, hp, hl, hr, hts => by
    obtain ⟨u, us, hdrop, hu, hus⟩ := hts
    obtain ⟨hp1, hp2⟩ := Bool.and_eq_true_iff.mp (by simpa only [Attributes.pointerFree] using hp)
    have hk : ts[k]? = some u := by rw [← List.head?_drop, hdrop]; rfl
    have hrest : ts.drop (k + 1) = us := by rw [← List.tail_drop, hdrop]; rfl
    have hfresh := (t.extends_marshal (.field l k f) none g []).fresh
    simp only [Attributes.marshal, Attributes.encode, run, hdrop, List.headD_cons, List.tail_cons]
    refine (t.simulates_marshal hp1 (l := .field l k f) hl ((read_child hr k).trans hk)
      hu).bind fun x τ hτ => ?_
    have hsim := rest.simulates_marshal (k + 1) hp2 (hl.mono hfresh)
      ((hτ.read_eq hl).trans hr) (by rw [hrest]; exact hus)
    rw [hrest] at hsim
    exact hτ.simulates (hsim.mono fun _ _ hy => hy.mono hfresh)

end

end

/-! ### Unpacking -/

section

variable {α : Type} {σ τ υ : State α} {n m : ℕ} {x : Var} {loc : Loc} {w : Rose α}
  {r r' : Rose α × List (Item α)}

/-- The place `loc` has been filled with the value of `r`, the items of `r` are left in the
buffer, and nothing else has happened to what was there before. -/
structure Filled (σ : State α) (n : ℕ) (loc : Loc) (r : Rose α × List (Item α))
    (τ : State α) : Prop where
  frame : Frame n σ τ
  buf : τ.buf = r.2
  ops : ∃ a, σ.buf = a ++ r.2 ∧ τ.ops = σ.ops ++ a.map Item.op
  objs : ∀ i < n, i ≠ loc.obj → τ.objs i = σ.objs i
  obj : Rose.set? loc.path (σ.objs loc.obj) r.1 = some (τ.objs loc.obj)

lemma Filled.refl (n : ℕ) (h : σ.read loc = some w) : Filled σ n loc (w, σ.buf) σ :=
  ⟨.refl n σ, rfl, ⟨[], by simp⟩, fun _ _ _ => rfl, Rose.set?_self h⟩

lemma Filled.trans (h : Filled σ n loc r τ) (h' : Filled τ n loc r' υ) :
    Filled σ n loc r' υ := by
  obtain ⟨a, ha, hops⟩ := h.ops
  obtain ⟨b, hb, hops'⟩ := h'.ops
  refine ⟨h.frame.trans h'.frame, h'.buf, ⟨a ++ b, ?_, ?_⟩,
    fun i hi hne => (h'.objs i hi hne).trans (h.objs i hi hne), ?_⟩
  · rw [ha, ← h.buf, hb, List.append_assoc]
  · rw [hops', hops, List.map_append, List.append_assoc]
  · rw [← Rose.set?_set? h.obj]
    exact h'.obj

lemma Filled.mono (h : Filled σ m loc r τ) (hn : n ≤ m) : Filled σ n loc r τ :=
  ⟨h.frame.mono hn, h.buf, h.ops, fun i hi => h.objs i (hi.trans_le hn), h.obj⟩

lemma Filled.read (h : Filled σ n loc r τ) : τ.read loc = some r.1 := Rose.get?_set? h.obj

lemma Filled.loc_eq (h : Filled σ n loc r τ) {l : LVal} (hl : l.Below n) :
    l.loc τ = l.loc σ :=
  h.frame.loc_eq hl

lemma Filled.setInt (hx : n ≤ x.id) (h : σ.read loc = some w) (k : ℤ) :
    Filled σ n loc (w, σ.buf) (σ.setInt x k) :=
  ⟨.setInt σ hx k, rfl, ⟨[], by simp [State.setInt]⟩, fun _ _ _ => rfl, Rose.set?_self h⟩

lemma Filled.setRef (hx : n ≤ x.id) (h : σ.read loc = some w) (loc' : Loc) :
    Filled σ n loc (w, σ.buf) (σ.setRef x loc') :=
  ⟨.setRef σ hx loc', rfl, ⟨[], by simp [State.setRef]⟩, fun _ _ _ => rfl, Rose.set?_self h⟩

lemma Filled.setObj (hx : n ≤ x.id) (hloc : loc.obj < n) (h : σ.read loc = some w)
    (u : Rose α) : Filled σ n loc (w, σ.buf) (σ.setObj x u) := by
  have hobj : ∀ i < n, (σ.setObj x u).objs i = σ.objs i := fun i hi =>
    Function.update_of_ne (by omega) _ _
  refine ⟨⟨fun _ _ => rfl, fun _ _ => rfl⟩, rfl, ⟨[], by simp [State.setObj]⟩,
    fun i hi _ => hobj i hi, ?_⟩
  rw [hobj loc.obj hloc]
  exact Rose.set?_self h

/-- `UnPack` leaves the objects alone. -/
lemma Filled.take {i : Item α} (h : σ.read loc = some w) (ht : σ.take = some (i, τ)) :
    Filled σ n loc (w, τ.buf) τ := by
  have hframe := Frame.take ht n
  unfold State.take at ht
  split at ht
  · cases ht
  · next j rest hbuf =>
    obtain ⟨rfl, rfl⟩ := Prod.mk.inj (Option.some.inj ht)
    exact ⟨hframe, rfl, ⟨[j], by simp [hbuf]⟩, fun _ _ _ => rfl, Rose.set?_self h⟩

lemma Filled.write (h : σ.read loc = some w) (u : Rose α) :
    ∃ τ, σ.write loc u = some τ ∧ Filled σ n loc (u, σ.buf) τ := by
  obtain ⟨o, ho⟩ := Rose.exists_set? h u
  refine ⟨{ σ with objs := Function.update σ.objs loc.obj o }, by simp [State.write, ho], ?_⟩
  refine ⟨⟨fun _ _ => rfl, fun _ _ => rfl⟩, rfl, ⟨[], by simp⟩, fun i _ hne => ?_, ?_⟩
  · exact Function.update_of_ne hne _ _
  · simpa using ho

/-- Filling another object. -/
lemma Filled.aside {loc' : Loc} (h : Filled σ m loc' r τ) (hn : n ≤ m) (hloc : loc.obj < n)
    (hloc' : n ≤ loc'.obj) (hr : σ.read loc = some w) : Filled σ n loc (w, r.2) τ := by
  have hobj : ∀ i < n, τ.objs i = σ.objs i := fun i hi => h.objs i (by omega) (by omega)
  refine ⟨h.frame.mono hn, h.buf, h.ops, fun i hi _ => hobj i hi, ?_⟩
  rw [hobj loc.obj hloc]
  exact Rose.set?_self hr

/-- What is done after a step counts from before it. -/
lemma Filled.simulates {p : Option (State α)} {o : Option (Rose α × List (Item α))}
    (h : Filled σ n loc r τ) (hp : Simulates p o (Filled τ m loc)) (hn : n ≤ m) :
    Simulates p o (Filled σ n loc) :=
  hp.mono fun _ _ hs => h.trans (hs.mono hn)

/-- Filling an element fills the whole. -/
lemma Filled.child {ts : List (Rose α)} {k : ℕ} (h : σ.read loc = some (.node ts))
    (hk : k < ts.length) (hf : Filled σ n (loc.child k) r τ) :
    Filled σ n loc (.node (ts.set k r.1), r.2) τ := by
  refine ⟨hf.frame, hf.buf, hf.ops, hf.objs, ?_⟩
  rw [← Rose.set?_concat h hk]
  exact hf.obj

/-- Reading one value after the other, as an iteration over the targets. -/
lemma each_decodeAll (f : Rose α → List (Item α) → Option (Rose α × List (Item α)))
    (ws vs : List (Rose α)) (buf : List (Item α)) :
    each (fun w (b : List (Rose α) × List (Item α)) =>
        (f w b.2).map fun r => (b.1 ++ [r.1], r.2)) ws (vs, buf) =
      (decodeAll f ws buf).map fun s => (vs ++ s.1, s.2) := by
  induction ws generalizing vs buf with
  | nil => simp [each, decodeAll]
  | cons w ws ih =>
    cases hw : f w buf with
    | none => simp [each, decodeAll, hw]
    | some r =>
      simp only [each, decodeAll, hw, Option.map_some, Option.bind_some, ih, Option.map_map]
      congr 1
      funext s
      simp

/-- A loop over the elements of a target fills them one after the other if each pass fills its
element. -/
lemma simulates_decodeAll {body : ℕ → State α → Option (State α)}
    {f : Rose α → List (Item α) → Option (Rose α × List (Item α))} {ts : List (Rose α)}
    (h : σ.read loc = some (.node ts))
    (hbody : ∀ j u r τ, ts[j]? = some u → Filled σ n loc r τ → τ.read (loc.child j) = some u →
      Simulates (body j τ) (f u τ.buf) (Filled τ n (loc.child j))) :
    Simulates (loop body ts.length 0 σ)
      ((decodeAll f ts σ.buf).map fun s => (.node s.1, s.2)) (Filled σ n loc) := by
  have hloop := simulates_loop body (fun w (b : List (Rose α) × List (Item α)) =>
      (f w b.2).map fun r => (b.1 ++ [r.1], r.2))
    (fun done todo b τ => ts = done ++ todo ∧ b.1.length = done.length ∧
      Filled σ n loc (.node (b.1 ++ todo), b.2) τ) ?_ [] ts ([], σ.buf) σ
    ⟨rfl, rfl, .refl n h⟩
  · rw [each_decodeAll] at hloop
    simp only [List.nil_append, Option.map_id'] at hloop
    exact hloop.map fun s τ hτ => by simpa using hτ.2.2
  · rintro done u todo b τ ⟨hts, hlen, hτ⟩
    have hu : ts[done.length]? = some u := by simp [hts]
    have hread : τ.read (loc.child done.length) = some u := by
      rw [read_child hτ.read, ← hlen]
      simp
    have hsim := hbody _ u _ τ hu hτ hread
    rw [hτ.buf] at hsim
    refine hsim.map fun r υ hυ => ⟨by simp [hts], by simp [hlen], ?_⟩
    have hfill := hυ.child hτ.read (by simp [← hlen])
    rw [← hlen, List.set_append_right _ _ le_rfl] at hfill
    simpa using hτ.trans hfill

/-- `UnPack` into all elements of an array. -/
lemma unPacked_head {l : LVal} {ts vs : List (Rose α)} {k : Size}
    (h : σ.read (l.loc σ) = some (.node ts)) (hk : k.val σ = ts.length) (h1 : k ≠ .one)
    (hvs : vs.length = ts.length) :
    unPacked σ vs (.head l) k = σ.write (l.loc σ) (.node vs) := by
  cases k with
  | one => exact absurd rfl h1
  | var x => simp [unPacked, elements_read h, hk, hvs]
  | card c => simp [unPacked, elements_read h, hk, hvs]

variable [Inhabited α] (lt : KeyOrder α)

/-- `UnPack` of `N` values, which are then put in their place. -/
lemma simulates_unPack {type : String} {l : LVal} {k : Size} {N : ℕ}
    {f : List (Rose α) → Rose α} (hr : σ.read loc = some w) (hk : k.val σ = N)
    (h : ∀ vs τ, vs.length = N → (∀ i, Frame i σ τ) → τ.read loc = some w →
      ∃ υ, unPacked τ vs l k = some υ ∧ Filled τ n loc (f vs, τ.buf) υ) :
    Simulates (run lt (.unPack type l k) σ)
      ((takeData type N σ.buf).map fun r => (f r.1, r.2)) (Filled σ n loc) := by
  cases hbuf : σ.buf with
  | nil =>
    simp only [run, State.take, hbuf, takeData, Option.bind_none, Option.map_none]
    exact simulates_none
  | cons i rest =>
    have ht : σ.take = some (i, { σ with buf := rest, ops := σ.ops ++ [i.op] }) := by
      simp [State.take, hbuf]
    cases i with
    | size k =>
      simp only [run, ht, takeData, Option.bind_some, Option.map_none]
      exact simulates_none
    | object type' v =>
      simp only [run, ht, takeData, Option.bind_some, Option.map_none]
      exact simulates_none
    | data type' vs =>
      simp only [run, ht, takeData, Option.bind_some, hk, Nat.cast_inj]
      by_cases hc : type' = type ∧ vs.length = N
      · simp only [if_pos hc, Option.map_some]
        have hτ := Filled.take (n := n) hr ht
        obtain ⟨υ, hυ, hfill⟩ := h vs _ hc.2 (Frame.take ht) hτ.read
        rw [hυ]
        exact .of_some (hτ.trans hfill)
      · simp only [if_neg hc, Option.map_none]
        exact simulates_none

/-- `Serialize(buf, false)`. -/
lemma simulates_serialize {type : String} {l : LVal} (hl : l.Below n)
    (hr : σ.read (l.loc σ) = some w) :
    Simulates (run lt (.serialize type l false) σ) (takeObject type σ.buf)
      (Filled σ n (l.loc σ)) := by
  cases hbuf : σ.buf with
  | nil =>
    simp only [run, State.take, hbuf, takeObject, Option.bind_none]
    exact simulates_none
  | cons i rest =>
    have ht : σ.take = some (i, { σ with buf := rest, ops := σ.ops ++ [i.op] }) := by
      simp [State.take, hbuf]
    cases i with
    | size k =>
      simp only [run, ht, takeObject, Option.bind_some]
      exact simulates_none
    | data type' vs =>
      simp only [run, ht, takeObject, Option.bind_some]
      exact simulates_none
    | object type' v =>
      simp only [run, ht, takeObject, Option.bind_some]
      by_cases hc : type' = type
      · have hτ := Filled.take (n := n) hr ht
        have hloc := (Frame.take ht n).loc_eq hl
        obtain ⟨υ, hυ, hfill⟩ := Filled.write (n := n) hτ.read v
        simp only [if_pos hc, hloc, hυ]
        exact .of_some (hτ.trans hfill)
      · simp only [if_neg hc]
        exact simulates_none

lemma run_declInt (x : Var) (σ : State α) : run lt (.declInt x) σ = some (σ.setInt x 0) := by
  rw [run]

lemma run_declObj (t : DataType) (x : Var) (σ : State α) :
    run lt (.declObj t x) σ = some (σ.setObj x t.init) := by
  rw [run]

/-- `UnPack` of the size of a container, after which `s` is run. -/
lemma simulates_unPackSize (size : Var) {s : Stmt}
    {o : ℤ → List (Item α) → Option (Rose α × List (Item α))} (hsize : n ≤ size.id)
    (hr : σ.read loc = some w)
    (hs : ∀ k τ, Filled σ n loc (w, τ.buf) τ → τ.ints size.id = k →
      (∀ i, τ.objs i = σ.objs i) → Simulates (run lt s τ) (o k τ.buf) (Filled τ n loc)) :
    Simulates (run lt (.seq (.unPackInt size) s) σ)
      ((takeSize σ.buf).bind fun r => o r.1 r.2) (Filled σ n loc) := by
  cases hbuf : σ.buf with
  | nil =>
    simp only [run, State.take, hbuf, takeSize, Option.bind_none]
    exact simulates_none
  | cons i rest =>
    have ht : σ.take = some (i, { σ with buf := rest, ops := σ.ops ++ [i.op] }) := by
      simp [State.take, hbuf]
    cases i with
    | data type vs =>
      simp only [run, ht, takeSize, Option.bind_some, Option.bind_none]
      exact simulates_none
    | object type v =>
      simp only [run, ht, takeSize, Option.bind_some, Option.bind_none]
      exact simulates_none
    | size k =>
      simp only [run, ht, takeSize, Option.bind_some]
      have hτ := Filled.take (n := n) hr ht
      have hυ := hτ.trans (.setInt hsize hτ.read k)
      refine hυ.simulates (hs k _ hυ ?_ fun _ => rfl) le_rfl
      simp [State.setInt]

/-- The elements of a standard type are unpacked in one piece. -/
lemma simulates_unPackBlock {b : DataType} (hb : b.isStandardType) {l : LVal} {k : Size}
    {g : Gen} {f : Rose α → List (Item α) → Option (Rose α × List (Item α))}
    {ts : List (Rose α)} (hl : l.Below n) (h : σ.read (l.loc σ) = some (.node ts))
    (hk : ∀ τ, (∀ i, Frame i σ τ) → k.val τ = ts.length) (h1 : k ≠ .one) :
    Simulates (run lt (b.deMarshal (.head l) (some k) g).1 σ)
      ((decodeBlock b f ts σ.buf).map fun r => (.node r.1, r.2)) (Filled σ n (l.loc σ)) := by
  obtain ⟨name, rfl, -⟩ := DataType.eq_basic_of_isStandardType hb
  by_cases hname : name = "void"
  · subst hname
    have hv : (DataType.basic "void").isVoid = true := rfl
    simp only [DataType.deMarshal, decodeBlock, hb, hv, if_true, run, Option.map_some]
    exact .of_some (.refl n h)
  · have hv : (DataType.basic name).isVoid = false := by
      simpa [DataType.isVoid, DataType.getExpandType] using hname
    simp only [DataType.deMarshal, decodeBlock, hb, hv, hname, if_true, if_false,
      Option.getD_some, DataType.getName]
    refine simulates_unPack lt h (hk σ fun i => .refl i σ) fun vs τ hvs hτ hr => ?_
    have hloc := (hτ n).loc_eq hl
    rw [← hloc] at hr ⊢
    rw [unPacked_head hr (hk τ hτ) h1 hvs]
    exact Filled.write hr _

/-- The elements of an array, unpacked by a loop over pointers to them. -/
lemma simulates_unPackElems {b : DataType} {cnt elem : Var} {k : Size} {l : LVal}
    {body : Stmt} {f : Rose α → List (Item α) → Option (Rose α × List (Item α))}
    {ts : List (Rose α)} (h : σ.read (l.loc σ) = some (.node ts)) (hk : k.val σ = ts.length)
    (hcnt : n ≤ cnt.id) (helem : n ≤ elem.id) (hm : n ≤ m)
    (hbody : ∀ u τ, u ∈ ts → τ.read (LVal.loc τ (.target elem)) = some u →
      (LVal.loc τ (.target elem)).obj = (l.loc σ).obj →
      Simulates (run lt body τ) (f u τ.buf) (Filled τ m (LVal.loc τ (.target elem)))) :
    Simulates (run lt (.forElems b cnt elem k l body) σ)
      ((decodeAll f ts σ.buf).map fun s => (.node s.1, s.2)) (Filled σ n (l.loc σ)) := by
  simp only [run, hk, Int.toNat_natCast]
  refine simulates_decodeAll h fun j u r τ hj _ hr => ?_
  have h1 := Filled.setInt hcnt hr ((ts.length : ℤ) - j)
  have h2 := h1.trans (.setRef helem h1.read ((l.loc σ).child j))
  have hloc : LVal.loc ((τ.setInt cnt (ts.length - j)).setRef elem ((l.loc σ).child j))
      (.target elem) = (l.loc σ).child j := by
    simp [LVal.loc, State.setRef]
  have hsim := hbody u _ (List.mem_of_getElem? hj) (by rw [hloc]; exact h2.read)
    (by rw [hloc]; rfl)
  rw [hloc] at hsim
  exact h2.simulates hsim hm

/-- The elements of a container, unpacked by a loop over iterators. -/
lemma simulates_unPackIter {t : DataType} {it : Var} {l : LVal} {body : Stmt}
    {f : Rose α → List (Item α) → Option (Rose α × List (Item α))} {ts : List (Rose α)}
    (h : σ.read (l.loc σ) = some (.node ts)) (hit : n ≤ it.id) (hm : n ≤ m)
    (hbody : ∀ u τ, u ∈ ts → τ.read (LVal.loc τ (.target it)) = some u →
      (LVal.loc τ (.target it)).obj = (l.loc σ).obj →
      Simulates (run lt body τ) (f u τ.buf) (Filled τ m (LVal.loc τ (.target it)))) :
    Simulates (run lt (.forIter t it l body) σ)
      ((decodeAll f ts σ.buf).map fun s => (.node s.1, s.2)) (Filled σ n (l.loc σ)) := by
  simp only [run, elements_read h, Option.bind_some]
  refine simulates_decodeAll h fun j u r τ hj _ hr => ?_
  have h1 := Filled.setRef hit hr ((l.loc σ).child j)
  have hloc : LVal.loc (τ.setRef it ((l.loc σ).child j)) (.target it) = (l.loc σ).child j := by
    simp [LVal.loc, State.setRef]
  have hsim := hbody u _ (List.mem_of_getElem? hj) (by rw [hloc]; exact h1.read)
    (by rw [hloc]; rfl)
  rw [hloc] at hsim
  exact h1.simulates hsim hm

/-- `resize`, after which `s` is run. -/
lemma simulates_resize {e : DataType} {l : LVal} {x : Var} {s : Stmt} {ts : List (Rose α)}
    {o : Option (Rose α × List (Item α))} (hl : l.Below n)
    (h : σ.read (l.loc σ) = some (.node ts))
    (hs : ∀ τ, 0 ≤ σ.ints x.id → τ.read (l.loc τ) =
        some (.node (resized e.init (σ.ints x.id).toNat ts)) → l.loc τ = l.loc σ →
      τ.ints = σ.ints → τ.buf = σ.buf →
      Simulates (run lt s τ) o (Filled τ n (l.loc τ))) :
    Simulates (run lt (.seq (.resize e l x) s) σ) (if 0 ≤ σ.ints x.id then o else none)
      (Filled σ n (l.loc σ)) := by
  by_cases h0 : 0 ≤ σ.ints x.id
  · obtain ⟨τ, hτ, hfill⟩ := Filled.write (n := n) h
      (.node (resized e.init (σ.ints x.id).toNat ts))
    have hloc := hfill.loc_eq hl
    have hints : τ.ints = σ.ints := by
      obtain ⟨o, -, rfl⟩ := Option.map_eq_some_iff.mp hτ
      rfl
    simp only [run, elements_read h, Option.bind_some, if_pos h0, hτ]
    have hsim := hs τ h0 (by rw [hloc]; exact hfill.read) hloc hints hfill.buf
    rw [hloc] at hsim
    exact hfill.simulates hsim le_rfl
  · simp only [run, elements_read h, Option.bind_some, if_neg h0, Option.bind_none]
    exact simulates_none

/-- A container gets its size before its elements are unpacked. -/
lemma simulates_unPackSeq {e : DataType} {l : LVal} (size : Var) {s : Stmt}
    {ts : List (Rose α)} {o : ℤ → List (Item α) → Option (Rose α × List (Item α))}
    (hl : l.Below n) (hsize : n ≤ size.id) (hr : σ.read (l.loc σ) = some (.node ts))
    (hs : ∀ τ k, 0 ≤ k → τ.ints size.id = k →
      τ.read (l.loc τ) = some (.node (resized e.init k.toNat ts)) → l.loc τ = l.loc σ →
      Simulates (run lt s τ) (o k τ.buf) (Filled τ n (l.loc τ))) :
    Simulates (run lt (.seq (.declInt size) (.seq (.unPackInt size) (.seq (.resize e l size) s))) σ)
      ((takeSize σ.buf).bind fun r => if 0 ≤ r.1 then o r.1 r.2 else none)
      (Filled σ n (l.loc σ)) := by
  have h1 := Filled.setInt hsize hr 0
  refine .of_bind (run_declInt lt size σ) (h1.simulates (simulates_unPackSize lt size
    (o := fun k buf => if 0 ≤ k then o k buf else none) hsize h1.read ?_) le_rfl)
  rintro k τ hτ rfl -
  have hloc := (h1.trans hτ).loc_eq hl
  have hsim := simulates_resize (e := e) (x := size) (s := s) (o := o (τ.ints size.id) τ.buf) lt hl
    (by rw [hloc]; exact hτ.read) fun υ h0 hread hloc' hints hbuf => ?_
  · rw [hloc] at hsim
    exact hsim
  · rw [← hbuf]
    exact hs υ _ h0 (by rw [hints]) hread (hloc'.trans hloc)

omit [Inhabited α] in
/-- Reading the entries of a map, as an iteration. -/
lemma each_decodeEntries (less : Rose α → Rose α → Bool)
    (f g : Rose α → List (Item α) → Option (Rose α × List (Item α))) (k : ℕ)
    (b : Rose α × Rose α × List (Rose α) × List (Item α)) :
    decodeEntries less f g k b.1 b.2.1 b.2.2.1 b.2.2.2 =
      (each (fun (_ : Unit) b => (f b.1 b.2.2.2).bind fun r => (g b.2.1 r.2).map fun s =>
        (r.1, s.1, insertEntry less r.1 s.1 b.2.2.1, s.2)) (List.replicate k ()) b).map
          fun b => (b.2.2.1, b.2.2.2) := by
  induction k generalizing b with
  | zero => rfl
  | succ k ih =>
    simp only [decodeEntries, List.replicate_succ, each]
    cases hf : f b.1 b.2.2.2 with
    | none => rfl
    | some r =>
      cases hg : g b.2.1 r.2 with
      | none => simp [hg]
      | some s =>
        simp only [Option.bind_some, Option.map_some, hg]
        exact ih (r.1, s.1, insertEntry less r.1 s.1 b.2.2.1, s.2)

omit [Inhabited α] in
/-- A variable that has been filled as a whole. -/
lemma Filled.obj_eq {i : ℕ} (h : Filled σ n ⟨i, []⟩ r τ) : τ.objs i = r.1 := by
  have hobj := h.obj
  simp only [Rose.set?_nil] at hobj
  exact (Option.some.inj hobj).symm

section Entries

variable {keys : DataType} {l : LVal} {key value i : Var} {s t : Stmt} {P Q : Rose α → Prop}
  {f g : Rose α → List (Item α) → Option (Rose α × List (Item α))}

/-- One pass of the loop that unpacks a map: the key, the value, and the new entry. -/
lemma simulates_entry (keys : DataType) (es : List (Rose α)) (hl : l.Below n)
    (hloc : (l.loc σ).obj < n)
    (hkey : n ≤ key.id) (hvalue : n ≤ value.id) (hne : key.id ≠ value.id)
    (hkm : key.id < m) (hvm : value.id < m)
    (hs : ∀ τ, P (τ.objs key.id) → Simulates (run lt s τ) (f (τ.objs key.id) τ.buf)
      fun r υ => Filled τ m ⟨key.id, []⟩ r υ ∧ P r.1)
    (ht : ∀ τ, Q (τ.objs value.id) → Simulates (run lt t τ) (g (τ.objs value.id) τ.buf)
      fun r υ => Filled τ m ⟨value.id, []⟩ r υ ∧ Q r.1)
    (hP : P (σ.objs key.id)) (hQ : Q (σ.objs value.id))
    (hr : σ.read (l.loc σ) = some (.node es)) :
    Simulates (run lt (.seq s (.seq t (.mapSet keys l key value))) σ)
      ((f (σ.objs key.id) σ.buf).bind fun r => (g (σ.objs value.id) r.2).map fun q =>
        (r.1, q.1, insertEntry (lt keys) r.1 q.1 es, q.2))
      fun b τ => Filled σ n (l.loc σ) (.node b.2.2.1, b.2.2.2) τ ∧ τ.objs key.id = b.1 ∧
        τ.objs value.id = b.2.1 ∧ P b.1 ∧ Q b.2.1 := by
  have hnm : n ≤ m := hkey.trans hkm.le
  refine (hs σ hP).bind fun r τ hτ => ?_
  have hτval : τ.objs value.id = σ.objs value.id := hτ.1.objs value.id hvm (Ne.symm hne)
  have hτloc := hτ.1.aside hnm hloc hkey hr
  have hsim := ht τ (by rw [hτval]; exact hQ)
  rw [hτval, hτ.1.buf] at hsim
  rw [Option.map_eq_bind]
  refine hsim.bind fun q υ hυ => ?_
  have hυkey : υ.objs key.id = r.1 := (hυ.1.objs key.id hkm hne).trans hτ.1.obj_eq
  have hυloc := hτloc.trans (hυ.1.aside hnm hloc hvalue hτloc.read)
  obtain ⟨ω, hω, hfill⟩ := Filled.write (n := m) hυloc.read
    (.node (insertEntry (lt keys) r.1 q.1 es))
  have hkeep : ∀ i, n ≤ i → i < m → ω.objs i = υ.objs i := fun i h1 h2 =>
    hfill.objs i h2 (by omega)
  simp only [run, hυloc.loc_eq hl, elements_read hυloc.read, Option.bind_some, hυkey,
    hυ.1.obj_eq, hω, Function.comp]
  refine .of_some ⟨?_, ?_, ?_, hτ.2, hυ.2⟩
  · have hbuf : υ.buf = q.2 := hυ.1.buf
    rw [hbuf] at hfill
    exact hυloc.trans (hfill.mono hnm)
  · rw [hkeep key.id hkey hkm, hυkey]
  · rw [hkeep value.id hvalue hvm, hυ.1.obj_eq]

/-- The loop that unpacks a map. -/
lemma simulates_unPackEntries (keys : DataType) (l : LVal) (key value i size : Var) (N : ℕ)
    (es : List (Rose α)) (hl : l.Below n)
    (hloc : (l.loc σ).obj < n) (hkey : n ≤ key.id) (hvalue : n ≤ value.id) (hi : n ≤ i.id)
    (hne : key.id ≠ value.id) (hkm : key.id < m) (hvm : value.id < m)
    (hs : ∀ τ, P (τ.objs key.id) → Simulates (run lt s τ) (f (τ.objs key.id) τ.buf)
      fun r υ => Filled τ m ⟨key.id, []⟩ r υ ∧ P r.1)
    (ht : ∀ τ, Q (τ.objs value.id) → Simulates (run lt t τ) (g (τ.objs value.id) τ.buf)
      fun r υ => Filled τ m ⟨value.id, []⟩ r υ ∧ Q r.1)
    (hP : P (σ.objs key.id)) (hQ : Q (σ.objs value.id))
    (hr : σ.read (l.loc σ) = some (.node es)) (hN : (σ.ints size.id).toNat = N) :
    Simulates (run lt (.forCount i size (.seq s (.seq t (.mapSet keys l key value)))) σ)
      ((decodeEntries (lt keys) f g N (σ.objs key.id) (σ.objs value.id) es σ.buf).map
        fun q => (.node q.1, q.2)) (Filled σ n (l.loc σ)) := by
  have hbody : run lt (.forCount i size (.seq s (.seq t (.mapSet keys l key value)))) σ =
      loop (fun j τ => run lt (.seq s (.seq t (.mapSet keys l key value))) (τ.setInt i j))
        (List.replicate N ()).length 0 σ := by
    rw [run, hN, List.length_replicate]
  have hloop := simulates_loop
    (fun j τ => run lt (.seq s (.seq t (.mapSet keys l key value))) (τ.setInt i j))
    (fun (_ : Unit) (b : Rose α × Rose α × List (Rose α) × List (Item α)) =>
      (f b.1 b.2.2.2).bind fun r => (g b.2.1 r.2).map fun q =>
        (r.1, q.1, insertEntry (lt keys) r.1 q.1 b.2.2.1, q.2))
    (fun _ _ b τ => Filled σ n (l.loc σ) (.node b.2.2.1, b.2.2.2) τ ∧ τ.objs key.id = b.1 ∧
        τ.objs value.id = b.2.1 ∧ P b.1 ∧ Q b.2.1) ?_ [] (List.replicate N ())
    (σ.objs key.id, σ.objs value.id, es, σ.buf) σ ⟨.refl n hr, rfl, rfl, hP, hQ⟩
  · rw [hbody, each_decodeEntries _ f g N (σ.objs key.id, σ.objs value.id, es, σ.buf)]
    rw [Option.map_map]
    exact hloop.map fun b τ hτ => hτ.1
  · rintro done u todo b τ ⟨hτ, hk, hv, hPb, hQb⟩
    have hset := hτ.trans (.setInt hi hτ.read (done.length : ℤ))
    have hl' := hset.loc_eq hl
    have hsim := simulates_entry (σ := τ.setInt i done.length) lt keys b.2.2.1 hl
      (by rw [hl']; exact hloc) hkey hvalue hne hkm hvm hs ht
      (by rw [show (τ.setInt i done.length).objs key.id = b.1 from hk]; exact hPb)
      (by rw [show (τ.setInt i done.length).objs value.id = b.2.1 from hv]; exact hQb)
      (by rw [hl']; exact hset.read)
    rw [hl', show (τ.setInt i done.length).objs key.id = b.1 from hk,
      show (τ.setInt i done.length).objs value.id = b.2.1 from hv,
      show (τ.setInt i done.length).buf = b.2.2.2 from hτ.buf] at hsim
    exact hsim.mono fun c υ hυ => ⟨hset.trans hυ.1, hυ.2⟩

end Entries

/-- A map, of which keys and values are unpacked into variables of their own. -/
lemma DataType.simulates_deMarshal_map {q : Bool} {k v : DataType} {l : LVal} {g : Gen}
    {σ : State α} {w : Rose α} (hl : l.Below g.fresh) (hloc : (l.loc σ).obj < g.fresh)
    (hr : σ.read (l.loc σ) = some w) (hw : (DataType.map q k v).Holds w)
    (hkeys : ∀ ω : State α, k.Holds (ω.objs (g.fresh + 1)) →
      Simulates (run lt (k.deMarshal (.var ⟨g.fresh + 1, .elemKey g.counter⟩) none
        ⟨g.counter + 1, g.fresh + 4⟩).1 ω) (k.decode lt (ω.objs (g.fresh + 1)) ω.buf)
        fun r ω' => Filled ω (g.fresh + 4) ⟨g.fresh + 1, []⟩ r ω' ∧ k.Holds r.1)
    (hvalues : ∀ ω : State α, v.Holds (ω.objs (g.fresh + 2)) →
      Simulates (run lt (v.deMarshal (.var ⟨g.fresh + 2, .elemValue g.counter⟩) none
        (k.deMarshal (.var ⟨g.fresh + 1, .elemKey g.counter⟩) none
          ⟨g.counter + 1, g.fresh + 4⟩).2).1 ω) (v.decode lt (ω.objs (g.fresh + 2)) ω.buf)
        fun r ω' => Filled ω (g.fresh + 4) ⟨g.fresh + 2, []⟩ r ω' ∧ v.Holds r.1) :
    Simulates (run lt ((DataType.map q k v).deMarshal l none g).1 σ)
      ((DataType.map q k v).decode lt w σ.buf) (Filled σ g.fresh (l.loc σ)) := by
  obtain ⟨ts, rfl⟩ := hw
  -- the three declarations
  have h1 := Filled.setInt (x := ⟨g.fresh, .elemSize g.counter⟩) le_rfl hr 0
  have h2 := h1.trans (.setObj (x := ⟨g.fresh + 1, .elemKey g.counter⟩) (by simp) hloc h1.read
    k.init)
  have h3 := h2.trans (.setObj (x := ⟨g.fresh + 2, .elemValue g.counter⟩) (by simp) hloc h2.read
    v.init)
  simp only [DataType.deMarshal, DataType.decode]
  refine .of_bind (run_declInt lt _ σ) (.of_bind (run_declObj lt k _ _)
    (.of_bind (run_declObj lt v _ _) (h3.simulates ?_ le_rfl)))
  refine simulates_unPackSize (n := g.fresh) lt ⟨g.fresh, _⟩
    (o := fun z buf => (decodeEntries (lt k) (k.decode lt) (v.decode lt) z.toNat k.init v.init []
      buf).map fun q => (.node q.1, q.2))
    le_rfl h3.read ?_
  rintro z τ hτ hint hobjs
  -- the old entries are removed; the variables stay as they were declared
  have h4 := h3.trans hτ
  obtain ⟨υ, hυ, hclear⟩ := Filled.write (n := g.fresh + 4) h4.read (.node [])
  have hstay : ∀ i, g.fresh ≤ i → i < g.fresh + 4 → υ.objs i = τ.objs i := fun i h1 h2 =>
    hclear.objs i h2 (by omega)
  have hloc' : l.loc τ = l.loc σ := h4.loc_eq hl
  have hloc'' : l.loc υ = l.loc σ := (hclear.loc_eq (hl.mono (by simp))).trans hloc'
  have hkey : υ.objs (g.fresh + 1) = k.init := by
    rw [hstay _ (by simp) (by simp), hobjs]
    simp [State.setObj]
  have hvalue : υ.objs (g.fresh + 2) = v.init := by
    rw [hstay _ (by simp) (by simp), hobjs]
    simp [State.setObj]
  refine .of_bind (by rw [run, hloc']; exact hυ) ((hclear.mono (by simp)).simulates ?_ le_rfl)
  -- the loop, with the key and the value of the last round
  have hentries := simulates_unPackEntries (σ := υ) (n := g.fresh) (m := g.fresh + 4) lt k l
    ⟨g.fresh + 1, .elemKey g.counter⟩ ⟨g.fresh + 2, .elemValue g.counter⟩
    ⟨g.fresh + 3, .mapIndex⟩ ⟨g.fresh, .elemSize g.counter⟩ z.toNat [] hl
    (by rw [hloc'']; exact hloc) (by simp) (by simp) (by simp) (by simp) (by simp) (by simp)
    hkeys hvalues
    (by rw [hkey]; exact k.holds_of_hasType lt (k.hasType_init lt))
    (by rw [hvalue]; exact v.holds_of_hasType lt (v.hasType_init lt))
    (by rw [hloc'']; exact hclear.read)
    (by rw [hclear.frame.ints g.fresh (by simp), hint])
  rw [hkey, hvalue, hclear.buf, hloc''] at hentries
  exact hentries

mutual

/-- Unpacking a value runs as its decoding says. -/
lemma DataType.simulates_deMarshal : ∀ (t : DataType) {l : LVal} {g : Gen} {σ : State α}
    {w : Rose α}, t.pointerFree → l.Below g.fresh → (l.loc σ).obj < g.fresh →
    σ.read (l.loc σ) = some w → t.Holds w →
    Simulates (run lt (t.deMarshal l none g).1 σ) (t.decode lt w σ.buf)
      (Filled σ g.fresh (l.loc σ))
  | .basic name, l, g, σ, w, _, hl, _, hr, _ => by
    by_cases hname : name = "void"
    · simp only [DataType.deMarshal, DataType.decode, hname, if_true, run]
      exact .of_some (.refl _ hr)
    · simp only [DataType.deMarshal, DataType.decode, hname, if_false, Option.getD_none]
      refine simulates_unPack (N := 1) (f := fun vs => vs.headD w) lt hr (by simp [Size.val]) ?_
      intro vs τ hvs hτ hread
      obtain ⟨v, rfl⟩ := List.length_eq_one_iff.mp hvs
      have hloc := (hτ g.fresh).loc_eq hl
      simp only [unPacked, List.head?_cons, Option.bind_some, hloc, List.headD_cons]
      exact Filled.write hread v
  | .array c b, l, g, σ, w, hp, hl, hloc, hr, hw => by
    obtain ⟨ts, rfl, hlen, hts⟩ := hw
    have hk : ∀ τ : State α, (Size.card c).val τ = ts.length := by simp [Size.val, hlen]
    simp only [DataType.deMarshal, DataType.decode, Rose.children, Option.getD_none]
    by_cases hb : b.isStandardType
    · simp only [hb, if_true]
      exact simulates_unPackBlock lt hb hl hr (fun τ _ => hk τ) (by simp)
    · simp only [decodeBlock, if_neg hb]
      refine simulates_unPackElems (m := g.fresh + 2) lt hr (hk σ) le_rfl (by simp) (by simp) ?_
      intro u τ hu hτ hobj
      exact b.simulates_deMarshal hp (LVal.below_of_vars rfl (by simp))
        (by rw [hobj]; exact hloc.trans (by simp)) hτ (hts u hu)
  | .ptr _ _, _, _, _, _, hp, _, _, _, _ => absurd hp (by simp [DataType.pointerFree])
  | .equal _ t, l, g, σ, w, hp, hl, hloc, hr, hw => by
    simp only [DataType.deMarshal, DataType.decode]
    exact t.simulates_deMarshal hp hl hloc hr hw
  | .struct _ as, l, g, σ, w, hp, hl, hloc, hr, hw => by
    obtain ⟨ts, rfl, hts⟩ := hw
    simp only [DataType.deMarshal, DataType.decode, Rose.children]
    exact as.simulates_deMarshal [] hp hl hloc hr hts
  | .seqClass name _, l, g, σ, w, _, hl, _, hr, _ => by
    simp only [DataType.deMarshal, DataType.decode]
    exact simulates_serialize lt hl hr
  | .seq q k e, l, g, σ, w, hp, hl, hloc, hr, hw => by
    obtain ⟨ts, rfl, hts⟩ := hw
    simp only [DataType.deMarshal, DataType.decode, Rose.children]
    by_cases hk : k = .vector ∧ e.isStandardType = true
    · simp only [if_pos hk]
      refine simulates_unPackSeq lt ⟨g.fresh, _⟩ (o := fun z buf =>
        (takeData (e.getName.getD "") z.toNat buf).map fun s => (.node s.1, s.2)) hl le_rfl hr ?_
      intro τ z h0 hint hread _
      have hz : (Size.var ⟨g.fresh, .elemSize g.counter⟩).val τ = z.toNat := by
        rw [Int.toNat_of_nonneg h0]
        exact hint
      refine simulates_unPack (f := .node) lt hread hz fun vs υ hvs hυ hread' => ?_
      have hloc' := (hυ g.fresh).loc_eq hl
      have hlen := length_resized (e.init : Rose α) z.toNat ts
      rw [← hloc'] at hread' ⊢
      rw [unPacked_head hread' ?_ (by simp) (hvs.trans hlen.symm)]
      · exact Filled.write hread' _
      · rw [hlen, ← hz]
        exact (hυ (g.fresh + 1)).ints g.fresh (by simp)
    · simp only [if_neg hk]
      refine simulates_unPackSeq lt ⟨g.fresh, _⟩ (o := fun z buf =>
        (decodeAll (e.decode lt) (resized e.init z.toNat ts) buf).map fun s => (.node s.1, s.2))
        hl le_rfl hr ?_
      intro τ z h0 hint hread hloc'
      refine simulates_unPackIter (m := g.fresh + 2) lt hread (by simp) (by simp) ?_
      intro u υ hu hυ hobj
      refine e.simulates_deMarshal hp (LVal.below_of_vars rfl (by simp))
        (by rw [hobj, hloc']; exact hloc.trans (by simp)) hυ ?_
      rcases List.mem_append.mp hu with hu | hu
      · exact hts u (List.mem_of_mem_take hu)
      · rw [List.eq_of_mem_replicate hu]
        exact e.holds_of_hasType lt (e.hasType_init lt)
  | .map q k v, l, g, σ, w, hp, hl, hloc, hr, hw => by
    obtain ⟨hpk, hpv⟩ := Bool.and_eq_true_iff.mp (by simpa only [DataType.pointerFree] using hp)
    have hfresh := (k.extends_deMarshal (.var ⟨g.fresh + 1, .elemKey g.counter⟩) none
      ⟨g.counter + 1, g.fresh + 4⟩ []).fresh
    refine DataType.simulates_deMarshal_map lt hl hloc hr hw (fun ω hω => ?_) fun ω hω => ?_
    · have hlt : g.fresh + 1 < g.fresh + 4 := by simp
      have hsim := k.simulates_deMarshal (g := ⟨g.counter + 1, g.fresh + 4⟩)
        (l := .var ⟨g.fresh + 1, .elemKey g.counter⟩) hpk (LVal.below_of_vars rfl hlt) hlt
        (Rose.get?_nil (t := ω.objs (g.fresh + 1))) hω
      exact hsim.and fun r hr => k.holds_of_decode lt _ _ r hω hr
    · have hlt : g.fresh + 2 < g.fresh + 4 := by simp
      have hsim := v.simulates_deMarshal hpv (l := .var ⟨g.fresh + 2, .elemValue g.counter⟩)
        (LVal.below_of_vars rfl (hlt.trans_le hfresh)) (hlt.trans_le hfresh)
        (Rose.get?_nil (t := ω.objs (g.fresh + 2))) hω
      exact (hsim.mono fun _ _ hf => hf.mono hfresh).and fun r hr =>
        v.holds_of_decode lt _ _ r hω hr
  | .parClass name, l, g, σ, w, _, hl, _, hr, _ => by
    simp only [DataType.deMarshal, DataType.decode]
    exact simulates_serialize lt hl hr

/-- The attributes behind the ones with the values `vs`. -/
lemma Attributes.simulates_deMarshal : ∀ (as : Attributes) (vs : List (Rose α)) {l : LVal}
    {g : Gen} {σ : State α} {ws : List (Rose α)}, as.pointerFree → l.Below g.fresh →
    (l.loc σ).obj < g.fresh → σ.read (l.loc σ) = some (.node (vs ++ ws)) → as.Holds ws →
    Simulates (run lt (as.deMarshal l vs.length g).1 σ)
      ((as.decode lt ws σ.buf).map fun s => (.node (vs ++ s.1), s.2))
      (Filled σ g.fresh (l.loc σ))
  | .nil, vs, l, g, σ, ws, _, _, _, hr, _ => by
    simp only [Attributes.deMarshal, Attributes.decode, run, Option.map_some]
    exact .of_some (.refl _ hr)
  | .cons t f rest, vs, l, g, σ, ws, hp, hl, hloc, hr, hws => by
    obtain ⟨u, us, rfl, hu, hus⟩ := hws
    obtain ⟨hp1, hp2⟩ := Bool.and_eq_true_iff.mp (by simpa only [Attributes.pointerFree] using hp)
    have hfresh := (t.extends_deMarshal (.field l vs.length f) none g []).fresh
    have hread : σ.read ((l.loc σ).child vs.length) = some u := by
      rw [read_child hr]
      simp
    simp only [Attributes.deMarshal, Attributes.decode, run, List.headD_cons, List.tail_cons,
      Option.map_bind]
    refine (t.simulates_deMarshal hp1 (l := .field l vs.length f) hl hloc hread hu).bind
      fun r τ hτ => ?_
    have hfill := Filled.child hr (by simp) hτ
    have hset : (vs ++ u :: us).set vs.length r.1 = (vs ++ [r.1]) ++ us := by simp
    rw [hset] at hfill
    have hloc' := hfill.loc_eq hl
    have hsim := rest.simulates_deMarshal (vs ++ [r.1]) hp2 (hl.mono hfresh)
      (by rw [hloc']; exact hloc.trans_le hfresh) (by rw [hloc']; exact hfill.read) hus
    rw [hloc', hfill.buf] at hsim
    simp only [List.length_append, List.length_cons, List.length_nil, Nat.zero_add,
      List.append_assoc, List.singleton_append] at hsim
    simp only [Function.comp, Option.map_map]
    exact hfill.simulates hsim hfresh

end

end

end Parser
