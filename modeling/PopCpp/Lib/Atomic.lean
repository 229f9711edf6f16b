/-
# Methods in small steps, and one after the other

A method reads and writes the state of an object in small steps, with a state of its own
beside it, until it is over with a result.  Between two of its steps other methods can come in.
This file says what it is for calls to have been executed one after the other, each from its
first step to its last: every call begins with the object that the one before it has left.
What they return then depends on nothing but the order of the calls.
-/
import Mathlib.Data.List.Forall2
import Mathlib.Logic.Relation

namespace Atomic

variable {ι κ σ ρ : Type*}

/-- The methods of an object: where a call begins, and what its next step does to the state of
the method and of the object, or what its result is. -/
structure Methods (ι κ σ ρ : Type*) where
  entry : ι → κ
  move : ι → κ → σ → κ × σ ⊕ ρ

/-- A call that is over: the object when it began, its result, and the object when it was over. -/
structure Entry (ι σ ρ : Type*) where
  call : ι
  before : σ
  result : ρ
  after : σ

/-- The same call under another name. -/
def Entry.map {ι' : Type*} (f : ι → ι') (e : Entry ι σ ρ) : Entry ι' σ ρ :=
  ⟨f e.call, e.before, e.result, e.after⟩

namespace Methods

variable (m : Methods ι κ σ ρ)

/-- A step of a call that is alone with the object. -/
def Next (i : ι) (p q : κ × σ) : Prop := m.move i p.1 p.2 = .inl q

/-- Where a call can be that began with the object `x` and has been alone with it since. -/
def Reaches (i : ι) (x : σ) : κ × σ → Prop := Relation.ReflTransGen (m.Next i) (m.entry i, x)

/-- The call was alone with the object from its first step to its last. -/
def Complete (e : Entry ι σ ρ) : Prop :=
  ∃ l, m.Reaches e.call e.before (l, e.after) ∧ m.move e.call l e.after = .inr e.result

/-- The methods for calls of which `f` tells what they ask for. -/
def comap {ι' : Type*} (f : ι' → ι) : Methods ι' κ σ ρ where
  entry i := m.entry (f i)
  move i := m.move (f i)

/-- The calls were executed one after the other, from the object `x` to the object `y`. -/
def Replay : σ → List (Entry ι σ ρ) → σ → Prop
  | x, [], y => x = y
  | x, e :: log, y => e.before = x ∧ m.Complete e ∧ Replay e.after log y

variable {m}

lemma Replay.concat {x y : σ} {log : List (Entry ι σ ρ)} {e : Entry ι σ ρ}
    (h : m.Replay x log y) (hbefore : e.before = y) (he : m.Complete e) :
    m.Replay x (log ++ [e]) e.after := by
  induction log generalizing x with
  | nil => exact ⟨hbefore.trans h.symm, he, rfl⟩
  | cons _ log ih => exact ⟨h.1, h.2.1, ih h.2.2⟩

/-- Calls that are complete in one sense and one after the other are so in another, if each of them
is. -/
lemma Replay.exists_forall₂ {ι' κ' ρ' : Type*} {m' : Methods ι' κ' σ ρ'}
    {R : Entry ι σ ρ → Entry ι' σ ρ' → Prop} {x y : σ} {log : List (Entry ι σ ρ)}
    (h : m.Replay x log y) (hcall : ∀ e ∈ log, m.Complete e →
      ∃ e', m'.Complete e' ∧ e'.before = e.before ∧ e'.after = e.after ∧ R e e') :
    ∃ log', m'.Replay x log' y ∧ List.Forall₂ R log log' := by
  induction log generalizing x with
  | nil => exact ⟨[], h, .nil⟩
  | cons e log ih =>
      obtain ⟨hbefore, he, hrest⟩ := h
      obtain ⟨e', he', hbefore', hafter', hrel⟩ := hcall e List.mem_cons_self he
      obtain ⟨log', hreplay, hlog⟩ := ih hrest fun d hd => hcall d (List.mem_cons_of_mem _ hd)
      exact ⟨e' :: log', ⟨hbefore'.trans hbefore, he', hafter' ▸ hreplay⟩, .cons hrel hlog⟩

/-- What the calls ask for was executed one after the other. -/
lemma Replay.map {ι' : Type*} {f : ι' → ι} {x y : σ} {log : List (Entry ι' σ ρ)}
    (h : (m.comap f).Replay x log y) : m.Replay x (log.map (Entry.map f)) y := by
  induction log generalizing x with
  | nil => exact h
  | cons _ log ih => exact ⟨h.1, h.2.1, ih h.2.2⟩

lemma next_rightUnique (m : Methods ι κ σ ρ) (i : ι) : Relator.RightUnique (m.Next i) := by
  intro p q q' h h'
  exact Sum.inl.inj (h.symm.trans h')

/-- A call that is over goes nowhere. -/
lemma eq_of_reaches_over {i : ι} {p q : κ × σ} {v : ρ} (hover : m.move i p.1 p.2 = .inr v)
    (h : Relation.ReflTransGen (m.Next i) p q) : q = p := by
  rcases h.cases_head with heq | ⟨r, hnext, -⟩
  · exact heq.symm
  · exact absurd (hover.symm.trans hnext) Sum.inr_ne_inl

/-- What a call does that is alone with the object depends on the object alone. -/
lemma Complete.unique {e e' : Entry ι σ ρ} (h : m.Complete e) (h' : m.Complete e')
    (hcall : e.call = e'.call) (hbefore : e.before = e'.before) : e = e' := by
  obtain ⟨l, hreach, hover⟩ := h
  obtain ⟨l', hreach', hover'⟩ := h'
  rw [← hcall] at hreach' hover'
  rw [← hbefore] at hreach'
  have hsame : (l, e.after) = (l', e'.after) := by
    rcases hreach.total_of_right_unique (m.next_rightUnique e.call) hreach' with h | h
    · exact (eq_of_reaches_over hover h).symm
    · exact eq_of_reaches_over hover' h
  obtain ⟨hl, hafter⟩ := Prod.mk.inj hsame
  have hresult : e.result = e'.result := by
    rw [hl, hafter] at hover
    exact Sum.inr.inj (hover.symm.trans hover')
  cases e
  cases e'
  simp only [Entry.mk.injEq]
  exact ⟨hcall, hbefore, hresult, hafter⟩

/-- **The order of the calls decides what they return.** -/
theorem Replay.prefix_of_prefix {x y y' : σ} {log log' : List (Entry ι σ ρ)}
    (h : m.Replay x log y) (h' : m.Replay x log' y')
    (hcalls : log.map Entry.call <+: log'.map Entry.call) : log <+: log' := by
  induction log generalizing x log' with
  | nil => exact List.nil_prefix
  | cons e log ih =>
      cases log' with
      | nil => exact absurd (List.prefix_nil.mp hcalls) (List.cons_ne_nil _ _)
      | cons e' log' =>
          obtain ⟨hcall, hrest⟩ := List.cons_prefix_cons.mp hcalls
          obtain rfl := h.2.1.unique h'.2.1 hcall (h.1.trans h'.1.symm)
          exact List.cons_prefix_cons.mpr ⟨rfl, ih h.2.2 h'.2.2 hrest⟩

end Methods

end Atomic
