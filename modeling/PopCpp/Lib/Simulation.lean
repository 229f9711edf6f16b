/-
# Simulation of a function by a machine

A machine that can get stuck simulates a partial function if it gets stuck where the function
is undefined, and stops in a state that represents the value where it is defined.  The rules say
how simulations compose, for sequences and for loops.
-/
import Mathlib.Data.List.Basic

namespace Simulation

variable {σ τ β γ : Type*}

/-- The outcome `r` of a machine represents the outcome `o` of a function. -/
structure Simulates (r : Option σ) (o : Option β) (Q : β → σ → Prop) : Prop where
  done : ∀ b, o = some b → ∃ s, r = some s ∧ Q b s
  stuck : o = none → r = none

variable {r : Option σ} {o : Option β} {Q Q' : β → σ → Prop} {R : γ → τ → Prop}

lemma Simulates.of_some {b : β} {s : σ} (h : Q b s) : Simulates (some s) (some b) Q :=
  ⟨by rintro _ ⟨⟩; exact ⟨s, rfl, h⟩, by rintro ⟨⟩⟩

lemma simulates_none : Simulates (none : Option σ) (none : Option β) Q :=
  ⟨by rintro _ ⟨⟩, fun _ => rfl⟩

lemma Simulates.mono (h : Simulates r o Q) (hQ : ∀ b s, Q b s → Q' b s) :
    Simulates r o Q' := by
  refine ⟨fun b hb => ?_, h.stuck⟩
  obtain ⟨s, hs, hq⟩ := h.done b hb
  exact ⟨s, hs, hQ b s hq⟩

/-- What is known of the value of the function. -/
lemma Simulates.and {P : β → Prop} (h : Simulates r o Q) (hP : ∀ b, o = some b → P b) :
    Simulates r o fun b s => Q b s ∧ P b := by
  refine ⟨fun b hb => ?_, h.stuck⟩
  obtain ⟨s, hs, hq⟩ := h.done b hb
  exact ⟨s, hs, hq, hP b hb⟩

/-- One step after the other. -/
lemma Simulates.bind {k : σ → Option τ} {k' : β → Option γ} (h : Simulates r o Q)
    (hk : ∀ b s, Q b s → Simulates (k s) (k' b) R) : Simulates (r.bind k) (o.bind k') R := by
  cases o with
  | none =>
    rw [h.stuck rfl]
    exact simulates_none
  | some b =>
    obtain ⟨s, rfl, hq⟩ := h.done b rfl
    exact hk b s hq

/-- A step of the machine that the function does not see. -/
lemma Simulates.of_bind {k : σ → Option τ} {o : Option γ} {s : σ} (hr : r = some s)
    (hk : Simulates (k s) o R) : Simulates (r.bind k) o R := by
  rw [hr]
  exact hk

/-- The value of the function is put together differently. -/
lemma Simulates.map {f : β → γ} {R : γ → σ → Prop} (h : Simulates r o Q)
    (hQ : ∀ b s, Q b s → R (f b) s) : Simulates r (o.map f) R := by
  refine ⟨fun c hc => ?_, fun hn => h.stuck (by simpa using hn)⟩
  obtain ⟨b, hb, rfl⟩ := Option.map_eq_some_iff.mp hc
  obtain ⟨s, hs, hq⟩ := h.done b hb
  exact ⟨s, hs, hQ b s hq⟩

/-- `n` passes through a loop, the next one with index `j`. -/
def loop (body : ℕ → σ → Option σ) : ℕ → ℕ → σ → Option σ
  | 0, _, s => some s
  | n + 1, j, s => (body j s).bind (loop body n (j + 1))

/-- The passes through a loop are the elements of a list: one element after the other is
handed to `f`, from the state that the one before it has left. -/
def each {α : Type*} (f : α → β → Option β) : List α → β → Option β
  | [], b => some b
  | a :: as, b => (f a b).bind (each f as)

/-- A loop simulates the passage through a list if its passes simulate the elements: `I` says
what holds when the elements `done` are behind it and `todo` ahead of it. -/
lemma simulates_loop {α : Type*} (body : ℕ → σ → Option σ) (f : α → β → Option β)
    (I : List α → List α → β → σ → Prop)
    (hI : ∀ done a todo b s, I done (a :: todo) b s →
      Simulates (body done.length s) (f a b) (I (done ++ [a]) todo))
    (done todo : List α) (b : β) (s : σ) (h : I done todo b s) :
    Simulates (loop body todo.length done.length s) (each f todo b) (I (done ++ todo) []) := by
  induction todo generalizing done b s with
  | nil => exact .of_some (by simpa using h)
  | cons a todo ih =>
    refine (hI done a todo b s h).bind fun b' s' h' => ?_
    have := ih (done ++ [a]) b' s' h'
    simpa using this

end Simulation
