/-
# Who waits for whom

Parties that wait for each other, as a relation.  They are in no circle if the relation is
acyclic; then, among finitely many, a chain of waiting parties ends at one that waits for nobody.
A party may start to wait for another one that does not wait for it already, through others or
not.
-/
import Mathlib.Data.Fintype.EquivFin
import Mathlib.Logic.Relation
import Mathlib.Order.WellFounded

namespace WaitFor

variable {α : Type*} {R R' : α → α → Prop}

/-- Nobody waits for himself, through others or not. -/
def Acyclic (R : α → α → Prop) : Prop := ∀ x, ¬Relation.TransGen R x x

lemma Acyclic.mono (h : Acyclic R) (hsub : ∀ x y, R' x y → R x y) : Acyclic R' :=
  fun x hx => h x (Relation.TransGen.mono hsub _ _ hx)

/-- A chain of the larger relation is one of the smaller, or it uses the new edge. -/
lemma transGen_insert {a d : α} (hsub : ∀ x y, R' x y → R x y ∨ x = a ∧ y = d) {x y : α}
    (hxy : Relation.TransGen R' x y) :
    Relation.TransGen R x y ∨ Relation.ReflTransGen R x a ∧ Relation.ReflTransGen R d y := by
  induction hxy with
  | single hstep =>
      rcases hsub _ _ hstep with hold | ⟨rfl, rfl⟩
      · exact Or.inl (.single hold)
      · exact Or.inr ⟨.refl, .refl⟩
  | tail _ hstep ih =>
      rcases hsub _ _ hstep with hold | ⟨rfl, rfl⟩
      · exact ih.imp (fun hchain => hchain.tail hold) fun hboth => ⟨hboth.1, hboth.2.tail hold⟩
      · exact Or.inr ⟨ih.elim (fun hchain => hchain.to_reflTransGen) And.left, .refl⟩

/-- One more edge, to a party from which no chain leads back. -/
lemma Acyclic.insert (h : Acyclic R) {a d : α} (hd : ¬Relation.ReflTransGen R d a)
    (hsub : ∀ x y, R' x y → R x y ∨ x = a ∧ y = d) : Acyclic R' := by
  intro x hx
  rcases transGen_insert hsub hx with hold | ⟨hxa, hdx⟩
  · exact h x hold
  · exact hd (hdx.trans hxa)

/-- Somebody is waited for who does not wait. -/
lemma Acyclic.exists_sink [Finite α] (h : Acyclic R) {x y : α} (hxy : R x y) :
    ∃ u v, R u v ∧ ∀ w, ¬R v w := by
  have : IsTrans α fun v u => Relation.TransGen R u v := ⟨fun _ _ _ huv hvw => hvw.trans huv⟩
  have : Std.Irrefl fun v u => Relation.TransGen R u v := ⟨h⟩
  have hwf := Finite.wellFounded_of_trans_of_irrefl fun v u => Relation.TransGen R u v
  obtain ⟨v, ⟨u, huv⟩, hmin⟩ := hwf.has_min {v | ∃ u, R u v} ⟨y, x, hxy⟩
  exact ⟨u, v, huv, fun w hvw => hmin w ⟨v, hvw⟩ (.single hvw)⟩

end WaitFor
