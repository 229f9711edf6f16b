/-
# Sets closed under adjacency, and bridged edges

Two facts about simple graphs that turn a local property of a flood into a global one.  A
set that holds a vertex and, with every vertex of it, that vertex's neighbours, holds
everything that can be reached; if it is closed only below a given distance it holds the
ball of that radius.  And a graph stays connected when every edge that is taken away is
bridged by a walk of what is left.
-/
import Mathlib.Combinatorics.SimpleGraph.Metric

namespace SimpleGraph

variable {V : Type*} {G H : SimpleGraph V} {S : V → Prop} {o : V}

lemma Walk.mem_of_closed (hclosed : ∀ u v, S u → G.Adj u v → S v) {u v : V} (p : G.Walk u v)
    (hu : S u) : S v := by
  induction p with
  | nil => exact hu
  | cons hadj _ ih => exact ih (hclosed _ _ hu hadj)

/-- A set that holds `o` and is closed under adjacency holds every vertex of a connected
graph. -/
theorem Preconnected.mem_of_closed (hG : G.Preconnected) (ho : S o)
    (hclosed : ∀ u v, S u → G.Adj u v → S v) (v : V) : S v := by
  obtain ⟨p⟩ := hG o v
  exact p.mem_of_closed hclosed ho

/-- A set that holds `o` and is closed under adjacency at distance less than `h` holds every
vertex with a walk of at most `h` edges. -/
theorem mem_of_closed_within {h : ℕ} (ho : S o)
    (hclosed : ∀ u v, S u → G.Reachable o u → G.dist o u < h → G.Adj u v → S v) {v : V}
    (hv : ∃ p : G.Walk o v, p.length ≤ h) : S v := by
  -- The induction is on the length, along a shortest walk taken from its far end.
  have key : ∀ n, n ≤ h → ∀ v, G.Reachable o v → G.dist o v = n → S v := by
    intro n
    induction n with
    | zero =>
        intro _ v hr hv
        obtain rfl : o = v := hr.dist_eq_zero_iff.mp hv
        exact ho
    | succ n ih =>
        intro hn v hr hv
        obtain ⟨p, hp⟩ := hr.exists_walk_length_eq_dist
        obtain ⟨u, q, hadj, rfl⟩ : ∃ (u : V) (q : G.Walk o u) (hadj : G.Adj u v),
            p = q.concat hadj := by
          cases p with
          | nil => rw [hv] at hp; simp at hp
          | cons h₀ p₀ =>
              obtain ⟨u, q, hadj, hq⟩ := Walk.exists_cons_eq_concat h₀ p₀
              exact ⟨u, q, hadj, hq⟩
        rw [Walk.length_concat] at hp
        have hle : G.dist o u ≤ q.length := dist_le q
        obtain ⟨q', hq'⟩ := Reachable.exists_walk_length_eq_dist ⟨q⟩
        have hge : G.dist o v ≤ (q'.concat hadj).length := dist_le _
        rw [Walk.length_concat] at hge
        have hu : G.dist o u = n := by omega
        exact hclosed u v (ih (by omega) u ⟨q⟩ hu) ⟨q⟩ (by omega) hadj
  obtain ⟨p, hp⟩ := hv
  exact key _ ((dist_le p).trans hp) v ⟨p⟩ rfl

/-- A level that rises by one at most along an edge is no greater than the distance from where it
is zero. -/
theorem level_le_dist {level : V → ℕ} (ho : level o = 0)
    (hadj : ∀ u v, G.Adj u v → level v ≤ level u + 1) {v : V} (hv : G.Reachable o v) :
    level v ≤ G.dist o v := by
  have hwalk : ∀ {u v : V} (p : G.Walk u v), level v ≤ level u + p.length := by
    intro u v p
    induction p with
    | nil => exact le_rfl
    | cons h p ih =>
        have hle := hadj _ _ h
        rw [Walk.length_cons]
        omega
  obtain ⟨p, hp⟩ := hv.exists_walk_length_eq_dist
  have hle := hwalk p
  omega

/-- If every edge of a connected graph is joined by a walk of `H`, then `H` is connected. -/
theorem Preconnected.of_bridged (hG : G.Preconnected)
    (hbridge : ∀ u v, G.Adj u v → H.Reachable u v) : H.Preconnected := by
  intro u v
  obtain ⟨p⟩ := hG u v
  induction p with
  | nil => exact Reachable.rfl
  | cons hadj _ ih => exact (hbridge _ _ hadj).trans ih

end SimpleGraph
