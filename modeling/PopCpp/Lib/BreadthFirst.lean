/-
# Breadth-first search

The successors of a vertex `a` are found in the order of their distance from it.  The vertices
that have been found are a list `P ++ (Q ++ R)`: those of `P` have been visited, those of `Q` are
the rest of the vertices at distance `d`, and those of `R` are vertices at distance `d + 1`
(`Frontier`).  A visit takes a vertex from `Q` and adds to `R` what it finds (`Frontier.visit`).

While it runs the search makes something of the visits.  What holds of it at the end is shown by an
invariant that every visit keeps (`exists_search_eq`).
-/
import Mathlib.Data.Fintype.EquivFin
import Mathlib.Data.List.Nodup

namespace BreadthFirst

variable {α β : Type*}

/-! ### Distances -/

section Distance

variable (next : α → List α)

/-- There is a path with that many edges. -/
inductive Path : ℕ → α → α → Prop
  | refl (a : α) : Path 0 a a
  | tail {n : ℕ} {a b c : α} : Path n a b → c ∈ next b → Path (n + 1) a c

/-- The vertex is at that distance from `a`. -/
def At (a : α) (n : ℕ) (x : α) : Prop := Path next n a x ∧ ∀ m < n, ¬Path next m a x

end Distance

variable {next : α → List α} {a x y : α} {m n d : ℕ}

lemma Path.exists_at (h : Path next n a x) : ∃ m ≤ n, At next a m x := by
  induction n using Nat.strong_induction_on with
  | _ n ih =>
      by_cases hleast : ∀ m < n, ¬Path next m a x
      · exact ⟨n, le_rfl, h, hleast⟩
      · push Not at hleast
        obtain ⟨m, hm, hpath⟩ := hleast
        obtain ⟨k, hk, hat⟩ := ih m hm hpath
        exact ⟨k, hk.trans hm.le, hat⟩

lemma At.unique (h : At next a m x) (h' : At next a n x) : m = n := by
  rcases Nat.lt_trichotomy m n with hlt | heq | hlt
  · exact absurd h.1 (h'.2 m hlt)
  · exact heq
  · exact absurd h'.1 (h.2 n hlt)

lemma at_zero_iff : At next a 0 x ↔ x = a := by
  constructor
  · rintro ⟨h, -⟩
    cases h
    rfl
  · rintro rfl
    exact ⟨.refl x, fun m hm => absurd hm (Nat.not_lt_zero m)⟩

lemma Path.mono {next' : α → List α} (hsub : ∀ y, next y ⊆ next' y) (h : Path next n a x) :
    Path next' n a x := by
  induction h with
  | refl => exact .refl _
  | tail _ hx ih => exact .tail ih (hsub _ hx)

lemma At.congr {next' : α → List α} (hsame : ∀ y x, x ∈ next y ↔ x ∈ next' y)
    (h : At next a n x) : At next' a n x :=
  ⟨h.1.mono fun y _ hx => (hsame y _).mp hx, fun m hm hpath =>
    h.2 m hm (hpath.mono fun y _ hx => (hsame y _).mpr hx)⟩

/-- If all edges go upwards there is no cycle. -/
lemma Path.lt [Preorder α] (hup : ∀ y, ∀ x ∈ next y, y < x) (h : Path next (n + 1) a x) :
    a < x := by
  induction n generalizing x with
  | zero =>
      obtain _ | ⟨hpath, hx⟩ := h
      cases hpath
      exact hup _ _ hx
  | succ n ih =>
      obtain _ | ⟨hpath, hx⟩ := h
      exact (ih hpath).trans (hup _ _ hx)

/-- A successor is at most one further away. -/
lemma At.exists_next (h : At next a n y) (hx : x ∈ next y) : ∃ m ≤ n + 1, At next a m x :=
  (Path.tail h.1 hx).exists_at

/-- On a shortest path all vertices are at their distances. -/
lemma At.exists_prev (h : At next a (n + 1) x) : ∃ y, At next a n y ∧ x ∈ next y := by
  obtain ⟨hpath, hleast⟩ := h
  cases hpath with
  | @tail _ _ y _ hpath hx =>
      refine ⟨y, ⟨hpath, fun m hm hshort => ?_⟩, hx⟩
      exact hleast (m + 1) (Nat.succ_lt_succ hm) (.tail hshort hx)

/-- A shortest path. -/
lemma At.exists_path (h : At next a n x) :
    ∃ p : ℕ → α, p n = x ∧ (∀ i ≤ n, At next a i (p i)) ∧ ∀ i < n, p (i + 1) ∈ next (p i) := by
  induction n generalizing x with
  | zero =>
      refine ⟨fun _ => x, rfl, fun i hi => ?_, fun i hi => absurd hi (Nat.not_lt_zero i)⟩
      obtain rfl : i = 0 := Nat.le_zero.mp hi
      exact h
  | succ n ih =>
      obtain ⟨y, hy, hx⟩ := h.exists_prev
      obtain ⟨p, rfl, hat, hnext⟩ := ih hy
      refine ⟨fun i => if i = n + 1 then x else p i, if_pos rfl, fun i hi => ?_, fun i hi => ?_⟩
      · dsimp only
        split_ifs with hlast
        · exact hlast ▸ h
        · exact hat i (by omega)
      · dsimp only
        rw [if_neg (by omega : i ≠ n + 1)]
        split_ifs with hlast
        · rwa [show i = n by omega]
        · exact hnext i (by omega)

/-! ### The vertices that have been found -/

/-- All vertices at the distances from 1 to `d` have been found, and those before `Q` have been
visited; then `R` is what these have found at the distance `d + 1`. -/
structure Frontier (next : α → List α) (a : α) (d : ℕ) (P Q R : List α) : Prop where
  nodup : (P ++ (Q ++ R)).Nodup
  near : ∀ x, x ∈ P ++ Q ↔ ∃ m, 0 < m ∧ m ≤ d ∧ At next a m x
  atQ : ∀ x ∈ Q, At next a d x
  atR : ∀ x ∈ R, At next a (d + 1) x
  closed : ∀ y, y = a ∨ y ∈ P → ∀ x ∈ next y, x ∈ P ++ (Q ++ R)

variable {P Q R : List α}

/-- At the beginning the successors of `a` have been found. -/
lemma Frontier.start (hnodup : (next a).Nodup) (hacyclic : ∀ n, ¬Path next (n + 1) a a) :
    Frontier next a 1 [] (next a) [] := by
  have hone : ∀ x ∈ next a, At next a 1 x := by
    intro x hx
    have hpath : Path next 1 a x := .tail (.refl a) hx
    refine ⟨hpath, fun m hm hshort => ?_⟩
    obtain rfl : m = 0 := by omega
    cases hshort
    exact hacyclic 0 hpath
  refine ⟨by simpa using hnodup, fun x => ?_, hone, by simp, ?_⟩
  · rw [List.nil_append]
    constructor
    · exact fun hx => ⟨1, Nat.one_pos, le_rfl, hone x hx⟩
    · rintro ⟨m, hm, hm', hat⟩
      obtain rfl : m = 1 := by omega
      obtain ⟨y, hy, hx⟩ := hat.exists_prev
      rwa [at_zero_iff.mp hy] at hx
  · rintro y (rfl | hy) x hx
    · simpa using hx
    · exact absurd hy List.not_mem_nil

/-- A vertex that has been found is not `a`. -/
lemma Frontier.exists_at (h : Frontier next a d P Q R) (hx : x ∈ P ++ (Q ++ R)) :
    ∃ m, 0 < m ∧ m ≤ d + 1 ∧ At next a m x := by
  rw [← List.append_assoc] at hx
  rcases List.mem_append.mp hx with hx | hx
  · obtain ⟨m, hm, hm', hat⟩ := (h.near x).mp hx
    exact ⟨m, hm, by omega, hat⟩
  · exact ⟨d + 1, Nat.succ_pos d, le_rfl, h.atR x hx⟩

/-- The vertices of the next distance come next. -/
lemma Frontier.turn (h : Frontier next a d P [] R) : Frontier next a (d + 1) P R [] := by
  refine ⟨by simpa using h.nodup, fun x => ?_, h.atR, by simp, by simpa using h.closed⟩
  constructor
  · exact fun hx => h.exists_at (by simpa using hx)
  · rintro ⟨m, hm, hle, hat⟩
    rcases Nat.lt_or_ge d m with hlt | hge
    · obtain rfl : m = d + 1 := by omega
      obtain ⟨y, hy, hx⟩ := hat.exists_prev
      have hdone : y = a ∨ y ∈ P := by
        rcases Nat.eq_zero_or_pos d with rfl | hd
        · exact .inl (at_zero_iff.mp hy)
        · right
          simpa using (h.near y).mpr ⟨d, hd, le_rfl, hy⟩
      simpa using h.closed y hdone x hx
    · exact List.mem_append_left R (by simpa using (h.near x).mpr ⟨m, hm, hge, hat⟩)

/-- At the end every vertex has been found. -/
lemma Frontier.mem_iff (h : Frontier next a d P [] []) : x ∈ P ↔ ∃ m, 0 < m ∧ At next a m x := by
  have key : ∀ m x, 0 < m → At next a m x → x ∈ P := by
    intro m
    induction m with
    | zero => exact fun x hm => absurd hm (Nat.lt_irrefl 0)
    | succ m ih =>
        intro x _ hat
        obtain ⟨y, hy, hx⟩ := hat.exists_prev
        have hdone : y = a ∨ y ∈ P := by
          rcases Nat.eq_zero_or_pos m with rfl | hm
          · exact .inl (at_zero_iff.mp hy)
          · exact .inr (ih y hm hy)
        simpa using h.closed y hdone x hx
  constructor
  · intro hx
    obtain ⟨m, hm, -, hat⟩ := h.exists_at (x := x) (by simpa using hx)
    exact ⟨m, hm, hat⟩
  · rintro ⟨m, hm, hat⟩
    exact key m x hm hat

/-! ### Visits -/

section Visit

variable [DecidableEq α]

/-- What a visit finds. -/
def fresh (next : α → List α) (found : List α) (y : α) : List α :=
  (next y).filter fun x => x ∉ found

/-- What a visit finds is one further away. -/
lemma Frontier.at_of_mem_fresh (h : Frontier next a d P (y :: Q) R)
    (hacyclic : ∀ n, ¬Path next (n + 1) a a) (hx : x ∈ fresh next (P ++ (y :: Q ++ R)) y) :
    At next a (d + 1) x := by
  obtain ⟨hnext, hnew⟩ := List.mem_filter.mp hx
  have hy := h.atQ y List.mem_cons_self
  obtain ⟨m, hm, hat⟩ := hy.exists_next hnext
  have hpos : 0 < m := by
    refine Nat.pos_of_ne_zero fun hzero => ?_
    subst hzero
    rw [at_zero_iff] at hat
    exact hacyclic d (.tail hy.1 (hat ▸ hnext))
  have hfar : ¬m ≤ d := by
    intro hle
    have hmem := (h.near x).mpr ⟨m, hpos, hle, hat⟩
    refine absurd ?_ (of_decide_eq_true hnew)
    rw [← List.append_assoc]
    exact List.mem_append_left R hmem
  obtain rfl : m = d + 1 := by omega
  exact hat

/-- The next vertex is visited. -/
lemma Frontier.visit (h : Frontier next a d P (y :: Q) R) (hnodup : (next y).Nodup)
    (hacyclic : ∀ n, ¬Path next (n + 1) a a) :
    Frontier next a d (P ++ [y]) Q (R ++ fresh next (P ++ (y :: Q ++ R)) y) := by
  have hall : ∀ F, P ++ [y] ++ (Q ++ (R ++ F)) = P ++ (y :: Q ++ R) ++ F := by simp
  refine ⟨?_, fun x => ?_, fun x hx => h.atQ x (List.mem_cons_of_mem y hx), fun x hx => ?_, ?_⟩
  · rw [hall, List.nodup_append]
    refine ⟨h.nodup, hnodup.filter _, fun x hx z hz heq => ?_⟩
    exact absurd hx (heq ▸ of_decide_eq_true (List.mem_filter.mp hz).2)
  · rw [← h.near x]
    simp
  · rcases List.mem_append.mp hx with hx | hx
    · exact h.atR x hx
    · exact h.at_of_mem_fresh hacyclic hx
  · intro z hz x hx
    rw [hall]
    by_cases hfound : x ∈ P ++ (y :: Q ++ R)
    · exact List.mem_append_left _ hfound
    · rcases hz with rfl | hz
      · exact absurd (h.closed z (.inl rfl) x hx) hfound
      · rcases List.mem_append.mp hz with hz | hz
        · exact absurd (h.closed z (.inr hz) x hx) hfound
        · rw [List.mem_singleton.mp hz] at hx
          exact List.mem_append_right _ (List.mem_filter.mpr ⟨hx, decide_eq_true hfound⟩)

/-! ### The search -/

/-- The search, from vertices `P` that have been visited and a queue; `visit` is what is made of a
visit, with what has been found before it. -/
def search (next : α → List α) (visit : α → List α → β → β) :
    ℕ → List α → List α → β → Option (List α × β)
  | _, P, [], b => some (P, b)
  | 0, _, _ :: _, _ => none
  | fuel + 1, P, y :: Q, b =>
      search next visit fuel (P ++ [y]) (Q ++ fresh next (P ++ y :: Q) y) (visit y (P ++ y :: Q) b)

variable {visit : α → List α → β → β}

/-- The fuel does not matter. -/
lemma search_unique : ∀ {fuel fuel' : ℕ} {P Q : List α} {b : β} {r r' : List α × β},
    search next visit fuel P Q b = some r → search next visit fuel' P Q b = some r' → r = r' := by
  intro fuel
  induction fuel with
  | zero =>
      intro fuel' P Q b r r' h h'
      cases Q with
      | nil =>
          rw [search] at h h'
          exact Option.some.inj (h.symm.trans h')
      | cons y Q => cases h
  | succ fuel ih =>
      intro fuel' P Q b r r' h h'
      cases Q with
      | nil =>
          rw [search] at h h'
          exact Option.some.inj (h.symm.trans h')
      | cons y Q =>
          cases fuel' with
          | zero => cases h'
          | succ fuel' => exact ih h h'

/-- **Invariants of the search.**  The search ends, and what every visit keeps holds at the end. -/
theorem exists_search_eq [Finite α] (hnodup : ∀ y, (next y).Nodup)
    (hacyclic : ∀ n, ¬Path next (n + 1) a a) {I : ℕ → List α → List α → List α → β → Prop}
    (hvisit : ∀ {d P y Q R b}, Frontier next a d P (y :: Q) R → I d P (y :: Q) R b →
      I d (P ++ [y]) Q (R ++ fresh next (P ++ (y :: Q ++ R)) y) (visit y (P ++ (y :: Q ++ R)) b))
    (hturn : ∀ {d P R b}, Frontier next a d P [] R → I d P [] R b → I (d + 1) P R [] b)
    {d : ℕ} {P Q R : List α} {b : β} (h : Frontier next a d P Q R) (hI : I d P Q R b) :
    ∃ fuel P' b' d', search next visit fuel P (Q ++ R) b = some (P', b') ∧
      Frontier next a d' P' [] [] ∧ I d' P' [] [] b' := by
  cases nonempty_fintype α
  suffices key : ∀ k d P Q R b, Fintype.card α < P.length + k → Frontier next a d P Q R →
      I d P Q R b → ∃ fuel P' b' d', search next visit fuel P (Q ++ R) b = some (P', b') ∧
        Frontier next a d' P' [] [] ∧ I d' P' [] [] b' from
    key (Fintype.card α + 1) d P Q R b (by omega) h hI
  intro k
  induction k with
  | zero =>
      intro d P Q R b hcard h _
      have hP : P.Nodup := h.nodup.of_append_left
      have := hP.length_le_card
      omega
  | succ k ih =>
      intro d P Q R b hcard h hI
      have hstep : ∀ {d y Q R}, Frontier next a d P (y :: Q) R → I d P (y :: Q) R b →
          ∃ fuel P' b' d', search next visit fuel P (y :: Q ++ R) b = some (P', b') ∧
            Frontier next a d' P' [] [] ∧ I d' P' [] [] b' := by
        intro d y Q R h hI
        have hcard : Fintype.card α < (P ++ [y]).length + k := by
          rw [List.length_append, List.length_singleton]
          omega
        obtain ⟨fuel, P', b', d', hrun, hend⟩ :=
          ih d _ Q _ _ hcard (h.visit (hnodup y) hacyclic) (hvisit h hI)
        refine ⟨fuel + 1, P', b', d', ?_, hend⟩
        rw [List.cons_append, search, List.append_assoc]
        exact hrun
      cases Q with
      | cons y Q => exact hstep h hI
      | nil =>
          cases R with
          | nil => exact ⟨0, P, b, d, rfl, h, hI⟩
          | cons y R =>
              -- the vertices at this distance have been visited
              simpa using hstep h.turn (hturn h hI)

end Visit

end BreadthFirst
