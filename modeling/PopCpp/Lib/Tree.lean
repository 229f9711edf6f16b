/-
# Trees and the places in them

The contents of an object are a tree: a leaf is a value that is moved as a whole, a node has the
attributes of a structure or the elements of an array or container.  A place is a path of
indices.  `get?` reads the part at a place and `set?` replaces it; the lemmas say how the two
act on a place inside another one.
-/
import Mathlib.Data.List.Basic

/-- Contents of an object. -/
inductive Rose (α : Type*)
  | leaf (a : α)
  | node (ts : List (Rose α))

namespace Rose

variable {α : Type*}

/-- The part at a place. -/
def get? : List ℕ → Rose α → Option (Rose α)
  | [], t => some t
  | _ :: _, .leaf _ => none
  | k :: p, .node ts => (ts[k]?).bind (get? p)

/-- The tree with the part at a place replaced. -/
def set? : List ℕ → Rose α → Rose α → Option (Rose α)
  | [], _, u => some u
  | _ :: _, .leaf _, _ => none
  | k :: p, .node ts, u => (ts[k]?).bind fun t => (set? p t u).map fun t' => .node (ts.set k t')

/-- The elements of a node. -/
def children : Rose α → List (Rose α)
  | .leaf _ => []
  | .node ts => ts

/-- The element `k` of a node. -/
def child (k : ℕ) (t : Rose α) : Rose α := t.children.getD k (.node [])

variable {p q : List ℕ} {t t' s u u' : Rose α}

@[simp] lemma get?_nil : get? [] t = some t := by simp [get?]

@[simp] lemma set?_nil : set? [] t u = some u := by simp [set?]

lemma get?_append (p q : List ℕ) (t : Rose α) :
    get? (p ++ q) t = (get? p t).bind (get? q) := by
  induction p generalizing t with
  | nil => simp
  | cons k p ih =>
    cases t with
    | leaf a => simp [get?]
    | node ts =>
      cases h : ts[k]? with
      | none => simp [get?, h]
      | some v => simp [get?, h, ih]

/-- A place inside another one. -/
lemma get?_append_of_get? (h : get? p t = some s) : get? (p ++ q) t = get? q s := by
  rw [get?_append, h, Option.bind_some]

/-- A part that can be read can be replaced. -/
lemma exists_set? (h : get? p t = some s) (u : Rose α) : ∃ t', set? p t u = some t' := by
  induction p generalizing t with
  | nil => exact ⟨u, set?_nil⟩
  | cons k p ih =>
    cases t with
    | leaf a => simp [get?] at h
    | node ts =>
      obtain ⟨v, hv, hs⟩ := Option.bind_eq_some_iff.mp (by simpa only [get?] using h)
      obtain ⟨v', hv'⟩ := ih hs
      exact ⟨.node (ts.set k v'), by simp [set?, hv, hv']⟩

lemma set?_node_cons {ts : List (Rose α)} {k : ℕ} (h : set? (k :: p) (.node ts) u = some t') :
    ∃ v v', ts[k]? = some v ∧ set? p v u = some v' ∧ t' = .node (ts.set k v') := by
  obtain ⟨v, hv, hs⟩ := Option.bind_eq_some_iff.mp (by simpa only [set?] using h)
  obtain ⟨v', hv', rfl⟩ := Option.map_eq_some_iff.mp hs
  exact ⟨v, v', hv, hv', rfl⟩

/-- What has been put in a place is there. -/
lemma get?_set? (h : set? p t u = some t') : get? p t' = some u := by
  induction p generalizing t t' with
  | nil =>
    obtain rfl : u = t' := by simpa using h
    exact get?_nil
  | cons k p ih =>
    cases t with
    | leaf a => simp [set?] at h
    | node ts =>
      obtain ⟨v, v', hv, hv', rfl⟩ := set?_node_cons h
      have hk : k < ts.length := (List.getElem?_eq_some_iff.mp hv).1
      simp [get?, List.getElem?_set_self hk, ih hv']

/-- The last replacement counts. -/
lemma set?_set? (h : set? p t u = some t') : set? p t' u' = set? p t u' := by
  induction p generalizing t t' with
  | nil => simp
  | cons k p ih =>
    cases t with
    | leaf a => simp [set?] at h
    | node ts =>
      obtain ⟨v, v', hv, hv', rfl⟩ := set?_node_cons h
      have hk : k < ts.length := (List.getElem?_eq_some_iff.mp hv).1
      simp [set?, hv, List.getElem?_set_self hk, ih hv', List.set_set]

/-- Replacing a part of a part. -/
lemma set?_append (h : get? p t = some s) (q : List ℕ) (u : Rose α) :
    set? (p ++ q) t u = (set? q s u).bind (set? p t) := by
  induction p generalizing t with
  | nil =>
    obtain rfl : t = s := by simpa using h
    cases h : set? q t u <;> simp [h]
  | cons k p ih =>
    cases t with
    | leaf a => simp [get?] at h
    | node ts =>
      obtain ⟨v, hv, hs⟩ := Option.bind_eq_some_iff.mp (by simpa only [get?] using h)
      cases hq : set? q s u with
      | none => simp [set?, hv, ih hs, hq]
      | some s' => simp [set?, hv, ih hs, hq]

/-- Putting back what is there. -/
lemma set?_self (h : get? p t = some s) : set? p t s = some t := by
  induction p generalizing t with
  | nil =>
    obtain rfl : t = s := by simpa using h
    exact set?_nil
  | cons k p ih =>
    cases t with
    | leaf a => simp [get?] at h
    | node ts =>
      obtain ⟨v, hv, hs⟩ := Option.bind_eq_some_iff.mp (by simpa only [get?] using h)
      obtain ⟨hk, rfl⟩ := List.getElem?_eq_some_iff.mp hv
      simp [set?, hk, ih hs]

/-- Replacing one element of a node. -/
lemma set?_concat {ts : List (Rose α)} {k : ℕ} (h : get? p t = some (.node ts))
    (hk : k < ts.length) : set? (p ++ [k]) t u = set? p t (.node (ts.set k u)) := by
  rw [set?_append h]
  simp [set?, hk]

lemma get?_concat {ts : List (Rose α)} (h : get? p t = some (.node ts)) (k : ℕ) :
    get? (p ++ [k]) t = ts[k]? := by
  rw [get?_append_of_get? h]
  cases hk : ts[k]? <;> simp [get?, hk]

end Rose
