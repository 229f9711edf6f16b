/-
# Exploration lists, as they are edited

An exploration list is edited in two ways: `addListNode` adds a node with its neighbours, and
`Serialize` adds the entries that it reads from a buffer, one by one, up to the last one or up to
an exception.  Whatever the edits, at most `NEIGHBORSPATH` entries have a neighbour list, and a
node that was added stays.

Since the list is packed in the order of its keys, each entry that is added when it is unpacked
comes behind the others, and nothing is cleared on the way.  What the buffer does to the names is
another matter: a `std::string` comes out of it as a C string, and a message has room for less
than 2³¹ bytes.
-/
import PopCpp.Discovery.Transfer

namespace Discovery

namespace Serialize

open PopCpp.Buffer CInt

attribute [local instance] byteOrder

/-! ### Edits -/

/-- What changes an exploration list: a call of `addListNode`, or of `Serialize` on a buffer. -/
inductive Edit where
  | addListNode (nodeId : Str) (neighbors : List Str)
  | unpack (buf : PopBuffer)

section

variable (F : Format)

/-- One round of the loop of `ExplorationList::Serialize(buf, false)`. -/
def readEntry : BufM (Str × List Str) := do
  let nodeId ← unPackString F
  let nNeighbors ← unPackInt1 F
  let neighbors ← unPackStrings F nNeighbors.toNat
  pure (nodeId, neighbors)

/-- The entries that the loop has read when it ends, or is left by an exception. -/
def readEntries : ℕ → PopBuffer → List (Str × List Str)
  | 0, _ => []
  | n + 1, b =>
      match readEntry F b with
      | .ok e b' => e :: readEntries n b'
      | _ => []

/-- The entries that an edit adds. -/
def Edit.added : Edit → List (Str × List Str)
  | .addListNode nodeId neighbors => [(nodeId, neighbors)]
  | .unpack buf =>
      match unPackInt1 F buf with
      | .ok nElts b => readEntries F nElts.toNat b
      | _ => []

/-- The list after an edit. -/
def Edit.apply (el : ExplorationList Str) (edit : Edit) : ExplorationList Str :=
  (edit.added F).foldl (fun el e => el.addListNode e.1 e.2) el

/-- The list after some edits. -/
def edited (edits : List Edit) : ExplorationList Str := edits.foldl (Edit.apply F) []

variable {F}

lemma unPackEntries_succ (n : ℕ) (el : ExplorationList Str) :
    unPackEntries F (n + 1) el =
      readEntry F >>= fun e => unPackEntries F n (el.addListNode e.1 e.2) := by
  rw [unPackEntries, readEntry, bind_bind]
  congr 1
  funext nodeId
  rw [bind_bind]
  congr 1
  funext nNeighbors
  rw [bind_bind]
  rfl

lemma unPackEntries_eq_ok {n : ℕ} {el el' : ExplorationList Str} {b b' : PopBuffer}
    (h : unPackEntries F n el b = .ok el' b') :
    el' = (readEntries F n b).foldl (fun el e => el.addListNode e.1 e.2) el := by
  induction n generalizing el b with
  | zero =>
      obtain ⟨rfl, -⟩ : el = el' ∧ b = b' := by simpa [unPackEntries] using h
      rfl
  | succ n ih =>
      rw [unPackEntries_succ] at h
      obtain ⟨e, b₁, hread, hrest⟩ := BufM.bind_eq_ok.mp h
      rw [readEntries, hread, ih hrest]
      rfl

/-- When `Serialize` returns, it has made the edit. -/
lemma unPackExplorationList_eq_ok {el el' : ExplorationList Str} {b b' : PopBuffer}
    (h : unPackExplorationList F el b = .ok el' b') : el' = Edit.apply F el (.unpack b) := by
  obtain ⟨nElts, b₁, hint, hrest⟩ := BufM.bind_eq_ok.mp h
  rw [unPackEntries_eq_ok hrest, Edit.apply, Edit.added, hint]

lemma edited_append_singleton (edits : List Edit) (edit : Edit) :
    edited F (edits ++ [edit]) = edit.apply F (edited F edits) := by
  rw [edited, List.foldl_append]
  rfl

/-! ### What the edits keep -/

lemma kept_foldl {el : ExplorationList Str} (h : el.Kept) (added : List (Str × List Str)) :
    ExplorationList.Kept (added.foldl (fun el e => el.addListNode e.1 e.2) el) := by
  induction added generalizing el with
  | nil => exact h
  | cons e added ih => exact ih (h.addListNode e.1 e.2)

/-- The keys are those that were there and those that were added. -/
lemma exists_key_foldl (added : List (Str × List Str)) (el : ExplorationList Str) {k : Str} :
    (∃ f ∈ added.foldl (fun el e => ExplorationList.addListNode el e.1 e.2) el, f.1 = k) ↔
      (∃ f ∈ el, f.1 = k) ∨ ∃ f ∈ added, f.1 = k := by
  induction added generalizing el with
  | nil => simp
  | cons e added ih =>
      rw [List.foldl_cons, ih, ExplorationList.exists_key_addListNode, List.exists_mem_cons_iff,
        or_comm (a := k = e.1), or_assoc, eq_comm (a := k)]

lemma edited_eq (edits : List Edit) :
    edited F edits =
      (edits.flatMap (Edit.added F)).foldl
        (fun el e => ExplorationList.addListNode el e.1 e.2) [] := by
  rw [edited, List.foldl_flatMap]
  rfl

lemma kept_edited (edits : List Edit) : (edited F edits).Kept := by
  rw [edited_eq]
  exact kept_foldl ⟨List.Pairwise.nil, Nat.zero_le _⟩ _

/-- A node that was added stays. -/
lemma exists_key_edited {edits : List Edit} {edit : Edit} (hedit : edit ∈ edits)
    {e : Str × List Str} (he : e ∈ edit.added F) : ∃ f ∈ edited F edits, f.1 = e.1 := by
  rw [edited_eq, exists_key_foldl]
  exact Or.inr ⟨e, List.mem_flatMap.mpr ⟨edit, hedit, he⟩, rfl⟩

/-- The first entries, added in order to an empty list, are all there. -/
lemma foldl_take {el : ExplorationList Str} (h : el.Kept) (k : ℕ) :
    (el.take k).foldl (fun acc e => ExplorationList.addListNode acc e.1 e.2) [] = el.take k := by
  have htake : ExplorationList.Kept (el.take k) := by
    refine ⟨h.sorted.sublist (List.take_sublist k el), le_trans ?_ h.short⟩
    exact (List.take_sublist k el).countP_le
  exact htake.unpack

end

/-! ### Through a buffer -/

/-- The list is packed into an empty buffer, which is then short enough for a message, and what
is unpacked from it into an empty list is the same. -/
def Reproduced (F : Format) (hd : Header) (el : ExplorationList Str) : Prop :=
  ∃ b b', packExplorationList F el (empty hd) = .ok () b ∧ b.packeddata.length < 2 ^ 31 ∧
    unPackExplorationList F [] b = .ok el b'

section

variable {F : Format} (hF : F.Transports) {hd : Header} {el : ExplorationList Str}

/-- The names in a list that comes out of a buffer have no NUL. -/
lemma Reproduced.nulFree (h : Reproduced F hd el) : ∀ e ∈ el, ∀ s ∈ e.1 :: e.2, 0 ∉ s := by
  obtain ⟨b, b', -, -, hunpack⟩ := h
  exact (Returns.trivial _).bind (fun _ _ =>
    returns_entries Format.Transports.returnsString_nulFree (by simp)) b b' el hunpack

include hF

lemma Reproduced.short (h : Reproduced F hd el) :
    ∀ e ∈ el, ∀ s ∈ e.1 :: e.2, s.length + 1 < 2 ^ 31 := by
  obtain ⟨b, b', -, -, hunpack⟩ := h
  exact (Returns.trivial _).bind (fun _ _ =>
    returns_entries hF.returnsString (by simp)) b b' el hunpack

/-- A list that is reproduced has had room for all of it. -/
lemma Reproduced.room (h : Reproduced F hd el) : 24 + (el.map entrySize).sum < 2 ^ 31 := by
  have hshort := h.short hF
  obtain ⟨b, b', hpack, hlen, hunpack⟩ := h
  have hempty : (empty hd).packeddata.length = 20 := rfl
  rcases le_or_gt (wrap (el.length : ℤ)) 0 with hnone | hsome
  · -- No entries are packed, so there are none.
    obtain ⟨c, c', hpack', -, hunpack', -⟩ := (carries_none hF hnone).of_empty (by omega) hd
    rw [hpack] at hpack'
    cases hpack'
    rw [hunpack] at hunpack'
    cases hunpack'
    decide
  · rw [packExplorationList, if_pos hsome] at hpack
    have htakes := (hF.takesInt1 (wrap el.length)).bind (takes_entries hF hshort) (by decide)
    have hroom := htakes.room (by omega) hpack hlen
    omega

/-- **The way through a buffer.** -/
lemma reproduced_iff (hel : el.Kept) : Reproduced F hd el ↔
    (∀ e ∈ el, ∀ s ∈ e.1 :: e.2, 0 ∉ s) ∧ 24 + (el.map entrySize).sum < 2 ^ 31 := by
  constructor
  · intro h
    exact ⟨h.nulFree, h.room hF⟩
  · rintro ⟨hnul, hroom⟩
    have hcount := length_le_sum_entrySize el
    have hcarries := carries_explorationList hF el (by omega)
      (length_lt_of_sum_entrySize (by omega)) []
    have hself : el.map cutEntry = el := map_cutEntry_eq_self fun e he =>
      List.forall_mem_cons.mp (hnul e he)
    have hback : el.foldl (fun acc e => ExplorationList.addListNode acc e.1 e.2) [] = el :=
      hel.unpack
    rw [hself, hback] at hcarries
    obtain ⟨b, b', hpack, hlen, hunpack, -⟩ := hcarries.of_empty (by omega) hd
    exact ⟨b, b', hpack, by omega, hunpack⟩

end

/-- **Edited exploration lists.**  After any edits at most `NEIGHBORSPATH` entries have a neighbour
list, every node that was added is a key, a `Serialize` that returns has made one more edit, and
nothing is cleared when the entries are added again in order.  The list is reproduced through a
buffer if and only if no name in it has a NUL, at which `UnPack` of a `std::string` stops, and it
is not too long for a message. -/
theorem explorationList_edited (F : Format) (hF : Standard F) (hd : Header) (edits : List Edit) :
    (edited F edits).crtNeighborsPath ≤ neighborsPath ∧
      (∀ edit ∈ edits, ∀ e ∈ edit.added F, ∃ f ∈ edited F edits, f.1 = e.1) ∧
      (∀ b el b', unPackExplorationList F (edited F edits) b = .ok el b' →
        el = edited F (edits ++ [.unpack b])) ∧
      (∀ k, ((edited F edits).take k).foldl
        (fun acc e => ExplorationList.addListNode acc e.1 e.2) [] = (edited F edits).take k) ∧
      (Reproduced F hd (edited F edits) ↔
        (∀ e ∈ edited F edits, ∀ s ∈ e.1 :: e.2, 0 ∉ s) ∧
          24 + ((edited F edits).map entrySize).sum < 2 ^ 31) := by
  refine ⟨(kept_edited edits).short, fun _ hedit _ he => exists_key_edited hedit he,
    fun b el b' hunpack => ?_, foldl_take (kept_edited edits),
    reproduced_iff hF.transports (kept_edited edits)⟩
  rw [edited_append_singleton]
  exact unPackExplorationList_eq_ok hunpack

/-- Node `a` with the neighbour `b`, and then without. -/
def twice : List Edit := [.addListNode [97] [[98]], .addListNode [97] []]

theorem explorationList_edited_twice :
    Reproduced raw ⟨0, 0, 0, 0, 0⟩ (edited raw twice) :=
  (explorationList_edited raw .raw ⟨0, 0, 0, 0, 0⟩ twice).2.2.2.2.mpr (by decide)

/-- A name with a NUL is cut. -/
theorem nul_not_reproduced :
    ¬∀ edits : List Edit, Reproduced raw ⟨0, 0, 0, 0, 0⟩ (edited raw edits) := by
  intro h
  have hnul := (h [.addListNode [97, 0, 98] []]).nulFree ([97, 0, 98], []) (by decide)
    [97, 0, 98] (by decide)
  exact absurd hnul (by decide)

end Serialize

end Discovery
