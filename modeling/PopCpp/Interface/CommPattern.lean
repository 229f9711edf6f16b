/-
# The communication pattern

`ApplyCommPattern` is to move the addresses that match a pattern to the front of the access list.
For each address that is not there yet it inserts a copy at the front, and then erases at the
position where the address stood before the insertion: that is now the address in front of it.
So the address that was moved is there twice, the one before it is gone, and the front stays where
it is.  On an access list without repetitions a lost address cannot come back; and if no address
matches two patterns, the first pattern that moves something ends up with too many addresses, or
with none at the front.  So the list is arranged as it should be only if nothing had to be moved
(`applyCommPattern_placed_iff`).
-/
import PopCpp.Utils.MatchWildcard
import PopCpp.Utils.SameContact
import PopCpp.Lib.Ranked

namespace PopCpp.CommPattern

open Utils Ranked

/-! ### `ApplyCommPattern` -/

section

variable {α : Type} (fits : α → Bool)

lemma length_move_le {headpos old : ℕ} {accesslist : List α} (t : α)
    (h : old < accesslist.length) :
    ((accesslist.insertIdx headpos t).eraseIdx old).length ≤ accesslist.length := by
  rw [List.length_eraseIdx, List.length_insertIdx]
  split_ifs <;> omega

/-- The loop over the access list for one pattern, with the iterators as indices: whether the
function returns, `headpos`, and the access list. -/
def patternLoop (headpos pos : ℕ) (accesslist : List α) : Bool × ℕ × List α :=
  if h : pos < accesslist.length then
    let t := accesslist[pos]
    if fits t then
      if headpos ≠ pos then
        patternLoop headpos (pos + 1) ((accesslist.insertIdx headpos t).eraseIdx pos)
      else if headpos + 1 = accesslist.length then (true, headpos + 1, accesslist)
      else patternLoop (headpos + 1) (pos + 1) accesslist
    else patternLoop headpos (pos + 1) accesslist
  else (false, headpos, accesslist)
termination_by accesslist.length - pos
decreasing_by
  · have hmove : ((accesslist.insertIdx headpos accesslist[pos]).eraseIdx pos).length ≤
        accesslist.length := length_move_le accesslist[pos] h
    omega
  · omega
  · omega

end

/-- The loop over the patterns. -/
def applyLoop {α : Type} : List (α → Bool) → ℕ → List α → List α
  | [], _, accesslist => accesslist
  | fits :: patternlist, headpos, accesslist =>
      match patternLoop fits headpos headpos accesslist with
      | (true, _, accesslist) => accesslist
      | (false, headpos, accesslist) => applyLoop patternlist headpos accesslist

/-- `pop_interface::Tokenize` -/
def tokenize (s : Str) : List Str := if s = [] then [] else popcTokenizeR s [32, 10, 9]

/-- The patterns, as what they match. -/
def patterns (pattern : Str) : List (Str → Bool) :=
  (tokenize pattern).map fun ptstr t => matchWildcard t ptstr

/-- `pop_interface::ApplyCommPattern` -/
def applyCommPattern (pattern : Str) (accesslist : List Str) : List Str :=
  if pattern = [] then accesslist else applyLoop (patterns pattern) 0 accesslist

/-! ### A list in order stays as it is -/

section

variable {α : Type} {fits : α → Bool} {ps : List (α → Bool)} {headpos pos : ℕ} {l : List α}

lemma patternLoop_end (h : l.length ≤ pos) :
    patternLoop fits headpos pos l = (false, headpos, l) := by
  rw [patternLoop, dif_neg (by omega)]

lemma patternLoop_skip (h : pos < l.length) (hfits : fits l[pos] = false) :
    patternLoop fits headpos pos l = patternLoop fits headpos (pos + 1) l := by
  rw [patternLoop, dif_pos h, if_neg (by simp [hfits])]

/-- Nothing matches any more. -/
lemma patternLoop_of_none (h : ∀ a ∈ l.drop pos, fits a = false) :
    patternLoop fits headpos pos l = (false, headpos, l) := by
  induction hn : l.length - pos generalizing pos with
  | zero => exact patternLoop_end (by omega)
  | succ n ih =>
      have hpos : pos < l.length := by omega
      rw [List.drop_eq_getElem_cons hpos] at h
      rw [patternLoop_skip hpos (h _ List.mem_cons_self)]
      exact ih (fun a ha => h a (List.mem_cons_of_mem _ ha)) (by omega)

/-- The function returns at the end of the list. -/
lemma length_le_of_patternLoop (h : (patternLoop fits headpos pos l).1 = true) :
    (patternLoop fits headpos pos l).2.2.length ≤ (patternLoop fits headpos pos l).2.1 := by
  fun_induction patternLoop fits headpos pos l with
  | case1 headpos pos l hpos t hfits hne ih => exact ih h
  | case2 headpos pos l hpos t hfits heq hend => exact hend.ge
  | case3 headpos pos l hpos t hfits heq hend ih => exact ih h
  | case4 headpos pos l hpos t hfits ih => exact ih h
  | case5 => cases h

/-- The front moves over the addresses that match, and nothing else happens. -/
lemma patternLoop_of_front (h : ∀ a ∈ (l.drop headpos).dropWhile fits, fits a = false) :
    (patternLoop fits headpos headpos l).2.2 = l ∧
      l.drop (patternLoop fits headpos headpos l).2.1 = (l.drop headpos).dropWhile fits := by
  induction hn : l.length - headpos generalizing headpos with
  | zero =>
      have hlen : l.length ≤ headpos := by omega
      rw [patternLoop_end hlen, List.drop_eq_nil_of_le hlen]
      exact ⟨rfl, rfl⟩
  | succ n ih =>
      have hlen : headpos < l.length := by omega
      have hdrop := List.drop_eq_getElem_cons hlen
      cases hfits : fits l[headpos] with
      | false =>
          rw [hdrop, List.dropWhile_cons_of_neg (by simp [hfits]), ← hdrop] at h ⊢
          rw [patternLoop_of_none h]
          exact ⟨rfl, rfl⟩
      | true =>
          rw [hdrop, List.dropWhile_cons_of_pos hfits] at h ⊢
          rw [patternLoop, dif_pos hlen, if_pos hfits, if_neg (by simp)]
          split_ifs with hend
          · have hnil : l.drop (headpos + 1) = [] := List.drop_eq_nil_of_le (by omega)
            exact ⟨rfl, by rw [hnil, List.dropWhile_nil]⟩
          · exact ih h (by omega)

/-- The front comes to the first address that does not match. -/
lemma patternLoop_of_found
    (h : ∃ a ∈ (l.drop headpos).dropWhile fits, fits a = true) : ∃ head,
      patternLoop fits headpos headpos l = patternLoop fits head (head + 1) l ∧
        (∃ b, l[head]? = some b ∧ fits b = false) ∧ ∃ a ∈ l.drop (head + 1), fits a = true := by
  induction hn : l.length - headpos generalizing headpos with
  | zero =>
      obtain ⟨a, ha, -⟩ := h
      rw [List.drop_eq_nil_of_le (by omega)] at ha
      exact absurd ha List.not_mem_nil
  | succ n ih =>
      have hlen : headpos < l.length := by omega
      rw [List.drop_eq_getElem_cons hlen] at h
      cases hfits : fits l[headpos] with
      | false =>
          rw [List.dropWhile_cons_of_neg (by simp [hfits]), List.exists_mem_cons_iff] at h
          exact ⟨headpos, patternLoop_skip hlen hfits, ⟨_, List.getElem?_eq_getElem hlen, hfits⟩,
            h.resolve_left (by simp [hfits])⟩
      | true =>
          rw [List.dropWhile_cons_of_pos hfits] at h
          have hend : headpos + 1 ≠ l.length := fun heq => by
            obtain ⟨a, ha, -⟩ := h
            rw [List.drop_eq_nil_of_le (by omega)] at ha
            exact absurd ha List.not_mem_nil
          rw [patternLoop, dif_pos hlen, if_pos hfits, if_neg (by simp), if_neg hend]
          exact ih h (by omega)

lemma applyLoop_of_sorted (h : Sorted ps (l.drop headpos)) : applyLoop ps headpos l = l := by
  induction ps generalizing headpos with
  | nil => rfl
  | cons fits ps ih =>
      obtain ⟨hrest, hsorted⟩ := sorted_cons_iff.mp h
      obtain ⟨hlist, hdrop⟩ := patternLoop_of_front hrest
      rw [applyLoop]
      split
      · next heq =>
          rw [heq] at hlist
          exact hlist
      · next heq =>
          rw [heq] at hlist hdrop
          obtain rfl : _ = l := hlist
          exact ih (hdrop ▸ hsorted)

end

/-! ### A move loses an address -/

section

variable {α : Type} [DecidableEq α] {fits : α → Bool} {ps : List (α → Bool)} {headpos pos : ℕ}
  {l : List α}

/-- What stands in the list after a move: the address in front of the one that was moved has given
its place to a second copy of that one. -/
lemma move_perm (hhead : headpos < pos) (h : pos < l.length) :
    ((l.insertIdx headpos l[pos]).eraseIdx pos).Perm ((l[pos] :: l).erase l[pos - 1]) := by
  have hlen : (l.insertIdx headpos l[pos]).length = l.length + 1 :=
    List.length_insertIdx_of_le_length (by omega) _
  have hinsert : (l.insertIdx headpos l[pos]).Perm (l[pos] :: l) :=
    List.perm_insertIdx _ _ (by omega)
  have herase := List.getElem_cons_eraseIdx_perm (l := l.insertIdx headpos l[pos]) (n := pos)
    (by omega)
  rw [List.getElem_insertIdx_of_gt hhead] at herase
  exact (List.cons_perm_iff_perm_erase.mp (herase.trans hinsert)).2

lemma not_mem_move (hl : l.Nodup) (hhead : headpos < pos) (h : pos < l.length) :
    l[pos - 1] ∉ (l.insertIdx headpos l[pos]).eraseIdx pos := by
  have hne : l[pos] ≠ l[pos - 1] := fun heq => by
    have := hl.getElem_inj_iff.mp heq
    omega
  rw [(move_perm hhead h).mem_iff, List.erase_cons_tail (by simpa using hne), List.mem_cons, not_or]
  exact ⟨hne.symm, hl.not_mem_erase⟩

/-- The loop brings in no address that was not there. -/
lemma mem_of_mem_patternLoop {a : α} (h : headpos ≤ pos)
    (ha : a ∈ (patternLoop fits headpos pos l).2.2) : a ∈ l := by
  fun_induction patternLoop fits headpos pos l with
  | case1 headpos pos l hpos t hfits hne ih =>
      have hmove := ih (by omega) ha
      rw [(move_perm (by omega) hpos).mem_iff] at hmove
      rcases List.mem_cons.mp (List.mem_of_mem_erase hmove) with rfl | hmem
      · exact List.getElem_mem hpos
      · exact hmem
  | case2 => exact ha
  | case3 headpos pos l hpos t hfits heq hend ih => exact ih (by omega) ha
  | case4 headpos pos l hpos t hfits ih => exact ih (by omega) ha
  | case5 => exact ha

lemma mem_of_mem_applyLoop {a : α} (ha : a ∈ applyLoop ps headpos l) : a ∈ l := by
  induction ps generalizing headpos l with
  | nil => exact ha
  | cons fits ps ih =>
      have hpattern : a ∈ (patternLoop fits headpos headpos l).2.2 → a ∈ l :=
        mem_of_mem_patternLoop le_rfl
      rw [applyLoop] at ha
      split at ha
      · next heq =>
          rw [heq] at hpattern
          exact hpattern ha
      · next heq =>
          rw [heq] at hpattern
          exact hpattern (ih ha)

/-- One pattern leaves the list as it is, or an address is gone. -/
lemma patternLoop_eq_or_lost (hl : l.Nodup) (h : headpos ≤ pos) :
    (patternLoop fits headpos pos l).2.2 = l ∨
      ∃ b ∈ l, b ∉ (patternLoop fits headpos pos l).2.2 := by
  fun_induction patternLoop fits headpos pos l with
  | case1 headpos pos l hpos t hfits hne ih =>
      exact .inr ⟨l[pos - 1], List.getElem_mem _, fun hmem =>
        not_mem_move hl (by omega) hpos (mem_of_mem_patternLoop (by omega) hmem)⟩
  | case2 => exact .inl rfl
  | case3 headpos pos l hpos t hfits heq hend ih => exact ih hl (by omega)
  | case4 headpos pos l hpos t hfits ih => exact ih hl (by omega)
  | case5 => exact .inl rfl

/-- The same for all the patterns: what one of them loses, the others do not bring back. -/
lemma applyLoop_eq_or_lost (hl : l.Nodup) :
    applyLoop ps headpos l = l ∨ ∃ b ∈ l, b ∉ applyLoop ps headpos l := by
  induction ps generalizing headpos with
  | nil => exact .inl rfl
  | cons fits ps ih =>
      have hpattern : (patternLoop fits headpos headpos l).2.2 = l ∨
          ∃ b ∈ l, b ∉ (patternLoop fits headpos headpos l).2.2 :=
        patternLoop_eq_or_lost hl le_rfl
      rw [applyLoop]
      split
      · next heq =>
          rw [heq] at hpattern
          exact hpattern
      · next heq =>
          rw [heq] at hpattern
          rcases hpattern with hlist | ⟨b, hb, hlost⟩
          · obtain rfl : _ = l := hlist
            exact ih
          · exact .inr ⟨b, hb, fun hmem => hlost (mem_of_mem_applyLoop hmem)⟩

end

/-! ### A move doubles an address -/

section

variable {α : Type} {fits : α → Bool} {headpos pos : ℕ} {l : List α}

lemma front_move (t : α) (hhead : headpos ≤ pos) :
    ((l.insertIdx headpos t).eraseIdx pos).take headpos = l.take headpos := by
  rw [List.take_eraseIdx_eq_take_of_le _ _ _ hhead,
    List.take_insertIdx_eq_take_of_le _ _ _ _ le_rfl]

lemma head_move (t : α) (hhead : headpos < pos) (h : pos < l.length) :
    ((l.insertIdx headpos t).eraseIdx pos)[headpos]? = some t := by
  rw [List.getElem?_eraseIdx_of_lt hhead, List.getElem?_insertIdx_self, if_pos (by omega)]

/-- The last address that was moved stands at the front. -/
lemma head_patternLoop (h : headpos < pos) (hfound : ∃ a ∈ l.drop pos, fits a = true) :
    ∃ a, (patternLoop fits headpos pos l).2.2[headpos]? = some a ∧ fits a = true := by
  fun_induction patternLoop fits headpos pos l with
  | case1 headpos pos l hpos t hfits hne ih =>
      by_cases hmore : ∃ a ∈ ((l.insertIdx headpos t).eraseIdx pos).drop (pos + 1), fits a = true
      · exact ih (by omega) hmore
      · rw [patternLoop_of_none (by simpa using hmore)]
        exact ⟨t, head_move t h hpos, hfits⟩
  | case2 => omega
  | case3 => omega
  | case4 headpos pos l hpos t hfits ih =>
      rw [List.drop_eq_getElem_cons hpos, List.exists_mem_cons_iff] at hfound
      exact ih (by omega) (hfound.resolve_left hfits)
  | case5 headpos pos l hpos =>
      obtain ⟨a, ha, -⟩ := hfound
      rw [List.drop_eq_nil_of_le (by omega)] at ha
      exact absurd ha List.not_mem_nil

end

section

variable {α : Type} [DecidableEq α] {fits : α → Bool} {ps qs : List (α → Bool)}
  {headpos pos : ℕ} {l : List α} {b : α}

/-- One more address fits after a move, unless the one that is lost did. -/
lemma countP_move (hhead : headpos < pos) (h : pos < l.length) (hfits : fits l[pos] = true) :
    ((l.insertIdx headpos l[pos]).eraseIdx pos).countP fits +
      (if fits l[pos - 1] then 1 else 0) = l.countP fits + 1 := by
  have hmem : l[pos - 1] ∈ l[pos] :: l := List.mem_cons_of_mem _ (List.getElem_mem _)
  have hcount := (List.perm_cons_erase hmem).countP_eq fits
  rw [List.countP_cons, List.countP_cons, if_pos hfits] at hcount
  rw [(move_perm hhead h).countP_eq]
  exact hcount.symm

lemma countP_le_move (hhead : headpos < pos) (h : pos < l.length) (hfits : fits l[pos] = true) :
    l.countP fits ≤ ((l.insertIdx headpos l[pos]).eraseIdx pos).countP fits := by
  have hcount := countP_move hhead h hfits
  split_ifs at hcount <;> omega

/-- What the loop leaves once the front stands at an address that does not match. -/
structure Scanned (fits : α → Bool) (headpos : ℕ) (l : List α) (out : Bool × ℕ × List α) :
    Prop where
  goesOn : out.1 = false
  stays : out.2.1 = headpos
  front : out.2.2.take headpos = l.take headpos
  le : l.countP fits ≤ out.2.2.countP fits

lemma scanned_patternLoop (h : headpos < pos) :
    Scanned fits headpos l (patternLoop fits headpos pos l) := by
  fun_induction patternLoop fits headpos pos l with
  | case1 headpos pos l hpos t hfits hne ih =>
      obtain ⟨hgoes, hhead, hfront, hle⟩ := ih (by omega)
      exact ⟨hgoes, hhead, hfront.trans (front_move t h.le),
        (countP_le_move h hpos hfits).trans hle⟩
  | case2 => omega
  | case3 => omega
  | case4 headpos pos l hpos t hfits ih => exact ih (by omega)
  | case5 => exact ⟨rfl, rfl, rfl, le_rfl⟩

/-- The first move takes the place of an address that does not match. -/
lemma countP_lt_patternLoop (h : headpos < pos) (hb : l[pos - 1]? = some b) (hnot : fits b = false)
    (hfound : ∃ a ∈ l.drop pos, fits a = true) :
    l.countP fits < (patternLoop fits headpos pos l).2.2.countP fits := by
  induction hn : l.length - pos generalizing pos b with
  | zero =>
      obtain ⟨a, ha, -⟩ := hfound
      rw [List.drop_eq_nil_of_le (by omega)] at ha
      exact absurd ha List.not_mem_nil
  | succ n ih =>
      have hpos : pos < l.length := by omega
      cases hfits : fits l[pos] with
      | true =>
          obtain ⟨_, heq⟩ := List.getElem?_eq_some_iff.mp hb
          have hcount := countP_move h hpos hfits
          rw [heq, hnot, if_neg (by simp)] at hcount
          have hrest : Scanned fits headpos ((l.insertIdx headpos l[pos]).eraseIdx pos) _ :=
            scanned_patternLoop (show headpos < pos + 1 by omega)
          have hle := hrest.le
          rw [patternLoop, dif_pos hpos, if_pos hfits, if_pos h.ne]
          omega
      | false =>
          rw [List.drop_eq_getElem_cons hpos, List.exists_mem_cons_iff] at hfound
          rw [patternLoop_skip hpos hfits]
          exact ih (by omega) (List.getElem?_eq_getElem hpos) hfits
            (hfound.resolve_left (by simp [hfits])) (by omega)

/-- What a pattern leaves that moves something: the addresses in front stay, and the next one
matches. -/
structure Moved (fits : α → Bool) (headpos : ℕ) (l l' : List α) : Prop where
  front : l'.take headpos = l.take headpos
  head : ∃ c ∈ l, l'[headpos]? = some c ∧ fits c = true
  subset : l' ⊆ l

lemma exists_moved (hfound : ∃ a ∈ l.drop (headpos + 1), fits a = true) : ∃ l',
    patternLoop fits headpos (headpos + 1) l = (false, headpos, l') ∧ Moved fits headpos l l' := by
  have hscanned : Scanned fits headpos l (patternLoop fits headpos (headpos + 1) l) :=
    scanned_patternLoop (Nat.lt_succ_self headpos)
  obtain ⟨c, hc, hfits⟩ := head_patternLoop (Nat.lt_succ_self headpos) hfound
  have hsubset : (patternLoop fits headpos (headpos + 1) l).2.2 ⊆ l := fun a ha =>
    mem_of_mem_patternLoop (Nat.le_succ headpos) ha
  refine ⟨_, Prod.ext hscanned.goesOn (Prod.ext hscanned.stays rfl), hscanned.front, ?_, hsubset⟩
  exact ⟨c, hsubset (List.mem_of_getElem? hc), hc, hfits⟩

/-- What the other patterns do, if none of them matches the address at the front: only one of
theirs can take its place. -/
lemma applyLoop_of_head (hsingle : Single ps l) (hb : l[headpos]? = some b)
    (hnot : ∀ p ∈ ps, p b = false) : (applyLoop ps headpos l).take headpos = l.take headpos ∧
      (applyLoop ps headpos l = l ∨
        ∃ c, (applyLoop ps headpos l)[headpos]? = some c ∧ ∃ p ∈ ps, p c = true) := by
  induction ps generalizing l b with
  | nil => exact ⟨rfl, .inl rfl⟩
  | cons fits ps ih =>
      rw [List.forall_mem_cons] at hnot
      obtain ⟨hhead, heq⟩ := List.getElem?_eq_some_iff.mp hb
      have hskip : patternLoop fits headpos headpos l = patternLoop fits headpos (headpos + 1) l :=
        patternLoop_skip hhead (heq ▸ hnot.1)
      rw [applyLoop, hskip]
      by_cases hfound : ∃ a ∈ l.drop (headpos + 1), fits a = true
      · -- an address is moved to the front
        obtain ⟨l', hloop, hfront, ⟨c, hmem, hc, hfits⟩, hsubset⟩ := exists_moved hfound
        obtain ⟨hfront', hrest⟩ := ih (hsingle.tail.mono hsubset) hc (hsingle.eq_false hmem hfits)
        simp only [hloop]
        refine ⟨hfront'.trans hfront, .inr ?_⟩
        rcases hrest with hsame | ⟨d, hd, p, hp, hpd⟩
        · exact ⟨c, by rw [hsame]; exact hc, fits, List.mem_cons_self, hfits⟩
        · exact ⟨d, hd, p, List.mem_cons_of_mem _ hp, hpd⟩
      · have hnone : ∀ a ∈ l.drop (headpos + 1), fits a = false := by simpa using hfound
        obtain ⟨hfront, hrest⟩ := ih hsingle.tail hb hnot.2
        simp only [patternLoop_of_none hnone]
        refine ⟨hfront, hrest.imp_right ?_⟩
        rintro ⟨c, hc, p, hp, hpc⟩
        exact ⟨c, hc, p, List.mem_cons_of_mem _ hp, hpc⟩

/-- A pattern that moves an address brings in one more of its own, and it can get rid of them only
by losing them all. -/
lemma not_placed_of_found (hsingle : Single (qs ++ fits :: ps) l)
    (hfound : ∃ a ∈ (l.drop headpos).dropWhile fits, fits a = true) :
    ¬((applyLoop (fits :: ps) headpos l).Perm l ∧
      Sorted (qs ++ fits :: ps) (applyLoop (fits :: ps) headpos l)) := by
  rintro ⟨hperm, hsorted⟩
  obtain ⟨head, hskip, ⟨b, hb, hnot⟩, hmore⟩ := patternLoop_of_found hfound
  obtain ⟨l', hloop, hfront, ⟨c, hmem, hc, hfits⟩, hsubset⟩ := exists_moved hmore
  have hrun : applyLoop (fits :: ps) headpos l = applyLoop ps head l' := by
    rw [applyLoop, hskip, hloop]
  obtain ⟨hfront', hrest⟩ := applyLoop_of_head (hsingle.right.tail.mono hsubset) hc
    (hsingle.right.eq_false hmem hfits)
  rw [hrun] at hperm hsorted
  rcases hrest with hsame | ⟨d, hd, p, hp, hpd⟩
  · -- no other pattern moves anything: there is one address too many
    have hlt := countP_lt_patternLoop (Nat.lt_succ_self head) hb hnot hmore
    rw [hloop, ← hperm.countP_eq fits, hsame] at hlt
    exact absurd hlt (lt_irrefl _)
  · -- an address of a later pattern stands at the front: there are too few behind it
    have hdmem : d ∈ l := hperm.subset (List.mem_of_getElem? hd)
    obtain ⟨a, ha, hfa⟩ := hmore
    rw [List.drop_add_one_eq_tail_drop] at ha
    have hnone := hsorted.eq_false_of_perm hperm (hfront'.trans hfront) hd
      (hsingle.lt_rank hdmem hp hpd) a (List.mem_of_mem_tail ha)
    simp [hfa] at hnone

/-- If each address matches at most one pattern, a list that is arranged as it should be was so
from the beginning. -/
lemma sorted_of_single (hsingle : Single (qs ++ ps) l)
    (h : (applyLoop ps headpos l).Perm l ∧ Sorted (qs ++ ps) (applyLoop ps headpos l)) :
    Sorted ps (l.drop headpos) := by
  induction ps generalizing qs headpos with
  | nil => exact List.pairwise_of_forall fun _ _ => le_rfl
  | cons fits ps ih =>
      have hrest : ∀ a ∈ (l.drop headpos).dropWhile fits, fits a = false := by
        by_contra hfound
        push Not at hfound
        exact not_placed_of_found hsingle (by simpa using hfound) h
      obtain ⟨hlist, hdrop⟩ := patternLoop_of_front hrest
      have hend : (patternLoop fits headpos headpos l).1 = true → _ := length_le_of_patternLoop
      rw [applyLoop] at h
      rw [sorted_cons_iff]
      refine ⟨hrest, ?_⟩
      rw [← hdrop]
      generalize patternLoop fits headpos headpos l = out at *
      obtain ⟨goes, head, l'⟩ := out
      obtain rfl : l' = l := hlist
      cases goes with
      | true =>
          rw [List.drop_eq_nil_of_le (hend rfl)]
          exact List.Pairwise.nil
      | false =>
          rw [List.append_cons] at hsingle h
          exact ih hsingle h

end

/-! ### The access list -/

section

variable {pattern : Str} {accesslist : List Str}

/-- A list in order is left in order. -/
lemma applyCommPattern_placed (h : Sorted (patterns pattern) accesslist) :
    Placed (patterns pattern) accesslist (applyCommPattern pattern accesslist) := by
  have hself : applyCommPattern pattern accesslist = accesslist := by
    rw [applyCommPattern]
    split_ifs
    · rfl
    · exact applyLoop_of_sorted (by rwa [List.drop_zero])
  rw [hself]
  exact placed_self_iff.mpr h

/-- A list that is arranged as it should be was so from the beginning, if it has no repetitions, or
each address matches at most one pattern. -/
lemma sorted_of_placed (hl : accesslist.Nodup ∨ Single (patterns pattern) accesslist)
    (h : Placed (patterns pattern) accesslist (applyCommPattern pattern accesslist)) :
    Sorted (patterns pattern) accesslist := by
  rw [applyCommPattern] at h
  split_ifs at h
  · exact h.sorted
  · rcases hl with hnodup | hsingle
    · rcases applyLoop_eq_or_lost hnodup with heq | ⟨b, hb, hlost⟩
      · rw [heq] at h
        exact h.sorted
      · exact absurd (h.perm.mem_iff.mpr hb) hlost
    · have hnone : Single ([] ++ patterns pattern) accesslist := hsingle
      have hsorted := sorted_of_single hnone ⟨h.perm, h.sorted⟩
      rwa [List.drop_zero] at hsorted

end

/-- **The communication pattern.**  An access list that is in order stays as it is.  One that is not
in order is not put in order, if it has no repetitions, or each address matches at most one
pattern. -/
theorem applyCommPattern_placed_iff (pattern : Str) (accesslist : List Str) :
    (Sorted (patterns pattern) accesslist →
      Placed (patterns pattern) accesslist (applyCommPattern pattern accesslist)) ∧
    (accesslist.Nodup ∨ Single (patterns pattern) accesslist →
      (Placed (patterns pattern) accesslist (applyCommPattern pattern accesslist) ↔
        Sorted (patterns pattern) accesslist)) :=
  ⟨applyCommPattern_placed, fun hl => ⟨sorted_of_placed hl, applyCommPattern_placed⟩⟩

/-- The pattern `t*`. -/
lemma patterns_t : patterns [116, 42] = [fun t => matchWildcard t [116, 42]] := by
  have htokens : tokenize [116, 42] = [[116, 42]] := by decide
  rw [patterns, htokens, List.map_singleton]

lemma rank_t : rank (patterns [116, 42]) [116, 58, 49] = 0 := by
  have ht : matchWildcard [116, 58, 49] [116, 42] = true := by rw [matchWildcard]; rfl
  rw [patterns_t, rank_cons, ht]
  rfl

lemma rank_h : rank (patterns [116, 42]) [104] = 1 := by
  have hh : matchWildcard [104] [116, 42] = false := by rw [matchWildcard]; rfl
  rw [patterns_t, rank_cons, hh]
  rfl

/-- The pattern `t*` on the addresses `t:1` and `h`. -/
theorem applyCommPattern_placed_ordered : Placed (patterns [116, 42]) [[116, 58, 49], [104]]
    (applyCommPattern [116, 42] [[116, 58, 49], [104]]) :=
  (applyCommPattern_placed_iff [116, 42] [[116, 58, 49], [104]]).1
    (by simp [Sorted, rank_t, rank_h])

/-- The pattern `t*` on the addresses `h` and `t:1`: `h` is erased, and `t:1` is there twice. -/
theorem address_lost : ¬∀ (pattern : Str) (accesslist : List Str),
    Placed (patterns pattern) accesslist (applyCommPattern pattern accesslist) := by
  intro h
  have hsorted := sorted_of_placed (.inl (by decide)) (h [116, 42] [[104], [116, 58, 49]])
  have hle := (List.pairwise_cons.mp hsorted).1 [116, 58, 49] (by simp)
  rw [rank_t, rank_h] at hle
  exact absurd hle (by decide)

end PopCpp.CommPattern
