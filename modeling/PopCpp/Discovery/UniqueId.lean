/-
# The ids of requests

`getUID` prints the id of the node and its logical clock into an array of
`MAXREQUNIQUEIDLENGTH` characters.  The clock comes last, so that it is what a long access string
leaves no room for: the ids of one node are different as long as all digits of the clock fit
(`nodup_map_uid_iff`), and ids that are not cut tell the nodes apart, because there is no `_`
among the digits (`uidText_inj`).  An access string that leaves no room for a digit is an id by
itself, so it must not begin like another one, nor like another one with its digits.
-/
import PopCpp.Discovery.Serialize
import PopCpp.Lib.CInt

namespace Discovery

namespace Serialize

open PopCpp.Buffer CInt

/-! ### `getUID` -/

/-- `MAXREQUNIQUEIDLENGTH`: the size of the array for an id. -/
def maxReqUniqueIdLength : ℕ := 100

/-- The decimal digits of a number. -/
def decimal (n : ℕ) : Str := (Nat.toDigits 10 n).map fun c => UInt8.ofNat c.toNat

/-- `%d` -/
def printInt (x : ℤ) : Str := if x < 0 then 45 :: decimal x.natAbs else decimal x.natAbs

/-- The characters that `snprintf` leaves in an array of that size, before the NUL. -/
def snprintf (size : ℕ) (text : Str) : Str := text.take (size - 1)

/-- `POPCSearchNode`, with the members that `getUID` uses. -/
structure ClockedNode where
  nodeId : Str
  logicalClock : ℤ

/-- `POPCSearchNode::getUID` -/
def ClockedNode.getUID (n : ClockedNode) : Str × ClockedNode :=
  (snprintf maxReqUniqueIdLength (cut n.nodeId ++ [95, 95] ++ printInt n.logicalClock),
    { n with logicalClock := wrap (n.logicalClock + 1) })

/-- A new search node. -/
def ClockedNode.new (nodeId : Str) : ClockedNode := ⟨nodeId, 0⟩

/-- The ids that so many calls of `getUID` return. -/
def ClockedNode.uids : ℕ → ClockedNode → List Str
  | 0, _ => []
  | k + 1, n => n.getUID.1 :: uids k n.getUID.2

/-! ### The text of an id -/

/-- What is printed. -/
def uidText (nodeId : Str) (clock : ℕ) : Str := cut nodeId ++ [95, 95] ++ decimal clock

/-- What is left of it. -/
def uid (nodeId : Str) (clock : ℕ) : Str := (uidText nodeId clock).take 99

lemma length_decimal_le_iff {n k : ℕ} (hk : 0 < k) : (decimal n).length ≤ k ↔ n < 10 ^ k := by
  rw [decimal, List.length_map]
  exact Nat.length_toDigits_le_iff (by decide) hk

lemma toNat_lt_of_mem_toDigits {n : ℕ} {c : Char} (hc : c ∈ Nat.toDigits 10 n) :
    48 ≤ c.toNat ∧ c.toNat < 58 := by
  have hdigit := Nat.isDigit_of_mem_toDigits (by decide) le_rfl hc
  simp only [Char.isDigit, Bool.and_eq_true, decide_eq_true_eq] at hdigit
  have h1 : 48 ≤ c.val.toNat := hdigit.1
  have h2 : c.val.toNat ≤ 57 := hdigit.2
  exact ⟨h1, Nat.lt_succ_of_le h2⟩

lemma toNat_byte_of_mem_toDigits {n : ℕ} {c : Char} (hc : c ∈ Nat.toDigits 10 n) :
    (UInt8.ofNat c.toNat).toNat = c.toNat := by
  have hlt := (toNat_lt_of_mem_toDigits hc).2
  exact UInt8.toNat_ofNat_of_lt' (hlt.trans (by decide))

/-- There is no `_` among the digits. -/
lemma not_mem_decimal (n : ℕ) : (95 : UInt8) ∉ decimal n := by
  intro hmem
  obtain ⟨c, hc, heq⟩ := List.mem_map.mp hmem
  have hlt := (toNat_lt_of_mem_toDigits hc).2
  have hnat := congrArg UInt8.toNat heq
  rw [toNat_byte_of_mem_toDigits hc] at hnat
  have h95 : (95 : UInt8).toNat = 95 := rfl
  omega

lemma decimal_injective : Function.Injective decimal := by
  intro m n h
  have hchars : ∀ k, (decimal k).map (fun b => Char.ofNat b.toNat) = Nat.toDigits 10 k := by
    intro k
    rw [decimal, List.map_map]
    refine (List.map_congr_left fun c hc => ?_).trans (List.map_id _)
    rw [Function.comp_apply, toNat_byte_of_mem_toDigits hc, Char.ofNat_toNat, id]
  rw [← Nat.ofDigitChars_ten_toDigits (n := m), ← hchars, h, hchars,
    Nat.ofDigitChars_ten_toDigits]

/-- The last digit is printed last. -/
lemma decimal_of_ten_le {n : ℕ} (h : 10 ≤ n) :
    decimal n = decimal (n / 10) ++ [UInt8.ofNat (Nat.digitChar (n % 10)).toNat] := by
  rw [decimal, Nat.toDigits_of_base_le (by decide) h, List.map_append]
  rfl

/-! ### Numbered texts that are cut -/

section Numbered

variable {p : Str} {size i m : ℕ}

/-- All digits fit. -/
lemma take_numbered (hp : p.length < size) (hi : i < 10 ^ (size - p.length)) :
    (p ++ decimal i).take size = p ++ decimal i := by
  have hdigits := (length_decimal_le_iff (by omega)).mpr hi
  refine List.take_of_length_le ?_
  rw [List.length_append]
  omega

/-- No digit fits. -/
lemma take_numbered_of_long (hp : size ≤ p.length) :
    (p ++ decimal i).take size = p.take size := List.take_append_of_le_length hp

/-- Of a number that has too many digits, the last one is cut off. -/
lemma take_numbered_div_ten (hp : p.length < size) (hi : 10 ^ (size - p.length) ≤ i) :
    (p ++ decimal (i / 10)).take size = (p ++ decimal i).take size := by
  have hten : 10 ≤ i := by
    refine le_trans ?_ hi
    calc 10 = 10 ^ 1 := rfl
      _ ≤ 10 ^ (size - p.length) := Nat.pow_le_pow_right (by decide) (by omega)
  have hdigits : size - p.length ≤ (decimal (i / 10)).length := by
    have hall := (length_decimal_le_iff (n := i) (k := size - p.length) (by omega)).not.mpr
      (by omega)
    rw [decimal_of_ten_le hten, List.length_append, List.length_singleton] at hall
    omega
  rw [decimal_of_ten_le hten, ← List.append_assoc]
  refine (List.take_append_of_le_length ?_).symm
  rw [List.length_append]
  omega

/-- **Numbered texts** that are cut at a length are different exactly if the digits fit. -/
theorem nodup_map_numbered_iff (p : Str) (size m : ℕ) :
    ((List.range m).map fun i => (p ++ decimal i).take size).Nodup ↔
      m ≤ 10 ^ (size - p.length) := by
  have hinj : ((List.range m).map fun i => (p ++ decimal i).take size).Nodup ↔
      ∀ i < m, ∀ j < m, (p ++ decimal i).take size = (p ++ decimal j).take size → i = j := by
    rw [List.nodup_map_iff_inj_on List.nodup_range]
    simp only [List.mem_range]
  rw [hinj]
  constructor
  · intro h
    by_contra hmany
    rw [not_le] at hmany
    rcases Nat.lt_or_ge p.length size with hp | hp
    · -- the first number that is cut, and what is left of it
      have hpos : 0 < 10 ^ (size - p.length) := Nat.pow_pos (by decide)
      have heq := h _ (by omega) _ hmany (take_numbered_div_ten hp le_rfl)
      omega
    · rw [Nat.sub_eq_zero_of_le hp, Nat.pow_zero] at hmany
      have heq := h 0 (by omega) 1 hmany
        ((take_numbered_of_long hp).trans (take_numbered_of_long hp).symm)
      omega
  · intro hroom i hi j hj heq
    rcases Nat.lt_or_ge p.length size with hp | hp
    · rw [take_numbered hp (by omega), take_numbered hp (by omega)] at heq
      exact decimal_injective (List.append_cancel_left heq)
    · rw [Nat.sub_eq_zero_of_le hp, Nat.pow_zero] at hroom
      omega

end Numbered

lemma append_cons_inj {α : Type*} {s : α} {xs ys ds es : List α} (hd : s ∉ ds) (he : s ∉ es)
    (h : xs ++ s :: ds = ys ++ s :: es) : xs = ys ∧ ds = es := by
  rcases List.append_eq_append_iff.mp h with ⟨as, hys, hds⟩ | ⟨as, hxs, hes⟩
  · cases as with
    | nil => exact ⟨by simpa using hys.symm, (List.cons.inj hds).2⟩
    | cons a as =>
        rw [(List.cons.inj hds).2] at hd
        exact absurd (List.mem_append_right _ List.mem_cons_self) hd
  · cases as with
    | nil => exact ⟨by simpa using hxs, (List.cons.inj hes).2.symm⟩
    | cons a as =>
        rw [(List.cons.inj hes).2] at he
        exact absurd (List.mem_append_right _ List.mem_cons_self) he

/-- Before it is cut, an id tells the node and its clock. -/
lemma uidText_inj {a b : Str} {i j : ℕ} (h : uidText a i = uidText b j) :
    cut a = cut b ∧ i = j := by
  have hsplit : ∀ (x : Str) (k : ℕ), uidText x k = (cut x ++ [95]) ++ 95 :: decimal k := by
    intro x k
    simp [uidText]
  rw [hsplit, hsplit] at h
  obtain ⟨hid, hclock⟩ := append_cons_inj (not_mem_decimal i) (not_mem_decimal j) h
  exact ⟨List.append_cancel_right hid, decimal_injective hclock⟩

/-! ### The ids of one node -/

section OneNode

variable {a b : Str} {i j m n : ℕ}

/-- The digits of all clock values below `m` fit behind the access string. -/
def Room (nodeId : Str) (m : ℕ) : Prop := m ≤ 10 ^ (97 - (cut nodeId).length)

instance (nodeId : Str) (m : ℕ) : Decidable (Room nodeId m) := inferInstanceAs (Decidable (_ ≤ _))

lemma length_uidPrefix (nodeId : Str) :
    (cut nodeId ++ [95, 95]).length = (cut nodeId).length + 2 := by
  rw [List.length_append]
  rfl

/-- An id that is not cut. -/
lemma uid_eq_uidText (ha : (cut a).length < 97) (hi : i < 10 ^ (97 - (cut a).length)) :
    uid a i = uidText a i := by
  have hlen := length_uidPrefix a
  refine take_numbered (by omega) ?_
  rwa [hlen, Nat.add_comm, Nat.sub_add_eq]

/-- An id without a digit is the beginning of the access string, if need be with a `_`. -/
lemma uid_eq_take (ha : 97 ≤ (cut a).length) : uid a i = (cut a ++ [95, 95]).take 99 := by
  have hlen := length_uidPrefix a
  exact take_numbered_of_long (by omega)

/-- **The ids of one node** are different exactly if the digits fit. -/
lemma nodup_map_uid_iff (a : Str) (m : ℕ) : ((List.range m).map (uid a)).Nodup ↔ Room a m := by
  have hnumbered := nodup_map_numbered_iff (cut a ++ [95, 95]) 99 m
  rw [length_uidPrefix, Nat.add_comm, Nat.sub_add_eq] at hnumbered
  exact hnumbered

end OneNode

/-! ### The ids of two nodes -/

section TwoNodes

variable {a b : Str} {m n : ℕ}

lemma uids_eq {nodeId : Str} {clock : ℕ} (h : clock + m ≤ 2 ^ 31) :
    ClockedNode.uids m ⟨nodeId, clock⟩ = (List.range m).map fun i => uid nodeId (clock + i) := by
  induction m generalizing clock with
  | zero => rfl
  | succ m ih =>
      have hprint : printInt (clock : ℤ) = decimal clock := by
        rw [printInt, if_neg (by omega), Int.natAbs_natCast]
      have hfirst : (ClockedNode.getUID ⟨nodeId, clock⟩).1 = uid nodeId clock := by
        rw [ClockedNode.getUID, hprint]
        rfl
      rw [ClockedNode.uids, hfirst, List.range_succ_eq_map, List.map_cons, List.map_map,
        Nat.add_zero]
      congr 1
      cases m with
      | zero => rfl
      | succ m =>
          have hnext : (ClockedNode.getUID ⟨nodeId, clock⟩).2 = ⟨nodeId, (clock + 1 : ℕ)⟩ := by
            rw [ClockedNode.getUID, Nat.cast_add, Nat.cast_one,
              wrap_eq_self (by simp only [Fits]; omega)]
          rw [hnext, ih (by omega)]
          refine List.map_congr_left fun i _ => ?_
          rw [Function.comp_apply, Nat.add_assoc, Nat.add_comm 1]

/-- Of two access strings that leave no room for a digit, what there is room for is different: their
first 99 characters, where shorter ones are followed by `_`. -/
def Apart (a b : Str) : Prop :=
  97 ≤ (cut a).length → 97 ≤ (cut b).length →
    (cut a ++ [95, 95]).take 99 ≠ (cut b ++ [95, 95]).take 99

/-- The first 99 characters of the one access string are not the other, short one, with `__` and
the decimal digits of a number below `n`. -/
def Unnumbered (a b : Str) (n : ℕ) : Prop :=
  99 ≤ (cut a).length → (cut b).length < 97 →
    ∀ j < n, (cut a).take 99 ≠ cut b ++ [95, 95] ++ decimal j

/-- Of an access string of 97 or 98 characters, a `_` comes last. -/
lemma exists_take_eq (ha : 97 ≤ (cut a).length) (hlt : (cut a).length < 99) :
    ∃ xs, (cut a ++ [95, 95]).take 99 = xs ++ [95] := by
  obtain h | h : (cut a).length = 97 ∨ (cut a).length = 98 := by omega
  · refine ⟨cut a ++ [95], ?_⟩
    rw [List.take_of_length_le (by rw [length_uidPrefix]; omega), List.append_assoc]
    rfl
  · refine ⟨cut a, ?_⟩
    rw [List.take_append, List.take_of_length_le (by omega), h]
    rfl

/-- A text that ends in `_` does not end in a digit. -/
lemma append_ne_numbered (xs ys : Str) (j : ℕ) : xs ++ [95] ≠ ys ++ decimal j := by
  intro h
  have hne : decimal j ≠ [] := List.map_eq_nil_iff.not.mpr Nat.toDigits_ne_nil
  have hlast := congrArg List.getLast? h
  rw [List.getLast?_append, List.getLast?_append, List.getLast?_eq_some_getLast hne,
    Option.some_or, List.getLast?_singleton, Option.some_or, Option.some_inj] at hlast
  exact not_mem_decimal j (hlast ▸ List.getLast_mem hne)

/-- An id of a long access string among the ids of a short one. -/
lemma uid_eq_iff (ha : 97 ≤ (cut a).length) (hlb : (cut b).length < 97) {i j : ℕ}
    (hj : j < 10 ^ (97 - (cut b).length)) :
    uid a i = uid b j ↔
      99 ≤ (cut a).length ∧ (cut a).take 99 = cut b ++ [95, 95] ++ decimal j := by
  rw [uid_eq_take ha, uid_eq_uidText hlb hj, uidText]
  rcases Nat.lt_or_ge (cut a).length 99 with hlt | hge
  · obtain ⟨xs, hxs⟩ := exists_take_eq ha hlt
    rw [hxs]
    exact iff_of_false (append_ne_numbered _ _ j) fun h => absurd h.1 (by omega)
  · rw [List.take_append_of_le_length hge, and_iff_right hge]

lemma unnumbered_iff (ha : 97 ≤ (cut a).length) (hb : Room b n) (hlb : (cut b).length < 97)
    {i : ℕ} : (∀ j < n, uid a i ≠ uid b j) ↔ Unnumbered a b n := by
  have hiff : ∀ j < n, uid a i = uid b j ↔
      99 ≤ (cut a).length ∧ (cut a).take 99 = cut b ++ [95, 95] ++ decimal j :=
    fun j hj => uid_eq_iff ha hlb (hj.trans_le hb)
  constructor
  · intro h hge _ j hj heq
    exact h j hj ((hiff j hj).mpr ⟨hge, heq⟩)
  · intro h j hj heq
    obtain ⟨hge, htake⟩ := (hiff j hj).mp heq
    exact h hge hlb j hj htake

lemma uid_ne_of_apart (ha : Room a m) (hb : Room b n) (hne : cut a ≠ cut b) (hlong : Apart a b)
    (hab : Unnumbered a b n) (hba : Unnumbered b a m) {i j : ℕ} (hi : i < m) (hj : j < n) :
    uid a i ≠ uid b j := by
  rcases Nat.lt_or_ge (cut a).length 97 with hla | hla
  · rcases Nat.lt_or_ge (cut b).length 97 with hlb | hlb
    · intro heq
      rw [uid_eq_uidText hla (hi.trans_le ha), uid_eq_uidText hlb (hj.trans_le hb)] at heq
      exact hne (uidText_inj heq).1
    · exact ((unnumbered_iff hlb ha hla).mpr hba i hi).symm
  · rcases Nat.lt_or_ge (cut b).length 97 with hlb | hlb
    · exact (unnumbered_iff hla hb hlb).mpr hab j hj
    · rw [uid_eq_take hla, uid_eq_take hlb]
      exact hlong hla hlb

/-- **Request ids** are different exactly if each access string leaves room for the digits of
the clock, the access strings differ, also in what an id has room for, and none that leaves no room
for a digit begins like the other one with its digits. -/
theorem uids_nodup_iff (a b : Str) (m n : ℕ) (hm : m < 2 ^ 31) (hn : n < 2 ^ 31) :
    ((ClockedNode.new a).uids m ++ (ClockedNode.new b).uids n).Nodup ↔
      Room a m ∧ Room b n ∧ (0 < m → 0 < n → cut a ≠ cut b ∧ Apart a b) ∧
        (0 < m → Unnumbered a b n) ∧ (0 < n → Unnumbered b a m) := by
  have huids : ∀ (x : Str) {k : ℕ}, k < 2 ^ 31 →
      (ClockedNode.new x).uids k = (List.range k).map (uid x) := by
    intro x k hk
    have hclock : 0 + k ≤ 2 ^ 31 := by omega
    have h : (ClockedNode.new x).uids k = (List.range k).map fun i => uid x (0 + i) :=
      uids_eq hclock
    simpa only [Nat.zero_add] using h
  rw [huids a hm, huids b hn, List.nodup_append, nodup_map_uid_iff, nodup_map_uid_iff]
  refine and_congr_right fun ha => and_congr_right fun hb => ?_
  constructor
  · intro h
    have hcross : ∀ i < m, ∀ j < n, uid a i ≠ uid b j := fun i hi j hj =>
      h _ (List.mem_map_of_mem (List.mem_range.mpr hi)) _
        (List.mem_map_of_mem (List.mem_range.mpr hj))
    refine ⟨fun hm0 hn0 => ⟨fun hcut => ?_, fun hla hlb => ?_⟩, fun hm0 hge hlb => ?_,
      fun hn0 hge hla => ?_⟩
    · refine hcross 0 hm0 0 hn0 ?_
      rw [uid, uid, uidText, uidText, hcut]
    · have hzero := hcross 0 hm0 0 hn0
      rwa [uid_eq_take hla, uid_eq_take hlb] at hzero
    · exact (unnumbered_iff (by omega) hb hlb).mp (hcross 0 hm0) hge hlb
    · exact (unnumbered_iff (by omega) ha hla).mp (fun i hi => (hcross i hi 0 hn0).symm) hge hla
  · rintro ⟨hne, hab, hba⟩ x hx y hy
    obtain ⟨i, hi, rfl⟩ := List.mem_map.mp hx
    obtain ⟨j, hj, rfl⟩ := List.mem_map.mp hy
    rw [List.mem_range] at hi hj
    obtain ⟨hcut, hlong⟩ := hne (by omega) (by omega)
    exact uid_ne_of_apart ha hb hcut hlong (hab (by omega)) (hba (by omega)) hi hj

/-- Two nodes with short access strings. -/
theorem uids_nodup_iff_short :
    ((ClockedNode.new [104, 49]).uids 200000 ++ (ClockedNode.new [104, 50]).uids 300000).Nodup :=
  (uids_nodup_iff [104, 49] [104, 50] 200000 300000 (by decide) (by decide)).mpr
    ⟨by decide, by decide, fun _ _ => ⟨by decide, fun h => absurd h (by decide)⟩,
      fun _ h => absurd h (by decide), fun _ h => absurd h (by decide)⟩

/-- An access string of 97 characters: the digits of the clock are cut off. -/
theorem uids_repeated :
    ¬∀ (a b : Str), a ≠ b → ∀ m n : ℕ, m < 2 ^ 31 → n < 2 ^ 31 →
      ((ClockedNode.new a).uids m ++ (ClockedNode.new b).uids n).Nodup := by
  intro h
  have hnodup := h (List.replicate 97 97) [98] (by decide) 2 0 (by decide) (by decide)
  exact absurd hnodup (by decide)

end TwoNodes

end Serialize

end Discovery
