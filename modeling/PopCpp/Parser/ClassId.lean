/-
# The numbers that are made from names

A class without a `classuid` is known to the brokers by the number that `IDFromString` makes of
its name.  The letters of the name are the digits of that number in base 63, the last letter in
front and the others after it as they come.

Two of the comparisons are the wrong way round.  The letters from `A` to `Y` are skipped, `Z`, the
underscore and the small letters are counted from `A`, and the ten digits are put right after the
underscore, where the small letters from `v` on are already.
-/
import PopCpp.Parser.Classes
import Mathlib.Data.List.Induction
import Mathlib.Data.Nat.Digits.Defs

namespace Parser

/-! ### Names -/

/-- A character of an identifier after the first one. -/
def isNameChar (c : Char) : Bool := c.isAlphanum || c == '_'

/-- An identifier of C++. -/
def IsName (str : String) : Prop :=
  (∃ c ∈ str.toList.head?, c.isDigit = false) ∧ ∀ c ∈ str.toList, isNameChar c

instance (str : String) : Decidable (IsName str) :=
  @instDecidableAnd _ _ (Option.decidableExistsMem _) (List.decidableBAll _ _)

/-- What is left of a letter in the number: the letters from `A` to `Y` are lost, and the last
five small ones are those of the first five digits. -/
def idLetter (c : Char) : Option Char :=
  if 'A' ≤ c ∧ c ≤ 'Y' then none
  else if c = 'v' then some '0'
  else if c = 'w' then some '1'
  else if c = 'x' then some '2'
  else if c = 'y' then some '3'
  else if c = 'z' then some '4'
  else some c

/-- What is left of a name. -/
def idLetters (str : String) : List Char := str.toList.filterMap idLetter

/-- The letter of a digit. -/
def letterOfDigit (d : ℕ) : Char :=
  if d = 25 then 'Z'
  else if d = 30 then '_'
  else if d < 53 then Char.ofNat (d - 32 + 'a'.toNat)
  else Char.ofNat (d - 53 + '0'.toNat)

/-! ### The number over the integers -/

/-- `IDFromString` with the arithmetic of the integers. -/
def idFromStringInt (str : String) : ℕ :=
  let tmp := (str.toList.take 256).filterMap idDigit
  match tmp.getLast? with
  | none => 999 + 1000
  | some d => tmp.dropLast.foldl (fun id t => id * (2 * 26 + 11) + t) d + 1000

lemma foldl_mod (l : List ℕ) (d : ℕ) :
    l.foldl (fun id t => (id * (2 * 26 + 11) + t) % 2 ^ 32) d % 2 ^ 32 =
      l.foldl (fun id t => id * (2 * 26 + 11) + t) d % 2 ^ 32 := by
  induction l using List.reverseRecOn with
  | nil => rfl
  | append_singleton l t ih =>
    rw [List.foldl_concat, List.foldl_concat, Nat.mod_mod, Nat.add_mod, Nat.mul_mod, ih,
      ← Nat.mul_mod, ← Nat.add_mod]

/-- The digits are read from the last one on: the others are in front of it, the second
letter counting least. -/
lemma foldl_eq_ofDigits (l : List ℕ) (d b : ℕ) :
    l.foldl (fun id t => id * b + t) d = Nat.ofDigits b (l.reverse ++ [d]) := by
  induction l generalizing d with
  | nil => simp
  | cons t l ih =>
    rw [List.foldl_cons, ih, List.reverse_cons, List.append_assoc, Nat.ofDigits_append,
      Nat.ofDigits_append]
    congr 2
    simp only [List.singleton_append, Nat.ofDigits_cons, Nat.ofDigits_nil]
    ring

/-! ### Letters and digits -/

/-- What is used of the table of the digits, for one character. -/
def DigitSpec (c : Char) : Prop :=
  (idDigit c).map letterOfDigit = idLetter c ∧ (idLetter c).bind idDigit = idDigit c ∧
    ∀ d ∈ idDigit c, 25 ≤ d ∧ d < 63

instance (c : Char) : Decidable (DigitSpec c) := inferInstanceAs (Decidable (_ ∧ _ ∧ _))

lemma toNat_lt_of_isNameChar {c : Char} (hc : isNameChar c) : c.toNat < 128 := by
  have hor : (((c.isUpper || c.isLower) || c.isDigit) || c == '_') = true := hc
  rw [Bool.or_eq_true, Bool.or_eq_true, Bool.or_eq_true, beq_iff_eq] at hor
  rcases hor with ((hupper | hlower) | hdigit) | rfl
  · have hrange : 'A'.val ≤ c.val ∧ c.val ≤ 'Z'.val := of_decide_eq_true hupper
    exact (UInt32.le_iff_toNat_le.mp hrange.2).trans_lt (by decide)
  · have hle : c.val ≤ 'z'.val := of_decide_eq_true (Bool.and_eq_true_iff.mp hlower).2
    exact (UInt32.le_iff_toNat_le.mp hle).trans_lt (by decide)
  · have hle : c.val ≤ '9'.val := of_decide_eq_true (Bool.and_eq_true_iff.mp hdigit).2
    exact (UInt32.le_iff_toNat_le.mp hle).trans_lt (by decide)
  · decide

lemma digitSpec {c : Char} (hc : isNameChar c) : DigitSpec c := by
  have key : ∀ n < 128, isNameChar (Char.ofNat n) → DigitSpec (Char.ofNat n) := by
    decide +kernel
  have := key c.toNat (toNat_lt_of_isNameChar hc)
  rw [Char.ofNat_toNat] at this
  exact this hc

/-- The digits of a name are what is left of its letters. -/
lemma map_letterOfDigit {l : List Char} (hl : ∀ c ∈ l, isNameChar c) :
    (l.filterMap idDigit).map letterOfDigit = l.filterMap idLetter := by
  rw [List.map_filterMap]
  exact List.filterMap_congr fun c hc => (digitSpec (hl c hc)).1

lemma filterMap_idLetter {l : List Char} (hl : ∀ c ∈ l, isNameChar c) :
    (l.filterMap idLetter).filterMap idDigit = l.filterMap idDigit := by
  rw [List.filterMap_filterMap]
  exact List.filterMap_congr fun c hc => (digitSpec (hl c hc)).2.1

lemma digits_eq_iff {l l' : List Char} (hl : ∀ c ∈ l, isNameChar c)
    (hl' : ∀ c ∈ l', isNameChar c) :
    l.filterMap idDigit = l'.filterMap idDigit ↔
      l.filterMap idLetter = l'.filterMap idLetter := by
  constructor
  · intro h
    rw [← map_letterOfDigit hl, h, map_letterOfDigit hl']
  · intro h
    rw [← filterMap_idLetter hl, h, filterMap_idLetter hl']

/-! ### Digits and numbers -/

/-- The number of a list of digits, the last one in front. -/
def numberOf (tmp : List ℕ) : ℕ :=
  match tmp.getLast? with
  | none => 999
  | some d => tmp.dropLast.foldl (fun id t => id * (2 * 26 + 11) + t) d

lemma numberOf_concat (l : List ℕ) (d : ℕ) :
    numberOf (l ++ [d]) = Nat.ofDigits 63 (l.reverse ++ [d]) := by
  rw [numberOf, List.getLast?_append_of_ne_nil _ (by simp), List.dropLast_concat]
  exact foldl_eq_ofDigits l d 63

lemma digits_numberOf_concat {l : List ℕ} {d : ℕ} (h : ∀ x ∈ l ++ [d], 25 ≤ x ∧ x < 63) :
    Nat.digits 63 (numberOf (l ++ [d])) = l.reverse ++ [d] := by
  rw [numberOf_concat]
  refine Nat.digits_ofDigits 63 (by norm_num) _ (fun x hx => ?_) fun _ => ?_
  · exact (h x (by simpa [or_comm] using hx)).2
  · have := (h d (by simp)).1
    simp only [List.getLast_append_singleton]
    omega

/-- No digit is zero, so that the number gives the digits back; 999 has a digit that no
character has. -/
lemma numberOf_inj {l l' : List ℕ} (h : ∀ x ∈ l, 25 ≤ x ∧ x < 63)
    (h' : ∀ x ∈ l', 25 ≤ x ∧ x < 63) (heq : numberOf l = numberOf l') : l = l' := by
  have hnone : ∀ {l : List ℕ} {d : ℕ}, (∀ x ∈ l ++ [d], 25 ≤ x ∧ x < 63) →
      numberOf (l ++ [d]) ≠ 999 := by
    intro l d hld h999
    have hd := digits_numberOf_concat hld
    rw [h999] at hd
    have h15 : d = 15 := by
      have := congrArg List.getLast? hd
      simpa using this.symm
    have := (hld d (by simp)).1
    omega
  rcases List.eq_nil_or_concat' l with rfl | ⟨l, d, rfl⟩ <;>
    rcases List.eq_nil_or_concat' l' with rfl | ⟨l', d', rfl⟩
  · rfl
  · exact absurd heq.symm (hnone h')
  · exact absurd heq (hnone h)
  · have := congrArg (Nat.digits 63) heq
    rw [digits_numberOf_concat h, digits_numberOf_concat h'] at this
    obtain ⟨hl, hd⟩ := List.append_inj' this rfl
    rw [List.reverse_injective hl, hd]

lemma idFromStringInt_eq (str : String) :
    idFromStringInt str = numberOf ((str.toList.take 256).filterMap idDigit) + 1000 := by
  rw [idFromStringInt, numberOf]
  split <;> rfl

/-- What the source computes is this number in 32-bit arithmetic. -/
theorem idFromString_eq (str : String) : idFromString str = idFromStringInt str % 2 ^ 32 := by
  simp only [idFromString, idFromStringInt]
  cases ((str.toList.take 256).filterMap idDigit).getLast? with
  | none => rfl
  | some d =>
    dsimp only
    rw [Nat.add_mod, foldl_mod, ← Nat.add_mod]

/-! ### Names that are told apart -/

/-- Two names get different numbers if and only if they still differ once the letters from `A`
to `Y` are left out and the last five small letters are read as the first five digits. -/
theorem idFromStringInt_ne_iff {s t : String} (hs : IsName s) (ht : IsName t)
    (hslen : s.length < 256) (htlen : t.length < 256) :
    idFromStringInt s ≠ idFromStringInt t ↔ idLetters s ≠ idLetters t := by
  have htake : ∀ {u : String}, u.length < 256 → u.toList.take 256 = u.toList := fun hu =>
    List.take_of_length_le (by rw [String.length_toList]; omega)
  have hbound : ∀ {u : String}, IsName u → ∀ x ∈ u.toList.filterMap idDigit, 25 ≤ x ∧ x < 63 := by
    intro u hu x hx
    obtain ⟨c, hc, hcx⟩ := List.mem_filterMap.mp hx
    exact (digitSpec (hu.2 c hc)).2.2 x hcx
  rw [idFromStringInt_eq, idFromStringInt_eq, htake hslen, htake htlen]
  refine not_congr ⟨fun h => ?_, fun h => ?_⟩
  · have := numberOf_inj (hbound hs) (hbound ht) (by omega)
    exact (digits_eq_iff hs.2 ht.2).mp this
  · rw [(digits_eq_iff hs.2 ht.2).mpr h]

theorem idFromStringInt_road_ne_ride : idFromStringInt "Road" ≠ idFromStringInt "Ride" :=
  (idFromStringInt_ne_iff (by decide) (by decide) (by decide) (by decide)).mpr (by decide)

/-- The names `Read` and `Head`, which differ in a capital letter only, get one number. -/
theorem exists_idFromStringInt_eq : ¬ ∀ s t : String, IsName s → IsName t → s ≠ t →
    s.length = t.length → s.length < 256 → idFromStringInt s ≠ idFromStringInt t := by
  intro h
  exact h "Read" "Head" (by decide) (by decide) (by decide) (by decide) (by decide) (by decide)

end Parser
