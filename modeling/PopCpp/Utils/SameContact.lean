/-
# The same contact

A contact is a list of addresses, separated by white space.  `SameContact` decides whether two of
them have an address in common by looking for texts in texts: each contact in the other, and then
each address of the second in the first.  A common address is always found, but so is an address
that is a part of another one, such as one port of a host in another port, and in one direction
only.  The answer is right exactly if there is a common address, or no text lies inside another
(`sameContact_common_iff`).
-/
import PopCpp.Buffer.RoundTrip
import PopCpp.Lib.Tokens

namespace PopCpp.Utils

open Buffer Tokens

/-! ### `SameContact` -/

/-- `popc_tokenize_r(xr_result, x_str, x_sep)`: what `strtok_r` finds. -/
def popcTokenizeR (xStr xSep : List UInt8) : List (List UInt8) :=
  Tokens.tokens (fun c => decide (c ∈ xSep)) (cut xStr)

/-- `strstr(s, sub) != nullptr` -/
def strstr (s sub : List UInt8) : Bool := decide (sub <:+: s)

/-- `" \n\r\t"` -/
def whiteSpace : List UInt8 := [32, 10, 13, 9]

/-- `pop_utils::SameContact`.  The test for the same pointer is left out: it is for one and the
same text, and `strstr` finds that in itself. -/
def sameContact (contact1 contact2 : List UInt8) : Bool :=
  if strstr (cut contact1) (cut contact2) || strstr (cut contact2) (cut contact1) then true
  else (popcTokenizeR (cut contact2) whiteSpace).any fun token => strstr (cut contact1) token

/-- `NodeInfoMap::HasContact`, on the keys of the map. -/
def hasContact (hashmap : List (List UInt8)) (contact : List UInt8) : Bool :=
  hashmap.any fun first => sameContact first contact

/-! ### Addresses -/

/-- The addresses of a contact. -/
def addresses (contact : List UInt8) : List (List UInt8) := popcTokenizeR contact whiteSpace

/-- The two contacts have an address in common. -/
def Common (contact1 contact2 : List UInt8) : Prop :=
  ∃ a, a ∈ addresses contact1 ∧ a ∈ addresses contact2

instance (contact1 contact2 : List UInt8) : Decidable (Common contact1 contact2) :=
  inferInstanceAs (Decidable (∃ a ∈ addresses contact1, a ∈ addresses contact2))

/-- No contact is a part of the other, and no address of the second is a part of one of the
first. -/
structure Apart (contact1 contact2 : List UInt8) : Prop where
  first : ¬cut contact1 <:+: cut contact2
  second : ¬cut contact2 <:+: cut contact1
  address : ∀ a ∈ addresses contact1, ∀ b ∈ addresses contact2, ¬b <:+: a

section

variable {a b contact1 contact2 : List UInt8}

lemma strstr_eq_true_iff {s sub : List UInt8} : strstr s sub = true ↔ sub <:+: s :=
  decide_eq_true_iff

lemma cut_cut (s : List UInt8) : cut (cut s) = cut s := by
  rw [cut_eq_self_iff]
  intro h
  simpa using List.mem_takeWhile_imp h

lemma Common.symm (h : Common contact1 contact2) : Common contact2 contact1 := by
  obtain ⟨a, h1, h2⟩ := h
  exact ⟨a, h2, h1⟩

/-- An address occurs in a contact where it is a part of an address of that contact. -/
lemma infix_cut_iff (hb : b ∈ addresses contact2) :
    b <:+: cut contact1 ↔ ∃ a ∈ addresses contact1, b <:+: a := by
  obtain ⟨hmem, hne⟩ := mem_tokens_iff.mp hb
  exact infix_iff_exists hne (eq_false_of_mem_splitOnP hmem)

/-- **What `SameContact` returns.** -/
lemma sameContact_eq_true_iff : sameContact contact1 contact2 = true ↔
    cut contact2 <:+: cut contact1 ∨ cut contact1 <:+: cut contact2 ∨
      ∃ b ∈ addresses contact2, ∃ a ∈ addresses contact1, b <:+: a := by
  have htokens : popcTokenizeR (cut contact2) whiteSpace = addresses contact2 := by
    rw [addresses, popcTokenizeR, popcTokenizeR, cut_cut]
  have hany : ((addresses contact2).any fun token => strstr (cut contact1) token) = true ↔
      ∃ b ∈ addresses contact2, ∃ a ∈ addresses contact1, b <:+: a := by
    rw [List.any_eq_true]
    refine exists_congr fun b => and_congr_right fun hb => ?_
    rw [strstr_eq_true_iff, infix_cut_iff hb]
  rw [sameContact, htokens]
  split_ifs with h
  · rw [Bool.or_eq_true, strstr_eq_true_iff, strstr_eq_true_iff] at h
    rw [← or_assoc]
    exact iff_of_true rfl (.inl h)
  · rw [Bool.or_eq_true, strstr_eq_true_iff, strstr_eq_true_iff] at h
    rw [hany, ← or_assoc, or_iff_right h]

/-- A common address is found. -/
lemma Common.sameContact (h : Common contact1 contact2) :
    sameContact contact1 contact2 = true := by
  obtain ⟨a, h1, h2⟩ := h
  exact sameContact_eq_true_iff.mpr (.inr (.inr ⟨a, h2, a, h1, List.infix_rfl⟩))

lemma sameContact_eq_false_iff : sameContact contact1 contact2 = false ↔
    Apart contact1 contact2 := by
  rw [← Bool.not_eq_true, sameContact_eq_true_iff]
  constructor
  · intro h
    push Not at h
    exact ⟨h.2.1, h.1, fun a ha b hb => h.2.2 b hb a ha⟩
  · rintro ⟨hfirst, hsecond, haddress⟩ (h | h | ⟨b, hb, a, ha, hba⟩)
    · exact hsecond h
    · exact hfirst h
    · exact haddress a ha b hb hba

/-- Where there is a common address, or no text is a part of another, the answer is right. -/
lemma sameContact_common (h : Common contact1 contact2 ∨ Apart contact1 contact2) :
    sameContact contact1 contact2 = true ↔ Common contact1 contact2 := by
  rcases h with h | hapart
  · exact iff_of_true h.sameContact h
  · have hfalse := sameContact_eq_false_iff.mpr hapart
    have hnot : ¬Common contact1 contact2 := fun h => by
      rw [h.sameContact] at hfalse
      cases hfalse
    exact iff_of_false (by simp [hfalse]) hnot

/-- **The same contact.**  `SameContact` tells whether there is a common address exactly where
there is one, or no text is a part of another. -/
theorem sameContact_common_iff (contact1 contact2 : List UInt8) :
    (sameContact contact1 contact2 = true ↔ Common contact1 contact2) ↔
      Common contact1 contact2 ∨ Apart contact1 contact2 := by
  refine ⟨fun h => ?_, sameContact_common⟩
  cases hsame : sameContact contact1 contact2 with
  | true => exact .inl (h.mp hsame)
  | false => exact .inr (sameContact_eq_false_iff.mp hsame)

/-- A node is known under a contact exactly if one of its addresses is, as long as addresses that
are not the same are no parts of each other. -/
theorem hasContact_iff {hashmap : List (List UInt8)} {contact : List UInt8}
    (h : ∀ first ∈ hashmap, Common first contact ∨ Apart first contact) :
    hasContact hashmap contact = true ↔ ∃ first ∈ hashmap, Common first contact := by
  rw [hasContact, List.any_eq_true]
  exact exists_congr fun first => and_congr_right fun hmem => sameContact_common (h first hmem)

end

/-- `h:12` and `h:1`: two ports of one host. -/
theorem ports_same_contact : ¬∀ contact1 contact2 : List UInt8,
    (sameContact contact1 contact2 = true ↔ Common contact1 contact2) := by
  intro h
  have hports := (h [104, 58, 49, 50] [104, 58, 49]).mp
    (sameContact_eq_true_iff.mpr (.inl (by decide)))
  exact absurd hports (by decide)

end PopCpp.Utils
