/-
# Binding to a Unix-domain address

`Bind` takes the node and the object out of an address `uds://.uds_<node>.<id>`, and goes through
the interconnector of its own node if the object is on another one.  The node is to be what stands
in front of the dot, but the length that is passed to `substr` is what stands behind it: one
character for the dot and one for each digit of the object.  So the node is read in full exactly
if it has at most one digit more than the object, and if both are numbers of an `int`
(`recovers_iff_digits`).
-/
import PopCpp.Discovery.UniqueId
import PopCpp.Lib.StdString

namespace PopCpp.Bind

open Discovery.Serialize StdString CInt Buffer

/-! ### The address of an object -/

/-- `".uds_"`, and what `Bind` looks for of it. -/
def udsMark : Str := [46, 117, 100, 115, 95]

/-- `"uds://"` -/
def udsScheme : Str := [117, 100, 115, 58, 47, 47]

/-- The socket address of an object. -/
def udsAddress (node id : ℕ) : Str := udsMark ++ decimal node ++ 46 :: decimal id

/-- `popc_combox_uds::GetUrl` -/
def getUrl (udsAddress : Str) : Str := udsScheme ++ udsAddress

/-! ### `Bind` -/

/-- What `Bind` finds in an address: the protocol, `connect_dest`, and for a Unix-domain address
the node and the object. -/
structure Destination where
  prot : Str
  connectDest : Str
  uds : Option (ℤ × ℤ)
deriving DecidableEq

/-- `dest_node` and `dest_id` -/
def readUds (connectDest : Str) : Option (ℤ × ℤ) :=
  let pos := find connectDest udsMark.tail
  if pos = npos then none
  else
    let destinationNode := connectDest.drop (pos + 4)
    let pos := find destinationNode [46]
    let destinationId := destinationNode.drop ((pos + 1) % 2 ^ 64)
    let destinationNode := destinationNode.take (sizeT (destinationNode.length - pos))
    some (atoi (cut destinationNode), atoi (cut destinationId))

/-- What stands in front of `"://"`, or `"socket"`. -/
def protocol (dest : Str) : Str :=
  let pos := find dest [58, 47, 47]
  if pos = npos then [115, 111, 99, 107, 101, 116] else dest.take pos

/-- The address `dest`, up to the comparison with the rank.  There is none if `prot` has no room
for the protocol, or `substr` throws `std::out_of_range`. -/
def destination (dest : Str) : Option Destination :=
  if 256 ≤ (protocol dest).length ∨ dest.length < 6 then none
  else some ⟨protocol dest, dest.drop 6, readUds (dest.drop 6)⟩

/-- `need_redirection` -/
def Destination.needRedirection (d : Destination) (rank : ℤ) : Bool :=
  match d.uds with
  | some (destNode, _) => destNode ≠ rank
  | none => false

/-- What the combox is created for and connected with. -/
inductive Connection where
  /-- the own interconnector, and the request `_connection` for a node and an object -/
  | redirect (localAddress : Str) (destNode destId : ℤ)
  | uds (connectDest : Str)
  | direct (dest : Str)
deriving DecidableEq

/-- `pop_interface::Bind(const char* dest)`, up to the connection, on the node `rank`. -/
def bind (rank : ℤ) (dest : Str) : Option Connection :=
  (destination dest).map fun d =>
    match d.uds with
    | none => .direct dest
    | some (destNode, destId) =>
        if d.needRedirection rank then
          .redirect (snprintf 15 (udsMark ++ printInt rank ++ [46, 48])) destNode destId
        else .uds d.connectDest

/-! ### Digits -/

section

variable {node id n k : ℕ} {rest : Str}

lemma decimal_of_lt_ten (h : n < 10) : decimal n = [UInt8.ofNat (Nat.digitChar n).toNat] := by
  rw [decimal, Nat.toDigits_of_lt_base h]
  rfl

lemma decimal_ne_nil (n : ℕ) : decimal n ≠ [] := by
  rw [decimal, ne_eq, List.map_eq_nil_iff]
  exact Nat.toDigits_ne_nil

lemma toNat_digit : ∀ n < 10, (UInt8.ofNat (Nat.digitChar n).toNat).toNat = 48 + n := by decide

lemma isdigit_of_mem_decimal {c : UInt8} (hc : c ∈ decimal n) : isdigit c = true := by
  obtain ⟨d, hd, rfl⟩ := List.mem_map.mp hc
  have hlt := toNat_lt_of_mem_toDigits hd
  rw [isdigit_eq_true_iff, toNat_byte_of_mem_toDigits hd]
  omega

lemma not_mem_decimal_of_isdigit {c : UInt8} (hc : isdigit c = false) : c ∉ decimal n :=
  fun hmem => by simp [isdigit_of_mem_decimal hmem] at hc

lemma digitsValue_decimal (n : ℕ) : digitsValue (decimal n) = n := by
  induction n using Nat.strong_induction_on with
  | _ n ih =>
      rcases Nat.lt_or_ge n 10 with hn | hn
      · rw [decimal_of_lt_ten hn, digitsValue, List.foldl_cons, List.foldl_nil, toNat_digit n hn]
        omega
      · have hdiv := ih (n / 10) (by omega)
        rw [digitsValue] at hdiv
        rw [decimal_of_ten_le hn, digitsValue, List.foldl_append, hdiv, List.foldl_cons,
          List.foldl_nil, toNat_digit _ (Nat.mod_lt _ (by decide))]
        omega

/-- The first digits of a number are the number without its last digits. -/
lemma take_decimal (h : 0 < k) :
    (decimal n).take k = decimal (n / 10 ^ ((decimal n).length - k)) := by
  induction hj : (decimal n).length - k generalizing n with
  | zero => rw [List.take_of_length_le (by omega), Nat.pow_zero, Nat.div_one]
  | succ j ih =>
      have hten : 10 ≤ n := by
        by_contra hlt
        rw [decimal_of_lt_ten (by omega), List.length_singleton] at hj
        omega
      have hlen := congrArg List.length (decimal_of_ten_le hten)
      rw [List.length_append, List.length_singleton] at hlen
      rw [decimal_of_ten_le hten, List.take_append_of_le_length (by omega), ih (by omega),
        Nat.div_div_eq_div_mul, Nat.pow_succ, Nat.mul_comm]

lemma atoi_decimal (hrest : ∀ c ∈ rest.head?, isdigit c = false) :
    atoi (decimal n ++ rest) = wrap (min (2 ^ 63 - 1) n) := by
  rw [atoi_of_digits (decimal_ne_nil n) (fun c hc => isdigit_of_mem_decimal hc) hrest,
    digitsValue_decimal]

lemma atoi_decimal_of_lt (hrest : ∀ c ∈ rest.head?, isdigit c = false) (h : n < 2 ^ 31) :
    atoi (decimal n ++ rest) = n := by
  rw [atoi_decimal hrest, min_eq_right (by omega), wrap_natCast h]

lemma length_decimal_lt (h : n < 2 ^ 31) : (decimal n).length ≤ 10 :=
  (length_decimal_le_iff (by decide)).mpr (by omega)

/-- The node, if only some characters of the address are looked at. -/
lemma atoi_take (hk : 0 < k) (hnode : node < 2 ^ 31) :
    atoi ((decimal node ++ 46 :: rest).take k) =
      (node / 10 ^ ((decimal node).length - k) : ℕ) := by
  rcases Nat.le_total k (decimal node).length with hle | hle
  · have hlt : node / 10 ^ ((decimal node).length - k) < 2 ^ 31 :=
      lt_of_le_of_lt (Nat.div_le_self _ _) hnode
    rw [List.take_append_of_le_length hle, take_decimal hk,
      ← List.append_nil (decimal (node / 10 ^ ((decimal node).length - k))),
      atoi_decimal_of_lt (by simp) hlt]
  · rw [List.take_append, List.take_of_length_le hle, Nat.sub_eq_zero_of_le hle, Nat.pow_zero,
      Nat.div_one]
    refine atoi_decimal_of_lt ?_ hnode
    intro c hc
    rcases hj : k - (decimal node).length with - | j
    · simp [hj] at hc
    · rw [hj, List.take_succ_cons, List.head?_cons, Option.mem_some_iff] at hc
      rw [← hc]
      rfl

/-! ### Reading the address -/

lemma find_udsAddress (node id : ℕ) : find (udsAddress node id) udsMark.tail = 1 := by
  have hsplit : udsAddress node id =
      [46] ++ (udsMark.tail ++ (decimal node ++ 46 :: decimal id)) := by
    rw [udsAddress, List.append_assoc]
    rfl
  rw [hsplit]
  refine find_eq [46] udsMark.tail _ fun i hi => ?_
  obtain rfl : i = 0 := Nat.lt_one_iff.mp hi
  exact fun hprefix => absurd (List.cons_prefix_cons.mp hprefix).1 (by decide)

lemma find_dot (node id : ℕ) :
    find (decimal node ++ 46 :: decimal id) [46] = (decimal node).length :=
  find_singleton (not_mem_decimal_of_isdigit (by decide))

lemma protocol_getUrl (node id : ℕ) :
    protocol (getUrl (udsAddress node id)) = [117, 100, 115] := by
  have hsplit : getUrl (udsAddress node id) =
      [117, 100, 115] ++ ([58, 47, 47] ++ udsAddress node id) := rfl
  have hfind : find (getUrl (udsAddress node id)) [58, 47, 47] = 3 := by
    rw [hsplit]
    refine find_eq [117, 100, 115] [58, 47, 47] _ fun i hi hprefix => ?_
    have hhead : i = 0 ∨ i = 1 ∨ i = 2 := by
      simp only [List.length_cons, List.length_nil] at hi
      omega
    rcases hhead with rfl | rfl | rfl <;>
      exact absurd (List.cons_prefix_cons.mp hprefix).1 (by decide)
  rw [protocol, hfind, if_neg (by decide), hsplit]
  rfl

lemma cut_address {s : Str} (h : s <:+: decimal node ++ 46 :: decimal id) : cut s = s := by
  rw [cut_eq_self_iff]
  intro hmem
  have hzero : (0 : UInt8) ∉ decimal node ∧ (0 : UInt8) ∉ decimal id :=
    ⟨not_mem_decimal_of_isdigit (by decide), not_mem_decimal_of_isdigit (by decide)⟩
  have := h.subset hmem
  simp [hzero] at this

/-- What is read of two numbers of an `int`: the object, and the first digits of the node. -/
lemma readUds_udsAddress (hnode : node < 2 ^ 31) (hid : id < 2 ^ 31) :
    readUds (udsAddress node id) =
      some (((node / 10 ^ ((decimal node).length - ((decimal id).length + 1)) : ℕ) : ℤ),
        (id : ℤ)) := by
  have hnodelen := length_decimal_lt hnode
  have hidlen := length_decimal_lt hid
  have hdrop : (udsAddress node id).drop (1 + 4) = decimal node ++ 46 :: decimal id := by
    rw [udsAddress, List.append_assoc]
    rfl
  have hlen : (((decimal node ++ 46 :: decimal id).length : ℤ) - (decimal node).length) =
      ((decimal id).length + 1 : ℕ) := by
    rw [List.length_append, List.length_cons]
    omega
  have hidtext : (decimal node ++ 46 :: decimal id).drop ((decimal node).length + 1) =
      decimal id := by
    rw [List.drop_append, List.drop_of_length_le (by omega), List.nil_append,
      Nat.add_sub_cancel_left]
    rfl
  have hmod : ((decimal node).length + 1) % 2 ^ 64 = (decimal node).length + 1 :=
    Nat.mod_eq_of_lt (by omega)
  have hidread : atoi (decimal id) = id := by
    rw [← List.append_nil (decimal id)]
    exact atoi_decimal_of_lt (by simp) hid
  have hsuffix : decimal id <:+ decimal node ++ 46 :: decimal id :=
    (List.suffix_cons _ _).trans (List.suffix_append _ _)
  have hidcut : cut (decimal id) = decimal id := cut_address hsuffix.isInfix
  simp only [readUds, find_udsAddress, hdrop, find_dot, hmod, hidtext, hlen]
  rw [if_neg (by decide), sizeT_natCast (by omega), cut_address (List.take_prefix _ _).isInfix,
    hidcut, hidread, atoi_take (by omega) hnode]

lemma destination_getUrl (node id : ℕ) : destination (getUrl (udsAddress node id)) =
    some ⟨[117, 100, 115], udsAddress node id, readUds (udsAddress node id)⟩ := by
  have hlen : 6 ≤ (getUrl (udsAddress node id)).length := by
    rw [getUrl, List.length_append]
    exact Nat.le_add_right _ _
  rw [destination, protocol_getUrl, if_neg]
  · rfl
  · rintro (h | h)
    · exact absurd h (by decide)
    · omega

end

/-! ### Node and object -/

/-- The address of an object gives its node and its number, and the object is reached directly on
its own node and through the interconnector elsewhere. -/
structure Recovers (node id : ℕ) : Prop where
  destination : destination (getUrl (udsAddress node id)) =
    some ⟨[117, 100, 115], udsAddress node id, some (node, id)⟩
  bind : ∀ rank : ℤ, bind rank (getUrl (udsAddress node id)) = some
    (if (node : ℤ) = rank then .uds (udsAddress node id)
      else .redirect (snprintf 15 (udsMark ++ printInt rank ++ [46, 48])) node id)

section

variable {node id : ℕ}

lemma recovers_iff :
    Recovers node id ↔ readUds (udsAddress node id) = some ((node : ℤ), (id : ℤ)) := by
  constructor
  · intro h
    have heq := h.destination
    rw [destination_getUrl, Option.some_inj] at heq
    exact congrArg Destination.uds heq
  · intro h
    have hdest := destination_getUrl node id
    rw [h] at hdest
    refine ⟨hdest, fun rank => ?_⟩
    rw [PopCpp.Bind.bind, hdest]
    by_cases hrank : (node : ℤ) = rank
    · simp [Destination.needRedirection, hrank]
    · simp [Destination.needRedirection, hrank]

/-- What `atoi` returns is an `int`. -/
lemma fits_of_readUds {connectDest : Str} {destNode destId : ℤ}
    (h : readUds connectDest = some (destNode, destId)) : Fits destNode ∧ Fits destId := by
  simp only [readUds] at h
  split_ifs at h
  rw [Option.some_inj, Prod.mk.injEq] at h
  rw [← h.1, ← h.2]
  exact ⟨fits_wrap _, fits_wrap _⟩

end

/-- **Unix-domain addresses.**  `Bind` recovers the node and the object exactly if both are
numbers of an `int`, and the node has at most one digit more than the object. -/
theorem recovers_iff_digits (node id : ℕ) : Recovers node id ↔
    (node < 2 ^ 31 ∧ id < 2 ^ 31) ∧ (decimal node).length ≤ (decimal id).length + 1 := by
  rw [recovers_iff]
  constructor
  · intro h
    have hfits := fits_of_readUds h
    have hlt : node < 2 ^ 31 ∧ id < 2 ^ 31 :=
      ⟨by exact_mod_cast hfits.1.2, by exact_mod_cast hfits.2.2⟩
    refine ⟨hlt, ?_⟩
    by_contra hdigits
    -- the last digits of the node are not read
    rw [readUds_udsAddress hlt.1 hlt.2, Option.some_inj, Prod.mk.injEq, Nat.cast_inj] at h
    have hpos : 0 < node := by
      by_contra hzero
      rw [Nat.eq_zero_of_not_pos hzero] at hdigits
      have : (decimal 0).length = 1 := rfl
      omega
    have hpow : 1 < 10 ^ ((decimal node).length - ((decimal id).length + 1)) :=
      Nat.one_lt_pow (by omega) (by decide)
    exact absurd h.1 (Nat.div_lt_self hpos hpow).ne
  · rintro ⟨⟨hnode, hid⟩, hdigits⟩
    rw [readUds_udsAddress hnode hid, Nat.sub_eq_zero_of_le hdigits, Nat.pow_zero, Nat.div_one]

/-- `uds://.uds_100.1` is taken for an address of node 10. -/
theorem node_cut : ¬∀ node id : ℕ, Recovers node id := by
  intro h
  exact absurd (recovers_iff.mp (h 100 1)) (by decide)

end PopCpp.Bind
