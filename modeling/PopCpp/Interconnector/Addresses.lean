/-
# The addresses of the interconnector

The address of a socket is printed where the socket is made and again where it is connected to,
each time into an array of its own.  The interconnector prints its own address into 20 characters,
and its receive thread, which is to connect to it, into as many as a pointer has bytes: what is
left is never the address (`receiverAddress_ne`).  The addresses of the objects are printed into
15 characters in all places, so they agree with each other, and they are complete exactly if the
rank and the number of the object have eight digits together.
-/
import PopCpp.Interface.Bind

namespace Interconnector.Addresses

open Discovery.Serialize PopCpp.Bind CInt

/-! ### What is printed -/

/-- `".uds_%d.%d"`, with `".uds_%d.0"` for the number 0 -/
def udsText (rank id : ℤ) : Str := udsMark ++ printInt rank ++ 46 :: printInt id

/-- `main`, `local_address`: `sprintf` into 20 characters, which are enough. -/
def listeningAddress (gRank : ℤ) : Str := udsText gRank 0

/-- `mpireceivedthread`, `local_address`: the size that is passed is that of the pointer. -/
def receiverAddress (rank : ℤ) : Str := snprintf 8 (udsText rank 0)

/-- `snprintf(tmp, 15, ".uds_%d.%d", g_rank, id)` -/
def objectAddress (gRank id : ℤ) : Str := snprintf 15 (udsText gRank id)

/-- `main`, 200004: an object for another node. -/
def remoteAddress (gRank nextObjectId : ℤ) : Str := objectAddress gRank nextObjectId

/-- `main`, 200000: an object for a connection of this node. -/
def ownAddress (gRank nextObjectId : ℤ) : Str := objectAddress gRank nextObjectId

/-- `main`, 200005: the connection to the final object. -/
def finalAddress (gRank destId : ℤ) : Str := objectAddress gRank destId

/-- The address is complete in all places, and the objects of a node have different ones. -/
structure Exact (r n : ℕ) : Prop where
  listening : listeningAddress r = udsAddress r 0
  receiver : receiverAddress r = udsAddress r 0
  remote : remoteAddress r n = udsAddress r n
  own : ownAddress r n = udsAddress r n
  final : finalAddress r n = udsAddress r n
  distinct : ∀ m : ℕ, objectAddress r m = objectAddress r n → m = n

section

variable {r n : ℕ}

lemma printInt_natCast (n : ℕ) : printInt n = decimal n := by
  rw [printInt, if_neg (by omega), Int.natAbs_natCast]

lemma udsText_natCast (r n : ℕ) : udsText r n = udsAddress r n := by
  rw [udsText, printInt_natCast, printInt_natCast, udsAddress]

lemma length_udsAddress (r n : ℕ) :
    (udsAddress r n).length = (decimal r).length + (decimal n).length + 6 := by
  have hmark : udsMark.length = 5 := rfl
  rw [udsAddress, List.length_append, List.length_append, List.length_cons]
  omega

lemma length_decimal_pos (n : ℕ) : 0 < (decimal n).length :=
  List.length_pos_iff.mpr (decimal_ne_nil n)

/-- A text is complete exactly if it is shorter than the array. -/
lemma snprintf_eq_self_iff {size : ℕ} {text : Str} (hsize : 0 < size) :
    snprintf size text = text ↔ text.length < size := by
  rw [snprintf, List.take_eq_self_iff]
  omega

lemma listeningAddress_eq (r : ℕ) : listeningAddress r = udsAddress r 0 := udsText_natCast r 0

/-- The receive thread never has the address of its interconnector. -/
lemma receiverAddress_ne (r : ℕ) : receiverAddress r ≠ udsAddress r 0 := by
  have hrank := length_decimal_pos r
  have hzero := length_decimal_pos 0
  rw [receiverAddress, show udsText r 0 = udsAddress r 0 from udsText_natCast r 0, ne_eq,
    snprintf_eq_self_iff (by decide), length_udsAddress]
  omega

lemma objectAddress_eq_iff (r n : ℕ) :
    objectAddress r n = udsAddress r n ↔ (decimal r).length + (decimal n).length ≤ 8 := by
  rw [objectAddress, udsText_natCast, snprintf_eq_self_iff (by decide), length_udsAddress]
  omega

/-- The first objects of a node have different addresses exactly if the digits of all of them are
printed. -/
lemma nodup_objectAddress_iff (r k : ℕ) :
    ((List.range k).map fun n : ℕ => objectAddress r n).Nodup ↔
      k ≤ 10 ^ (8 - (decimal r).length) := by
  have hnumbered := nodup_map_numbered_iff (udsMark ++ decimal r ++ [46]) 14 k
  have hlen : 14 - (udsMark ++ decimal r ++ [46]).length = 8 - (decimal r).length := by
    have hmark : udsMark.length = 5 := rfl
    rw [List.length_append, List.length_append, List.length_singleton]
    omega
  rw [hlen] at hnumbered
  rw [← hnumbered]
  refine iff_of_eq (congrArg List.Nodup (List.map_congr_left fun n _ => ?_))
  rw [objectAddress, udsText_natCast, udsAddress, List.append_assoc _ [46]]
  rfl

end

/-- **The addresses.**  They are never all complete, because of the receive thread.  The
interconnector itself has its address, the three places that print the address of an object agree,
and it is complete there exactly if rank and number have at most eight digits together. -/
theorem not_exact (r n : ℕ) : ¬Exact r n ∧
    listeningAddress r = udsAddress r 0 ∧ receiverAddress r ≠ udsAddress r 0 ∧
    (remoteAddress r n = finalAddress r n ∧ ownAddress r n = finalAddress r n) ∧
    (finalAddress r n = udsAddress r n ↔ (decimal r).length + (decimal n).length ≤ 8) ∧
    (((List.range (n + 1)).map fun m : ℕ => objectAddress r m).Nodup ↔
      n < 10 ^ (8 - (decimal r).length)) :=
  ⟨fun h => receiverAddress_ne r h.receiver, listeningAddress_eq r, receiverAddress_ne r,
    ⟨rfl, rfl⟩, objectAddress_eq_iff r n, nodup_objectAddress_iff r (n + 1)⟩

/-- The receive thread of the node 0 connects to `.uds_0.`. -/
theorem not_exact_zero : ¬∀ r n : ℕ, Exact r n := by
  intro h
  exact absurd (h 0 0).receiver (by decide)

end Interconnector.Addresses
