/-
# Writing round and round

Pieces are written one behind the other into a buffer, and each is in one part: a piece that would
reach the end of the buffer is put at its beginning.  What is lost at the end then depends on the
piece that does not fit, but it is less than the longest piece.  So a piece stays where it is until
the pieces behind it are as long together as the buffer without the longest piece and this one
(`Holds.putAll`).
-/
import Mathlib.Algebra.Ring.Nat
import Mathlib.Data.List.Basic
import Mathlib.Tactic.Common

namespace RoundBuffer

variable {α : Type*} {cap M p q len total pos : ℕ} {cells : ℕ → α} {piece piece' : List α}

/-- The cells, and the place behind the last piece. -/
structure Buf (α : Type*) where
  cells : ℕ → α
  pos : ℕ

/-- Where a piece of this length is put. -/
def place (cap pos len : ℕ) : ℕ := if cap ≤ pos + len then 0 else pos

/-- The cells after a piece is written. -/
def write (cells : ℕ → α) (q : ℕ) (piece : List α) (i : ℕ) : α :=
  if q ≤ i then piece[i - q]?.getD (cells i) else cells i

/-- One more piece. -/
def put (cap : ℕ) (b : Buf α) (piece : List α) : Buf α where
  cells := write b.cells (place cap b.pos piece.length) piece
  pos := place cap b.pos piece.length + piece.length

/-- More pieces. -/
def putAll (cap : ℕ) (b : Buf α) (pieces : List (List α)) : Buf α := pieces.foldl (put cap) b

/-- The piece is in the cells, at this place. -/
def Holds (cells : ℕ → α) (p : ℕ) (piece : List α) : Prop :=
  ∀ i < piece.length, some (cells (p + i)) = piece[i]?

lemma place_add_lt (h : len < cap) : place cap pos len + len < cap := by
  unfold place
  split_ifs <;> omega

lemma holds_write (cells : ℕ → α) (q : ℕ) (piece : List α) :
    Holds (write cells q piece) q piece := by
  intro i hi
  rw [write, if_pos (Nat.le_add_right q i), Nat.add_sub_cancel_left, List.getElem?_eq_getElem hi]
  rfl

/-- A piece somewhere else changes nothing. -/
lemma Holds.write (h : Holds cells p piece)
    (hapart : q + piece'.length ≤ p ∨ p + piece.length ≤ q) :
    Holds (write cells q piece') p piece := by
  intro i hi
  rw [← h i hi, RoundBuffer.write]
  split_ifs with hq
  · rw [List.getElem?_eq_none (by omega), Option.getD_none]
  · rfl

/-- Two pieces, one right behind the other, are one piece. -/
lemma write_append (cells : ℕ → α) (q : ℕ) (piece piece' : List α) :
    write (write cells q piece) (q + piece.length) piece' = write cells q (piece ++ piece') := by
  ext i
  unfold write
  by_cases hq : q ≤ i
  · by_cases hlt : i < q + piece.length
    · rw [if_neg (by omega), if_pos hq, if_pos hq, List.getElem?_append_left (by omega)]
    · rw [if_pos (by omega), if_pos hq, if_pos hq, List.getElem?_append_right (by omega),
        List.getElem?_eq_none (by omega : piece.length ≤ i - q), Nat.sub_add_eq]
      rfl
  · rw [if_neg (by omega), if_neg hq, if_neg hq]

/-- How far the writing has come since the piece at `p`, of this length, was written, with pieces of
this length in total behind it: on behind the piece, or round once.  In the second case less than
`M` was lost at the end of the buffer. -/
def Come (cap M p len total pos : ℕ) : Prop :=
  pos = p + len + total ∨ pos + cap ≤ p + len + total + M

/-- The next piece does not reach the one at `p`. -/
lemma Come.next {n : ℕ} (h : Come cap M p len total pos) (hp : p < cap) (hn : n ≤ M)
    (htotal : total + n + M + len ≤ cap) :
    (place cap pos n + n ≤ p ∨ p + len ≤ place cap pos n) ∧
      Come cap M p len (total + n) (place cap pos n + n) := by
  unfold Come place at *
  split_ifs <;> omega

/-- **How long a piece is kept.** -/
theorem Holds.putAll {b : Buf α} {pieces : List (List α)} (h : Holds b.cells p piece)
    (hcome : Come cap M p piece.length total b.pos) (hp : p < cap)
    (hM : ∀ piece ∈ pieces, piece.length ≤ M)
    (htotal : total + (pieces.map List.length).sum + M + piece.length ≤ cap) :
    Holds (putAll cap b pieces).cells p piece := by
  induction pieces generalizing b total with
  | nil => exact h
  | cons piece' pieces ih =>
      rw [List.map_cons, List.sum_cons] at htotal
      obtain ⟨hapart, hnext⟩ := hcome.next hp (hM piece' List.mem_cons_self) (by omega)
      exact ih (b := put cap b piece') (h.write hapart) hnext
        (fun piece hpiece => hM piece (List.mem_cons_of_mem _ hpiece)) (by omega)

end RoundBuffer
