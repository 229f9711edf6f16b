/-
# Byte streams that arrive in pieces

A channel delivers what was sent, in order, but a read hands out as many elements as it likes:
at least one and at most as many as were asked for, when there are any.  How many is not under
anybody's control, so a channel carries the whole sequence of these choices and results hold
for all of them.  A reader that needs a fixed number of elements reads in a loop.
-/
import Mathlib.Data.List.Basic
import Mathlib.Tactic.Common

namespace Channel

/-- A stream from one sender to one receiver. -/
structure Conn (α : Type) where
  /-- What was sent and not yet read. -/
  pending : List α
  /-- How many elements each of the coming reads hands out, as far as the request allows. -/
  pieces : ℕ → ℕ

namespace Conn

variable {α : Type}

def send (c : Conn α) (xs : List α) : Conn α := { c with pending := c.pending ++ xs }

/-- One read of at most `n` elements; it hands out none at the end of the stream only. -/
def recv (c : Conn α) (n : ℕ) : List α × Conn α :=
  let k := min n (max 1 (c.pieces 0))
  (c.pending.take k, ⟨c.pending.drop k, fun i => c.pieces (i + 1)⟩)

/-- How a reading loop ends: what it has read, and whether that is all it wanted. -/
structure Received (α : Type) where
  data : List α
  complete : Bool
  conn : Conn α

/-- Reading until `n` elements have arrived or a read hands out nothing. -/
def recvLoop (c : Conn α) (n : ℕ) : Received α :=
  if n = 0 then ⟨[], true, c⟩
  else
    let r := c.recv n
    if r.1.length = 0 then ⟨[], false, r.2⟩
    else
      let rest := recvLoop r.2 (n - r.1.length)
      ⟨r.1 ++ rest.data, rest.complete, rest.conn⟩
termination_by n
decreasing_by
  have : (c.recv n).1.length ≠ 0 := ‹_›
  omega

/-- However the stream is cut, the loop reads the next `n` elements and nothing more. -/
theorem recvLoop_eq {c : Conn α} {xs ys : List α} (h : c.pending = xs ++ ys) :
    ∃ pieces, c.recvLoop xs.length = ⟨xs, true, ⟨ys, pieces⟩⟩ := by
  -- by induction on how much is still missing: each read takes a non-empty piece of `xs`
  induction hn : xs.length using Nat.strongRecOn generalizing c xs with
  | _ n ih =>
      rw [recvLoop]
      split
      · next h0 =>
          obtain rfl : xs = [] := List.eq_nil_of_length_eq_zero (hn.trans h0)
          exact ⟨c.pieces, by rw [← List.nil_append ys, ← h]⟩
      · next h0 =>
          have hk : min n (max 1 (c.pieces 0)) ≤ xs.length := by omega
          have hpiece : (c.recv n).1 = xs.take (min n (max 1 (c.pieces 0))) := by
            rw [recv, h, List.take_append_of_le_length hk]
          have hrest : (c.recv n).2.pending = xs.drop (min n (max 1 (c.pieces 0))) ++ ys := by
            rw [recv, h, List.drop_append_of_le_length hk]
          have hlen : (c.recv n).1.length = min n (max 1 (c.pieces 0)) := by
            rw [hpiece, List.length_take]
            omega
          have hleft : (xs.drop (min n (max 1 (c.pieces 0)))).length =
              n - (c.recv n).1.length := by
            rw [List.length_drop, hlen, hn]
          obtain ⟨pieces, hloop⟩ := ih _ (by omega) hrest hleft
          refine ⟨pieces, ?_⟩
          simp only [if_neg (show ¬(c.recv n).1.length = 0 by omega), hloop]
          rw [hpiece, List.take_append_drop]

end Conn

end Channel
