/-
# String streams

A `std::stringstream` as a queue: characters are written at the put position, and the content is
read and replaced with `str`.  Replacing the content sets the put position to the beginning, so
what is written after it overwrites what was there.  A write appends exactly if nothing is
overwritten, that is, if the content grows by all that is written (`write_of_length_eq`).
-/
import Mathlib.Data.List.Basic

/-- A string stream for input and output. -/
structure Stringstream (α : Type) where
  content : List α
  put : ℕ
  put_le : put ≤ content.length

namespace Stringstream

variable {α : Type} {s : Stringstream α} {data : List α}

/-- `str(content)`. -/
def str (content : List α) : Stringstream α := ⟨content, 0, Nat.zero_le _⟩

/-- `s << data`. -/
def write (s : Stringstream α) (data : List α) : Stringstream α where
  content := s.content.take s.put ++ data ++ s.content.drop (s.put + data.length)
  put := s.put + data.length
  put_le := by
    rw [List.length_append, List.length_append, List.length_take_of_le s.put_le]
    exact Nat.le_add_right _ _

lemma content_write (s : Stringstream α) (data : List α) :
    (s.write data).content =
      s.content.take s.put ++ data ++ s.content.drop (s.put + data.length) := rfl

lemma length_write (s : Stringstream α) (data : List α) :
    (s.write data).content.length = max s.content.length (s.put + data.length) := by
  rw [content_write, List.length_append, List.length_append, List.length_take_of_le s.put_le,
    List.length_drop]
  omega

lemma length_write_le (s : Stringstream α) (data : List α) :
    (s.write data).content.length ≤ s.content.length + data.length := by
  have hput := s.put_le
  rw [length_write]
  omega

/-- At the end of the content a write appends. -/
lemma write_of_put_eq (h : s.put = s.content.length) (data : List α) :
    (s.write data).content = s.content ++ data ∧
      (s.write data).put = (s.write data).content.length := by
  have hcontent : (s.write data).content = s.content ++ data := by
    rw [content_write, h, List.take_length, List.drop_of_length_le (Nat.le_add_right _ _),
      List.append_nil]
  refine ⟨hcontent, ?_⟩
  rw [hcontent, List.length_append, ← h]
  rfl

/-- A write that overwrites nothing appends. -/
lemma write_of_length_eq
    (h : (s.write data).content.length = s.content.length + data.length) :
    (s.write data).content = s.content ++ data := by
  have hput := s.put_le
  rw [length_write] at h
  rcases Nat.eq_zero_or_pos data.length with hdata | hdata
  · rw [content_write, List.length_eq_zero_iff.mp hdata, List.append_nil, List.length_nil,
      Nat.add_zero, List.take_append_drop, List.append_nil]
  · exact (write_of_put_eq (by omega) data).1

lemma mem_write {x : α} (h : x ∈ (s.write data).content) : x ∈ s.content ∨ x ∈ data := by
  rw [content_write, List.mem_append, List.mem_append] at h
  rcases h with (h | h) | h
  · exact .inl (List.mem_of_mem_take h)
  · exact .inr h
  · exact .inl (List.mem_of_mem_drop h)

end Stringstream
