import Mathlib.Data.List.Basic

namespace VectorSearch

/-!
# Cutting a list into chunks

The loop `for start in range(0, length, size)` over the pieces
`values[start:start + size]`.  Put together again the pieces are the list, also
when the loop runs on behind its end.
-/

namespace Chunks

variable {α β : Type}

/-- How many rounds the loop makes. -/
def count (length size : Nat) : Nat := (length + size - 1) / size

/-- `range(0, length, size)`. -/
def starts (length size : Nat) : List Nat := (List.range (count length size)).map (· * size)

/-- `values[start:start + size]`. -/
def chunk (values : List α) (size start : Nat) : List α := (values.drop start).take size

/-- The pieces in order. -/
def chunks (values : List α) (size : Nat) : List (List α) :=
  (starts values.length size).map (chunk values size)

/-- The loop reaches the end of the list. -/
theorem length_le_count (length : Nat) {size : Nat} (positive : 0 < size) :
    length ≤ count length size * size := by
  have split := Nat.div_add_mod (length + size - 1) size
  have rest := Nat.mod_lt (length + size - 1) positive
  rw [Nat.mul_comm] at split
  unfold count
  omega

/-- The first pieces put together are the front of the list. -/
theorem flatten_chunk (values : List α) (size rounds : Nat) :
    (((List.range rounds).map (· * size)).map (chunk values size)).flatten =
      values.take (rounds * size) := by
  induction rounds with
  | zero => rw [Nat.zero_mul, List.take_zero]; rfl
  | succ rounds inductionHypothesis =>
      rw [List.range_succ, List.map_append, List.map_append, List.flatten_append, inductionHypothesis,
        Nat.succ_mul, List.take_add]
      simp only [chunk, List.map_cons, List.map_nil, List.flatten_cons, List.flatten_nil, List.append_nil]

/-- A loop that reaches the end of the list passes all of it on. -/
theorem flatten_starts (values : List α) {length size : Nat} (positive : 0 < size)
    (reaches : values.length ≤ length) :
    ((starts length size).map (chunk values size)).flatten = values := by
  rw [starts, flatten_chunk]
  exact List.take_of_length_le (Nat.le_trans reaches (length_le_count length positive))

theorem flatten_chunks (values : List α) {size : Nat} (positive : 0 < size) :
    (chunks values size).flatten = values :=
  flatten_starts values positive (Nat.le_refl _)

end Chunks
end VectorSearch
