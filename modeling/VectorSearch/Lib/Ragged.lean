import Mathlib.Data.List.Basic

namespace VectorSearch

/-!
# Lists of lists as flat arrays

A list of lists of uneven length is stored as one flat list together with the
positions at which each part starts and the last one ends.  Cutting the flat
list at those positions gives the parts back.
-/

namespace Ragged

variable {α : Type}

/-- `values[start:stop]` for positions counted from the front. -/
def slice (values : List α) (start stop : Nat) : List α := (values.take stop).drop start

/-- `cumsum([start] + lengths)`. -/
def cumsum : Nat → List Nat → List Nat
  | total, [] => [total]
  | total, length :: rest => total :: cumsum (total + length) rest

/-- Where each part starts in the flat list, and where the last one ends. -/
def offsets (parts : List (List α)) : List Nat := cumsum 0 (parts.map List.length)

/-- The pieces between consecutive positions. -/
def slices (values : List α) : List Nat → List (List α)
  | start :: stop :: rest => slice values start stop :: slices values (stop :: rest)
  | _ => []

private theorem slices_cumsum (before : List α) (parts : List (List α)) (total : Nat)
    (length : before.length = total) :
    slices (before ++ parts.flatten) (cumsum total (parts.map List.length)) = parts := by
  induction parts generalizing before total with
  | nil => rfl
  | cons part rest inductionHypothesis =>
      have first : slice (before ++ (part :: rest).flatten) total (total + part.length) = part := by
        rw [slice, List.flatten_cons, ← List.append_assoc,
          List.take_left' (by rw [List.length_append, length])]
        exact List.drop_left' length
      have later := inductionHypothesis (before ++ part) (total + part.length)
        (by rw [List.length_append, length])
      rw [List.append_assoc, ← List.flatten_cons] at later
      cases rest with
      | nil => simpa only [List.map_cons, List.map_nil, cumsum, slices] using congrArg (· :: []) first
      | cons next others =>
          simp only [List.map_cons, cumsum, slices] at later ⊢
          rw [first, later]

theorem slices_offsets (parts : List (List α)) :
    slices parts.flatten (offsets parts) = parts :=
  slices_cumsum [] parts 0 rfl

end Ragged
end VectorSearch
