import VectorSearch.Index.Hnsw

namespace VectorSearch

/-!
# Exact arithmetic

The numpy operations when no product is rounded: a matrix product is the table
of the single products, so every operation is given by one distance function.
Selecting the smallest entries sorts their positions.
-/

namespace Numpy

variable {F D G : Type} [LinearOrder D]

/-- The positions of an array in the order of its entries. -/
def sortedPositions (dists : List D) : List Nat :=
  ((dists.zipIdx).insertionSort fun left right => left.1 ≤ right.1).map Prod.snd

/-- The operations for one distance function.  A partition at a position the
array does not have raises. -/
def exact (normalize : List F → List F)
    (normalize_length : ∀ vector, (normalize vector).length = vector.length)
    (distance : List F → List F → D) (drawLevel : Nat → G → Option Nat × G)
    (defaultRng : Nat → G) : Numpy F D G where
  normalize
  normalize_length
  normalizeRows := fun rows => rows.map normalize
  product := distance
  products := fun rows query => rows.map fun row => distance row query
  products_length := fun _ _ => List.length_map _
  table := fun rows => rows.map fun row => rows.map (distance row)
  table_length := fun _ => List.length_map _
  table_row := by
    intro rows row member
    rcases List.mem_map.mp member with ⟨_, _, equal⟩
    rw [← equal]
    exact List.length_map _
  drawLevel
  defaultRng
  argpartition := fun dists k =>
    if -(dists.length : Int) ≤ k ∧ k < dists.length then .ok (sortedPositions dists)
    else .error .shape

/-- The operations for vectors that already have unit length, with every node
on layer 0 only. -/
def flat (distance : List F → List F → D) : Numpy F D Unit :=
  exact id (fun _ => rfl) distance (fun _ generator => (some 0, generator)) (fun _ => ())

/-- The cosine distance of unit vectors along the axes. -/
def axisDistance [DecidableEq F] (left right : List F) : Int := if left = right then 0 else 1

end Numpy
end VectorSearch
