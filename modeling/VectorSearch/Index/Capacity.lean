import VectorSearch.Index.Rows

namespace VectorSearch

/-!
# The matrix behind the rows

`_data` and `_count` of `hnsw.py`: a matrix that is doubled when it is full, of
which the first rows are in use.  What stands in the spare rows is whatever
`np.empty` leaves there.  Storing a vector in it is storing a vector in the list
of the rows in use.
-/

variable {F : Type}

/-- `np.empty((capacity, dim))`: rows of the given width, with any entries. -/
structure Blank (F : Type) where
  rows : Nat → Nat → List (List F)
  rows_length : ∀ capacity width, (rows capacity width).length = capacity
  rows_width : ∀ capacity width, ∀ row ∈ rows capacity width, row.length = width

/-- `_data`, with its number of columns, and `_count`. -/
structure GrowingRows (F : Type) where
  data : Option (Nat × List (List F))
  count : Nat

/-- `_INITIAL_CAPACITY`. -/
def initialCapacity : Nat := 16

namespace GrowingRows

def empty : GrowingRows F := ⟨none, 0⟩

/-- `self._data[:self._count]`. -/
def inUse (matrix : GrowingRows F) : List (List F) :=
  match matrix.data with
  | none => []
  | some (_, rows) => rows.take matrix.count

/-- The matrix with room for one more row. -/
def withRoom (blank : Blank F) (width : Nat) (matrix : GrowingRows F) : Nat × List (List F) :=
  match matrix.data with
  | none => (width, blank.rows initialCapacity width)
  | some (columns, rows) =>
      if matrix.count = rows.length then
        (columns, rows.take matrix.count ++ (blank.rows (2 * rows.length) columns).drop matrix.count)
      else (columns, rows)

/-- `_append`.  The matrix has grown already when the assignment raises. -/
def append (blank : Blank F) (unit : List F) : EStateM Error (GrowingRows F) Nat := do
  let matrix ← get
  let (columns, rows) := matrix.withRoom blank unit.length
  set { matrix with data := some (columns, rows) }
  match HNSW.assignRow columns unit with
  | .error error => throw error
  | .ok row => do
      set (⟨some (columns, rows.set matrix.count row), matrix.count + 1⟩ : GrowingRows F)
      return matrix.count

/-- The matrix holds these rows, and all its rows have the width of the first. -/
structure Holds (matrix : GrowingRows F) (rows : List (List F)) : Prop where
  inUse : matrix.inUse = rows
  counted : matrix.count = rows.length
  allocated : ∀ columns all, matrix.data = some (columns, all) →
    rows.length ≤ all.length ∧ 0 < all.length ∧ ∀ row ∈ rows, row.length = columns
  vacant : rows = [] → matrix.data = none

theorem empty_holds : (empty : GrowingRows F).Holds [] :=
  ⟨rfl, rfl, (fun _ _ impossible => nomatch impossible), fun _ => rfl⟩

variable (blank : Blank F)

/-- Making room keeps the rows in use, and leaves at least one row spare. -/
theorem Holds.withRoom {matrix : GrowingRows F} {rows : List (List F)} (holds : matrix.Holds rows)
    (width : Nat) :
    (matrix.withRoom blank width).2.take rows.length = rows ∧
      rows.length < (matrix.withRoom blank width).2.length ∧
      (rows = [] → (matrix.withRoom blank width).1 = width) ∧
      ∀ row ∈ rows, row.length = (matrix.withRoom blank width).1 := by
  have kept := holds.inUse
  unfold GrowingRows.withRoom
  unfold GrowingRows.inUse at kept
  cases stored : matrix.data with
  | none =>
      rw [stored] at kept
      subst kept
      refine ⟨List.take_zero, ?_, fun _ => rfl, fun _ impossible => absurd impossible List.not_mem_nil⟩
      change 0 < (blank.rows initialCapacity width).length
      rw [blank.rows_length]
      decide
  | some data =>
      rcases data with ⟨columns, all⟩
      rcases holds.allocated columns all stored with ⟨bound, positive, widths⟩
      have nonempty : rows = [] → False := by
        intro nothing
        rw [holds.vacant nothing] at stored
        cases stored
      rw [stored] at kept
      dsimp only at kept ⊢
      rw [holds.counted] at kept ⊢
      split
      · rename_i full
        refine ⟨?_, ?_, fun nothing => absurd nothing nonempty, widths⟩
        · rw [kept, List.take_left]
        · rw [kept, List.length_append, List.length_drop, blank.rows_length]
          omega
      · rename_i spare
        exact ⟨kept, Nat.lt_of_le_of_ne bound spare, fun nothing => absurd nothing nonempty, widths⟩

/-- Storing in the matrix and storing in the list end the same way. -/
theorem Holds.store {G : Type} {matrix : GrowingRows F} {index : Graph F G} (holds : matrix.Holds index.data)
    (unit : List F) :
    match HNSW.append unit index, append blank unit matrix with
    | .ok node after, .ok row next => node = row ∧ next.Holds after.data
    | .error error after, .error failure next => error = failure ∧
        (index.data ≠ [] ∧ next.Holds after.data)
    | _, _ => False := by
  rcases holds.withRoom blank unit.length with ⟨kept, room, first, widths⟩
  have outcome : append blank unit matrix =
      match HNSW.assignRow (matrix.withRoom blank unit.length).1 unit with
      | .error error => .error error { matrix with data := some (matrix.withRoom blank unit.length) }
      | .ok row => .ok matrix.count ⟨some ((matrix.withRoom blank unit.length).1,
          (matrix.withRoom blank unit.length).2.set matrix.count row), matrix.count + 1⟩ := by
    simp only [GrowingRows.append, bind, EStateM.bind, Stateful.get_run, Stateful.set_run]
    cases HNSW.assignRow (matrix.withRoom blank unit.length).1 unit <;> rfl
  have stores : HNSW.newRow index.data unit = HNSW.assignRow (matrix.withRoom blank unit.length).1 unit := by
    cases data : index.data with
    | nil =>
        rw [first data, HNSW.assignRow_self]
        rfl
    | cons row rest =>
        rw [← widths row (by rw [data]; exact List.mem_cons_self)]
        rfl
  rw [outcome, HNSW.append_eq, stores]
  generalize matrix.withRoom blank unit.length = data at kept room first widths
  cases assigned : HNSW.assignRow data.1 unit with
  | error error =>
      have nonempty : index.data ≠ [] := by
        intro nothing
        rw [first nothing, HNSW.assignRow_self] at assigned
        cases assigned
      refine ⟨rfl, nonempty, ?_⟩
      refine ⟨?_, holds.counted, ?_, fun nothing => absurd nothing nonempty⟩
      · change data.2.take matrix.count = index.data
        rw [holds.counted, kept]
      · intro columns all isData
        cases isData
        exact ⟨Nat.le_of_lt room, Nat.lt_of_le_of_lt (Nat.zero_le _) room, widths⟩
  | ok row =>
      refine ⟨holds.counted.symm, ?_⟩
      have more : index.data.length + 1 ≤ data.2.length := room
      refine ⟨?_, ?_, ?_, ?_⟩
      · change (data.2.set matrix.count row).take (matrix.count + 1) = index.data ++ [row]
        rw [holds.counted, List.take_succ_eq_append_getElem (by rw [List.length_set]; exact room),
          List.getElem_set_self, List.take_set_of_le (Nat.le_refl _), kept]
      · rw [List.length_append, List.length_singleton, ← holds.counted]
      · intro columns all isData
        cases isData
        rw [List.length_append, List.length_singleton, List.length_set]
        refine ⟨more, Nat.lt_of_lt_of_le (Nat.succ_pos _) more, ?_⟩
        intro other member
        rcases List.mem_append.mp member with old | new
        · exact widths other old
        · rw [List.mem_singleton.mp new]
          exact HNSW.assignRow_length assigned
      · intro nothing
        exact absurd nothing (List.append_ne_nil_of_right_ne_nil _ (List.cons_ne_nil row []))

end GrowingRows
end VectorSearch
