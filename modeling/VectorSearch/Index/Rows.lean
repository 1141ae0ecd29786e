import VectorSearch.Index.Shard
import VectorSearch.Lib.Stateful

namespace VectorSearch

/-!
# The stored rows

Insertion appends one row and never touches the others, whether it returns or
raises half way.  Only `_append` writes to the data, so the rows of an index
that is given vectors of one dimension all have that dimension.
-/

open Stateful

variable {F D G : Type}

/-- Every stored row has the given number of columns. -/
def Graph.Width (width : Nat) (index : Graph F G) : Prop :=
  ∀ row ∈ index.data, row.length = width

namespace HNSW

theorem assignRow_self (vector : List F) : assignRow vector.length vector = .ok vector := if_pos rfl

theorem assignRow_length {width : Nat} {vector row : List F}
    (assigned : assignRow width vector = .ok row) : row.length = width := by
  unfold assignRow at assigned
  split at assigned
  · rename_i same
    rw [← Except.ok.inj assigned]
    exact same
  · split at assigned
    · rw [← Except.ok.inj assigned]
      exact List.length_replicate
    · cases assigned

/-- Reading changes nothing; what follows may use the value that was read. -/
theorem reading_bind_maintains {α β : Type} {good : Graph F G → Prop} {result : Except Error α}
    {next : α → EStateM Error (Graph F G) β}
    (rest : ∀ value, result = .ok value → Maintains good (next value)) :
    Maintains good (reading result >>= next) := by
  cases result with
  | error error => exact fun _ holds => holds
  | ok value => exact rest value rfl

theorem newRow_length {width : Nat} {data : List (List F)} {unit row : List F}
    (rows : ∀ row ∈ data, row.length = width) (length : unit.length = width)
    (stored : newRow data unit = .ok row) : row.length = width := by
  cases data with
  | nil =>
      rw [← Except.ok.inj stored]
      exact length
  | cons first rest => rw [assignRow_length stored, rows first List.mem_cons_self]

theorem append_width {width : Nat} {unit : List F} (length : unit.length = width) :
    Maintains (Graph.Width width) (append unit : EStateM Error (Graph F G) Nat) := by
  apply Maintains.get_bind
  intro index rows
  apply reading_bind_maintains
  intro row stored
  have extended : Graph.Width width { index with data := index.data ++ [row] } := by
    intro other member
    rcases List.mem_append.mp member with old | new
    · exact rows other old
    · rw [List.mem_singleton.mp new]
      exact newRow_length rows length stored
  exact Maintains.bind (Maintains.set extended) (fun _ => Maintains.pure _)

theorem append_eq (unit : List F) (index : Graph F G) :
    append unit index =
      match newRow index.data unit with
      | .error error => .error error index
      | .ok row => .ok index.data.length { index with data := index.data ++ [row] } := by
  simp only [append, bind, EStateM.bind, Stateful.get_run]
  cases newRow index.data unit <;> rfl

variable (np : Numpy F D G)

theorem randomLevel_data (good : List (List F) → Prop) :
    Maintains (fun index => good index.data) (randomLevel np) := by
  apply Maintains.get_bind
  intro index rows
  refine Maintains.bind (Maintains.set ?_) ?_
  · exact rows
  · intro _
    split
    · exact Maintains.pure _
    · exact Maintains.throw _

variable [LinearOrder D]

/-! Linking leaves the rows alone, so it keeps whatever holds of them. -/

theorem appendLink_data (good : List (List F) → Prop) (layer node other : Nat) :
    Maintains (fun index => good index.data) (appendLink layer node other : EStateM Error (Graph F G) _) := by
  apply Maintains.get_bind
  intro index rows
  apply reading_bind_maintains
  intro links _
  exact Maintains.bind (Maintains.set rows) (fun _ => Maintains.pure _)

theorem connect_data (good : List (List F) → Prop) (node layer maxConn neighbor : Nat) :
    Maintains (fun index => good index.data) (connect np node layer maxConn neighbor) := by
  apply Maintains.bind (appendLink_data good layer node neighbor)
  intro _
  apply Maintains.bind (appendLink_data good layer neighbor node)
  intro links
  split
  · apply Maintains.get_bind
    intro index rows
    apply reading_bind_maintains
    intro kept _
    exact Maintains.set rows
  · exact Maintains.pure _

theorem insertInLayer_data (good : List (List F) → Prop) (unit : List F) (node entry layer : Nat) :
    Maintains (fun index => good index.data) (insertInLayer np unit node entry layer) := by
  apply Maintains.get_bind
  intro index rows
  apply reading_bind_maintains
  rintro ⟨scored, neighbors⟩ _
  apply Maintains.bind (Maintains.forM fun neighbor => connect_data np good node layer _ neighbor)
  intro _
  split
  · exact Maintains.throw _
  · exact Maintains.pure _

theorem wire_data (good : List (List F) → Prop) (unit : List F) (node level : Nat) :
    Maintains (fun index => good index.data) (wire np unit node level) := by
  apply Maintains.get_bind
  intro index rows
  split
  · exact Maintains.set rows
  · apply reading_bind_maintains
    intro entry _
    apply Maintains.bind (Maintains.foldlM _ fun entry layer =>
      insertInLayer_data np good unit node entry layer)
    intro _
    split
    · exact Maintains.modify fun _ rows => rows
    · exact Maintains.pure _

/-- Inserting a vector of the common dimension keeps the dimension common. -/
theorem insert_width {width : Nat} {vector : List F} (length : vector.length = width) :
    Maintains (Graph.Width width) (insert np vector) := by
  have unitLength : (np.normalize vector).length = width := by
    rw [np.normalize_length, length]
  have registers : Maintains (Graph.Width width) (register np vector) := by
    apply Maintains.bind (append_width unitLength)
    intro node
    apply Maintains.bind (randomLevel_data np fun data => ∀ row ∈ data, row.length = width)
    intro level
    refine Maintains.bind (Maintains.modify ?_) ?_
    · exact fun _ rows => rows
    · exact fun _ => Maintains.pure _
  exact Maintains.bind registers fun registered =>
    wire_data np (fun data => ∀ row ∈ data, row.length = width) _ registered.1 registered.2

end HNSW
end VectorSearch
