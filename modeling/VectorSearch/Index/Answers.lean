import VectorSearch.Index.FilteredBeam
import VectorSearch.Index.Insertion

namespace VectorSearch

/-!
# Searches answer

A search of a well-formed index returns if the query has the dimension of the
rows, and refuses the query otherwise.  No lookup inside it fails.
-/

open Stateful

variable {F D G : Type}

namespace HNSW

variable (np : Numpy F D G)

theorem distanceTo_misfit {data : List (List F)} {query : List F} {width node : Nat}
    (rows : ∀ row ∈ data, row.length = width) (length : query.length ≠ width) (inside : node < data.length) :
    distanceTo np data query node = .error .shape := by
  rcases rowAt_gives rows inside with ⟨row, read, rowLength⟩
  have misfit : fits [row] query = false := by
    apply Bool.eq_false_iff.mpr
    intro fit
    have same := of_decide_eq_true (List.all_eq_true.mp fit row List.mem_cons_self)
    exact length (same.symm.trans rowLength)
  unfold distanceTo
  rw [read]
  exact if_neg (Bool.eq_false_iff.mp misfit)

variable [LinearOrder D]

/-- The descent of a search arrives in layer 0. -/
theorem layerZeroEntry_gives {width : Nat} {index : Graph F G} (wellFormed : index.WellFormed width)
    {query : List F} (length : query.length = width) {entryPoint : Nat}
    (isEntry : index.entryPoint = some entryPoint) :
    ∃ start ground, layerZeroEntry np index query entryPoint = .ok start ∧
      index.graph[0]? = some ground ∧ ground.Has start := by
  rcases entry_layers wellFormed isEntry with ⟨top, topLayer, _, _, holds⟩
  have anywhere : ∀ (layer : Nat) (adjacency : Layer), index.graph[layer]? = some adjacency →
      ∀ node other, adjacency.Link node other → True := fun _ _ _ _ _ _ => trivial
  rcases descend_gives np wellFormed.toConsistent length anywhere top 0
    (holds top (Nat.le_refl top)) trivial with ⟨start, run, ⟨ground, found, has⟩, _⟩
  refine ⟨start, ground, ?_, by rwa [Nat.min_zero] at found, has⟩
  unfold layerZeroEntry
  rw [topLayer]
  exact run

/-- A mask that a filtered search can be asked with: one entry per node, and
room for a result. -/
def Askable (index : HNSW F G) (k : Int) (allowed : Option (List Bool)) : Prop :=
  ∀ mask, allowed = some mask → mask.length = index.data.length ∧ (0 < index.efSearch ∨ 0 < k)

theorem searchWithDistances_returns {width : Nat} {index : HNSW F G} (wellFormed : index.WellFormed width)
    {query : List F} (length : query.length = width) {k : Int} {allowed : Option (List Bool)}
    (askable : Askable index k allowed) :
    Gives (searchWithDistances np index query k allowed) fun _ => True := by
  have unitLength : (np.normalize query).length = width := by rw [np.normalize_length, length]
  have consistent := wellFormed.toConsistent
  unfold searchWithDistances
  split
  · exact Gives.pure trivial
  · rename_i entryPoint isEntry
    rcases layerZeroEntry_gives np wellFormed unitLength isEntry with ⟨start, ground, run, found, has⟩
    have sound := consistent.layers 0 ground found
    dsimp only
    rw [run]
    cases allowed with
    | none =>
        apply Gives.bind (searchLayer_gives np consistent.rows sound unitLength found has)
        exact fun _ _ => Gives.pure trivial
    | some mask =>
        rcases askable mask rfl with ⟨size, room⟩
        have positive : 0 < (max (index.efSearch : Int) k).toNat := by omega
        apply Gives.bind (searchLayerFiltered_gives np consistent.rows sound unitLength positive size found has)
        exact fun _ _ => Gives.pure trivial

/-- A query of another dimension fails at the first distance. -/
theorem searchWithDistances_refuses {width : Nat} {index : HNSW F G} (wellFormed : index.WellFormed width)
    {query : List F} (length : query.length ≠ width) (k : Int) (allowed : Option (List Bool))
    {entryPoint : Nat} (isEntry : index.entryPoint = some entryPoint) :
    searchWithDistances np index query k allowed = .error .shape := by
  have unitLength : (np.normalize query).length ≠ width := by rwa [np.normalize_length]
  rcases entry_layers wellFormed isEntry with ⟨top, topLayer, _, inside, _⟩
  have first := distanceTo_misfit np wellFormed.rows unitLength inside
  unfold searchWithDistances
  simp only [isEntry, layerZeroEntry, topLayer]
  cases top with
  | zero =>
      rw [rangeDown_nil (by omega), List.foldlM_nil]
      cases allowed with
      | none =>
          simp only [searchLayerWithDistances, first, bind, Except.bind, pure, Except.pure]
      | some mask =>
          simp only [searchLayerFiltered, first, bind, Except.bind, pure, Except.pure]
  | succ top =>
      rw [rangeDown_cons (by omega), List.foldlM_cons]
      simp only [greedyDescend, first, bind, Except.bind]

/-- The only error of a search is the refusal. -/
theorem searchWithDistances_error {width : Nat} {index : HNSW F G} (wellFormed : index.WellFormed width)
    {query : List F} {k : Int} {allowed : Option (List Bool)} (askable : Askable index k allowed)
    {error : Error} (raised : searchWithDistances np index query k allowed = .error error) :
    error = .shape ∧ query.length ≠ width := by
  by_cases length : query.length = width
  · rcases searchWithDistances_returns np wellFormed length askable with ⟨hits, given, _⟩
    rw [given] at raised
    cases raised
  · refine ⟨?_, length⟩
    cases isEntry : index.entryPoint with
    | none =>
        simp only [searchWithDistances, isEntry] at raised
        cases raised
    | some entryPoint =>
        rw [searchWithDistances_refuses np wellFormed length k allowed isEntry] at raised
        cases raised
        rfl

end HNSW
end VectorSearch
