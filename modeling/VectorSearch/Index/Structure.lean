import VectorSearch.Index.Answers
import VectorSearch.Index.Capacity
import VectorSearch.Index.Degrees
import VectorSearch.Index.Exact

namespace VectorSearch

/-!
# The structure of the index after every insertion

A vector of another dimension than the stored rows is refused before anything
is written, unless it has a single entry: numpy spreads that entry over a row.
As long as no vector is spread, every insertion of a sequence leaves the index
with the same structure, whether it returns or raises.
-/

open Stateful HNSW

variable {F D G : Type}

namespace Graph

/-- The vector can be assigned to a row as it is. -/
def Fits (index : Graph F G) (vector : List F) : Prop :=
  ∀ row ∈ index.data.head?, vector.length = row.length

/-- The vector has one entry, and numpy spreads it over a row of another length. -/
def Spreads (index : Graph F G) (vector : List F) : Prop :=
  vector.length = 1 ∧ ¬ index.Fits vector

theorem WellFormed.rewidth {width : Nat} {index : Graph F G} (wellFormed : index.WellFormed width)
    (vacant : index.data = []) (other : Nat) : index.WellFormed other := by
  have consistent := wellFormed.toConsistent
  constructor
  · refine ⟨?_, consistent.layers, consistent.ground, consistent.nested⟩
    intro row member
    rw [vacant] at member
    cases member
  · exact wellFormed.top
  · exact wellFormed.vacant
  · exact wellFormed.entry

/-- A fitting vector has the width of the rows, or there are none. -/
theorem WellFormed.fitted {width : Nat} {index : Graph F G} (wellFormed : index.WellFormed width)
    {vector : List F} (fits : index.Fits vector) : index.WellFormed vector.length := by
  cases data : index.data with
  | nil => exact wellFormed.rewidth data vector.length
  | cons first rest =>
      have length : vector.length = first.length := fits first (by rw [data]; rfl)
      have isWidth : first.length = width := wellFormed.rows first (by rw [data]; exact List.mem_cons_self)
      rw [length, isWidth]
      exact wellFormed

end Graph

namespace HNSW

/-- A misfit is refused by the assignment, unless it is spread. -/
theorem newRow_misfit {index : Graph F G} {unit : List F} (misfit : ¬ index.Fits unit)
    (long : unit.length ≠ 1) :
    newRow index.data unit = .error .shape := by
  cases data : index.data with
  | nil =>
      exfalso
      apply misfit
      intro row member
      rw [data] at member
      cases member
  | cons first rest =>
      have different : unit.length ≠ first.length := by
        intro same
        apply misfit
        intro row member
        rw [data] at member
        cases member
        exact same
      unfold newRow assignRow
      dsimp only
      rw [if_neg different]
      split
      · rename_i value
        exact absurd rfl long
      · rfl

variable (np : Numpy F D G) [LinearOrder D]

/-- Refusing a vector changes nothing. -/
theorem insert_refuses {index : Graph F G} {vector : List F} (misfit : ¬ index.Fits vector)
    (long : vector.length ≠ 1) : insert np vector index = .error .shape index := by
  have unitMisfit : ¬ index.Fits (np.normalize vector) := by
    unfold Graph.Fits
    rwa [np.normalize_length]
  have refused : append (np.normalize vector) index = .error .shape index := by
    rw [append_eq, newRow_misfit unitMisfit (by rwa [np.normalize_length])]
  have unregistered : register np vector index = .error .shape index := bind_raises refused
  exact bind_raises unregistered

/-! ## Sequences of insertions -/

/-- One insertion after the other, each on the index the last one left. -/
def insertEach (vectors : List (List F)) (index : Graph F G) : Graph F G :=
  vectors.foldl (fun index vector => final (insert np vector) index) index

/-- The vectors whose insertion returned. -/
def inserted : List (List F) → Graph F G → List (List F)
  | [], _ => []
  | vector :: rest, index =>
      match insert np vector index with
      | .ok _ after => vector :: inserted rest after
      | .error _ after => inserted rest after

/-- The matrix after the same insertions. -/
def appendEach (blank : Blank F) (vectors : List (List F)) (matrix : GrowingRows F) : GrowingRows F :=
  vectors.foldl (fun matrix vector => final (GrowingRows.append blank (np.normalize vector)) matrix) matrix

/-- No insertion of the sequence spreads its vector. -/
def NeverSpreads : List (List F) → Graph F G → Prop
  | [], _ => True
  | vector :: rest, index => ¬ index.Spreads vector ∧ NeverSpreads rest (final (insert np vector) index)

/-- The structure of an index that holds the given vectors, with its matrix. -/
structure Structured (vectors : List (List F)) (index : Graph F G) (matrix : GrowingRows F) : Prop where
  rows : index.data = vectors.map np.normalize
  matrix : matrix.inUse = vectors.map np.normalize ∧ matrix.count = vectors.length
  ground : ∀ node, index.Holds 0 node ↔ node < vectors.length
  nested : ∀ layer node, index.Holds (layer + 1) node → index.Holds layer node
  links : ∀ (layer : Nat) (adjacency : Layer), index.graph[layer]? = some adjacency →
    ∀ node links, adjacency.get? node = some links →
      links.Nodup ∧ node ∉ links ∧ (∀ other ∈ links, adjacency.Has other) ∧
        links.length ≤ if layer = 0 then 2 * index.M else index.M
  top : index.topLayer = (index.graph.length : Int) - 1
  entry : ∀ node, index.entryPoint = some node → ∃ top : Nat, index.topLayer = top ∧ index.Holds top node
  vacant : index.entryPoint = none ↔ vectors = []
  /-- A vector that fits is inserted. -/
  inserts : ∀ vector, index.Fits vector → ∃ after, insert np vector index = .ok () after
  /-- Any other is refused, and nothing changes. -/
  refuses : ∀ vector, ¬ index.Fits vector → vector.length ≠ 1 → insert np vector index = .error .shape index
  /-- A search fails only when the query has another dimension than the rows. -/
  searches : ∀ efSearch query k allowed, Askable { index with efSearch } k allowed →
    ∀ error, searchWithDistances np { index with efSearch } query k allowed = .error error →
      error = .shape ∧ ¬ index.Fits query

/-- What the proof carries from insertion to insertion. -/
structure Sequential (M : Nat) (vectors : List (List F)) (index : Graph F G) (matrix : GrowingRows F) :
    Prop where
  wellFormed : ∃ width, index.WellFormed width
  capped : index.Capped
  isM : index.M = M
  rows : index.data = vectors.map np.normalize
  matrix : matrix.Holds index.data
  entered : index.entryPoint = none → vectors = []

omit [LinearOrder D] in
theorem Sequential.start (M efConstruction efSearch : Nat) (selection : NeighborSelection) (rng : G) :
    Sequential np M [] (init M efConstruction efSearch selection rng : HNSW F G).toGraph .empty := by
  refine ⟨⟨0, init_wellFormed 0 M efConstruction efSearch selection rng⟩, ?_, rfl, rfl, GrowingRows.empty_holds,
    fun _ => rfl⟩
  exact fun layer adjacency found => nomatch found

variable {np}

/-- One insertion that does not spread its vector. -/
theorem Sequential.step {M : Nat} {vectors : List (List F)} {index : Graph F G} {matrix : GrowingRows F}
    (sequential : Sequential np M vectors index matrix) (positive : 0 < M)
    (draws : ∀ rng, (np.drawLevel M rng).1 ≠ none) (blank : Blank F) {vector : List F}
    (whole : ¬ index.Spreads vector) :
    match insert np vector index with
    | .ok _ after => Sequential np M (vectors ++ [vector]) after
        (final (GrowingRows.append blank (np.normalize vector)) matrix)
    | .error _ after => Sequential np M vectors after
        (final (GrowingRows.append blank (np.normalize vector)) matrix) := by
  have stores := sequential.matrix.store blank (np.normalize vector)
  rcases sequential.wellFormed with ⟨width, wellFormed⟩
  by_cases fits : index.Fits vector
  · have fitted := wellFormed.fitted fits
    have drawn := draws index.rng
    rw [← sequential.isM] at drawn
    rcases Option.ne_none_iff_exists'.mp drawn with ⟨level, isLevel⟩
    rcases insert_returns np fitted rfl (Prod.ext isLevel rfl) with ⟨_, after, run, formed, graph, entryPoint,
      topLayer, frame⟩
    have capped := insert_capped np fitted rfl (by rw [sequential.isM]; exact positive) sequential.capped run
    have data : after.data = index.data ++ [np.normalize vector] := by rw [frame]
    have unitLength : (np.normalize vector).length = vector.length := np.normalize_length vector
    rw [append_eq, newRow_ok fitted.rows unitLength] at stores
    rw [run]
    refine ⟨⟨vector.length, formed⟩, capped, by rw [frame]; exact sequential.isM, ?_, ?_, ?_⟩
    · rw [data, sequential.rows, List.map_append]
      rfl
    · rw [data]
      unfold final
      cases stored : GrowingRows.append blank (np.normalize vector) matrix with
      | ok row next =>
          rw [stored] at stores
          exact stores.2
      | error error next =>
          rw [stored] at stores
          exact stores.elim
    · intro none
      have nothing := (formed.vacant none).1
      rw [data] at nothing
      exact absurd nothing (List.append_ne_nil_of_right_ne_nil _ (List.cons_ne_nil _ []))
  · have long : vector.length ≠ 1 := fun one => whole ⟨one, fits⟩
    rw [insert_refuses np fits long]
    refine ⟨⟨width, wellFormed⟩, sequential.capped, sequential.isM, sequential.rows, ?_, sequential.entered⟩
    have unitMisfit : ¬ index.Fits (np.normalize vector) := by
      unfold Graph.Fits
      rwa [np.normalize_length]
    rw [append_eq, newRow_misfit unitMisfit (by rwa [np.normalize_length])] at stores
    unfold final
    cases stored : GrowingRows.append blank (np.normalize vector) matrix with
    | ok row next =>
        rw [stored] at stores
        exact stores.elim
    | error error next =>
        rw [stored] at stores
        exact stores.2.2

theorem Sequential.run {M : Nat} (positive : 0 < M) (draws : ∀ rng, (np.drawLevel M rng).1 ≠ none)
    (blank : Blank F) (more : List (List F)) {vectors : List (List F)} {index : Graph F G}
    {matrix : GrowingRows F} (sequential : Sequential np M vectors index matrix)
    (whole : NeverSpreads np more index) :
    Sequential np M (vectors ++ inserted np more index) (insertEach np more index)
      (appendEach np blank more matrix) := by
  induction more generalizing vectors index matrix with
  | nil =>
      rw [inserted, List.append_nil]
      exact sequential
  | cons vector rest inductionHypothesis =>
      rcases whole with ⟨here, later⟩
      have step := sequential.step positive draws blank here
      unfold inserted insertEach appendEach
      rw [List.foldl_cons, List.foldl_cons]
      cases run : insert np vector index with
      | ok value after =>
          have isFinal : final (insert np vector) index = after := by
            unfold final
            rw [run]
          rw [run] at step
          rw [isFinal] at later ⊢
          have rests := inductionHypothesis step later
          rw [List.append_assoc] at rests
          exact rests
      | error error after =>
          have isFinal : final (insert np vector) index = after := by
            unfold final
            rw [run]
          rw [run] at step
          rw [isFinal] at later ⊢
          exact inductionHypothesis step later

theorem Sequential.structured {M : Nat} {vectors : List (List F)} {index : Graph F G} {matrix : GrowingRows F}
    (sequential : Sequential np M vectors index matrix) (draws : ∀ rng, (np.drawLevel M rng).1 ≠ none) :
    Structured np vectors index matrix := by
  rcases sequential.wellFormed with ⟨width, wellFormed⟩
  have consistent := wellFormed.toConsistent
  have count : index.data.length = vectors.length := by rw [sequential.rows, List.length_map]
  constructor
  · exact sequential.rows
  · refine ⟨sequential.matrix.inUse.trans sequential.rows, ?_⟩
    rw [sequential.matrix.counted, count]
  · intro node
    rw [← count]
    exact ⟨consistent.inside, consistent.ground node⟩
  · exact consistent.nested
  · intro layer adjacency found node links linked
    have sound := consistent.layers layer adjacency found
    refine ⟨sound.distinct node links linked, sound.loopless node links linked,
      sound.closed node links linked, ?_⟩
    have few := sequential.capped layer adjacency found node links linked
    rw [Nat.mul_comm]
    exact few
  · have top := wellFormed.top
    omega
  · intro node isEntry
    rcases entry_layers wellFormed isEntry with ⟨top, isTop, _, _, holds⟩
    exact ⟨top, isTop, holds top (Nat.le_refl top)⟩
  · refine ⟨sequential.entered, fun nothing => ?_⟩
    cases isEntry : index.entryPoint with
    | none => rfl
    | some node =>
        rcases entry_layers wellFormed isEntry with ⟨_, _, _, inside, _⟩
        rw [count, nothing] at inside
        exact absurd inside (Nat.not_lt_zero _)
  · intro vector fits
    have drawn := draws index.rng
    rw [← sequential.isM] at drawn
    rcases Option.ne_none_iff_exists'.mp drawn with ⟨level, isLevel⟩
    rcases insert_returns np (wellFormed.fitted fits) rfl (Prod.ext isLevel rfl) with ⟨_, after, run, _⟩
    exact ⟨after, run⟩
  · exact fun vector misfit long => insert_refuses np misfit long
  · intro efSearch query k allowed askable error raised
    by_cases fits : index.Fits query
    · have fitted : Graph.WellFormed query.length { index with efSearch : HNSW F G }.toGraph :=
        wellFormed.fitted fits
      exact absurd rfl (searchWithDistances_error np fitted askable raised).2
    · have formed : Graph.WellFormed width { index with efSearch : HNSW F G }.toGraph := wellFormed
      exact ⟨(searchWithDistances_error np formed askable raised).1, fits⟩

/-- While no vector is spread, every index of a run has the structure. -/
theorem structured_after_inserts {M : Nat} (atLeastTwo : 2 ≤ M) (efConstruction efSearch : Nat)
    (selection : NeighborSelection) (rng : G) (draws : ∀ rng, (np.drawLevel M rng).1 ≠ none) (blank : Blank F)
    (vectors : List (List F))
    (whole : NeverSpreads np vectors (init M efConstruction efSearch selection rng).toGraph) :
    Structured np (inserted np vectors (init M efConstruction efSearch selection rng).toGraph)
      (insertEach np vectors (init M efConstruction efSearch selection rng).toGraph)
      (appendEach np blank vectors .empty) := by
  have start := Sequential.start np M efConstruction efSearch selection rng
  exact (start.run (Nat.lt_of_lt_of_le Nat.two_pos atLeastTwo) draws blank vectors whole).structured draws

/-- Only a vector of one entry can be spread. -/
theorem neverSpreads_of_long {vectors : List (List F)} (long : ∀ vector ∈ vectors, vector.length ≠ 1)
    (index : Graph F G) : NeverSpreads np vectors index := by
  induction vectors generalizing index with
  | nil => trivial
  | cons vector rest inductionHypothesis =>
      refine ⟨fun spreads => long vector List.mem_cons_self spreads.1, ?_⟩
      exact inductionHypothesis (fun other member => long other (List.mem_cons_of_mem _ member)) _

/-! ## A vector of one entry -/

/-- Exact arithmetic, with the levels 0, 1, 2 and so on. -/
def climbing : Numpy Int Int Nat :=
  Numpy.exact id (fun _ => rfl) Numpy.axisDistance (fun _ level => (some level, level + 1)) (fun seed => seed)

def zeros : Blank Int where
  rows := fun capacity width => List.replicate capacity (List.replicate width 0)
  rows_length := fun _ _ => List.length_replicate
  rows_width := by
    intro capacity width row member
    rw [(List.mem_replicate.mp member).2]
    exact List.length_replicate

theorem structured_after_inserts_axes :
    Structured climbing (inserted climbing [[1, 0], [0, 1], [1, 0, 0]] (init 2 100 50 .heuristic 0).toGraph)
      (insertEach climbing [[1, 0], [0, 1], [1, 0, 0]] (init 2 100 50 .heuristic 0).toGraph)
      (appendEach climbing zeros [[1, 0], [0, 1], [1, 0, 0]] .empty) :=
  structured_after_inserts (by decide) 100 50 .heuristic 0 (fun _ => Option.some_ne_none _) zeros _
    (neverSpreads_of_long (by decide) _)

/-- A second vector of one entry is spread over a row and registered in layer 1;
the insertion raises before the top layer is raised too. -/
theorem spread_vector_breaks_structure :
    ¬ Structured climbing (inserted climbing [[1, 0], [1]] (init 2 100 50 .heuristic 0).toGraph)
      (insertEach climbing [[1, 0], [1]] (init 2 100 50 .heuristic 0).toGraph)
      (appendEach climbing zeros [[1, 0], [1]] .empty) := by
  intro structured
  have top := structured.top
  have rows := structured.rows
  revert top rows
  decide +kernel

end HNSW
end VectorSearch
