import VectorSearch.Index.BeamCounts
import VectorSearch.Index.Structure

namespace VectorSearch

/-!
# The full local top k

An unfiltered search walks layer 0 with a beam of `ef_search`, whatever `k` is.
A filtered one widens the beam to `k`.  So both agree, and return as many nodes
as there are, exactly if the beam does not have to be widened or there are no
more nodes than it holds.
-/

open Stateful

variable {F D G : Type} [LinearOrder D]

namespace HNSW

/-! ## Indexes built by inserts -/

section Built

variable (np : Numpy F D G)

/-- The first distance of an insertion fails on rows of another length. -/
theorem insertInLayer_misfit {index after : Graph F G} {unit : List F} {width node entry layer next : Nat}
    (rows : ∀ row ∈ index.data, row.length = width) (misfit : unit.length ≠ width)
    (inside : entry < index.data.length) : insertInLayer np unit node entry layer index ≠ .ok next after := by
  intro run
  change (reading (findNeighbors np index unit entry layer) >>= _) index = _ at run
  rcases bind_ok run with ⟨found, reached, first, _⟩
  have fails : findNeighbors np index unit entry layer = .error .shape := by
    unfold findNeighbors searchLayerWithDistances
    rw [distanceTo_misfit np rows misfit inside]
    rfl
  rw [fails] at first
  cases first

theorem wire_misfit {index after : Graph F G} {unit : List F} {width node level entry : Nat}
    (rows : ∀ row ∈ index.data, row.length = width) (misfit : unit.length ≠ width)
    (inside : entry < index.data.length) (isEntry : index.entryPoint = some entry) (top : 0 ≤ index.topLayer) :
    wire np unit node level index ≠ .ok () after := by
  intro run
  unfold wire at run
  rcases bind_ok run with ⟨_, _, got, run⟩
  cases got
  simp only [isEntry] at run
  rcases bind_ok run with ⟨start, reached, descent, later⟩
  cases descends : (rangeDown index.topLayer level).foldlM (greedyDescend np index.data index.graph unit)
    entry with
  | error error =>
      rw [descends] at descent
      cases descent
  | ok found =>
      rw [descends] at descent
      cases descent
      -- without a layer to descend, the first layer to link in fails
      by_cases above : (level : Int) < index.topLayer
      · rw [rangeDown_cons above, List.foldlM_cons] at descends
        rcases gave_bind descends with ⟨_, first, _⟩
        simp only [greedyDescend, distanceTo_misfit np rows misfit inside, bind, Except.bind] at first
        cases first
      · rw [rangeDown_nil (Int.not_lt.mp above), List.foldlM_nil] at descends
        cases descends
        rcases bind_ok later with ⟨last, linked, rounds, _⟩
        rw [rangeDown_cons (by omega), List.foldlM_cons] at rounds
        rcases bind_ok rounds with ⟨_, _, first, _⟩
        exact insertInLayer_misfit np rows misfit inside first

omit [LinearOrder D] in
theorem register_frame {index start : Graph F G} {vector : List F} {registered : Nat × Nat}
    (run : register np vector index = .ok registered start) :
    ∃ row, newRow index.data (np.normalize vector) = .ok row ∧ start.data = index.data ++ [row] ∧
      start.entryPoint = index.entryPoint ∧ start.topLayer = index.topLayer := by
  rcases bind_ok run with ⟨node, appended, appends, rest⟩
  rcases bind_ok rest with ⟨level, drawn, draws, last⟩
  cases last
  rw [append_eq] at appends
  cases stored : newRow index.data (np.normalize vector) with
  | error error =>
      rw [stored] at appends
      cases appends
  | ok row =>
      rw [stored] at appends
      cases appends
      simp only [randomLevel, bind, EStateM.bind, get_run, set_run] at draws
      cases drew : (np.drawLevel index.M index.rng).1 with
      | none =>
          rw [drew] at draws
          cases draws
      | some drawnLevel =>
          rw [drew] at draws
          cases draws
          exact ⟨row, rfl, rfl, rfl, rfl⟩

/-- An insertion that returned was of a vector with the dimension of the rows. -/
theorem insert_ok_fits {width : Nat} {index after : Graph F G} (wellFormed : index.WellFormed width)
    {vector : List F} (run : insert np vector index = .ok () after) : index.Fits vector := by
  by_contra misfit
  rcases bind_ok run with ⟨⟨node, level⟩, start, registers, wires⟩
  rcases register_frame np registers with ⟨row, stored, data, entryPoint, topLayer⟩
  cases isEntry : index.entryPoint with
  | none =>
      apply misfit
      intro first isFirst
      rw [(wellFormed.vacant isEntry).1] at isFirst
      cases isFirst
  | some entry =>
      rcases entry_layers wellFormed isEntry with ⟨top, isTop, _, inside, _⟩
      have other : (np.normalize vector).length ≠ width := by
        rw [np.normalize_length]
        intro same
        apply misfit
        intro first isFirst
        rw [same, wellFormed.rows first (List.mem_of_mem_head? isFirst)]
      have rows : ∀ row ∈ start.data, row.length = width := by
        rw [data]
        intro old member
        rcases List.mem_append.mp member with old | new
        · exact wellFormed.rows _ old
        · rw [List.mem_singleton.mp new]
          cases first : index.data with
          | nil =>
              rw [first] at inside
              exact absurd inside (Nat.not_lt_zero _)
          | cons head rest =>
              rw [first] at stored
              rw [assignRow_length stored]
              exact wellFormed.rows head (by rw [first]; exact List.mem_cons_self)
      have stillInside : entry < start.data.length := by
        rw [data, List.length_append]
        omega
      exact wire_misfit np rows other stillInside (entryPoint.trans isEntry)
        (by rw [topLayer, isTop]; omega) wires

/-- What a whole build leaves, whatever vectors it was given. -/
theorem build_ok (vectors : List (List F)) {width : Nat} {index after : Graph F G}
    (wellFormed : index.WellFormed width) (run : build np vectors index = .ok () after) :
    (∃ width, after.WellFormed width) ∧ after.data = index.data ++ vectors.map np.normalize := by
  induction vectors generalizing index width with
  | nil =>
      cases run
      exact ⟨⟨width, wellFormed⟩, (List.append_nil _).symm⟩
  | cons vector rest inductionHypothesis =>
      rcases bind_ok run with ⟨_, middle, inserts, later⟩
      have fitted := wellFormed.fitted (insert_ok_fits np wellFormed inserts)
      rcases insert_inserted np fitted rfl inserts with
        ⟨level, rng, _, middleFormed, graph, entryPoint, top, frame⟩
      rcases inductionHypothesis middleFormed later with ⟨formed, data⟩
      refine ⟨formed, ?_⟩
      rw [data, frame, List.map_cons, List.append_assoc, List.singleton_append]

end Built

/-! ## Beams that hold everything -/

section Width

theorem consider_width {first second : Nat} {beam : Beam D} (room : beam.results.length < first)
    (space : beam.results.length < second) (d : D) (neighbor : Nat) :
    consider first true beam d neighbor = consider second true beam d neighbor := by
  have pushed : ∀ ef, beam.results.length < ef →
      pushResult ef beam.results (d, neighbor) = .ok (Heapq.heappush farther beam.results (d, neighbor)) := by
    intro ef enough
    have perm := Heapq.heappush_perm farther beam.results (d, neighbor)
    unfold pushResult
    rw [if_neg]
    rw [perm.length_eq, List.length_cons]
    omega
  unfold consider admits
  rw [if_pos room, if_pos space, pushed first room, pushed second space]

theorem considerAll_width {first second : Nat} (found : List (Nat × D)) {beam : Beam D}
    (room : found.length + beam.results.length ≤ first) (space : found.length + beam.results.length ≤ second)
    (ordered : Heapq.Ordered farther beam.results) :
    considerAll first (fun _ => .ok true) found beam = considerAll second (fun _ => .ok true) found beam := by
  induction found generalizing beam with
  | nil => rfl
  | cons head rest inductionHypothesis =>
      rcases head with ⟨neighbor, d⟩
      rw [List.length_cons] at room space
      have roomy : beam.results.length < first := by omega
      rcases consider_takes roomy ordered d neighbor with ⟨middle, one, takes⟩
      have count := takes.results.length_eq
      rw [List.length_append] at count
      change middle.results.length = 1 + beam.results.length at count
      have roomLeft : rest.length + middle.results.length ≤ first := by omega
      have spaceLeft : rest.length + middle.results.length ≤ second := by omega
      have later := inductionHypothesis roomLeft spaceLeft takes.ordered
      have other := (consider_width roomy (by omega : beam.results.length < second) d neighbor).symm.trans one
      change (consider first true beam d neighbor >>= _) = (consider second true beam d neighbor >>= _)
      rw [one, other]
      exact later

omit [LinearOrder D] in
/-- What has been visited is among what can be reached. -/
theorem Beam.Within.opened_le {count entry : Nat} {adjacency : Layer} {beam : Beam D} {node : Nat}
    {links : List Nat} (within : beam.Within adjacency entry) (sound : adjacency.Sound count)
    (has : adjacency.Has entry) (expands : node ∈ beam.visited) (linked : adjacency.get? node = some links) :
    (fresh beam links).length + beam.results.length ≤ (reachable adjacency entry fun _ => True).ncard := by
  have distinct : (beam.visited ++ fresh beam links).Nodup :=
    fresh_nodup within.distinct (sound.distinct node links linked)
  have reached : ∀ other ∈ beam.visited ++ fresh beam links, other ∈ reachable adjacency entry fun _ =>
    True := by
    intro other member
    rcases List.mem_append.mp member with old | new
    · exact ⟨within.reached other old, trivial⟩
    · exact ⟨(within.reached node expands).tail ⟨links, linked, (mem_fresh.mp new).1⟩, trivial⟩
  have size : (((beam.visited ++ fresh beam links).toFinset : Finset Nat) : Set Nat).ncard =
      (beam.visited ++ fresh beam links).length := by
    rw [Set.ncard_coe_finset, List.toFinset_card_of_nodup distinct]
  have fewer := Set.ncard_le_ncard
    (fun other member => reached other (List.mem_toFinset.mp (Finset.mem_coe.mp member)))
    (reachable_finite sound has fun _ => True)
  rw [size, List.length_append] at fewer
  have kept := within.kept.length_le
  rw [List.length_map] at kept
  omega

variable (np : Numpy F D G) {data : List (List F)} {adjacency : Layer} {query : List F}

/-- Two beams that hold everything that can be reached make the same steps. -/
theorem beamLoop_width (sound : adjacency.Sound data.length) {entry first second : Nat}
    (has : adjacency.Has entry) (room : (reachable adjacency entry fun _ => True).ncard ≤ first)
    (space : (reachable adjacency entry fun _ => True).ncard ≤ second) (fuel : Nat) {beam : Beam D}
    (within : beam.Within adjacency entry) (ordered : Heapq.Ordered farther beam.results) :
    beamLoop np data adjacency query first (fun _ => true) (fun _ => .ok true) fuel beam =
      beamLoop np data adjacency query second (fun _ => true) (fun _ => .ok true) fuel beam := by
  induction fuel generalizing beam with
  | zero => rfl
  | succ fuel inductionHypothesis =>
      unfold beamLoop
      cases popped : Heapq.heappop closer beam.candidates with
      | none => rfl
      | some pair =>
          rcases pair with ⟨⟨distC, c⟩, rest⟩
          have perm := Heapq.heappop_perm popped
          have expands : c ∈ beam.visited := within.waiting (distC, c) (perm.symm.subset List.mem_cons_self)
          dsimp only
          cases exhausted (fun _ => true) beam distC with
          | error error =>
              change Except.error error = Except.error error
              rfl
          | ok far =>
              cases far with
              | true =>
                  change Except.ok _ = Except.ok _
                  rfl
              | false =>
                  change (neighborsOf adjacency c >>= _) = (neighborsOf adjacency c >>= _)
                  cases looked : neighborsOf adjacency c with
                  | error error =>
                      change Except.error error = Except.error error
                      rfl
                  | ok links =>
                      have linked := neighborsOf_ok looked
                      have few := within.opened_le sound has expands linked
                      have distinct := sound.distinct c links linked
                      change (if fresh beam links = [] then _ else _) = (if fresh beam links = [] then _ else _)
                      by_cases nothing : fresh beam links = []
                      · rw [if_pos nothing, if_pos nothing]
                        have unchanged : beam.Round adjacency first (distC, c) rest links []
                            { beam with candidates := rest } := by
                          refine ⟨popped, linked, nothing.symm, ?_⟩
                          simp only [Beam.opened, List.map_nil, List.append_nil]
                          rfl
                        exact inductionHypothesis (unchanged.next_within within distinct) ordered
                      · rw [if_neg nothing, if_neg nothing]
                        change (distancesTo np data query (fresh beam links) >>= _) =
                          (distancesTo np data query (fresh beam links) >>= _)
                        cases given : distancesTo np data query (fresh beam links) with
                        | error error =>
                            change Except.error error = Except.error error
                            rfl
                        | ok dists =>
                            have count := distancesTo_length np given
                            have ids : ((fresh beam links).zip dists).map Prod.fst = fresh beam links :=
                              List.map_fst_zip (Nat.le_of_eq count.symm)
                            have size : ((fresh beam links).zip dists).length = (fresh beam links).length := by
                              rw [← List.length_map Prod.fst, ids]
                            have opens : beam.opened rest ((fresh beam links).zip dists) =
                                ⟨beam.visited ++ fresh beam links, rest, beam.results⟩ := by
                              rw [Beam.opened, ids]
                            have enough : ((fresh beam links).zip dists).length +
                                (beam.opened rest ((fresh beam links).zip dists)).results.length ≤ first := by
                              rw [size]
                              exact Nat.le_trans few room
                            have plenty : ((fresh beam links).zip dists).length +
                                (beam.opened rest ((fresh beam links).zip dists)).results.length ≤ second := by
                              rw [size]
                              exact Nat.le_trans few space
                            have order : Heapq.Ordered farther
                                (beam.opened rest ((fresh beam links).zip dists)).results := ordered
                            have same := considerAll_width _ enough plenty order
                            rcases considerAll_takes _ enough order with ⟨next, considered, takes⟩
                            have round : beam.Round adjacency first (distC, c) rest links _ next :=
                              ⟨popped, linked, ids, considered⟩
                            rw [opens] at same considered
                            change (considerAll first (fun _ => .ok true) ((fresh beam links).zip dists)
                                ⟨beam.visited ++ fresh beam links, rest, beam.results⟩ >>= _) =
                              (considerAll second (fun _ => .ok true) ((fresh beam links).zip dists)
                                ⟨beam.visited ++ fresh beam links, rest, beam.results⟩ >>= _)
                            rw [← same, considered]
                            exact inductionHypothesis (round.next_within within distinct) takes.ordered

/-- The beam widths do not matter when both hold everything that can be reached. -/
theorem searchLayer_width {width : Nat} (rows : ∀ row ∈ data, row.length = width)
    (length : query.length = width) (sound : adjacency.Sound data.length) {graph : List Layer}
    {entry layer first second : Nat} (found : graph[layer]? = some adjacency) (has : adjacency.Has entry)
    (room : (reachable adjacency entry fun _ => True).ncard ≤ first)
    (space : (reachable adjacency entry fun _ => True).ncard ≤ second) :
    searchLayerWithDistances np data graph query entry layer first =
      searchLayerWithDistances np data graph query entry layer second := by
  rcases distanceTo_gives np rows length (sound.inside entry has) with ⟨dEntry, begins, _⟩
  have same : beamLoop np data adjacency query first (fun _ => true) (fun _ => .ok true)
    (linkCount adjacency + 2)
      (startBeam entry dEntry) = _ :=
    beamLoop_width np sound has room space _ (startBeam_within adjacency entry dEntry)
      (startBeam_complete adjacency entry dEntry).ordered
  unfold searchLayerWithDistances
  rw [begins, layerAt_eq found]
  change (beamLoop np data adjacency query first _ _ _ (startBeam entry dEntry) >>= _) =
    (beamLoop np data adjacency query second _ _ _ (startBeam entry dEntry) >>= _)
  rw [same]

end Width

/-! ## Whole searches -/

/-- A filter that allows everything changes nothing, and the search returns `k`
of the given number of nodes, or all of them. -/
def FilterChangesNothing (np : Numpy F D G) (index : HNSW F G) (query : List F) (k : Int) (count : Nat) :
    Prop :=
  searchWithDistances np index query k none =
      searchWithDistances np index query k (some (List.replicate index.data.length true)) ∧
    ∃ hits, searchWithDistances np index query k none = .ok hits ∧ hits.length = min k.toNat count

section Whole

variable (np : Numpy F D G)

theorem slice_length {hits : List (D × Nat)} {k : Int} (positive : 0 ≤ k) :
    (sliceTo (sortedPairs hits) k).length = min k.toNat hits.length := by
  unfold sliceTo
  rw [if_pos positive, List.length_take]
  unfold sortedPairs
  rw [List.length_insertionSort]

/-- What a search of a well-formed index computes, from the node where the
descent arrives. -/
theorem searchWithDistances_start {width : Nat} {index : HNSW F G} (wellFormed : index.WellFormed width)
    {query : List F} (length : query.length = width) {entryPoint : Nat}
    (isEntry : index.entryPoint = some entryPoint) (searchable : 0 < index.efSearch) :
    ∃ start ground, layerZeroEntry np index.toGraph (np.normalize query) entryPoint = .ok start ∧
      index.graph[0]? = some ground ∧ ground.Has start ∧ ∀ k,
      searchWithDistances np index query k none =
        (searchLayerWithDistances np index.data index.graph (np.normalize query) start 0 index.efSearch).map
          (fun scored => sliceTo (sortedPairs scored) k) ∧
      searchWithDistances np index query k (some (List.replicate index.data.length true)) =
        (searchLayerWithDistances np index.data index.graph (np.normalize query) start 0
          (max (index.efSearch : Int) k).toNat).map (fun scored => sliceTo (sortedPairs scored) k) := by
  have unitLength : (np.normalize query).length = width := by rw [np.normalize_length, length]
  rcases layerZeroEntry_gives np wellFormed unitLength isEntry with ⟨start, ground, run, found, has⟩
  have sound := wellFormed.toConsistent.layers 0 ground found
  refine ⟨start, ground, run, found, has, fun k => ⟨?_, ?_⟩⟩
  · unfold searchWithDistances
    rw [isEntry]
    dsimp only
    rw [run]
    change (searchLayerWithDistances np index.data index.graph (np.normalize query) start 0
      index.efSearch >>= _) = _
    cases searchLayerWithDistances np index.data index.graph (np.normalize query) start 0 index.efSearch <;> rfl
  · have wide : 0 < (max (index.efSearch : Int) k).toNat := by omega
    rw [← searchLayerFiltered_all np wellFormed.rows sound unitLength index.graph found has wide]
    unfold searchWithDistances
    rw [isEntry]
    dsimp only
    rw [run]
    change (searchLayerFiltered np index.data index.graph (np.normalize query) start
      (max (index.efSearch : Int) k).toNat (List.replicate index.data.length true) >>= _) = _
    cases searchLayerFiltered np index.data index.graph (np.normalize query) start
      (max (index.efSearch : Int) k).toNat (List.replicate index.data.length true) <;> rfl

/-- On any index built by inserts, the filter changes nothing exactly if the
beam is as wide as `k` or holds every node that can be reached from where the
search starts. -/
theorem filter_changes_nothing_iff {M efConstruction : Nat} {selection : NeighborSelection} {rng : G}
    {vectors : List (List F)} {graph : Graph F G} (nonempty : vectors ≠ []) {efSearch : Nat}
    (searchable : 1 ≤ efSearch)
    (built : build np vectors (init M efConstruction efSearch selection rng).toGraph = .ok () graph)
    {query : List F} (fits : graph.Fits query) {k : Int} (positive : 1 ≤ k) :
    ∃ entryPoint start ground, graph.entryPoint = some entryPoint ∧
      layerZeroEntry np graph (np.normalize query) entryPoint = .ok start ∧ graph.graph[0]? = some ground ∧
      (FilterChangesNothing np { graph with efSearch } query k (reachable ground start fun _ => True).ncard ↔
        k ≤ efSearch ∨ (reachable ground start fun _ => True).ncard ≤ efSearch) := by
  rcases build_ok np vectors (init_wellFormed 0 M efConstruction efSearch selection rng) built with
    ⟨⟨_, formed⟩, data⟩
  have wellFormed : Graph.WellFormed query.length { graph with efSearch : HNSW F G }.toGraph :=
    formed.fitted fits
  cases isEntry : graph.entryPoint with
  | none =>
      rw [(formed.vacant isEntry).1] at data
      exact absurd (List.map_eq_nil_iff.mp data.symm) nonempty
  | some entryPoint =>
      rcases searchWithDistances_start np wellFormed rfl isEntry searchable with
        ⟨start, ground, run, found, has, searches⟩
      have unitLength : (np.normalize query).length = query.length := np.normalize_length query
      have sound := wellFormed.toConsistent.layers 0 ground found
      rcases searchLayerWithDistances_answers np wellFormed.rows sound unitLength found has searchable with
        ⟨hits, _, searched, answers, _⟩
      rcases searches k with ⟨unfiltered, filtered⟩
      dsimp only at unfiltered filtered searched answers
      refine ⟨entryPoint, start, ground, rfl, run, found, ?_⟩
      unfold FilterChangesNothing
      rw [unfiltered, filtered, searched]
      constructor
      · rintro ⟨_, _, isHits, count⟩
        cases isHits
        by_contra narrow
        rw [not_or] at narrow
        rw [slice_length (by omega), answers.count] at count
        omega
      · intro wide
        constructor
        · rcases wide with few | all
          · have same : (max (efSearch : Int) k).toNat = efSearch := by omega
            rw [same, searched]
          · have room : (reachable ground start fun _ => True).ncard ≤
              (max (efSearch : Int) k).toNat := by omega
            rw [← searchLayer_width np wellFormed.rows unitLength sound found has all room, searched]
        · refine ⟨_, rfl, ?_⟩
          rw [slice_length (by omega), answers.count]
          omega

end Whole

/-! Two vectors and a beam of one: the second is found only with a filter. -/

section Sample

/-- Every node on layer 0. -/
abbrev flatAxes : Numpy Int Int Unit := Numpy.flat Numpy.axisDistance

def twoVectors : Graph Int Unit :=
  final (build flatAxes [[1, 0], [0, 1]]) (init 2 100 1 .heuristic ()).toGraph

theorem twoVectors_built :
    build flatAxes [[1, 0], [0, 1]] (init 2 100 1 .heuristic ()).toGraph = .ok () twoVectors := by
  have returns : (match build flatAxes [[1, 0], [0, 1]] (init 2 100 1 .heuristic ()).toGraph with
      | .ok _ _ => true
      | .error _ _ => false) = true := by decide +kernel
  unfold twoVectors final
  cases built : build flatAxes [[1, 0], [0, 1]] (init 2 100 1 .heuristic ()).toGraph with
  | ok value after => rfl
  | error error after =>
      rw [built] at returns
      cases returns

theorem twoVectors_fits : twoVectors.Fits [1, 0] := by
  have data : twoVectors.data = [[1, 0], [0, 1]] := by decide +kernel
  intro row isFirst
  rw [data] at isFirst
  cases isFirst
  rfl

theorem filter_changes_nothing_two :
    ∃ entryPoint start ground, twoVectors.entryPoint = some entryPoint ∧
      layerZeroEntry flatAxes twoVectors (flatAxes.normalize [1, 0]) entryPoint = .ok start ∧
      twoVectors.graph[0]? = some ground ∧
      (FilterChangesNothing flatAxes { twoVectors with efSearch := 1 } [1, 0] 1
          (reachable ground start fun _ => True).ncard ↔
        (1 : Int) ≤ (1 : Nat) ∨ (reachable ground start fun _ => True).ncard ≤ 1) :=
  filter_changes_nothing_iff flatAxes (List.cons_ne_nil _ _) (Nat.le_refl 1) twoVectors_built twoVectors_fits
    (Int.le_refl 1)

/-- A beam of one returns one of two vectors, and a filter that allows both returns both. -/
theorem narrow_beam_falls_short :
    build flatAxes [[1, 0], [0, 1]] (init 2 100 1 .heuristic ()).toGraph = .ok () twoVectors ∧
      searchWithDistances flatAxes { twoVectors with efSearch := 1 } [1, 0] 2 none = .ok [(0, 0)] ∧
      searchWithDistances flatAxes { twoVectors with efSearch := 1 } [1, 0] 2 (some [true, true]) =
        .ok [(0, 0), (1, 1)] := by
  refine ⟨twoVectors_built, ?_, ?_⟩
  · decide +kernel
  · decide +kernel

end Sample

end HNSW
end VectorSearch
