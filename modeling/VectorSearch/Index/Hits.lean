import Mathlib.Data.List.Zip
import VectorSearch.Index.BeamSearch

namespace VectorSearch

/-!
# What a search returns

Whatever a search returns, each hit is a stored row once, with a distance that
was computed for that row, and the hits are in increasing order of distance and
id.  A filtered search returns allowed nodes only.  Nothing is said here about
which nodes are found.
-/

open Stateful

variable {F D G : Type}

/-- The distance was computed for this row, by itself or among other rows. -/
def Numpy.Measures (np : Numpy F D G) (row query : List F) (dist : D) : Prop :=
  dist = np.product row query ∨
    ∃ (rows : List (List F)) (position : Nat), rows[position]? = some row ∧
      (np.products rows query)[position]? = some dist

namespace HNSW

variable (np : Numpy F D G)

/-- The item is a stored node with a distance of its row. -/
def Hit (data : List (List F)) (query : List F) (item : D × Nat) : Prop :=
  ∃ row, data[item.2]? = some row ∧ np.Measures row query item.1

theorem rowAt_ok {data : List (List F)} {node : Nat} {row : List F} (read : rowAt data node = .ok row) :
    data[node]? = some row := by
  unfold rowAt at read
  split at read
  · rename_i found stored
    rw [stored, Except.ok.inj read]
  · cases read

theorem layerAt_ok {graph : List Layer} {layer : Nat} {adjacency : Layer}
    (looked : layerAt graph layer = .ok adjacency) : graph[layer]? = some adjacency := by
  unfold layerAt at looked
  split at looked
  · rename_i found stored
    rw [stored, Except.ok.inj looked]
  · cases looked

theorem distanceTo_ok {data : List (List F)} {query : List F} {node : Nat} {dist : D}
    (given : distanceTo np data query node = .ok dist) : Hit np data query (dist, node) := by
  rcases gave_bind given with ⟨row, read, product⟩
  split at product
  · exact ⟨row, rowAt_ok read, Or.inl (Except.ok.inj product).symm⟩
  · cases product

theorem distancesTo_ok {data : List (List F)} {query : List F} {nodes : List Nat} {dists : List D}
    (given : distancesTo np data query nodes = .ok dists) :
    ∀ item ∈ nodes.zip dists, Hit np data query (item.2, item.1) := by
  rcases gave_bind given with ⟨rows, read, products⟩
  split at products
  · rintro ⟨node, dist⟩ member
    rcases List.getElem?_of_mem member with ⟨position, atPosition⟩
    rw [List.getElem?_zip_eq_some] at atPosition
    rcases atPosition with ⟨isNode, isDist⟩
    have each := mapM_ok read
    have inside : position < nodes.length := (List.getElem?_eq_some_iff.mp isNode).1
    have insideRows : position < rows.length := by
      rw [← each.length_eq]
      exact inside
    have stored := (List.forall₂_iff_get.mp each).2 position inside insideRows
    have isGet : nodes.get ⟨position, inside⟩ = node := (List.getElem?_eq_some_iff.mp isNode).2
    rw [isGet] at stored
    refine ⟨rows[position], rowAt_ok stored, Or.inr ⟨rows, position, ?_, ?_⟩⟩
    · exact List.getElem?_eq_getElem insideRows
    · rw [Except.ok.inj products]
      exact isDist
  · cases products

variable [LinearOrder D]

/-! ## The beam -/

/-- What the inner loop adds to the results. -/
structure Beam.Adds (allowed : Nat → Except Error Bool) (found : List (Nat × D)) (beam next : Beam D) :
    Prop where
  visited : next.visited = beam.visited
  results : next.results.Subperm (scored found ++ beam.results)
  permitted : ∀ item ∈ next.results, item ∈ beam.results ∨ allowed item.2 = .ok true

theorem pushResult_ok {ef : Nat} {results kept : List (D × Nat)} {item : D × Nat}
    (pushed : pushResult ef results item = .ok kept) : kept.Subperm (item :: results) := by
  have perm := Heapq.heappush_perm farther results item
  unfold pushResult at pushed
  split at pushed
  · split at pushed
    · cases pushed
    · rename_i first rest popped
      rw [← Except.ok.inj pushed]
      have parts := (Heapq.heappop_perm popped).symm.trans perm
      exact (List.sublist_cons_self first rest).subperm.trans parts.subperm
  · rw [← Except.ok.inj pushed]
    exact perm.subperm

theorem consider_adds {ef : Nat} {allowed : Nat → Except Error Bool} {ok : Bool} {beam next : Beam D} {d : D}
    {neighbor : Nat} (permits : allowed neighbor = .ok ok)
    (considered : consider ef ok beam d neighbor = .ok next) :
    Beam.Adds allowed [(neighbor, d)] beam next := by
  have same : beam.results.Subperm (scored [(neighbor, d)] ++ beam.results) :=
    (List.sublist_cons_self (d, neighbor) beam.results).subperm
  rcases gave_bind considered with ⟨enters, _, rest⟩
  cases enters with
  | false =>
      cases rest
      exact ⟨rfl, same, fun item member => Or.inl member⟩
  | true =>
      rcases gave_bind rest with ⟨results, pushed, isNext⟩
      cases isNext
      cases ok with
      | false =>
          cases pushed
          exact ⟨rfl, same, fun item member => Or.inl member⟩
      | true =>
          have kept := pushResult_ok pushed
          refine ⟨rfl, kept, fun item member => ?_⟩
          rcases List.mem_cons.mp (kept.subset member) with new | old
          · rw [new]
            exact Or.inr permits
          · exact Or.inl old

theorem considerAll_adds {ef : Nat} {allowed : Nat → Except Error Bool} (found : List (Nat × D))
    {beam next : Beam D} (considered : considerAll ef allowed found beam = .ok next) :
    Beam.Adds allowed found beam next := by
  induction found generalizing beam with
  | nil =>
      cases considered
      exact ⟨rfl, List.Subperm.refl _, fun item member => Or.inl member⟩
  | cons head rest inductionHypothesis =>
      rcases head with ⟨neighbor, d⟩
      rcases gave_bind considered with ⟨ok, permits, considers⟩
      rcases gave_bind considers with ⟨middle, one, later⟩
      have first := consider_adds permits one
      have rests := inductionHypothesis later
      refine ⟨rests.visited.trans first.visited, ?_, ?_⟩
      · have more := (List.subperm_append_left (scored rest)).mpr first.results
        exact (rests.results.trans more).trans (scored_cons_append neighbor d rest _).subperm
      · intro item member
        rcases rests.permitted item member with inMiddle | permitted
        · exact first.permitted item inMiddle
        · exact Or.inr permitted

/-- What every beam of a search satisfies. -/
structure Beam.Valid (data : List (List F)) (query : List F) (allowed : Nat → Except Error Bool)
    (within : Nat → Prop) (beam : Beam D) : Prop where
  distinct : beam.visited.Nodup
  within : ∀ node ∈ beam.visited, within node
  kept : (beam.results.map Prod.snd).Subperm beam.visited
  permitted : ∀ item ∈ beam.results, allowed item.2 = .ok true
  measured : ∀ item ∈ beam.results, Hit np data query item

variable {np}

omit [LinearOrder D] in
theorem fresh_nodup {beam : Beam D} {links : List Nat} (distinct : beam.visited.Nodup)
    (linksDistinct : links.Nodup) :
    (beam.visited ++ fresh beam links).Nodup := by
  apply List.nodup_append.mpr
  refine ⟨distinct, linksDistinct.filter _, ?_⟩
  rintro node old other new rfl
  exact (mem_fresh.mp new).2 old

/-- A round adds fresh nodes that are allowed, with their distances. -/
theorem Beam.Valid.round {data : List (List F)} {query : List F} {allowed : Nat → Except Error Bool}
    {within : Nat → Prop} {ef : Nat} {beam next : Beam D} {links : List Nat} {rest : List (D × Nat)}
    {dists : List D} (valid : beam.Valid np data query allowed within) (linksDistinct : links.Nodup)
    (linksWithin : ∀ node ∈ links, within node)
    (given : distancesTo np data query (fresh beam links) = .ok dists)
    (considered : considerAll ef allowed ((fresh beam links).zip dists)
      ⟨beam.visited ++ fresh beam links, rest, beam.results⟩ = .ok next) :
    next.Valid np data query allowed within := by
  have adds := considerAll_adds _ considered
  have count : dists.length = (fresh beam links).length := distancesTo_length np given
  have ids : (scored ((fresh beam links).zip dists)).map Prod.snd = fresh beam links := by
    rw [scored_snd]
    exact List.map_fst_zip (Nat.le_of_eq count.symm)
  have isVisited : next.visited = beam.visited ++ fresh beam links := adds.visited
  constructor
  · rw [isVisited]
    exact fresh_nodup valid.distinct linksDistinct
  · rw [isVisited]
    intro node member
    rcases List.mem_append.mp member with old | new
    · exact valid.within node old
    · exact linksWithin node (mem_fresh.mp new).1
  · rw [isVisited]
    have whole := subperm_map Prod.snd adds.results
    rw [List.map_append, ids] at whole
    have swapped := whole.trans List.perm_append_comm.subperm
    exact swapped.trans ((List.subperm_append_right (fresh beam links)).mpr valid.kept)
  · intro item member
    rcases adds.permitted item member with old | new
    · exact valid.permitted item old
    · exact new
  · intro item member
    rcases List.mem_append.mp (adds.results.subset member) with new | old
    · rcases List.mem_map.mp new with ⟨⟨node, dist⟩, inZip, isItem⟩
      rw [← isItem]
      exact distancesTo_ok np given (node, dist) inZip
    · exact valid.measured item old

omit [LinearOrder D] in
/-- Taking a candidate out changes nothing else. -/
theorem Beam.Valid.popped {data : List (List F)} {query : List F} {allowed : Nat → Except Error Bool}
    {within : Nat → Prop} {beam : Beam D} (valid : beam.Valid np data query allowed within)
    (candidates : List (D × Nat)) : Beam.Valid np data query allowed within { beam with candidates } :=
  ⟨valid.distinct, valid.within, valid.kept, valid.permitted, valid.measured⟩

variable (np)

/-- Whenever the loop ends, its beam is valid. -/
theorem beamLoop_valid {data : List (List F)} {adjacency : Layer} {query : List F} {ef : Nat}
    {full : Beam D → Bool} {allowed : Nat → Except Error Bool} {within : Nat → Prop}
    (distinct : ∀ node links, adjacency.get? node = some links → links.Nodup)
    (closed : ∀ node other, adjacency.Link node other → within other) (fuel : Nat)
    {beam final : Beam D} (valid : beam.Valid np data query allowed within)
    (ran : beamLoop np data adjacency query ef full allowed fuel beam = .ok final) :
    final.Valid np data query allowed within := by
  induction fuel generalizing beam with
  | zero => cases ran
  | succ fuel inductionHypothesis =>
      unfold beamLoop at ran
      split at ran
      · rw [← Except.ok.inj ran]
        exact valid
      · rename_i distC c candidates popped
        rcases gave_bind ran with ⟨far, _, goes⟩
        cases far with
        | true =>
            cases goes
            exact valid.popped candidates
        | false =>
            rcases gave_bind goes with ⟨links, looked, rest⟩
            have linked := neighborsOf_ok looked
            dsimp only at rest
            split at rest
            · exact inductionHypothesis (valid.popped candidates) rest
            · rcases gave_bind rest with ⟨dists, given, considers⟩
              rcases gave_bind considers with ⟨next, considered, later⟩
              exact inductionHypothesis (valid.round (distinct c links linked)
                (fun node member => closed c node ⟨links, linked, member⟩) given considered) later

/-- The hits of a layer, in the order the heap leaves them. -/
structure Hits (data : List (List F)) (query : List F) (permitted : Nat → Prop) (hits : List (D × Nat)) :
    Prop where
  distinct : (hits.map Prod.snd).Nodup
  permitted : ∀ item ∈ hits, permitted item.2
  measured : ∀ item ∈ hits, Hit np data query item

variable {np}

omit [LinearOrder D] in
theorem Beam.Valid.hits {data : List (List F)} {query : List F} {allowed : Nat → Except Error Bool}
    {within : Nat → Prop} {beam : Beam D} (valid : beam.Valid np data query allowed within) :
    Hits np data query (fun node => allowed node = .ok true ∧ within node) beam.results := by
  refine ⟨?_, fun item member => ⟨valid.permitted item member, ?_⟩, valid.measured⟩
  · rcases valid.kept with ⟨part, perm, sublist⟩
    exact perm.nodup_iff.mp (valid.distinct.sublist sublist)
  · exact valid.within item.2 (valid.kept.subset (List.mem_map_of_mem member))

omit [LinearOrder D] in
theorem Hits.imp {data : List (List F)} {query : List F} {stronger weaker : Nat → Prop}
    {hits : List (D × Nat)} (given : Hits np data query stronger hits)
    (implies : ∀ node, stronger node → weaker node) : Hits np data query weaker hits :=
  ⟨given.distinct, fun item member => implies _ (given.permitted item member), given.measured⟩

variable (np)

theorem searchLayerWithDistances_hits {data : List (List F)} {graph : List Layer} {query : List F}
    {entry layer ef : Nat} {within : Nat → Prop} {hits : List (D × Nat)}
    (distinct : ∀ (adjacency : Layer), graph[layer]? = some adjacency →
      ∀ node links, adjacency.get? node = some links → links.Nodup)
    (closed : ∀ (adjacency : Layer), graph[layer]? = some adjacency →
      ∀ node other, adjacency.Link node other → within other) (start : within entry)
    (searched : searchLayerWithDistances np data graph query entry layer ef = .ok hits) :
    Hits np data query within hits := by
  rcases gave_bind searched with ⟨dEntry, begins, rest⟩
  rcases gave_bind rest with ⟨adjacency, looked, loops⟩
  rcases gave_bind loops with ⟨final, ran, isHits⟩
  cases isHits
  have valid : Beam.Valid np data query (fun _ => .ok true) within
      ⟨[entry], [(dEntry, entry)], [(dEntry, entry)]⟩ := by
    refine ⟨List.nodup_singleton entry, ?_, List.Subperm.refl _, fun _ _ => rfl, ?_⟩
    · intro node member
      rw [List.mem_singleton.mp member]
      exact start
    · intro item member
      rw [List.mem_singleton.mp member]
      exact distanceTo_ok np begins
  exact (beamLoop_valid np (distinct adjacency (layerAt_ok looked)) (closed adjacency (layerAt_ok looked)) _
    valid ran).hits.imp fun _ both => both.2

theorem searchLayerFiltered_hits {data : List (List F)} {graph : List Layer} {query : List F}
    {entry ef : Nat} {allowed : List Bool} {hits : List (D × Nat)}
    (distinct : ∀ (adjacency : Layer), graph[0]? = some adjacency →
      ∀ node links, adjacency.get? node = some links → links.Nodup)
    (searched : searchLayerFiltered np data graph query entry ef allowed = .ok hits) :
    Hits np data query (fun node => allowed[node]? = some true) hits := by
  have lookup : ∀ node, allowedAt allowed node = .ok true → allowed[node]? = some true := by
    intro node given
    unfold allowedAt at given
    split at given
    · rename_i ok stored
      rw [stored, Except.ok.inj given]
    · cases given
  rcases gave_bind searched with ⟨dEntry, start, rest⟩
  rcases gave_bind rest with ⟨ok, entryAllowed, rest⟩
  rcases gave_bind rest with ⟨adjacency, looked, loops⟩
  rcases gave_bind loops with ⟨final, ran, isHits⟩
  cases isHits
  have valid : Beam.Valid np data query (allowedAt allowed) (fun _ => True)
      ⟨[entry], [(dEntry, entry)], if ok then [(dEntry, entry)] else []⟩ := by
    cases ok with
    | false =>
        refine ⟨List.nodup_singleton entry, fun _ _ => trivial, List.nil_subperm, ?_, ?_⟩
        · exact fun item impossible => absurd impossible List.not_mem_nil
        · exact fun item impossible => absurd impossible List.not_mem_nil
    | true =>
        refine ⟨List.nodup_singleton entry, fun _ _ => trivial, List.Subperm.refl _, ?_, ?_⟩
        · intro item member
          rw [List.mem_singleton.mp member]
          exact entryAllowed
        · intro item member
          rw [List.mem_singleton.mp member]
          exact distanceTo_ok np start
  exact (beamLoop_valid np (distinct adjacency (layerAt_ok looked)) (fun _ _ _ => trivial) _ valid ran).hits.imp
    fun node both => lookup node both.1

/-! ## Sorted hits -/

/-- In increasing order of distance, and of id at equal distances. -/
def Ascending (hits : List (D × Nat)) : Prop :=
  hits.Pairwise fun left right => left.1 < right.1 ∨ (left.1 = right.1 ∧ left.2 < right.2)

theorem sortedPairs_ascending {hits : List (D × Nat)} (distinct : (hits.map Prod.snd).Nodup) :
    Ascending (sortedPairs hits) := by
  have total : Std.Total fun left right : D × Nat => left.1 < right.1 ∨
    (left.1 = right.1 ∧ left.2 ≤ right.2) := by
    constructor
    intro left right
    rcases lt_trichotomy left.1 right.1 with less | same | greater
    · exact Or.inl (Or.inl less)
    · rcases Nat.le_total left.2 right.2 with low | high
      · exact Or.inl (Or.inr ⟨same, low⟩)
      · exact Or.inr (Or.inr ⟨same.symm, high⟩)
    · exact Or.inr (Or.inl greater)
  have trans : IsTrans (D × Nat) fun left right => left.1 < right.1 ∨
    (left.1 = right.1 ∧ left.2 ≤ right.2) := by
    constructor
    rintro first second third (less | ⟨same, low⟩) (less' | ⟨same', low'⟩)
    · exact Or.inl (less.trans less')
    · exact Or.inl (same' ▸ less)
    · exact Or.inl (same ▸ less')
    · exact Or.inr ⟨same.trans same', low.trans low'⟩
  have sorted : (sortedPairs hits).Pairwise fun left right =>
      left.1 < right.1 ∨ (left.1 = right.1 ∧ left.2 ≤ right.2) := List.pairwise_insertionSort _ hits
  have ids : ((sortedPairs hits).map Prod.snd).Nodup :=
    ((List.perm_insertionSort _ hits).map Prod.snd).nodup_iff.mpr distinct
  have different : (sortedPairs hits).Pairwise fun left right => left.2 ≠ right.2 := List.pairwise_map.mp ids
  apply (sorted.and different).imp
  rintro left right ⟨less | ⟨same, low⟩, other⟩
  · exact Or.inl less
  · exact Or.inr ⟨same, Nat.lt_of_le_of_ne low other⟩

theorem sliceTo_sublist {α : Type} (values : List α) (k : Int) : (sliceTo values k).Sublist values := by
  unfold sliceTo
  split
  · exact List.take_sublist _ _
  · exact List.take_sublist _ _

variable {np}

/-- What is returned of the hits: the first of them, in order. -/
theorem Hits.sorted {data : List (List F)} {query : List F} {permitted : Nat → Prop} {hits : List (D × Nat)}
    (given : Hits np data query permitted hits) (k : Int) :
    Hits np data query permitted (sliceTo (sortedPairs hits) k) ∧ Ascending (sliceTo (sortedPairs hits) k) := by
  have perm : (sortedPairs hits).Perm hits := List.perm_insertionSort _ hits
  have part := sliceTo_sublist (sortedPairs hits) k
  refine ⟨⟨?_, ?_, ?_⟩, (sortedPairs_ascending given.distinct).sublist part⟩
  · exact ((perm.map Prod.snd).nodup_iff.mpr given.distinct).sublist (part.map Prod.snd)
  · exact fun item member => given.permitted item (perm.subset (part.subset member))
  · exact fun item member => given.measured item (perm.subset (part.subset member))

/-- The hits of a search of the graph. -/
theorem searchWithDistances_hits {index : HNSW F G} {query : List F} {k : Int} {allowed : Option (List Bool)}
    {hits : List (D × Nat)}
    (distinct : ∀ (adjacency : Layer), index.graph[0]? = some adjacency →
      ∀ node links, adjacency.get? node = some links → links.Nodup)
    (searched : searchWithDistances np index query k allowed = .ok hits) :
    Hits np index.data (np.normalize query)
        (fun node => ∀ mask, allowed = some mask → mask[node]? = some true) hits ∧ Ascending hits := by
  unfold searchWithDistances at searched
  split at searched
  · cases searched
    exact ⟨⟨List.nodup_nil, fun _ impossible => absurd impossible List.not_mem_nil,
      fun _ impossible => absurd impossible List.not_mem_nil⟩, List.Pairwise.nil⟩
  · rename_i entryPoint isEntry
    rcases gave_bind searched with ⟨entry, _, searches⟩
    cases allowed with
    | none =>
        rcases gave_bind searches with ⟨scored, found, isHits⟩
        cases isHits
        have given := searchLayerWithDistances_hits np distinct (fun _ _ _ _ _ => trivial) trivial found
        exact (given.imp fun _ _ mask impossible => nomatch impossible).sorted k
    | some mask =>
        rcases gave_bind searches with ⟨scored, found, isHits⟩
        cases isHits
        have given := searchLayerFiltered_hits np distinct found
        apply (given.imp _).sorted k
        rintro node permits mask same
        cases same
        exact permits

/-! ## The exact path -/

theorem mem_sorted {hits : List (D × Nat)} {k : Int} {item : D × Nat}
    (member : item ∈ sliceTo (sortedPairs hits) k) : item ∈ hits :=
  (List.perm_insertionSort _ hits).subset ((sliceTo_sublist _ k).subset member)

variable (np)

/-- The pairs that an exact search sorts, for the distances it computed: all of
them, or those a partition puts first. -/
def Preselected (dists : List D) (nodeIds : List Nat) (k : Int) (scored : List (D × Nat)) : Prop :=
  ((dists.length : Int) ≤ k ∧ scored = dists.zip nodeIds) ∨
    (k < dists.length ∧ ∃ nearest, np.argpartition dists k = .ok nearest ∧
      List.Forall₂ (fun position pair => (dists.zip nodeIds)[position]? = some pair) (sliceTo nearest k) scored)

/-- An exact search that returned, taken apart. -/
theorem exactAmong_ok {index : HNSW F G} {query : List F} {nodeIds : List Nat} {k : Int}
    {hits : List (D × Nat)} (nonempty : nodeIds ≠ []) (given : exactAmong np index query nodeIds k = .ok hits) :
    ∃ dists scored, distancesTo np index.data (np.normalize query) nodeIds = .ok dists ∧
      Preselected np dists nodeIds k scored ∧ hits = sliceTo (sortedPairs scored) k := by
  unfold exactAmong at given
  rw [if_neg nonempty] at given
  rcases gave_bind given with ⟨dists, distances, rest⟩
  dsimp only at rest
  split at rest
  · rename_i less
    rcases gave_bind rest with ⟨nearest, partitioned, picks⟩
    rcases gave_bind picks with ⟨scored, picked, isHits⟩
    cases isHits
    refine ⟨dists, scored, distances, Or.inr ⟨less, nearest, partitioned, (mapM_ok picked).imp ?_⟩, rfl⟩
    intro position pair isPick
    split at isPick
    · rename_i other found
      rw [found, Except.ok.inj isPick]
    · cases isPick
  · rename_i more
    cases rest
    exact ⟨dists, _, distances, Or.inl ⟨Int.not_lt.mp more, rfl⟩, rfl⟩

variable {np} in
omit [LinearOrder D] in
theorem Preselected.mem_zip {dists : List D} {nodeIds : List Nat} {k : Int} {scored : List (D × Nat)}
    (preselected : Preselected np dists nodeIds k scored) {item : D × Nat} (member : item ∈ scored) :
    item ∈ dists.zip nodeIds := by
  rcases preselected with ⟨_, all⟩ | ⟨_, nearest, _, picked⟩
  · rw [← all]
    exact member
  · rcases List.getElem?_of_mem member with ⟨place, atPlace⟩
    have inside : place < scored.length := (List.getElem?_eq_some_iff.mp atPlace).1
    have insideSlice : place < (sliceTo nearest k).length := by
      rw [picked.length_eq]
      exact inside
    have isPick := (List.forall₂_iff_get.mp picked).2 place insideSlice inside
    have isItem : scored.get ⟨place, inside⟩ = item := (List.getElem?_eq_some_iff.mp atPlace).2
    rw [isItem] at isPick
    exact List.mem_of_getElem? isPick

/-- Each hit of an exact search is one of the given nodes, with a distance of its row. -/
theorem exactAmong_hit {index : HNSW F G} {query : List F} {nodeIds : List Nat} {k : Int}
    {hits : List (D × Nat)} (given : exactAmong np index query nodeIds k = .ok hits) :
    ∀ item ∈ hits, item.2 ∈ nodeIds ∧ Hit np index.data (np.normalize query) item := by
  intro item member
  by_cases none : nodeIds = []
  · rw [exactAmong, if_pos none] at given
    cases given
    cases member
  · rcases exactAmong_ok np none given with ⟨dists, scored, distances, preselected, isHits⟩
    rw [isHits] at member
    have inZip := preselected.mem_zip (mem_sorted member)
    have swapped : (item.2, item.1) ∈ nodeIds.zip dists := by
      rw [← List.zip_swap]
      exact List.mem_map.mpr ⟨item, inZip, rfl⟩
    exact ⟨(List.of_mem_zip inZip).2, distancesTo_ok np distances (item.2, item.1) swapped⟩

end HNSW
end VectorSearch
