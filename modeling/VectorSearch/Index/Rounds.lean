import VectorSearch.Index.Diversity
import VectorSearch.Index.Hits
import VectorSearch.Index.Linking

namespace VectorSearch

/-!
# A round in exact arithmetic

Without rounding, and with a beam as wide as the index, what an insertion does to
layer 0 follows from the links stored before it and the distances of the vectors.
The new node is linked with neighbours chosen among all stored nodes, and each of
them chooses again when its list is too long.
-/

open Stateful

variable {F D G : Type}

/-- Every operation gives the distance of the two rows. -/
structure Numpy.Evaluates (np : Numpy F D G) (distance : List F → List F → D) : Prop where
  symmetric : ∀ left right, distance left right = distance right left
  product : ∀ row query, np.product row query = distance row query
  products : ∀ rows query, np.products rows query = rows.map fun row => distance row query
  table : ∀ rows, np.table rows = rows.map fun row => rows.map (distance row)

theorem Numpy.Evaluates.measured {np : Numpy F D G} {distance : List F → List F → D}
    (evaluates : np.Evaluates distance) {row query : List F} {dist : D}
    (measures : np.Measures row query dist) :
    dist = distance row query := by
  rcases measures with single | ⟨rows, position, isRow, isDist⟩
  · rw [single, evaluates.product]
  · rw [evaluates.products, List.getElem?_map, isRow] at isDist
    exact (Option.some.inj isDist).symm

/-- Any node of the layer can be reached from any other. -/
def Layer.Joint (adjacency : Layer) : Prop :=
  ∀ node other, adjacency.Has node → adjacency.Has other → adjacency.Reach node other

namespace HNSW

section Choice

variable [LinearOrder D]

/-- The distance of two of the rows. -/
def apart (distance : List F → List F → D) (data : List (List F)) (left right : Nat) : D :=
  distance (data.getD left []) (data.getD right [])

/-- What is chosen among candidates in order of distance: all when they are few, the
nearest in the one mode, and in the other what the naive rule keeps. -/
def preferred (selection : NeighborSelection) (between : Nat → Nat → D) (m : Nat)
    (order : List (D × Nat)) : List Nat :=
  if order.length ≤ m ∨ selection = .closest then (order.take m).map Prod.snd
    else naiveSelection between m order []

theorem preferred_sublist (selection : NeighborSelection) (between : Nat → Nat → D) (m : Nat)
    (order : List (D × Nat)) :
    (preferred selection between m order).Sublist (order.map Prod.snd) := by
  unfold preferred
  split
  · exact (List.take_sublist m order).map Prod.snd
  · exact naiveSelection_sublist between m order []

/-- The nearest candidate is always chosen. -/
theorem preferred_head (selection : NeighborSelection) (between : Nat → Nat → D) {m : Nat} (positive : 1 ≤ m)
    (order : List (D × Nat)) : (preferred selection between m order).head? = (order.map Prod.snd).head? := by
  unfold preferred
  split
  · rw [List.head?_map, List.head?_map, List.head?_take, if_neg (Nat.ne_of_gt positive)]
  · exact naiveSelection_head between positive order

theorem preferred_ne_nil (selection : NeighborSelection) (between : Nat → Nat → D) {m : Nat} (positive : 1 ≤ m)
    {order : List (D × Nat)} (some : order ≠ []) : preferred selection between m order ≠ [] := by
  intro nothing
  have head := preferred_head selection between positive order
  rw [nothing, List.head?_nil] at head
  exact some (List.map_eq_nil_iff.mp (List.head?_eq_none_iff.mp head.symm))

/-- The stored nodes, those nearest to the new node first. -/
structure NearestFirst (between : Nat → Nat → D) (node : Nat) (order : List (D × Nat)) : Prop where
  perm : order.Perm ((List.range node).map fun other => (between other node, other))
  sorted : order.Pairwise fun left right => left.1 ≤ right.1

theorem NearestFirst.nodes {between : Nat → Nat → D} {node : Nat} {order : List (D × Nat)}
    (nearest : NearestFirst between node order) : (order.map Prod.snd).Perm (List.range node) := by
  have perm := nearest.perm.map Prod.snd
  rw [List.map_map] at perm
  have isNodes : (List.range node).map (Prod.snd ∘ fun other => (between other node, other)) =
    List.range node :=
    List.map_id' _
  rw [isNodes] at perm
  exact perm

theorem NearestFirst.ne_nil {between : Nat → Nat → D} {node : Nat} {order : List (D × Nat)}
    (nearest : NearestFirst between node order) (some : 0 < node) : order ≠ [] := by
  intro nothing
  have size := nearest.nodes.length_eq
  rw [nothing, List.map_nil, List.length_nil, List.length_range] at size
  exact Nat.ne_of_lt some size

theorem NearestFirst.preferred_inside {between : Nat → Nat → D} {node : Nat} {order : List (D × Nat)}
    (nearest : NearestFirst between node order) {selection : NeighborSelection} {m neighbor : Nat}
    (member : neighbor ∈ preferred selection between m order) : neighbor < node :=
  List.mem_range.mp (nearest.nodes.subset ((preferred_sublist selection between m order).subset member))

theorem NearestFirst.preferred_nodup {between : Nat → Nat → D} {node : Nat} {order : List (D × Nat)}
    (nearest : NearestFirst between node order) (selection : NeighborSelection) (m : Nat) :
    (preferred selection between m order).Nodup :=
  (preferred_sublist selection between m order).nodup (nearest.nodes.nodup_iff.mpr List.nodup_range)

/-- The links of a node. -/
def linksAt (ground : Layer) (node : Nat) : List Nat := (ground.get? node).getD []

/-- The links of an old node once the new one is among them: all while there is room,
and then what the owner chooses. -/
def relinked (selection : NeighborSelection) (between : Nat → Nat → D) (cap node : Nat)
    (ground : Layer) (owner : Nat) : List Nat :=
  if (linksAt ground owner ++ [node]).length ≤ cap then linksAt ground owner ++ [node]
  else preferred selection between cap
    (byDistance ((linksAt ground owner ++ [node]).map fun other => (between other owner, other)))

end Choice

section Evaluation

variable [LinearOrder D] {np : Numpy F D G} {distance : List F → List F → D} (evaluates : np.Evaluates distance)
  {data : List (List F)} {width : Nat} (rows : ∀ row ∈ data, row.length = width)

include evaluates rows

omit [LinearOrder D] in
theorem distancesTo_eq {query : List F} (length : query.length = width) {nodes : List Nat}
    (inside : ∀ node ∈ nodes, node < data.length) :
    distancesTo np data query nodes = .ok (nodes.map fun node => distance (data.getD node []) query) := by
  rcases rowsAt_gives rows inside with ⟨found, read, _, widths⟩
  simp only [distancesTo, read, bind, Except.bind, fits_of_width widths length, if_true]
  rw [evaluates.products, rowsAt_getD read, List.map_map]
  rfl

theorem selectNeighbors_preferred (selection : NeighborSelection) {candidateIds : List Nat} {dists : List D}
    {m : Nat} (inside : ∀ node ∈ candidateIds, node < data.length)
    (count : dists.length = candidateIds.length) (positive : 1 ≤ m) :
    selectNeighbors np selection data candidateIds dists m =
      .ok (preferred selection (apart distance data) m (byDistance (dists.zip candidateIds))) := by
  have measured : ∀ ids vectors, ids.Perm candidateIds → rowsAt data ids = .ok vectors →
      np.table vectors = ids.map fun id => ids.map (apart distance data id) := by
    intro ids vectors _ read
    rw [evaluates.table, rowsAt_getD read, List.map_map]
    simp only [List.map_map]
    rfl
  have symmetric : ∀ left right, apart distance data left right = apart distance data right left :=
    fun left right => evaluates.symmetric _ _
  have size : (byDistance (dists.zip candidateIds)).length = candidateIds.length := by
    rw [(byDistance_perm _).length_eq, List.length_zip, count, Nat.min_self]
  rw [selectNeighbors_eq np selection rows inside count positive symmetric measured, preferred, size]

/-- What is kept of a list that is too long. -/
theorem keptLinks_preferred (selection : NeighborSelection) {cap owner : Nat} {links : List Nat}
    (here : owner < data.length) (inside : ∀ node ∈ links, node < data.length) (positive : 1 ≤ cap) :
    keptLinks np selection data cap owner links =
      .ok (preferred selection (apart distance data) cap
        (byDistance (links.map fun other => (apart distance data other owner, other)))) := by
  rcases rowAt_gives rows here with ⟨base, read, length⟩
  have isBase : base = data.getD owner [] := by
    rw [List.getD_eq_getElem?_getD, rowAt_ok read]
    rfl
  have dists := distancesTo_eq evaluates rows length inside
  have zipped : (links.map fun node => distance (data.getD node []) base).zip links =
      links.map fun other => (apart distance data other owner, other) := by
    have paired := @List.zip_map' _ _ _ (fun node => distance (data.getD node []) base) id links
    rw [List.map_id, isBase] at paired
    rw [isBase, paired]
    rfl
  simp only [keptLinks, read, dists, bind, Except.bind]
  rw [selectNeighbors_preferred evaluates rows selection inside (List.length_map _) positive, zipped]

end Evaluation

/-! ## The neighbours of the new node -/

section Finding

variable [LinearOrder D] {np : Numpy F D G} {distance : List F → List F → D}

omit [LinearOrder D] in
/-- The hits of a search that reaches exactly the old nodes. -/
theorem hits_perm (evaluates : np.Evaluates distance) {data : List (List F)} {unit : List F}
    {hits : List (D × Nat)}
    (distinct : (hits.map Prod.snd).Nodup) (measured : ∀ item ∈ hits, Hit np (data ++ [unit]) unit item)
    (reached : ∀ node, node ∈ hits.map Prod.snd ↔ node < data.length) :
    hits.Perm ((List.range data.length).map fun other =>
      (apart distance (data ++ [unit]) other data.length, other)) := by
  have nodes : (hits.map Prod.snd).Perm (List.range data.length) := by
    apply (List.perm_ext_iff_of_nodup distinct List.nodup_range).mpr
    intro node
    rw [reached, List.mem_range]
  have paired : hits = (hits.map Prod.snd).map fun other =>
    (apart distance (data ++ [unit]) other data.length, other) := by
    rw [List.map_map]
    conv_lhs => rw [← List.map_id hits]
    apply List.map_congr_left
    intro item member
    rcases measured item member with ⟨row, stored, measures⟩
    have isUnit : (data ++ [unit]).getD data.length [] = unit := by
      rw [List.getD_eq_getElem?_getD, List.getElem?_concat_length]
      rfl
    have isRow : (data ++ [unit]).getD item.2 [] = row := by
      rw [List.getD_eq_getElem?_getD, stored]
      rfl
    ext
    · change item.1 = distance ((data ++ [unit]).getD item.2 []) ((data ++ [unit]).getD data.length [])
      rw [isRow, isUnit]
      exact evaluates.measured measures
    · rfl
  rw [paired]
  exact nodes.map _

/-- The neighbours of the new node are chosen among all old nodes, nearest first. -/
theorem findNeighbors_nearest (evaluates : np.Evaluates distance) {width entry node : Nat}
    {index : Graph F G} {data : List (List F)} {unit : List F} {ground : Layer} (rows : index.Width width)
    (isData : index.data = data ++ [unit]) (isNode : node = data.length) (length : unit.length = width)
    (found : index.graph[0]? = some ground) (sound : ground.Sound index.data.length)
    (has : ground.Has entry) (reached : ∀ other, ground.Reach entry other ↔ other < node)
    (wide : index.data.length ≤ index.efConstruction) (positive : 1 ≤ index.M) {scored : List (D × Nat)}
    {neighbors : List Nat} (finds : findNeighbors np index unit entry 0 = .ok (scored, neighbors)) :
    ∃ order, NearestFirst (apart distance index.data) node order ∧
      neighbors = preferred index.neighborSelection (apart distance index.data) index.M order := by
  subst isNode
  rcases gave_bind finds with ⟨hits, searched, rest⟩
  rcases gave_bind rest with ⟨chosen, selects, isPair⟩
  cases isPair
  rcases searchLayer_complete np rows sound length found has wide with ⟨_, again, distinct, isReached⟩
  rw [searched] at again
  cases again
  have distinctLinks : ∀ (adjacency : Layer), index.graph[0]? = some adjacency →
      ∀ node links, adjacency.get? node = some links → links.Nodup := by
    intro adjacency looked
    rw [found] at looked
    cases looked
    exact sound.distinct
  have each : Hits np index.data unit (fun _ => True) hits :=
    searchLayerWithDistances_hits np distinctLinks (fun _ _ _ _ _ => trivial) trivial searched
  have measured := each.measured
  rw [isData] at measured
  have perm := hits_perm evaluates distinct measured fun node => (isReached node).trans (reached node)
  rw [← isData] at perm
  have sorted := byDistance_stable hits
  -- sorting what is sorted already changes nothing that is needed
  have again := byDistance_stable (byDistance hits)
  have zipped : ((byDistance hits).map Prod.fst).zip ((byDistance hits).map Prod.snd) = byDistance hits := by
    rw [List.zip_map', List.map_id']
  have inside : ∀ node ∈ (byDistance hits).map Prod.snd, node < index.data.length := by
    intro node member
    have isOld := (reached node).mp ((isReached node).mp ((sorted.perm.map Prod.snd).subset member))
    rw [isData, List.length_append]
    omega
  have count : ((byDistance hits).map Prod.fst).length = ((byDistance hits).map Prod.snd).length := by
    rw [List.length_map, List.length_map]
  rw [selectNeighbors_preferred evaluates rows index.neighborSelection inside count positive, zipped] at selects
  refine ⟨byDistance (byDistance hits), ⟨?_, again.sorted⟩, (Except.ok.inj selects).symm⟩
  exact again.perm.trans (sorted.perm.trans perm)

end Finding

/-! ## Linking the new node -/

/-- The layer half way through a round: the neighbours done so far are relinked, and
everything else is as it was. -/
structure Relinked (start : Layer) (node : Nat) (relinks : Nat → List Nat) (done : List Nat)
    (now : Layer) : Prop where
  own : now.get? node = some done
  cut : ∀ owner ∈ done, now.get? owner = some (relinks owner)
  rest : ∀ owner, owner ≠ node → owner ∉ done → now.get? owner = start.get? owner

/-- A link of layer 0 once the new node is linked with its neighbours. -/
def Lasting (ground : Layer) (node : Nat) (neighbors : List Nat) (relinks : Nat → List Nat)
    (owner other : Nat) : Prop :=
  if owner = node then other ∈ neighbors
  else if owner ∈ neighbors then other ∈ relinks owner
  else other ∈ linksAt ground owner

instance Lasting.decidable (ground : Layer) (node : Nat) (neighbors : List Nat) (relinks : Nat → List Nat)
    (owner other : Nat) : Decidable (Lasting ground node neighbors relinks owner other) :=
  inferInstanceAs (Decidable (if owner = node then other ∈ neighbors
    else if owner ∈ neighbors then other ∈ relinks owner else other ∈ linksAt ground owner))

theorem mem_linksAt {ground : Layer} {owner other : Nat} : other ∈ linksAt ground owner ↔
    ground.Link owner other := by
  unfold linksAt Layer.Link
  cases ground.get? owner with
  | none => simp
  | some links => simp

theorem Relinked.link {start now : Layer} {node : Nat} {relinks : Nat → List Nat} {done : List Nat}
    (relinked : Relinked start node relinks done now) {owner other : Nat} :
    now.Link owner other ↔ Lasting start node done relinks owner other := by
  rw [← mem_linksAt]
  unfold Lasting linksAt
  by_cases isNode : owner = node
  · rw [if_pos isNode, isNode, relinked.own]
    rfl
  · rw [if_neg isNode]
    by_cases isDone : owner ∈ done
    · rw [if_pos isDone, relinked.cut owner isDone]
      rfl
    · rw [if_neg isDone, relinked.rest owner isNode isDone]

theorem linksAt_set {ground : Layer} {node : Nat} (missing : ¬ ground.Has node) :
    linksAt (ground.set node []) = linksAt ground := by
  funext owner
  unfold linksAt
  rw [Dict.get?_set]
  by_cases same : owner = node
  · rw [if_pos same, same]
    cases found : ground.get? node with
    | none => rfl
    | some links => exact absurd ⟨links, found⟩ missing
  · rw [if_neg same]

theorem lasting_set {ground : Layer} {node : Nat} (missing : ¬ ground.Has node) (neighbors : List Nat)
    (relinks : Nat → List Nat) :
    Lasting (ground.set node []) node neighbors relinks = Lasting ground node neighbors relinks := by
  funext owner other
  simp only [Lasting, linksAt_set missing]

section Connecting

variable [LinearOrder D] {np : Numpy F D G} {distance : List F → List F → D}

/-- Linking with one more neighbour, whose list is cut or not. -/
theorem Joined.relinks (evaluates : np.Evaluates distance) {selection : NeighborSelection}
    {data : List (List F)} {width node cap neighbor : Nat} {start now after : Layer}
    {done back kept : List Nat} (rows : ∀ row ∈ data, row.length = width)
    (linking : Linking data.length start node done now) (positive : 1 ≤ cap)
    (soFar : Relinked start node (relinked selection (apart distance data) cap node start) done now)
    (different : neighbor ≠ node) (new : neighbor ∉ done)
    (joined : Joined np selection data node cap neighbor now done back kept after) :
    Relinked start node (relinked selection (apart distance data) cap node start)
      (done ++ [neighbor]) after := by
  have sound := linking.sound
  have isBack : linksAt start neighbor = back := by
    unfold linksAt
    rw [← soFar.rest neighbor different new, joined.theirs]
    rfl
  have isKept : kept = relinked selection (apart distance data) cap node start neighbor := by
    unfold relinked
    rw [isBack]
    rcases joined.keeps with ⟨few, all⟩ | ⟨long, selected⟩
    · rw [if_pos few, all]
    · have inside : ∀ other ∈ back ++ [node], other < data.length := by
        intro other member
        rcases List.mem_append.mp member with old | last
        · exact sound.inside other (sound.closed neighbor back joined.theirs other old)
        · rw [List.mem_singleton.mp last]
          exact sound.inside node ⟨done, joined.own⟩
      have here := sound.inside neighbor ⟨back, joined.theirs⟩
      rw [keptLinks_preferred evaluates rows selection here inside positive] at selected
      rw [if_neg (Nat.not_le_of_lt long), Except.ok.inj selected]
  have isAfter : ∀ owner, after.get? owner =
      if owner = neighbor then some kept else if owner = node then some (done ++ [neighbor])
        else now.get? owner := by
    intro owner
    rw [joined.result, Dict.get?_set, Dict.get?_set]
  constructor
  · rw [isAfter, if_neg (Ne.symm different), if_pos rfl]
  · intro owner member
    rw [isAfter]
    by_cases isNeighbor : owner = neighbor
    · rw [if_pos isNeighbor, isKept, isNeighbor]
    · have isDone := (List.mem_append.mp member).resolve_right fun last =>
        isNeighbor (List.mem_singleton.mp last)
      -- no node is linked with itself, so the new node is not among its neighbours
      have notNode : owner ≠ node := by
        intro same
        rw [same] at isDone
        exact sound.loopless node done joined.own isDone
      rw [if_neg isNeighbor, if_neg notNode]
      exact soFar.cut owner isDone
  · intro owner notNode outside
    rw [List.mem_append, not_or, List.mem_singleton] at outside
    rw [isAfter, if_neg outside.2, if_neg notNode]
    exact soFar.rest owner notNode outside.1

/-- The loop over the neighbours relinks each of them. -/
theorem connectAll_relinks (evaluates : np.Evaluates distance) {width node cap : Nat} {index : Graph F G}
    {adjacency : Layer} {neighbors : List Nat} (rows : index.Width width)
    (found : index.graph[0]? = some adjacency) (positive : 1 ≤ cap)
    (start : Linking index.data.length adjacency node [] adjacency) (distinct : neighbors.Nodup)
    (has : ∀ neighbor ∈ neighbors, adjacency.Has neighbor ∧ neighbor ≠ node) :
    Returns (neighbors.forM (connect np node 0 cap)) index fun _ after => ∃ now,
      Linking index.data.length adjacency node neighbors now ∧
        Relinked adjacency node (relinked index.neighborSelection (apart distance index.data) cap node
          adjacency)
          neighbors now ∧
        after = { index with graph := index.graph.set 0 now } := by
  apply connectAll_keeps np rows found cap start distinct has
    (Relinked adjacency node (relinked index.neighborSelection (apart distance index.data) cap node adjacency))
  · refine ⟨start.own, ?_, fun _ _ _ => rfl⟩
    intro owner member
    cases member
  · intro neighbor done back kept now later different new linking soFar joined
    exact joined.relinks evaluates rows linking positive soFar different new

end Connecting

/-! ## What may be left out -/

/-- A round loses nothing: what the list of a neighbour leaves out can be reached
through what it keeps, and some neighbour keeps its link to the new node. -/
structure LosesNothing (ground : Layer) (node : Nat) (neighbors : List Nat) (relinks : Nat → List Nat) :
    Prop where
  dropped : ∀ owner ∈ neighbors, ∀ other ∈ linksAt ground owner, other ∉ relinks owner →
    ∃ through ∈ relinks owner, Relation.ReflTransGen (Lasting ground node neighbors relinks) through other
  joined : neighbors ≠ [] → ∃ owner ∈ neighbors, node ∈ relinks owner

section Keeping

variable {ground : Layer} {node : Nat} {neighbors : List Nat} {relinks : Nat → List Nat}
  (safe : LosesNothing ground node neighbors relinks)

theorem lasting_neighbor {owner other : Nat} (isOld : owner ≠ node) (member : owner ∈ neighbors) :
    Lasting ground node neighbors relinks owner other ↔ other ∈ relinks owner := by
  simp only [Lasting, if_neg isOld, if_pos member]

theorem lasting_node {other : Nat} : Lasting ground node neighbors relinks node other ↔ other ∈ neighbors := by
  simp only [Lasting, if_true]

include safe

/-- An old link is still there or can be gone round. -/
theorem LosesNothing.link {owner other : Nat} (isOld : owner ≠ node) (link : ground.Link owner other) :
    Relation.ReflTransGen (Lasting ground node neighbors relinks) owner other := by
  have stored := mem_linksAt.mpr link
  by_cases member : owner ∈ neighbors
  · by_cases kept : other ∈ relinks owner
    · exact Relation.ReflTransGen.single ((lasting_neighbor isOld member).mpr kept)
    · rcases safe.dropped owner member other stored kept with ⟨through, isKept, path⟩
      exact Relation.ReflTransGen.head ((lasting_neighbor isOld member).mpr isKept) path
  · apply Relation.ReflTransGen.single
    simp only [Lasting, if_neg isOld, if_neg member]
    exact stored

/-- The new node joins what the old nodes could reach of each other. -/
theorem LosesNothing.joint {count : Nat} (sound : ground.Sound count) (missing : ¬ ground.Has node)
    (joint : ground.Joint) (some : neighbors ≠ []) (has : ∀ neighbor ∈ neighbors, ground.Has neighbor)
    {first second : Nat}
    (hasFirst : first = node ∨ ground.Has first) (hasSecond : second = node ∨ ground.Has second) :
    Relation.ReflTransGen (Lasting ground node neighbors relinks) first second := by
  have apartFrom : ∀ other, ground.Has other → other ≠ node := fun other isThere same =>
    missing (same ▸ isThere)
  have old : ∀ other further, ground.Has other → ground.Reach other further →
      Relation.ReflTransGen (Lasting ground node neighbors relinks) other further := by
    intro other further isThere path
    induction path with
    | refl => exact Relation.ReflTransGen.refl
    | tail before link inductionHypothesis =>
        exact inductionHypothesis.trans (safe.link (apartFrom _ (sound.reach_has isThere before)) link)
  rcases safe.joined some with ⟨owner, isNeighbor, keeps⟩
  have hasOwner := has owner isNeighbor
  have back : Lasting ground node neighbors relinks owner node :=
    (lasting_neighbor (apartFrom owner hasOwner) isNeighbor).mpr keeps
  have there : Lasting ground node neighbors relinks node owner := lasting_node.mpr isNeighbor
  rcases hasFirst with isNode | hasFirst
  · rcases hasSecond with alsoNode | hasSecond
    · rw [isNode, alsoNode]
    · rw [isNode]
      exact Relation.ReflTransGen.head there (old owner second hasOwner (joint owner second hasOwner hasSecond))
  · rcases hasSecond with isNode | hasSecond
    · rw [isNode]
      exact (old first owner hasFirst (joint first owner hasFirst hasOwner)).tail back
    · exact old first second hasFirst (joint first second hasFirst hasSecond)

end Keeping

end HNSW
end VectorSearch
