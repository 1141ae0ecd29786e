import Mathlib.Algebra.GroupWithZero.Nat
import Mathlib.Order.WithBot
import Mathlib.Data.List.Sort
import VectorSearch.Exceptions
import VectorSearch.Lib.Dict
import VectorSearch.Lib.Heapq

namespace VectorSearch

/-!
# The HNSW index

The graph of `hnsw.py`: one dictionary of neighbour lists per layer, built by
`insert` and read by the greedy descent and the two beam searches.

Scalars, distances and the random generator are parameters.  The arithmetic is
numpy's, and numpy may round the same inner product differently depending on
the matrix it is evaluated in, so a single product, a matrix-vector product and
a matrix-matrix product are three separate operations here, with no law
relating their values.  Only what a caller can observe of shapes is assumed.
Distances come from a linear order, so NaN is left out; see `floatDescend` for
what it does to the greedy descent.
-/

/-- The numpy operations the index is built on. -/
structure Numpy (F D G : Type) where
  /-- `_normalize`: the vector over its norm, or the vector itself when that is zero. -/
  normalize : List F → List F
  normalize_length : ∀ vector, (normalize vector).length = vector.length
  /-- The rows over their norms, for an array read back from an old snapshot. -/
  normalizeRows : List (List F) → List (List F)
  /-- `float(1.0 - row @ query)` for one stored row. -/
  product : List F → List F → D
  /-- `1.0 - rows @ query`. -/
  products : List (List F) → List F → List D
  products_length : ∀ rows query, (products rows query).length = rows.length
  /-- `1.0 - rows @ rows.T`, row by row. -/
  table : List (List F) → List (List D)
  table_length : ∀ rows, (table rows).length = rows.length
  table_row : ∀ rows, ∀ row ∈ table rows, row.length = rows.length
  /-- `int(-np.log(rng.random()) * mL)` with `mL = 1 / log(M)`, and the generator
  afterwards; `none` when the product is not finite. -/
  drawLevel : Nat → G → Option Nat × G
  /-- The state `np.random.default_rng(seed)` starts in. -/
  defaultRng : Nat → G
  /-- All positions of the array, the `k` smallest entries first. -/
  argpartition : List D → Int → Except Error (List Nat)

inductive NeighborSelection where
  | heuristic
  | closest
  deriving DecidableEq, Repr

/-- One layer: each node's neighbour list. -/
abbrev Layer := Dict Nat (List Nat)

/-- The part of an index that `insert` reads and writes. -/
structure Graph (F G : Type) where
  M : Nat
  efConstruction : Nat
  neighborSelection : NeighborSelection
  rng : G
  /-- `_data[:_count]`: the unit vectors in use, one row per node. -/
  data : List (List F)
  graph : List Layer
  entryPoint : Option Nat
  topLayer : Int

/-- An index: the graph and the beam width of its searches. -/
structure HNSW (F G : Type) extends Graph F G where
  efSearch : Nat

namespace HNSW

variable {F D G : Type}

/-! ## Construction and storage -/

def init (M efConstruction efSearch : Nat) (neighborSelection : NeighborSelection) (rng : G) : HNSW F G :=
  { M, efConstruction, neighborSelection, rng, data := [], graph := [], entryPoint := none,
    topLayer := -1, efSearch }

/-- Assign a vector to a row of the given width: the lengths agree, or the
vector has one entry and numpy spreads it over the row. -/
def assignRow (width : Nat) (vector : List F) : Except Error (List F) :=
  if vector.length = width then .ok vector
  else
    match vector with
    | [value] => .ok (List.replicate width value)
    | _ => .error .shape

/-- The row a vector is stored as.  The first row fixes the width. -/
def newRow (data : List (List F)) (unit : List F) : Except Error (List F) :=
  match data with
  | [] => .ok unit
  | first :: _ => assignRow first.length unit

/-- A computation that only reads the index. -/
def reading {α : Type} : Except Error α → EStateM Error (Graph F G) α
  | .ok value => pure value
  | .error error => throw error

/-- `_append`.  The spare capacity of the array is not observable. -/
def append (unit : List F) : EStateM Error (Graph F G) Nat := do
  let index ← get
  let row ← reading (newRow index.data unit)
  set { index with data := index.data ++ [row] }
  return index.data.length

/-! ## Distances -/

/-- `rows @ query` needs as many columns as the query has entries. -/
def fits (rows : List (List F)) (query : List F) : Bool :=
  rows.all fun row => row.length = query.length

/-- `self._data[node]`. -/
def rowAt (data : List (List F)) (node : Nat) : Except Error (List F) :=
  match data[node]? with
  | some row => .ok row
  | none => .error .indexError

/-- `self._data[ids]`. -/
def rowsAt (data : List (List F)) (ids : List Nat) : Except Error (List (List F)) :=
  ids.mapM (rowAt data)

variable (np : Numpy F D G)

def distanceTo (data : List (List F)) (query : List F) (node : Nat) : Except Error D := do
  let row ← rowAt data node
  if fits [row] query then .ok (np.product row query) else .error .shape

def distancesTo (data : List (List F)) (query : List F) (nodes : List Nat) :
    Except Error (List D) := do
  let rows ← rowsAt data nodes
  if fits rows query then .ok (np.products rows query) else .error .shape

/-- A dictionary lookup `adjacency[node]`. -/
def neighborsOf (layer : Layer) (node : Nat) : Except Error (List Nat) :=
  match layer.get? node with
  | some neighbors => .ok neighbors
  | none => .error .keyError

/-- A list index `self.graph[layer]`. -/
def layerAt (graph : List Layer) (layer : Nat) : Except Error Layer :=
  match graph[layer]? with
  | some adjacency => .ok adjacency
  | none => .error .indexError

/-- The number of links stored in a layer; it bounds every walk below. -/
def linkCount (layer : Layer) : Nat :=
  (layer.entries.map fun entry => entry.2.length).sum

variable [LinearOrder D]

/-! ## Greedy descent -/

/-- `np.argmin`: the first smallest entry, with its position. -/
def argmin : List D → Option (Nat × D)
  | [] => none
  | first :: rest =>
      match argmin rest with
      | none => some (0, first)
      | some (position, least) => if first ≤ least then some (0, first) else some (position + 1, least)

/-- The `while True` loop of `_greedy_descend`, from a node and the distance
it was entered with.  `atLeast` is `>=` on distances. -/
def greedyWalk (atLeast : D → D → Bool) (data : List (List F)) (adjacency : Layer) (query : List F) :
    Nat → Nat → D → Except Error Nat
  | 0, _, _ => .error .outOfFuel
  | fuel + 1, current, currentDist => do
      let neighbors ← neighborsOf adjacency current
      if neighbors = [] then
        return current
      let dists ← distancesTo np data query neighbors
      match argmin dists with
      | none => .error .shape
      | some (best, dist) =>
          if atLeast dist currentDist then return current
          else
            match neighbors[best]? with
            | none => .error .indexError
            | some next => greedyWalk atLeast data adjacency query fuel next dist

/-- `_greedy_descend`, where the distances are ordered.  `floatDescend` is the same
loop when a distance can be NaN. -/
def greedyDescend (data : List (List F)) (graph : List Layer) (query : List F) (entry layer : Nat) :
    Except Error Nat := do
  let currentDist ← distanceTo np data query entry
  let adjacency ← layerAt graph layer
  greedyWalk np (fun left right => decide (right ≤ left)) data adjacency query
    (linkCount adjacency + 1) entry currentDist

/-! ## Beam search -/

/-- Tuple order of `(distance, id)`: the candidates heap. -/
def closer (left right : D × Nat) : Bool :=
  left.1 < right.1 || (left.1 = right.1 && left.2 < right.2)

/-- Tuple order of `(-distance, id)`: the results heap, farthest node on top.
The heap holds the distance itself. -/
def farther (left right : D × Nat) : Bool :=
  right.1 < left.1 || (left.1 = right.1 && left.2 < right.2)

/-- The local variables of a beam search. -/
structure Beam (D : Type) where
  visited : List Nat
  candidates : List (D × Nat)
  results : List (D × Nat)

/-- `len(results) < ef or d < -results[0][0]`. -/
def admits (ef : Nat) (results : List (D × Nat)) (d : D) : Except Error Bool :=
  if results.length < ef then .ok true
  else
    match results.head? with
    | none => .error .indexError
    | some worst => .ok (decide (d < worst.1))

/-- Push onto the results, and drop the farthest one once there are too many. -/
def pushResult (ef : Nat) (results : List (D × Nat)) (item : D × Nat) : Except Error (List (D × Nat)) :=
  if (Heapq.heappush farther results item).length > ef then
    match Heapq.heappop farther (Heapq.heappush farther results item) with
    | none => .error .indexError
    | some (_, rest) => .ok rest
  else .ok (Heapq.heappush farther results item)

/-- The body of the inner `for` loop, for one fresh neighbour. -/
def consider (ef : Nat) (ok : Bool) (beam : Beam D) (d : D) (neighbor : Nat) :
    Except Error (Beam D) := do
  if ← admits ef beam.results d then
    let results ← (if ok then pushResult ef beam.results (d, neighbor) else .ok beam.results)
    return { beam with candidates := Heapq.heappush closer beam.candidates (d, neighbor), results }
  else return beam

/-- The inner `for` loop over the fresh neighbours and their distances. -/
def considerAll (ef : Nat) (allowed : Nat → Except Error Bool) :
    List (Nat × D) → Beam D → Except Error (Beam D)
  | [], beam => .ok beam
  | (neighbor, d) :: rest, beam => do
      let ok ← allowed neighbor
      let next ← consider ef ok beam d neighbor
      considerAll ef allowed rest next

/-- The test that ends the loop early: the closest candidate is farther than
the worst result.  A filtered search makes it only once the beam is `full`. -/
def exhausted (full : Beam D → Bool) (beam : Beam D) (distC : D) : Except Error Bool :=
  if full beam then
    match beam.results.head? with
    | none => .error .indexError
    | some worst => .ok (decide (worst.1 < distC))
  else .ok false

/-- The `while candidates` loop. -/
def beamLoop (data : List (List F)) (adjacency : Layer) (query : List F) (ef : Nat)
    (full : Beam D → Bool) (allowed : Nat → Except Error Bool) :
    Nat → Beam D → Except Error (Beam D)
  | 0, _ => .error .outOfFuel
  | fuel + 1, beam =>
      match Heapq.heappop closer beam.candidates with
      | none => .ok beam
      | some ((distC, c), candidates) => do
          if ← exhausted full beam distC then
            return { beam with candidates }
          let neighbors ← neighborsOf adjacency c
          let fresh := neighbors.filter fun n => !beam.visited.contains n
          if fresh = [] then
            beamLoop data adjacency query ef full allowed fuel { beam with candidates }
          else
            let dists ← distancesTo np data query fresh
            let opened : Beam D := { beam with visited := beam.visited ++ fresh, candidates }
            let next ← considerAll ef allowed (fresh.zip dists) opened
            beamLoop data adjacency query ef full allowed fuel next

/-- `_search_layer_with_distances`. -/
def searchLayerWithDistances (data : List (List F)) (graph : List Layer) (query : List F)
    (entry layer ef : Nat) : Except Error (List (D × Nat)) := do
  let dEntry ← distanceTo np data query entry
  let adjacency ← layerAt graph layer
  let beam ← beamLoop np data adjacency query ef (fun _ => true) (fun _ => .ok true)
    (linkCount adjacency + 2) ⟨[entry], [(dEntry, entry)], [(dEntry, entry)]⟩
  return beam.results

/-- A lookup in the boolean array `allowed`. -/
def allowedAt (allowed : List Bool) (node : Nat) : Except Error Bool :=
  match allowed[node]? with
  | some ok => .ok ok
  | none => .error .indexError

/-- `_search_layer_filtered`. -/
def searchLayerFiltered (data : List (List F)) (graph : List Layer) (query : List F)
    (entry ef : Nat) (allowed : List Bool) : Except Error (List (D × Nat)) := do
  let dEntry ← distanceTo np data query entry
  let entryAllowed ← allowedAt allowed entry
  let adjacency ← layerAt graph 0
  let beam ← beamLoop np data adjacency query ef (fun beam => decide (ef ≤ beam.results.length))
    (allowedAt allowed) (linkCount adjacency + 2)
    ⟨[entry], [(dEntry, entry)], if entryAllowed then [(dEntry, entry)] else []⟩
  return beam.results

/-! ## Neighbour selection -/

/-- Stable order by distance. -/
def byDistance (scored : List (D × Nat)) : List (D × Nat) :=
  scored.insertionSort fun left right => left.1 ≤ right.1

/-- The scan of the heuristic, from position `i`: candidates in order of
distance, each with its row of the candidate-to-candidate table. -/
def keepDiverse (m : Nat) :
    Nat → List (D × Nat × List D) → List (WithTop D) → List Nat → List Nat
  | _, [], _, kept => kept
  | i, (toBase, id, between) :: rest, nearestKept, kept =>
      match nearestKept[i]? with
      | none => kept
      | some nearest =>
          if (toBase : WithTop D) < nearest then
            if (kept ++ [id]).length = m then kept ++ [id]
            else
              keepDiverse m (i + 1) rest
                (List.zipWith (fun (old : WithTop D) (new : D) => min old new) nearestKept between)
                (kept ++ [id])
          else keepDiverse m (i + 1) rest nearestKept kept

/-- `_select_neighbors`. -/
def selectNeighbors (selection : NeighborSelection) (data : List (List F))
    (candidateIds : List Nat) (dists : List D) (m : Nat) : Except Error (List Nat) := do
  let order := byDistance (dists.zip candidateIds)
  if order.length ≤ m ∨ selection = .closest then
    return (order.take m).map Prod.snd
  let ids := order.map Prod.snd
  let vectors ← rowsAt data ids
  let scan := List.zipWith (fun scored row => (scored.1, scored.2, row)) order (np.table vectors)
  return keepDiverse m 0 scan (List.replicate ids.length ⊤) []

/-! ## Insertion -/

/-- The values of `range(start, stop, -1)`, none of them negative. -/
def rangeDown (start stop : Int) : List Nat :=
  (List.range (start - stop).toNat).map fun i : Nat => (start - i).toNat

/-- `while len(self.graph) <= level: self.graph.append({})`. -/
def growGraph (level : Nat) (graph : List Layer) : List Layer :=
  graph ++ List.replicate (level + 1 - graph.length) Dict.empty

/-- Set one node's neighbour list in one layer. -/
def setNeighbors (graph : List Layer) (layer node : Nat) (neighbors : List Nat) : List Layer :=
  graph.modify layer fun adjacency => adjacency.set node neighbors

/-- Register a node with no links in the layers `0..level`. -/
def registerNode (level node : Nat) (graph : List Layer) : List Layer :=
  (List.range (level + 1)).foldl (fun graph layer => setNeighbors graph layer node []) graph

/-- The level draw of `_random_level`; the generator advances either way. -/
def randomLevel : EStateM Error (Graph F G) Nat := do
  let index ← get
  set { index with rng := (np.drawLevel index.M index.rng).2 }
  match (np.drawLevel index.M index.rng).1 with
  | some level => return level
  | none => throw .overflow

/-- `self.graph[layer][node].append(other)`, with the list afterwards. -/
def appendLink (layer node other : Nat) : EStateM Error (Graph F G) (List Nat) := do
  let index ← get
  let links ← reading (layerAt index.graph layer >>= (neighborsOf · node))
  set { index with graph := setNeighbors index.graph layer node (links ++ [other]) }
  return links ++ [other]

/-- The selection among the links of a node that has too many. -/
def keptLinks (selection : NeighborSelection) (data : List (List F)) (maxConn node : Nat)
    (links : List Nat) : Except Error (List Nat) := do
  let base ← rowAt data node
  let dists ← distancesTo np data base links
  selectNeighbors np selection data links dists maxConn

/-- Cut the links of a node that has too many. -/
def cutLinks (layer maxConn node : Nat) (links : List Nat) : EStateM Error (Graph F G) Unit := do
  let index ← get
  let kept ← reading (keptLinks np index.neighborSelection index.data maxConn node links)
  set { index with graph := setNeighbors index.graph layer node kept }

/-- Link the new node with one selected neighbour, in both directions, and keep
the neighbour's degree bounded. -/
def connect (node layer maxConn neighbor : Nat) : EStateM Error (Graph F G) Unit := do
  let _ ← appendLink layer node neighbor
  let links ← appendLink layer neighbor node
  if links.length > maxConn then
    cutLinks np layer maxConn neighbor links

/-- `max_conn`: layer 0 gets a higher cap. -/
def maxConn (M layer : Nat) : Nat := if layer = 0 then M * 2 else M

/-- What a new node finds in one layer, closest first, and the neighbours it
selects among that. -/
def findNeighbors (index : Graph F G) (unit : List F) (entry layer : Nat) :
    Except Error (List (D × Nat) × List Nat) := do
  let found ← searchLayerWithDistances np index.data index.graph unit entry layer index.efConstruction
  let scored := byDistance found
  let neighbors ← selectNeighbors np index.neighborSelection index.data
    (scored.map Prod.snd) (scored.map Prod.fst) index.M
  return (scored, neighbors)

/-- One round of phase B: find neighbours in one layer and connect.  Returns
the entry for the layer below. -/
def insertInLayer (unit : List F) (node entry layer : Nat) : EStateM Error (Graph F G) Nat := do
  let index ← get
  let (scored, neighbors) ← reading (findNeighbors np index unit entry layer)
  neighbors.forM (connect np node layer (maxConn index.M layer))
  match scored with
  | [] => throw .indexError
  | (_, nearest) :: _ => return nearest

/-- The part of `insert` that links a registered node into its layers. -/
def wire (unit : List F) (node level : Nat) : EStateM Error (Graph F G) Unit := do
  let index ← get
  match index.entryPoint with
  | none => set { index with entryPoint := some node, topLayer := level }
  | some entryPoint =>
      -- Phase A: descend the layers above this node's level.
      let entry ← reading ((rangeDown index.topLayer level).foldlM
        (greedyDescend np index.data index.graph unit) entryPoint)
      -- Phase B: from this node's level down to 0.
      let _ ← (rangeDown (min level index.topLayer) (-1)).foldlM (insertInLayer np unit node) entry
      if index.topLayer < level then
        modify fun index => { index with topLayer := level, entryPoint := some node }

/-- The first steps of `insert`: store the row, draw the level and register the
new node, without links.  Returns the node and its level. -/
def register (vector : List F) : EStateM Error (Graph F G) (Nat × Nat) := do
  let node ← append (np.normalize vector)
  let level ← randomLevel np
  modify fun index => { index with graph := registerNode level node (growGraph level index.graph) }
  return (node, level)

/-- `insert`. -/
def insert (vector : List F) : EStateM Error (Graph F G) Unit := do
  let (node, level) ← register np vector
  wire np (np.normalize vector) node level

/-- `build`. -/
def build (vectors : List (List F)) : EStateM Error (Graph F G) Unit :=
  vectors.forM (insert np)

/-! ## Queries -/

/-- Python's `values[:k]`. -/
def sliceTo {α : Type} (values : List α) (k : Int) : List α :=
  if 0 ≤ k then values.take k.toNat else values.take (values.length - (-k).toNat)

/-- `sorted` on `(distance, id)` pairs. -/
def sortedPairs (scored : List (D × Nat)) : List (D × Nat) :=
  scored.insertionSort fun left right =>
    left.1 < right.1 ∨ (left.1 = right.1 ∧ left.2 ≤ right.2)

/-- The node the layer-0 beam of a search starts at. -/
def layerZeroEntry (index : Graph F G) (query : List F) (entryPoint : Nat) : Except Error Nat :=
  (rangeDown index.topLayer 0).foldlM (greedyDescend np index.data index.graph query) entryPoint

/-- `search_with_distances`. -/
def searchWithDistances (index : HNSW F G) (query : List F) (k : Int)
    (allowed : Option (List Bool)) : Except Error (List (D × Nat)) :=
  match index.entryPoint with
  | none => .ok []
  | some entryPoint => do
      let query := np.normalize query
      let entry ← layerZeroEntry np index.toGraph query entryPoint
      let scored ←
        match allowed with
        | none => searchLayerWithDistances np index.data index.graph query entry 0 index.efSearch
        | some allowed =>
            searchLayerFiltered np index.data index.graph query entry
              (max (index.efSearch : Int) k).toNat allowed
      return sliceTo (sortedPairs scored) k

/-- `exact_among`. -/
def exactAmong (index : HNSW F G) (query : List F) (nodeIds : List Nat) (k : Int) :
    Except Error (List (D × Nat)) := do
  if nodeIds = [] then
    return []
  let query := np.normalize query
  let dists ← distancesTo np index.data query nodeIds
  let scored ←
    if k < dists.length then do
      let nearest ← np.argpartition dists k
      (sliceTo nearest k).mapM fun position =>
        match (dists.zip nodeIds)[position]? with
        | some pair => .ok pair
        | none => .error .indexError
    else pure (dists.zip nodeIds)
  return sliceTo (sortedPairs scored) k

end HNSW
end VectorSearch
