import VectorSearch.Filtering
import VectorSearch.Index.Hnsw

namespace VectorSearch

/-!
# One partition of the data

`Shard` in `cluster.py`: an HNSW index with each vector's global id and payload
text, and the filtered search over them.

What later writes and searches depend on is the shard's `Contents`.  The beam
width of searches and the payload index are left out of it: the first is a
setting of the query side, the second a cache of the payloads.
-/

/-- `EXACT_ADVANTAGE`. -/
def exactAdvantage : Nat := 100

/-- The parameters `DurableShard` and `Shard` hand to `HNSW`.  The generator
starts in the state `default_rng` gives for the seed, so two shards opened with
the same parameters draw the same levels.  A seed is given: `seed=None`, with
which the generator starts from entropy of the system, is left out. -/
structure HnswParams where
  M : Nat
  efConstruction : Nat
  efSearch : Option Nat
  seed : Nat
  neighborSelection : NeighborSelection

/-- The default `ef_search` of `HNSW.__init__`. -/
def defaultEfSearch : Nat := 50

structure Shard (F G : Type) where
  index : HNSW F G
  globalIds : List Int
  payloads : List String
  payloadIndex : PayloadIndex

/-- What a shard holds: its graph, global ids and payload texts. -/
structure Contents (F G : Type) where
  graph : Graph F G
  globalIds : List Int
  payloads : List String

namespace Shard

variable {F D G : Type}

def contents (shard : Shard F G) : Contents F G :=
  ⟨shard.index.toGraph, shard.globalIds, shard.payloads⟩

/-- `Shard(**hnsw_params)`. -/
def init (np : Numpy F D G) (params : HnswParams) : Shard F G where
  index := HNSW.init params.M params.efConstruction (params.efSearch.getD defaultEfSearch)
    params.neighborSelection (np.defaultRng params.seed)
  globalIds := []
  payloads := []
  payloadIndex := PayloadIndex.init

/-- `len(shard)`. -/
def size (shard : Shard F G) : Nat := shard.globalIds.length

/-- `max(ids, default=-1)`. -/
def largestId : List Int → Int
  | [] => -1
  | first :: rest => rest.foldl max first

/-- `next_global_id`. -/
def nextGlobalId (shard : Shard F G) : Int := largestId shard.globalIds + 1

variable [LinearOrder D] (np : Numpy F D G)

/-! ## Writing -/

/-- `add`.  An exception of the index leaves ids and payloads as they were. -/
def add (globalId : Int) (vector : List F) (payload : String) :
    EStateM Error (Shard F G) Unit := fun shard =>
  match HNSW.insert np vector shard.index.toGraph with
  | .ok _ graph =>
      .ok () { shard with
        index := { shard.index with toGraph := graph }
        globalIds := shard.globalIds ++ [globalId]
        payloads := shard.payloads ++ [payload] }
  | .error error graph =>
      .error error { shard with index := { shard.index with toGraph := graph } }

/-- `payloads or [""] * len(global_ids)`. -/
def payloadsOrEmpty (count : Nat) (payloads : List String) : List String :=
  if payloads = [] then List.replicate count "" else payloads

/-- The loop of `add_batch` over the zipped triples. -/
def addAll : List (Int × List F × String) → EStateM Error (Shard F G) Unit
  | [] => pure ()
  | (globalId, vector, payload) :: rest => do
      add np globalId vector payload
      addAll rest

/-- `add_batch`. -/
def addBatch (globalIds : List Int) (vectors : List (List F)) (payloads : List String) :
    EStateM Error (Shard F G) Unit :=
  addAll np (globalIds.zip (vectors.zip (payloadsOrEmpty globalIds.length payloads)))

/-! ## Searching -/

/-- `filter_strategy`: whether a filtered search compares all matches. -/
def filterStrategyExact (found size : Nat) (ef : Int) : Bool :=
  decide ((found * found : Int) ≤ exactAdvantage * ef * size)

/-- A search, with the shard after it: a filtered one brings the payload index
up to date. -/
abbrev Searching (F G α : Type) := EStateM Error (Shard F G) α

/-- `self.payload_index.catch_up(self.payloads)`. -/
def catchUpIndex : Searching F G Unit := fun shard =>
  match PayloadIndex.catchUp shard.payloads shard.payloadIndex with
  | .ok _ payloadIndex => .ok () { shard with payloadIndex }
  | .error error payloadIndex => .error error { shard with payloadIndex }

def asking {α : Type} : Except Error α → Searching F G α
  | .ok value => pure value
  | .error error => throw error

/-- `np.flatnonzero`. -/
def flatnonzero (mask : List Bool) : List Nat :=
  (List.range mask.length).filter fun i => mask[i]? = some true

/-- `_nearest` with a filter. -/
def nearestMatching (query : List F) (k : Int) (filter : Filter) :
    Searching F G (List (D × Nat)) := do
  catchUpIndex
  let shard ← get
  let allowed ← asking (shard.payloadIndex.matching filter shard.size)
  let found := allowed.count true
  if found = 0 then
    return []
  if filterStrategyExact found shard.size (max (shard.index.efSearch : Int) k) then
    asking (HNSW.exactAmong np shard.index query (flatnonzero allowed) k)
  else
    asking (HNSW.searchWithDistances np shard.index query k (some allowed))

/-- `_nearest`: the top `k` as `(distance, local id)` pairs. -/
def nearest (query : List F) (k : Int) (filter : Option Filter) :
    Searching F G (List (D × Nat)) := do
  match filter.filter fun filter => !filter.entries.isEmpty with
  | none => do
      let shard ← get
      asking (HNSW.searchWithDistances np shard.index query k none)
  | some filter => nearestMatching np query k filter

def idAt (shard : Shard F G) (localId : Nat) : Except Error Int :=
  match shard.globalIds[localId]? with
  | some globalId => .ok globalId
  | none => .error .indexError

def payloadAt (shard : Shard F G) (localId : Nat) : Except Error String :=
  match shard.payloads[localId]? with
  | some payload => .ok payload
  | none => .error .indexError

/-- `search`. -/
def search (query : List F) (k : Int) (filter : Option Filter) :
    Searching F G (List (D × Int)) := do
  let found ← nearest np query k filter
  let shard ← get
  asking (found.mapM fun hit => do return (hit.1, ← idAt shard hit.2))

/-- `search_with_payloads`. -/
def searchWithPayloads (query : List F) (k : Int) (filter : Option Filter) :
    Searching F G (List (D × Int × String)) := do
  let found ← nearest np query k filter
  let shard ← get
  asking (found.mapM fun hit => do return (hit.1, ← idAt shard hit.2, ← payloadAt shard hit.2))

end Shard
end VectorSearch
