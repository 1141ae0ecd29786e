import VectorSearch.Cluster.Routing

namespace VectorSearch

/-!
# The in-process coordinator

`Coordinator` in `cluster.py`.  Its shards are asked one after another; with a
thread for each shard the results are the same.
-/

/-- The attributes of a `Coordinator`. -/
structure Coordinator (G : Type) where
  size : Nat
  shards : List (Shard Float32Bits G)

namespace Coordinator

variable {D G : Type}

/-- The parameters of the shard at a position: the seeds count up. -/
def shardParams (params : HnswParams) (position : Nat) : HnswParams :=
  { params with seed := params.seed + position }

/-- `Coordinator(num_shards, seed=seed, **hnsw_params)`. -/
def init (np : Numpy Float32Bits D G) (numShards : Nat) (params : HnswParams) : Coordinator G :=
  ⟨0, (List.range numShards).map fun position => Shard.init np (shardParams params position)⟩

variable [LinearOrder D] (np : Numpy Float32Bits D G)

/-- Give every shard its batch, until one raises. -/
def addBatches : List (Shard Float32Bits G × RoutedBatch Float32Bits) →
    List (Shard Float32Bits G) × Option Error
  | [] => ([], none)
  | (shard, batch) :: rest =>
      match Shard.addBatch np batch.globalIds batch.vectors batch.payloads shard with
      | .error error shard => (shard :: rest.map Prod.fst, some error)
      | .ok _ shard =>
          let (shards, error) := addBatches rest
          (shard :: shards, error)

/-- The batches of one call to `add`. -/
def batchesOf (vectors : List (List Float32Bits)) (payloads : Option (List Payload)) (name : Option String)
    (numShards : Nat) (startId : Int) : Except Error (List (RoutedBatch Float32Bits)) := do
  let encoded ← encodePayloads (← tagNamespace payloads vectors.length name) vectors.length
  match name with
  | none => routeRoundRobin vectors numShards startId encoded
  | some name => return routeToShard vectors numShards (← shardForNamespace name numShards) startId encoded

/-- `add`. -/
def add (vectors : List (List Float32Bits)) (payloads : Option (List Payload)) (name : Option String) :
    EStateM Error (Coordinator G) Unit := fun coordinator =>
  match batchesOf vectors payloads name coordinator.shards.length coordinator.size with
  | .error error => .error error coordinator
  | .ok batches =>
      let size := coordinator.size + vectors.length
      match addBatches np (coordinator.shards.zip batches) with
      | (shards, none) => .ok () ⟨size, shards⟩
      | (shards, some error) => .error error ⟨size, shards⟩

/-- One shard's answer to a query. -/
def ask (query : List Float32Bits) (k : Int) (withPayloads : Bool) (filter : Option Filter) :
    Shard.Searching Float32Bits G (List (Scored D)) := do
  if withPayloads then
    let hits ← Shard.searchWithPayloads np query k filter
    return hits.map fun hit => ⟨hit.1, hit.2.1, hit.2.2⟩
  else
    let hits ← Shard.search np query k filter
    return hits.map fun hit => ⟨hit.1, hit.2, ""⟩

/-- The answers of the shards at the given positions. -/
def askShards (query : List Float32Bits) (k : Int) (withPayloads : Bool) (filter : Option Filter) :
    List Nat → EStateM Error (Coordinator G) (List (List (Scored D)))
  | [] => pure []
  | target :: targets => do
      let coordinator ← get
      match coordinator.shards[target]? with
      | none => throw .indexError
      | some shard =>
          match ask np query k withPayloads filter shard with
          | .error error shard => do
              set { coordinator with shards := coordinator.shards.set target shard }
              throw error
          | .ok answer shard => do
              set { coordinator with shards := coordinator.shards.set target shard }
              let answers ← askShards query k withPayloads filter targets
              return answer :: answers

/-- `_scatter`: every shard that can hold a match gives its full local top-k. -/
def scatter (query : List Float32Bits) (k : Int) (withPayloads : Bool) (filter : Payload)
    (name : Option String) : EStateM Error (Coordinator G) (List (List (Scored D))) := do
  let coordinator ← get
  match planQuery filter name coordinator.shards.length with
  | .error error => throw error
  | .ok (filter, targets) => askShards np query k withPayloads filter targets

/-- `search`. -/
def search (query : List Float32Bits) (k : Int) (filter : Payload) (name : Option String) :
    EStateM Error (Coordinator G) (List Int) := do
  let perShard ← scatter np query k false filter name
  return mergeTopK perShard k

/-- `search_hits`. -/
def searchHits (query : List Float32Bits) (k : Int) (filter : Payload) (name : Option String) :
    EStateM Error (Coordinator G) (List (Hit D)) := do
  let perShard ← scatter np query k true filter name
  match hitsOf (mergeTopKScored perShard k) with
  | .ok hits => return hits
  | .error error => throw error

end Coordinator
end VectorSearch
