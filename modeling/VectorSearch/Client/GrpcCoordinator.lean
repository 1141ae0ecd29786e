import VectorSearch.Cluster.Routing
import VectorSearch.Lib.Chunks
import VectorSearch.Lib.RemoteProgram
import VectorSearch.Server.Messages

namespace VectorSearch

/-!
# The networked coordinator

`GrpcCoordinator` in `client.py`, as client code over the calls it makes.  A
call that is sent with `future` is two calls here: one that sends it and gives
a handle, and one that waits for its result.  Reading the clock is a call as
well.
-/

/-! ## Calls -/

/-- `grpc.RpcError`: its status code and its details. -/
structure RpcError where
  code : StatusCode
  details : String
  deriving DecidableEq

def RpcError.toError (error : RpcError) : Error := .rpc error.code error.details

/-- `RETRYABLE`: this server cannot answer right now. -/
def RpcError.retryable (error : RpcError) : Bool :=
  error.code == .unavailable || error.code == .deadlineExceeded

/-- A replica: its shard and its place in the group. -/
structure ReplicaId where
  shard : Nat
  place : Nat
  deriving DecidableEq

inductive Rpc where
  | status (replica : ReplicaId)
  | startAdd (replica : ReplicaId) (request : AddRequest)
  | finishAdd (handle : Nat)
  | syncFrom (replica : ReplicaId) (peer : String)
  | startSearch (replica : ReplicaId) (request : SearchRequest)
  | finishSearch (handle : Nat)
  | monotonic

/-- What a call is answered with. -/
def Rpc.Answer (D : Type) : Rpc → Type
  | status _ => Except RpcError StatusResponse
  | startAdd _ _ => Nat
  | finishAdd _ => Except RpcError AddResponse
  | syncFrom _ _ => Except RpcError SyncFromResponse
  | startSearch _ _ => Nat
  | finishSearch _ => Except RpcError (List (HitMessage D))
  | monotonic => Int

/-! ## The coordinator's state -/

/-- What is known of a shard's last write: nothing yet, that its writes are not
numbered, or the seq all replicas agree on. -/
inductive Position where
  | unknown
  | unchecked
  | agreed (seq : Nat)
  deriving DecidableEq

/-- `_Replica`. -/
structure ReplicaStub where
  address : String
  peer : String
  downUntil : Int

structure GrpcCoordinator where
  replicas : List (List ReplicaStub)
  retryAfter : Int
  size : Int
  shardSizes : List Nat
  failovers : Nat
  nextReplica : List Nat
  lastSeqs : List Position

/-- Client code of the coordinator. -/
abbrev Coordinating (D α : Type) := Client Rpc (Rpc.Answer D) Error GrpcCoordinator α

namespace GrpcCoordinator

/-- `GrpcCoordinator(shards, peers=peers)`. -/
def init (shards : List (List String)) (peers : Option (List (List (Option String)))) (retryAfter : Int) :
    GrpcCoordinator :=
  let peers := peers.getD (shards.map fun group => group.map fun _ => none)
  let replicas := (shards.zip peers).map fun group =>
    (group.1.zip group.2).map fun stub => ⟨stub.1, stub.2.getD stub.1, 0⟩
  { replicas, retryAfter, size := 0, shardSizes := replicas.map fun _ => 0, failovers := 0,
    nextReplica := replicas.map fun _ => 0, lastSeqs := replicas.map fun _ => .unknown }

def numShards (coordinator : GrpcCoordinator) : Nat := coordinator.replicas.length

/-- The replicas of a shard, in order. -/
def replicasOf (coordinator : GrpcCoordinator) (shard : Nat) : List ReplicaId :=
  (List.range (coordinator.replicas[shard]?.getD []).length).map fun place => ⟨shard, place⟩

def stub (coordinator : GrpcCoordinator) (replica : ReplicaId) : ReplicaStub :=
  ((coordinator.replicas[replica.shard]?.getD [])[replica.place]?).getD ⟨"", "", 0⟩

theorem replicasOf_congr {first second : GrpcCoordinator} (same : first.replicas = second.replicas)
    (shard : Nat) :
    first.replicasOf shard = second.replicasOf shard := by
  unfold replicasOf
  rw [same]

theorem stub_congr {first second : GrpcCoordinator} (same : first.replicas = second.replicas) (id : ReplicaId) :
    first.stub id = second.stub id := by
  unfold stub
  rw [same]

theorem replicasOf_shard (coordinator : GrpcCoordinator) (shard : Nat) :
    ∀ replica ∈ coordinator.replicasOf shard, replica.shard = shard := by
  intro replica member
  rcases List.mem_map.mp member with ⟨place, _, isReplica⟩
  rw [← isReplica]

theorem replicasOf_nodup (coordinator : GrpcCoordinator) (shard : Nat) :
    (coordinator.replicasOf shard).Nodup := by
  apply List.Nodup.map _ List.nodup_range
  intro left right same
  cases same
  rfl

/-- A replica the coordinator knows. -/
def Knows (coordinator : GrpcCoordinator) (id : ReplicaId) : Prop := id ∈ coordinator.replicasOf id.shard

theorem knows_of_mem {coordinator : GrpcCoordinator} {shard : Nat} {id : ReplicaId}
    (member : id ∈ coordinator.replicasOf shard) : coordinator.Knows id := by
  unfold Knows
  rw [replicasOf_shard _ _ _ member]
  exact member

theorem knows_shard {coordinator : GrpcCoordinator} {id : ReplicaId} (known : coordinator.Knows id) :
    id.shard < coordinator.numShards := by
  by_contra outside
  have absent : coordinator.replicas[id.shard]? = none := List.getElem?_eq_none (Nat.le_of_not_lt outside)
  rw [Knows, replicasOf, absent] at known
  exact absurd known List.not_mem_nil

def setLastSeq (coordinator : GrpcCoordinator) (shard : Nat) (position : Position) : GrpcCoordinator :=
  { coordinator with lastSeqs := coordinator.lastSeqs.set shard position }

/-- Forget what is known of the shards' write positions. -/
def forget (coordinator : GrpcCoordinator) : GrpcCoordinator :=
  { coordinator with lastSeqs := coordinator.replicas.map fun _ => .unknown }

variable {D : Type}

/-! ## Checking the shards -/

/-- The `Status` of each replica, until one fails. -/
def statusesOf : List ReplicaId → Coordinating D (List StatusResponse)
  | [] => pure []
  | replica :: rest => do
      match ← Client.call (Rpc.status replica) with
      | .error error => throw (RpcError.toError error)
      | .ok status => do
          let statuses ← statusesOf rest
          return status :: statuses

/-- `{replica.address: status.last_seq ...}`. -/
def seqsByAddress (addresses : List String) (statuses : List StatusResponse) : Dict String Nat :=
  (addresses.zip statuses).foldl (fun seqs entry => seqs.set entry.1 entry.2.lastSeq) Dict.empty

/-- What the statuses of a shard's replicas tell about its position. -/
def positionOf (shard : Nat) (addresses : List String) (statuses : List StatusResponse) :
    Except Error Position :=
  if !statuses.all StatusResponse.durable then .ok .unchecked
  else
    let seqs := seqsByAddress addresses statuses
    match seqs.entries.map Prod.snd with
    | [] => .error .emptySequence
    | first :: rest =>
        if rest.any (· ≠ first) then .error (.replicasOutOfSync shard seqs.entries) else .ok (.agreed first)

/-- One round of `_check_shards`. -/
def checkShard (shard : Nat) : Coordinating D PUnit := do
  let coordinator ← get
  if coordinator.lastSeqs[shard]? = some .unknown then do
    let statuses ← statusesOf (coordinator.replicasOf shard)
    modify fun coordinator =>
      { coordinator with size := (statuses.map StatusResponse.nextGlobalId).foldl max coordinator.size }
    let addresses := (coordinator.replicasOf shard).map fun replica => (coordinator.stub replica).address
    let position ← Client.lift (positionOf shard addresses statuses)
    modify fun coordinator => coordinator.setLastSeq shard position
  else pure ⟨⟩

/-- `_check_shards`. -/
def checkShards : Coordinating D PUnit := do
  let coordinator ← get
  (List.range coordinator.numShards).forM checkShard

/-! ## Writing -/

theorem le_foldl_max {lengths : List Nat} {start length : Nat} (member : length ∈ lengths ∨ length ≤ start) :
    length ≤ lengths.foldl max start := by
  induction lengths generalizing start with
  | nil => exact member.resolve_left List.not_mem_nil
  | cons first rest inductionHypothesis =>
      apply inductionHypothesis
      rcases member with here | less
      · rcases List.mem_cons.mp here with same | later
        · exact Or.inr (same ▸ Nat.le_max_right _ _)
        · exact Or.inl later
      · exact Or.inr (Nat.le_trans less (Nat.le_max_left _ _))

/-- `MAX_ADD_BYTES`. -/
def maxAddBytes : Nat := 2 * 1024 * 1024

/-- `vectors.itemsize`. -/
def itemSize : Nat := 4

/-- How many vectors a request carries, with room for the largest payload. -/
def perRequest (dim : Nat) (encoded : List String) : Except Error Nat :=
  let largestPayload := (encoded.map fun text => (encodeUtf8 text).length).foldl max 0
  if dim * itemSize + largestPayload = 0 then .error .zeroDivision
  else .ok (max 1 (maxAddBytes / (dim * itemSize + largestPayload)))

/-- The rows for each shard. -/
def route (vectors : List (List Float32Bits)) (encoded : List String) (name : Option String)
    (numShards : Nat) (startId : Int) : Except Error (List (RoutedBatch Float32Bits)) :=
  match name with
  | none => routeRoundRobin vectors numShards startId encoded
  | some name => do
      let shard ← shardForNamespace name numShards
      return routeToShard vectors numShards shard startId encoded

/-- The seq the next write of a shard gets; 0 leaves it unchecked. -/
def nextSeq : Position → Except Error Nat
  | .unknown => .error .typeError
  | .unchecked => .ok 0
  | .agreed seq => .ok (seq + 1)

/-- The request for the chunk of a shard's rows from `start` on. -/
def chunkRequest (batch : RoutedBatch Float32Bits) (dim start count seq : Nat) : AddRequest :=
  let texts := Chunks.chunk batch.payloads count start
  { globalIds := Chunks.chunk batch.globalIds count start
    dim
    values := (Chunks.chunk batch.vectors count start).flatten
    seq
    payloads := if texts.any (· != "") then texts else [] }

/-- Send one request to replicas, with the shard and the handle of each call. -/
def sendTo (request : AddRequest) : List ReplicaId → Coordinating D (List (Nat × Nat))
  | [] => pure []
  | replica :: rest => do
      let handle ← Client.call (Rpc.startAdd replica request)
      let calls ← sendTo request rest
      return (replica.shard, handle) :: calls

/-- Send the chunk from `start` on everywhere.  The shards are those from
position `shard` on. -/
def sendChunk (dim start count : Nat) : Nat → List (RoutedBatch Float32Bits) →
    Coordinating D (List (Nat × Nat))
  | _, [] => pure []
  | shard, batch :: batches =>
      if Chunks.chunk batch.globalIds count start = [] then sendChunk dim start count (shard + 1) batches
      else do
        let coordinator ← get
        let seq ← Client.lift (nextSeq (coordinator.lastSeqs[shard]?.getD .unknown))
        let calls ← sendTo (chunkRequest batch dim start count seq) (coordinator.replicasOf shard)
        let later ← sendChunk dim start count (shard + 1) batches
        return calls ++ later

/-- The sizes reported for each shard, and the first failure. -/
structure Reported where
  sizes : Dict Nat (List Nat)
  failure : Option RpcError

/-- `reported.setdefault(shard, set()).add(size)`, or the failure. -/
def Reported.record (reported : Reported) (shard : Nat) : Except RpcError AddResponse → Reported
  | .ok response =>
      let sizes := (reported.sizes.get? shard).getD []
      { reported with
        sizes := reported.sizes.set shard
          (if response.size ∈ sizes then sizes else sizes ++ [response.size]) }
  | .error error => { reported with failure := reported.failure.or (some error) }

/-- Wait for every call, even after one has failed. -/
def waitFor : List (Nat × Nat) → Reported → Coordinating D Reported
  | [], reported => pure reported
  | (shard, handle) :: calls, reported => do
      let answer ← Client.call (Rpc.finishAdd handle)
      waitFor calls (reported.record shard answer)

def Position.next : Position → Position
  | .agreed seq => .agreed (seq + 1)
  | position => position

/-- Take over what one shard's replicas reported. -/
def settle (shard : Nat) (sizes : List Nat) : Coordinating D PUnit :=
  match sizes with
  | [size] =>
      modify fun coordinator =>
        { coordinator with
          shardSizes := coordinator.shardSizes.set shard size
          lastSeqs := coordinator.lastSeqs.modify shard Position.next }
  | sizes =>
      throw (.runtime s!"replicas of shard {shard} diverged: sizes {sizes.insertionSort (· ≤ ·)}")

/-- One round of the loop over chunks. -/
def addChunk (batches : List (RoutedBatch Float32Bits)) (dim count start : Nat) : Coordinating D PUnit := do
  let calls ← sendChunk dim start count 0 batches
  let reported ← waitFor calls ⟨Dict.empty, none⟩
  match reported.failure with
  | some error => do
      modify forget
      throw error.toError
  | none => reported.sizes.entries.forM fun entry => settle entry.1 entry.2

/-- `add`. -/
def add (vectors : Matrix Float32Bits) (payloads : Option (List Payload)) (name : Option String) :
    Coordinating D PUnit :=
  if vectors.rows = [] then pure ⟨⟩
  else do
    let tagged ← Client.lift (tagNamespace payloads vectors.rows.length name)
    let encoded ← Client.lift (encodePayloads tagged vectors.rows.length)
    checkShards
    let count ← Client.lift (perRequest vectors.dim encoded)
    let coordinator ← get
    let batches ← Client.lift
      (route vectors.rows encoded name coordinator.numShards coordinator.size)
    modify fun coordinator => { coordinator with size := coordinator.size + vectors.rows.length }
    let longest ← Client.lift
      (if batches = [] then .error .emptySequence
      else .ok ((batches.map fun batch => batch.globalIds.length).foldl max 0))
    (Chunks.starts longest count).forM (addChunk batches vectors.dim count)

/-- `refresh`. -/
def refresh : Coordinating D PUnit := modify forget

/-! ## Repair -/

/-- One replica that `repair` brought up to date. -/
structure ReplicaSync where
  shard : Nat
  replica : String
  source : String
  method : String
  recordsApplied : Nat
  lastSeq : Nat

/-- The replicas that answer `Status`, with their answers. -/
def answering : List ReplicaId → Coordinating D (List (ReplicaId × StatusResponse))
  | [] => pure []
  | replica :: rest => do
      match ← Client.call (Rpc.status replica) with
      | .error error =>
          if RpcError.retryable error then answering rest else throw (RpcError.toError error)
      | .ok status => do
          let later ← answering rest
          return (replica, status) :: later

/-- `max(statuses, key=...)`: the first one with the largest last seq. -/
def newest : List (ReplicaId × StatusResponse) → Option (ReplicaId × StatusResponse)
  | [] => none
  | first :: rest =>
      some (rest.foldl (fun best item => if best.2.lastSeq < item.2.lastSeq then item else best) first)

/-- Let every replica that is behind copy from the source. -/
def syncBehind (source : ReplicaId) (newest : StatusResponse) :
    List (ReplicaId × StatusResponse) → Coordinating D (List ReplicaSync)
  | [] => pure []
  | (replica, status) :: rest =>
      if status.lastSeq < newest.lastSeq then do
        let coordinator ← get
        match ← Client.call (Rpc.syncFrom replica (coordinator.stub source).peer) with
        | .error error => throw (RpcError.toError error)
        | .ok (response : SyncFromResponse) => do
            let synced ← syncBehind source newest rest
            return ⟨replica.shard, (coordinator.stub replica).address, (coordinator.stub source).address,
              response.method, response.recordsApplied, response.lastSeq⟩ :: synced
      else syncBehind source newest rest

/-- One round of `repair`. -/
def repairShard (shard : Nat) : Coordinating D (List ReplicaSync) := do
  let coordinator ← get
  let statuses ← answering (coordinator.replicasOf shard)
  match newest statuses with
  | none => pure []
  | some (source, status) => do
      let synced ← syncBehind source status statuses
      modify fun coordinator =>
        { coordinator with shardSizes := coordinator.shardSizes.set shard status.size }
      return synced

/-- The loop of `repair` over the shards. -/
def repairShards : List Nat → Coordinating D (List ReplicaSync)
  | [] => pure []
  | shard :: rest => do
      let synced ← repairShard shard
      let later ← repairShards rest
      return synced ++ later

/-- `repair`. -/
def repair : Coordinating D (List ReplicaSync) := do
  let coordinator ← get
  let synced ← repairShards (List.range coordinator.numShards)
  modify forget
  return synced

/-! ## Searching -/

/-- `_replica_order`: rotate the starting replica, recently failed ones last. -/
def replicaOrder (shard : Nat) (now : Int) : Coordinating D (List ReplicaId) := do
  let coordinator ← get
  let replicas := coordinator.replicasOf shard
  let start := coordinator.nextReplica[shard]?.getD 0
  if replicas = [] then throw .zeroDivision
  else do
    set { coordinator with nextReplica := coordinator.nextReplica.set shard ((start + 1) % replicas.length) }
    let rotated := replicas.drop start ++ replicas.take start
    let up := fun replica => decide ((coordinator.stub replica).downUntil ≤ now)
    return rotated.filter up ++ rotated.filter fun replica => !up replica

/-- The orders in which each shard's replicas are tried. -/
def replicaOrders (now : Int) : List Nat → Coordinating D (List (List ReplicaId))
  | [] => pure []
  | shard :: rest => do
      let order ← replicaOrder shard now
      let orders ← replicaOrders now rest
      return order :: orders

/-- A search that was sent: where to, its handle, and the replicas still to try. -/
structure Pending where
  replica : ReplicaId
  handle : Nat
  left : List ReplicaId

/-- Send the request to the first replica of each order. -/
def startSearches (request : SearchRequest) : List (List ReplicaId) → Coordinating D (List Pending)
  | [] => pure []
  | [] :: _ => throw .indexError
  | (replica :: left) :: orders => do
      let handle ← Client.call (Rpc.startSearch replica request)
      let pending ← startSearches request orders
      return ⟨replica, handle, left⟩ :: pending

def setDownUntil (replica : ReplicaId) (time : Int) (coordinator : GrpcCoordinator) : GrpcCoordinator :=
  { coordinator with
    replicas := coordinator.replicas.modify replica.shard fun group =>
      group.modify replica.place fun stub => { stub with downUntil := time } }

/-- What the rounds have gathered: the answers, the shards without one, and the
searches sent to a next replica. -/
structure Gathered (D : Type) where
  perShard : List (List (Scored D))
  missing : List Nat
  retries : List Pending

/-- The entries of an answer. -/
def scoredOf (withPayloads : Bool) (hits : List (HitMessage D)) : List (Scored D) :=
  hits.map fun hit => ⟨hit.distance, hit.globalId, if withPayloads then hit.payload else ""⟩

/-- Wait for one search; when its replica cannot answer, try the next one. -/
def gatherOne (request : SearchRequest) (withPayloads : Bool) (pending : Pending) (gathered : Gathered D) :
    Coordinating D (Gathered D) := do
  match ← Client.call (Rpc.finishSearch pending.handle) with
  | .ok hits => do
      modify (setDownUntil pending.replica 0)
      return { gathered with perShard := gathered.perShard ++ [scoredOf withPayloads hits] }
  | .error error =>
      if !RpcError.retryable error then throw (RpcError.toError error)
      else do
        let now : Int ← Client.call Rpc.monotonic
        modify fun coordinator =>
          setDownUntil pending.replica (now + coordinator.retryAfter) coordinator
        match pending.left with
        | [] => return { gathered with missing := gathered.missing ++ [pending.replica.shard] }
        | next :: left => do
            modify fun coordinator => { coordinator with failovers := coordinator.failovers + 1 }
            let handle ← Client.call (Rpc.startSearch next request)
            return { gathered with retries := gathered.retries ++ [⟨next, handle, left⟩] }

/-- One round over the pending searches. -/
def gatherRound (request : SearchRequest) (withPayloads : Bool) :
    List Pending → Gathered D → Coordinating D (Gathered D)
  | [], gathered => pure gathered
  | pending :: rest, gathered => do
      let gathered ← gatherOne request withPayloads pending gathered
      gatherRound request withPayloads rest gathered

/-- The rounds, until nothing is pending.  Every round uses up a replica of each
pending shard, so as many rounds as the longest order suffice. -/
def gatherRounds (request : SearchRequest) (withPayloads : Bool) :
    Nat → List Pending → List (List (Scored D)) → List Nat →
    Coordinating D (List (List (Scored D)) × List Nat)
  | _, [], perShard, missing => pure (perShard, missing)
  | 0, _ :: _, _, _ => throw .outOfFuel
  | rounds + 1, pending, perShard, missing => do
      let gathered ← gatherRound request withPayloads pending ⟨perShard, missing, []⟩
      gatherRounds request withPayloads rounds gathered.retries gathered.perShard gathered.missing

/-- The request of a search.  Its `k` is an `int32`. -/
def searchRequest (query : List Float32Bits) (k : Int) (withPayloads : Bool) (filter : Option Filter) :
    Except Error SearchRequest := do
  let text ← encodeFilter (filterValue filter)
  if -2 ^ 31 ≤ k ∧ k < 2 ^ 31 then return ⟨query, k, withPayloads, text⟩
  else throw (.value s!"Value out of range: {k}")

variable [LinearOrder D]

/-- `_scatter_gather`: the merged answers and the shards without one. -/
def scatterGather (query : List Float32Bits) (k : Int) (withPayloads : Bool) (filter : Payload)
    (name : Option String) : Coordinating D (List (Scored D) × List Nat) := do
  let coordinator ← get
  let (filter, targets) ← Client.lift (planQuery filter name coordinator.numShards)
  let request ← Client.lift (searchRequest query k withPayloads filter)
  let now ← Client.call Rpc.monotonic
  let orders ← replicaOrders now targets
  let pending ← startSearches request orders
  let (perShard, missing) ← gatherRounds request withPayloads
    ((orders.map List.length).foldl max 0) pending [] []
  return (mergeTopKScored perShard k, missing.insertionSort (· ≤ ·))

/-- The merged answers, when no shard is missing. -/
def searchComplete (query : List Float32Bits) (k : Int) (withPayloads : Bool) (filter : Payload)
    (name : Option String) : Coordinating D (List (Scored D)) := do
  let (scored, missing) ← scatterGather query k withPayloads filter name
  if missing = [] then return scored else throw (.shardUnavailable missing)

/-- `search_scored`. -/
def searchScored (query : List Float32Bits) (k : Int) (filter : Payload) (name : Option String) :
    Coordinating D (List (D × Int)) := do
  let scored ← searchComplete query k false filter name
  return scored.map fun entry => (entry.distance, entry.globalId)

/-- `search`. -/
def search (query : List Float32Bits) (k : Int) (filter : Payload) (name : Option String) :
    Coordinating D (List Int) := do
  let scored ← searchScored query k filter name
  return scored.map Prod.snd

/-- `search_hits`. -/
def searchHits (query : List Float32Bits) (k : Int) (filter : Payload) (name : Option String) :
    Coordinating D (List (Hit D)) := do
  let scored ← searchComplete query k true filter name
  Client.lift (hitsOf scored)

/-- `search_partial`. -/
def searchPartial (query : List Float32Bits) (k : Int) (filter : Payload) (name : Option String) :
    Coordinating D (List Int × List Nat) := do
  let (scored, missing) ← scatterGather query k false filter name
  return (scored.map Scored.globalId, missing)

end GrpcCoordinator
end VectorSearch
