import VectorSearch.Lib.Chunks
import VectorSearch.Server.CatchUp

namespace VectorSearch

/-!
# The shard server

`ShardServicer` in `server.py`, one definition for each call.  A call that
writes is a program over the files of the shard; a call that only reads is a
function of the shard and its files.  Requests to a shard run one at a time, so
each call is given as a whole.  `context.abort` raises the status it is called
with; any other exception leaves the handler as it is, and `onWire` says what
the client sees of it.
-/

/-- What the caller sees of an exception of a handler. -/
def Error.onWire : Error → Error
  | .rpc code details => .rpc code details
  | error => .rpc .unknown s!"Exception calling application: {error.message}"

/-- `self.shard`: kept in memory only, or durable. -/
inductive Served (G : Type) where
  | inMemory (shard : Shard Float32Bits G)
  | durable (state : DurableShard G)

namespace Served

variable {G : Type}

def shard : Served G → Shard Float32Bits G
  | inMemory shard => shard
  | durable state => state.shard

def isDurable : Served G → Bool
  | inMemory _ => false
  | durable _ => true

end Served

/-! ## Add -/

/-- The vectors of a request, when it passes the checks made before the shard
is touched. -/
def AddRequest.vectors (request : AddRequest) : Except Error (Matrix Float32Bits) :=
  match Matrix.reshape request.values request.dim with
  | .error error => .error error
  | .ok vectors =>
      if request.payloads ≠ [] ∧ request.payloads.length ≠ request.globalIds.length then
        .error (.rpc .invalidArgument
          s!"{request.payloads.length} payloads for {request.globalIds.length} vectors")
      else .ok vectors

/-- The status an out-of-order write is refused with. -/
def abortOutOfOrder : Error → Error
  | .outOfOrderWrite seq lastSeq =>
      .rpc .failedPrecondition s!"{(Error.outOfOrderWrite seq lastSeq).message}; run repair()"
  | error => error

namespace ShardServicer

variable {D G : Type}

section Calls

variable [LinearOrder D] (np : Numpy Float32Bits D G) (npz : Npz G)

/-- `Add` on a durable shard. -/
def addDurable (state : DurableShard G) (request : AddRequest) :
    Program FileOp (DurableShard G) Error :=
  match request.vectors with
  | .error error => .raised state error
  | .ok vectors =>
      if request.seq = 0 then
        DurableShard.addBatch np npz state request.globalIds vectors request.payloads none
      else
        (DurableShard.addBatch np npz state request.globalIds vectors request.payloads
          (some request.seq)).mapError abortOutOfOrder

/-- `Add` on a shard in memory. -/
def addInMemory (request : AddRequest) : EStateM Error (Shard Float32Bits G) Unit :=
  match request.vectors with
  | .error error => throw error
  | .ok vectors =>
      if request.seq = 0 then
        Shard.addBatch np request.globalIds vectors.rows request.payloads
      else throw (.rpc .failedPrecondition "numbered writes need a durable shard (--data-dir)")

/-- `Add`, up to its return. -/
def add (served : Served G) (request : AddRequest) : Program FileOp (Served G) Error :=
  match served with
  | .inMemory shard =>
      match addInMemory np request shard with
      | .ok _ shard => .done (.inMemory shard)
      | .error error shard => .raised (.inMemory shard) error
  | .durable state =>
      (addDurable np npz state request).within id Served.durable (fun state => .done (.durable state))
        (fun state error => .raised (.durable state) error)

/-- On a durable shard `Add` runs as `addDurable`. -/
theorem add_durable {World : Type} (fs : FileSystem FileOp World) (state : DurableShard G)
    (request : AddRequest) (world : World) :
    (add np npz (.durable state) request).run fs world =
      let outcome := (addDurable np npz state request).run fs world
      ⟨outcome.world, .durable outcome.memory, outcome.error⟩ :=
  Program.run_held Served.durable (addDurable np npz state request) world

/-- The response to an `Add` that returned. -/
def addResponse (served : Served G) : AddResponse := ⟨served.shard.size⟩

/-! ## Search -/

/-- `Search`, with the shard behind it. -/
def search (request : SearchRequest) : Shard.Searching Float32Bits G (List (HitMessage D)) := do
  match decodeFilter request.filter with
  | .error error => throw (.rpc .invalidArgument s!"bad filter: {error.message}")
  | .ok filter =>
      if request.withPayloads then
        let hits ← Shard.searchWithPayloads np request.query request.k filter
        return hits.map fun hit => ⟨hit.2.1, hit.1, hit.2.2⟩
      else
        let hits ← Shard.search np request.query request.k filter
        return hits.map fun hit => ⟨hit.2, hit.1, ""⟩

end Calls

/-! ## Status -/

/-- `Status`. -/
def status (served : Served G) : StatusResponse where
  size := served.shard.size
  durable := served.isDurable
  nextGlobalId := served.shard.nextGlobalId
  lastSeq := match served with
    | .inMemory _ => 0
    | .durable state => state.lastSeq
  snapshotSeq := match served with
    | .inMemory _ => 0
    | .durable state => state.snapshotSeq

/-! ## Resync -/

/-- `_require_durable`. -/
def requireDurable : Served G → Except Error (DurableShard G)
  | .inMemory _ => .error (.rpc .failedPrecondition "resync needs a durable shard (--data-dir)")
  | .durable state => .ok state

/-- One message of `FetchLog`. -/
def logRecord (record : Record) : LogRecord where
  seq := record.seq
  globalIds := record.globalIds
  dim := record.vectors.dim
  values := record.vectors.ravel
  payloads := if record.payloads.any (· != "") then record.payloads else []

/-- `FetchLog` on a durable shard. -/
def fetchLogDurable (state : DurableShard G) (disk : Disk) (afterSeq : Nat) : Stream LogRecord :=
  match state.recordsAfter afterSeq disk with
  | .error error => ⟨[], some error.onWire⟩
  | .ok none =>
      ⟨[], some (.rpc .failedPrecondition
        (s!"log no longer reaches back to seq {afterSeq + 1}; " ++ "fetch the snapshot instead"))⟩
  | .ok (some records) => ⟨records.map logRecord, none⟩

/-- `FetchLog`. -/
def fetchLog (served : Served G) (disk : Disk) (afterSeq : Nat) : Stream LogRecord :=
  match requireDurable served with
  | .error error => ⟨[], some error⟩
  | .ok state => fetchLogDurable state disk afterSeq

/-- `SNAPSHOT_CHUNK_BYTES`. -/
def snapshotChunkBytes : Nat := 1024 * 1024

/-- The chunks `FetchSnapshot` sends once the shard has a snapshot. -/
def snapshotChunks (state : DurableShard G) (data : Bytes) : Stream SnapshotChunk :=
  ⟨(Chunks.chunks data snapshotChunkBytes).map fun data => ⟨data, state.snapshotSeq⟩, none⟩

/-- `FetchSnapshot` on a durable shard: the program that takes a snapshot if
there is none, and the stream sent behind it. -/
def fetchSnapshotDurable (npz : Npz G) (state : DurableShard G) (disk : Disk) :
    Outcome Disk (DurableShard G) Error × Stream SnapshotChunk :=
  let outcome := (DurableShard.ensureSnapshot npz state disk).run dataDirectory disk
  (outcome,
    match outcome.error with
    | some error => ⟨[], some error.onWire⟩
    | none => snapshotChunks outcome.memory (outcome.world.snapshot.getD []))

/-- `FetchSnapshot`. -/
def fetchSnapshot (npz : Npz G) (served : Served G) (disk : Disk) :
    Outcome Disk (Served G) Error × Stream SnapshotChunk :=
  match requireDurable served with
  | .error error => (⟨disk, served, some error⟩, ⟨[], some error⟩)
  | .ok state =>
      let (outcome, chunks) := fetchSnapshotDurable npz state disk
      (⟨outcome.world, .durable outcome.memory, outcome.error⟩, chunks)

/-- The status a failed copy is reported with. -/
def abortSync (peer : String) : Error → Error
  | .rpc _ details => .rpc .unavailable s!"could not sync from {peer}: {details}"
  | error => error

/-- `SyncFrom` on a durable shard, up to its return. -/
def syncFromDurable [LinearOrder D] (np : Numpy Float32Bits D G) (npz : Npz G)
    (state : DurableShard G) (peer : String) (replies : Nat → Replies) : Program SyncOp (Syncing G) Error :=
  (DurableShard.catchUp np npz state peer DurableShard.defaultAttempts replies).mapError
    (abortSync peer)

/-- `SyncFrom`: refused at once, or a program. -/
def syncFrom [LinearOrder D] (np : Numpy Float32Bits D G) (npz : Npz G) (served : Served G) (peer : String)
    (replies : Nat → Replies) : Except Error (Program SyncOp (Syncing G) Error) := do
  let state ← requireDurable served
  return syncFromDurable np npz state peer replies

/-- The response to a `SyncFrom` that returned. -/
def syncResponse (syncing : Syncing G) : SyncFromResponse :=
  ⟨syncing.method.text, syncing.applied, syncing.shard.lastSeq⟩

/-- A shard in memory refuses every call by which replicas catch up, and stays as
it is. -/
theorem resync_refused [LinearOrder D] (np : Numpy Float32Bits D G) (npz : Npz G) (shard : Shard Float32Bits G)
    (disk : Disk) (afterSeq : Nat) (peer : String) (replies : Nat → Replies) :
    ∃ details, fetchLog (.inMemory shard) disk afterSeq = ⟨[], some (.rpc .failedPrecondition details)⟩ ∧
      fetchSnapshot npz (.inMemory shard) disk =
        (⟨disk, .inMemory shard, some (.rpc .failedPrecondition details)⟩,
          ⟨[], some (.rpc .failedPrecondition details)⟩) ∧
      syncFrom np npz (.inMemory shard) peer replies = .error (.rpc .failedPrecondition details) :=
  ⟨_, rfl, rfl, rfl⟩

end ShardServicer
end VectorSearch
