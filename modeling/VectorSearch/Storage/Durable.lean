import VectorSearch.Storage.Files
import VectorSearch.Storage.Snapshot

namespace VectorSearch

/-!
# The durable shard

`DurableShard` in `storage.py`, each method as the sequence of file operations
it makes together with the memory of the process at each of them.
-/

/-- The arguments a durable shard is opened with. -/
structure Config where
  fsync : Bool
  snapshotEvery : Int
  params : HnswParams

/-- The attributes of a `DurableShard` object. -/
structure DurableShard (G : Type) where
  config : Config
  shard : Shard Float32Bits G
  lastSeq : Nat
  snapshotSeq : Nat
  replayedRecords : Nat
  vectorsSinceSnapshot : Nat

namespace DurableShard

variable {D G : Type} [LinearOrder D] (np : Numpy Float32Bits D G) (npz : Npz G)

/-! ## Opening -/

/-- The shard of the snapshot file, or an empty one. -/
def loadOrInit (config : Config) (snapshot : Option Bytes) :
    Except Error (Shard Float32Bits G × Nat) :=
  match snapshot with
  | some data => loadSnapshot np npz config.params.efSearch data
  | none => .ok (Shard.init np config.params, 0)

/-- One round of the replay loop. -/
def replayRecord (state : DurableShard G) (record : Record) : Except Error (DurableShard G) :=
  if record.seq ≤ state.lastSeq then .ok state
  else if record.seq ≠ state.lastSeq + 1 then .error (.logJumps state.lastSeq record.seq)
  else
    match Shard.addBatch np record.globalIds record.vectors.rows record.payloads state.shard with
    | .error error _ => .error error
    | .ok _ shard =>
        .ok { state with
          shard
          lastSeq := record.seq
          replayedRecords := state.replayedRecords + 1
          vectorsSinceSnapshot := state.vectorsSinceSnapshot + record.globalIds.length }

/-- The object before the replay loop. -/
def loaded (config : Config) (shard : Shard Float32Bits G) (lastSeq : Nat) : DurableShard G :=
  { config, shard, lastSeq, snapshotSeq := lastSeq, replayedRecords := 0, vectorsSinceSnapshot := 0 }

/-- The end of `__init__`: open the log for appending and replay its records. -/
def replayLog (base : DurableShard G) (records : List Record) :
    Program FileOp (Option (DurableShard G)) Error :=
  .call none .openLog
    (match records.foldlM (replayRecord np) base with
    | .error error => .raised none error
    | .ok state => .done (some state))

/-- `DurableShard(data_dir, ...)` on a directory with the given files.  No
object exists before it returns. -/
def openShard (config : Config) (disk : Disk) : Program FileOp (Option (DurableShard G)) Error :=
  match loadOrInit np npz config disk.snapshot with
  | .error error => .raised none error
  | .ok (shard, lastSeq) =>
      match readRecords disk.logged with
      | .error error => .raised none error
      | .ok (records, intactBytes) =>
          let rest := replayLog np (loaded config shard lastSeq) records
          if intactBytes < disk.logged.length then .call none (.cutLog intactBytes) rest else rest

/-! ## Writing -/

/-- `WriteAheadLog.reset`. -/
def resetLog (state : DurableShard G) (next : Program FileOp (DurableShard G) Error) :
    Program FileOp (DurableShard G) Error :=
  .call state .truncateLog (.call state .syncReset next)

/-- Write the temporary snapshot and rename it over the old one. -/
def replaceSnapshot (state : DurableShard G) (data : Bytes)
    (next : Program FileOp (DurableShard G) Error) : Program FileOp (DurableShard G) Error :=
  .call state (.writeTemporary data) (.call state .replaceSnapshot (.call state .syncDirectory next))

/-- `checkpoint`. -/
def checkpoint (state : DurableShard G) : Program FileOp (DurableShard G) Error :=
  match snapshotArchive state.shard state.lastSeq with
  | .error error => .raised state error
  | .ok archive =>
      replaceSnapshot state (npz.savez archive)
        (resetLog state
          (.done { state with snapshotSeq := state.lastSeq, vectorsSinceSnapshot := 0 }))

/-- Whether a snapshot is due. -/
def due (state : DurableShard G) : Bool :=
  state.config.snapshotEvery != 0 && state.config.snapshotEvery ≤ state.vectorsSinceSnapshot

/-- The part of `add_batch` after the record is logged. -/
def applyLogged (state : DurableShard G) (globalIds : List Int) (vectors : Matrix Float32Bits)
    (payloads : List String) : Program FileOp (DurableShard G) Error :=
  match Shard.addBatch np globalIds vectors.rows payloads state.shard with
  | .error error shard => .raised { state with shard } error
  | .ok _ shard =>
      let next := { state with
        shard
        lastSeq := state.lastSeq + 1
        vectorsSinceSnapshot := state.vectorsSinceSnapshot + globalIds.length }
      if next.due then checkpoint npz next else .done next

/-- `WriteAheadLog.append` of an encoded record. -/
def appendRecord (state : DurableShard G) (record : Bytes)
    (next : Program FileOp (DurableShard G) Error) : Program FileOp (DurableShard G) Error :=
  .call state (.appendLog record) (if state.config.fsync then .call state .syncLog next else next)

/-- `add_batch`. -/
def addBatch (state : DurableShard G) (globalIds : List Int) (vectors : Matrix Float32Bits)
    (payloads : List String) (seq : Option Nat) : Program FileOp (DurableShard G) Error :=
  let expected := state.lastSeq + 1
  if seq.any (· != expected) then
    .raised state (.outOfOrderWrite (seq.getD expected) state.lastSeq)
  else
    match encodeRecord expected globalIds vectors payloads with
    | .error error => .raised state error
    | .ok record =>
        appendRecord state record (applyLogged np npz state globalIds vectors payloads)

/-! ## Copying -/

/-- `records_after`; `none` when the log no longer holds all of them. -/
def recordsAfter (state : DurableShard G) (afterSeq : Nat) (disk : Disk) :
    Except Error (Option (List Record)) :=
  if afterSeq < state.snapshotSeq then .ok none
  else do
    let (records, _) ← readRecords disk.logged
    return some (records.filter fun record => afterSeq < record.seq)

/-- The first step of `snapshot_bytes`: take a snapshot if there is none. -/
def ensureSnapshot (state : DurableShard G) (disk : Disk) : Program FileOp (DurableShard G) Error :=
  if disk.snapshot.isNone then checkpoint npz state else .done state

/-- `install_snapshot`.  The file that is loaded at the end is the one just
renamed into place. -/
def installSnapshot (state : DurableShard G) (data : Bytes) :
    Program FileOp (DurableShard G) Error :=
  replaceSnapshot state data
    (resetLog state
      (match loadSnapshot np npz (some state.shard.index.efSearch) data with
      | .error error => .raised state error
      | .ok (shard, lastSeq) =>
          .done { state with shard, lastSeq, snapshotSeq := lastSeq, vectorsSinceSnapshot := 0 }))

end DurableShard
end VectorSearch
