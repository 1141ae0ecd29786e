import VectorSearch.Server.Messages
import VectorSearch.Storage.Durable

namespace VectorSearch

/-!
# Catching up with a peer

`catch_up` in `server.py`.  Its file operations are those of the calls it makes
on the shard; the calls to the peer stand between them, so that a crash point
also tells how often the peer has answered.  What the peer answers is given
from outside: the streams it sends in each round of the loop.
-/

/-- The operations of `catch_up`: those on its own files, and the two calls to
the peer. -/
inductive SyncOp where
  | file (op : FileOp)
  | fetchLog
  | fetchSnapshot

/-- The replica's own files, and how many calls the peer has answered. -/
structure Exchange where
  disk : Disk
  answered : Nat

/-- The meaning of the operations.  A call to the peer leaves the files alone. -/
def exchange : FileSystem SyncOp Exchange where
  perform
    | .file op, world => { world with disk := op.perform world.disk }
    | _, world => { world with answered := world.answered + 1 }
  interrupted
    | .file op, world, left => ∃ disk, FileOp.Interrupted op world.disk disk ∧ left = { world with disk }
    | _, _, _ => False
  failed
    | .file op, world, left => ∃ disk, FileOp.Failed op world.disk disk ∧ left = { world with disk }
    | _, world, left => left = world

/-- The peer's answers in one round: to `FetchLog` for each `after_seq`, and to
`FetchSnapshot`. -/
structure Replies where
  log : Nat → Stream LogRecord
  snapshot : Stream SnapshotChunk

/-- The shard and the local variables of `catch_up`. -/
structure Syncing (G : Type) where
  shard : DurableShard G
  method : SyncMethod
  applied : Nat

/-- `err.code() == grpc.StatusCode.FAILED_PRECONDITION`. -/
def Error.isFailedPrecondition : Error → Bool
  | .rpc code _ => code == .failedPrecondition
  | _ => false

namespace DurableShard

variable {D G : Type} [LinearOrder D] (np : Numpy Float32Bits D G) (npz : Npz G)

/-- Apply one record of the peer's log under its seq. -/
def applyRecord (state : DurableShard G) (record : LogRecord) : Program FileOp (DurableShard G) Error :=
  match Matrix.reshape record.values record.dim with
  | .error error => .raised state error
  | .ok vectors => addBatch np npz state record.globalIds vectors record.payloads (some record.seq)

/-- The loop over the stream, and what follows when it ends. -/
def applyRecords (ended : Syncing G → Program SyncOp (Syncing G) Error) :
    List LogRecord → Syncing G → Program SyncOp (Syncing G) Error
  | [], syncing => ended syncing
  | record :: records, syncing =>
      (applyRecord np npz syncing.shard record).within SyncOp.file (fun shard => { syncing with shard })
        (fun shard => applyRecords ended records { syncing with shard, applied := syncing.applied + 1 })
        (fun shard error => .raised { syncing with shard } error)

/-- Fetch the peer's snapshot and put it in place of everything. -/
def copySnapshot (chunks : Stream SnapshotChunk) (next : Syncing G → Program SyncOp (Syncing G) Error)
    (syncing : Syncing G) : Program SyncOp (Syncing G) Error :=
  .call syncing .fetchSnapshot
    (match chunks.ended with
    | some error => .raised syncing error
    | none =>
        (installSnapshot np npz syncing.shard (chunks.messages.flatMap SnapshotChunk.data)).within
          SyncOp.file (fun shard => { syncing with shard })
          (fun shard => next { syncing with shard, method := .snapshot })
          (fun shard error => .raised { syncing with shard } error))

/-- What follows the records of a round: done when the stream is complete, a
copy of the snapshot when the log does not reach back far enough. -/
def streamEnded (replies : Replies) (next : Syncing G → Program SyncOp (Syncing G) Error) :
    Option Error → Syncing G → Program SyncOp (Syncing G) Error
  | none, syncing => .done syncing
  | some error, syncing =>
      if error.isFailedPrecondition then copySnapshot np npz replies.snapshot next syncing
      else .raised syncing error

/-- The loop over the attempts, one reply of the peer for each. -/
def catchUpLoop (exhausted : Error) : List Replies → Syncing G → Program SyncOp (Syncing G) Error
  | [], syncing => .raised syncing exhausted
  | replies :: later, syncing =>
      let records := replies.log syncing.shard.lastSeq
      .call syncing .fetchLog
        (applyRecords np npz
          (streamEnded np npz replies (catchUpLoop exhausted later) records.ended)
          records.messages { syncing with applied := 0 })

def defaultAttempts : Nat := 3

/-- `catch_up(shard, peer, attempts)`. -/
def catchUp (state : DurableShard G) (peer : String) (attempts : Nat) (replies : Nat → Replies) :
    Program SyncOp (Syncing G) Error :=
  catchUpLoop np npz (.runtime s!"could not catch up with {peer} after {attempts} attempts")
    ((List.range attempts).map replies) ⟨state, .log, 0⟩

end DurableShard
end VectorSearch
