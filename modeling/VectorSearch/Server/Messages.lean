import VectorSearch.Storage.Record

namespace VectorSearch

/-!
# The messages between a coordinator and the shard servers

The messages of `shard.proto`, with the fields the code reads.  A `bytes` or
`repeated` field is a list, an unsigned number a natural one.  A server stream
is the list of messages that arrived together with the error it broke off
with, if it did.
-/

structure AddRequest where
  globalIds : List Int
  dim : Int
  values : List Float32Bits
  seq : Nat
  payloads : List String
  deriving DecidableEq

structure AddResponse where
  size : Nat
  deriving DecidableEq

/-- `k` is an `int32` of the message: the coordinator refuses to build another one. -/
structure SearchRequest where
  query : List Float32Bits
  k : Int
  withPayloads : Bool
  filter : String
  deriving DecidableEq

/-- One hit: `global_id`, `distance` and `payload`. -/
structure HitMessage (D : Type) where
  globalId : Int
  distance : D
  payload : String
  deriving DecidableEq

structure StatusResponse where
  size : Nat
  durable : Bool
  lastSeq : Nat
  snapshotSeq : Nat
  nextGlobalId : Int
  deriving DecidableEq

structure LogRecord where
  seq : Nat
  globalIds : List Int
  dim : Nat
  values : List Float32Bits
  payloads : List String
  deriving DecidableEq

structure SnapshotChunk where
  data : Bytes
  lastSeq : Nat
  deriving DecidableEq

/-- The values of the field `method`. -/
inductive SyncMethod where
  | log
  | snapshot
  deriving DecidableEq

def SyncMethod.text : SyncMethod → String
  | log => "log"
  | snapshot => "snapshot"

structure SyncFromResponse where
  method : String
  recordsApplied : Nat
  lastSeq : Nat
  deriving DecidableEq

/-- The messages of a stream as far as they arrived, and how it ended. -/
structure Stream (α : Type) where
  messages : List α
  ended : Option Error
  deriving DecidableEq

/-- What arrives of a stream when the transport may fail: all of it, or its
beginning and an error of the transport, which never uses the status the
servers refuse requests with. -/
inductive Stream.Arrives {α : Type} (sent : Stream α) : Stream α → Prop
  | whole : Arrives sent sent
  | broken {messages : List α} {code : StatusCode} (details : String) (cut : messages <+: sent.messages)
      (transport : code ≠ .failedPrecondition) : Arrives sent ⟨messages, some (.rpc code details)⟩

end VectorSearch
