import VectorSearch.Lib.Text

namespace VectorSearch

/-!
# What the code can raise

One constructor for each kind of exception that the modelled functions raise
themselves or let through from Python, numpy, `struct` and gRPC.  Texts written
in the source are given by `Error.message`; the texts of the libraries are not
modelled.
-/

/-- The gRPC status codes the code uses or looks at. -/
inductive StatusCode where
  | invalidArgument
  | failedPrecondition
  | unavailable
  | deadlineExceeded
  /-- What gRPC reports for a message above its size limit. -/
  | resourceExhausted
  /-- What gRPC reports for an exception a handler did not catch. -/
  | unknown
  deriving DecidableEq, Repr

inductive Error where
  /-- A numpy `ValueError`: shapes that do not fit together. -/
  | shape
  | keyError
  | indexError
  /-- `OverflowError`: a number outside the range of its integer type. -/
  | overflow
  /-- `struct.error`: a field does not fit its width. -/
  | struct
  | unicodeDecode
  | zeroDivision
  /-- A file that is no snapshot archive. -/
  | badArchive
  | badJson
  /-- A `ValueError`: an integer of more digits than Python prints. -/
  | tooManyDigits
  | typeError
  | attributeError
  /-- `next` of an empty iterator, or `max` of an empty sequence. -/
  | emptySequence
  /-- A loop of the model used up its fuel; no run of the code does. -/
  | outOfFuel
  | outOfOrderWrite (seq lastSeq : Nat)
  | logJumps (lastSeq seq : Nat)
  | unsupportedFormat (format : Nat)
  /-- A filter value of the given field that is not indexed. -/
  | filterValue (field : String)
  /-- A filter field without a name or without values. -/
  | filterField (field : String)
  /-- A `ValueError` with the given text. -/
  | value (text : String)
  /-- A `RuntimeError` with the given text. -/
  | runtime (text : String)
  | rpc (code : StatusCode) (details : String)
  /-- `ReplicasOutOfSyncError`, with the last seq of each replica address. -/
  | replicasOutOfSync (shard : Nat) (lastSeqs : List (String × Nat))
  | shardUnavailable (shards : List Nat)
  /-- An `OSError` of a file operation. -/
  | io
  | fileNotFound (text : String)
  /-- `EmbedderUnavailable`, and what a model of a package raises. -/
  | embedder (text : String)
  /-- `UserError`: something to tell the user about. -/
  | user (text : String)
  /-- `ToolError`: the same for the caller of a tool. -/
  | tool (text : String)
  deriving DecidableEq, Repr

/-- A dict from strings to numbers, as an f-string prints it. -/
def showDict (entries : List (String × Nat)) : String :=
  "\x7b" ++ ", ".intercalate (entries.map fun entry => s!"{Text.repr entry.1}: {entry.2}") ++ "\x7d"

/-- The text of an exception, where the source writes one. -/
def Error.message : Error → String
  | outOfOrderWrite seq lastSeq =>
      s!"write seq {seq} does not follow this replica's last seq {lastSeq}"
  | logJumps lastSeq seq => s!"write-ahead log jumps from seq {lastSeq} to {seq}"
  | unsupportedFormat format => s!"unsupported snapshot format {format}"
  | value text => text
  | runtime text => text
  | rpc _ details => details
  | replicasOutOfSync shard lastSeqs =>
      s!"replicas of shard {shard} are out of sync (last seq by replica: " ++
        s!"{showDict lastSeqs}); run repair() before writing"
  | shardUnavailable shards => s!"no replica answered for shard(s) {shards}"
  | fileNotFound text => text
  | embedder text => text
  | user text => text
  | tool text => text
  | _ => ""

end VectorSearch
