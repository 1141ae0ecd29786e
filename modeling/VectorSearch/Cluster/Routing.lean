import Mathlib.Data.List.Sort
import Mathlib.Data.Prod.Lex
import Mathlib.Data.String.Basic
import VectorSearch.Filtering
import VectorSearch.Lib.Crc32
import VectorSearch.Lib.Stateful
import VectorSearch.Storage.Record

namespace VectorSearch

/-!
# Routing

The functions of `cluster.py` that both coordinators share: payloads and their
texts, namespaces, which shard a vector goes to, which shards a query asks, and
the merge of the shards' results.
-/

/-- A payload: a dict, or `None`. -/
abbrev Payload := Option (List (PyKey × PyValue))

/-- The text of one payload. -/
def encodePayload : Payload → Except Error String
  | none => .ok ""
  | some entries => jsonDumps (.dict entries) false

/-- `encode_payloads`. -/
def encodePayloads (payloads : Option (List Payload)) (count : Nat) : Except Error (List String) :=
  match payloads with
  | none => .ok (List.replicate count "")
  | some payloads =>
      if payloads.length ≠ count then
        .error (.value s!"got {payloads.length} payloads for {count} vectors")
      else
        payloads.mapM encodePayload

/-- `decode_payload`. -/
def decodePayload (text : String) : Except Error PyValue :=
  if text = "" then .ok .none
  else
    match PyValue.loads text with
    | none => .error .badJson
    | some value => .ok value

/-! ## Namespaces -/

/-- `NAMESPACE_FIELD`. -/
def namespaceField : String := "_namespace"

/-- `shard_for_namespace`. -/
def shardForNamespace (name : String) (numShards : Nat) : Except Error Nat :=
  if numShards = 0 then .error .zeroDivision
  else .ok ((crc32 (encodeUtf8 name)).toNat % numShards)

def reservedField : Error := .value s!"'{namespaceField}' is reserved; pass namespace=... instead"

/-- `NAMESPACE_FIELD in entries`. -/
def mentionsNamespace (entries : List (PyKey × PyValue)) : Bool :=
  entries.any fun entry => entry.1 = .str namespaceField

/-- The filter value of a namespace. -/
def namespaceFilter (name : String) : PyValue := .dict [(.str namespaceField, .str name)]

/-- `dict(payload or {}, **{NAMESPACE_FIELD: namespace})`. -/
def tagPayload (name : String) (payload : Payload) : List (PyKey × PyValue) :=
  Dict.update (.str namespaceField) (.str name) (payload.getD [])

/-- `tag_namespace`. -/
def tagNamespace (payloads : Option (List Payload)) (count : Nat) (name : Option String) :
    Except Error (Option (List Payload)) :=
  if payloads.any fun payloads => payloads.length ≠ count then
    .error (.value s!"got {(payloads.getD []).length} payloads for {count} vectors")
  else if (payloads.getD []).any fun payload => payload.any mentionsNamespace then .error reservedField
  else
    match name with
    | none => .ok payloads
    | some name =>
        if name = "" then .error (.value "a namespace must be a non-empty string")
        else
          match normalizeFilter (namespaceFilter name) with
          | .error error => .error error
          | .ok _ =>
              let tagged :=
                match payloads with
                | none | some [] => List.replicate count none
                | some payloads => payloads
              .ok (some (tagged.map fun payload => some (tagPayload name payload)))

/-- `plan_query`: the filter, and the shards to ask. -/
def planQuery (filter : Payload) (name : Option String) (numShards : Nat) :
    Except Error (Option Filter × List Nat) := do
  let conditions := filter.getD []
  if mentionsNamespace conditions then
    throw reservedField
  match name with
  | none => return (← normalizeFilter (.dict conditions), List.range numShards)
  | some name =>
      let conditions := Dict.update (.str namespaceField) (.str name) conditions
      return (← normalizeFilter (.dict conditions), [← shardForNamespace name numShards])

/-- A query asks every shard at most once. -/
theorem planQuery_increasing {filter : Payload} {name : Option String} {numShards : Nat}
    {normal : Option Filter}
    {targets : List Nat} (planned : planQuery filter name numShards = .ok (normal, targets)) :
    targets.Pairwise (· < ·) := by
  unfold planQuery at planned
  dsimp only at planned
  split at planned
  · cases planned
  · cases name with
    | none =>
        rcases Stateful.gave_bind planned with ⟨result, _, same⟩
        cases same
        exact List.pairwise_lt_range
    | some name =>
        rcases Stateful.gave_bind planned with ⟨result, _, later⟩
        rcases Stateful.gave_bind later with ⟨shard, _, same⟩
        cases same
        exact List.pairwise_singleton _ _

/-! ## Where vectors go -/

/-- What one shard is sent: ids, vectors and payload texts. -/
@[ext] structure RoutedBatch (F : Type) where
  globalIds : List Int
  vectors : List (List F)
  payloads : List String

namespace RoutedBatch

variable {F : Type}

def empty : RoutedBatch F := ⟨[], [], []⟩

/-- Append one row to the three lists. -/
def append (batch : RoutedBatch F) (globalId : Int) (vector : List F) (text : String) : RoutedBatch F :=
  ⟨batch.globalIds ++ [globalId], batch.vectors ++ [vector], batch.payloads ++ [text]⟩

end RoutedBatch

section Routes

variable {F : Type}

/-- `range(start_id, start_id + count)`. -/
def idRange (startId : Int) (count : Nat) : List Int :=
  (List.range count).map fun offset : Nat => startId + offset

/-- `route_to_shard`, with the texts of all vectors. -/
def routeToShard (vectors : List (List F)) (numShards shard : Nat) (startId : Int) (payloads : List String) :
    List (RoutedBatch F) :=
  (List.replicate numShards RoutedBatch.empty).set shard
    ⟨idRange startId vectors.length, vectors, payloads⟩

/-- The loop of `route_round_robin`: the vector at an offset goes to the shard
its global id leaves as a remainder. -/
def routeFrom (numShards : Nat) (payloads : List String) (startId : Int) :
    Nat → List (List F) → List (RoutedBatch F) → Except Error (List (RoutedBatch F))
  | _, [], batches => .ok batches
  | offset, vector :: rest, batches =>
      if numShards = 0 then .error .zeroDivision
      else
        match payloads[offset]? with
        | none => .error .indexError
        | some text =>
            let globalId := startId + offset
            routeFrom numShards payloads startId (offset + 1) rest
              (batches.modify (globalId % numShards).toNat fun batch => batch.append globalId vector text)

/-- `route_round_robin`, with the texts of all vectors. -/
def routeRoundRobin (vectors : List (List F)) (numShards : Nat) (startId : Int) (payloads : List String) :
    Except Error (List (RoutedBatch F)) :=
  routeFrom numShards payloads startId 0 vectors (List.replicate numShards RoutedBatch.empty)

end Routes

/-! ## Results -/

/-- One entry of a shard's results: distance, global id and, where it was asked
for, the payload text.  A tuple without a payload has the empty text. -/
@[ext] structure Scored (D : Type) where
  distance : D
  globalId : Int
  payload : String
  deriving DecidableEq

section Merge

variable {D : Type} [LinearOrder D]

/-- The components in the order tuples are compared in. -/
def Scored.key (scored : Scored D) : D ×ₗ Int ×ₗ String :=
  toLex (scored.distance, toLex (scored.globalId, scored.payload))

/-- `heapq.nsmallest(k, items)`. -/
def nsmallest (k : Int) (items : List (Scored D)) : List (Scored D) :=
  (items.insertionSort fun left right => left.key ≤ right.key).take k.toNat

/-- `merge_top_k_scored`. -/
def mergeTopKScored (perShard : List (List (Scored D))) (k : Int) : List (Scored D) :=
  nsmallest k perShard.flatten

/-- `merge_top_k`. -/
def mergeTopK (perShard : List (List (Scored D))) (k : Int) : List Int :=
  (mergeTopKScored perShard k).map Scored.globalId

/-- One search result, as `search_hits` returns it. -/
structure Hit (D : Type) where
  id : Int
  distance : D
  payload : PyValue

/-- The results of `search_hits`, made from the merged ones. -/
def hitsOf (scored : List (Scored D)) : Except Error (List (Hit D)) :=
  scored.mapM fun entry => do return ⟨entry.globalId, entry.distance, ← decodePayload entry.payload⟩

end Merge
end VectorSearch
