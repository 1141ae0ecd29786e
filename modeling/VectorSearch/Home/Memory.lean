import VectorSearch.Home.Commands

namespace VectorSearch

/-!
# Memories

`MemoryStore` in `memory.py`.  The memories of an owner are one namespace;
nothing is ever deleted, and a memory is out of use when a record names it as
replaced.
-/

namespace Home

variable {V D S : Type}

/-! ## Python's strings and lists -/

/-- `str.isspace` for one character. -/
def isSpace (c : Char) : Bool :=
  (9 ≤ c.toNat && c.toNat ≤ 13) || (28 ≤ c.toNat && c.toNat ≤ 32) || c.toNat = 0x85 || c.toNat = 0xa0 ||
    c.toNat = 0x1680 || (0x2000 ≤ c.toNat && c.toNat ≤ 0x200a) || c.toNat = 0x2028 || c.toNat = 0x2029 ||
    c.toNat = 0x202f || c.toNat = 0x205f || c.toNat = 0x3000

/-- `text.strip()`. -/
def strip (text : String) : String :=
  String.ofList ((text.toList.dropWhile isSpace).reverse.dropWhile isSpace).reverse

/-- `sorted(set(items))`. -/
def sortedSet (items : List String) : List String := items.eraseDups.insertionSort (· ≤ ·)

/-- `payload[key]`. -/
def field (payload : PyValue) (key : String) : Except Error PyValue :=
  match payload with
  | .dict entries =>
      match Dict.find (.str key) entries with
      | none => .error .keyError
      | some value => .ok value
  | _ => .error .typeError

def asString : PyValue → Except Error String
  | .str text => .ok text
  | _ => .error .typeError

def asFloat : PyValue → Except Error FloatText
  | .float value => .ok value
  | _ => .error .typeError

def asStrings : PyValue → Except Error (List String)
  | .list items => items.mapM asString
  | _ => .error .typeError

/-! ## The store -/

/-- `DUPLICATE_SIMILARITY` and `RECENCY_WEIGHT` with the arithmetic that uses
them, and `np.ones`. -/
structure Scoring (V D S : Type) where
  ones : Nat → V
  /-- `1.0 - distance >= DUPLICATE_SIMILARITY`. -/
  same : D → Bool
  /-- `1.0 - distance`. -/
  similarity : D → S
  /-- The similarity with the bonus for what was created then, now. -/
  score : S → FloatText → FloatText → S

/-- `CANDIDATES`. -/
def candidates : Int := 4

/-- `MAX_LOOKUP`. -/
def maxLookup : Int := 1000

/-- A `MemoryStore`: an owner is a name of 1 to 128 characters. -/
structure MemoryStore where
  home : String
  owner : String
  defaultEmbedder : Option String
  named : strip owner ≠ "" ∧ owner.length ≤ 128

namespace MemoryStore

variable (scoring : Scoring V D S) (store : MemoryStore)

/-- `_search`. -/
def search (state : ClusterState) (vector : V) (k : Int) (filter : List (PyKey × PyValue)) :
    Command V D (List (Hit D)) := do
  let answer : Except Error (List (Hit D)) ← Client.call
    (HomeCall.searchHits state.shardAddresses vector k (some filter) (some store.owner))
  match answer with
  | .error (.shardUnavailable shards) =>
      throw (.user s!"{(Error.shardUnavailable shards).message}; see: vsearch status")
  | .error error => throw error
  | .ok hits => return hits

/-- `dataset["dim"]`. -/
def dimOf : Dataset → Except Error Nat
  | .glove .. => .error .keyError
  | .documents _ dim _ _ => .ok dim
  | .memory _ dim => .ok dim

/-- `_lookup`: every record matching the filter, up to `MAX_LOOKUP`. -/
def lookup (state : ClusterState) (filter : List (PyKey × PyValue)) : Command V D (List (Hit D)) :=
  match state.dataset with
  | none => return []
  | some dataset => do
      let dim ← Client.lift (dimOf dataset)
      search store state (scoring.ones dim) maxLookup filter

def idsOf (hits : List (Hit D)) : Except Error (List String) :=
  hits.mapM fun hit => do asString (← field hit.payload "memory_id")

/-- A filter value for some of the given ids. -/
def anyOf (ids : List String) : PyValue := .list (ids.map .str)

/-- `_replaced`: which of the ids a record names as replaced. -/
def replaced (state : ClusterState) (ids : List String) : Command V D (List String) :=
  if ids.isEmpty then return []
  else do
    let records ← lookup scoring store state [(.str "replaces", anyOf ids)]
    let targets ← Client.lift (records.mapM fun hit => do asStrings (← field hit.payload "replaces"))
    return targets.flatten.filter (· ∈ ids)

/-- `_live_ids`: those of the ids that name a memory that is stored and neither
replaced nor forgotten. -/
def liveIds (state : ClusterState) (ids : List String) : Command V D (List String) :=
  if ids.isEmpty then return []
  else do
    let hits ← lookup scoring store state [(.str "type", .str "memory"), (.str "memory_id", anyOf ids)]
    let found ← Client.lift (idsOf hits)
    let dead ← replaced scoring store state found
    return found.filter (· ∉ dead)

/-- `_check_kind`. -/
def checkKind (dataset : Dataset) : Except Error Unit :=
  if dataset.name ≠ "memory" then
    .error (.user (s!"this cluster holds {dataset.name}; keep memories in a cluster " ++
      "of their own (vsearch --home data/memory cluster up)"))
  else .ok ()

/-- `_state`. -/
def state : Command V D ClusterState := do
  let state ← readState store.home
  match state.dataset with
  | none => return state
  | some dataset => do
      Client.lift (checkKind dataset)
      return state

/-- `_dataset`: the state with the memory record, created on the first write. -/
def dataset (state : ClusterState) (replies : List StatusResponse) : Command V D (ClusterState × Dataset) :=
  match state.dataset with
  | some dataset => return (state, dataset)
  | none =>
      if replies.any (·.size ≠ 0) then
        throw (.user "this cluster already holds vectors; keep memories in a cluster of their own")
      else do
        let info ← getEmbedder
          (if store.defaultEmbedder.getD "" = "" then Home.defaultEmbedder else store.defaultEmbedder.getD "")
        let dataset : Dataset := .memory info.name info.dim
        let state := { state with dataset := some dataset }
        writeState state
        return (state, dataset)

/-- `_embedder`. -/
def embedder : Dataset → Command V D EmbedderInfo
  | .glove .. => throw .keyError
  | .documents name .. => getEmbedder name
  | .memory name _ => getEmbedder name

/-- What an exception of `_write` becomes. -/
def notStored : Error → Error
  | .rpc code details =>
      .user (s!"the memory was not stored: {(Error.rpc code details).message}. Check `vsearch status`, then " ++
        "`vsearch repair`")
  | .replicasOutOfSync shard lastSeqs =>
      .user (s!"the memory was not stored: {(Error.replicasOutOfSync shard lastSeqs).message}. Check " ++
        "`vsearch status`, then `vsearch repair`")
  | error => error

/-- `_write`. -/
def write (state : ClusterState) (vector : V) (payload : List (PyKey × PyValue)) : Command V D Unit :=
  raising notStored (add state.shardAddresses [vector] (some [some payload]) (some store.owner))

/-- The payload of a memory. -/
def memoryPayload (id text : String) (tags : List String) (created : FloatText) (replaces : List String) :
    List (PyKey × PyValue) :=
  [(.str "type", .str "memory"), (.str "memory_id", .str id), (.str "text", .str text),
    (.str "tags", .list ((sortedSet tags).map .str)), (.str "created", .float created),
    (.str "replaces", .list (replaces.map .str))]

/-- The payload of a record that takes a memory out of use. -/
def forgetPayload (id : String) (created : FloatText) (target : String) : List (PyKey × PyValue) :=
  [(.str "type", .str "forget"), (.str "memory_id", .str id), (.str "created", .float created),
    (.str "replaces", .list [.str target])]

/-- The id of the nearest memory, if it is the same fact and still in use. -/
def duplicate (state : ClusterState) : List (Hit D) → Command V D (Option String)
  | [] => return none
  | hit :: rest => do
      let id ← Client.lift (field hit.payload "memory_id" >>= asString)
      if scoring.same hit.distance then do
        let dead ← replaced scoring store state [id]
        if dead.isEmpty then return some id else duplicate state rest
      else duplicate state rest

/-- A fact that replaces nothing may be known already. -/
def knownAs (state : ClusterState) (vector : V) (replaces : List String) : Command V D (Option String) :=
  if replaces.isEmpty then do
    let hits ← search store state vector 1 [(.str "type", .str "memory")]
    duplicate scoring store state hits
  else return none

/-- A fact under a new id. -/
def storeFact (state : ClusterState) (vector : V) (text : String) (tags replaces : List String) :
    Command V D String := do
  let suffix : String ← Client.call HomeCall.uuid
  let created : FloatText ← Client.call HomeCall.time
  let id := "m" ++ suffix
  write store state vector (memoryPayload id text tags created replaces)
  return id

/-- `remember`, from the embedding on. -/
def rememberFact (state : ClusterState) (dataset : Dataset) (text : String) (tags replaces : List String) :
    Command V D (String × Bool) := do
  let info ← embedder dataset
  let answer : Except Error (List V) ← Client.call (HomeCall.embedDocuments info.name [text])
  let vectors ← Client.lift answer
  match vectors.head? with
  | none => throw .indexError
  | some vector => do
      let known ← knownAs scoring store state vector replaces
      match known with
      | some id => return (id, false)
      | none => do
          let id ← storeFact store state vector text tags replaces
          return (id, true)

/-- `remember`: the id, and whether the fact was stored. -/
def remember (text : String) (tags replaces : List String) : Command V D (String × Bool) :=
  if strip text = "" then throw (.user "there is nothing to remember: the text is empty")
  else do
    let state ← store.state
    let replies ← writable state
    let (state, dataset) ← store.dataset state replies
    let replaces := replaces.eraseDups
    let live ← liveIds scoring store state replaces
    let missing := replaces.filter (· ∉ live)
    if missing ≠ [] then
      throw (.user (s!"no current memory has the id(s) {Text.reprList (missing.insertionSort (· ≤ ·))}; " ++
        "recall shows the ids"))
    else rememberFact scoring store state dataset (strip text) tags replaces

/-- The record that takes a memory out of use. -/
def storeForgetting (state : ClusterState) (dim : Nat) (id : String) : Command V D Unit := do
  let suffix : String ← Client.call HomeCall.uuid
  let created : FloatText ← Client.call HomeCall.time
  write store state (scoring.ones dim) (forgetPayload ("f" ++ suffix) created id)

/-- `forget`. -/
def forget (id : String) : Command V D Unit := do
  let state ← store.state
  let replies ← writable state
  let (state, dataset) ← store.dataset state replies
  let live ← liveIds scoring store state [id]
  if id ∉ live then throw (.user s!"no current memory has the id {Text.repr id}")
  else do
    let dim ← Client.lift (dimOf dataset)
    storeForgetting scoring store state dim id

/-- One recalled memory. -/
structure Memory (S : Type) where
  id : String
  text : String
  tags : List String
  created : FloatText
  similarity : S
  score : S

/-- The memory of a hit. -/
def memoryOf (now : FloatText) (hit : Hit D) : Except Error (Memory S) := do
  let id ← asString (← field hit.payload "memory_id")
  let text ← asString (← field hit.payload "text")
  let tags ← asStrings (← field hit.payload "tags")
  let created ← asFloat (← field hit.payload "created")
  let similarity := scoring.similarity hit.distance
  return ⟨id, text, tags, created, similarity, scoring.score similarity created now⟩

/-- The memories of the hits that are not replaced. -/
def memoriesOf (dead : List String) (now : FloatText) : List (Hit D) → Except Error (List (Memory S))
  | [] => .ok []
  | hit :: rest => do
      let id ← asString (← field hit.payload "memory_id")
      if id ∈ dead then memoriesOf dead now rest
      else do
        let memory ← memoryOf scoring now hit
        let memories ← memoriesOf dead now rest
        return memory :: memories

variable [LinearOrder S]

/-- `recall`. -/
def «recall» (query : String) (k : Int) (tags : List String) : Command V D (List (Memory S)) := do
  let state ← store.state
  match state.dataset with
  | none => return []
  | some dataset => do
      Client.lift (checkKind dataset)
      let filter : List (PyKey × PyValue) :=
        (.str "type", .str "memory") :: if tags.isEmpty then [] else [(.str "tags", anyOf tags)]
      let info ← embedder dataset
      let answer : Except Error V ← Client.call (HomeCall.embedQuery info.name query)
      let vector ← Client.lift answer
      let hits ← search store state vector (k * candidates) filter
      let ids ← Client.lift (idsOf hits)
      let dead ← replaced scoring store state ids
      let now : FloatText ← Client.call HomeCall.time
      let memories ← Client.lift (memoriesOf scoring dead now hits)
      let sorted := memories.insertionSort fun left right => right.score ≤ left.score
      return if 0 ≤ k then sorted.take k.toNat else sorted.take (sorted.length - k.natAbs)

end MemoryStore
end Home
end VectorSearch
