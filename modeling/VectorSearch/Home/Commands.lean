import VectorSearch.Home.State
import VectorSearch.Lib.Chunks

namespace VectorSearch

/-!
# Commands

The commands that change what a cluster holds or what `cluster.json` records:
`ingest` with `ingest_files` of `documents.py`, and `load`, `cluster attach`,
`cluster detach` and the two ways to restart a server.  What they print is left
out.
-/

namespace Home

variable {V D : Type}

/-! ## Ingesting documents -/

/-- `EMBED_BATCH`. -/
def embedBatch : Nat := 32

/-- `DEFAULT_EMBEDDER`. -/
def defaultEmbedder : String := "bge-small"

/-- `embedding_text`. -/
def embeddingText (passage : Passage) : String :=
  if passage.heading = "" then passage.text else s!"{passage.heading}\n\n{passage.text}"

def passagePayload (passage : Passage) : List (PyKey × PyValue) :=
  [(.str "text", .str passage.text), (.str "source", .str passage.source),
    (.str "heading", .str passage.heading),
    (.str "chunk", .int passage.chunk)]

/-- The vectors of all texts, batch after batch. -/
def embedBatches (embedder : String) : List (List String) → Command V D (List V)
  | [] => pure []
  | texts :: rest => do
      let answer : Except Error (List V) ← Client.call (HomeCall.embedDocuments embedder texts)
      let vectors ← Client.lift answer
      let later ← embedBatches embedder rest
      return vectors ++ later

/-- `embedders(name)`. -/
def getEmbedder (name : String) : Command V D EmbedderInfo := do
  let answer : Except Error EmbedderInfo ← Client.call (HomeCall.getEmbedder name)
  Client.lift answer

/-- `coordinator.add`. -/
def add (shards : List (List String)) (vectors : List V) (payloads : Option (List Payload))
    (name : Option String) : Command V D Unit := do
  let answer : Except Error Unit ← Client.call (HomeCall.add shards vectors payloads name)
  Client.lift answer

/-- `ingest_passages`. -/
def ingestPassages (shards : List (List String)) (embedder : String) (passages : List Passage)
    (name : Option String) : Command V D Nat :=
  if passages.isEmpty then return 0
  else do
    let texts := passages.map embeddingText
    let vectors ← embedBatches embedder
      ((Chunks.starts texts.length embedBatch).map (Chunks.chunk texts embedBatch))
    add shards vectors (some (passages.map fun passage => some (passagePayload passage))) name
    return passages.length

/-- A dataset of documents, as the loop over the files changes it. -/
structure DocumentSet where
  embedder : String
  dim : Nat
  passages : Nat
  sources : Dict String SourceRecord

def DocumentSet.toDataset (set : DocumentSet) : Dataset :=
  .documents set.embedder set.dim set.passages set.sources

/-- `KINDS`, and `holds`. -/
def holds (dataset : Dataset) : String :=
  let (what, command) :=
    match dataset with
    | .glove .. => ("GloVe words", "vsearch similar WORD")
    | .documents .. => ("documents", "vsearch search \"...\"")
    | .memory .. => ("agent memories", "vsearch memory recall \"...\"")
  s!"this cluster holds {what}; use: {command}"

structure IngestReport where
  added : Nat
  unchanged : Nat
  changed : Nat
  shard : Option Nat

/-- The options of an ingest. -/
structure IngestOptions where
  embedder : Option String
  name : Option String
  maxChars : Int
  overlap : Int

/-- The key a file is recorded under: the same file can be ingested into several
namespaces, once each. -/
def sourceKey (name : Option String) (path : String) : String :=
  match name with
  | none => path
  | some name => if name = "" then path else s!"{name}::{path}"

/-- One file: the dataset with it recorded and the number of its passages, or
whether it was known with the same contents. -/
def ingestFile (state : ClusterState) (options : IngestOptions) (embedder : EmbedderInfo) (path : String)
    (set : DocumentSet) : Command V D (DocumentSet × (Bool ⊕ Nat)) := do
  let shown : String ← Client.call (HomeCall.displayPath path)
  let answer : Except Error String ← Client.call (HomeCall.fingerprint path)
  let digest ← Client.lift answer
  let key := sourceKey options.name path
  match set.sources.get? key with
  | some known => return (set, .inl (known.sha256 = digest))
  | none => do
      let answer : Except Error (List Passage) ← Client.call
        (HomeCall.readPassages path shown options.maxChars options.overlap)
      let passages ← Client.lift answer
      let count ← ingestPassages state.shardAddresses embedder.name passages options.name
      let next : DocumentSet :=
        { set with
          sources := set.sources.set key ⟨digest, count, options.name, shown⟩
          passages := set.passages + count }
      writeState { state with dataset := some next.toDataset }
      return (next, .inr count)

/-- The loop of `ingest_files` over the files. -/
def ingestLoop (state : ClusterState) (options : IngestOptions) (embedder : EmbedderInfo) :
    List String → DocumentSet → IngestReport → Command V D IngestReport
  | [], _, report => pure report
  | path :: rest, set, report => do
      let (next, outcome) ← ingestFile state options embedder path set
      let report :=
        match outcome with
        | .inl true => { report with unchanged := report.unchanged + 1 }
        | .inl false => { report with changed := report.changed + 1 }
        | .inr count => { report with added := report.added + count }
      ingestLoop state options embedder rest next report

/-- What an exception of the loop becomes. -/
def stopped (action : String) : Error → Error
  | .rpc code details =>
      .user (s!"{action} stopped: {(Error.rpc code details).message}. Check `vsearch status`, then " ++
        "`vsearch repair`")
  | .replicasOutOfSync shard lastSeqs =>
      .user (s!"{action} stopped: {(Error.replicasOutOfSync shard lastSeqs).message}. Check `vsearch status`, then " ++
        "`vsearch repair`")
  | error => error

/-- A `ValueError` of the loop is told to the user. -/
def valueToUser : Error → Error
  | .value text => .user text
  | .filterValue field => .user (Error.filterValue field).message
  | .filterField field => .user (Error.filterField field).message
  | .shape => .user Error.shape.message
  | .unicodeDecode => .user Error.unicodeDecode.message
  | .badJson => .user Error.badJson.message
  | .tooManyDigits => .user Error.tooManyDigits.message
  | error => error

/-- Raise what an exception is turned into. -/
def raising {α : Type} (turn : Error → Error) (body : Command V D α) : Command V D α :=
  tryCatchThe Error body fun error => throw (turn error)

/-- The embedder and the dataset an ingest goes on with: the recorded one, or a
new one. -/
def documentsOf (state : ClusterState) (replies : List StatusResponse) (embedder : Option String) :
    Command V D (EmbedderInfo × DocumentSet) :=
  match state.dataset with
  | none =>
      if replies.any (·.size ≠ 0) then
        throw (.user "this cluster already holds vectors; to start over: vsearch cluster down --wipe")
      else do
        let info ← getEmbedder (if embedder.getD "" = "" then defaultEmbedder else embedder.getD "")
        return (info, ⟨info.name, info.dim, 0, Dict.empty⟩)
  | some (.documents name dim passages sources) =>
      if embedder.any (· ≠ name) then
        throw (.user (s!"this cluster was built with the {Text.repr name} embedder; " ++
          "every passage in it has to use the same one"))
      else do
        let info ← getEmbedder name
        return (info, ⟨name, dim, passages, sources⟩)
  | some dataset =>
      throw (.user (s!"{holds dataset}. Vectors from two embedders cannot share an " ++
        "index; start another cluster with --home"))

/-- `find_documents`, as `ingest_files` calls it. -/
def findFiles (paths : List String) : Command V D (List String) := do
  let answer : Except Error (List String) ← Client.call (HomeCall.findDocuments paths)
  match answer with
  | .error (.fileNotFound text) => throw (.user text)
  | .error error => throw error
  | .ok [] => throw (.user "found no .md, .markdown, .txt, or .rst files there")
  | .ok files => return files

/-- `ingest_files`. -/
def ingestFiles (state : ClusterState) (replies : List StatusResponse) (paths : List String)
    (options : IngestOptions) : Command V D IngestReport := do
  let (embedder, set) ← documentsOf state replies options.embedder
  let files ← findFiles paths
  let report ← raising (fun error => valueToUser (stopped "ingest" error))
    (ingestLoop state options embedder files set ⟨0, 0, 0, none⟩)
  match options.name with
  | none => return report
  | some name =>
      if name = "" then return report
      else do
        let shard ← Client.lift (shardForNamespace name state.servers.length)
        return { report with shard := some shard }

/-- `ingest`. -/
def ingest (home : String) (paths : List String) (options : IngestOptions) : Command V D IngestReport := do
  let state ← readState home
  let replies ← writable state
  ingestFiles state replies paths options

/-! ## Loading the word vectors -/

/-- `LOAD_BATCH`. -/
def loadBatch : Nat := 10000

/-- The rounds of `load`: the vectors from each start up to the limit. -/
def loadBatches (shards : List (List String)) (vectors : List V) (limit : Nat) : List Nat → Command V D Unit
  | [] => pure ()
  | start :: rest => do
      add shards (Chunks.chunk (vectors.take limit) loadBatch start) none none
      loadBatches shards vectors limit rest

/-- `load`. -/
def load (home : String) (gloveDir : String) (wanted : Int) : Command V D Int := do
  let state ← readState home
  let replies ← writable state
  if replies.any (·.size ≠ 0) then
    throw (.user "this cluster already holds vectors; to start over: vsearch cluster down --wipe")
  else do
    let answer : Except Error (List String × List V) ← Client.call (HomeCall.loadGlove gloveDir)
    let (words, vectors) ← Client.lift answer
    let limit : Int := min wanted words.length
    raising (stopped "load")
      (loadBatches state.shardAddresses vectors limit.toNat (Chunks.starts limit.toNat loadBatch))
    writeState { state with dataset := some (.glove limit gloveDir) }
    return limit

/-! ## Attached clusters -/

/-- One argument of `cluster attach`, taken apart: host, port and peer. -/
structure AttachedServer where
  host : String
  port : Nat
  peer : Option String

/-- The document of a newly attached cluster. -/
def attachedState (groups : List (List AttachedServer)) (manager : String) : ClusterState :=
  { seed := none
    serverArgs := []
    servers := groups.map fun group => group.map fun server =>
      ⟨some server.host, server.port, none, server.peer⟩
    dataset := none
    managedBy := some manager }

/-- Wait until every server answers. -/
def awaitAll : List (Nat × Nat × ServerRecord) → Command V D Unit
  | [] => pure ()
  | (shard, replica, server) :: rest => do
      let ready : Bool ← Client.call (HomeCall.waitUntilReady server)
      if ready then awaitAll rest
      else throw (.user s!"shard {shard} replica {replica} does not answer at {server.address}")

/-- `cluster_attach`, from the parsed arguments on. -/
def attach (home : String) (groups : List (List AttachedServer)) (manager : String) : Command V D Unit := do
  let found : Option ClusterState ← Client.call HomeCall.readFile
  if found.isSome then
    throw (.user (s!"{home} already has a cluster; use another --home, or " ++
      "`vsearch cluster detach` first"))
  else do
    let state := attachedState groups manager
    awaitAll state.allServers
    writeState state

/-- `cluster_detach`. -/
def detach (home : String) : Command V D Unit := do
  let state ← readState home
  if state.managedBy.getD "" = "" then
    throw (.user "this cluster was started by vsearch; stop it with: vsearch cluster down")
  else unlinkState

/-! ## Restarting a server -/

/-- `wait_for`. -/
def waitFor (home : String) : List (Nat × Nat × ServerRecord) → Command V D Unit
  | [] => pure ()
  | (shard, replica, server) :: rest => do
      let ready : Bool ← Client.call (HomeCall.waitUntilReady server)
      if ready then waitFor home rest
      else throw (.user (s!"shard {shard} replica {replica} did not start; see " ++
        s!"{home}/logs/shard-{shard}-replica-{replica}.log"))

/-- `cluster_restart`. -/
def clusterRestart (home interpreter : String) (shard replica : Int) : Command V D Unit := do
  let state ← readState home
  Client.lift (refuseIfManaged state "restart")
  let server ← Client.lift (pick state shard replica)
  if ← isRunning server then
    throw (.user s!"shard {shard} replica {replica} is already running")
  else do
    let state ← spawn home interpreter state shard.toNat replica.toNat
    writeState state
    waitFor home [(shard.toNat, replica.toNat, server)]

/-- `ServerHealth`. -/
structure ServerHealth where
  shard : Nat
  replica : Nat
  address : String
  up : Bool
  process : Bool
  size : Nat
  lastSeq : Nat

/-- `cluster_health`. -/
def clusterHealth : List (Nat × Nat × ServerRecord) → Command V D (List ServerHealth)
  | [] => pure []
  | (shard, replica, server) :: rest => do
      let reply : Option StatusResponse ← Client.call (HomeCall.serverStatus server)
      let running ← isRunning server
      let later ← clusterHealth rest
      return ⟨shard, replica, server.address, reply.isSome, running, (reply.map StatusResponse.size).getD 0,
        (reply.map StatusResponse.lastSeq).getD 0⟩ :: later

/-- The health of one server. -/
def healthOf (shard replica : Int) (health : List ServerHealth) : Except Error ServerHealth :=
  match health.find? fun server => (server.shard : Int) = shard ∧ (server.replica : Int) = replica with
  | none => .error .emptySequence
  | some server => .ok server

/-- A `UserError` told to the caller of a tool. -/
def toTool : Error → Error
  | .user text => .tool text
  | error => error

/-- The limits of one `Operations` object: the restarts already made of the
server, the most that are allowed, and whether anything may be changed. -/
structure RestartLimits where
  made : Nat
  allowed : Nat
  dryRun : Bool

/-- `Operations.restart_server`. -/
def restartServer (home interpreter : String) (limits : RestartLimits) (startTimeout : Nat)
    (shard replica : Int) :
    Command V D String := do
  let state ← readState home
  let server ← Client.lift (pick state shard replica |>.mapError toTool)
  let name := s!"shard {shard} replica {replica}"
  let manager := state.managedBy.getD ""
  let health ← clusterHealth state.allServers
  let current ← Client.lift (healthOf shard replica health)
  if current.up then throw (.tool s!"{name} is already up; there is nothing to restart.")
  else if manager ≠ "" then
    throw (.tool (s!"{name} is run by {manager}, which restarts servers " ++
      "itself; this agent cannot. Check its status again shortly, or report that it is not coming back."))
  else if current.process then
    throw (.tool (s!"{name} does not answer but its process is still running. This " ++
      "agent cannot stop processes: report it for a person to look at."))
  else if limits.allowed ≤ limits.made then
    throw (.tool (s!"{name} was already restarted {limits.allowed} times in this run " ++
      "and did not stay up. Do not try again: read its log and report it."))
  else if limits.dryRun then return s!"DRY RUN: would restart {name}."
  else do
    let state ← spawn home interpreter state shard.toNat replica.toNat
    writeState state
    raising (fun
      | .user _ => .tool (s!"{name} was started but did not answer within {startTimeout} s. " ++
        "Read its log to see why.")
      | error => error) (waitFor home [(shard.toNat, replica.toNat, server)])
    let state ← readState home
    let health ← clusterHealth state.allServers
    let back ← Client.lift (healthOf shard replica health)
    return (s!"{name} restarted and answering: it recovered {Text.grouped back.size} vectors from its " ++
      s!"disk and is at seq {back.lastSeq}.")

/-- The two ways to restart a server. -/
inductive RestartCall where
  | commandLine
  | operations (limits : RestartLimits) (startTimeout : Nat)

def RestartCall.run (call : RestartCall) (home interpreter : String) (shard replica : Int) : Command V D Unit :=
  match call with
  | commandLine => clusterRestart home interpreter shard replica
  | operations limits startTimeout => do
      let _ ← restartServer home interpreter limits startTimeout shard replica
      return ()

end Home
end VectorSearch
