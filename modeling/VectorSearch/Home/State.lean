import Mathlib.Data.List.Infix
import VectorSearch.Cluster.Routing
import VectorSearch.Lib.RemoteProgram
import VectorSearch.Server.Messages

namespace VectorSearch

/-!
# The state of a cluster

`state.py`: the document `cluster.json` with the servers' addresses and process
ids and what was loaded into them, and the calls that the commands working on it
make.  Reading and writing the document are calls, and so is everything that
touches a process, an embedder or the shards; the commands are client code over
these calls.
-/

/-! ## The document -/

/-- The record of one server. -/
structure ServerRecord where
  host : Option String
  port : Nat
  pid : Option Nat
  peer : Option String
  deriving DecidableEq

/-- What is recorded of one ingested file. -/
structure SourceRecord where
  sha256 : String
  passages : Nat
  name : Option String
  source : String
  deriving DecidableEq

/-- The entry `dataset`: what the cluster holds. -/
inductive Dataset where
  | glove (limit : Int) (dir : String)
  | documents (embedder : String) (dim passages : Nat) (sources : Dict String SourceRecord)
  | memory (embedder : String) (dim : Nat)
  deriving DecidableEq

/-- `dataset["name"]`. -/
def Dataset.name : Dataset → String
  | glove .. => "glove"
  | documents .. => "documents"
  | memory .. => "memory"

/-- `cluster.json`. -/
structure ClusterState where
  seed : Option Nat
  serverArgs : List (String × Nat)
  servers : List (List ServerRecord)
  dataset : Option Dataset
  managedBy : Option String
  deriving DecidableEq

/-- `address`. -/
def ServerRecord.address (server : ServerRecord) : String :=
  let host := server.host.getD "127.0.0.1"
  s!"{host}:{server.port}"

namespace ClusterState

/-- `servers`: every server with its shard and its place. -/
def allServers (state : ClusterState) : List (Nat × Nat × ServerRecord) :=
  (List.range state.servers.length).zip state.servers |>.flatMap fun group =>
    (List.range group.2.length).zip group.2 |>.map fun server => (group.1, server.1, server.2)

/-- `shard_addresses`. -/
def shardAddresses (state : ClusterState) : List (List String) :=
  state.servers.map fun group => group.map ServerRecord.address

/-- `state["servers"][shard][replica]`. -/
def server? (state : ClusterState) (shard replica : Nat) : Option ServerRecord :=
  (state.servers[shard]?.getD [])[replica]?

/-- `server["pid"] = pid`. -/
def setPid (state : ClusterState) (shard replica pid : Nat) : ClusterState :=
  { state with
    servers := state.servers.modify shard fun group =>
      group.modify replica fun server => { server with pid := some pid } }

end ClusterState

/-! ## Calls -/

/-- What is told of an embedder. -/
structure EmbedderInfo where
  name : String
  dim : Nat

/-- One passage of a file. -/
structure Passage where
  text : String
  source : String
  heading : String
  chunk : Nat

/-- What the commands ask the system, the embedders and the shards for.  `V` is
the type of the vectors. -/
inductive HomeCall (V : Type) where
  | readFile
  | writeFile (state : ClusterState)
  | unlinkFile
  | serverStatus (server : ServerRecord)
  /-- `ps -o command=` for a process id. -/
  | processCommand (pid : Nat)
  /-- `subprocess.Popen`. -/
  | spawn (command : List String)
  | waitUntilReady (server : ServerRecord)
  | findDocuments (paths : List String)
  | displayPath (path : String)
  | fingerprint (path : String)
  | readPassages (path source : String) (maxChars overlap : Int)
  | getEmbedder (name : String)
  | embedDocuments (name : String) (texts : List String)
  | embedQuery (name : String) (text : String)
  | loadGlove (dir : String)
  | add (shards : List (List String)) (vectors : List V) (payloads : Option (List Payload))
      (name : Option String)
  | searchHits (shards : List (List String)) (query : V) (k : Int) (filter : Payload) (name : Option String)
  /-- `uuid.uuid4().hex[:10]`. -/
  | uuid
  | time

/-- What a call is answered with; `D` is the type of distances. -/
def HomeCall.Answer (V D : Type) : HomeCall V → Type
  | readFile => Option ClusterState
  | writeFile _ => Unit
  | unlinkFile => Unit
  | serverStatus _ => Option StatusResponse
  | processCommand _ => String
  | spawn _ => Nat
  | waitUntilReady _ => Bool
  | findDocuments _ => Except Error (List String)
  | displayPath _ => String
  | fingerprint _ => Except Error String
  | readPassages .. => Except Error (List Passage)
  | getEmbedder _ => Except Error EmbedderInfo
  | embedDocuments .. => Except Error (List V)
  | embedQuery .. => Except Error V
  | loadGlove _ => Except Error (List String × List V)
  | add .. => Except Error Unit
  | searchHits .. => Except Error (List (Hit D))
  | uuid => String
  | time => FloatText

/-- A command. -/
abbrev Command (V D α : Type) := Client (HomeCall V) (HomeCall.Answer V D) Error Unit α

namespace Home

variable {V D : Type}

/-- `read_state`. -/
def readState (home : String) : Command V D ClusterState := do
  let found : Option ClusterState ← Client.call HomeCall.readFile
  match found with
  | none => throw (.user s!"no cluster in {home}; start one with: vsearch cluster up")
  | some state => return state

/-- `write_state`. -/
def writeState (state : ClusterState) : Command V D Unit := Client.call (HomeCall.writeFile state)

/-- `(home / "cluster.json").unlink()`. -/
def unlinkState : Command V D Unit := Client.call HomeCall.unlinkFile

/-- `refuse_if_managed`. -/
def refuseIfManaged (state : ClusterState) (action : String) : Except Error Unit :=
  match state.managedBy with
  | none => .ok ()
  | some manager =>
      if manager = "" then .ok ()
      else
        .error (.user (s!"this cluster's servers are run by {manager}, so vsearch cannot {action} them; " ++
          "do it there (e.g. docker compose)"))

/-- The status of each server. -/
def statuses : List ServerRecord → Command V D (List (Option StatusResponse))
  | [] => pure []
  | server :: rest => do
      let reply : Option StatusResponse ← Client.call (HomeCall.serverStatus server)
      let replies ← statuses rest
      return reply :: replies

/-- `writable`. -/
def writable (state : ClusterState) : Command V D (List StatusResponse) := do
  let replies ← statuses (state.allServers.map fun server => server.2.2)
  match replies.mapM id with
  | none => throw (.user "a server is down, and writes need every replica; see: vsearch status")
  | some replies => return replies

/-! ## Processes -/

/-- `needle in text`. -/
def contains (text needle : String) : Bool := decide (needle.toList <:+: text.toList)

/-- Whether a process with this command is the server of the record. -/
def isServer (server : ServerRecord) (command : String) : Bool :=
  contains command "vsearch.server" && contains command s!"--port {server.port}"

/-- `is_running`. -/
def isRunning (server : ServerRecord) : Command V D Bool :=
  match server.pid with
  | none => return false
  | some pid => do
      let command : String ← Client.call (HomeCall.processCommand pid)
      return isServer server command

/-- `server_command`, after the name of the interpreter. -/
def serverCommand (port : Nat) (args : List (String × Nat)) (seed : Nat) (dataDir : String) : List String :=
  ["-m", "vsearch.server", "--port", toString port] ++
    (args.flatMap fun arg => ["--" ++ arg.1.map fun c => if c = '_' then '-' else c, toString arg.2]) ++
    ["--seed", toString seed, "--data-dir", dataDir]

/-- `pick`. -/
def pick (state : ClusterState) (shard replica : Int) : Except Error ServerRecord :=
  let missing : Error := .user s!"there is no shard {shard} replica {replica} in this cluster"
  if shard < 0 ∨ replica < 0 then .error missing
  else
    match state.server? shard.toNat replica.toNat with
    | none => .error missing
    | some server => .ok server

/-- `spawn`: the state with the new process id recorded. -/
def spawn (home interpreter : String) (state : ClusterState) (shard replica : Nat) :
    Command V D ClusterState := do
  match state.server? shard replica, state.seed with
  | none, _ => throw .indexError
  | some _, none => throw .typeError
  | some server, some seed => do
      let dataDir := s!"{home}/shard-{shard}-replica-{replica}"
      let pid : Nat ← Client.call
        (HomeCall.spawn (interpreter :: serverCommand server.port state.serverArgs (seed + shard) dataDir))
      return state.setPid shard replica pid

end Home
end VectorSearch
