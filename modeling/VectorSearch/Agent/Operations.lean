import VectorSearch.Client.GrpcCoordinator
import VectorSearch.Home.Commands
import VectorSearch.Lib.Embedding
import VectorSearch.Lib.Text
import VectorSearch.Mcp.Tools

namespace VectorSearch

/-!
# Operating a cluster

`ops.py`: the actions that look at a cluster and repair it, as methods of an
`Operations` object and as tools, and the runbook that runs them.  Every call
they make to the system, the servers or the journal can raise.  The state of an
object is its counter of restarts.
-/

namespace Agent

open Home Mcp

/-! ## Calls -/

structure ToolCall where
  id : String
  name : String
  arguments : Json
  /-- Set when the model's request could not be read. -/
  problem : Option String

structure Turn where
  text : String
  calls : List ToolCall

structure ToolOutcome where
  call : ToolCall
  text : String
  isError : Bool

/-- What a model is told of a tool. -/
structure ToolInfo where
  name : String
  description : String
  inputSchema : Json

/-- What the loop and the tools write to the journal. -/
inductive Entry where
  | model (step : Nat) (text : String) (calls : List (String × Json))
  | tool (tool : String) (arguments : List (String × Json)) (result : String) (error : Bool)

inductive AgentCall (V : Type) where
  /-- `model.begin`. -/
  | begin (system task : String) (tools : List ToolInfo)
  /-- `model.step`. -/
  | step (outcomes : Option (List ToolOutcome))
  /-- `journal.write`. -/
  | journal (entry : Entry)
  | home (call : HomeCall V)
  /-- The text of a log file, if it exists. -/
  | readLog (path : String)
  /-- `search_partial` of a coordinator for the servers of a state, with a query of ones. -/
  | searchPartial (state : ClusterState) (dim : Nat) (k : Int)
  /-- The milliseconds since the search was started, as `:.0f` prints them. -/
  | elapsed
  /-- `repair` of a coordinator for the servers of a state. -/
  | repair (state : ClusterState)

/-- What a call is answered with, or what it raises. -/
def AgentCall.Answer (V D : Type) : AgentCall V → Type
  | begin .. => Except Error PUnit
  | step _ => Except Error Turn
  | journal _ => Except Error PUnit
  | home call => Except Error (HomeCall.Answer V D call)
  | readLog _ => Except Error (Option String)
  | searchPartial .. => Except Error (List Int × List Nat)
  | elapsed => Except Error String
  | repair _ => Except Error (List GrpcCoordinator.ReplicaSync)

/-- The `Counter` of restarts, by shard and replica. -/
abbrev Restarts := Int × Int → Nat

/-- Code that works with an `Operations` object. -/
abbrev Action (V D α : Type) := Client (AgentCall V) (AgentCall.Answer V D) Error Restarts α

variable {V D α : Type}

def callHome (call : HomeCall V) : Action V D (HomeCall.Answer V D call) := do
  let answer : Except Error (HomeCall.Answer V D call) ← Client.call (AgentCall.home call)
  Client.lift answer

/-- A command, each call of which can raise. -/
def perform (command : Command V D α) : Action V D α := Client.carry callHome command

/-- `Journal.write`. -/
def Entry.write (entry : Entry) : Action V D PUnit := do
  let answer : Except Error PUnit ← Client.call (AgentCall.journal entry)
  Client.lift answer

/-! ## Health -/

/-- `sorted({server.shard for server in health})`. -/
def shardsOf (health : List ServerHealth) : List Nat :=
  (health.map ServerHealth.shard).dedup.mergeSort (· ≤ ·)

/-- The problems of the servers of one shard. -/
def shardProblems (shard : Nat) (group : List ServerHealth) : List String :=
  let alive := group.filter ServerHealth.up
  let down := (group.filter fun server => !server.up).map fun server =>
    if server.process then s!"shard {shard} replica {server.replica} does not answer, although its process is running"
    else s!"shard {shard} replica {server.replica} is down"
  if alive.isEmpty then down ++ [s!"shard {shard} has no live replica: searches that need it fail"]
  else if 1 < (alive.map ServerHealth.lastSeq).dedup.length then
    let seqs := ", ".intercalate (alive.map fun server => s!"replica {server.replica} at seq {server.lastSeq}")
    down ++ [s!"replicas of shard {shard} are out of sync ({seqs})"]
  else down

/-- `find_problems`. -/
def findProblems (health : List ServerHealth) : List String :=
  (shardsOf health).flatMap fun shard => shardProblems shard (health.filter fun server => server.shard = shard)

/-- `describe_health`. -/
def describeHealth (health : List ServerHealth) : String :=
  "\n".intercalate ((shardsOf health).map fun shard =>
    let parts := (health.filter fun server => server.shard = shard).map fun server =>
      if server.up then s!"replica {server.replica} up ({Text.grouped server.size} vectors, seq {server.lastSeq})"
      else s!"replica {server.replica} DOWN ({server.address})"
    s!"shard {shard}: " ++ ", ".intercalate parts)

/-- The name of a status code. -/
def statusName : StatusCode → String
  | .invalidArgument => "INVALID_ARGUMENT"
  | .failedPrecondition => "FAILED_PRECONDITION"
  | .unavailable => "UNAVAILABLE"
  | .deadlineExceeded => "DEADLINE_EXCEEDED"
  | .resourceExhausted => "RESOURCE_EXHAUSTED"
  | .unknown => "UNKNOWN"

/-! ## Operations -/

/-- `MAX_LOG_LINES`. -/
def maxLogLines : Int := 100

/-- `items[start:]`. -/
def sliceFrom (start : Int) (items : List α) : List α :=
  items.drop (if start < 0 then items.length + start else start).toNat

/-- The attributes of an `Operations` object that stay, and the interpreter that
servers are started with. -/
structure Operations where
  home : String
  interpreter : String
  dryRun : Bool
  maxRestarts : Int
  startTimeout : Nat

namespace Operations

variable (ops : Operations)

/-- `health`. -/
def health : Action V D (List ServerHealth) := do
  let state ← perform (readState ops.home)
  perform (clusterHealth state.allServers)

/-- `problems`. -/
def problems : Action V D (List String) := do return findProblems (← ops.health)

/-- `cluster_status`. -/
def clusterStatus : Action V D String := do
  let health ← ops.health
  let problems := findProblems health
  let verdict :=
    if problems.isEmpty then "No problems found: every server answers and replicas agree."
    else "Problems:\n" ++ "\n".intercalate (problems.map fun problem => s!"- {problem}")
  return s!"{describeHealth health}\n{verdict}"

/-- `_pick`. -/
def pickServer (shard replica : Int) (state : ClusterState) : Action V D ServerRecord :=
  Client.lift ((pick state shard replica).mapError toTool)

/-- `read_server_log`. -/
def readServerLog (shard replica lines : Int) : Action V D String := do
  let state ← perform (readState ops.home)
  let _ ← pickServer shard replica state
  let manager := state.managedBy.getD ""
  if manager ≠ "" then
    throw (.tool (s!"the logs of shard {shard} replica {replica} are kept by {manager}, not here " ++
      "(e.g. docker compose logs); report that a person should read them."))
  else do
    let answer : Except Error (Option String) ← Client.call
      (AgentCall.readLog s!"{ops.home}/logs/shard-{shard}-replica-{replica}.log")
    match ← Client.lift answer with
    | none => return s!"shard {shard} replica {replica} has no log file yet."
    | some text =>
        let tail := sliceFrom (-min lines maxLogLines) (Text.splitlines text.toList)
        if tail.isEmpty then return "(the log is empty)"
        else return String.ofList (Text.join ['\n'] tail)

/-- `dataset.get("dim", 100)`. -/
def datasetDim : Dataset → Nat
  | .glove .. => 100
  | .documents _ dim .. => dim
  | .memory _ dim => dim

/-- `probe_search`. -/
def probeSearch : Action V D String := do
  let state ← perform (readState ops.home)
  match state.dataset with
  | none => return "The cluster holds no vectors yet, so there is nothing to search."
  | some dataset => do
      let answer : Except Error (List Int × List Nat) ← Client.call
        (AgentCall.searchPartial state (datasetDim dataset) 1)
      let (_, missing) ← Client.lift answer
      let clock : Except Error String ← Client.call AgentCall.elapsed
      let elapsed ← Client.lift clock
      let shards := state.servers.length
      if missing.isEmpty then return s!"A search across all {shards} shards answered in {elapsed} ms."
      else
        return (s!"A search got no answer from shard(s) {missing}: {shards - missing.length} of " ++
          s!"{shards} shards answered, so results are incomplete.")

/-- `restart_server`.  `Home.restartServer` is the same as seen by the file, for
one value of the counter. -/
def restartServer (shard replica : Int) : Action V D String := do
  let state ← perform (readState ops.home)
  let server ← pickServer shard replica state
  let name := s!"shard {shard} replica {replica}"
  let manager := state.managedBy.getD ""
  let health ← perform (clusterHealth state.allServers)
  let current ← Client.lift (healthOf shard replica health)
  let restarts ← get
  if current.up then throw (.tool s!"{name} is already up; there is nothing to restart.")
  else if manager ≠ "" then
    throw (.tool (s!"{name} is run by {manager}, which restarts servers " ++
      "itself; this agent cannot. Check its status again shortly, or report that it is not coming back."))
  else if current.process then
    throw (.tool (s!"{name} does not answer but its process is still running. This " ++
      "agent cannot stop processes: report it for a person to look at."))
  else if ops.maxRestarts ≤ restarts (shard, replica) then
    throw (.tool (s!"{name} was already restarted {ops.maxRestarts} times in this run " ++
      "and did not stay up. Do not try again: read its log and report it."))
  else if ops.dryRun then return s!"DRY RUN: would restart {name}."
  else do
    set (Function.update restarts (shard, replica) (restarts (shard, replica) + 1))
    let state ← perform (spawn ops.home ops.interpreter state shard.toNat replica.toNat)
    perform (writeState state)
    tryCatchThe Error (perform (waitFor ops.home [(shard.toNat, replica.toNat, server)])) fun
      | .user _ => throw (.tool (s!"{name} was started but did not answer within {ops.startTimeout} s. " ++
          "Read its log to see why."))
      | error => throw error
    let back ← Client.lift (healthOf shard replica (← ops.health))
    return (s!"{name} restarted and answering: it recovered {Text.grouped back.size} vectors from its " ++
      s!"disk and is at seq {back.lastSeq}.")

/-- The replicas of a shard that are up and behind. -/
def behindIn (health : List ServerHealth) (shard : Nat) : List String :=
  let alive := health.filter fun server => server.shard = shard && server.up
  let newest := (alive.map ServerHealth.lastSeq).foldr max 0
  (alive.filter fun server => server.lastSeq < newest).map fun server =>
    s!"shard {shard} replica {server.replica} (seq {server.lastSeq} of {newest})"

/-- One line of the answer of `repair`. -/
def showSync (sync : GrpcCoordinator.ReplicaSync) : String :=
  s!"shard {sync.shard}: {sync.replica} caught up from {sync.source} via {sync.method} " ++
    s!"({sync.recordsApplied} log records), now at seq {sync.lastSeq}"

/-- `repair`. -/
def repair : Action V D String := do
  let health ← ops.health
  let behind := (shardsOf health).flatMap (behindIn health)
  if behind.isEmpty then return "Nothing to repair: the replicas that are up already agree."
  else if ops.dryRun then return "DRY RUN: would bring up to date: " ++ "; ".intercalate behind ++ "."
  else do
    let synced ← tryCatchThe Error (do
        let state ← perform (readState ops.home)
        let answer : Except Error (List GrpcCoordinator.ReplicaSync) ← Client.call (AgentCall.repair state)
        Client.lift answer) fun
      | .rpc code details => throw (.tool s!"repair failed: {statusName code}: {details}")
      | error => throw error
    return "\n".intercalate (synced.map showSync)

end Operations
end Agent
end VectorSearch
