import VectorSearch.Agent.Operations
import VectorSearch.Mcp.Survival

namespace VectorSearch

/-!
# The agent and the runbook

`Operations.tools` with `run_agent` of `agent.py`, and `run_runbook`.  The loop
knows the model only by its calls.  A handler gives what it raises as a value,
as `run_tool` takes it.
-/

namespace Agent

open Home Mcp

variable {V D : Type}

/-! ## Arguments -/

/-- Keyword arguments that a function does not take. -/
def takesOnly (names : List String) (arguments : List (String × Json)) : Except Error PUnit :=
  if arguments.all fun argument => argument.1 ∈ names then .ok ⟨⟩ else .error .typeError

/-- A whole number among the keyword arguments. -/
def intArgument (name : String) (arguments : List (String × Json)) : Except Error Int :=
  match Dict.find name arguments with
  | some (.int value) => .ok value
  | _ => .error .typeError

/-! ## The schemas -/

/-- The rule for a whole number that is not negative. -/
def naturalRule : Json := .obj [("type", .str "integer"), ("minimum", .int 0)]

/-- The rule for the number of lines. -/
def linesRule : Json :=
  .obj [("type", .str "integer"), ("minimum", .int 1), ("maximum", .int maxLogLines)]

/-- A schema with these properties, of which the ones named are required. -/
def objectSchema (properties : List (String × Json)) (required : List String) : Json :=
  .obj [("type", .str "object"), ("properties", .obj properties), ("required", .arr (required.map .str))]

/-- `SERVER`. -/
def serverSchema : Json := objectSchema [("shard", naturalRule), ("replica", naturalRule)] ["shard", "replica"]

/-- `NO_ARGUMENTS`. -/
def noArguments : Json := .obj [("type", .str "object"), ("properties", .obj [])]

/-- The schema of `read_server_log`. -/
def logSchema : Json :=
  objectSchema [("shard", naturalRule), ("replica", naturalRule), ("lines", linesRule)] ["shard", "replica"]

theorem integerRule_covered {bounds : List (String × Json)}
    (numbers : ∀ bound ∈ bounds, (number? bound.2).isSome) :
    CoveredRule (.obj (("type", .str "integer") :: bounds)) := by
  refine ⟨_, JsonType.integer, rfl, rfl, ?_, fun impossible => nomatch impossible⟩
  intro key isKey bound found
  have other : "type" ≠ key := by
    rintro rfl
    revert isKey
    decide
  unfold Dict.find at found
  rw [if_neg other] at found
  exact ⟨.inl rfl, numbers _ (Dict.find_mem key bound bounds found)⟩

theorem naturalRule_covered : CoveredRule naturalRule :=
  integerRule_covered fun bound member => by
    rw [List.mem_singleton.mp member]
    rfl

theorem linesRule_covered : CoveredRule linesRule :=
  integerRule_covered fun bound member => by
    rcases List.mem_cons.mp member with rfl | last
    · rfl
    · rw [List.mem_singleton.mp last]
      rfl

theorem objectSchema_covered {properties : List (String × Json)}
    (covered : ∀ rule ∈ properties, CoveredRule rule.2)
    (required : List String) (printable : (objectSchema properties required).printable = true) :
    Covered (objectSchema properties required) := by
  refine ⟨printable, _, rfl, ?_, ?_⟩
  · intro found isFound
    cases Option.some.inj isFound
    exact ⟨properties, rfl, covered⟩
  · intro found isFound
    cases Option.some.inj isFound
    exact ⟨required, rfl⟩

theorem noArguments_covered : Covered noArguments := by
  refine ⟨by decide, _, rfl, ?_, fun _ impossible => nomatch impossible⟩
  intro found isFound
  cases Option.some.inj isFound
  exact ⟨[], rfl, fun _ impossible => nomatch impossible⟩

theorem serverSchema_covered : Covered serverSchema := by
  refine objectSchema_covered (fun rule member => ?_) _ (by decide)
  rcases List.mem_cons.mp member with rfl | last
  · exact naturalRule_covered
  · rw [List.mem_singleton.mp last]
    exact naturalRule_covered

theorem logSchema_covered : Covered logSchema := by
  refine objectSchema_covered (fun rule member => ?_) _ (by decide)
  rcases List.mem_cons.mp member with rfl | rest
  · exact naturalRule_covered
  · rcases List.mem_cons.mp rest with rfl | last
    · exact naturalRule_covered
    · rw [List.mem_singleton.mp last]
      exact linesRule_covered

/-! ## The actions as tools -/

/-- An action with what `_tool` is given for it. -/
structure Method (V D : Type) where
  name : String
  description : String
  inputSchema : Json
  function : List (String × Json) → Action V D String
  covered : Covered inputSchema

/-- What an action tells the caller of its tool: its result, or the text of a
`ToolError` or a `UserError`. -/
def told (action : Action V D String) : Action V D (Except String String) :=
  tryCatchThe Error (do return .ok (← action)) fun
    | .tool text => return .error text
    | .user text => return .error text
    | error => throw error

/-- `journaled`: the handler of a tool. -/
def Method.handler (method : Method V D) (arguments : List (String × Json)) : Action V D String := do
  match ← told (method.function arguments) with
  | .error text => do
      (Entry.tool method.name arguments text true).write
      throw (.tool text)
  | .ok result => do
      (Entry.tool method.name arguments result false).write
      return result

/-- The `try` of `run_tool`; `describe` gives the name of an exception's type
and its text. -/
def catching (describe : Error → String × String) (action : Action V D String) :
    Action V D (Except Raised String) :=
  tryCatchThe Error (do return .ok (← action)) fun
    | .tool text => return .error (.tool text)
    | error => return .error (.other (describe error).1 (describe error).2)

def Method.tool (describe : Error → String × String) (method : Method V D) : Tool (Action V D) where
  name := method.name
  description := method.description
  inputSchema := method.inputSchema
  handler := fun arguments => catching describe (method.handler arguments)
  covered := method.covered

namespace Operations

variable (ops : Operations)

def clusterStatusMethod : Method V D where
  name := "cluster_status"
  description := "Show every shard server (up or down, vectors held, last write applied) " ++
    "and list what is wrong. Call this first, and again after changing anything to confirm the change worked."
  inputSchema := noArguments
  function := fun arguments => do
    Client.lift (takesOnly [] arguments)
    ops.clusterStatus
  covered := noArguments_covered

def restartServerMethod : Method V D where
  name := "restart_server"
  description := "Start a shard server that is down. It recovers its data from its own " ++
    "disk. Only for servers that are down; it fails on one that is up."
  inputSchema := serverSchema
  function := fun arguments => do
    Client.lift (takesOnly ["shard", "replica"] arguments)
    let shard ← Client.lift (intArgument "shard" arguments)
    let replica ← Client.lift (intArgument "replica" arguments)
    ops.restartServer shard replica
  covered := serverSchema_covered

def repairMethod : Method V D where
  name := "repair"
  description := "Bring replicas that missed writes up to date by copying from the most " ++
    "advanced replica of the same shard. Needs the lagging replica to be up, so restart servers first."
  inputSchema := noArguments
  function := fun arguments => do
    Client.lift (takesOnly [] arguments)
    ops.repair
  covered := noArguments_covered

def readServerLogMethod : Method V D where
  name := "read_server_log"
  description := "Read the last lines of one server's log, to find out why it is down or why a restart failed."
  inputSchema := logSchema
  function := fun arguments => do
    Client.lift (takesOnly ["shard", "replica", "lines"] arguments)
    let shard ← Client.lift (intArgument "shard" arguments)
    let replica ← Client.lift (intArgument "replica" arguments)
    let lines ← Client.lift (if (Dict.find "lines" arguments).isSome then
      intArgument "lines" arguments else .ok 40)
    ops.readServerLog shard replica lines
  covered := logSchema_covered

def probeSearchMethod : Method V D where
  name := "probe_search"
  description := "Run one real search across the cluster to check that every shard " ++
    "answers, as a user's search would need."
  inputSchema := noArguments
  function := fun arguments => do
    Client.lift (takesOnly [] arguments)
    ops.probeSearch
  covered := noArguments_covered

def methods : List (Method V D) :=
  [ops.clusterStatusMethod, ops.restartServerMethod, ops.repairMethod, ops.readServerLogMethod,
    ops.probeSearchMethod]

/-- `tools`. -/
def tools (describe : Error → String × String) : List (Tool (Action V D)) :=
    ops.methods.map (Method.tool describe)

end Operations

/-! ## The agent -/

structure AgentRun where
  report : String
  finished : Bool
  steps : Int
  calls : Nat

section Loop

variable (python : Python) (tools : List (Tool (Action V D)))

/-- The tools by their names. -/
def byName : Dict String (Tool (Action V D)) := Dict.ofList (tools.map fun tool => (tool.name, tool))

/-- One call of a turn. -/
def runCall (call : ToolCall) : Action V D ToolOutcome :=
  if call.problem.getD "" ≠ "" then return ⟨call, call.problem.getD "", true⟩
  else
    match (byName tools).get? call.name with
    | none =>
        let names := python.showTexts ((byName tools).keys.mergeSort (· ≤ ·))
        return ⟨call, s!"There is no tool named {python.repr (.str call.name)}. The tools are " ++
          s!"{names}.", true⟩
    | some tool => do
        let run ← Client.lift (runTool python tool call.arguments)
        let (result, isError) ← run
        return ⟨call, result, isError⟩

/-- The calls of a turn, in order. -/
def runCalls : List ToolCall → Action V D (List ToolOutcome)
  | [] => pure []
  | call :: calls => do
      let outcome ← runCall python tools call
      let outcomes ← runCalls calls
      return outcome :: outcomes

/-- The settings of `run_agent`. -/
structure AgentSettings where
  task : String
  system : String
  maxSteps : Int
  /-- Whether the turns are written to the journal. -/
  journal : Bool

/-- The loop of `run_agent`: with so many steps left, the last outcomes, the
calls so far and the last text. -/
def agentLoop (settings : AgentSettings) : Nat → Nat → Option (List ToolOutcome) → Nat →
    String → Action V D AgentRun
  | 0, _, _, calls, text => return ⟨text, false, settings.maxSteps, calls⟩
  | left + 1, step, outcomes, calls, text => do
      let answer : Except Error Turn ← Client.call (AgentCall.step outcomes)
      let turn ← Client.lift answer
      if settings.journal then
        (Entry.model step turn.text (turn.calls.map fun call => (call.name, call.arguments))).write
      if turn.calls.isEmpty then return ⟨turn.text, true, step, calls⟩
      else do
        let outcomes ← runCalls python tools turn.calls
        agentLoop settings left (step + 1) (some outcomes) (calls + turn.calls.length)
          (if turn.text = "" then text else turn.text)

/-- `run_agent`. -/
def runAgent (settings : AgentSettings) : Action V D AgentRun := do
  let infos := tools.map fun tool => ⟨tool.name, tool.description, tool.inputSchema⟩
  let answer : Except Error PUnit ← Client.call (AgentCall.begin settings.system settings.task infos)
  Client.lift answer
  agentLoop python tools settings settings.maxSteps.toNat 1 none 0 ""

end Loop

/-! ## The runbook -/

/-- `str(err).rstrip(".")`. -/
def withoutDots (text : String) : String := String.ofList (text.toList.rdropWhile (· == '.'))

namespace Operations

variable (ops : Operations)

/-- The restarts of a runbook: a note for each server that is not up. -/
def restartDown : List ServerHealth → Action V D (List String)
  | [] => pure []
  | server :: health =>
      if server.up then restartDown health
      else do
        let note ← tryCatchThe Error (do
            let _ ← ops.restartServerMethod.handler
              [("shard", .int server.shard), ("replica", .int server.replica)]
            return s!"restarted shard {server.shard} replica {server.replica}") fun
          | .tool text => return (s!"could not restart shard {server.shard} replica {server.replica}: " ++
              withoutDots text)
          | error => throw error
        let notes ← restartDown health
        return note :: notes

/-- `run_runbook`. -/
def runRunbook : Action V D String := do
  let _ ← ops.clusterStatusMethod.handler []
  let restarts ← ops.restartDown (← ops.health)
  let repairs ← tryCatchThe Error (do
      let result ← ops.repairMethod.handler []
      return if "Nothing to repair".toList <+: result.toList then
        [] else ["repaired replicas that were behind"]) fun
    | .tool text => return [text]
    | error => throw error
  let _ ← ops.probeSearchMethod.handler []
  let notes := restarts ++ repairs
  let outcome :=
    if notes.any fun note => "could not".toList <+: note.toList then "needs a person"
    else if notes.isEmpty then "nothing wrong" else "fixed"
  let done := if notes.isEmpty then "nothing needed doing" else "; ".intercalate notes
  return s!"Runbook: {done}.\nOutcome: {outcome}"

end Operations
end Agent
end VectorSearch
