import VectorSearch.Agent.Conversations
import VectorSearch.Lib.Ghost

namespace VectorSearch

/-!
# Recorded operators

A ghost state lists the invocations of tool functions that an operator has made,
with what each returned or raised.  What every invocation and every call outside
of them keeps is kept by `run_agent` and by the runbook.
-/

namespace Agent

open Home Mcp

variable {V D α β : Type}

/-! ## Invocations -/

/-- One invocation of a tool function, and how it ended. -/
structure Invocation where
  tool : String
  arguments : List (String × Json)
  outcome : Except Error String

def Invocation.failed (invocation : Invocation) : Bool :=
  match invocation.outcome with
  | .ok _ => false
  | .error _ => true

def AgentCall.isEntry : AgentCall V → Bool
  | journal (.tool ..) => true
  | _ => false

/-- A call that makes no entry of a tool. -/
def Unjournaled (call : AgentCall V) : Prop := call.isEntry = false

/-- One that changes nothing either. -/
def Quiet (call : AgentCall V) : Prop := call.isEntry = false ∧ call.changes = false

/-- Code with the counter of restarts and, as ghost state, its invocations. -/
abbrev Recorder (V D α : Type) := Client (AgentCall V) (AgentCall.Answer V D) Error
    (Restarts × List Invocation) α

/-! ## The handlers -/

/-- How an action ends, as a value. -/
def ended (action : Action V D α) : Action V D (Except Error α) :=
  tryCatchThe Error (do return .ok (← action)) fun error => return .error error

/-- What `journaled` does with the end of its function. -/
def Method.conclude (method : Method V D) (arguments : List (String × Json)) : Except Error String →
    Action V D String
  | .ok result => do
      (Entry.tool method.name arguments result false).write
      return result
  | .error (.tool text) => do
      (Entry.tool method.name arguments text true).write
      throw (.tool text)
  | .error (.user text) => do
      (Entry.tool method.name arguments text true).write
      throw (.tool text)
  | .error error => throw error

theorem ended_run (action : Action V D α) (restarts : Restarts) :
    ended action restarts = (action restarts).bind fun
      | .ok value restarts => .done (.ok (.ok value) restarts)
      | .error error restarts => .done (.ok (.error error) restarts) := by
  refine (Remote.bind_assoc (action restarts) _ _).trans (congrArg (Remote.bind · (action restarts)) ?_)
  funext result
  cases result with
  | ok value restarts => rfl
  | error error restarts => rfl

theorem told_run (action : Action V D String) (restarts : Restarts) :
    told action restarts = (action restarts).bind fun
      | .ok value restarts => .done (.ok (.ok value) restarts)
      | .error (.tool text) restarts => .done (.ok (.error text) restarts)
      | .error (.user text) restarts => .done (.ok (.error text) restarts)
      | .error error restarts => .done (.error error restarts) := by
  refine (Remote.bind_assoc (action restarts) _ _).trans (congrArg (Remote.bind · (action restarts)) ?_)
  funext result
  cases result with
  | ok value restarts => rfl
  | error error restarts => cases error <;> rfl

theorem Method.handler_eq (method : Method V D) (arguments : List (String × Json)) :
    method.handler arguments = ended (method.function arguments) >>= method.conclude arguments := by
  funext restarts
  change (told (method.function arguments) restarts).bind _ =
    (ended (method.function arguments) restarts).bind _
  rw [told_run, ended_run, Remote.bind_assoc, Remote.bind_assoc]
  refine congrArg (Remote.bind · (method.function arguments restarts)) ?_
  funext result
  cases result with
  | ok value restarts => rfl
  | error error restarts => cases error <;> rfl

/-- `journaled`, with the invocation recorded. -/
def Method.invoke (method : Method V D) (arguments : List (String × Json)) : Recorder V D String := do
  let outcome ← Client.quietly (ended (method.function arguments))
  Client.note (· ++ [⟨method.name, arguments, outcome⟩])
  Client.quietly (method.conclude arguments outcome)

/-- An end that is a value is no exception. -/
theorem ended_ensures {World : Type} {network : Network (AgentCall V) (AgentCall.Answer V D) World}
    {always : World → Prop} {before : Restarts → World → Prop} {action : Action V D α}
    {outcome : Except Error α → Restarts → World → Prop}
    (ensures : Client.Ensures network always before action (fun value => outcome (.ok value)) fun error =>
      outcome (.error error))
    {raised : Error → Restarts → World → Prop} : Client.Ensures network always before
    (ended action) outcome raised :=
  Client.Ensures.tryCatch
    (Client.Ensures.bind ensures fun _ => Client.Ensures.pure fun _ _ here => here)
    fun _ => Client.Ensures.pure fun _ _ here => here

/-- What an invocation leaves behind, from what its function and the entry do. -/
theorem Method.invoke_ensures {World : Type} {network : Network (AgentCall V) (AgentCall.Answer V D) World}
    {method : Method V D} {arguments : List (String × Json)} {before : List Invocation → World → Prop}
    (between : Except Error String → List Invocation → World → Prop)
    {returned : String → List Invocation → World → Prop} {raised : Error → List Invocation → World → Prop}
    (runs : ∀ log, Client.Ensures network (fun _ => True) (fun _ => before log)
      (ended (method.function arguments))
      (fun outcome _ => between outcome log) fun _ _ _ => False)
    (concludes : ∀ outcome log, Client.Ensures network (fun _ => True) (fun _ => between outcome log)
      (method.conclude arguments outcome)
        (fun text _ => returned text (log ++ [⟨method.name, arguments, outcome⟩]))
      fun error _ => raised error (log ++ [⟨method.name, arguments, outcome⟩])) :
    Client.Ensures network (fun _ => True) (fun state => before state.2) (method.invoke arguments)
      (fun text state => returned text state.2) fun error state => raised error state.2 := by
  refine Client.Ensures.through (fun outcome state => between outcome state.2) ?_ fun outcome => ?_
  · exact Client.Ensures.quietly fun log =>
      Client.Ensures.imp (runs log) (fun _ _ here => here) (fun _ _ _ here => here)
        fun _ _ _ impossible => nomatch impossible
  refine Client.Ensures.through (fun _ state world =>
    ∃ log, state.2 = log ++ [⟨method.name, arguments, outcome⟩] ∧ between outcome log world) ?_ fun _ => ?_
  · exact Client.Ensures.note fun _ log _ here => ⟨log, rfl, here⟩
  · refine Client.Ensures.quietly fun log => Client.Ensures.some fun earlier => ?_
    rintro restarts world ⟨whole, here⟩
    cases whole
    exact concludes outcome earlier restarts world here

/-! ## Recorders -/

/-- What is kept by every invocation of a tool, and by every call that has nothing
to do with tools. -/
structure KeptByTools (ops : Operations) (holds : List Invocation → List (Event V D) → Prop) : Prop where
  quiet : ∀ {log : List Invocation} {history : List (Event V D)} {call : AgentCall V}
    (answer : AgentCall.Answer V D call),
    Quiet call → holds log history → holds log (history ++ [⟨call, answer⟩])
  invoke : ∀ method ∈ (ops.methods : List (Method V D)), ∀ arguments,
    Client.Ensures (anyWorld V D) (fun _ => True) (fun state => holds state.2) (method.invoke arguments)
      (fun _ state => holds state.2) fun _ state => holds state.2

/-- An action with its invocations recorded. -/
structure Recorded (ops : Operations) (action : Action V D α) where
  program : Recorder V D α
  erases : Client.Erases program action
  keeps : ∀ {holds : List Invocation → List (Event V D) → Prop}, KeptByTools ops holds →
    Client.Ensures (anyWorld V D) (fun _ => True) (fun state => holds state.2) program
      (fun _ state => holds state.2)
      fun _ state => holds state.2

namespace Recorded

variable {ops : Operations}

/-- Code that has nothing to do with tools. -/
def quiet (action : Action V D α) (only : Client.Only Quiet action) : Recorded ops action where
  program := Client.quietly action
  erases := .quietly action
  keeps := by
    intro holds kept
    have runs : ∀ log, Client.Ensures (anyWorld V D) (fun _ => True) (fun _ => holds log) action
      (fun _ _ => holds log)
        fun _ _ => holds log := by
      refine fun log => Client.Ensures.of_only only (fun _ _ _ move => nomatch move) (fun _ _ => trivial) ?_
      rintro call isQuiet history answer last here rfl
      exact kept.quiet answer isQuiet here
    exact Client.Ensures.quietly runs

/-- The handler of a tool. -/
def handler {method : Method V D} (member : method ∈ ops.methods) (arguments : List (String × Json)) :
    Recorded ops (method.handler arguments) where
  program := method.invoke arguments
  erases := by
    rw [method.handler_eq]
    exact Client.Erases.bind (.quietly _) fun outcome => Client.Erases.note_bind (.quietly _)
  keeps := fun kept => kept.invoke method member arguments

def bind {first : Action V D α} {next : α → Action V D β} (front : Recorded ops first)
    (back : ∀ value, Recorded ops (next value)) : Recorded ops (first >>= next) where
  program := front.program >>= fun value => (back value).program
  erases := front.erases.bind fun value => (back value).erases
  keeps := fun kept => Client.Ensures.bind (front.keeps kept) fun value => (back value).keeps kept

def attempt {body : Action V D α} {handle : Error → Action V D α} (tries : Recorded ops body)
    (handles : ∀ error, Recorded ops (handle error)) : Recorded ops (tryCatchThe Error body handle) where
  program := tryCatchThe Error tries.program fun error => (handles error).program
  erases := tries.erases.tryCatch fun error => (handles error).erases
  keeps := fun kept => Client.Ensures.tryCatch (tries.keeps kept) fun error => (handles error).keeps kept

def either {condition : Prop} [Decidable condition] {yes no : Action V D α} (first : Recorded ops yes)
    (second : Recorded ops no) : Recorded ops (if condition then yes else no) where
  program := if condition then first.program else second.program
  erases := by
    split
    · exact first.erases
    · exact second.erases
  keeps := by
    intro holds kept
    split
    · exact first.keeps kept
    · exact second.keeps kept

/-- The same for another way to write the action. -/
def of_eq {action other : Action V D α} (recorded : Recorded ops other) (same : action = other) :
    Recorded ops action where
  program := recorded.program
  erases := same ▸ recorded.erases
  keeps := recorded.keeps

/-- The `try` of `run_tool`. -/
def catching (describe : Error → String × String) {action : Action V D String}
    (recorded : Recorded ops action) :
    Recorded ops (catching describe action) :=
  .attempt (.bind recorded fun _ => .quiet _ (.pure _)) fun error => .quiet _ (by
    split
    · exact .pure _
    · exact .pure _)

end Recorded

/-! ## The functions leave the journal alone -/

theorem callHome_only {kind : AgentCall V → Prop} {call : HomeCall V} (isKind : kind (.home call)) :
    Client.Only kind (callHome call : Action V D _) := .bind (.call isKind) fun _ => .lift _

theorem perform_unjournaled (command : Command V D α) : Client.Only Unjournaled
    (perform command : Action V D α) :=
  .carry _ (.any command) fun _ _ => callHome_only rfl

theorem perform_quiet {command : Command V D α} (reads : Reads command) :
    Client.Only Quiet (perform command : Action V D α) :=
  .carry _ reads fun _ quiet => callHome_only ⟨rfl, quiet⟩

namespace Operations

variable (ops : Operations)

theorem health_quiet : Client.Only Quiet (ops.health : Action V D _) :=
  .bind (perform_quiet (readState_reads _)) fun _ => perform_quiet (clusterHealth_reads _)

theorem health_unjournaled : Client.Only Unjournaled (ops.health : Action V D _) :=
  .bind (perform_unjournaled _) fun _ => perform_unjournaled _

theorem clusterStatus_quiet : Client.Only Quiet (ops.clusterStatus : Action V D _) :=
  .bind ops.health_quiet fun _ => .pure _

theorem readServerLog_quiet (shard replica lines : Int) :
    Client.Only Quiet (ops.readServerLog shard replica lines : Action V D _) := by
  refine .bind (perform_quiet (readState_reads _)) fun state => .bind (.lift _) fun server => ?_
  dsimp only
  split
  · exact .throw _
  · refine .bind (.call ⟨rfl, rfl⟩) fun answer => .bind (.lift _) fun found => ?_
    split
    · exact .pure _
    · split
      · exact .pure _
      · exact .pure _

theorem probeSearch_quiet : Client.Only Quiet (ops.probeSearch : Action V D _) := by
  refine .bind (perform_quiet (readState_reads _)) fun state => ?_
  split
  · exact .pure _
  · refine .bind (.call ⟨rfl, rfl⟩) fun answer => .bind (.lift _) fun found => ?_
    refine .bind (.call ⟨rfl, rfl⟩) fun clock => .bind (.lift _) fun elapsed => ?_
    dsimp only
    split
    · exact .pure _
    · exact .pure _

theorem restartServer_unjournaled (shard replica : Int) :
    Client.Only Unjournaled (ops.restartServer shard replica : Action V D _) := by
  refine .bind (perform_unjournaled _) fun state => .bind (.lift _) fun server => ?_
  refine .bind (perform_unjournaled _) fun health => .bind (.lift _) fun current => ?_
  refine Client.Only.bind (fun _ => trivial) fun restarts => ?_
  split
  · exact .throw _
  split
  · exact .throw _
  split
  · exact .throw _
  split
  · exact .throw _
  split
  · exact .pure _
  refine Client.Only.bind (fun _ => trivial) fun _ => .bind (perform_unjournaled _) fun started => ?_
  refine .bind (perform_unjournaled _) fun _ => .bind (.tryCatch (perform_unjournaled _) fun error => ?_)
    fun _ => ?_
  · split
    · exact .throw _
    · exact .throw _
  · exact .bind ops.health_unjournaled fun health => .bind (.lift _) fun back => .pure _

theorem repair_unjournaled : Client.Only Unjournaled (ops.repair : Action V D _) := by
  refine .bind ops.health_unjournaled fun health => ?_
  dsimp only
  split
  · exact .pure _
  · split
    · exact .pure _
    · refine .bind (.tryCatch (.bind (perform_unjournaled _) fun state => .bind (.call rfl) fun answer =>
        .lift _)
        fun error => ?_) fun synced => .pure _
      split
      · exact .throw _
      · exact .throw _

theorem methods_unjournaled {method : Method V D} (member : method ∈ ops.methods)
    (arguments : List (String × Json)) :
    Client.Only Unjournaled (method.function arguments) := by
  unfold methods at member
  simp only [List.mem_cons, List.not_mem_nil, or_false] at member
  rcases member with rfl | rfl | rfl | rfl | rfl
  · exact .bind (.lift _) fun _ => ops.clusterStatus_quiet.imp fun _ => And.left
  · refine .bind (.lift _) fun _ => .bind (.lift _) fun shard => .bind (.lift _) fun replica => ?_
    exact ops.restartServer_unjournaled shard replica
  · exact .bind (.lift _) fun _ => ops.repair_unjournaled
  · refine .bind (.lift _) fun _ => .bind (.lift _) fun shard => .bind (.lift _) fun replica => ?_
    exact .bind (.lift _) fun lines => (ops.readServerLog_quiet shard replica lines).imp fun _ => And.left
  · exact .bind (.lift _) fun _ => ops.probeSearch_quiet.imp fun _ => And.left

end Operations

/-! ## The runbook -/

namespace Operations

variable (ops : Operations)

/-- The restarts of a runbook. -/
def recordRestarts : (health : List ServerHealth) → Recorded ops (ops.restartDown health : Action V D _)
  | [] => .quiet (pure []) (.pure _)
  | server :: health =>
      .either (recordRestarts health)
        (.bind
          (.attempt
            (.bind (Recorded.handler (List.mem_cons_of_mem _ List.mem_cons_self) _) fun _ => .quiet _ (.pure _))
            fun error => .quiet _ (by
              split
              · exact .pure _
              · exact .throw _))
          fun note => .bind (recordRestarts health) fun notes => .quiet _ (.pure _))

/-- `run_runbook` with its invocations. -/
def recordRunbook : Recorded ops (ops.runRunbook : Action V D _) :=
  .bind (Recorded.handler List.mem_cons_self []) fun _ =>
    .bind (.quiet _ ops.health_quiet) fun health =>
      .bind (ops.recordRestarts health) fun restarts =>
        .bind
          (.attempt
            (.bind
              (Recorded.handler (List.mem_cons_of_mem _ (List.mem_cons_of_mem _ List.mem_cons_self)) [])
              fun result => .quiet _ (.pure _))
            fun error => .quiet _ (by
              split
              · exact .pure _
              · exact .throw _))
          fun repairs =>
            .bind (Recorded.handler (by
              unfold methods
              simp only [List.mem_cons, true_or, or_true]) [])
              fun _ => .quiet _ (.pure _)

end Operations

/-! ## The agent -/

section Agents

variable (python : Python) (describe : Error → String × String) (ops : Operations)

/-- The method of a tool's name. -/
def Operations.methodNamed (name : String) : Option { method : Method V D // method ∈ ops.methods } :=
  ops.methods.attach.find? fun method => method.val.name = name

theorem Operations.get?_tools (name : String) :
    (byName (ops.tools describe) : Dict String (Tool (Action V D))).get? name =
      (ops.methodNamed name).map fun method => method.val.tool describe := by
  have pairs : (ops.tools describe).map (fun tool => (tool.name, tool)) =
      (ops.methods.attach : List { method : Method V D // method ∈ ops.methods }).map fun method =>
        (method.val.name, method.val.tool describe) := by
    unfold tools
    rw [List.map_map]
    exact (List.attach_map_val (f := fun method : Method V D => (method.name, method.tool describe))).symm
  have distinct : ((ops.tools describe : List (Tool (Action V D))).map (fun tool => (tool.name, tool))
    |>.map Prod.fst).Nodup := by
    rw [List.map_map]
    change ["cluster_status", "restart_server", "repair", "read_server_log", "probe_search"].Nodup
    decide
  have whole := Dict.ofList_entries ⟨_, distinct⟩
  unfold byName
  dsimp only at whole
  rw [whole]
  refine Eq.trans (congrArg (Dict.find name) pairs) ?_
  rw [Dict.find_map]
  rfl

/-- The call of a tool once its arguments are checked. -/
def checkedCall (method : Method V D) (call : ToolCall) (arguments : Json)
    (checked : Except Error (Option String)) :
    Action V D ToolOutcome := do
  let run ← Client.lift do
    match ← checked with
    | some problem => return pure (s!"Cannot call {method.name}: {problem}.", true)
    | none =>
        match arguments with
        | .obj fields => return do
            let ended ← (method.tool describe).handler fields
            return outcome method.name ended
        | _ => throw .typeError
  let (result, isError) ← run
  return ⟨call, result, isError⟩

def recordChecked {method : Method V D} (member : method ∈ ops.methods) (call : ToolCall) :
    (arguments : Json) → (checked : Except Error (Option String)) →
      Recorded ops (checkedCall describe method call arguments checked)
  | _, .error error => .quiet (throw error) (.throw _)
  | _, .ok (some problem) =>
      .quiet (pure (ToolOutcome.mk call s!"Cannot call {method.name}: {problem}." true)) (.pure _)
  | .obj fields, .ok none =>
      .of_eq
        (.bind (.bind (.catching describe (Recorded.handler member fields)) fun ended =>
            .quiet (pure (outcome method.name ended)) (.pure _))
          fun given => .quiet (pure (ToolOutcome.mk call given.1 given.2)) (.pure _))
        rfl
  | .null, .ok none | .bool _, .ok none | .int _, .ok none | .float _, .ok none | .str _,
      .ok none | .arr _, .ok none =>
      .quiet (throw .typeError) (.throw _)

/-- One call of a turn. -/
def recordCall (call : ToolCall) : Recorded ops (runCall python (ops.tools describe) call : Action V D _) :=
  .either (.quiet _ (.pure _))
    (match found : ops.methodNamed (V := V) (D := D) call.name with
    | none => .quiet _ (by
        rw [ops.get?_tools describe, found]
        exact .pure _)
    | some method =>
        .of_eq (recordChecked describe ops method.property call call.arguments
            (python.checkArguments method.val.inputSchema call.arguments)) (by
          rw [ops.get?_tools describe, found]
          rfl))

/-- The calls of a turn. -/
def recordCalls : (calls : List ToolCall) →
    Recorded ops (runCalls python (ops.tools describe) calls : Action V D _)
  | [] => .quiet (pure []) (.pure _)
  | call :: calls =>
      .bind (recordCall python describe ops call) fun outcome =>
        .bind (recordCalls calls) fun outcomes => .quiet (pure (outcome :: outcomes)) (.pure _)

def recordLoop (settings : AgentSettings) : (left step : Nat) → (outcomes : Option (List ToolOutcome)) →
    (calls : Nat) →
    (text : String) →
      Recorded ops (agentLoop python (ops.tools describe) settings left step outcomes calls text : Action V D _)
  | 0, _, _, calls, text => .quiet (pure (AgentRun.mk text false settings.maxSteps calls)) (.pure _)
  | left + 1, step, _, calls, text =>
      .bind (.quiet _ (.call ⟨rfl, rfl⟩)) fun answer =>
        .bind (.quiet _ (.lift answer)) fun turn =>
          let rest := .either (.quiet _ (.pure _))
            (.bind (recordCalls python describe ops turn.calls) fun given =>
            recordLoop settings left (step + 1) (some given) (calls + turn.calls.length)
              (if turn.text = "" then text else turn.text))
          .either (.bind (.quiet _ (.bind (.call ⟨rfl, rfl⟩) fun _ => .lift _)) fun _ => rest) rest

/-- `run_agent` with its invocations. -/
def recordAgent (settings : AgentSettings) :
    Recorded ops (runAgent python (ops.tools describe) settings : Action V D _) :=
  .bind (.quiet _ (.call ⟨rfl, rfl⟩)) fun answer =>
    .bind (.quiet _ (.lift answer)) fun _ =>
      recordLoop python describe ops settings settings.maxSteps.toNat 1 none 0 ""

end Agents

end Agent
end VectorSearch
