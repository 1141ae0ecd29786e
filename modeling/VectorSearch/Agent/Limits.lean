import Std.Data.String.ToNat
import VectorSearch.Agent.Loop
import VectorSearch.Lib.Histories

namespace VectorSearch

/-!
# The limits of an operator

What an agent can do to a cluster, whatever its model asks for and whatever the
servers, the system and the journal do.  A history keeps every call with what it
was answered, and any answer is possible.

A server is started only after it was seen to be down, and no more often than
the counter says.  In a dry run nothing is changed.  The loop ends after the
steps it was given, hands the outcomes of all calls back, and raises only what
the model or its own journal raised.
-/

namespace Agent

open Home Mcp

variable {V D α β : Type}

/-! ## Histories -/

/-- A call with what it was answered. -/
abbrev Event (V D : Type) := Remote.Event (AgentCall V) (AgentCall.Answer V D)

/-- The world that can answer anything, and keeps all of it. -/
abbrev anyWorld (V D : Type) : Network (AgentCall V) (AgentCall.Answer V D) (List (Event V D)) :=
  Remote.observing some

/-- Starting a process, writing `cluster.json`, or repairing. -/
def AgentCall.changes : AgentCall V → Bool
  | home (.spawn _) => true
  | home (.writeFile _) => true
  | home .unlinkFile => true
  | repair _ => true
  | _ => false

/-- The data directory of a server. -/
def serverDir (home : String) (shard replica : Nat) : String := s!"{home}/shard-{shard}-replica-{replica}"

/-- Starting a process. -/
def AgentCall.isSpawn : AgentCall V → Bool
  | home (.spawn _) => true
  | _ => false

/-- Whether a call starts a server on a data directory. -/
def AgentCall.starts (dir : String) : AgentCall V → Bool
  | home (.spawn command) => command.getLast? = some dir
  | _ => false

/-- Looking at a server or its process. -/
def AgentCall.looks : AgentCall V → Bool
  | home (.serverStatus _) => true
  | home (.processCommand _) => true
  | _ => false

/-- What a model was handed, with its turn or what it raised. -/
def turnOf : Event V D → Option (Option (List ToolOutcome) × Except Error Turn)
  | ⟨.step outcomes, answer⟩ => some (outcomes, answer)
  | _ => none

def turns (history : List (Event V D)) : List (Option (List ToolOutcome) × Except Error Turn) :=
  history.filterMap turnOf

/-! ## The limits -/

/-- No process of the server was seen: none is recorded, or another program runs
under its process id. -/
def NotRunning (server : ServerRecord) (seen : List (Event V D)) : Prop :=
  server.pid = none ∨ ∃ pid command, server.pid = some pid ∧ isServer server command = false ∧
    ⟨.home (.processCommand pid), .ok command⟩ ∈ seen

/-- The reason to start a server: after reading the state nothing was done but
looking at servers, the server exists in it, nothing else runs the cluster, the
server did not answer, and it had no process. -/
def RightlyStarted (ops : Operations) (before : List (Event V D)) (command : List String) : Prop :=
  ∃ front state seen shard replica server seed,
    before = front ++ ⟨.home .readFile, .ok (some state)⟩ :: seen ∧ (∀ event ∈ seen, event.1.looks = true) ∧
      state.server? shard replica = some server ∧ state.seed = some seed ∧
      command = ops.interpreter ::
        serverCommand server.port state.serverArgs (seed + shard) (serverDir ops.home shard replica) ∧
      state.managedBy.getD "" = "" ∧ ⟨.home (.serverStatus server), .ok none⟩ ∈ seen ∧ NotRunning server seen

/-- Every start of a server had its reason. -/
def StartedRightly (ops : Operations) : List (Event V D) → Prop :=
  Each fun before event => ∀ command, event.1 = .home (.spawn command) → RightlyStarted ops before command

/-- The limits that an `Operations` object keeps. -/
structure WithinLimits (ops : Operations) (history : List (Event V D)) : Prop where
  few : ∀ shard replica,
    (history.countP fun event => event.1.starts (serverDir ops.home shard replica) : Int) ≤
      max ops.maxRestarts 0
  rightly : StartedRightly ops history
  dry : ops.dryRun = true → ∀ event ∈ history, event.1.changes = false

/-- A conversation: few enough turns, the first without outcomes, and each later
one with an outcome for every call of the turn before, in order. -/
structure Conversation (maxSteps : Int) (turns : List (Option (List ToolOutcome) × Except Error Turn)) :
    Prop where
  few : (turns.length : Int) ≤ max maxSteps 0
  first : ∀ turn ∈ turns.head?, turn.1 = none
  follows : turns.IsChain fun earlier later => ∃ turn outcomes, earlier.2 = .ok turn ∧ later.1 = some outcomes ∧
    outcomes.map ToolOutcome.call = turn.calls

/-- An exception of the model, or of the journal of the loop. -/
inductive OwnFault (error : Error) : Event V D → Prop
  | begin {system task : String} {tools : List ToolInfo} : OwnFault error
      ⟨.begin system task tools, .error error⟩
  | step {outcomes : Option (List ToolOutcome)} : OwnFault error ⟨.step outcomes, .error error⟩
  | journal {step : Nat} {text : String} {calls : List (String × Json)} :
      OwnFault error ⟨.journal (.model step text calls), .error error⟩

/-! ## What is kept -/

/-- What is known between any two calls: the counter is not behind the history,
and the model has had these turns. -/
structure Kept (ops : Operations) (talk : List (Option (List ToolOutcome) × Except Error Turn))
    (restarts : Restarts) (history : List (Event V D)) : Prop where
  counted : ∀ shard replica : Nat,
    (history.countP fun event => event.1.starts (serverDir ops.home shard replica)) ≤ restarts (shard, replica)
  allowed : ∀ server, (restarts server : Int) ≤ max ops.maxRestarts 0
  rightly : StartedRightly ops history
  dry : ops.dryRun = true → ∀ event ∈ history, event.1.changes = false
  talk : turns history = talk

/-- What is known at any moment. -/
def Safe (ops : Operations) (talk : List (Option (List ToolOutcome) × Except Error Turn))
    (history : List (Event V D)) :
    Prop := WithinLimits ops history ∧ turns history = talk

section Kept

variable {ops : Operations} {talk : List (Option (List ToolOutcome) × Except Error Turn)} {restarts : Restarts}
  {history : List (Event V D)}

theorem Kept.within (kept : Kept ops talk restarts history) : WithinLimits ops history := by
  refine ⟨fun shard replica => ?_, kept.rightly, kept.dry⟩
  have counted := kept.counted shard replica
  have allowed := kept.allowed (shard, replica)
  omega

theorem Kept.safe (kept : Kept ops talk restarts history) : Safe ops talk history := ⟨kept.within, kept.talk⟩

theorem Kept.new : Kept ops [] (fun _ => 0) ([] : List (Event V D)) :=
  ⟨fun _ _ => Nat.le_refl _, fun _ => le_max_right _ _, Each.nil,
    (fun _ _ impossible => nomatch impossible), rfl⟩

theorem dry_append {event : Event V D} (before : ops.dryRun = true → ∀ event ∈ history, event.1.changes = false)
    (now : ops.dryRun = true → event.1.changes = false) :
    ops.dryRun = true → ∀ other ∈ history ++ [event], other.1.changes = false := by
  intro isDry other member
  rcases List.mem_append.mp member with old | new
  · exact before isDry other old
  · rw [List.mem_singleton.mp new]
    exact now isDry

theorem starts_spawn {call : AgentCall V} {dir : String} (starts : call.starts dir = true) :
    call.isSpawn = true := by
  cases call with
  | home call =>
      cases call with
      | spawn command => rfl
      | _ => cases starts
  | _ => cases starts

/-- A call that starts no server keeps everything but the turns. -/
theorem Kept.other {call : AgentCall V} {answer : AgentCall.Answer V D call}
    (kept : Kept ops talk restarts history)
    (noStart : call.isSpawn = false) (dry : ops.dryRun = true → call.changes = false) :
    Kept ops (talk ++ (turnOf ⟨call, answer⟩).toList) restarts (history ++ [⟨call, answer⟩]) := by
  refine ⟨fun shard replica => ?_, kept.allowed, ?_, dry_append kept.dry dry, ?_⟩
  · rw [List.countP_append, List.countP_singleton, if_neg]
    · exact kept.counted shard replica
    · intro starts
      rw [starts_spawn starts] at noStart
      cases noStart
  · refine Each.append_iff.mpr ⟨kept.rightly, fun command same => ?_⟩
    rw [show call = _ from same] at noStart
    cases noStart
  · rw [turns, List.filterMap_append, ← kept.talk]
    rfl

theorem Kept.quiet {call : AgentCall V} {answer : AgentCall.Answer V D call}
    (kept : Kept ops talk restarts history)
    (noStart : call.isSpawn = false) (noTurn : turnOf ⟨call, answer⟩ = none)
    (dry : ops.dryRun = true → call.changes = false) : Kept ops talk restarts
    (history ++ [⟨call, answer⟩]) := by
  have next : Kept ops (talk ++ (turnOf ⟨call, answer⟩).toList) restarts (history ++ [⟨call, answer⟩]) :=
    kept.other noStart dry
  rw [noTurn, Option.toList_none, List.append_nil] at next
  exact next

end Kept

/-! ## Actions that keep it -/

/-- An action that keeps what is known, without a turn of the model. -/
def Keeps (ops : Operations) (action : Action V D α) : Prop :=
  ∀ talk, Client.Ensures (anyWorld V D) (Safe ops talk) (Kept ops talk) action (fun _ => Kept ops talk)
    fun _ => Kept ops talk

namespace Keeps

variable {ops : Operations}

theorem pure (value : α) : Keeps ops (pure value : Action V D α) :=
  fun _ => Client.Ensures.pure fun _ _ kept => kept

theorem throw (error : Error) : Keeps ops (throw error : Action V D α) :=
  fun _ => Client.Ensures.throw fun _ _ kept => kept

theorem lift (result : Except Error α) : Keeps ops (Client.lift result : Action V D α) :=
  fun _ => Client.Ensures.lift (fun _ _ _ _ kept => kept) fun _ _ _ _ kept => kept

theorem bind {first : Action V D α} {next : α → Action V D β} (front : Keeps ops first)
    (back : ∀ value, Keeps ops (next value)) : Keeps ops (first >>= next) :=
  fun talk => Client.Ensures.bind (front talk) fun value => back value talk

theorem tryCatch {body : Action V D α} {handle : Error → Action V D α} (tries : Keeps ops body)
    (handles : ∀ error, Keeps ops (handle error)) : Keeps ops (tryCatchThe Error body handle) :=
  fun talk => Client.Ensures.tryCatch (tries talk) fun error => handles error talk

end Keeps

/-- A triple for one call: what is known before it, and what its answer adds. -/
theorem ensures_call {call : AgentCall V} {always : List (Event V D) → Prop}
    {before : Restarts → List (Event V D) → Prop}
    {returned : AgentCall.Answer V D call → Restarts → List (Event V D) → Prop}
    {raised : Error → Restarts → List (Event V D) → Prop}
    (good : ∀ restarts history, before restarts history → always history)
    (given : ∀ restarts history answer, before restarts history → returned answer restarts
      (history ++ [⟨call, answer⟩])) :
    Client.Ensures (anyWorld V D) always before (Client.call call) returned raised := by
  apply Client.Ensures.call
  · exact fun _ _ _ _ move => nomatch move
  · exact good
  · intro restarts history answer last holds isLast
    rw [show last = _ from isLast]
    exact given restarts history answer holds

/-- A call that starts no server and is no turn. -/
theorem Keeps.call {ops : Operations} {call : AgentCall V} (noStart : call.isSpawn = false)
    (noTurn : ∀ answer : AgentCall.Answer V D call, turnOf ⟨call, answer⟩ = none)
    (dry : ops.dryRun = true → call.changes = false) : Keeps ops (Client.call call : Action V D _) := by
  intro talk
  exact ensures_call (fun _ _ kept => kept.safe) fun _ _ answer kept => kept.quiet noStart (noTurn answer) dry

/-- A command that changes nothing. -/
def Reads (command : Command V D α) : Prop :=
  Client.Only (fun call => (AgentCall.home call).changes = false) command

theorem Reads.call {call : HomeCall V} (quiet : (AgentCall.home call).changes = false) :
    Reads (Client.call call : Command V D _) := Client.Only.call quiet

theorem readState_reads (home : String) : Reads (readState home : Command V D _) := by
  apply Client.Only.bind (Reads.call rfl)
  intro found
  split
  · exact .throw _
  · exact .pure _

theorem isRunning_reads (server : ServerRecord) : Reads (isRunning server : Command V D _) := by
  unfold isRunning
  split
  · exact .pure _
  · exact .bind (Reads.call rfl) fun _ => .pure _

theorem clusterHealth_reads (servers : List (Nat × Nat × ServerRecord)) :
    Reads (clusterHealth servers : Command V D _) := by
  induction servers with
  | nil => exact .pure _
  | cons server rest inductionHypothesis =>
      apply Client.Only.bind (Reads.call rfl)
      intro reply
      apply Client.Only.bind (isRunning_reads _)
      intro running
      exact .bind inductionHypothesis fun _ => .pure _

theorem waitFor_reads (home : String) (servers : List (Nat × Nat × ServerRecord)) :
    Reads (waitFor home servers : Command V D _) := by
  induction servers with
  | nil => exact .pure _
  | cons server rest inductionHypothesis =>
      apply Client.Only.bind (Reads.call rfl)
      intro ready
      split
      · exact inductionHypothesis
      · exact .throw _

section Home

variable {ops : Operations}

theorem callHome_keeps {call : HomeCall V} (noStart : (AgentCall.home call).isSpawn = false)
    (dry : ops.dryRun = true → (AgentCall.home call).changes = false) :
    Keeps ops (callHome call : Action V D _) :=
  .bind (.call noStart (fun _ => rfl) dry) fun _ => .lift _

theorem Keeps.perform {command : Command V D α} (reads : Reads command) :
    Keeps ops (Agent.perform command : Action V D α) := by
  intro talk
  refine Client.Ensures.carry reads fun call quiet => callHome_keeps ?_ (fun _ => quiet) talk
  cases call with
  | spawn command => cases quiet
  | _ => rfl

end Home

namespace Operations

variable (ops : Operations)

theorem health_keeps : Keeps ops (ops.health : Action V D _) :=
  .bind (.perform (readState_reads _)) fun _ => .perform (clusterHealth_reads _)

theorem clusterStatus_keeps : Keeps ops (ops.clusterStatus : Action V D _) :=
  .bind ops.health_keeps fun _ => .pure _

theorem readServerLog_keeps (shard replica lines : Int) :
    Keeps ops (ops.readServerLog shard replica lines : Action V D _) := by
  refine .bind (.perform (readState_reads _)) fun state => .bind (.lift _) fun server => ?_
  dsimp only
  split
  · exact .throw _
  · refine .bind (.call rfl (fun _ => rfl) fun _ => rfl) fun answer => ?_
    refine .bind (.lift _) fun found => ?_
    split
    · exact .pure _
    · split
      · exact .pure _
      · exact .pure _

theorem probeSearch_keeps : Keeps ops (ops.probeSearch : Action V D _) := by
  refine .bind (.perform (readState_reads _)) fun state => ?_
  split
  · exact .pure _
  · refine .bind (.call rfl (fun _ => rfl) fun _ => rfl) fun answer => ?_
    refine .bind (.lift _) fun found => ?_
    refine .bind (.call rfl (fun _ => rfl) fun _ => rfl) fun clock => ?_
    refine .bind (.lift _) fun elapsed => ?_
    dsimp only
    split
    · exact .pure _
    · exact .pure _

theorem repair_keeps : Keeps ops (ops.repair : Action V D _) := by
  refine .bind ops.health_keeps fun health => ?_
  dsimp only
  split
  · exact .pure _
  · split
    · exact .pure _
    · rename_i notDry
      have changes : ops.dryRun = true → ∀ state, (AgentCall.repair state : AgentCall V).changes = false :=
        fun isDry => absurd isDry notDry
      refine .bind (.tryCatch ?_ ?_) fun synced => .pure _
      · refine .bind (.perform (readState_reads _)) fun state => ?_
        exact .bind (.call rfl (fun _ => rfl) fun isDry => changes isDry state) fun _ => .lift _
      · intro error
        split
        · exact .throw _
        · exact .throw _

end Operations

end Agent
end VectorSearch
