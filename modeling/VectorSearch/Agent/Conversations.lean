import Mathlib.Data.List.Chain
import VectorSearch.Agent.Restarting
import VectorSearch.Lib.Stateful

namespace VectorSearch

/-!
# What an agent can do

The tools, the loop and the runbook keep the limits.  The loop itself never
raises what a tool raised, and hands its outcomes to the model in order.
-/

namespace Agent

open Home Mcp

variable {V D α : Type}

/-! ## The tools -/

theorem Entry.tool_keeps {ops : Operations} (tool : String) (arguments : List (String × Json)) (result : String)
    (error : Bool) : Keeps ops ((Entry.tool tool arguments result error).write : Action V D _) :=
  .bind (.call rfl (fun _ => rfl) fun _ => rfl) fun _ => .lift _

theorem Operations.methods_keep {ops : Operations} {method : Method V D} (member : method ∈ ops.methods)
    (arguments : List (String × Json)) : Keeps ops (method.function arguments) := by
  unfold methods at member
  simp only [List.mem_cons, List.not_mem_nil, or_false] at member
  rcases member with rfl | rfl | rfl | rfl | rfl
  · exact .bind (.lift _) fun _ => ops.clusterStatus_keeps
  · refine .bind (.lift _) fun _ => .bind (.lift _) fun shard => .bind (.lift _) fun replica => ?_
    exact ops.restartServer_keeps shard replica
  · exact .bind (.lift _) fun _ => ops.repair_keeps
  · refine .bind (.lift _) fun _ => .bind (.lift _) fun shard => .bind (.lift _) fun replica => ?_
    exact .bind (.lift _) fun lines => ops.readServerLog_keeps shard replica lines
  · exact .bind (.lift _) fun _ => ops.probeSearch_keeps

theorem Method.handler_keeps {ops : Operations} {method : Method V D} (member : method ∈ ops.methods)
    (arguments : List (String × Json)) : Keeps ops (method.handler arguments) := by
  have function := Operations.methods_keep member arguments
  refine .bind (.tryCatch (.bind function fun _ => .pure _) fun error => ?_) fun ended => ?_
  · split
    · exact .pure _
    · exact .pure _
    · exact .throw _
  · split
    · exact .bind (Entry.tool_keeps _ _ _ _) fun _ => .throw _
    · exact .bind (Entry.tool_keeps _ _ _ _) fun _ => .pure _

/-- An action that keeps what is known and raises nothing. -/
def Settles (ops : Operations) (action : Action V D α) : Prop :=
  ∀ talk, Client.Ensures (anyWorld V D) (Safe ops talk) (Kept ops talk) action (fun _ => Kept ops talk)
    fun _ _ _ => False

theorem catching_settles {ops : Operations} {action : Action V D String} (keeps : Keeps ops action)
    (describe : Error → String × String) : Settles ops (catching describe action) := by
  intro talk
  have body : Keeps ops (do return .ok (← action) : Action V D (Except Raised String)) :=
    .bind keeps fun _ => .pure _
  refine Client.Ensures.tryCatch (body talk) fun error => ?_
  split
  · exact Client.Ensures.pure fun _ _ kept => kept
  · exact Client.Ensures.pure fun _ _ kept => kept

theorem runTool_settles {ops : Operations} {python : Python} {tool : Tool (Action V D)} {arguments : Json}
    {run : Action V D (String × Bool)} (handles : ∀ fields, Settles ops (tool.handler fields))
    (ok : runTool python tool arguments = .ok run) : Settles ops run := by
  intro talk
  rcases Stateful.gave_bind ok with ⟨problem, _, rest⟩
  cases problem with
  | some problem =>
      cases rest
      exact Client.Ensures.pure fun _ _ kept => kept
  | none =>
      cases arguments with
      | obj fields =>
          cases rest
          exact Client.Ensures.bind (handles fields talk) fun ended => Client.Ensures.pure fun _ _ kept => kept
      | _ => cases rest

theorem Operations.tools_settle {ops : Operations} {describe : Error → String × String}
    {tool : Tool (Action V D)} (member : tool ∈ ops.tools describe) (fields : List (String × Json)) :
    Settles ops (tool.handler fields) := by
  rcases List.mem_map.mp member with ⟨method, isMethod, rfl⟩
  exact catching_settles (Method.handler_keeps isMethod fields) describe

/-! ## The calls of a turn -/

section Calls

variable {ops : Operations} {describe : Error → String × String} (python : Python)
  (talk : List (Option (List ToolOutcome) × Except Error Turn))

/-- Each call of a turn gets an outcome. -/
theorem runCall_ensures (call : ToolCall) :
    Client.Ensures (anyWorld V D) (Safe ops talk) (Kept ops talk) (runCall python (ops.tools describe) call)
      (fun outcome restarts history => Kept ops talk restarts history ∧ outcome.call = call) fun _ _ _ =>
        False := by
  unfold runCall
  split
  · exact Client.Ensures.pure fun _ _ kept => ⟨kept, rfl⟩
  · split
    · exact Client.Ensures.pure fun _ _ kept => ⟨kept, rfl⟩
    · rename_i tool found
      have member : tool ∈ ops.tools describe := by
        rcases List.mem_map.mp (Dict.get?_ofList_mem found) with ⟨other, isTool, same⟩
        exact (Prod.mk.inj same).2 ▸ isTool
      rcases runTool_ok python tool call.arguments with ⟨run, ok⟩
      rw [ok]
      refine Client.Ensures.through (fun ran restarts history => Kept ops talk restarts history ∧ ran = run)
        (Client.Ensures.pure fun _ _ kept => ⟨kept, rfl⟩) fun ran => Client.Ensures.given ?_
      rintro rfl
      have settles := runTool_settles (Operations.tools_settle member) ok
      exact Client.Ensures.bind (settles talk) fun ended => Client.Ensures.pure fun _ _ kept => ⟨kept, rfl⟩

theorem runCalls_ensures (calls : List ToolCall) :
    Client.Ensures (anyWorld V D) (Safe ops talk) (Kept ops talk) (runCalls python (ops.tools describe) calls)
      (fun outcomes restarts history => Kept ops talk restarts history ∧ outcomes.map ToolOutcome.call = calls)
      fun _ _ _ => False := by
  induction calls with
  | nil => exact Client.Ensures.pure fun _ _ kept => ⟨kept, rfl⟩
  | cons call calls inductionHypothesis =>
      refine Client.Ensures.bind (runCall_ensures python talk call) fun outcome =>
        Client.Ensures.given fun isCall => ?_
      refine Client.Ensures.bind inductionHypothesis fun outcomes => Client.Ensures.given fun areCalls => ?_
      refine Client.Ensures.pure fun _ _ kept => ⟨kept, ?_⟩
      rw [List.map_cons, isCall, areCalls]

end Calls

/-! ## The loop -/

section Loop

variable {ops : Operations} {describe : Error → String × String} {maxSteps : Int}
  {talk done : List (Option (List ToolOutcome) × Except Error Turn)} {outcomes : Option (List ToolOutcome)}

/-- What the model is handed next is what it has asked for. -/
def Handed (outcomes : Option (List ToolOutcome))
    (done : List (Option (List ToolOutcome) × Except Error Turn)) : Prop :=
  (done = [] ∧ outcomes = none) ∨ ∃ front before turn given, done = front ++ [(before, .ok turn)] ∧
    outcomes = some given ∧ given.map ToolOutcome.call = turn.calls

theorem Conversation.nil : Conversation maxSteps [] :=
  ⟨le_max_right _ _, (fun _ impossible => nomatch impossible), List.IsChain.nil⟩

theorem Conversation.snoc (conversation : Conversation maxSteps done) (handed : Handed outcomes done)
    (room : done.length < maxSteps.toNat) (answer : Except Error Turn) :
    Conversation maxSteps (done ++ [(outcomes, answer)]) := by
  constructor
  · rw [List.length_append, List.length_singleton]
    omega
  · intro turn isFirst
    rcases handed with ⟨rfl, rfl⟩ | ⟨front, before, last, given, rfl, _, _⟩
    · cases Option.some.inj isFirst
      rfl
    · refine conversation.first turn ?_
      rw [List.head?_append_of_ne_nil _
        (List.append_ne_nil_of_right_ne_nil _ (List.cons_ne_nil _ _))] at isFirst
      exact isFirst
  · refine List.isChain_append.mpr ⟨conversation.follows, List.isChain_singleton _, ?_⟩
    rintro earlier isLast later ⟨⟩
    rcases handed with ⟨rfl, _⟩ | ⟨front, before, last, given, rfl, isGiven, areCalls⟩
    · cases isLast
    · rw [List.getLast?_concat] at isLast
      cases Option.some.inj isLast
      exact ⟨last, given, rfl, isGiven, areCalls⟩

/-- What is known in a run of the loop: the limits, and a conversation. -/
def Spoken (ops : Operations) (maxSteps : Int) (talk : List (Option (List ToolOutcome) × Except Error Turn))
    (restarts : Restarts) (history : List (Event V D)) : Prop :=
  ∃ done, Kept ops (talk ++ done) restarts history ∧ Conversation maxSteps done

/-- The same without the counter. -/
def Speaking (ops : Operations) (maxSteps : Int) (talk : List (Option (List ToolOutcome) × Except Error Turn))
    (history : List (Event V D)) : Prop :=
  WithinLimits ops history ∧ ∃ done, turns history = talk ++ done ∧ Conversation maxSteps done

/-- The last call raised the exception, and it was the model's or the journal's of
the loop. -/
def RaisedItself (error : Error) (history : List (Event V D)) : Prop :=
  ∃ front event, history = front ++ [event] ∧ OwnFault error event

theorem Conversation.safe (conversation : Conversation maxSteps done) (history : List (Event V D))
    (safe : Safe ops (talk ++ done) history) : Speaking ops maxSteps talk history :=
  ⟨safe.1, done, safe.2, conversation⟩

/-- What is known when the model has been asked for a turn. -/
def Asked (ops : Operations) (talk : List (Option (List ToolOutcome) × Except Error Turn))
    (outcomes : Option (List ToolOutcome)) (answer : Except Error Turn) (restarts : Restarts)
    (history : List (Event V D)) : Prop :=
  Kept ops (talk ++ [(outcomes, answer)]) restarts history ∧ ∃ front, history = front ++
    [⟨.step outcomes, answer⟩]

theorem step_ensures (conversation : Conversation maxSteps done)
    {raised : Error → Restarts → List (Event V D) → Prop} :
    Client.Ensures (anyWorld V D) (Speaking ops maxSteps talk) (Kept ops (talk ++ done))
      (Client.call (AgentCall.step outcomes)) (Asked ops (talk ++ done) outcomes) raised := by
  refine ensures_call (fun _ history kept => conversation.safe history kept.safe)
    fun restarts history answer kept => ?_
  have next : Kept ops (talk ++ done ++ (turnOf (D := D) ⟨.step outcomes, answer⟩).toList) restarts
      (history ++ [⟨.step outcomes, answer⟩]) := kept.other rfl fun _ => rfl
  exact ⟨next, history, rfl⟩

theorem turn_ensures (conversation : Conversation maxSteps done) (handed : Handed outcomes done)
    (room : done.length < maxSteps.toNat) (answer : Except Error Turn) :
    Client.Ensures (anyWorld V D) (Speaking ops maxSteps talk) (Asked ops (talk ++ done) outcomes answer)
      (Client.lift answer) (fun turn => Kept ops (talk ++ (done ++ [(outcomes, .ok turn)])))
      fun error restarts history => Spoken ops maxSteps talk restarts history ∧ RaisedItself error history := by
  cases answer with
  | ok turn =>
      refine Client.Ensures.pure fun restarts history asked => ?_
      rw [← List.append_assoc]
      exact asked.1
  | error error =>
      refine Client.Ensures.throw ?_
      rintro restarts history ⟨kept, front, whole⟩
      rw [List.append_assoc] at kept
      exact ⟨⟨_, kept, conversation.snoc handed room _⟩, front, _, whole, .step⟩

/-- A call of the loop that is no turn, and what is made of its answer. -/
theorem own_ensures (conversation : Conversation maxSteps done) {call : AgentCall V}
    (noStart : call.isSpawn = false)
    (noTurn : ∀ answer : AgentCall.Answer V D call, turnOf ⟨call, answer⟩ = none) (quiet : call.changes = false)
    {raised : Error → Restarts → List (Event V D) → Prop} :
    Client.Ensures (anyWorld V D) (Speaking ops maxSteps talk) (Kept ops (talk ++ done)) (Client.call call)
      (fun answer restarts history => Kept ops (talk ++ done) restarts history ∧ ∃ front, history =
        front ++ [⟨call, answer⟩])
      raised := by
  refine ensures_call (fun _ history kept => conversation.safe history kept.safe)
    fun restarts history answer kept => ?_
  exact ⟨kept.quiet noStart (noTurn answer) fun _ => quiet, history, rfl⟩

theorem own_lift (conversation : Conversation maxSteps done) {event : Except Error PUnit → Event V D}
    (fault : ∀ error, OwnFault error (event (.error error))) (answer : Except Error PUnit) :
    Client.Ensures (anyWorld V D) (Speaking ops maxSteps talk)
      (fun restarts history => Kept ops (talk ++ done) restarts history ∧ ∃ front, history =
        front ++ [event answer])
      (Client.lift answer) (fun _ => Kept ops (talk ++ done))
      fun error restarts history => Spoken ops maxSteps talk restarts history ∧ RaisedItself error history := by
  cases answer with
  | ok value => exact Client.Ensures.pure fun _ _ holds => holds.1
  | error error =>
      refine Client.Ensures.throw ?_
      rintro restarts history ⟨kept, front, whole⟩
      exact ⟨⟨_, kept, conversation⟩, front, _, whole, fault error⟩

/-- The entry of a step. -/
theorem entry_ensures (conversation : Conversation maxSteps done) (step : Nat) (text : String)
    (calls : List (String × Json)) :
    Client.Ensures (anyWorld V D) (Speaking ops maxSteps talk) (Kept ops (talk ++ done))
      (Entry.model step text calls).write (fun _ => Kept ops (talk ++ done))
      fun error restarts history => Spoken ops maxSteps talk restarts history ∧ RaisedItself error history :=
  Client.Ensures.bind (own_ensures conversation rfl (fun _ => rfl) rfl) fun answer =>
    own_lift conversation (fun _ => .journal) answer

theorem agentLoop_ensures (python : Python) (settings : AgentSettings) (left step calls : Nat) (text : String)
    (conversation : Conversation settings.maxSteps done) (handed : Handed outcomes done)
    (room : done.length + left ≤ settings.maxSteps.toNat) :
    Client.Ensures (anyWorld V D) (Speaking ops settings.maxSteps talk) (Kept ops (talk ++ done))
      (agentLoop python (ops.tools describe) settings left step outcomes calls text)
      (fun _ => Spoken ops settings.maxSteps talk)
      fun error restarts history => Spoken ops settings.maxSteps talk restarts history ∧
        RaisedItself error history := by
  induction left generalizing step calls text done outcomes with
  | zero => exact Client.Ensures.pure fun _ _ kept => ⟨done, kept, conversation⟩
  | succ left inductionHypothesis =>
      unfold agentLoop
      refine Client.Ensures.bind (step_ensures conversation) fun answer => ?_
      refine Client.Ensures.bind (turn_ensures conversation handed (by omega) answer) fun turn => ?_
      have next := conversation.snoc handed (show done.length < settings.maxSteps.toNat by omega) (.ok turn)
      have rest : Client.Ensures (anyWorld V D) (Speaking ops settings.maxSteps talk)
          (Kept ops (talk ++ (done ++ [(outcomes, .ok turn)])))
          (if turn.calls.isEmpty then return ⟨turn.text, true, step, calls⟩
          else do
            let outcomes ← runCalls python (ops.tools describe) turn.calls
            agentLoop python (ops.tools describe) settings left (step + 1) (some outcomes)
              (calls + turn.calls.length)
              (if turn.text = "" then text else turn.text))
          (fun _ => Spoken ops settings.maxSteps talk)
          fun error restarts history =>
            Spoken ops settings.maxSteps talk restarts history ∧ RaisedItself error history := by
        split
        · exact Client.Ensures.pure fun _ _ kept => ⟨_, kept, next⟩
        · refine Client.Ensures.bind ((runCalls_ensures python _ turn.calls).widen next.safe).unraised
            fun given => ?_
          refine Client.Ensures.given fun areCalls => ?_
          refine inductionHypothesis _ _ _ next (.inr ⟨done, outcomes, turn, given, rfl, rfl, areCalls⟩) ?_
          rw [List.length_append, List.length_singleton]
          omega
      dsimp only
      split
      · exact Client.Ensures.bind (entry_ensures next step turn.text _) fun _ => rest
      · exact rest

/-- A run of `run_agent`: the limits and its conversation at every moment. -/
theorem runAgent_ensures (python : Python) (describe : Error → String × String) (settings : AgentSettings) :
    Client.Ensures (anyWorld V D) (Speaking ops settings.maxSteps talk) (Kept ops talk)
      (runAgent python (ops.tools describe) settings) (fun _ => Spoken ops settings.maxSteps talk)
      fun error restarts history => Spoken ops settings.maxSteps talk restarts history ∧
        RaisedItself error history := by
  have start : ∀ restarts history, Kept ops talk restarts history → Kept (V := V) (D := D) ops
    (talk ++ []) restarts history := by
    intro restarts history kept
    rw [List.append_nil]
    exact kept
  refine Client.Ensures.imp ?_ start (fun _ _ _ spoken => spoken) fun _ _ _ raised => raised
  refine Client.Ensures.bind (own_ensures .nil rfl (fun _ => rfl) rfl) fun answer => ?_
  refine Client.Ensures.bind (own_lift .nil (fun _ => .begin) answer) fun _ => ?_
  exact agentLoop_ensures python settings _ _ _ _ .nil (.inl ⟨rfl, rfl⟩) (Nat.le_of_eq (Nat.zero_add _))

end Loop

/-! ## The runbook -/

namespace Operations

variable (ops : Operations)

theorem restartDown_keeps (health : List ServerHealth) : Keeps ops (ops.restartDown health : Action V D _) := by
  induction health with
  | nil => exact .pure _
  | cons server health inductionHypothesis =>
      unfold restartDown
      split
      · exact inductionHypothesis
      · have restarts : ∀ arguments, Keeps ops ((ops.restartServerMethod : Method V D).handler arguments) :=
          Method.handler_keeps (List.mem_cons_of_mem _ List.mem_cons_self)
        refine .bind (.tryCatch (.bind (restarts _) fun _ => .pure _) fun error => ?_) fun note => ?_
        · split
          · exact .pure _
          · exact .throw _
        · exact .bind inductionHypothesis fun _ => .pure _

theorem runRunbook_keeps : Keeps ops (ops.runRunbook : Action V D _) := by
  have handles : ∀ method ∈ (ops.methods : List (Method V D)), Keeps ops (method.handler []) :=
    fun method member => Method.handler_keeps member []
  simp only [methods, List.mem_cons, List.not_mem_nil, or_false, forall_eq_or_imp, forall_eq] at handles
  rcases handles with ⟨status, _, repairs, _, probe⟩
  refine .bind status fun _ => .bind ops.health_keeps fun health => .bind (ops.restartDown_keeps health)
    fun restarts => ?_
  refine .bind (.tryCatch (.bind repairs fun _ => .pure _) fun error => ?_) fun repaired => ?_
  · split
    · exact .pure _
    · exact .throw _
  · exact .bind probe fun _ => .pure _

end Operations

/-! ## One object, used several times -/

/-- What is done with an `Operations` object. -/
inductive Use where
  | agent (settings : AgentSettings)
  | runbook
  | restartServer (shard replica : Int)
  | repair

section Uses

variable (python : Python) (describe : Error → String × String) (ops : Operations)

def Use.run (use : Use) : Action V D PUnit :=
  match use with
  | .agent settings => do
      let _ ← runAgent python (ops.tools describe) settings
      return ⟨⟩
  | .runbook => do
      let _ ← ops.runRunbook
      return ⟨⟩
  | .restartServer shard replica => do
      let _ ← ops.restartServer shard replica
      return ⟨⟩
  | .repair => do
      let _ ← ops.repair
      return ⟨⟩

/-- The counter of an object and everything that was done with it since it was
made. -/
inductive Used : Restarts → List (Event V D) → Prop
  | new : Used (fun _ => 0) []
  | returned {restarts after : Restarts} {history last : List (Event V D)} (used : Used restarts history)
      (use : Use)
      (run : Remote.Runs (anyWorld V D) (use.run python describe ops restarts) history (.ok ⟨⟩ after) last) :
      Used after last
  | raised {restarts after : Restarts} {history last : List (Event V D)} {error : Error}
      (used : Used restarts history)
      (use : Use)
      (run : Remote.Runs (anyWorld V D) (use.run python describe ops restarts) history
        (.error error after) last) :
      Used after last

variable {python describe ops}

/-- What is known whichever turns the model has had. -/
def Limited (ops : Operations) (restarts : Restarts) (history : List (Event V D)) : Prop :=
  ∃ talk, Kept ops talk restarts history

theorem Use.ensures (use : Use) :
    Client.Ensures (anyWorld V D) (WithinLimits ops) (Limited ops) (use.run python describe ops)
      (fun _ => Limited ops) fun _ => Limited ops := by
  have keeps : ∀ {α : Type} {action : Action V D α}, Keeps ops action →
      Client.Ensures (anyWorld V D) (WithinLimits ops) (Limited ops)
        (action >>= fun _ => pure ⟨⟩ : Action V D PUnit)
        (fun _ => Limited ops) fun _ => Limited ops := by
    intro α action keeps
    refine Client.Ensures.some fun talk => ?_
    refine Client.Ensures.bind (((keeps talk).widen fun _ safe => safe.1).imp (fun _ _ kept => kept)
      (fun _ _ _ kept => ⟨talk, kept⟩) fun _ _ _ kept => ⟨talk, kept⟩) fun _ => Client.Ensures.pure
        fun _ _ limited => limited
  cases use with
  | agent settings =>
      refine Client.Ensures.some fun talk => ?_
      have runs := (runAgent_ensures python describe settings).widen
        fun (_ : List (Event V D)) (speaking : Speaking ops settings.maxSteps talk _) => speaking.1
      refine Client.Ensures.bind (runs.imp (fun _ _ kept => kept) ?_ ?_) fun _ => Client.Ensures.pure
        fun _ _ limited => limited
      · rintro _ restarts history ⟨done, kept, _⟩
        exact ⟨_, kept⟩
      · rintro _ restarts history ⟨⟨done, kept, _⟩, _⟩
        exact ⟨_, kept⟩
  | runbook => exact keeps ops.runRunbook_keeps
  | restartServer shard replica => exact keeps (ops.restartServer_keeps shard replica)
  | repair => exact keeps ops.repair_keeps

theorem Used.limited {restarts : Restarts} {history : List (Event V D)}
    (used : Used python describe ops restarts history) : Limited ops restarts history := by
  induction used with
  | new => exact ⟨_, .new⟩
  | returned used use run inductionHypothesis => exact (use.ensures _ _ inductionHypothesis).1 _ _ run
  | raised used use run inductionHypothesis => exact (use.ensures _ _ inductionHypothesis).1 _ _ run

/-- Whatever the model asks for and whatever happens around it, at every moment of
a run of `run_agent` the limits hold for all that was done with the `Operations`
object, and the turns of this run are a conversation.  What the run raises was
raised by the model or by the journal of the loop, in the last call. -/
theorem operator_limits (python : Python) (describe : Error → String × String) (ops : Operations)
    (settings : AgentSettings) {restarts : Restarts} {before : List (Event V D)}
    (used : Used python describe ops restarts before) :
    (∀ history, (Remote.Passes (anyWorld V D) (runAgent python (ops.tools describe) settings restarts)
      before history ∨
        ∃ result, Remote.Runs (anyWorld V D) (runAgent python (ops.tools describe) settings restarts)
          before result
          history) →
      WithinLimits ops history ∧ ∃ events, history = before ++ events ∧
        Conversation settings.maxSteps (turns events)) ∧
    ∀ error after history, Remote.Runs (anyWorld V D)
      (runAgent python (ops.tools describe) settings restarts) before
        (.error error after) history →
      RaisedItself error history := by
  rcases used.limited with ⟨talk, kept⟩
  have ensures := runAgent_ensures (V := V) (D := D) python describe settings restarts before kept
  have limits : ∀ history, before <+: history → Speaking ops settings.maxSteps talk history →
      WithinLimits ops history ∧ ∃ events, history = before ++ events ∧
        Conversation settings.maxSteps (turns events) := by
    rintro history ⟨events, rfl⟩ ⟨within, done, isTalk, conversation⟩
    have same : turns events = done := by
      rw [turns, List.filterMap_append] at isTalk
      exact List.append_cancel_left (kept.talk ▸ isTalk)
    exact ⟨within, events, rfl, same ▸ conversation⟩
  have speaking : ∀ {restarts : Restarts} {history : List (Event V D)}, Spoken ops settings.maxSteps
    talk restarts history →
      Speaking ops settings.maxSteps talk history := by
    rintro restarts history ⟨done, kept, conversation⟩
    exact ⟨kept.within, done, kept.talk, conversation⟩
  constructor
  · rintro history (pass | ⟨result, run⟩)
    · exact limits history pass.grows (ensures.2 history pass)
    · have ends := ensures.1 result history run
      cases result with
      | ok value after => exact limits history run.grows (speaking ends)
      | error error after => exact limits history run.grows (speaking ends.1)
  · intro error after history run
    exact (ensures.1 _ history run).2

end Uses

/-! ## A restart -/

def samplePython : Python := ⟨fun _ => ""⟩

def sampleOps : Operations := ⟨"home", "python", false, 1, 20⟩

/-- A cluster of one server that was never started. -/
def downState : ClusterState := ⟨some 0, [], [[⟨none, 7000, none, none⟩]], none, none⟩

def restartCall : ToolCall := ⟨"1", "restart_server", .obj [("shard", .int 0), ("replica", .int 0)], none⟩

def twoSteps : AgentSettings := ⟨"", "", 2, false⟩

theorem restarting_run : ∃ history result,
    Remote.Runs (anyWorld Unit Unit) (runAgent samplePython (sampleOps.tools fun _ => ("", "")) twoSteps
      fun _ => 0) []
      result history ∧ (history.countP fun event => event.1.starts (serverDir "home" 0 0)) = 1 := by
  refine ⟨?_, ?_, ?_, ?_⟩
  rotate_left 2
  · refine Remote.Runs.answered (.ok ⟨⟩) rfl ?_
    refine Remote.Runs.answered (.ok ⟨"", [restartCall]⟩) rfl ?_
    -- the state, the health of the server, its start, the state again, the wait, and no state to read
    refine Remote.Runs.answered (.ok (some downState)) rfl ?_
    refine Remote.Runs.answered (.ok none) rfl ?_
    refine Remote.Runs.answered (.ok (5 : Nat)) rfl ?_
    refine Remote.Runs.answered (.ok ⟨⟩) rfl ?_
    refine Remote.Runs.answered (.ok true) rfl ?_
    refine Remote.Runs.answered (.ok none) rfl ?_
    -- the entry of the failed tool, and the last turn
    refine Remote.Runs.answered (.ok ⟨⟩) rfl ?_
    refine Remote.Runs.answered (.ok ⟨"done", []⟩) rfl ?_
    exact Remote.Runs.done
  · decide

theorem operator_limits_restart : ∃ history : List (Event Unit Unit),
    (history.countP fun event => event.1.starts (serverDir "home" 0 0)) = 1 ∧ WithinLimits sampleOps history ∧
      ∃ events, history = [] ++ events ∧ Conversation 2 (turns events) := by
  rcases restarting_run with ⟨history, result, run, once⟩
  have limits := (operator_limits samplePython (fun _ => ("", "")) sampleOps twoSteps .new).1 history
    (.inr ⟨result, run⟩)
  exact ⟨history, once, limits⟩

end Agent
end VectorSearch
