import VectorSearch.Agent.Outcomes
import VectorSearch.Agent.Recording

namespace VectorSearch

/-!
# What a runbook claims

A server that was started and a replica that was brought up to date are the
changes of a runbook.  Its restarts and its repair are found among the
invocations with what they returned or raised, and the changes among the calls.
-/

namespace Agent

open Home Mcp

variable {V D α β : Type}

/-! ## Changes -/

/-- A server was started. -/
def started : Event V D → Bool
  | ⟨.home (.spawn _), .ok _⟩ => true
  | _ => false

/-- A replica was brought up to date. -/
def copied : Event V D → Bool
  | ⟨.repair _, .ok synced⟩ => !synced.isEmpty
  | _ => false

def Started (history : List (Event V D)) : Prop := ∃ event ∈ history, started event = true

def Copied (history : List (Event V D)) : Prop := ∃ event ∈ history, copied event = true

def Changed (history : List (Event V D)) : Prop := Started history ∨ Copied history

theorem exists_snoc {holds : Event V D → Bool} {history : List (Event V D)} {event : Event V D} :
    (∃ other ∈ history ++ [event], holds other = true) ↔ (∃ other ∈ history, holds other = true) ∨
      holds event = true := by
  constructor
  · rintro ⟨other, member, isSo⟩
    rcases List.mem_append.mp member with old | new
    · exact .inl ⟨other, old, isSo⟩
    · exact .inr (List.mem_singleton.mp new ▸ isSo)
  · rintro (⟨other, old, isSo⟩ | isSo)
    · exact ⟨other, List.mem_append_left _ old, isSo⟩
    · exact ⟨event, List.mem_append_right _ List.mem_cons_self, isSo⟩

theorem exists_snoc_not {holds : Event V D → Bool} {history : List (Event V D)} {event : Event V D}
    (isNot : holds event = false) :
    (∃ other ∈ history ++ [event], holds other = true) ↔ ∃ other ∈ history, holds other = true := by
  refine exists_snoc.trans ?_
  rw [isNot]
  exact or_iff_left Bool.false_ne_true

theorem started_quiet {call : AgentCall V} (quiet : call.changes = false) (answer : AgentCall.Answer V D call) :
    started ⟨call, answer⟩ = false := by
  cases call with
  | home call =>
      cases call with
      | spawn command => cases quiet
      | _ => rfl
  | _ => rfl

theorem copied_quiet {call : AgentCall V} (quiet : call.changes = false) (answer : AgentCall.Answer V D call) :
    copied ⟨call, answer⟩ = false := by
  cases call with
  | repair state => cases quiet
  | _ => rfl

/-! ## What the invocations say of the changes -/

/-- The beginning of what `repair` returns when it had nothing to do. -/
def NothingToRepair (text : String) : Prop := "Nothing to repair".toList <+: text.toList

def Invocation.restarts (invocation : Invocation) : Prop := invocation.tool = "restart_server"

/-- A repair that was tried, and returned. -/
def Invocation.repaired (invocation : Invocation) : Prop :=
  invocation.tool = "repair" ∧ ∃ text, invocation.outcome = .ok text ∧ ¬ NothingToRepair text

/-- Changes come from the tools, and not in a dry run; a restart that returned was
one. -/
structure Traced (ops : Operations) (log : List Invocation) (history : List (Event V D)) : Prop where
  started : Started history → ops.dryRun = false ∧ ∃ invocation ∈ log, invocation.restarts
  copied : Copied history → ops.dryRun = false ∧ ∃ invocation ∈ log, invocation.repaired
  restarted : ops.dryRun = false → ∀ invocation ∈ log, invocation.restarts → invocation.failed =
    false → Started history

section Traced

variable {ops : Operations} {log : List Invocation} {history : List (Event V D)}

theorem Traced.new : Traced ops [] ([] : List (Event V D)) := by
  constructor
  · exact fun ⟨_, member, _⟩ => nomatch member
  · exact fun ⟨_, member, _⟩ => nomatch member
  · exact fun _ _ impossible => nomatch impossible

theorem Traced.keep {event : Event V D} (traced : Traced ops log history)
    (noStart : Agent.started event = false)
    (noCopy : Agent.copied event = false) : Traced ops log (history ++ [event]) := by
  have starts : Started (history ++ [event]) ↔ Started history := exists_snoc_not noStart
  have copies : Copied (history ++ [event]) ↔ Copied history := exists_snoc_not noCopy
  exact ⟨fun isStarted => traced.started (starts.mp isStarted), fun isCopied =>
    traced.copied (copies.mp isCopied),
    fun awake invocation member restarts ok =>
      starts.mpr (traced.restarted awake invocation member restarts ok)⟩

theorem Traced.quiet {call : AgentCall V} (traced : Traced ops log history) (quiet : call.changes = false)
    (answer : AgentCall.Answer V D call) : Traced ops log (history ++ [⟨call, answer⟩]) :=
  traced.keep (started_quiet quiet answer) (copied_quiet quiet answer)

/-- An invocation that started nothing, or says that it did not. -/
theorem Traced.add {invocation : Invocation} (traced : Traced ops log history)
    (restarted : ops.dryRun = false → invocation.restarts → invocation.failed = false → Started history) :
    Traced ops (log ++ [invocation]) history := by
  refine ⟨fun isStarted => ?_, fun isCopied => ?_, fun awake other member restarts ok => ?_⟩
  · rcases traced.started isStarted with ⟨awake, found, member, restarts⟩
    exact ⟨awake, found, List.mem_append_left _ member, restarts⟩
  · rcases traced.copied isCopied with ⟨awake, found, member, repaired⟩
    exact ⟨awake, found, List.mem_append_left _ member, repaired⟩
  · rcases List.mem_append.mp member with old | new
    · exact traced.restarted awake other old restarts ok
    · rw [List.mem_singleton.mp new] at restarts ok
      exact restarted awake restarts ok

/-- A repair that was tried may have copied. -/
theorem Traced.copies {event : Event V D} {invocation : Invocation} (traced : Traced ops log history)
    (noStart : Agent.started event = false) (awake : ops.dryRun = false) (repaired : invocation.repaired) :
    Traced ops (log ++ [invocation]) (history ++ [event]) := by
  have starts : Started (history ++ [event]) ↔ Started history := exists_snoc_not noStart
  refine ⟨fun isStarted => ?_, fun _ =>
    ⟨awake, invocation, List.mem_append_right _ List.mem_cons_self, repaired⟩,
    fun _ other member restarts ok => ?_⟩
  · rcases traced.started (starts.mp isStarted) with ⟨_, found, member, restarts⟩
    exact ⟨awake, found, List.mem_append_left _ member, restarts⟩
  · rcases List.mem_append.mp member with old | new
    · exact starts.mpr (traced.restarted awake other old restarts ok)
    · rw [List.mem_singleton.mp new, Invocation.restarts, repaired.1] at restarts
      exact absurd restarts (by decide)

/-- What is known while `restart_server` starts a server. -/
structure Starting (ops : Operations) (log : List Invocation) (history : List (Event V D)) : Prop where
  awake : ops.dryRun = false
  copied : Copied history → ∃ invocation ∈ log, invocation.repaired
  restarted : ∀ invocation ∈ log, invocation.restarts → invocation.failed = false → Started history

theorem Traced.starting (traced : Traced ops log history) (awake : ops.dryRun = false) :
    Starting ops log history :=
  ⟨awake, fun isCopied => (traced.copied isCopied).2, traced.restarted awake⟩

theorem Starting.home {call : HomeCall V} (starting : Starting ops log history)
    (answer : AgentCall.Answer V D (.home call)) : Starting ops log (history ++ [⟨.home call, answer⟩]) := by
  refine ⟨starting.awake, fun isCopied => ?_, fun invocation member restarts ok => ?_⟩
  · rcases exists_snoc.mp isCopied with old | now
    · exact starting.copied old
    · cases now
  · exact exists_snoc.mpr (.inl (starting.restarted invocation member restarts ok))

theorem Starting.traced {invocation : Invocation} (starting : Starting ops log history)
    (restarts : invocation.restarts)
    (isStarted : invocation.failed = false → Started history) : Traced ops (log ++ [invocation]) history := by
  refine ⟨fun _ => ⟨starting.awake, invocation, List.mem_append_right _ List.mem_cons_self, restarts⟩,
    fun isCopied => ?_,
    fun _ other member restarts ok => ?_⟩
  · rcases starting.copied isCopied with ⟨found, member, repaired⟩
    exact ⟨starting.awake, found, List.mem_append_left _ member, repaired⟩
  · rcases List.mem_append.mp member with old | new
    · exact starting.restarted other old restarts ok
    · rw [List.mem_singleton.mp new] at ok
      exact isStarted ok

end Traced

/-! ## The tools keep it -/

section Tools

variable {ops : Operations} {log : List Invocation} {arguments : List (String × Json)}

/-- A function that changes nothing and is no restart. -/
theorem reads_traced {name : String} (other : name ≠ "restart_server") {function : Action V D String}
    (reads : Client.Only Quiet function) :
    Client.Ensures (anyWorld V D) (fun _ => True) (fun _ => Traced ops log) (ended function)
      (fun outcome _ => Traced ops (log ++ [⟨name, arguments, outcome⟩])) fun _ _ _ => False := by
  have keeps : Client.Ensures (anyWorld V D) (fun _ => True) (fun _ => Traced ops log) function
      (fun _ _ => Traced ops log) fun _ _ => Traced ops log := by
    refine Client.Ensures.of_only reads (fun _ _ _ move => move.elim) (fun _ _ => trivial) ?_
    rintro call ⟨_, quiet⟩ history answer last traced rfl
    exact traced.quiet quiet answer
  refine ended_ensures (Client.Ensures.imp keeps (fun _ _ traced => traced) ?_ ?_)
  · exact fun _ _ _ traced => traced.add fun _ restarts => absurd restarts other
  · exact fun _ _ _ traced => traced.add fun _ restarts => absurd restarts other

theorem perform_traced {command : Command V D α} (reads : Reads command) :
    Client.Ensures (anyWorld V D) (fun _ => True) (fun _ => Traced ops log) (perform command)
      (fun _ _ => Traced ops log) fun _ _ => Traced ops log := by
  refine Client.Ensures.of_only (perform_quiet reads) (fun _ _ _ move => move.elim) (fun _ _ => trivial) ?_
  rintro call ⟨_, quiet⟩ history answer last traced rfl
  exact traced.quiet quiet answer

/-- Whatever is done with the system while a server is started. -/
theorem perform_starting (command : Command V D α) {fact : List (Event V D) → Prop}
    (stays : ∀ history event, fact history → fact (history ++ [event])) :
    Client.Ensures (anyWorld V D) (fun _ => True) (fun _ history => Starting ops log history ∧ fact history)
      (perform command) (fun _ _ history => Starting ops log history ∧ fact history)
      fun _ _ history => Starting ops log history ∧ fact history := by
  refine Client.Ensures.carry (.any command) fun call _ => callHome_ensures (fun _ _ _ => trivial) ?_ ?_
  · exact fun _ history answer starting => ⟨starting.1.home _, stays history _ starting.2⟩
  · exact fun _ history error starting => ⟨starting.1.home _, stays history _ starting.2⟩

theorem Started.stays (history : List (Event V D)) (event : Event V D) (isStarted : Started history) :
    Started (history ++ [event]) := exists_snoc.mpr (.inl isStarted)

theorem spawn_starts (home interpreter : String) (state : ClusterState) (shard replica : Nat) :
    Client.Ensures (anyWorld V D) (fun _ => True) (fun _ => Starting ops log)
      (perform (spawn home interpreter state shard replica))
      (fun _ _ history => Starting ops log history ∧ Started history) fun _ _ => Starting ops log := by
  unfold spawn
  split
  · exact Client.Ensures.throw fun _ _ starting => starting
  · exact Client.Ensures.throw fun _ _ starting => starting
  · refine Client.Ensures.carry_bind (fun _ _ history => Starting ops log history ∧ Started history) ?_
      fun pid =>
      Client.Ensures.pure fun _ _ starting => starting
    refine Client.Ensures.carry_call (callHome_ensures (fun _ _ _ => trivial) ?_ ?_)
    · exact fun _ _ _ starting => ⟨starting.home _, exists_snoc.mpr (.inr rfl)⟩
    · exact fun _ _ _ starting => starting.home _

/-- What failed says nothing of a start. -/
theorem Traced.fails {history : List (Event V D)} (traced : Traced ops log history)
    (name : String) (error : Error) :
    Traced ops (log ++ [⟨name, arguments, .error error⟩]) history :=
  traced.add fun _ _ ok => nomatch ok

/-- A command that only reads: what it raises is what the tool answers. -/
theorem reading_traced (name : String) {command : Command V D α} (reads : Reads command) :
    Client.Ensures (anyWorld V D) (fun _ => True) (fun _ => Traced ops log) (perform command)
      (fun _ _ => Traced ops log)
      fun error _ => Traced ops (log ++ [⟨name, arguments, .error error⟩]) :=
  Client.Ensures.imp (perform_traced reads) (fun _ _ traced => traced) (fun _ _ _ traced => traced)
    fun _ _ _ traced => traced.fails name _

theorem lift_traced (name : String) (result : Except Error α) :
    Client.Ensures (anyWorld V D) (fun _ => True) (fun _ => Traced ops log) (Client.lift result : Action V D α)
      (fun _ _ => Traced ops log) fun error _ => Traced ops (log ++ [⟨name, arguments, .error error⟩]) :=
  Client.Ensures.lift (fun _ _ _ _ traced => traced) fun _ _ _ _ traced => traced.fails name _

theorem restartServer_traced (shard replica : Int) :
    Client.Ensures (anyWorld V D) (fun _ => True) (fun _ => Traced ops log) (ops.restartServer shard replica)
      (fun text _ => Traced ops (log ++ [⟨"restart_server", arguments, .ok text⟩]))
      fun error _ => Traced ops (log ++ [⟨"restart_server", arguments, .error error⟩]) := by
  refine Client.Ensures.bind (reading_traced _ (readState_reads _)) fun state => ?_
  refine Client.Ensures.bind (lift_traced _ _) fun server => ?_
  refine Client.Ensures.bind (reading_traced _ (clusterHealth_reads _)) fun health => ?_
  refine Client.Ensures.bind (lift_traced _ _) fun current => ?_
  refine Client.Ensures.get_bind fun read => ?_
  split
  · exact Client.Ensures.throw fun _ _ traced => traced.2.fails _ _
  split
  · exact Client.Ensures.throw fun _ _ traced => traced.2.fails _ _
  split
  · exact Client.Ensures.throw fun _ _ traced => traced.2.fails _ _
  split
  · exact Client.Ensures.throw fun _ _ traced => traced.2.fails _ _
  split
  · rename_i isDry
    exact Client.Ensures.pure fun _ _ traced => traced.2.add fun awake => nomatch isDry.symm.trans awake
  rename_i notDry
  rw [Bool.not_eq_true] at notDry
  have lasts : ∀ {β : Type} (command : Command V D β), Client.Ensures (anyWorld V D) (fun _ => True)
      (fun _ history => Starting ops log history ∧ Started history) (perform command)
      (fun _ _ history => Starting ops log history ∧ Started history)
      fun error _ => Traced ops (log ++ [⟨"restart_server", arguments, .error error⟩]) := fun command =>
    Client.Ensures.imp (perform_starting command Started.stays) (fun _ _ here => here) (fun _ _ _ here => here)
      fun _ _ _ here => here.1.traced rfl fun _ => here.2
  refine Client.Ensures.through (fun _ _ => Starting ops log) (Client.Ensures.set fun _ _ traced =>
    traced.2.starting notDry)
    fun _ => ?_
  refine Client.Ensures.bind (Client.Ensures.imp (spawn_starts _ _ _ _ _) (fun _ _ here => here)
    (fun _ _ _ here => here)
    fun _ _ _ starting => starting.traced rfl fun ok => nomatch ok) fun spawned => ?_
  refine Client.Ensures.bind (lasts _) fun _ => ?_
  refine Client.Ensures.through (fun _ _ history => Starting ops log history ∧ Started history) ?_ fun _ => ?_
  · refine Client.Ensures.tryCatch (perform_starting _ Started.stays) fun error => ?_
    split
    · exact Client.Ensures.throw fun _ _ here => here.1.traced rfl fun _ => here.2
    · exact Client.Ensures.throw fun _ _ here => here.1.traced rfl fun _ => here.2
  · refine Client.Ensures.bind (Client.Ensures.bind (lasts _) fun _ => lasts _) fun health => ?_
    refine Client.Ensures.through (fun _ _ history => Starting ops log history ∧ Started history) ?_ fun _ =>
      Client.Ensures.pure fun _ _ here => here.1.traced rfl fun _ => here.2
    exact Client.Ensures.lift (fun _ _ _ _ here => here) fun _ _ _ _ here => here.1.traced rfl fun _ => here.2

/-- The lines of `repair` are not what it returns when it had nothing to do. -/
theorem shown_not_nothing {synced : List GrpcCoordinator.ReplicaSync} (some : synced ≠ []) :
    ¬ NothingToRepair ("\n".intercalate (synced.map Operations.showSync)) := by
  cases synced with
  | nil => exact absurd rfl some
  | cons sync rest =>
      have first : ∃ more, ("\n".intercalate ((sync :: rest).map Operations.showSync)).toList = 's' ::
        more := by
        have line : ∃ more, Operations.showSync sync = "shard " ++ more := by
          unfold Operations.showSync
          simp only [String.append_assoc]
          exact ⟨_, rfl⟩
        rcases line with ⟨more, isLine⟩
        rw [List.map_cons, isLine, String.intercalate_cons_append, String.toList_append]
        exact ⟨_, rfl⟩
      rintro ⟨after, same⟩
      rcases first with ⟨more, isMore⟩
      rw [isMore] at same
      exact nomatch (List.cons.inj same).1

/-- The copying of a repair, once there is something to copy. -/
theorem copying_traced (home : String) (notDry : ops.dryRun = false) :
    Client.Ensures (anyWorld V D) (fun _ => True) (fun _ => Traced ops log) (do
        let state ← perform (readState home)
        let answer : Except Error (List GrpcCoordinator.ReplicaSync) ← Client.call (AgentCall.repair state)
        Client.lift answer)
      (fun synced _ history => Traced ops log history ∨
        Traced ops (log ++ [⟨"repair", arguments,
          .ok ("\n".intercalate (synced.map Operations.showSync))⟩]) history)
      fun _ _ => Traced ops log := by
  refine Client.Ensures.bind (perform_traced (readState_reads _)) fun state => ?_
  refine Client.Ensures.through (Client.Either (fun synced _ history => Traced ops log history ∨
    Traced ops (log ++ [⟨"repair", arguments, .ok ("\n".intercalate (synced.map Operations.showSync))⟩])
      history)
    fun _ _ => Traced ops log) ?_ Client.Ensures.either
  refine ensures_call (fun _ _ _ => trivial) fun restarts history answer traced => ?_
  cases answer with
  | error error => exact traced.keep rfl rfl
  | ok synced =>
      cases synced with
      | nil => exact .inl (traced.keep rfl rfl)
      | cons sync rest =>
          exact .inr (traced.copies rfl notDry ⟨rfl, _, rfl, shown_not_nothing (List.cons_ne_nil _ _)⟩)

theorem repair_traced :
    Client.Ensures (anyWorld V D) (fun _ => True) (fun _ => Traced ops log) ops.repair
      (fun text _ => Traced ops (log ++ [⟨"repair", arguments, .ok text⟩]))
      fun error _ => Traced ops (log ++ [⟨"repair", arguments, .error error⟩]) := by
  have isNoRestart : ¬ "repair" = "restart_server" := by decide
  refine Client.Ensures.bind (Client.Ensures.bind (reading_traced _ (readState_reads _)) fun _ =>
    reading_traced _ (clusterHealth_reads _)) fun health => ?_
  dsimp only
  split
  · exact Client.Ensures.pure fun _ _ traced => traced.add fun _ restarts => absurd restarts isNoRestart
  split
  · exact Client.Ensures.pure fun _ _ traced => traced.add fun _ restarts => absurd restarts isNoRestart
  rename_i notDry
  rw [Bool.not_eq_true] at notDry
  refine Client.Ensures.through (fun synced _ history => Traced ops log history ∨
    Traced ops (log ++ [⟨"repair", arguments, .ok ("\n".intercalate (synced.map Operations.showSync))⟩])
      history) ?_ ?_
  · refine Client.Ensures.tryCatch (copying_traced _ notDry) fun error => ?_
    split
    · exact Client.Ensures.throw fun _ _ traced => traced.fails _ _
    · exact Client.Ensures.throw fun _ _ traced => traced.fails _ _
  · refine fun synced => Client.Ensures.pure fun _ _ here => ?_
    rcases here with traced | traced
    · exact traced.add fun _ restarts => absurd restarts isNoRestart
    · exact traced

theorem methods_traced {method : Method V D} (member : method ∈ ops.methods) :
    Client.Ensures (anyWorld V D) (fun _ => True) (fun _ => Traced ops log) (ended (method.function arguments))
      (fun outcome _ => Traced ops (log ++ [⟨method.name, arguments, outcome⟩])) fun _ _ _ => False := by
  simp only [Operations.methods, List.mem_cons, List.not_mem_nil, or_false] at member
  rcases member with rfl | rfl | rfl | rfl | rfl
  · exact reads_traced (by decide : "cluster_status" ≠ "restart_server")
      (.bind (.lift _) fun _ => ops.clusterStatus_quiet)
  · refine ended_ensures (Client.Ensures.bind (lift_traced _ _) fun _ => ?_)
    refine Client.Ensures.bind (lift_traced _ _) fun shard => ?_
    exact Client.Ensures.bind (lift_traced _ _) fun replica => restartServer_traced shard replica
  · exact ended_ensures (Client.Ensures.bind (lift_traced _ _) fun _ => repair_traced)
  · refine reads_traced (by decide : "read_server_log" ≠ "restart_server")
      (.bind (.lift _) fun _ => .bind (.lift _) fun shard => ?_)
    exact .bind (.lift _) fun replica => .bind (.lift _) fun lines =>
      ops.readServerLog_quiet shard replica lines
  · exact reads_traced (by decide : "probe_search" ≠ "restart_server")
      (.bind (.lift _) fun _ => ops.probeSearch_quiet)

theorem conclude_traced (method : Method V D) (outcome : Except Error String) :
    Client.Ensures (anyWorld V D) (fun _ => True) (fun _ => Traced ops log) (method.conclude arguments outcome)
      (fun _ _ => Traced ops log) fun _ _ => Traced ops log := by
  have writes : ∀ entry : Entry, Client.Ensures (anyWorld V D) (fun _ => True) (fun _ => Traced ops log)
      (entry.write : Action V D _) (fun _ _ => Traced ops log) fun _ _ => Traced ops log := by
    intro entry
    refine Client.Ensures.bind (ensures_call (fun _ _ _ => trivial) fun _ history answer traced => ?_)
      fun answer =>
      Client.Ensures.lift (fun _ _ _ _ traced => traced) fun _ _ _ _ traced => traced
    exact traced.quiet rfl answer
  unfold Method.conclude
  split
  · exact Client.Ensures.bind (writes _) fun _ => Client.Ensures.pure fun _ _ traced => traced
  · exact Client.Ensures.bind (writes _) fun _ => Client.Ensures.throw fun _ _ traced => traced
  · exact Client.Ensures.bind (writes _) fun _ => Client.Ensures.throw fun _ _ traced => traced
  · exact Client.Ensures.throw fun _ _ traced => traced

/-- Every invocation and every other call keeps it. -/
theorem Traced.kept (ops : Operations) : KeptByTools ops (Traced (V := V) (D := D) ops) where
  quiet answer isQuiet traced := traced.quiet isQuiet.2 answer
  invoke method member arguments :=
    Method.invoke_ensures (fun outcome log => Traced ops (log ++ [⟨method.name, arguments, outcome⟩]))
      (fun _ => methods_traced member) fun outcome _ => conclude_traced method outcome

end Tools

/-! ## What the notes say of the invocations -/

/-- The journal raises what writing a file raises, which is no `ToolError`. -/
def plain : Event V D → Bool
  | ⟨.journal _, .error (.tool _)⟩ => false
  | _ => true

/-- What is known as long as the journal is plain. -/
def Plainly (fact : Prop) (history : List (Event V D)) : Prop := (∀ event ∈ history, plain event = true) → fact

section Notes

variable {fact : Prop} {history : List (Event V D)}

theorem Plainly.snoc (plainly : Plainly fact history) (event : Event V D) : Plainly fact (history ++ [event]) :=
  fun isPlain => plainly fun other member => isPlain other (List.mem_append_left _ member)

theorem Plainly.imp {other : Prop} (plainly : Plainly fact history) (implies : fact → other) :
    Plainly other history :=
  fun isPlain => implies (plainly isPlain)

/-- Nothing that is done makes it less known. -/
theorem plainly_stays (action : Action V D α) :
    Client.Ensures (anyWorld V D) (fun _ => True) (fun _ => Plainly fact) action (fun _ _ => Plainly fact)
      fun _ _ => Plainly fact := by
  refine Client.Ensures.of_only (.any action) (fun _ _ _ move => move.elim) (fun _ _ => trivial) ?_
  rintro call _ history answer last plainly rfl
  exact plainly.snoc _

theorem write_plainly (entry : Entry) :
    Client.Ensures (anyWorld V D) (fun _ => True) (fun _ => Plainly fact) entry.write (fun _ _ => Plainly fact)
      fun error _ => Plainly (fact ∧ ∀ text, error ≠ .tool text) := by
  refine Client.Ensures.through (Client.Either (fun _ _ => Plainly fact)
    fun error _ => Plainly (fact ∧ ∀ text, error ≠ .tool text)) ?_ Client.Ensures.either
  refine ensures_call (fun _ _ _ => trivial) fun _ history answer plainly => ?_
  cases answer with
  | ok value => exact plainly.snoc _
  | error error =>
      refine fun isPlain => ⟨plainly.snoc _ isPlain, ?_⟩
      rintro text rfl
      exact Bool.false_ne_true (isPlain _ (List.mem_append_right _ List.mem_cons_self))

/-- The function ended with an exception that `journaled` turns into a
`ToolError` of this text. -/
def FailedWith (outcome : Except Error String) (text : String) : Prop :=
  outcome = .error (.tool text) ∨ outcome = .error (.user text)

theorem conclude_plainly (method : Method V D) (arguments : List (String × Json))
    (outcome : Except Error String) :
    Client.Ensures (anyWorld V D) (fun _ => True) (fun _ => Plainly fact) (method.conclude arguments outcome)
      (fun text _ => Plainly (fact ∧ outcome = .ok text))
      fun error _ => Plainly (fact ∧ ∀ text, error = .tool text → FailedWith outcome text) := by
  have writes : ∀ entry : Entry, Client.Ensures (anyWorld V D) (fun _ => True) (fun _ => Plainly fact)
      (entry.write : Action V D _) (fun _ _ => Plainly fact)
      fun error _ => Plainly (fact ∧ ∀ text, error = .tool text → FailedWith outcome text) := fun entry =>
    Client.Ensures.imp (write_plainly entry) (fun _ _ plainly => plainly) (fun _ _ _ plainly => plainly)
      fun _ _ _ plainly => plainly.imp fun holds => ⟨holds.1, fun text same => absurd same (holds.2 text)⟩
  unfold Method.conclude
  split
  · exact Client.Ensures.bind (writes _) fun _ => Client.Ensures.pure fun _ _ plainly =>
      plainly.imp fun holds => ⟨holds, rfl⟩
  · rename_i text
    refine Client.Ensures.bind (writes _) fun _ => Client.Ensures.throw fun _ _ plainly =>
      plainly.imp fun holds => ⟨holds, ?_⟩
    rintro other ⟨⟩
    exact .inl rfl
  · rename_i text
    refine Client.Ensures.bind (writes _) fun _ => Client.Ensures.throw fun _ _ plainly =>
      plainly.imp fun holds => ⟨holds, ?_⟩
    rintro other ⟨⟩
    exact .inr rfl
  · rename_i error notTool notUser
    refine Client.Ensures.throw fun _ _ plainly => plainly.imp fun holds => ⟨holds, fun text same => ?_⟩
    exact absurd same (notTool text)

/-- What an invocation adds to the log, from what its caller sees of it. -/
theorem invoke_plainly (method : Method V D) (arguments : List (String × Json))
    (known : List Invocation → Prop) :
    Client.Ensures (anyWorld V D) (fun _ => True) (fun state => Plainly (known state.2))
      (method.invoke arguments)
      (fun text state => Plainly (∃ log, known log ∧ state.2 = log ++ [⟨method.name, arguments, .ok text⟩]))
      fun error state => Plainly (∀ text, error = .tool text →
        ∃ log outcome, known log ∧ FailedWith outcome text ∧ state.2 = log ++
          [⟨method.name, arguments, outcome⟩]) := by
  refine @Method.invoke_ensures V D _ _ method arguments (fun log => Plainly (known log))
    (fun _ log => Plainly (known log))
    (fun text given => Plainly (∃ log, known log ∧ given = log ++ [⟨method.name, arguments, .ok text⟩]))
    (fun error given => Plainly (∀ text, error = .tool text →
      ∃ log outcome, known log ∧ FailedWith outcome text ∧ given = log ++
        [⟨method.name, arguments, outcome⟩])) ?_ ?_
  · exact fun _ => ended_ensures (plainly_stays _)
  · intro outcome log
    refine Client.Ensures.imp (conclude_plainly method arguments outcome) (fun _ _ plainly => plainly) ?_ ?_
    · exact fun text _ _ plainly => plainly.imp fun ⟨isKnown, isText⟩ => ⟨log, isKnown, by rw [isText]⟩
    · exact fun error _ _ plainly => plainly.imp fun ⟨isKnown, fails⟩ text isTool =>
        ⟨log, outcome, isKnown, fails text isTool, rfl⟩

end Notes

/-- A note that makes the runbook ask for a person. -/
def CouldNot (note : String) : Prop := "could not".toList <+: note.toList

/-- A note about a restart. -/
structure NotedRestart (note : String) (invocation : Invocation) : Prop where
  restarts : invocation.restarts
  couldNot : CouldNot note ↔ invocation.failed = true

theorem FailedWith.failed {invocation : Invocation} {text : String}
    (failedWith : FailedWith invocation.outcome text) :
    invocation.failed = true := by
  unfold Invocation.failed
  rcases failedWith with same | same
  · rw [same]
  · rw [same]

theorem couldNot_restart (shard replica : Nat) (text : String) :
    CouldNot (s!"could not restart shard {shard} replica {replica}: " ++ text) := by
  unfold CouldNot
  simp only [String.append_assoc, String.toList_append]
  exact List.IsPrefix.trans (by decide) (List.prefix_append "could not restart shard ".toList _)

theorem not_couldNot_restarted (shard replica : Nat) :
    ¬ CouldNot s!"restarted shard {shard} replica {replica}" := by
  unfold CouldNot
  simp only [String.append_assoc, String.toList_append]
  rintro ⟨rest, same⟩
  exact nomatch (List.cons.inj same).1

/-- What the repair adds to the notes. -/
inductive NotedRepair : List String → Except Error String → Prop
  | nothing {text : String} (nothing : NothingToRepair text) : NotedRepair [] (.ok text)
  | repaired {text : String} (something : ¬ NothingToRepair text) :
      NotedRepair ["repaired replicas that were behind"] (.ok text)
  | failed {outcome : Except Error String} {text : String} (failedWith : FailedWith outcome text) :
      NotedRepair [text] outcome

/-- The invocations of a runbook before its repair. -/
def Restarted (notes : List String) (log : List Invocation) : Prop :=
  ∃ status done, log = ⟨"cluster_status", [], .ok status⟩ :: done ∧ List.Forall₂ NotedRestart notes done

/-- The invocations up to it. -/
def Repaired (restarts repairs : List String) (log : List Invocation) : Prop :=
  ∃ front outcome, log = front ++ [⟨"repair", [], outcome⟩] ∧ Restarted restarts front ∧
    NotedRepair repairs outcome

/-- All of them. -/
def Finished (restarts repairs : List String) (log : List Invocation) : Prop :=
  ∃ front probe, log = front ++ [⟨"probe_search", [], .ok probe⟩] ∧ Repaired restarts repairs front

section Runbook

variable {ops : Operations}

/-- The restart of a server that is down, and the note about it. -/
def recordRestart (ops : Operations) (server : ServerHealth) : Recorder V D String :=
  tryCatchThe Error (do
      let _ ← ops.restartServerMethod.invoke [("shard", .int server.shard), ("replica", .int server.replica)]
      Client.quietly (pure s!"restarted shard {server.shard} replica {server.replica}"))
    fun error => Client.quietly (match error with
      | .tool text => pure (s!"could not restart shard {server.shard} replica {server.replica}: " ++
          withoutDots text)
      | error => throw error)

theorem recordRestarts_cons (ops : Operations) (server : ServerHealth) (health : List ServerHealth) :
    (ops.recordRestarts (V := V) (D := D) (server :: health)).program =
      if server.up = true then (ops.recordRestarts health).program
      else (recordRestart ops server >>= fun note =>
        (ops.recordRestarts health).program >>= fun notes => Client.quietly (pure (note :: notes))) := rfl

theorem recordRestart_note (server : ServerHealth) (earlier : List String) :
    Client.Ensures (anyWorld V D) (fun _ => True) (fun state => Plainly (Restarted earlier state.2))
      (recordRestart ops server) (fun note state => Plainly (Restarted (earlier ++ [note]) state.2))
      fun _ _ _ => True := by
  have adds : ∀ {note : String} {log given : List Invocation} {invocation : Invocation}, Restarted earlier log →
      given = log ++ [invocation] → NotedRestart note invocation → Restarted (earlier ++ [note]) given := by
    rintro note log given invocation ⟨status, done, rfl, notes⟩ rfl isNoted
    exact ⟨status, done ++ [invocation], rfl, List.rel_append notes (.cons isNoted .nil)⟩
  refine Client.Ensures.tryCatch (Client.Ensures.bind (invoke_plainly _ _ (Restarted earlier)) fun text =>
    ?_) fun error => ?_
  · refine Client.Ensures.quietly fun given => Client.Ensures.pure fun _ _ plainly => plainly.imp ?_
    rintro ⟨log, known, same⟩
    exact adds known same ⟨rfl, iff_of_false (not_couldNot_restarted _ _) Bool.false_ne_true⟩
  · refine Client.Ensures.quietly fun given => ?_
    split
    · rename_i text
      refine Client.Ensures.pure fun _ _ plainly => plainly.imp fun holds => ?_
      rcases holds text rfl with ⟨log, outcome, known, fails, same⟩
      exact adds known same ⟨rfl, iff_of_true (couldNot_restart _ _ _) (FailedWith.failed fails)⟩
    · exact Client.Ensures.throw fun _ _ _ => trivial

theorem recordRestarts_notes (health : List ServerHealth) (earlier : List String) :
    Client.Ensures (anyWorld V D) (fun _ => True) (fun state => Plainly (Restarted earlier state.2))
      (ops.recordRestarts health).program (fun notes state => Plainly (Restarted (earlier ++ notes) state.2))
      fun _ _ _ => True := by
  induction health generalizing earlier with
  | nil =>
      refine Client.Ensures.quietly fun given => Client.Ensures.pure fun _ _ plainly => ?_
      rw [List.append_nil]
      exact plainly
  | cons server health inductionHypothesis =>
      rw [recordRestarts_cons]
      split
      · exact inductionHypothesis earlier
      · refine Client.Ensures.bind (recordRestart_note server earlier) fun note => ?_
        refine Client.Ensures.bind (inductionHypothesis (earlier ++ [note])) fun notes => ?_
        refine Client.Ensures.quietly fun given => Client.Ensures.pure fun _ _ plainly => ?_
        rw [List.append_cons]
        exact plainly

/-- The outcome that a runbook means. -/
def meantOutcome (notes : List String) : String :=
  if notes.any fun note => "could not".toList <+: note.toList then "needs a person"
  else if notes.isEmpty then "nothing wrong" else "fixed"

/-- The report of a runbook. -/
def runbookReport (notes : List String) : String :=
  let done := if notes.isEmpty then "nothing needed doing" else "; ".intercalate notes
  s!"Runbook: {done}.\nOutcome: {meantOutcome notes}"

/-- The repair of a runbook, and what it notes. -/
def recordRepair (ops : Operations) : Recorder V D (List String) :=
  tryCatchThe Error (do
      let result ← ops.repairMethod.invoke []
      Client.quietly (pure (if "Nothing to repair".toList <+: result.toList then
        [] else ["repaired replicas that were behind"])))
    fun error => Client.quietly (match error with
      | .tool text => pure [text]
      | error => throw error)

theorem recordRunbook_eq (ops : Operations) : (ops.recordRunbook (V := V) (D := D)).program = (do
    let _ ← ops.clusterStatusMethod.invoke []
    let health ← Client.quietly ops.health
    let restarts ← (ops.recordRestarts health).program
    let repairs ← recordRepair ops
    let _ ← ops.probeSearchMethod.invoke []
    Client.quietly (pure (runbookReport (restarts ++ repairs)))) := rfl

theorem recordRepair_notes (restarts : List String) :
    Client.Ensures (anyWorld V D) (fun _ => True) (fun state => Plainly (Restarted restarts state.2))
      (recordRepair ops)
      (fun repairs state => Plainly (Repaired restarts repairs state.2)) fun _ _ _ => True := by
  refine Client.Ensures.tryCatch (Client.Ensures.bind (invoke_plainly _ _ (Restarted restarts))
    fun text => ?_) fun error => ?_
  · refine Client.Ensures.quietly fun given => Client.Ensures.pure fun _ _ plainly => plainly.imp ?_
    rintro ⟨log, known, same⟩
    refine ⟨log, _, same, known, ?_⟩
    split
    · rename_i nothing
      exact .nothing nothing
    · rename_i something
      exact .repaired something
  · refine Client.Ensures.quietly fun given => ?_
    split
    · rename_i text
      refine Client.Ensures.pure fun _ _ plainly => plainly.imp fun holds => ?_
      rcases holds text rfl with ⟨log, outcome, known, fails, same⟩
      exact ⟨log, outcome, same, known, .failed fails⟩
    · exact Client.Ensures.throw fun _ _ _ => trivial

/-- What a runbook reports, and its invocations. -/
theorem recordRunbook_notes (ops : Operations) :
    Client.Ensures (anyWorld V D) (fun _ => True) (fun state => Plainly (state.2 = []))
      ops.recordRunbook.program
      (fun report state => Plainly (∃ restarts repairs, report = runbookReport (restarts ++ repairs) ∧
        Finished restarts repairs state.2)) fun _ _ _ => True := by
  rw [recordRunbook_eq]
  refine Client.Ensures.through (fun _ state => Plainly (Restarted [] state.2)) ?_ fun _ => ?_
  · refine Client.Ensures.imp (invoke_plainly _ [] (· = [])) (fun _ _ plainly => plainly) ?_
      fun _ _ _ _ => trivial
    rintro status state history plainly
    refine plainly.imp ?_
    rintro ⟨log, rfl, same⟩
    exact ⟨status, [], same, .nil⟩
  refine Client.Ensures.through (fun _ state => Plainly (Restarted [] state.2)) ?_ fun health => ?_
  · exact Client.Ensures.quietly fun _ => Client.Ensures.imp (plainly_stays _) (fun _ _ plainly => plainly)
      (fun _ _ _ plainly => plainly) fun _ _ _ _ => trivial
  refine Client.Ensures.bind (recordRestarts_notes health []) fun restarts => ?_
  refine Client.Ensures.bind (recordRepair_notes restarts) fun repairs => ?_
  refine Client.Ensures.through (fun _ state => Plainly (Finished restarts repairs state.2)) ?_ fun _ => ?_
  · refine Client.Ensures.imp (invoke_plainly _ [] (Repaired restarts repairs)) (fun _ _ plainly => plainly) ?_
      fun _ _ _ _ => trivial
    rintro probe state history plainly
    refine plainly.imp ?_
    rintro ⟨log, known, same⟩
    exact ⟨log, probe, same, known⟩
  · exact Client.Ensures.quietly fun _ => Client.Ensures.pure fun _ _ plainly => plainly.imp fun known =>
      ⟨restarts, repairs, rfl, known⟩

end Runbook

/-! ## Honest reports -/

/-- Some step of a runbook failed. -/
def StepFailed (log : List Invocation) : Prop := ∃ invocation ∈ log, invocation.failed = true

/-- The restart of some server failed. -/
def RestartFailed (log : List Invocation) : Prop := ∃ invocation ∈ log, invocation.restarts ∧
    invocation.failed = true

/-- Something was tried. -/
def Tried (log : List Invocation) : Prop := ∃ invocation ∈ log, invocation.restarts ∨ invocation.repaired

/-- What an outcome has to say of what was done. -/
structure Honest (claimed : Option String) (log : List Invocation) (history : List (Event V D)) : Prop where
  fixed : claimed = some "fixed" → Changed history ∧ ¬ StepFailed log
  nothing : claimed = some "nothing wrong" → ¬ Changed history ∧ ¬ StepFailed log
  person : StepFailed log → claimed = some "needs a person"

/-- The steps of a runbook that its notes can tell apart: a repair that failed
says so in the words of a failed restart, or a restart failed as well; and where
nothing failed, what was tried was done. -/
structure Telling (ops : Operations) (log : List Invocation) (history : List (Event V D)) : Prop where
  repair : ∀ invocation ∈ log, invocation.tool = "repair" → ∀ text, FailedWith invocation.outcome text →
    CouldNot text ∨ RestartFailed log
  change : ¬ StepFailed log → Tried log →
    ops.dryRun = false ∧ ((∃ invocation ∈ log, invocation.restarts) ∨ Copied history)

section Honest

variable {ops : Operations} {restarts repairs notes : List String} {log done : List Invocation}
  {outcome : Except Error String} {history : List (Event V D)}

theorem any_couldNot :
    (notes.any fun note => "could not".toList <+: note.toList) = true ↔ ∃ note ∈ notes, CouldNot note :=
  List.any_eq_true.trans (exists_congr fun _ => and_congr_right fun _ => decide_eq_true_iff)

theorem meantOutcome_person : meantOutcome notes = "needs a person" ↔ ∃ note ∈ notes, CouldNot note := by
  unfold meantOutcome
  split
  · rename_i some
    exact iff_of_true rfl (any_couldNot.mp some)
  · rename_i none
    refine iff_of_false ?_ fun some => none (any_couldNot.mpr some)
    split <;> decide

theorem meantOutcome_nothing : meantOutcome notes = "nothing wrong" ↔ notes = [] := by
  unfold meantOutcome
  cases notes with
  | nil => exact iff_of_true rfl rfl
  | cons note notes =>
      refine iff_of_false ?_ (List.cons_ne_nil _ _)
      split
      · decide
      · exact (by decide : ¬ "fixed" = "nothing wrong")

theorem meantOutcome_fixed :
    meantOutcome notes = "fixed" ↔ notes ≠ [] ∧ ¬ ∃ note ∈ notes, CouldNot note := by
  rw [Ne, ← meantOutcome_nothing, ← meantOutcome_person]
  unfold meantOutcome
  split
  · decide
  · split
    · decide
    · decide

theorem meantOutcome_mem (notes : List String) : meantOutcome notes ∈ outcomes := by
  unfold meantOutcome
  split
  · decide
  · split
    · decide
    · decide

theorem claimedOutcome_report (letters : Regex.Letters) (notes : List String) :
    claimedOutcome letters (runbookReport notes) = some (meantOutcome notes) := by
  have whole : ∀ done outcome : String, s!"Runbook: {done}.\nOutcome: {outcome}" =
      ("Runbook: " ++ done ++ ".") ++ "\nOutcome: " ++ outcome := by
    intro done outcome
    have dotted : "." ++ "\nOutcome: " = ".\nOutcome: " := by decide
    change "Runbook: " ++ done ++ ".\nOutcome: " ++ outcome = _
    rw [← dotted, ← String.append_assoc]
  unfold runbookReport
  dsimp only
  rw [whole]
  exact claimedOutcome_last letters _ (meantOutcome_mem notes)

/-! ### The invocations of a runbook -/

theorem NotedRestart.any (noted : List.Forall₂ NotedRestart notes done) :
    (∃ note ∈ notes, CouldNot note) ↔ ∃ invocation ∈ done, invocation.failed = true := by
  induction noted with
  | nil => exact iff_of_false (fun ⟨_, member, _⟩ => nomatch member) fun ⟨_, member, _⟩ => nomatch member
  | cons isNoted _ inductionHypothesis =>
      rw [List.exists_mem_cons_iff, List.exists_mem_cons_iff, isNoted.couldNot, inductionHypothesis]

theorem NotedRestart.all (noted : List.Forall₂ NotedRestart notes done) : ∀ invocation ∈ done,
    invocation.restarts := by
  induction noted with
  | nil => exact fun _ impossible => nomatch impossible
  | cons isNoted _ inductionHypothesis => exact List.forall_mem_cons.mpr ⟨isNoted.restarts, inductionHypothesis⟩

/-- Something holds of an invocation of a runbook exactly when it holds of one of
its restarts or of its repair, where it holds of no other tool that returned. -/
theorem Finished.exists (finished : Finished restarts repairs log) :
    ∃ done outcome, List.Forall₂ NotedRestart restarts done ∧ NotedRepair repairs outcome ∧
      ∀ holds : Invocation → Prop, (∀ tool arguments text, tool ≠ "restart_server" → tool ≠ "repair" →
          ¬ holds ⟨tool, arguments, .ok text⟩) →
        ((∃ invocation ∈ log, holds invocation) ↔
          (∃ invocation ∈ done, holds invocation) ∨ holds ⟨"repair", [], outcome⟩) := by
  rcases finished with ⟨front, probe, rfl, earlier, outcome, rfl, ⟨status, done, rfl, restarted⟩, repaired⟩
  refine ⟨done, outcome, restarted, repaired, fun holds others => ?_⟩
  have isNoStatus := others "cluster_status" [] status (by decide) (by decide)
  have isNoProbe := others "probe_search" [] probe (by decide) (by decide)
  constructor
  · rintro ⟨invocation, member, isSo⟩
    simp only [List.cons_append, List.append_assoc, List.nil_append, List.mem_cons,
      List.mem_append, List.not_mem_nil,
      or_false] at member
    rcases member with rfl | isDone | rfl | rfl
    · exact absurd isSo isNoStatus
    · exact .inl ⟨invocation, isDone, isSo⟩
    · exact .inr isSo
    · exact absurd isSo isNoProbe
  · rintro (⟨invocation, isDone, isSo⟩ | isSo)
    · exact ⟨invocation, List.mem_append_left _ (List.mem_append_left _ (List.mem_cons_of_mem _ isDone)), isSo⟩
    · exact ⟨_, List.mem_append_left _ (List.mem_append_right _ List.mem_cons_self), isSo⟩

/-- The tool of a restart is not that of a repair. -/
theorem not_restarts_repair (outcome : Except Error String) : ¬ (Invocation.mk "repair" [] outcome).restarts :=
  (by decide : ¬ "repair" = "restart_server")

theorem Finished.restarts_iff (finished : Finished restarts repairs log) :
    (∃ invocation ∈ log, invocation.restarts) ↔ restarts ≠ [] := by
  rcases finished.exists with ⟨done, outcome, restarted, _, holds⟩
  refine (holds Invocation.restarts fun _ _ _ other _ => other).trans ?_
  cases restarted with
  | nil =>
      refine iff_of_false ?_ fun none => none rfl
      rintro (⟨_, member, _⟩ | isRestart)
      · cases member
      · exact not_restarts_repair _ isRestart
  | cons isNoted _ => exact iff_of_true (.inl ⟨_, List.mem_cons_self, isNoted.restarts⟩) (List.cons_ne_nil _ _)

theorem Finished.restartFailed_iff (finished : Finished restarts repairs log) :
    RestartFailed log ↔ ∃ note ∈ restarts, CouldNot note := by
  rcases finished.exists with ⟨done, outcome, restarted, _, holds⟩
  refine (holds (fun invocation => invocation.restarts ∧ invocation.failed = true) fun _ _ _ other _ isSo =>
    other isSo.1).trans ?_
  rw [NotedRestart.any restarted]
  constructor
  · rintro (⟨invocation, member, _, failed⟩ | ⟨isRestart, _⟩)
    · exact ⟨invocation, member, failed⟩
    · exact absurd isRestart (not_restarts_repair _)
  · rintro ⟨invocation, member, failed⟩
    exact .inl ⟨invocation, member, NotedRestart.all restarted invocation member, failed⟩

/-- There is one repair. -/
theorem Finished.repair (finished : Finished restarts repairs log) :
    ∃ outcome, NotedRepair repairs outcome ∧ (∃ invocation ∈ log, invocation.tool = "repair" ∧
      invocation.outcome = outcome) ∧
      (∀ invocation ∈ log, invocation.tool = "repair" → invocation.outcome = outcome) ∧
      (StepFailed log ↔ RestartFailed log ∨ (Invocation.mk "repair" [] outcome).failed = true) := by
  rcases finished.exists with ⟨done, outcome, restarted, repaired, holds⟩
  have repairs : ∀ kind : Except Error String → Prop,
      (∃ invocation ∈ log, invocation.tool = "repair" ∧ kind invocation.outcome) ↔ kind outcome := by
    intro kind
    refine (holds (fun invocation => invocation.tool = "repair" ∧ kind invocation.outcome)
      fun _ _ _ _ other isSo =>
      other isSo.1).trans ?_
    constructor
    · rintro (⟨invocation, member, isRepair, _⟩ | ⟨_, isSo⟩)
      · exact absurd ((NotedRestart.all restarted invocation member).symm.trans isRepair) (by decide)
      · exact isSo
    · exact fun isSo => .inr ⟨rfl, isSo⟩
  refine ⟨outcome, repaired, (repairs (· = outcome)).mpr rfl, fun invocation member isRepair => ?_, ?_⟩
  · exact ((repairs (· = invocation.outcome)).mp ⟨invocation, member, isRepair, rfl⟩).symm
  · refine (holds (·.failed = true) fun _ _ _ _ _ => Bool.false_ne_true).trans ?_
    rw [finished.restartFailed_iff, NotedRestart.any restarted]

/-! ### The notes of a repair -/

theorem FailedWith.unique {text other : String} (first : FailedWith outcome text)
    (second : FailedWith outcome other) :
    text = other := by
  rcases first with rfl | rfl <;> rcases second with same | same <;> cases same <;> rfl

theorem NotedRepair.couldNot (noted : NotedRepair repairs outcome) :
    (∃ note ∈ repairs, CouldNot note) ↔ ∃ text, FailedWith outcome text ∧ CouldNot text := by
  cases noted with
  | nothing nothing =>
      refine iff_of_false (fun ⟨_, member, _⟩ => nomatch member) ?_
      rintro ⟨text, same | same, _⟩ <;> cases same
  | repaired something =>
      refine iff_of_false ?_ ?_
      · rintro ⟨note, member, couldNot⟩
        rw [List.mem_singleton.mp member] at couldNot
        exact absurd couldNot (by unfold CouldNot; decide)
      · rintro ⟨text, same | same, _⟩ <;> cases same
  | failed failedWith =>
      rename_i text
      constructor
      · rintro ⟨note, member, couldNot⟩
        exact ⟨text, failedWith, List.mem_singleton.mp member ▸ couldNot⟩
      · rintro ⟨other, alsoFailed, couldNot⟩
        exact ⟨text, List.mem_cons_self, failedWith.unique alsoFailed ▸ couldNot⟩

theorem NotedRepair.failed_iff (noted : NotedRepair repairs outcome) :
    (Invocation.mk "repair" [] outcome).failed = true ↔ ∃ text, FailedWith outcome text := by
  cases noted with
  | nothing nothing =>
      refine iff_of_false Bool.false_ne_true ?_
      rintro ⟨text, same | same⟩ <;> cases same
  | repaired something =>
      refine iff_of_false Bool.false_ne_true ?_
      rintro ⟨text, same | same⟩ <;> cases same
  | failed failedWith => exact iff_of_true (FailedWith.failed failedWith) ⟨_, failedWith⟩

/-- Without a failure there is a note exactly when there was something to repair. -/
theorem NotedRepair.nil_iff (noted : NotedRepair repairs outcome) :
    repairs = [] ↔ (Invocation.mk "repair" [] outcome).failed = false ∧
      ¬ ∃ text, outcome = .ok text ∧ ¬ NothingToRepair text := by
  cases noted with
  | nothing nothing =>
      refine iff_of_true rfl ⟨rfl, ?_⟩
      rintro ⟨text, same, something⟩
      cases same
      exact something nothing
  | repaired something => exact iff_of_false (List.cons_ne_nil _ _) fun none => none.2 ⟨_, rfl, something⟩
  | failed failedWith =>
      refine iff_of_false (List.cons_ne_nil _ _) fun none => ?_
      rw [FailedWith.failed failedWith] at none
      exact nomatch none.1

/-! ### The report of a runbook -/

theorem Finished.nil_iff (finished : Finished restarts repairs log) :
    restarts ++ repairs = [] ↔ ¬ Tried log ∧ ¬ StepFailed log := by
  rcases finished.repair with ⟨outcome, noted, ⟨found, member, isRepair, isOutcome⟩, only, failed⟩
  rw [List.append_eq_nil_iff, noted.nil_iff, failed]
  have isRestarts : restarts = [] ↔ ¬ ∃ invocation ∈ log, invocation.restarts := by
    rw [finished.restarts_iff]
    exact not_not.symm
  constructor
  · rintro ⟨noRestart, notFailed, nothing⟩
    refine ⟨?_, ?_⟩
    · rintro ⟨invocation, isIn, isRestart | ⟨isRepair, text, ok, something⟩⟩
      · exact isRestarts.mp noRestart ⟨invocation, isIn, isRestart⟩
      · exact nothing ⟨text, (only invocation isIn isRepair).symm.trans ok, something⟩
    · rintro (⟨invocation, isIn, isRestart, _⟩ | isFailed)
      · exact isRestarts.mp noRestart ⟨invocation, isIn, isRestart⟩
      · rw [notFailed] at isFailed
        cases isFailed
  · rintro ⟨notTried, notFailed⟩
    refine ⟨isRestarts.mpr ?_, Bool.eq_false_iff.mpr fun isFailed => notFailed (.inr isFailed), ?_⟩
    · exact fun ⟨invocation, isIn, isRestart⟩ => notTried ⟨invocation, isIn, .inl isRestart⟩
    · exact fun ⟨text, ok, something⟩ =>
        notTried ⟨found, member, .inr ⟨isRepair, text, isOutcome.trans ok, something⟩⟩

theorem Traced.changed_tried (traced : Traced ops log history) (changed : Changed history) : Tried log := by
  rcases changed with isStarted | isCopied
  · rcases traced.started isStarted with ⟨_, invocation, member, isRestart⟩
    exact ⟨invocation, member, .inl isRestart⟩
  · rcases traced.copied isCopied with ⟨_, invocation, member, isRepaired⟩
    exact ⟨invocation, member, .inr isRepaired⟩

/-- Where nothing failed, a change was made exactly when something that was tried
was done. -/
theorem Traced.changed_iff (traced : Traced ops log history) (notFailed : ¬ StepFailed log) :
    Changed history ↔ ops.dryRun = false ∧ ((∃ invocation ∈ log, invocation.restarts) ∨ Copied history) := by
  constructor
  · rintro (isStarted | isCopied)
    · exact ⟨(traced.started isStarted).1, .inl (traced.started isStarted).2⟩
    · exact ⟨(traced.copied isCopied).1, .inr isCopied⟩
  · rintro ⟨awake, ⟨invocation, member, isRestart⟩ | isCopied⟩
    · refine .inl (traced.restarted awake invocation member isRestart ?_)
      exact Bool.eq_false_iff.mpr fun isFailed => notFailed ⟨invocation, member, isFailed⟩
    · exact .inr isCopied

theorem honest_iff (traced : Traced ops log history) (finished : Finished restarts repairs log) :
    Honest (some (meantOutcome (restarts ++ repairs))) log history ↔ Telling ops log history := by
  rcases finished.repair with ⟨outcome, noted, ⟨found, member, isRepair, isOutcome⟩, only, failed⟩
  have couldNot : (∃ note ∈ restarts ++ repairs, CouldNot note) ↔
      RestartFailed log ∨ ∃ text, FailedWith outcome text ∧ CouldNot text := by
    rw [finished.restartFailed_iff, ← noted.couldNot]
    simp only [List.mem_append, or_and_right, exists_or]
  rw [noted.failed_iff] at failed
  constructor
  · rintro ⟨fixed, nothing, person⟩
    refine ⟨fun invocation isIn isRepair text failedWith => ?_, fun notFailed tried => ?_⟩
    · rw [only invocation isIn isRepair] at failedWith
      have isPerson := Option.some.inj (person (failed.mpr (.inr ⟨text, failedWith⟩)))
      rcases couldNot.mp (meantOutcome_person.mp isPerson) with restartFailed | ⟨other, alsoFailed, isNoted⟩
      · exact .inr restartFailed
      · exact .inl (failedWith.unique alsoFailed ▸ isNoted)
    · have notPerson : ¬ ∃ note ∈ restarts ++ repairs, CouldNot note := by
        intro some
        refine notFailed (failed.mpr ?_)
        rcases couldNot.mp some with restartFailed | ⟨text, failedWith, _⟩
        · exact .inl restartFailed
        · exact .inr ⟨text, failedWith⟩
      have isFixed := meantOutcome_fixed.mpr ⟨fun none => (finished.nil_iff.mp none).1 tried, notPerson⟩
      exact (traced.changed_iff notFailed).mp (fixed (congrArg some isFixed)).1
  · rintro ⟨repair, change⟩
    have person : StepFailed log → ∃ note ∈ restarts ++ repairs, CouldNot note := by
      intro isFailed
      rcases failed.mp isFailed with restartFailed | ⟨text, failedWith⟩
      · exact couldNot.mpr (.inl restartFailed)
      · rcases repair found member isRepair text (isOutcome ▸ failedWith) with isNoted | restartFailed
        · exact couldNot.mpr (.inr ⟨text, failedWith, isNoted⟩)
        · exact couldNot.mpr (.inl restartFailed)
    refine ⟨fun fixed => ?_, fun nothing => ?_, fun isFailed =>
      congrArg some (meantOutcome_person.mpr (person isFailed))⟩
    · rcases meantOutcome_fixed.mp (Option.some.inj fixed) with ⟨some, notPerson⟩
      have notFailed : ¬ StepFailed log := fun isFailed => notPerson (person isFailed)
      have tried : Tried log := by
        by_contra notTried
        exact some (finished.nil_iff.mpr ⟨notTried, notFailed⟩)
      exact ⟨(traced.changed_iff notFailed).mpr (change notFailed tried), notFailed⟩
    · rcases finished.nil_iff.mp (meantOutcome_nothing.mp (Option.some.inj nothing)) with ⟨notTried, notFailed⟩
      exact ⟨fun changed => notTried (traced.changed_tried changed), notFailed⟩

end Honest

/-- The recorded runbook is the runbook.  Whatever its steps do, the outcome that
is read back from its report is the one its notes mean.  That outcome is honest
exactly when the steps are such that the notes can tell them apart. -/
theorem runbook_honest_iff (ops : Operations) (letters : Regex.Letters) :
    Client.Erases ops.recordRunbook.program (ops.runRunbook : Action V D _) ∧
    ∀ restarts after report log, ∀ history : List (Event V D),
      Remote.Runs (anyWorld V D) (ops.recordRunbook.program (restarts, [])) []
        (.ok report (after, log)) history →
      (∀ event ∈ history, plain event = true) →
        (∃ notes, report = runbookReport notes ∧ claimedOutcome letters report = some (meantOutcome notes)) ∧
        (Honest (claimedOutcome letters report) log history ↔ Telling ops log history) := by
  refine ⟨ops.recordRunbook.erases, fun restarts after report log history run isPlain => ?_⟩
  have traced : Traced ops log history :=
    (ops.recordRunbook.keeps (Traced.kept ops) (restarts, []) [] .new).1 _ _ run
  have notes := (recordRunbook_notes ops (restarts, []) ([] : List (Event V D)) fun _ => rfl).1 _ _ run
  rcases notes isPlain with ⟨restarted, repaired, rfl, finished⟩
  rw [claimedOutcome_report]
  exact ⟨⟨_, rfl, rfl⟩, honest_iff traced finished⟩

section Sample

/-- A shard with two replicas that hold different writes. -/
def laggingState : ClusterState :=
  ⟨some 0, [], [[⟨none, 7000, none, none⟩, ⟨none, 7001, none, none⟩]], some (.glove 10 "data"), none⟩

def seqStatus (lastSeq : Nat) : StatusResponse := ⟨lastSeq, true, lastSeq, 0, lastSeq⟩

def unavailableText : String := s!"repair failed: {statusName .unavailable}: gone"

unseal List.mergeSort in
/-- A repair that cannot be made. -/
theorem unavailable_run : ∃ report after status probe history,
    Remote.Runs (anyWorld Unit Unit) (sampleOps.recordRunbook.program (fun _ => 0, [])) []
      (.ok report (after, [⟨"cluster_status", [], .ok status⟩, ⟨"repair", [], .error (.tool unavailableText)⟩,
        ⟨"probe_search", [], .ok probe⟩])) history ∧ history.all plain = true := by
  refine ⟨?_, ?_, ?_, ?_, ?_, ?_, ?_⟩
  rotate_left 5
  · -- the status of the cluster, and its entry
    refine Remote.Runs.answered (.ok (some laggingState)) rfl ?_
    refine Remote.Runs.answered (.ok (some (seqStatus 2))) rfl ?_
    refine Remote.Runs.answered (.ok (some (seqStatus 1))) rfl ?_
    refine Remote.Runs.answered (.ok ⟨⟩) rfl ?_
    -- every server is up
    refine Remote.Runs.answered (.ok (some laggingState)) rfl ?_
    refine Remote.Runs.answered (.ok (some (seqStatus 2))) rfl ?_
    refine Remote.Runs.answered (.ok (some (seqStatus 1))) rfl ?_
    -- the repair, and its entry
    refine Remote.Runs.answered (.ok (some laggingState)) rfl ?_
    refine Remote.Runs.answered (.ok (some (seqStatus 2))) rfl ?_
    refine Remote.Runs.answered (.ok (some (seqStatus 1))) rfl ?_
    refine Remote.Runs.answered (.ok (some laggingState)) rfl ?_
    refine Remote.Runs.answered (.error (.rpc .unavailable "gone")) rfl ?_
    refine Remote.Runs.answered (.ok ⟨⟩) rfl ?_
    -- the probe, and its entry
    refine Remote.Runs.answered (.ok (some laggingState)) rfl ?_
    refine Remote.Runs.answered (.ok ([1], [])) rfl ?_
    refine Remote.Runs.answered (.ok "3") rfl ?_
    refine Remote.Runs.answered (.ok ⟨⟩) rfl ?_
    exact Remote.Runs.done
  · rfl

theorem runbook_honest_iff_unavailable : ∃ report log, ∃ history : List (Event Unit Unit),
    log.any Invocation.failed = true ∧
      (Honest (claimedOutcome Regex.ascii report) log history ↔ Telling sampleOps log history) := by
  rcases unavailable_run with ⟨report, after, status, probe, history, run, isPlain⟩
  have honest := (runbook_honest_iff sampleOps Regex.ascii).2 _ _ _ _ _ run (List.all_eq_true.mp isPlain)
  exact ⟨_, _, _, rfl, honest.2⟩

/-- A repair that failed is reported as a cluster that was fixed. -/
theorem failed_repair_fixed : ¬ ∀ (ops : Operations) (letters : Regex.Letters) (restarts after : Restarts)
    (report : String)
    (log : List Invocation) (history : List (Event Unit Unit)),
      Remote.Runs (anyWorld Unit Unit) (ops.recordRunbook.program (restarts, [])) []
        (.ok report (after, log)) history →
      (∀ event ∈ history, plain event = true) → Honest (claimedOutcome letters report) log history := by
  intro honest
  rcases unavailable_run with ⟨report, after, status, probe, history, run, isPlain⟩
  have notes := (recordRunbook_notes sampleOps (fun _ => 0, []) ([] : List (Event Unit Unit)) fun _ =>
    rfl).1 _ _ run
  have traced := (sampleOps.recordRunbook.keeps (Traced.kept sampleOps) (fun _ => 0, []) [] .new).1 _ _ run
  rcases notes (List.all_eq_true.mp isPlain) with ⟨restarts, repairs, rfl, finished⟩
  have isHonest := honest sampleOps Regex.ascii _ _ _ _ _ run (List.all_eq_true.mp isPlain)
  rw [claimedOutcome_report] at isHonest
  have telling := (honest_iff traced finished).mp isHonest
  rcases telling.repair _ (List.mem_cons_of_mem _ List.mem_cons_self) rfl unavailableText (.inl rfl) with
    isNoted | other
  · exact absurd isNoted (by unfold CouldNot unavailableText; decide)
  · rcases other with ⟨invocation, member, isRestart, _⟩
    have tools : ∀ tool ∈ ["cluster_status", "repair", "probe_search"], tool ≠ "restart_server" := by decide
    exact tools _ (List.mem_map_of_mem (f := Invocation.tool) member) isRestart

end Sample

end Agent
end VectorSearch
