import VectorSearch.Agent.Recording

namespace VectorSearch

/-!
# The journal as an audit trail

The handler of a tool writes its entry when the function has ended, and only for
two of the ways in which it can end by an exception.
-/

namespace Agent

open Home Mcp

variable {V D : Type}

/-- Whether the function returned, or raised what `journaled` catches. -/
def Invocation.told (invocation : Invocation) : Bool :=
  match invocation.outcome with
  | .ok _ => true
  | .error (.tool _) => true
  | .error (.user _) => true
  | .error _ => false

/-- What a journal is to say of an invocation. -/
abbrev Line := String × List (String × Json) × Bool

def Invocation.line (invocation : Invocation) : Line :=
  (invocation.tool, invocation.arguments, invocation.failed)

/-- The entry of a tool in a journal. -/
def lineOf : Event V D → Option Line
  | ⟨.journal (.tool tool arguments _ error), _⟩ => some (tool, arguments, error)
  | _ => none

/-- The entries of tools in a journal, in order. -/
def journalLines (history : List (Event V D)) : List Line := history.filterMap lineOf

/-- Every change to the cluster is followed by the entry of a tool. -/
def ChangesNoted (history : List (Event V D)) : Prop :=
  ∀ front event back, history = front ++ event :: back → event.1.changes = true →
    ∃ later ∈ back, (lineOf later).isSome

theorem Unjournaled.lineOf {call : AgentCall V} (unjournaled : Unjournaled call)
    (answer : AgentCall.Answer V D call) :
    lineOf ⟨call, answer⟩ = none := by
  cases call with
  | journal entry =>
      cases entry with
      | model step text calls => rfl
      | tool tool arguments result error => cases unjournaled
  | _ => rfl

theorem journalLines_append (history more : List (Event V D)) :
    journalLines (history ++ more) = journalLines history ++ journalLines more := List.filterMap_append

theorem journalLines_keep {call : AgentCall V} (unjournaled : Unjournaled call)
    (answer : AgentCall.Answer V D call)
    (history : List (Event V D)) : journalLines (history ++ [⟨call, answer⟩]) = journalLines history := by
  have none : journalLines [(⟨call, answer⟩ : Event V D)] = [] := by
    unfold journalLines
    rw [List.filterMap_cons_none (unjournaled.lineOf answer), List.filterMap_nil]
  rw [journalLines_append, none, List.append_nil]

theorem ChangesNoted.quiet {history : List (Event V D)} (noted : ChangesNoted history) {event : Event V D}
    (quiet : event.1.changes = false) : ChangesNoted (history ++ [event]) := by
  intro front change back whole changes
  rcases List.eq_nil_or_concat back with rfl | ⟨rest, last, rfl⟩
  · rw [← List.head_eq_of_cons_eq (List.append_inj_right' whole rfl), quiet] at changes
    cases changes
  · rw [List.concat_eq_append, ← List.cons_append, ← List.append_assoc] at whole
    rcases noted front change rest (List.append_inj_left' whole rfl) changes with ⟨later, member, isLine⟩
    exact ⟨later, List.concat_eq_append ▸ List.mem_append_left _ member, isLine⟩

/-- An entry at the end follows everything. -/
theorem ChangesNoted.entry (history : List (Event V D)) {event : Event V D} (isLine : (lineOf event).isSome)
    (quiet : event.1.changes = false) : ChangesNoted (history ++ [event]) := by
  intro front change back whole changes
  rcases List.eq_nil_or_concat back with rfl | ⟨rest, last, rfl⟩
  · rw [← List.head_eq_of_cons_eq (List.append_inj_right' whole rfl), quiet] at changes
    cases changes
  · rw [List.concat_eq_append, ← List.cons_append, ← List.append_assoc] at whole
    have isLast := List.head_eq_of_cons_eq (List.append_inj_right' whole rfl)
    exact ⟨last, List.concat_eq_append ▸ List.mem_append_right _ List.mem_cons_self, isLast ▸ isLine⟩

/-! ## What the journal and the invocations have to do with each other -/

/-- The journal has an entry for each invocation that was told, and for no other. -/
structure Audit (log : List Invocation) (history : List (Event V D)) : Prop where
  lines : journalLines history = (log.filter Invocation.told).map Invocation.line
  noted : (∀ invocation ∈ log, invocation.told = true) → ChangesNoted history

/-- What is known while the function of a tool runs. -/
def Invoking (log : List Invocation) (history : List (Event V D)) : Prop :=
  journalLines history = (log.filter Invocation.told).map Invocation.line

/-- The entry that is made for what was told. -/
theorem entry_audited {method : Method V D} {arguments : List (String × Json)} {log : List Invocation}
    (outcome : Except Error String) (result : String)
    (isTold : (Invocation.mk method.name arguments outcome).told = true) {ends : Action V D String}
    (after : ∀ {holds : Restarts → List (Event V D) → Prop},
      Client.Ensures (anyWorld V D) (fun _ => True) holds ends (fun _ => holds) fun _ => holds) :
    Client.Ensures (anyWorld V D) (fun _ => True) (fun _ => Invoking log)
      ((Entry.tool method.name arguments result
        (Invocation.mk method.name arguments outcome).failed).write >>= fun _ => ends)
      (fun _ _ => Audit (log ++ [⟨method.name, arguments, outcome⟩]))
      fun _ _ => Audit (log ++ [⟨method.name, arguments, outcome⟩]) := by
  refine Client.Ensures.bind ?_ fun _ => after
  refine Client.Ensures.through (fun _ _ => Audit (log ++ [⟨method.name, arguments, outcome⟩])) ?_ ?_
  · refine ensures_call (fun _ _ _ => trivial) fun restarts history answer invoking => ⟨?_, fun _ => ?_⟩
    · rw [journalLines_append, show journalLines history = _ from invoking, List.filter_append, List.map_append]
      refine congrArg (_ ++ ·) ?_
      rw [List.filter_cons_of_pos isTold]
      rfl
    · exact ChangesNoted.entry history rfl rfl
  · exact fun answer => Client.Ensures.lift (fun _ _ _ _ audit => audit) fun _ _ _ _ audit => audit

/-- What was not told is missing in the journal. -/
theorem Invoking.audit {log : List Invocation} {history : List (Event V D)} (invoking : Invoking log history)
    {invocation : Invocation} (untold : invocation.told = false) :
    Audit (log ++ [invocation]) history := by
  refine ⟨?_, fun all => ?_⟩
  · rw [show journalLines history = _ from invoking, List.filter_append]
    rw [List.filter_cons_of_neg (Bool.eq_false_iff.mp untold), List.filter_nil, List.append_nil]
  · have told := all invocation (List.mem_append_right _ List.mem_cons_self)
    rw [untold] at told
    cases told

theorem conclude_audited (method : Method V D) (arguments : List (String × Json))
    (outcome : Except Error String) (log : List Invocation) :
    Client.Ensures (anyWorld V D) (fun _ => True) (fun _ => Invoking log) (method.conclude arguments outcome)
      (fun _ _ => Audit (log ++ [⟨method.name, arguments, outcome⟩]))
      fun _ _ => Audit (log ++ [⟨method.name, arguments, outcome⟩]) := by
  unfold Method.conclude
  split
  · exact entry_audited (.ok _) _ rfl (Client.Ensures.pure fun _ _ holds => holds)
  · exact entry_audited (.error (.tool _)) _ rfl (Client.Ensures.throw fun _ _ holds => holds)
  · exact entry_audited (.error (.user _)) _ rfl (Client.Ensures.throw fun _ _ holds => holds)
  · rename_i error notTool notUser
    refine Client.Ensures.throw fun restarts history invoking => invoking.audit ?_
    cases error with
    | tool text => exact absurd rfl (notTool text)
    | user text => exact absurd rfl (notUser text)
    | _ => rfl

/-- Every invocation and every other call keeps it. -/
theorem Audit.kept (ops : Operations) : KeptByTools ops (Audit (V := V) (D := D)) := by
  constructor
  · rintro log history call answer ⟨unjournaled, quiet⟩ audit
    exact ⟨(journalLines_keep unjournaled answer history).trans audit.lines, fun all =>
      (audit.noted all).quiet quiet⟩
  · intro method member arguments
    have runs : ∀ log, Client.Ensures (anyWorld V D) (fun _ => True) (fun _ => Invoking log)
      (method.function arguments)
        (fun _ _ => Invoking log) fun _ _ => Invoking log := by
      refine fun log => Client.Ensures.of_only (ops.methods_unjournaled member arguments)
        (fun _ _ _ move => move.elim)
        (fun _ _ => trivial) ?_
      rintro call unjournaled history answer last invoking rfl
      exact (journalLines_keep unjournaled answer history).trans invoking
    exact Method.invoke_ensures (fun _ => Invoking)
      (fun log => ended_ensures (Client.Ensures.imp (runs log) (fun _ _ audit => audit.lines)
        (fun _ _ _ here => here)
        fun _ _ _ here => here))
      fun outcome log => conclude_audited method arguments outcome log

/-! ## The operators -/

/-- What is run with an `Operations` object and its journal. -/
inductive Operator where
  | agent (settings : AgentSettings)
  | runbook

section Operators

variable (python : Python) (describe : Error → String × String) (ops : Operations)

def Operator.run (operator : Operator) : Action V D PUnit :=
  match operator with
  | .agent settings => do
      let _ ← runAgent python (ops.tools describe) settings
      return ⟨⟩
  | .runbook => do
      let _ ← ops.runRunbook
      return ⟨⟩

/-- The same with its invocations recorded. -/
def Operator.record : (operator : Operator) → Recorded ops (operator.run python describe ops : Action V D _)
  | .agent settings => .bind (recordAgent python describe ops settings) fun _ =>
      .quiet (pure PUnit.unit) (.pure _)
  | .runbook => .bind ops.recordRunbook fun _ => .quiet (pure PUnit.unit) (.pure _)

/-- Runs of operators one after the other, however they end: the counter of
restarts, the invocations, and everything that happened. -/
inductive Operated : Restarts → List Invocation → List (Event V D) → Prop
  | new : Operated (fun _ => 0) [] []
  | returned {restarts after : Restarts} {log invocations : List Invocation} {history last : List (Event V D)}
      (operated : Operated restarts log history) (operator : Operator)
      (run : Remote.Runs (anyWorld V D) ((operator.record python describe ops).program (restarts, log)) history
        (.ok ⟨⟩ (after, invocations)) last) : Operated after invocations last
  | raised {restarts after : Restarts} {log invocations : List Invocation} {history last : List (Event V D)}
      {error : Error} (operated : Operated restarts log history) (operator : Operator)
      (run : Remote.Runs (anyWorld V D) ((operator.record python describe ops).program (restarts, log)) history
        (.error error (after, invocations)) last) : Operated after invocations last

variable {python describe ops}

theorem Operated.audit {restarts : Restarts} {log : List Invocation} {history : List (Event V D)}
    (operated : Operated python describe ops restarts log history) : Audit log history := by
  induction operated with
  | new => exact ⟨rfl, fun _ front event back whole => by cases front <;> cases whole⟩
  | returned _ operator run inductionHypothesis =>
      exact ((operator.record python describe ops).keeps (Audit.kept ops) _ _ inductionHypothesis).1 _ _ run
  | raised _ operator run inductionHypothesis =>
      exact ((operator.record python describe ops).keeps (Audit.kept ops) _ _ inductionHypothesis).1 _ _ run

/-- A journal that lacks nothing: an entry for each invocation, in order, and one
after every change to the cluster. -/
def Complete (log : List Invocation) (history : List (Event V D)) : Prop :=
  journalLines history = log.map Invocation.line ∧ ChangesNoted history

theorem Audit.complete_iff {log : List Invocation} {history : List (Event V D)} (audit : Audit log history) :
    Complete log history ↔ ∀ invocation ∈ log, invocation.told = true := by
  constructor
  · rintro ⟨lines, _⟩
    have lengths := congrArg List.length (audit.lines.symm.trans lines)
    rw [List.length_map, List.length_map] at lengths
    exact List.length_filter_eq_length_iff.mp lengths
  · intro told
    refine ⟨?_, audit.noted told⟩
    rw [audit.lines, List.filter_eq_self.mpr told]

/-- The recorded operators are the operators.  In every sequence of their runs
the journal is complete exactly when every function that was invoked returned or
raised a `ToolError` or a `UserError`. -/
theorem journal_complete_iff (python : Python) (describe : Error → String × String) (ops : Operations) :
    (∀ operator : Operator, Client.Erases (operator.record python describe ops).program
      (operator.run python describe ops : Action V D _)) ∧
    ∀ restarts log, ∀ history : List (Event V D), Operated python describe ops restarts log history →
      (Complete log history ↔ ∀ invocation ∈ log, invocation.told = true) :=
  ⟨fun operator => (operator.record python describe ops).erases, fun _ _ _ operated =>
    operated.audit.complete_iff⟩

section Sample

/-- A server is started, and `cluster.json` cannot be written. -/
theorem started_run : ∃ after log history,
    Remote.Runs (anyWorld Unit Unit)
      ((Operator.runbook.record samplePython (fun _ => ("", "")) sampleOps).program (fun _ => 0, [])) []
      (.error .io (after, log)) history ∧ history.any (fun event => event.1.isSpawn) = true ∧
      log.any (fun invocation => !invocation.told) = true := by
  refine ⟨?_, ?_, ?_, ?_, ?_, ?_⟩
  rotate_left 3
  · -- the status of the cluster, and its entry
    refine Remote.Runs.answered (.ok (some downState)) rfl ?_
    refine Remote.Runs.answered (.ok none) rfl ?_
    refine Remote.Runs.answered (.ok ⟨⟩) rfl ?_
    -- the health of the server, and once more before the start
    refine Remote.Runs.answered (.ok (some downState)) rfl ?_
    refine Remote.Runs.answered (.ok none) rfl ?_
    refine Remote.Runs.answered (.ok (some downState)) rfl ?_
    refine Remote.Runs.answered (.ok none) rfl ?_
    refine Remote.Runs.answered (.ok (5 : Nat)) rfl ?_
    refine Remote.Runs.answered (.error .io) rfl ?_
    exact Remote.Runs.done
  · rfl
  · rfl

theorem journal_complete_iff_started : ∃ restarts log, ∃ history : List (Event Unit Unit),
    Operated samplePython (fun _ => ("", "")) sampleOps restarts log history ∧
      (Complete log history ↔ ∀ invocation ∈ log, invocation.told = true) := by
  rcases started_run with ⟨after, log, history, run, _⟩
  have operated := Operated.raised .new .runbook run
  exact ⟨_, _, _, operated, (journal_complete_iff _ _ _).2 _ _ _ operated⟩

/-- The start of a server is missing in the journal. -/
theorem start_not_journaled :
    ¬ ∀ (python : Python) (describe : Error → String × String) (ops : Operations) (restarts : Restarts)
      (log : List Invocation) (history : List (Event Unit Unit)),
      Operated python describe ops restarts log history →
        Complete log history := by
  intro complete
  rcases started_run with ⟨after, log, history, run, _, untold⟩
  have operated := Operated.raised .new .runbook run
  have told := operated.audit.complete_iff.mp (complete _ _ _ _ _ _ operated)
  rcases List.any_eq_true.mp untold with ⟨invocation, member, isUntold⟩
  rw [told invocation member] at isUntold
  cases isUntold

end Sample

end Operators

end Agent
end VectorSearch
