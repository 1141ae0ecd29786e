import VectorSearch.Storage.SystemCrash

namespace VectorSearch

/-!
# Runs with crashes of the operating system

The life of a durable shard on its medium: it is opened, takes calls, and the
operating system may stop at any point of any of them.  What is observed, and
which history accounts for it, is the same as where only the process dies.
-/

open Program Medium

variable {D G : Type} [LinearOrder D] (np : Numpy Float32Bits D G) (npz : Npz G)

/-! ## The system -/

/-- The medium and, between an opening and the next crash, the open shard. -/
structure MediumNode (G : Type) where
  medium : Medium
  process : Option (DurableShard G)

/-- The node as a process sees it. -/
def MediumNode.node (node : MediumNode G) : Node G := ⟨node.medium.disk, node.process⟩

/-- A rule says which calls may end.  After a crash the files are what was
left. -/
inductive SystemStep (config : Config) (dim : Nat) (rule : Medium → DurableShard G → Call → Prop) :
    MediumNode G → List (Event G) → MediumNode G → Prop
  | opened {medium reached : Medium} {state : DurableShard G}
      (run : (DurableShard.openShard np npz config medium.disk).run durableDirectory medium =
        ⟨reached, some state, none⟩) :
      SystemStep config dim rule ⟨medium, none⟩ [.recovered state.shard.contents state.lastSeq]
        ⟨reached, some state⟩
  | openRaised {medium reached : Medium} {object : Option (DurableShard G)} {error : Error}
      (run : (DurableShard.openShard np npz config medium.disk).run durableDirectory medium =
        ⟨reached, object, some error⟩) :
      SystemStep config dim rule ⟨medium, none⟩ [.raised error] ⟨{ reached with unwritten := [] }, none⟩
  | openCrashed {medium torn : Medium} {disk : Disk}
      (crash : Crashed durableDirectory (DurableShard.openShard np npz config medium.disk) medium torn)
      (left : torn.Left disk) : SystemStep config dim rule ⟨medium, none⟩ [] ⟨settled disk, none⟩
  | refused {medium : Medium} {state : DurableShard G} (call : Call) {error : Error}
      (refusal : call.program np npz state = .raised state error) :
      SystemStep config dim rule ⟨medium, some state⟩ [] ⟨medium, some state⟩
  | ended {medium : Medium} {state : DurableShard G} (call : Call)
      (valid : call.Valid np npz dim state medium.disk) (allowed : rule medium state call)
      {outcome : Outcome Medium (DurableShard G) Error}
      (run : (call.program np npz state).run durableDirectory medium = outcome) :
      SystemStep config dim rule ⟨medium, some state⟩ (call.ended outcome.error)
        ⟨outcome.world, some outcome.memory⟩
  | crashed {medium torn : Medium} {state : DurableShard G} {disk : Disk} (call : Call)
      (valid : call.Valid np npz dim state medium.disk)
      (crash : Crashed durableDirectory (call.program np npz state) medium torn) (left : torn.Left disk) :
      SystemStep config dim rule ⟨medium, some state⟩ call.cutOff ⟨settled disk, none⟩
  | exited {medium : Medium} {state : DurableShard G} :
      SystemStep config dim rule ⟨medium, some state⟩ [] ⟨{ medium with unwritten := [] }, none⟩
  | stopped {medium : Medium} {process : Option (DurableShard G)} {disk : Disk} (left : medium.Left disk) :
      SystemStep config dim rule ⟨medium, process⟩ [] ⟨settled disk, none⟩

inductive SystemRun (config : Config) (dim : Nat) (rule : Medium → DurableShard G → Call → Prop) :
    List (Event G) → MediumNode G → Prop
  | start : SystemRun config dim rule [] ⟨settled Disk.empty, none⟩
  | step {events emitted : List (Event G)} {node next : MediumNode G}
      (before : SystemRun config dim rule events node)
      (step : SystemStep np npz config dim rule node emitted next) :
      SystemRun config dim rule (events ++ emitted) next

/-- A write is acknowledged only where the entry of `wal.log` is covered, or
where the write takes a snapshot itself. -/
def Careful (medium : Medium) (state : DurableShard G) : Call → Prop
  | .addBatch write _ _ =>
      medium.enteredLog = true ∨
        { state with
          vectorsSinceSnapshot := state.vectorsSinceSnapshot + write.globalIds.length }.due = true
  | .checkpoint => True
  | .install _ _ => True

/-! ## The invariant of a run -/

/-- The node holds the shard of the history, and its medium does. -/
def MediumNode.Holds (config : Config) (dim : Nat) (history : History) (node : MediumNode G) : Prop :=
  match node.process with
  | some state => Running np npz config dim history state node.medium.disk ∧ node.medium.Opened
  | none => Recoverable np npz config dim history node.medium.disk ∧ node.medium.Settled

variable {config : Config} {dim : Nat} {history : History}

theorem MediumNode.Holds.keeps {node : MediumNode G} (holds : node.Holds np npz config dim history) :
    node.medium.Keeps (Recoverable np npz config dim history) := by
  rcases node with ⟨medium, process⟩
  cases process with
  | none => exact holds.2.keeps np npz holds.1
  | some state => exact holds.2.settled.keeps np npz holds.1.recoverable

/-- What a crash left is held. -/
theorem holds_settled {disk : Disk} (recoverable : Recoverable np npz config dim history disk) :
    MediumNode.Holds np npz config dim history ⟨settled disk, none⟩ := by
  refine ⟨?_, settled_settled disk⟩
  rw [disk_settled]
  exact recoverable.abandoned

/-- The process is gone and the files are as they were. -/
theorem holds_exited {medium : Medium} (recoverable : Recoverable np npz config dim history medium.disk)
    (settled : medium.Settled) :
    MediumNode.Holds np npz config dim history ⟨{ medium with unwritten := [] }, none⟩ :=
  ⟨recoverable.abandoned, settled.snapshot, settled.entered, settled.log, settled.logEntered⟩

/-- A complete run that is known from the files as a process sees them. -/
theorem run_medium {σ ε : Type} {program : Program FileOp σ ε} {medium : Medium} {reached : Disk} {memory : σ}
    {error : Option ε} (complete : program.run dataDirectory medium.disk = ⟨reached, memory, error⟩) :
    (program.run durableDirectory medium).world.disk = reached ∧
      (program.run durableDirectory medium).memory = memory ∧
      (program.run durableDirectory medium).error = error := by
  have same := (Medium.run_disk program medium).symm.trans complete
  injection same with isWorld isMemory isError
  exact ⟨isWorld, isMemory, isError⟩

/-- A call that ended, known from the files as a process sees them. -/
theorem holds_ended {program : Program FileOp (DurableShard G) Error} {medium : Medium} {reached : Disk}
    {kept : DurableShard G} (complete : program.run dataDirectory medium.disk = ⟨reached, kept, none⟩)
    (running : Running np npz config dim history kept reached)
    (opened : (program.run durableDirectory medium).world.Opened) :
    MediumNode.Holds np npz config dim history
        ⟨(program.run durableDirectory medium).world, some (program.run durableDirectory medium).memory⟩ ∧
      (program.run durableDirectory medium).error = none := by
  rcases run_medium complete with ⟨isWorld, isMemory, isError⟩
  refine ⟨⟨?_, opened⟩, isError⟩
  rw [isWorld, isMemory]
  exact running

/-- What one step does to the history it is explained by. -/
theorem systemStep_explained (fsync : config.fsync = true) {node next : MediumNode G} {emitted : List (Event G)}
    (step : SystemStep np npz config dim Careful node emitted next)
    (holds : node.Holds np npz config dim history) :
    ∃ later : History, next.Holds np npz config dim later ∧
      ∀ events, Explains np config.params events history →
        Explains np config.params (events ++ emitted) later := by
  have silent : ∀ events, Explains np config.params events history →
      Explains np config.params (events ++ []) history := by
    intro events explained
    rw [List.append_nil]
    exact explained
  cases step with
  | opened run =>
      rcases open_recovers np npz holds.1 with ⟨state, reached, recovered, running⟩
      rcases run_medium recovered with ⟨isWorld, isMemory, _⟩
      have opened := holds.2.open_opened np npz holds.1
      rw [run] at isWorld isMemory opened
      cases isMemory
      refine ⟨history, ⟨isWorld ▸ running, opened⟩, ?_⟩
      intro events explained
      rw [running.lastSeq]
      exact .recovered explained running.contents
  | openRaised run =>
      rcases open_recovers np npz holds.1 with ⟨state, reached, recovered, running⟩
      rcases run_medium recovered with ⟨_, _, isError⟩
      rw [run] at isError
      cases isError
  | openCrashed crash left =>
      have keeps := Covers.crashed durableDirectory (holds.2.open_keeps np npz holds.1) crash
      exact ⟨history, holds_settled np npz (keeps _ left), silent⟩
  | refused call refusal => exact ⟨history, holds, silent⟩
  | @ended medium state call valid allowed outcome run =>
      rcases holds with ⟨running, opened⟩
      cases call with
      | addBatch write payloads seq =>
          rcases valid with ⟨given, uniform, success⟩
          rcases accepted_of_success np npz running given uniform success with ⟨inOrder, after, accepted⟩
          rcases addBatch_run np npz running accepted given inOrder with ⟨reached, kept, complete, later⟩
          have settled := opened.settled.addBatch_opened running accepted given inOrder
            (running.config_eq ▸ fsync) allowed
          rcases holds_ended np npz complete later settled with ⟨kept, success⟩
          subst run
          refine ⟨history.push write, kept, ?_⟩
          intro events explained
          rw [Call.program, success]
          exact .wrote explained write
      | checkpoint =>
          rcases checkpoint_run np npz running with ⟨reached, complete, later⟩
          have settled := running.checkpoint_opened np npz opened.log
          rcases holds_ended np npz complete later settled with ⟨kept, success⟩
          subst run
          refine ⟨history, kept, ?_⟩
          intro events explained
          rw [Call.program, success]
          exact silent events explained
      | install peer data =>
          rcases valid with ⟨snapshot, order⟩
          rcases install_run np npz running snapshot with ⟨reached, kept, complete, later⟩
          have settled := install_opened np npz state opened.log snapshot
          rcases holds_ended np npz complete later settled with ⟨kept, success⟩
          subst run
          refine ⟨peer, kept, ?_⟩
          intro events explained
          rw [Call.program, success]
          exact .installed explained peer
  | crashed call valid crash left =>
      rcases holds with ⟨running, opened⟩
      cases call with
      | addBatch write payloads seq =>
          rcases valid with ⟨given, uniform, success⟩
          rcases accepted_of_success np npz running given uniform success with ⟨inOrder, after, accepted⟩
          have keeps := Covers.crashed durableDirectory
            (opened.settled.addBatch_keeps running accepted given inOrder (running.config_eq ▸ fsync)) crash
          rcases keeps _ left with absent | present
          · exact ⟨history, holds_settled np npz absent, fun _ explained => .lost explained write⟩
          · exact ⟨history.push write, holds_settled np npz present, fun _ explained => .kept explained write⟩
      | checkpoint =>
          have keeps := Covers.crashed durableDirectory
            (running.checkpoint_keeps np npz (opened.settled.isLog opened.log)
              (opened.settled.keeps np npz running.recoverable) fun _ recoverable => recoverable) crash
          exact ⟨history, holds_settled np npz (keeps _ left), silent⟩
      | install peer data =>
          rcases valid with ⟨snapshot, order⟩
          rw [running.lastSeq] at order
          have keeps := Covers.crashed durableDirectory
            (running.install_keeps np npz opened snapshot order) crash
          rcases keeps _ left with old | new
          · exact ⟨history, holds_settled np npz old, fun _ explained => .notInstalled explained peer⟩
          · exact ⟨peer, holds_settled np npz new, fun _ explained => .installedLate explained peer⟩
  | exited =>
      rcases holds with ⟨running, opened⟩
      exact ⟨history, holds_exited np npz running.recoverable opened.settled, silent⟩
  | stopped left => exact ⟨history, holds_settled np npz (holds.keeps np npz _ left), silent⟩

theorem systemRun_explained (positive : 0 < dim) (fsync : config.fsync = true) {events : List (Event G)}
    {node : MediumNode G} (run : SystemRun np npz config dim Careful events node) :
    ∃ history, Explains np config.params events history ∧ node.Holds np npz config dim history := by
  induction run with
  | start =>
      have empty := recoverable_empty np npz config positive
      exact ⟨⟨config.params, []⟩, .start, holds_settled np npz empty⟩
  | step before step inductionHypothesis =>
      rcases inductionHypothesis with ⟨history, explained, holds⟩
      rcases systemStep_explained np npz fsync step holds with ⟨later, kept, extended⟩
      exact ⟨later, extended _ explained, kept⟩

/-- With fsync on, acknowledged writes survive the operating system, if the entry
of the log is covered when they are acknowledged. -/
theorem system_crash_durability (positive : 0 < dim) (fsync : config.fsync = true) {events : List (Event G)}
    {node : MediumNode G} (run : SystemRun np npz config dim Careful events node) :
    Accounted np npz config events node.node := by
  rcases systemRun_explained np npz positive fsync run with ⟨history, explained, holds⟩
  refine ⟨history, explained, ?_⟩
  rcases node with ⟨medium, process⟩
  cases process with
  | some state => exact ⟨holds.1.contents, holds.1.lastSeq⟩
  | none =>
      rcases open_recovers np npz holds.1 with ⟨state, opened, complete, running⟩
      exact ⟨state, opened, complete, running.contents, running.lastSeq⟩

/-! The first snapshot covers the entry of the log.  Without one the first write
is acknowledged and lost. -/

section Sample

def openedMedium : Medium := ⟨none, none, some (StoredFile.covered []), [], none, false⟩

theorem sampleOpened (rule : Medium → DurableShard Unit → Call → Prop) :
    SystemRun smallNumpy smallNpz smallConfig 2 rule [.recovered emptyShard.shard.contents 0]
      ⟨openedMedium, some emptyShard⟩ :=
  .step .start (.opened rfl)

/-- How a snapshot of the empty shard ends. -/
def checkpointed : Outcome Medium (DurableShard Unit) Error :=
  (DurableShard.checkpoint smallNpz emptyShard).run durableDirectory openedMedium

/-- How the write behind it ends. -/
def carefulOutcome : Outcome Medium (DurableShard Unit) Error :=
  (DurableShard.addBatch smallNumpy smallNpz checkpointed.memory axisWrite.globalIds axisWrite.vectors []
    none).run durableDirectory checkpointed.world

theorem carefulRun :
    SystemRun smallNumpy smallNpz smallConfig 2 Careful
      [.recovered emptyShard.shard.contents 0, .wrote axisWrite]
      ⟨carefulOutcome.world, some carefulOutcome.memory⟩ := by
  have saved : SystemStep smallNumpy smallNpz smallConfig 2 Careful ⟨openedMedium, some emptyShard⟩ []
      ⟨checkpointed.world, some checkpointed.memory⟩ := .ended .checkpoint trivial trivial rfl
  have wrote : SystemStep smallNumpy smallNpz smallConfig 2 Careful
      ⟨checkpointed.world, some checkpointed.memory⟩ [.wrote axisWrite]
      ⟨carefulOutcome.world, some carefulOutcome.memory⟩ :=
    .ended (.addBatch axisWrite [] none) ⟨rfl, by decide, rfl⟩ (Or.inl rfl) rfl
  exact .step (.step (sampleOpened Careful) saved) wrote

theorem system_crash_durability_axis :
    Accounted smallNumpy smallNpz smallConfig [.recovered emptyShard.shard.contents 0, .wrote axisWrite]
      (MediumNode.node ⟨carefulOutcome.world, some carefulOutcome.memory⟩) :=
  system_crash_durability smallNumpy smallNpz (by decide) rfl carefulRun

/-- How the first write ends, behind no snapshot. -/
def firstOutcome : Outcome Medium (DurableShard Unit) Error :=
  (DurableShard.addBatch smallNumpy smallNpz emptyShard axisWrite.globalIds axisWrite.vectors []
    none).run durableDirectory openedMedium

/-- What accounts for an acknowledged write has a write. -/
theorem explains_wrote {params : HnswParams} {events : List (Event Unit)} {write : Write} {history : History}
    (explained : Explains smallNumpy params (events ++ [.wrote write]) history) : history.writes ≠ [] := by
  generalize same : events ++ [Event.wrote write] = whole at explained
  cases explained with
  | start => exact absurd same (List.append_ne_nil_of_right_ne_nil _ (List.cons_ne_nil _ _))
  | wrote before other => exact List.append_ne_nil_of_right_ne_nil _ (List.cons_ne_nil _ _)
  | kept before other => exact List.append_ne_nil_of_right_ne_nil _ (List.cons_ne_nil _ _)
  | lost before other => cases (List.append_inj' same rfl).2
  | installed before peer => cases (List.append_inj' same rfl).2
  | notInstalled before peer => cases (List.append_inj' same rfl).2
  | installedLate before peer => cases (List.append_inj' same rfl).2
  | recovered before reached => cases (List.append_inj' same rfl).2

/-- The first write returned, the operating system stops before anything has
synced the directory, and the log is gone. -/
theorem created_log_lost :
    SystemRun smallNumpy smallNpz smallConfig 2 (fun _ _ _ => True)
        [.recovered emptyShard.shard.contents 0, .wrote axisWrite] ⟨Medium.settled Disk.empty, none⟩ ∧
      ¬ Accounted smallNumpy smallNpz smallConfig [.recovered emptyShard.shard.contents 0, .wrote axisWrite]
        (MediumNode.node ⟨Medium.settled Disk.empty, none⟩) := by
  constructor
  · have wrote : SystemStep smallNumpy smallNpz smallConfig 2 (fun _ _ _ => True)
        ⟨openedMedium, some emptyShard⟩ [.wrote axisWrite] ⟨firstOutcome.world, some firstOutcome.memory⟩ :=
      .ended (.addBatch axisWrite [] none) ⟨rfl, by decide, rfl⟩ trivial rfl
    have left : firstOutcome.world.Left Disk.empty := ⟨Or.inl rfl, Or.inr ⟨rfl, rfl⟩, rfl⟩
    exact .step (.step (sampleOpened _) wrote) (.stopped left)
  · rintro ⟨history, explained, state, opened, reopened, _, lastSeq⟩
    have nothing : state.lastSeq = 0 := by
      have empty : (DurableShard.openShard smallNumpy smallNpz smallConfig Disk.empty).run dataDirectory
          Disk.empty = ⟨emptyLog, some emptyShard, none⟩ := rfl
      cases reopened.symm.trans empty
      rfl
    have acknowledged : Explains smallNumpy smallConfig.params
        ([.recovered emptyShard.shard.contents 0] ++ [.wrote axisWrite]) history := explained
    have writes := explains_wrote acknowledged
    exact writes (List.eq_nil_of_length_eq_zero (lastSeq.symm.trans nothing))

end Sample

end VectorSearch
