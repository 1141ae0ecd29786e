import VectorSearch.Index.Exact
import VectorSearch.Storage.CrashPoints

namespace VectorSearch

/-!
# Runs with crashes

A durable shard's life on one directory: it is opened, takes calls that may
each be cut off by a crash at any point, and is opened again.  What an observer
sees of a run is a list of events, and the specification says which history a
list of events leads to: acknowledged writes are in it, in order and once each,
an operation in flight at a crash is in it or not, and an installation replaces
it by the peer's.
-/

open Program

/-- What is observed of a run. -/
inductive Event (G : Type) where
  /-- A call to `add_batch` returned. -/
  | wrote (write : Write)
  /-- The process died inside a call to `add_batch`. -/
  | writing (write : Write)
  /-- A call to `install_snapshot` returned. -/
  | installed (peer : History)
  /-- The process died inside a call to `install_snapshot`. -/
  | installing (peer : History)
  /-- The directory was opened and held these contents. -/
  | recovered (contents : Contents Float32Bits G) (lastSeq : Nat)
  /-- A call raised, or opening the directory did. -/
  | raised (error : Error)

variable {D G : Type} [LinearOrder D] (np : Numpy Float32Bits D G) (npz : Npz G)

/-- The histories that account for what was observed of a shard started with
the given parameters.  Nothing accounts for an exception. -/
inductive Explains (params : HnswParams) : List (Event G) → History → Prop
  | start : Explains params [] ⟨params, []⟩
  | wrote {events : List (Event G)} {history : History} (before : Explains params events history)
      (write : Write) : Explains params (events ++ [.wrote write]) (history.push write)
  | lost {events : List (Event G)} {history : History} (before : Explains params events history)
      (write : Write) : Explains params (events ++ [.writing write]) history
  | kept {events : List (Event G)} {history : History} (before : Explains params events history)
      (write : Write) : Explains params (events ++ [.writing write]) (history.push write)
  | installed {events : List (Event G)} {history : History}
      (before : Explains params events history) (peer : History) :
      Explains params (events ++ [.installed peer]) peer
  | notInstalled {events : List (Event G)} {history : History}
      (before : Explains params events history) (peer : History) :
      Explains params (events ++ [.installing peer]) history
  | installedLate {events : List (Event G)} {history : History}
      (before : Explains params events history) (peer : History) :
      Explains params (events ++ [.installing peer]) peer
  | recovered {events : List (Event G)} {history : History}
      {contents : Contents Float32Bits G} (before : Explains params events history)
      (reached : history.replay np = some contents) :
      Explains params (events ++ [.recovered contents history.length]) history

/-! ## The system -/

/-- The calls a run is made of. -/
inductive Call where
  | addBatch (write : Write) (payloads : List String) (seq : Option Nat)
  | checkpoint
  | install (peer : History) (data : Bytes)

namespace Call

def program (state : DurableShard G) : Call → Program FileOp (DurableShard G) Error
  | addBatch write payloads seq =>
      DurableShard.addBatch np npz state write.globalIds write.vectors payloads seq
  | checkpoint => DurableShard.checkpoint npz state
  | install _ data => DurableShard.installSnapshot np npz state data

/-- A write of the one dimension that succeeds, a checkpoint, or a peer's
snapshot that reaches at least as far as this shard. -/
def Valid (dim : Nat) (state : DurableShard G) (disk : Disk) : Call → Prop
  | addBatch write payloads seq =>
      write.Given payloads ∧ (∀ row ∈ write.vectors.rows, row.length = dim) ∧
        ((DurableShard.addBatch np npz state write.globalIds write.vectors payloads seq).run
          dataDirectory disk).error = none
  | checkpoint => True
  | install peer data => PeerSnapshot np npz dim peer data ∧ state.lastSeq ≤ peer.length

/-- What is observed when the call ends. -/
def ended : Call → Option Error → List (Event G)
  | _, some error => [.raised error]
  | addBatch write _ _, none => [.wrote write]
  | checkpoint, none => []
  | install peer _, none => [.installed peer]

/-- What is observed when the process dies inside the call. -/
def cutOff : Call → List (Event G)
  | addBatch write _ _ => [.writing write]
  | checkpoint => []
  | install peer _ => [.installing peer]

end Call

/-- The files and, between an opening and the next crash, the open shard. -/
structure Node (G : Type) where
  disk : Disk
  process : Option (DurableShard G)

inductive Step (config : Config) (dim : Nat) : Node G → List (Event G) → Node G → Prop
  | opened {disk reached : Disk} {state : DurableShard G}
      (run : (DurableShard.openShard np npz config disk).run dataDirectory disk =
        ⟨reached, some state, none⟩) :
      Step config dim ⟨disk, none⟩ [.recovered state.shard.contents state.lastSeq]
        ⟨reached, some state⟩
  | openRaised {disk reached : Disk} {object : Option (DurableShard G)} {error : Error}
      (run : (DurableShard.openShard np npz config disk).run dataDirectory disk =
        ⟨reached, object, some error⟩) :
      Step config dim ⟨disk, none⟩ [.raised error] ⟨reached.abandoned, none⟩
  | openCrashed {disk left : Disk}
      (crash : Crashed dataDirectory (DurableShard.openShard np npz config disk) disk left) :
      Step config dim ⟨disk, none⟩ [] ⟨left.abandoned, none⟩
  | ended {disk : Disk} {state : DurableShard G} (call : Call)
      (valid : call.Valid np npz dim state disk) {outcome : Outcome Disk (DurableShard G) Error}
      (run : (call.program np npz state).run dataDirectory disk = outcome) :
      Step config dim ⟨disk, some state⟩ (call.ended outcome.error)
        ⟨outcome.world, some outcome.memory⟩
  | crashed {disk left : Disk} {state : DurableShard G} (call : Call)
      (valid : call.Valid np npz dim state disk)
      (crash : Crashed dataDirectory (call.program np npz state) disk left) :
      Step config dim ⟨disk, some state⟩ call.cutOff ⟨left.abandoned, none⟩
  | died {disk : Disk} {state : DurableShard G} :
      Step config dim ⟨disk, some state⟩ [] ⟨disk.abandoned, none⟩

/-- The runs from an empty directory, with what was observed of them. -/
inductive Run (config : Config) (dim : Nat) : List (Event G) → Node G → Prop
  | start : Run config dim [] ⟨Disk.empty, none⟩
  | step {events emitted : List (Event G)} {node next : Node G} (before : Run config dim events node)
      (step : Step np npz config dim node emitted next) : Run config dim (events ++ emitted) next

/-! ## The invariant of a run -/

/-- The node holds the shard of the history, in memory or in its files. -/
def Node.Holds (config : Config) (dim : Nat) (history : History) (node : Node G) : Prop :=
  match node.process with
  | some state => Running np npz config dim history state node.disk
  | none => Recoverable np npz config dim history node.disk

theorem recoverable_empty (config : Config) {dim : Nat} (positive : 0 < dim) :
    Recoverable np npz config dim ⟨config.params, []⟩ Disk.empty := by
  refine ⟨⟨positive, ?_, rfl, ?_⟩, 0, [], .absent rfl, ⟨[], ?_, rfl⟩, torn_nil⟩
  · intro write member
    cases member
  · exact Nat.two_pow_pos 64
  · intro entry member
    cases member

theorem Recoverable.abandoned {config : Config} {dim : Nat} {history : History} {disk : Disk}
    (recoverable : Recoverable np npz config dim history disk) :
    Recoverable np npz config dim history disk.abandoned :=
  ⟨recoverable.sound, recoverable.files⟩

/-- What one step does to the history it is explained by. -/
theorem step_explained {config : Config} {dim : Nat} {node next : Node G}
    {emitted : List (Event G)} (step : Step np npz config dim node emitted next)
    {history : History} (holds : node.Holds np npz config dim history) :
    ∃ later : History, next.Holds np npz config dim later ∧
      ∀ events, Explains np config.params events history →
        Explains np config.params (events ++ emitted) later := by
  have silent : ∀ events, Explains np config.params events history →
      Explains np config.params (events ++ []) history := by
    intro events explained
    rw [List.append_nil]
    exact explained
  cases step with
  | opened run =>
      obtain ⟨state, reached, recovered, running⟩ := open_recovers np npz holds
      rw [run] at recovered
      cases recovered
      refine ⟨history, running, ?_⟩
      intro events explained
      rw [running.lastSeq]
      exact .recovered explained running.contents
  | openRaised run =>
      obtain ⟨state, reached, recovered, running⟩ := open_recovers np npz holds
      rw [run] at recovered
      cases recovered
  | openCrashed crash =>
      have left := Covers.crashed dataDirectory (open_covers np npz holds) crash
      exact ⟨history, left.abandoned, silent⟩
  | ended call valid run =>
      cases call with
      | addBatch write payloads seq =>
          obtain ⟨given, uniform, success⟩ := valid
          obtain ⟨inOrder, after, accepted⟩ :=
            accepted_of_success np npz holds given uniform success
          obtain ⟨reached, kept, complete, running⟩ :=
            addBatch_run np npz holds accepted given inOrder
          rw [← run, Call.program, complete]
          exact ⟨history.push write, running, fun _ explained => .wrote explained write⟩
      | checkpoint =>
          obtain ⟨reached, complete, running⟩ := checkpoint_run np npz holds
          rw [← run, Call.program, complete]
          exact ⟨history, running, silent⟩
      | install peer data =>
          obtain ⟨snapshot, order⟩ := valid
          obtain ⟨reached, kept, complete, running⟩ := install_run np npz holds snapshot
          rw [← run, Call.program, complete]
          exact ⟨peer, running, fun _ explained => .installed explained peer⟩
  | crashed call valid crash =>
      cases call with
      | addBatch write payloads seq =>
          obtain ⟨given, uniform, success⟩ := valid
          obtain ⟨inOrder, after, accepted⟩ :=
            accepted_of_success np npz holds given uniform success
          rcases Covers.crashed dataDirectory
            (addBatch_covers np npz holds accepted given inOrder) crash with absent | present
          · exact ⟨history, absent.abandoned, fun _ explained => .lost explained write⟩
          · exact ⟨history.push write, present.abandoned, fun _ explained => .kept explained write⟩
      | checkpoint =>
          have left := Covers.crashed dataDirectory (checkpoint_covers np npz holds) crash
          exact ⟨history, left.abandoned, silent⟩
      | install peer data =>
          obtain ⟨snapshot, order⟩ := valid
          have order : history.length ≤ peer.length := by
            rw [← Running.lastSeq holds]
            exact order
          rcases Covers.crashed dataDirectory
            (install_covers np npz holds snapshot order) crash with old | new
          · exact ⟨history, old.abandoned, fun _ explained => .notInstalled explained peer⟩
          · exact ⟨peer, new.abandoned, fun _ explained => .installedLate explained peer⟩
  | died =>
      have left := Running.recoverable np npz holds
      exact ⟨history, left.abandoned, silent⟩

theorem run_explained {config : Config} {dim : Nat} (positive : 0 < dim)
    {events : List (Event G)} {node : Node G} (run : Run np npz config dim events node) :
    ∃ history, Explains np config.params events history ∧
      node.Holds np npz config dim history := by
  induction run with
  | start => exact ⟨⟨config.params, []⟩, .start, recoverable_empty np npz config positive⟩
  | step before step inductionHypothesis =>
      obtain ⟨history, explained, holds⟩ := inductionHypothesis
      obtain ⟨later, kept, extended⟩ := step_explained np npz step holds
      exact ⟨later, extended _ explained, kept⟩

/-- The shard a node has in memory, or that opening its directory gives, is the
one built by a history that accounts for everything observed. -/
def Accounted (config : Config) (events : List (Event G)) (node : Node G) : Prop :=
  ∃ history, Explains np config.params events history ∧
    match node.process with
    | some state =>
        history.replay np = some state.shard.contents ∧ state.lastSeq = history.length
    | none => ∃ (state : DurableShard G) (opened : Disk),
        (DurableShard.openShard np npz config node.disk).run dataDirectory node.disk =
          ⟨opened, some state, none⟩ ∧
        history.replay np = some state.shard.contents ∧ state.lastSeq = history.length

/-- Crash durability: whatever the calls and wherever the process dies, reopening
never raises and gives the shard of the acknowledged writes. -/
theorem crash_durability {config : Config} {dim : Nat} (positive : 0 < dim)
    {events : List (Event G)} {node : Node G} (run : Run np npz config dim events node) :
    Accounted np npz config events node := by
  obtain ⟨history, explained, holds⟩ := run_explained np npz positive run
  refine ⟨history, explained, ?_⟩
  obtain ⟨disk, process⟩ := node
  cases process with
  | some state => exact ⟨Running.contents holds, Running.lastSeq holds⟩
  | none =>
      obtain ⟨state, opened, complete, running⟩ := open_recovers np npz holds
      exact ⟨state, opened, complete, running.contents, running.lastSeq⟩

/-! A run on concrete files: one vector along the first axis is written, and
the process dies. -/

section Sample

/-- One vector along the first of two axes, as float32 bit patterns. -/
def axisWrite : Write where
  globalIds := [0]
  vectors := ⟨2, [[0x3F800000, 0]], by decide⟩
  payloads := [""]
  counted := rfl
  texts := rfl
  inside := by decide
  rows_small := by decide
  dim_small := by decide
  body_small := by decide

/-- One vector along the second of two axes. -/
def secondWrite : Write where
  globalIds := [1]
  vectors := ⟨2, [[0, 0x3F800000]], by decide⟩
  payloads := [""]
  counted := rfl
  texts := rfl
  inside := by decide
  rows_small := by decide
  dim_small := by decide
  body_small := by decide

/-- One vector of dimension three. -/
def wideWrite : Write where
  globalIds := [1]
  vectors := ⟨3, [[0x3F800000, 0, 0]], by decide⟩
  payloads := [""]
  counted := rfl
  texts := rfl
  inside := by decide
  rows_small := by decide
  dim_small := by decide
  body_small := by decide

def smallConfig : Config := ⟨true, 0, ⟨2, 10, none, 0, .heuristic⟩⟩

abbrev smallNumpy : Numpy Float32Bits Int Unit := Numpy.flat Numpy.axisDistance

abbrev smallNpz : Npz Unit := Npz.numbered Unit

def emptyShard : DurableShard Unit :=
  DurableShard.loaded smallConfig (Shard.init smallNumpy smallConfig.params) 0

def emptyLog : Disk := ⟨none, none, some [], []⟩

/-- How the call that writes the vector ends. -/
def axisOutcome : Outcome Disk (DurableShard Unit) Error :=
  (DurableShard.addBatch smallNumpy smallNpz emptyShard axisWrite.globalIds axisWrite.vectors []
    none).run dataDirectory emptyLog

theorem axisRun :
    Run smallNumpy smallNpz smallConfig 2
      [.recovered emptyShard.shard.contents 0, .wrote axisWrite]
      ⟨axisOutcome.world.abandoned, none⟩ := by
  have opened : Step smallNumpy smallNpz smallConfig 2 ⟨Disk.empty, none⟩
      [.recovered emptyShard.shard.contents 0] ⟨emptyLog, some emptyShard⟩ := .opened rfl
  have wrote : Step smallNumpy smallNpz smallConfig 2 ⟨emptyLog, some emptyShard⟩
      [.wrote axisWrite] ⟨axisOutcome.world, some axisOutcome.memory⟩ :=
    .ended (.addBatch axisWrite [] none) ⟨rfl, by decide, rfl⟩ rfl
  exact .step (.step (.step .start opened) wrote) .died

theorem crash_durability_axis :
    Accounted smallNumpy smallNpz smallConfig
      [.recovered emptyShard.shard.contents 0, .wrote axisWrite]
      ⟨axisOutcome.world.abandoned, none⟩ :=
  crash_durability smallNumpy smallNpz (by decide) axisRun

end Sample

end VectorSearch
