import VectorSearch.Storage.Runs

namespace VectorSearch

/-!
# Runs with I/O errors

Here every file operation of a running shard may raise, and the process goes on.
An append that raises can leave its record, or part of it, in the log or in the
buffer of the log file; until the log is emptied or opened again, the next
append would come to lie behind it.  The invariant therefore has two forms:
the files of a running shard, and the same files littered with the beginning of
the one record whose append raised last.
-/

open Program

variable {D G : Type} [LinearOrder D] (np : Numpy Float32Bits D G) (npz : Npz G)

/-! ## The system -/

/-- What happens in one step. -/
inductive Move where
  | opened
  | ended (call : Call)
  | failed (call : Call) (op : FileOp)
  | closed

/-- Calls that do not install another shard's snapshot. -/
def Call.Local : Call → Prop
  | install _ _ => False
  | _ => True

/-- Calls that append to the log. -/
def Call.Appends : Call → Prop
  | addBatch _ _ _ => True
  | _ => False

/-- One step of a shard whose file operations may raise.  Closing the log file,
or the end of the process, may write part of the buffer. -/
inductive Attempt (config : Config) (dim : Nat) :
    Node G → Move → List (Event G) → Node G → Prop
  | opened {disk reached : Disk} {state : DurableShard G}
      (run : (DurableShard.openShard np npz config disk).run dataDirectory disk =
        ⟨reached, some state, none⟩) :
      Attempt config dim ⟨disk, none⟩ .opened [.recovered state.shard.contents state.lastSeq]
        ⟨reached, some state⟩
  | openRaised {disk reached : Disk} {object : Option (DurableShard G)} {error : Error}
      (run : (DurableShard.openShard np npz config disk).run dataDirectory disk =
        ⟨reached, object, some error⟩) :
      Attempt config dim ⟨disk, none⟩ .opened [.raised error] ⟨reached.abandoned, none⟩
  | ended {disk : Disk} {state : DurableShard G} (call : Call) (isLocal : call.Local)
      (valid : call.Valid np npz dim state disk) {outcome : Outcome Disk (DurableShard G) Error}
      (run : (call.program np npz state).run dataDirectory disk = outcome) :
      Attempt config dim ⟨disk, some state⟩ (.ended call) (call.ended outcome.error)
        ⟨outcome.world, some outcome.memory⟩
  | failed {disk left : Disk} {state kept : DurableShard G} (call : Call) (isLocal : call.Local)
      (valid : call.Valid np npz dim state disk) {op : FileOp}
      (failure : Failed dataDirectory (call.program np npz state) disk op left kept) :
      Attempt config dim ⟨disk, some state⟩ (.failed call op) call.cutOff ⟨left, some kept⟩
  | closed {disk : Disk} {state : DurableShard G} {part : Bytes}
      (written : part <+: disk.unwritten) :
      Attempt config dim ⟨disk, some state⟩ .closed []
        ⟨⟨disk.snapshot, disk.temporary, some (disk.logged ++ part), []⟩, none⟩

/-- The log file and its buffer hold nothing but records of writes the shard
has taken. -/
def CleanLog (state : DurableShard G) (disk : Disk) : Prop :=
  disk.unwritten = [] ∧ ∃ records, readRecords disk.logged = .ok (records, disk.logged.length) ∧
    ∀ record ∈ records, record.seq ≤ state.lastSeq

/-- No write starts on a log that still holds bytes of an append that raised,
and no reset raises behind its truncation while the log was needed. -/
def Move.Careful (state : DurableShard G) (disk : Disk) : Move → Prop
  | .opened => True
  | .ended request => request.Appends → CleanLog state disk
  | .failed request op => (request.Appends → CleanLog state disk) ∧
      (op = .syncReset → ¬ request.Appends ∧ state.lastSeq ≤ state.snapshotSeq)
  | .closed => True

/-- The runs from an empty directory, with what was observed of them.  In a
careful run every move of an open shard meets the given condition. -/
inductive Attempts (condition : DurableShard G → Disk → Move → Prop) (config : Config) (dim : Nat) :
    List (Event G) → Node G → Prop
  | start : Attempts condition config dim [] ⟨Disk.empty, none⟩
  | step {events emitted : List (Event G)} {node next : Node G} {move : Move}
      (before : Attempts condition config dim events node)
      (step : Attempt np npz config dim node move emitted next)
      (meets : ∀ state, node.process = some state → condition state node.disk move) :
      Attempts condition config dim (events ++ emitted) next

/-! ## The invariant -/

/-- The files of a running shard, with the beginning of one more record behind
them, partly still in the buffer. -/
structure Littered (config : Config) (dim : Nat) (history : History) (write : Write)
    (state : DurableShard G) (disk : Disk) : Prop where
  before : ∃ log part : Bytes,
    Running np npz config dim history state ⟨disk.snapshot, disk.temporary, some log, []⟩ ∧
    disk.logged = log ++ part ∧
    part ++ disk.unwritten <+: FramedLog.frame crc32 (write.body (history.length + 1))
  accepted : ∃ after, Accepted np dim history state write after

/-- What is known of a node in a careful run: which history its shard holds,
and that what was observed is accounted for. -/
inductive Node.Kept (config : Config) (dim : Nat) (events : List (Event G)) : Node G → Prop
  | closed {disk : Disk} {history : History}
      (explained : Explains np config.params events history)
      (recoverable : Recoverable np npz config dim history disk) :
      Node.Kept config dim events ⟨disk, none⟩
  | running {disk : Disk} {state : DurableShard G} {history : History}
      (explained : Explains np config.params events history)
      (running : Running np npz config dim history state disk) :
      Node.Kept config dim events ⟨disk, some state⟩
  | littered {disk : Disk} {state : DurableShard G} {history : History} {write : Write}
      (absent : Explains np config.params events history)
      (present : Explains np config.params events (history.push write))
      (littered : Littered np npz config dim history write state disk) :
      Node.Kept config dim events ⟨disk, some state⟩

/-- On a clean log nothing of a raising append is left. -/
theorem Littered.running {config : Config} {dim : Nat} {history : History} {write : Write}
    {state : DurableShard G} {disk : Disk} (littered : Littered np npz config dim history write state disk)
    (clean : CleanLog state disk) : Running np npz config dim history state disk := by
  obtain ⟨flushed, records, read, covered⟩ := clean
  obtain ⟨log, part, running, bytes, cut⟩ := littered.before
  obtain ⟨after, accepted⟩ := littered.accepted
  obtain ⟨entries, logEq, old, _⟩ := running.log.entries running.inside
  have short : ∀ entry ∈ entries ++ [(history.length + 1, write)], entry.1 < 2 ^ 64 := by
    intro entry member
    have bound := accepted.short
    rcases List.mem_append.mp member with logged | new
    · have := old entry logged
      omega
    · rw [List.mem_singleton.mp new]
      exact bound
  rw [flushed, List.append_nil] at cut
  change log = _ at logEq
  rw [List.append_nil] at logEq
  have nothing : part = [] := by
    rcases torn_or_whole (history.length + 1, write) cut with torn | whole
    · have reread := readRecords_log
        (fun entry member => short entry (List.mem_append_left _ member)) torn
      rw [← logEq, ← bytes, read] at reread
      have size := congrArg Prod.snd (Except.ok.inj reread)
      simp only [bytes, List.length_append] at size
      exact List.eq_nil_of_length_eq_zero (by omega)
    · -- A complete record would be newer than every write the shard has taken.
      have reread := readRecords_log short torn_nil
      rw [logBytes_append, logBytes_singleton, ← logEq, ← whole, List.append_nil, ← bytes, read]
        at reread
      have recordsEq := congrArg Prod.fst (Except.ok.inj reread)
      have bound := covered (write.record (history.length + 1)) (by
        rw [show records = _ from recordsEq]
        exact List.mem_map.mpr ⟨_, List.mem_append_right _ List.mem_cons_self, rfl⟩)
      rw [running.lastSeq] at bound
      exact absurd bound (Nat.not_succ_le_self _)
  rw [nothing, List.append_nil] at bytes
  refine running.onFiles np npz running.snapshot ?_ flushed
  rw [bytes]
  exact running.log

/-! ## Checkpoints that raise -/

/-- Where a checkpoint can raise: with only the temporary file changed, with the
snapshot renamed, while the buffer is flushed, or with the log emptied. -/
theorem checkpoint_survives {good : FileOp → Disk → Prop} {state : DurableShard G}
    {archive : Archive G} (saved : snapshotArchive state.shard state.lastSeq = .ok archive)
    {disk : Disk} (early : ∀ op temporary, good op { disk with temporary })
    (renamed : ∀ op written kept, disk.unwritten = written ++ kept →
      ∀ log, log.getD [] = disk.logged ++ written →
        good op ⟨some (npz.savez archive), none, log, kept⟩)
    (emptied : good .syncReset ⟨some (npz.savez archive), none, some [], []⟩) :
    (DurableShard.checkpoint npz state).Survives dataDirectory
      (fun op left kept => kept = state ∧ good op left) disk := by
  have whole : disk.logged = disk.logged ++ [] := (List.append_nil _).symm
  simp only [DurableShard.checkpoint, saved]
  refine ⟨?_, ?_, ?_, ?_, ?_, trivial⟩
  · intro left failure
    cases failure with
    | unchanged => exact ⟨rfl, early _ disk.temporary⟩
    | writeTemporary _ part => exact ⟨rfl, early _ (some part)⟩
  · intro left failure
    cases failure with
    | unchanged => exact ⟨rfl, early _ _⟩
  · intro left failure
    cases failure with
    | unchanged => exact ⟨rfl, renamed _ [] disk.unwritten rfl disk.log whole⟩
  · intro left failure
    cases failure with
    | unchanged => exact ⟨rfl, renamed _ [] disk.unwritten rfl disk.log whole⟩
    | truncateLog written kept _ split =>
        exact ⟨rfl, renamed _ written kept split _ rfl⟩
  · intro left failure
    cases failure with
    | unchanged => exact ⟨rfl, emptied⟩

theorem Running.checkpoint_survives {config : Config} {dim : Nat} {history : History}
    {state : DurableShard G} {disk : Disk} (running : Running np npz config dim history state disk) :
    (DurableShard.checkpoint npz state).Survives dataDirectory
      (fun op left kept => kept = state ∧
        ((op = .syncReset → state.lastSeq ≤ state.snapshotSeq) →
          Running np npz config dim history state left)) disk := by
  obtain ⟨archive, saved, snapshot⟩ := running.saves
  apply VectorSearch.checkpoint_survives npz saved
  · intro op temporary _
    exact running.onFiles np npz running.snapshot running.log running.flushed
  · intro op written kept split log bytes _
    have nothing : written = [] ∧ kept = [] := by
      rw [running.flushed] at split
      exact List.append_eq_nil_iff.mp split.symm
    refine running.onFiles np npz ⟨_, running.inside, snapshot⟩ ?_ nothing.2
    change LogHolds history state.snapshotSeq (log.getD []) []
    rw [bytes, nothing.1, List.append_nil]
    exact running.log
  · intro reached
    refine running.onFiles np npz ⟨_, running.inside, snapshot⟩ ?_ rfl
    have equal : state.snapshotSeq = history.length := by
      have bound := reached rfl
      rw [running.lastSeq] at bound
      exact Nat.le_antisymm running.inside bound
    rw [equal]
    exact LogHolds.emptied history

theorem Littered.checkpoint_survives {config : Config} {dim : Nat} {history : History} {write : Write}
    {state : DurableShard G} {disk : Disk} (littered : Littered np npz config dim history write state disk) :
    (DurableShard.checkpoint npz state).Survives dataDirectory
      (fun op left kept => kept = state ∧
        ((op = .syncReset → state.lastSeq ≤ state.snapshotSeq) →
          Running np npz config dim history state left ∨
            Littered np npz config dim history write state left)) disk := by
  obtain ⟨log, part, running, bytes, cut⟩ := littered.before
  obtain ⟨archive, saved, snapshot⟩ := running.saves
  apply VectorSearch.checkpoint_survives npz saved
  · intro op temporary _
    exact Or.inr ⟨⟨log, part, running.onFiles np npz running.snapshot running.log rfl, bytes, cut⟩,
      littered.accepted⟩
  · intro op written kept split left leftBytes _
    refine Or.inr ⟨⟨log, part ++ written, ?_, ?_, ?_⟩, littered.accepted⟩
    · exact running.onFiles np npz ⟨_, running.inside, snapshot⟩ running.log rfl
    · change left.getD [] = _
      rw [leftBytes, bytes, List.append_assoc]
    · rw [List.append_assoc, ← split]
      exact cut
  · intro reached
    refine Or.inl (running.onFiles np npz ⟨_, running.inside, snapshot⟩ ?_ rfl)
    have equal : state.snapshotSeq = history.length := by
      have bound := reached rfl
      rw [running.lastSeq] at bound
      exact Nat.le_antisymm running.inside bound
    rw [equal]
    exact LogHolds.emptied history

/-- A checkpoint that succeeds removes what an append left behind. -/
theorem Littered.checkpoint_run {config : Config} {dim : Nat} {history : History} {write : Write}
    {state : DurableShard G} {disk : Disk} (littered : Littered np npz config dim history write state disk) :
    ∃ after, (DurableShard.checkpoint npz state).run dataDirectory disk =
        ⟨after, { state with snapshotSeq := state.lastSeq, vectorsSinceSnapshot := 0 }, none⟩ ∧
      Running np npz config dim history
        { state with snapshotSeq := state.lastSeq, vectorsSinceSnapshot := 0 } after := by
  obtain ⟨log, part, running, bytes, cut⟩ := littered.before
  obtain ⟨archive, saved, snapshot⟩ := running.saves
  obtain ⟨after, complete, kept⟩ := VectorSearch.checkpoint_run np npz running
  refine ⟨after, ?_, kept⟩
  rw [← complete]
  simp only [DurableShard.checkpoint, saved]
  rfl

/-! ## Writes that raise -/

/-- What a write that raises leaves: a littered log before the record is
complete, and otherwise the written shard. -/
theorem Running.addBatch_survives {config : Config} {dim : Nat} {history : History} {state : DurableShard G}
    {disk : Disk} {write : Write} {after : Contents Float32Bits G} {payloads : List String}
    {seq : Option Nat} (running : Running np npz config dim history state disk)
    (accepted : Accepted np dim history state write after) (given : write.Given payloads)
    (next : seq = none ∨ seq = some (state.lastSeq + 1)) :
    (DurableShard.addBatch np npz state write.globalIds write.vectors payloads seq).Survives
      dataDirectory (fun op left kept => op ≠ .syncReset →
        Littered np npz config dim history write kept left ∨
          Running np npz config dim (history.push write) kept left) disk := by
  have wrote := running_wrote np npz running accepted
  have behind : (finishWrite npz state write after).Survives dataDirectory
      (fun op left kept => op ≠ .syncReset →
        Littered np npz config dim history write kept left ∨
          Running np npz config dim (history.push write) kept left)
      (FileOp.perform (.appendLog (FramedLog.frame crc32 (write.body (history.length + 1)))) disk) := by
    unfold finishWrite
    split
    · apply Survives.imp dataDirectory ?_ wrote.checkpoint_survives
      intro op left kept ⟨same, holds⟩ other
      rw [same]
      exact Or.inr (holds fun equal => absurd equal other)
    · trivial
  have sameFiles : Running np npz config dim history state
      ⟨disk.snapshot, disk.temporary, some disk.logged, []⟩ :=
    running.onFiles np npz running.snapshot running.log rfl
  rw [addBatch_eq np npz running accepted given next, DurableShard.appendRecord]
  refine ⟨?_, ?_⟩
  · intro left failure _
    cases failure with
    | unchanged _ _ other => exact absurd rfl (other _)
    | appendLog _ written kept dropped _ split =>
        refine Or.inl ⟨⟨disk.logged, written, sameFiles, rfl, ?_⟩, after, accepted⟩
        rw [running.flushed, List.nil_append] at split
        rw [split, ← List.append_assoc]
        exact List.prefix_append _ _
  · split
    · refine ⟨?_, behind⟩
      intro left failure _
      cases failure with
      | unchanged =>
          refine Or.inl ⟨⟨disk.logged, FramedLog.frame crc32 (write.body (history.length + 1)),
            sameFiles, ?_, ?_⟩, after, accepted⟩
          · simp only [dataDirectory, FileOp.perform, Disk.logged, running.flushed,
              List.nil_append, Option.getD_some]
          · simp only [dataDirectory, FileOp.perform, List.append_nil, List.prefix_rfl]
    · exact behind

/-! ## Careful runs -/

/-- Closing a littered log leaves the write fully present or absent. -/
theorem Littered.closed {config : Config} {dim : Nat} {history : History} {write : Write}
    {state : DurableShard G} {disk : Disk} {part : Bytes}
    (littered : Littered np npz config dim history write state disk) (written : part <+: disk.unwritten) :
    Recoverable np npz config dim history
        ⟨disk.snapshot, disk.temporary, some (disk.logged ++ part), []⟩ ∨
      Recoverable np npz config dim (history.push write)
        ⟨disk.snapshot, disk.temporary, some (disk.logged ++ part), []⟩ := by
  obtain ⟨log, front, running, bytes, cut⟩ := littered.before
  obtain ⟨after, accepted⟩ := littered.accepted
  have begun : front ++ part <+: FramedLog.frame crc32 (write.body (history.length + 1)) :=
    List.IsPrefix.trans ((List.prefix_append_right_inj front).mpr written) cut
  have outcome := torn_append np npz running accepted begun
  have same : log ++ (front ++ part) = disk.logged ++ part := by
    rw [bytes, List.append_assoc]
  simp only [Disk.logged, Option.getD_some, same] at outcome ⊢
  exact outcome

/-- On a clean log the shard runs with the whole of its history. -/
theorem Node.Kept.clean {config : Config} {dim : Nat} {events : List (Event G)} {disk : Disk}
    {state : DurableShard G} (kept : Node.Kept np npz config dim events ⟨disk, some state⟩)
    (clean : CleanLog state disk) :
    ∃ history, Explains np config.params events history ∧
      Running np npz config dim history state disk := by
  cases kept with
  | running explained running => exact ⟨_, explained, running⟩
  | littered absent present littered => exact ⟨_, absent, littered.running np npz clean⟩

theorem attempt_kept {config : Config} {dim : Nat} {node next : Node G} {move : Move}
    {events emitted : List (Event G)} (step : Attempt np npz config dim node move emitted next)
    (careful : ∀ state, node.process = some state → move.Careful state node.disk)
    (kept : node.Kept np npz config dim events) :
    next.Kept np npz config dim (events ++ emitted) := by
  cases step with
  | opened run =>
      cases kept with
      | closed explained recoverable =>
          obtain ⟨state, reached, recovered, running⟩ := open_recovers np npz recoverable
          rw [run] at recovered
          cases recovered
          refine .running ?_ running
          rw [running.lastSeq]
          exact .recovered explained running.contents
  | openRaised run =>
      cases kept with
      | closed explained recoverable =>
          obtain ⟨state, reached, recovered, running⟩ := open_recovers np npz recoverable
          rw [run] at recovered
          cases recovered
  | ended call isLocal valid run =>
      cases call with
      | install peer data => exact absurd isLocal id
      | addBatch write payloads seq =>
          obtain ⟨given, uniform, success⟩ := valid
          obtain ⟨history, explained, running⟩ := kept.clean np npz (careful _ rfl trivial)
          obtain ⟨inOrder, after, accepted⟩ :=
            accepted_of_success np npz running given uniform success
          obtain ⟨reached, memory, complete, later⟩ :=
            addBatch_run np npz running accepted given inOrder
          rw [← run, Call.program, complete]
          exact .running (.wrote explained write) later
      | checkpoint =>
          cases kept with
          | running explained running =>
              obtain ⟨reached, complete, later⟩ := checkpoint_run np npz running
              rw [← run, Call.program, complete]
              refine .running ?_ later
              simpa only [Call.ended, List.append_nil] using explained
          | littered absent present littered =>
              obtain ⟨reached, complete, later⟩ := littered.checkpoint_run np npz
              rw [← run, Call.program, complete]
              refine .running ?_ later
              simpa only [Call.ended, List.append_nil] using absent
  | failed call isLocal valid failure =>
      cases call with
      | install peer data => exact absurd isLocal id
      | addBatch write payloads seq =>
          obtain ⟨given, uniform, success⟩ := valid
          obtain ⟨clean, site⟩ := careful _ rfl
          obtain ⟨history, explained, running⟩ := kept.clean np npz (clean trivial)
          obtain ⟨inOrder, after, accepted⟩ :=
            accepted_of_success np npz running given uniform success
          rcases Survives.failed dataDirectory
            (running.addBatch_survives np npz accepted given inOrder) failure
            (fun equal => (site equal).1 trivial) with littered | later
          · exact .littered (.lost explained write) (.kept explained write) littered
          · exact .running (.kept explained write) later
      | checkpoint =>
          obtain ⟨_, site⟩ := careful _ rfl
          have silent : ∀ history, Explains np config.params events history →
              Explains np config.params (events ++ Call.cutOff .checkpoint) history := by
            intro history explained
            simpa only [Call.cutOff, List.append_nil] using explained
          cases kept with
          | running explained running =>
              obtain ⟨same, later⟩ :=
                Survives.failed dataDirectory (running.checkpoint_survives np npz) failure
              rw [same]
              exact .running (silent _ explained) (later fun equal => (site equal).2)
          | littered absent present littered =>
              obtain ⟨same, later⟩ :=
                Survives.failed dataDirectory (littered.checkpoint_survives np npz) failure
              rw [same]
              rcases later fun equal => (site equal).2 with running | littered
              · exact .running (silent _ absent) running
              · exact .littered (silent _ absent) (silent _ present) littered
  | @closed disk state part written =>
      rw [List.append_nil]
      cases kept with
      | running explained running =>
          refine .closed explained ?_
          have nothing : part = [] := by
            rw [running.flushed] at written
            exact List.prefix_nil.mp written
          rw [nothing, List.append_nil]
          exact ⟨running.sound, running.recoverable.files⟩
      | littered absent present littered =>
          rcases littered.closed np npz written with old | new
          · exact .closed absent old
          · exact .closed present new

theorem attempts_kept {config : Config} {dim : Nat} (positive : 0 < dim) {events : List (Event G)}
    {node : Node G} (run : Attempts np npz Move.Careful config dim events node) :
    node.Kept np npz config dim events := by
  induction run with
  | start => exact .closed .start (recoverable_empty np npz config positive)
  | step before step meets inductionHypothesis =>
      exact attempt_kept np npz step meets inductionHypothesis

/-! ## What a peer is offered -/

/-- No list of records that the shard offers has a gap, or ends before its last
write. -/
def CompleteReplies (state : DurableShard G) (disk : Disk) : Prop :=
  ∀ after, ∃ reply, state.recordsAfter after disk = .ok reply ∧ ∀ records, reply = some records →
    records.map Record.seq = List.range' (after + 1) records.length ∧
      state.lastSeq ≤ after + records.length

theorem completeReplies_of_log {history : History} {state : DurableShard G} {disk : Disk}
    {tail : Bytes} (short : history.length < 2 ^ 64) (inside : state.snapshotSeq ≤ history.length)
    (log : LogHolds history state.snapshotSeq disk.logged tail) (torn : Torn tail)
    (reaches : state.lastSeq ≤ history.length) : CompleteReplies state disk := by
  intro after
  by_cases folded : after < state.snapshotSeq
  · refine ⟨none, if_pos folded, ?_⟩
    intro records impossible
    cases impossible
  · refine ⟨_, recordsAfter_eq short inside log torn (Nat.le_of_not_lt folded), ?_⟩
    intro records equal
    cases equal
    have count : ((numbered (after + 1) (history.writes.drop after)).map Entry.record).length =
        history.length - after := by
      have size := congrArg List.length (record_seqs (after + 1) (history.writes.drop after))
      rw [List.length_map, List.length_range', List.length_drop] at size
      exact size
    constructor
    · rw [record_seqs, count, List.length_drop]
      rfl
    · rw [count]
      omega

theorem Littered.completeReplies {config : Config} {dim : Nat} {history : History} {write : Write}
    {state : DurableShard G} {disk : Disk} (littered : Littered np npz config dim history write state disk) :
    CompleteReplies state disk := by
  obtain ⟨log, part, running, bytes, cut⟩ := littered.before
  obtain ⟨after, accepted⟩ := littered.accepted
  have begun : part <+: FramedLog.frame crc32 (write.body (history.length + 1)) :=
    (List.prefix_append part disk.unwritten).trans cut
  rcases torn_or_whole (history.length + 1, write) begun with torn | whole
  · have holds : LogHolds history state.snapshotSeq disk.logged part := by
      rw [bytes]
      exact running.log.tail part
    exact completeReplies_of_log running.sound.short running.inside holds torn
      (Nat.le_of_eq running.lastSeq)
  · have holds : LogHolds (history.push write) state.snapshotSeq disk.logged [] := by
      rw [bytes, whole]
      exact running.log.push write running.inside
    have longer : history.length ≤ (history.push write).length := by
      rw [History.length_push]
      exact Nat.le_succ _
    refine completeReplies_of_log ?_ (Nat.le_trans running.inside longer) holds torn_nil ?_
    · rw [History.length_push]
      exact accepted.short
    · rw [running.lastSeq]
      exact longer

/-- In a careful run the acknowledged writes survive every I/O error: they are
in the shard that reopening gives, in order and once each, and no reply to a
peer has a gap. -/
theorem acknowledged_writes_survive {config : Config} {dim : Nat} (positive : 0 < dim)
    {events : List (Event G)} {node : Node G} (run : Attempts np npz Move.Careful config dim events node) :
    Accounted np npz config events node ∧
      ∀ state, node.process = some state → CompleteReplies state node.disk := by
  have kept := attempts_kept np npz positive run
  cases kept with
  | closed explained recoverable =>
      obtain ⟨state, opened, complete, running⟩ := open_recovers np npz recoverable
      refine ⟨⟨_, explained, state, opened, complete, running.contents, running.lastSeq⟩, ?_⟩
      intro state impossible
      cases impossible
  | running explained running =>
      refine ⟨⟨_, explained, running.contents, running.lastSeq⟩, ?_⟩
      intro state same
      cases same
      exact completeReplies_of_log running.sound.short running.inside running.log torn_nil
        (Nat.le_of_eq running.lastSeq)
  | littered absent present littered =>
      obtain ⟨log, part, running, bytes, cut⟩ := littered.before
      refine ⟨⟨_, absent, running.contents, running.lastSeq⟩, ?_⟩
      intro state same
      cases same
      exact littered.completeReplies np npz

/-! A write whose fsync raises leaves its record in the log.  A second write
then takes the same seq, and replay skips it as one the shard already has. -/

section Sample

/-- The log once it holds the first write's record, and then the second's. -/
def litteredLog : Disk := ⟨none, none, some (logBytes [(1, axisWrite)]), []⟩

def twiceLogged : Disk := ⟨none, none, some (logBytes [(1, axisWrite), (1, secondWrite)]), []⟩

/-- The shard that holds one write. -/
def shardOf (write : Write) : DurableShard Unit :=
  match DurableShard.replayRecord smallNumpy emptyShard (write.record 1) with
  | .ok state => { state with replayedRecords := 0 }
  | .error _ => emptyShard

theorem emptyLog_clean : CleanLog emptyShard emptyLog :=
  ⟨rfl, [], rfl, fun _ member => nomatch member⟩

theorem emptyShard_short : emptyShard.lastSeq + 1 < 2 ^ 64 := by decide

theorem fsyncRaises (condition : DurableShard Unit → Disk → Move → Prop)
    (start : condition emptyShard emptyLog (.failed (.addBatch axisWrite [] none) .syncLog)) :
    Attempts smallNumpy smallNpz condition smallConfig 2
      [.recovered emptyShard.shard.contents 0, .writing axisWrite]
      ⟨litteredLog, some emptyShard⟩ := by
  have opened : Attempt smallNumpy smallNpz smallConfig 2 ⟨Disk.empty, none⟩ .opened
      [.recovered emptyShard.shard.contents 0] ⟨emptyLog, some emptyShard⟩ := .opened rfl
  have raised : Failed dataDirectory
      (Call.program smallNumpy smallNpz emptyShard (.addBatch axisWrite [] none)) emptyLog .syncLog
      litteredLog emptyShard := by
    have given : axisWrite.Given [] := rfl
    have logged := addBatch_logs smallNumpy smallNpz given (Or.inl rfl) emptyShard_short
    have synced : emptyShard.config.fsync = true := rfl
    rw [Call.program, logged, DurableShard.appendRecord, if_pos synced]
    refine .later (.here ?_)
    have left : dataDirectory.perform
        (.appendLog (FramedLog.frame crc32 (axisWrite.body (emptyShard.lastSeq + 1)))) emptyLog =
          litteredLog := by
      rw [litteredLog, logBytes_singleton]
      rfl
    rw [left]
    exact .unchanged .syncLog litteredLog fun _ impossible => by cases impossible
  have failed : Attempt smallNumpy smallNpz smallConfig 2 ⟨emptyLog, some emptyShard⟩
      (.failed (.addBatch axisWrite [] none) .syncLog) [.writing axisWrite]
      ⟨litteredLog, some emptyShard⟩ :=
    .failed (.addBatch axisWrite [] none) trivial ⟨rfl, by decide, rfl⟩ raised
  refine .step (.step .start opened (fun _ impossible => by cases impossible)) failed ?_
  intro state same
  cases same
  exact start

theorem acknowledged_writes_survive_fsync :
    Accounted smallNumpy smallNpz smallConfig
        [.recovered emptyShard.shard.contents 0, .writing axisWrite]
        ⟨litteredLog, some emptyShard⟩ ∧
      ∀ state, some emptyShard = some state → CompleteReplies state litteredLog :=
  acknowledged_writes_survive smallNumpy smallNpz (by decide)
    (fsyncRaises Move.Careful ⟨fun _ => emptyLog_clean, fun impossible => nomatch impossible⟩)

theorem secondWrite_run :
    (Call.program smallNumpy smallNpz emptyShard (.addBatch secondWrite [] none)).run dataDirectory
      litteredLog = ⟨twiceLogged, shardOf secondWrite, none⟩ := by
  have given : secondWrite.Given [] := rfl
  have logged := addBatch_logs smallNumpy smallNpz given (Or.inl rfl) emptyShard_short
  have synced : emptyShard.config.fsync = true := rfl
  have applied : DurableShard.applyLogged smallNumpy smallNpz emptyShard secondWrite.globalIds
      secondWrite.vectors [] = .done (shardOf secondWrite) := rfl
  have bytes : FileOp.perform
      (.appendLog (FramedLog.frame crc32 (secondWrite.body (emptyShard.lastSeq + 1)))) litteredLog =
        twiceLogged := by
    have split : logBytes [(1, axisWrite), (1, secondWrite)] =
        logBytes [(1, axisWrite)] ++ logBytes [(1, secondWrite)] :=
      logBytes_append [(1, axisWrite)] [(1, secondWrite)]
    rw [twiceLogged, split, logBytes_singleton (1, secondWrite)]
    rfl
  rw [Call.program, logged, DurableShard.appendRecord, if_pos synced, applied]
  simp only [Program.run, dataDirectory, bytes]
  rfl

theorem reopen_twiceLogged :
    (DurableShard.openShard smallNumpy smallNpz smallConfig twiceLogged).run dataDirectory
      twiceLogged =
        ⟨twiceLogged, some { shardOf axisWrite with replayedRecords := 1 }, none⟩ := by
  have read : readRecords twiceLogged.logged = .ok ([axisWrite.record 1, secondWrite.record 1],
      twiceLogged.logged.length) := by
    have short : ∀ entry ∈ ([(1, axisWrite), (1, secondWrite)] : List Entry), entry.1 < 2 ^ 64 := by
      simp
    have records := readRecords_log short torn_nil
    rw [List.append_nil] at records
    exact records
  have replayed : [axisWrite.record 1, secondWrite.record 1].foldlM
      (DurableShard.replayRecord smallNumpy) emptyShard =
        .ok { shardOf axisWrite with replayedRecords := 1 } := rfl
  have started : DurableShard.loadOrInit smallNumpy smallNpz smallConfig twiceLogged.snapshot =
      .ok (Shard.init smallNumpy smallConfig.params, 0) := rfl
  have base : DurableShard.loaded smallConfig (Shard.init smallNumpy smallConfig.params) 0 =
      emptyShard := rfl
  simp only [DurableShard.openShard, started, read, Nat.lt_irrefl, if_false,
    DurableShard.replayLog, base, replayed]
  rfl

/-- The second write returned, and the reopened shard does not have it. -/
theorem acknowledged_write_lost :
    Attempts smallNumpy smallNpz (fun _ _ _ => True) smallConfig 2
        [.recovered emptyShard.shard.contents 0, .writing axisWrite, .wrote secondWrite]
        ⟨twiceLogged, none⟩ ∧
      ∃ (state : DurableShard Unit) (opened : Disk),
        (DurableShard.openShard smallNumpy smallNpz smallConfig twiceLogged).run dataDirectory
          twiceLogged = ⟨opened, some state, none⟩ ∧
        state.shard.globalIds = [0] ∧ secondWrite.globalIds = [1] := by
  have success : (Call.addBatch secondWrite [] none).Valid smallNumpy smallNpz 2 emptyShard
      litteredLog := by
    refine ⟨rfl, by decide, ?_⟩
    have ended := congrArg Outcome.error secondWrite_run
    exact ended
  have wrote : Attempt smallNumpy smallNpz smallConfig 2 ⟨litteredLog, some emptyShard⟩
      (.ended (.addBatch secondWrite [] none)) [.wrote secondWrite]
      ⟨twiceLogged, some (shardOf secondWrite)⟩ := by
    exact .ended (.addBatch secondWrite [] none) trivial success secondWrite_run
  have closed : Attempt smallNumpy smallNpz smallConfig 2 ⟨twiceLogged, some (shardOf secondWrite)⟩
      .closed [] ⟨twiceLogged, none⟩ := by
    have whole : twiceLogged = ⟨none, none, some (twiceLogged.logged ++ []), []⟩ := by
      rw [List.append_nil]
      rfl
    nth_rewrite 2 [whole]
    exact .closed List.nil_prefix
  constructor
  · exact .step (.step (fsyncRaises _ trivial) wrote (fun _ _ => trivial)) closed
      (fun _ _ => trivial)
  · exact ⟨_, _, reopen_twiceLogged, rfl, rfl⟩

end Sample

end VectorSearch
