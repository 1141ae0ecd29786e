import VectorSearch.Storage.LogFile
import VectorSearch.Storage.Recovery

namespace VectorSearch

/-!
# Every point where a process can stop

For each operation of a durable shard: what a complete run leaves in memory and
in the files, and that the files stay recoverable wherever the process dies.
An operation that changes the history has one file operation at which the
change takes effect; before it the old history is recovered, behind it the new.
-/

open Program

variable {D G : Type} [LinearOrder D] (np : Numpy Float32Bits D G) (npz : Npz G)

/-! ## Opening -/

/-- The last part of `openShard`, once the replay loop is known to succeed. -/
def finishOpening (state : DurableShard G) (intact size : Nat) :
    Program FileOp (Option (DurableShard G)) Error :=
  if intact < size then .call none (.cutLog intact) (.call none .openLog (.done (some state)))
  else .call none .openLog (.done (some state))

/-- On a recoverable directory nothing raises: the torn tail is cut off and the
shard of the whole history is built. -/
theorem openShard_eq {config : Config} {dim : Nat} {history : History} {disk : Disk}
    (recoverable : Recoverable np npz config dim history disk) :
    ∃ (state : DurableShard G) (intact : Nat),
      DurableShard.openShard np npz config disk = finishOpening state intact disk.logged.length ∧
      history.replay np = some state.shard.contents ∧ state.lastSeq = history.length ∧
      state.config = config ∧
      SnapshotHolds np npz config.params history state.snapshotSeq disk.snapshot ∧
      LogHolds history state.snapshotSeq (disk.logged.take intact) [] := by
  have sound := recoverable.sound
  obtain ⟨seq, tail, snapshot, ⟨stale, covered, bytes⟩, torn⟩ := recoverable.files
  have inside := snapshot.inside
  obtain ⟨shard, loads, reached⟩ := snapshot.load np npz sound
  have short : ∀ entry ∈ stale ++ numbered (seq + 1) (history.writes.drop seq), entry.1 < 2 ^ 64 :=
    fun entry member => Nat.lt_of_le_of_lt (seq_le_length inside covered entry member) sound.short
  have read := readRecords_log short torn
  rw [← bytes] at read
  obtain ⟨after, whole⟩ := Option.isSome_iff_exists.mp sound.applied
  have applied : shard.contents.applyAll np (history.writes.drop seq) = some after := by
    rw [History.replay_upTo np history seq, reached] at whole
    exact whole
  obtain ⟨state, replayed, contents, lastSeq, snapshotSeq, same⟩ :=
    DurableShard.replay_numbered np (DurableShard.loaded config shard seq)
      (history.writes.drop seq) applied
  have replayAll : ((stale ++ numbered (seq + 1) (history.writes.drop seq)).map
      Entry.record).foldlM (DurableShard.replayRecord np) (DurableShard.loaded config shard seq) =
        .ok state := by
    have skipped := DurableShard.replay_covered np (DurableShard.loaded config shard seq) stale
      covered
    rw [List.map_append, List.foldlM_append, skipped]
    exact replayed
  refine ⟨state, (logBytes (stale ++ numbered (seq + 1) (history.writes.drop seq))).length,
    ?_, ?_, ?_, same, ?_, ?_⟩
  · rw [openShard_init np npz config disk loads, WriteAheadLog.init, read]
    dsimp only [finishOpening]
    split
    · simp only [within, id, Option.getD_some, replayAll]
    · simp only [within, id, Option.getD_some, replayAll]
  · rw [contents]
    exact whole
  · rw [lastSeq, List.length_drop]
    exact Nat.add_sub_cancel' inside
  · rw [snapshotSeq]
    exact snapshot
  · rw [snapshotSeq]
    refine ⟨stale, covered, ?_⟩
    rw [bytes, List.append_nil]
    exact List.take_left

/-- Opening a recoverable directory returns the shard of its history. -/
theorem open_recovers {config : Config} {dim : Nat} {history : History} {disk : Disk}
    (recoverable : Recoverable np npz config dim history disk) :
    ∃ (state : DurableShard G) (opened : Disk),
      (DurableShard.openShard np npz config disk).run dataDirectory disk =
        ⟨opened, some state, none⟩ ∧
      Running np npz config dim history state opened := by
  obtain ⟨state, intact, program, contents, lastSeq, same, snapshot, log⟩ :=
    openShard_eq np npz recoverable
  rw [program, finishOpening]
  split
  · refine ⟨state, _, rfl, recoverable.sound, same, contents, lastSeq,
      ⟨_, Nat.le_refl _, snapshot⟩, log, rfl⟩
  · rename_i whole
    refine ⟨state, _, rfl, recoverable.sound, same, contents, lastSeq,
      ⟨_, Nat.le_refl _, snapshot⟩, ?_, rfl⟩
    rw [List.take_of_length_le (Nat.le_of_not_lt whole)] at log
    exact log

/-- A crash while opening leaves the directory recoverable. -/
theorem open_covers {config : Config} {dim : Nat} {history : History} {disk : Disk}
    (recoverable : Recoverable np npz config dim history disk) :
    (DurableShard.openShard np npz config disk).Covers dataDirectory
      (Recoverable np npz config dim history) disk := by
  obtain ⟨state, intact, program, contents, lastSeq, same, snapshot, log⟩ :=
    openShard_eq np npz recoverable
  have cut : Recoverable np npz config dim history
      { disk with log := some (disk.logged.take intact) } :=
    ⟨recoverable.sound, _, [], snapshot, log, torn_nil⟩
  have reopened : ∀ left : Disk, Recoverable np npz config dim history left →
      (Program.call none .openLog (.done (some state)) :
        Program FileOp (Option (DurableShard G)) Error).Covers dataDirectory
          (Recoverable np npz config dim history) left := by
    intro left holds
    refine ⟨holds, ?_, holds.sound, holds.files⟩
    intro other torn
    cases torn
  rw [program, finishOpening]
  split
  · refine ⟨recoverable, ?_, reopened _ cut⟩
    intro other torn
    cases torn
  · exact reopened disk recoverable

/-! ## The steps shared by checkpoint and installation -/

/-- Until the rename only the temporary file differs; after it the snapshot is
the new one. -/
theorem replaceSnapshot_covers {good : Disk → Prop} {state : DurableShard G} {data : Bytes}
    {next : Program FileOp (DurableShard G) Error} {disk : Disk}
    (before : ∀ temporary, good { disk with temporary })
    (rest : next.Covers dataDirectory good { disk with snapshot := some data, temporary := none }) :
    (DurableShard.replaceSnapshot state data next).Covers dataDirectory good disk := by
  have after : good { disk with snapshot := some data, temporary := none } :=
    Covers.here dataDirectory rest
  refine ⟨before disk.temporary, ?_, before (some data), ?_, after, ?_, rest⟩
  · intro left torn
    cases torn with
    | writeTemporary _ part => exact before (some part)
  · intro left torn
    cases torn
  · intro left torn
    cases torn

theorem resetLog_covers {good : Disk → Prop} {state : DurableShard G}
    {next : Program FileOp (DurableShard G) Error} {disk : Disk} (flushed : disk.unwritten = [])
    (before : ∀ log, log.getD [] = disk.logged → good { disk with log })
    (rest : next.Covers dataDirectory good { disk with log := some [], unwritten := [] }) :
    (DurableShard.resetLog state next).Covers dataDirectory good disk := by
  have after : good { disk with log := some [], unwritten := [] } :=
    Covers.here dataDirectory rest
  refine ⟨before disk.log rfl, ?_, after, ?_, rest⟩
  · intro left torn
    cases torn with
    | truncateLog part _ written =>
        have nothing : part = [] := by
          rw [flushed] at written
          exact List.prefix_nil.mp written
        rw [nothing, List.append_nil]
        exact before (some disk.logged) rfl
  · intro left torn
    cases torn

/-! ## Checkpoints -/

/-- The archive a running shard saves. -/
theorem Running.saves {config : Config} {dim : Nat} {history : History} {state : DurableShard G}
    {disk : Disk} (running : Running np npz config dim history state disk) :
    ∃ archive, snapshotArchive state.shard state.lastSeq = .ok archive ∧
      SnapshotHolds np npz config.params history history.length (some (npz.savez archive)) := by
  have storable := (running.sound.storable np running.contents).2
  obtain ⟨archive, saved, _⟩ := loadArchive_snapshotArchive np none state.lastSeq storable
  refine ⟨archive, saved, SnapshotHolds.whole np npz running.contents ?_⟩
  rw [← running.lastSeq]
  exact saved

/-- A checkpoint keeps the history and empties the log. -/
theorem checkpoint_run {config : Config} {dim : Nat} {history : History} {state : DurableShard G}
    {disk : Disk} (running : Running np npz config dim history state disk) :
    ∃ after, (DurableShard.checkpoint npz state).run dataDirectory disk =
        ⟨after, { state with snapshotSeq := state.lastSeq, vectorsSinceSnapshot := 0 }, none⟩ ∧
      Running np npz config dim history
        { state with snapshotSeq := state.lastSeq, vectorsSinceSnapshot := 0 } after := by
  obtain ⟨archive, saved, snapshot⟩ := running.saves
  refine ⟨⟨some (npz.savez archive), none, some [], []⟩, ?_, running.sound, running.config_eq,
    running.contents, running.lastSeq, ⟨history.length, ?_, snapshot⟩, ?_, rfl⟩
  · simp only [DurableShard.checkpoint, saved]
    rfl
  · exact Nat.le_of_eq running.lastSeq
  · simp only [running.lastSeq]
    exact LogHolds.emptied history

theorem checkpoint_covers {config : Config} {dim : Nat} {history : History} {state : DurableShard G}
    {disk : Disk} (running : Running np npz config dim history state disk) :
    (DurableShard.checkpoint npz state).Covers dataDirectory
      (Recoverable np npz config dim history) disk := by
  obtain ⟨archive, saved, snapshot⟩ := running.saves
  have recoverable := running.recoverable
  simp only [DurableShard.checkpoint, saved]
  apply replaceSnapshot_covers
  · intro temporary
    exact ⟨recoverable.sound, recoverable.files⟩
  · refine resetLog_covers ?_ ?_ ?_
    · exact running.flushed
    · intro log same
      refine ⟨running.sound, history.length, [], snapshot, ?_, torn_nil⟩
      have bytes : LogHolds history history.length (log.getD []) [] := by
        rw [same]
        exact running.log.advance running.inside
      exact bytes
    · exact ⟨running.sound, history.length, [], snapshot, LogHolds.emptied history, torn_nil⟩

/-! ## Writes -/

/-- A write a shard with the given history accepts. -/
structure Accepted (dim : Nat) (history : History) (state : DurableShard G) (write : Write)
    (after : Contents Float32Bits G) : Prop where
  uniform : ∀ row ∈ write.vectors.rows, row.length = dim
  applied : state.shard.contents.apply np write = some after
  short : history.length + 1 < 2 ^ 64

theorem Accepted.sound {config : Config} {dim : Nat} {history : History} {state : DurableShard G}
    {disk : Disk} {write : Write} {after : Contents Float32Bits G}
    (running : Running np npz config dim history state disk)
    (accepted : Accepted np dim history state write after) :
    (history.push write).Sound np dim ∧ (history.push write).replay np = some after := by
  have reached : (history.push write).replay np = some after := by
    rw [History.replay_push, running.contents]
    exact accepted.applied
  refine ⟨⟨running.sound.positive, ?_, ?_, ?_⟩, reached⟩
  · intro other member
    rcases List.mem_append.mp member with old | new
    · exact running.sound.uniform other old
    · rw [List.mem_singleton.mp new]
      exact accepted.uniform
  · rw [reached]
    rfl
  · rw [History.length_push]
    exact accepted.short

/-- A write that continues the history as a sound one is accepted. -/
theorem Running.accepts {config : Config} {dim : Nat} {history : History} {state : DurableShard G}
    {disk : Disk} {write : Write} (running : Running np npz config dim history state disk)
    (sound : (history.push write).Sound np dim) : ∃ after, Accepted np dim history state write after := by
  have whole := sound.applied
  rw [History.replay_push, running.contents] at whole
  rcases Option.isSome_iff_exists.mp whole with ⟨after, applied⟩
  refine ⟨after, ?_, applied, ?_⟩
  · exact sound.uniform write (List.mem_append_right _ List.mem_cons_self)
  · have short := sound.short
    rwa [History.length_push] at short

/-- The state of the process once a write is applied, before a snapshot that
may be due. -/
def wrote (state : DurableShard G) (write : Write) (after : Contents Float32Bits G) : DurableShard G :=
  { state with
    shard := state.shard.withContents after
    lastSeq := state.lastSeq + 1
    vectorsSinceSnapshot := state.vectorsSinceSnapshot + write.globalIds.length }

/-- What follows the record of a write: the write is applied, and a snapshot is
taken when one is due. -/
def finishWrite (state : DurableShard G) (write : Write) (after : Contents Float32Bits G) :
    Program FileOp (DurableShard G) Error :=
  if (wrote state write after).due then DurableShard.checkpoint npz (wrote state write after)
  else .done (wrote state write after)

/-- A write in order starts by logging its record. -/
theorem addBatch_logs {state : DurableShard G} {write : Write} {payloads : List String}
    {seq : Option Nat} (given : write.Given payloads)
    (next : seq = none ∨ seq = some (state.lastSeq + 1)) (short : state.lastSeq + 1 < 2 ^ 64) :
    DurableShard.addBatch np npz state write.globalIds write.vectors payloads seq =
      DurableShard.appendRecord state (FramedLog.frame crc32 (write.body (state.lastSeq + 1)))
        (DurableShard.applyLogged np npz state write.globalIds write.vectors payloads) := by
  rw [addBatch_append np npz state write.globalIds write.vectors payloads next, WriteAheadLog.append,
    encodeRecord_given given short]
  dsimp only [DurableShard.appendRecord]
  split
  · simp only [within, id]
  · simp only [within, id]

/-- The program of a write that is accepted. -/
theorem addBatch_eq {config : Config} {dim : Nat} {history : History} {state : DurableShard G}
    {disk : Disk} {write : Write} {after : Contents Float32Bits G} {payloads : List String}
    {seq : Option Nat} (running : Running np npz config dim history state disk)
    (accepted : Accepted np dim history state write after) (given : write.Given payloads)
    (next : seq = none ∨ seq = some (state.lastSeq + 1)) :
    DurableShard.addBatch np npz state write.globalIds write.vectors payloads seq =
      DurableShard.appendRecord state
        (FramedLog.frame crc32 (write.body (history.length + 1)))
        (finishWrite npz state write after) := by
  have short : state.lastSeq + 1 < 2 ^ 64 := by
    rw [running.lastSeq]
    exact accepted.short
  rw [addBatch_logs np npz given next short, running.lastSeq]
  simp only [DurableShard.applyLogged, Shard.addBatch_apply np given accepted.applied]
  rfl

/-- The record reaching the file is the moment the write takes effect. -/
theorem running_wrote {config : Config} {dim : Nat} {history : History} {state : DurableShard G}
    {disk : Disk} {write : Write} {after : Contents Float32Bits G}
    (running : Running np npz config dim history state disk)
    (accepted : Accepted np dim history state write after) :
    Running np npz config dim (history.push write) (wrote state write after)
      (FileOp.perform (.appendLog (FramedLog.frame crc32 (write.body (history.length + 1)))) disk)
    where
  sound := (Accepted.sound np npz running accepted).1
  config_eq := running.config_eq
  contents := (Accepted.sound np npz running accepted).2
  lastSeq := by
    rw [History.length_push, ← running.lastSeq]
    rfl
  snapshot := by
    obtain ⟨seq, order, snapshot⟩ := running.snapshot
    exact ⟨seq, order, snapshot.push np npz write⟩
  log := by
    have bytes : (FileOp.perform
        (.appendLog (FramedLog.frame crc32 (write.body (history.length + 1)))) disk).logged =
          disk.logged ++ FramedLog.frame crc32 (write.body (history.length + 1)) := by
      simp only [FileOp.perform, Disk.logged, running.flushed, List.nil_append, Option.getD_some]
    rw [bytes]
    exact running.log.push write running.inside
  flushed := rfl

theorem finishWrite_run {config : Config} {dim : Nat} {history : History} {state : DurableShard G}
    {disk : Disk} {write : Write} {after : Contents Float32Bits G}
    (running : Running np npz config dim history (wrote state write after) disk) :
    ∃ (reached : Disk) (kept : DurableShard G),
      (finishWrite npz state write after).run dataDirectory disk = ⟨reached, kept, none⟩ ∧
      Running np npz config dim history kept reached := by
  unfold finishWrite
  split
  · obtain ⟨reached, complete, kept⟩ := checkpoint_run np npz running
    exact ⟨reached, _, complete, kept⟩
  · exact ⟨disk, _, rfl, running⟩

theorem finishWrite_covers {config : Config} {dim : Nat} {history : History}
    {state : DurableShard G} {disk : Disk} {write : Write} {after : Contents Float32Bits G}
    (running : Running np npz config dim history (wrote state write after) disk) :
    (finishWrite npz state write after).Covers dataDirectory
      (Recoverable np npz config dim history) disk := by
  unfold finishWrite
  split
  · exact checkpoint_covers np npz running
  · exact running.recoverable

theorem addBatch_run {config : Config} {dim : Nat} {history : History} {state : DurableShard G}
    {disk : Disk} {write : Write} {after : Contents Float32Bits G} {payloads : List String}
    {seq : Option Nat} (running : Running np npz config dim history state disk)
    (accepted : Accepted np dim history state write after) (given : write.Given payloads)
    (next : seq = none ∨ seq = some (state.lastSeq + 1)) :
    ∃ (reached : Disk) (kept : DurableShard G),
      (DurableShard.addBatch np npz state write.globalIds write.vectors payloads seq).run
        dataDirectory disk = ⟨reached, kept, none⟩ ∧
      Running np npz config dim (history.push write) kept reached := by
  obtain ⟨reached, kept, complete, holds⟩ :=
    finishWrite_run np npz (running_wrote np npz running accepted)
  refine ⟨reached, kept, ?_, holds⟩
  rw [addBatch_eq np npz running accepted given next, DurableShard.appendRecord]
  split
  · exact complete
  · exact complete

/-- A call to `add_batch` that succeeds is a write the history accepts. -/
theorem accepted_of_success {config : Config} {dim : Nat} {history : History}
    {state : DurableShard G} {disk : Disk} {write : Write} {payloads : List String}
    {seq : Option Nat} (running : Running np npz config dim history state disk)
    (given : write.Given payloads) (uniform : ∀ row ∈ write.vectors.rows, row.length = dim)
    (success : ((DurableShard.addBatch np npz state write.globalIds write.vectors payloads seq).run
      dataDirectory disk).error = none) :
    (seq = none ∨ seq = some (state.lastSeq + 1)) ∧
      ∃ after, Accepted np dim history state write after := by
  unfold DurableShard.addBatch at success
  by_cases outOfOrder : seq.any (· != state.lastSeq + 1) = true
  · simp only [outOfOrder, if_true, Program.run] at success
    cases success
  · have next : seq = none ∨ seq = some (state.lastSeq + 1) := by
      cases seq with
      | none => exact Or.inl rfl
      | some number =>
          simp only [Option.any_some, bne_iff_ne, ne_eq, not_not] at outOfOrder
          exact Or.inr (congrArg some outOfOrder)
    refine ⟨next, ?_⟩
    simp only [outOfOrder, Bool.false_eq_true, if_false] at success
    cases encoded : encodeRecord (state.lastSeq + 1) write.globalIds write.vectors payloads with
    | error error =>
        rw [encoded] at success
        cases success
    | ok record =>
        have short := (encodeRecord_ok encoded).2.1.1
        rw [running.lastSeq] at short
        cases applied : state.shard.contents.apply np write with
        | some after => exact ⟨after, uniform, applied, short⟩
        | none =>
            obtain ⟨error, left, raised⟩ := Shard.addBatch_raises np given applied
            simp only [encoded, DurableShard.appendRecord, DurableShard.applyLogged, raised]
              at success
            split at success <;> cases success

/-- Part of a record is a torn tail; a complete record is the write. -/
theorem torn_append {config : Config} {dim : Nat} {history : History} {state : DurableShard G}
    {disk : Disk} {write : Write} {after : Contents Float32Bits G} {part : Bytes}
    (running : Running np npz config dim history state disk)
    (accepted : Accepted np dim history state write after)
    (written : part <+: disk.unwritten ++
      FramedLog.frame crc32 (write.body (history.length + 1))) :
    Recoverable np npz config dim history { disk with log := some (disk.logged ++ part) } ∨
      Recoverable np npz config dim (history.push write)
        { disk with log := some (disk.logged ++ part) } := by
  rw [running.flushed, List.nil_append] at written
  rcases torn_or_whole (history.length + 1, write) written with torn | whole
  · obtain ⟨seq, order, snapshot⟩ := running.snapshot
    exact Or.inl ⟨running.sound, seq, part, snapshot, (running.log.advance order).tail part, torn⟩
  · have wrote := (running_wrote np npz running accepted).recoverable
    refine Or.inr (Recoverable.congr np npz ?_ ?_ wrote)
    · rfl
    · rw [whole]
      simp only [FileOp.perform, Disk.logged, running.flushed, List.nil_append, Option.getD_some,
        Entry.body]

/-- A crash inside a write leaves the write fully present or absent. -/
theorem addBatch_covers {config : Config} {dim : Nat} {history : History} {state : DurableShard G}
    {disk : Disk} {write : Write} {after : Contents Float32Bits G} {payloads : List String}
    {seq : Option Nat} (running : Running np npz config dim history state disk)
    (accepted : Accepted np dim history state write after) (given : write.Given payloads)
    (next : seq = none ∨ seq = some (state.lastSeq + 1)) :
    (DurableShard.addBatch np npz state write.globalIds write.vectors payloads seq).Covers
      dataDirectory (fun left => Recoverable np npz config dim history left ∨
        Recoverable np npz config dim (history.push write) left) disk := by
  have wrote := running_wrote np npz running accepted
  have behind : (finishWrite npz state write after).Covers dataDirectory
      (fun left => Recoverable np npz config dim history left ∨
        Recoverable np npz config dim (history.push write) left) _ :=
    Covers.imp dataDirectory (fun _ holds => Or.inr holds) (finishWrite_covers np npz wrote)
  rw [addBatch_eq np npz running accepted given next, DurableShard.appendRecord]
  refine ⟨Or.inl running.recoverable, ?_, ?_⟩
  · intro left torn
    cases torn with
    | appendLog _ part _ written => exact torn_append np npz running accepted written
  · split
    · refine ⟨Or.inr wrote.recoverable, ?_, behind⟩
      intro left torn
      cases torn
    · exact behind

theorem addBatch_ensures {config : Config} {dim : Nat} {history : History} {state : DurableShard G}
    {disk : Disk} {write : Write} {after : Contents Float32Bits G} {payloads : List String}
    {seq : Option Nat} (running : Running np npz config dim history state disk)
    (accepted : Accepted np dim history state write after) (given : write.Given payloads)
    (next : seq = none ∨ seq = some (state.lastSeq + 1)) :
    Ensures dataDirectory
      (fun left => Recoverable np npz config dim history left ∨
        Recoverable np npz config dim (history.push write) left)
      (fun outcome => outcome.error = none ∧
        Running np npz config dim (history.push write) outcome.memory outcome.world)
      (DurableShard.addBatch np npz state write.globalIds write.vectors payloads seq) disk := by
  rcases addBatch_run np npz running accepted given next with ⟨reached, kept, complete, holds⟩
  constructor
  · exact addBatch_covers np npz running accepted given next
  · rw [complete]
    exact ⟨rfl, holds⟩

/-- A write can only move the snapshot forward. -/
theorem addBatch_snapshotSeq {config : Config} {dim : Nat} {history : History} {state kept : DurableShard G}
    {disk reached : Disk} {write : Write} {after : Contents Float32Bits G} {payloads : List String}
    {seq : Option Nat} (running : Running np npz config dim history state disk)
    (accepted : Accepted np dim history state write after) (given : write.Given payloads)
    (next : seq = none ∨ seq = some (state.lastSeq + 1))
    (complete : (DurableShard.addBatch np npz state write.globalIds write.vectors payloads seq).run
      dataDirectory disk = ⟨reached, kept, none⟩) : state.snapshotSeq ≤ kept.snapshotSeq := by
  have finished : (finishWrite npz state write after).run dataDirectory
      (FileOp.perform (.appendLog (FramedLog.frame crc32 (write.body (history.length + 1)))) disk) =
        ⟨reached, kept, none⟩ := by
    rw [addBatch_eq np npz running accepted given next, DurableShard.appendRecord] at complete
    split at complete
    · exact complete
    · exact complete
  unfold finishWrite at finished
  split at finished
  · rcases checkpoint_run np npz (running_wrote np npz running accepted) with ⟨left, done, holds⟩
    rw [done] at finished
    cases finished
    have inside := running.inside
    rw [← running.lastSeq] at inside
    exact Nat.le_succ_of_le inside
  · cases finished
    exact Nat.le_refl _

/-! ## Installing a peer's snapshot -/

/-- A snapshot file some shard with the given history wrote. -/
def PeerSnapshot (dim : Nat) (peer : History) (data : Bytes) : Prop :=
  peer.Sound np dim ∧ ∃ (shard : Shard Float32Bits G) (archive : Archive G),
    peer.replay np = some shard.contents ∧ snapshotArchive shard peer.length = .ok archive ∧
    data = npz.savez archive

theorem PeerSnapshot.holds {dim : Nat} {peer : History} {data : Bytes} (params : HnswParams)
    (snapshot : PeerSnapshot np npz dim peer data) :
    SnapshotHolds np npz params peer peer.length (some data) := by
  obtain ⟨sound, shard, archive, reached, written, bytes⟩ := snapshot
  rw [bytes]
  exact SnapshotHolds.whole np npz reached written

theorem PeerSnapshot.loads {dim : Nat} {peer : History} {data : Bytes} (efSearch : Option Nat)
    (snapshot : PeerSnapshot np npz dim peer data) :
    ∃ shard, loadSnapshot np npz efSearch data = .ok (shard, peer.length) ∧
      peer.replay np = some shard.contents := by
  obtain ⟨sound, shard, archive, reached, written, bytes⟩ := snapshot
  have storable := (sound.storable np reached).2
  obtain ⟨same, saved, loaded⟩ := loadArchive_snapshotArchive np efSearch peer.length storable
  have equal : same = archive := Except.ok.inj (saved.symm.trans written)
  subst equal
  refine ⟨reloaded efSearch shard, ?_, reached⟩
  rw [loadSnapshot, bytes, npz.load_savez]
  exact loaded

theorem install_run {config : Config} {own dim : Nat} {history peer : History} {state : DurableShard G}
    {disk : Disk} {data : Bytes} (running : Running np npz config own history state disk)
    (snapshot : PeerSnapshot np npz dim peer data) :
    ∃ (reached : Disk) (kept : DurableShard G),
      (DurableShard.installSnapshot np npz state data).run dataDirectory disk =
        ⟨reached, kept, none⟩ ∧
      Running np npz config dim peer kept reached := by
  obtain ⟨shard, loads, contents⟩ := snapshot.loads np npz (some state.shard.index.efSearch)
  refine ⟨⟨some data, none, some [], []⟩,
    { state with shard, lastSeq := peer.length, snapshotSeq := peer.length,
                 vectorsSinceSnapshot := 0 }, ?_, snapshot.1, running.config_eq, contents, rfl,
    ⟨peer.length, Nat.le_refl _, snapshot.holds np npz config.params⟩, LogHolds.emptied peer, rfl⟩
  simp only [DurableShard.installSnapshot, loads]
  rfl

/-- A crash inside an installation leaves the old history or the peer's. -/
theorem install_covers {config : Config} {own dim : Nat} {history peer : History} {state : DurableShard G}
    {disk : Disk} {data : Bytes} (running : Running np npz config own history state disk)
    (snapshot : PeerSnapshot np npz dim peer data) (order : history.length ≤ peer.length) :
    (DurableShard.installSnapshot np npz state data).Covers dataDirectory
      (fun left => Recoverable np npz config own history left ∨
        Recoverable np npz config dim peer left) disk := by
  obtain ⟨shard, loads, contents⟩ := snapshot.loads np npz (some state.shard.index.efSearch)
  have holds := snapshot.holds np npz config.params
  simp only [DurableShard.installSnapshot, loads]
  apply replaceSnapshot_covers
  · intro temporary
    have recoverable := running.recoverable
    exact Or.inl ⟨recoverable.sound, recoverable.files⟩
  · refine resetLog_covers ?_ ?_ ?_
    · exact running.flushed
    · intro log same
      have bytes : LogHolds peer peer.length (log.getD []) [] := by
        rw [same]
        exact running.log.replaced running.inside order
      exact Or.inr ⟨snapshot.1, peer.length, [], holds, bytes, torn_nil⟩
    · exact Or.inr ⟨snapshot.1, peer.length, [], holds, LogHolds.emptied peer, torn_nil⟩

theorem install_ensures {config : Config} {own dim : Nat} {history peer : History} {state : DurableShard G}
    {disk : Disk} {data : Bytes} (running : Running np npz config own history state disk)
    (snapshot : PeerSnapshot np npz dim peer data) (order : history.length ≤ peer.length) :
    Ensures dataDirectory
      (fun left => Recoverable np npz config own history left ∨
        Recoverable np npz config dim peer left)
      (fun outcome => outcome.error = none ∧
        Running np npz config dim peer outcome.memory outcome.world)
      (DurableShard.installSnapshot np npz state data) disk := by
  rcases install_run np npz running snapshot with ⟨reached, kept, complete, holds⟩
  constructor
  · exact install_covers np npz running snapshot order
  · rw [complete]
    exact ⟨rfl, holds⟩

end VectorSearch
