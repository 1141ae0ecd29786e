import VectorSearch.Storage.Medium
import VectorSearch.Storage.Runs

namespace VectorSearch

/-!
# When the operating system stops

A durable shard with fsync on, on a medium that keeps what is covered by an
fsync and may lose the rest.  Every file is synced before anything relies on
its contents, and the directory is synced behind every rename, but nothing
syncs the directory when `wal.log` is created.  Acknowledged writes survive from
the first snapshot on.
-/

open Program

variable {D G : Type} [LinearOrder D] (np : Numpy Float32Bits D G) (npz : Npz G)

namespace Medium

open StoredFile

/-- Whatever is left of the files is good. -/
def Keeps (good : Disk → Prop) (medium : Medium) : Prop := ∀ disk, medium.Left disk → good disk

/-- A medium between two calls: only the entry of an empty log may be lost. -/
structure Settled (medium : Medium) : Prop where
  snapshot : medium.snapshot = medium.disk.snapshot.map covered
  entered : medium.enteredSnapshot = medium.snapshot
  log : medium.log = medium.disk.log.map covered
  logEntered : medium.enteredLog = true ∨ medium.disk.logged = []

theorem Settled.isLog {medium : Medium} (settled : medium.Settled) (opened : medium.log.isSome = true) :
    medium.log = some (covered medium.disk.logged) := by
  have same := settled.log
  rcases Option.isSome_iff_exists.mp opened with ⟨file, isFile⟩
  have isContent : medium.disk.log = some file.content := congrArg (Option.map StoredFile.content) isFile
  rw [same, Disk.logged, isContent]
  rfl

theorem Settled.logFile {medium : Medium} (settled : medium.Settled) :
    medium.logFile = covered medium.disk.logged := by
  have same := settled.log
  rcases medium with ⟨snapshot, temporary, log, unwritten, enteredSnapshot, enteredLog⟩
  cases log with
  | none => rfl
  | some file => exact Option.some.inj same

/-- Another log that is covered. -/
theorem Settled.withLog {medium : Medium} (settled : medium.Settled) {bytes : Bytes}
    (entered : medium.enteredLog = true ∨ bytes = []) (unwritten : Bytes) :
    Settled { medium with log := some (covered bytes), unwritten } :=
  ⟨settled.snapshot, settled.entered, rfl, entered⟩

/-- Between two calls of an open shard. -/
structure Opened (medium : Medium) : Prop where
  settled : medium.Settled
  log : medium.log.isSome = true

/-- What is left of a log whose entry is covered. -/
theorem left_entered {log : Option StoredFile} {file : StoredFile} {entered : Bool} (isLog : log = some file)
    (isEntered : entered = true) {found : Option Bytes} (left : LeftAt log found ∨ entered =
      false ∧ found = none) :
    file.Left (found.getD []) := by
  rcases left with here | ⟨notEntered, _⟩
  · rw [isLog] at here
    rcases here with ⟨bytes, isBytes, kept⟩
    rw [isBytes]
    exact kept
  · rw [isEntered] at notEntered
    cases notEntered

theorem left_log {log : Option StoredFile} {content : Option Bytes} {entered : Bool}
    (isLog : log = content.map covered) (isEntered : entered = true ∨ content.getD [] = [])
    {found : Option Bytes} (left : LeftAt log found ∨ entered = false ∧ found = none) :
    found.getD [] = content.getD [] := by
  rcases left with here | ⟨notEntered, gone⟩
  · rw [isLog] at here
    rw [leftAt_covered here]
  · rcases isEntered with isEntered | nothing
    · rw [isEntered] at notEntered
      cases notEntered
    · rw [gone, nothing]
      rfl

theorem left_logged {log : Option StoredFile} {bytes : Bytes} {entered : Bool}
    (isLog : log = some (covered bytes)) (isEntered : entered = true) {found : Option Bytes}
    (left : LeftAt log found ∨ entered = false ∧ found = none) : found.getD [] = bytes := by
  have content : log = (some bytes).map covered := isLog
  exact left_log content (Or.inl isEntered) left

theorem left_snapshot {snapshot entered : Option StoredFile} {content : Option Bytes}
    (isSnapshot : snapshot = content.map covered) (same : entered = snapshot) {found : Option Bytes}
    (left : LeftAt snapshot found ∨ LeftAt entered found) : found = content := by
  rw [same, or_self, isSnapshot] at left
  exact leftAt_covered left

/-- Nothing of a settled medium is lost. -/
theorem Settled.keeps {config : Config} {dim : Nat} {history : History} {medium : Medium}
    (settled : medium.Settled) (recoverable : Recoverable np npz config dim history medium.disk) :
    medium.Keeps (Recoverable np npz config dim history) := by
  intro disk left
  apply Recoverable.congr np npz _ _ recoverable
  · exact left_snapshot settled.snapshot settled.entered left.snapshot
  · exact left_log settled.log settled.logEntered left.log

/-- What was found after a crash is settled. -/
theorem settled_settled (disk : Disk) : (settled disk).Settled := by
  rcases disk with ⟨snapshot, temporary, log, unwritten⟩
  refine ⟨?_, rfl, ?_, ?_⟩
  · cases snapshot <;> rfl
  · cases log <;> rfl
  · cases log with
    | none => exact Or.inr rfl
    | some log => exact Or.inl rfl

theorem disk_settled (disk : Disk) : (settled disk).disk = disk.abandoned := by
  rcases disk with ⟨snapshot, temporary, log, unwritten⟩
  cases snapshot <;> cases temporary <;> cases log <;> rfl

end Medium

open Medium StoredFile

/-! ## Replacing the snapshot, emptying the log -/

/-- The medium once a snapshot is in place under its name. -/
def Medium.replaced (medium : Medium) (data : Bytes) : Medium :=
  { medium with
    snapshot := some (covered data)
    temporary := none
    enteredSnapshot := some (covered data)
    enteredLog := medium.log.isSome }

theorem replaceSnapshot_keeps {good : Disk → Prop} {state : DurableShard G} {data : Bytes}
    {next : Program FileOp (DurableShard G) Error} {medium : Medium} (old : medium.Keeps good)
    (new : ∀ disk, (LeftAt medium.log disk.log ∨ medium.enteredLog = false ∧ disk.log = none) →
      disk.snapshot = some data → good disk)
    (rest : next.Covers durableDirectory (Keeps good) (medium.replaced data)) :
    (DurableShard.replaceSnapshot state data next).Covers durableDirectory (Keeps good) medium := by
  have temporary : ∀ temporary, Keeps good { medium with temporary } :=
    fun temporary disk left => old disk ⟨left.snapshot, left.log, left.unwritten⟩
  refine ⟨old, ?_, temporary _, ?_, ?_, ?_, rest⟩
  · intro left torn
    cases torn
    exact temporary _
  · intro left torn
    cases torn
  · rintro disk ⟨snapshot, log, unwritten⟩
    rcases snapshot with here | there
    · apply new disk log
      rcases here with ⟨bytes, isBytes, kept⟩
      rw [isBytes, left_covered kept]
    · exact old disk ⟨Or.inr there, log, unwritten⟩
  · intro left torn
    cases torn

/-- The medium once the log is emptied. -/
def Medium.emptied (medium : Medium) : Medium := { medium with log := some (covered []), unwritten := [] }

theorem resetLog_keeps {good : Disk → Prop} {state : DurableShard G}
    {next : Program FileOp (DurableShard G) Error}
    {medium : Medium} {snapshot : Option Bytes} {log : Bytes} (flushed : medium.unwritten = [])
    (isSnapshot : medium.snapshot = snapshot.map covered) (entered : medium.enteredSnapshot = medium.snapshot)
    (isLog : medium.log = some (covered log)) (logEntered : medium.enteredLog = true)
    (keeps : ∀ disk, disk.snapshot = snapshot → disk.logged = log ∨ disk.logged = [] → good disk)
    (rest : next.Covers durableDirectory (Keeps good) medium.emptied) :
    (DurableShard.resetLog state next).Covers durableDirectory (Keeps good) medium := by
  have whole : Keeps good medium := fun disk left =>
    keeps disk (left_snapshot isSnapshot entered left.snapshot)
      (Or.inl (left_logged isLog logEntered left.log))
  have isFile : medium.logFile = covered log := by
    rw [logFile, isLog]
    rfl
  refine ⟨whole, ?_, ?_, ?_, ?_⟩
  · intro left torn
    cases torn with
    | truncateLog part _ written =>
        have nothing : part = [] := by
          rw [flushed] at written
          exact List.prefix_nil.mp written
        have same : { medium.logFile with content := medium.logFile.content ++ part } = covered log := by
          rw [nothing, List.append_nil, isFile]
        rw [same, ← isLog]
        exact whole
  · intro disk left
    apply keeps disk (left_snapshot isSnapshot entered left.snapshot)
    have kept := left_entered rfl logEntered left.log
    rw [isFile] at kept
    unfold Disk.logged
    generalize disk.log.getD [] = bytes at kept
    cases kept with
    | synced => exact Or.inl rfl
    | written => exact Or.inr rfl
    | part front back => exact Or.inr (List.prefix_nil.mp back)
  · intro left torn
    cases torn
  · exact rest

theorem opened_emptied (medium : Medium) (data : Bytes) (opened : medium.log.isSome = true) :
    (medium.replaced data).emptied.Opened :=
  ⟨⟨rfl, rfl, rfl, Or.inl opened⟩, rfl⟩

/-- Behind the rename the log is as it was, or gone where its entry was never covered. -/
theorem left_or_gone {log : Option StoredFile} {bytes : Bytes} {entered : Bool}
    (isLog : log = some (covered bytes))
    {found : Option Bytes} (left : LeftAt log found ∨ entered = false ∧ found = none) :
    found.getD [] = bytes ∨ found.getD [] = [] := by
  rcases left with here | ⟨_, gone⟩
  · exact Or.inl (left_logged isLog rfl (Or.inl here))
  · rw [gone]
    exact Or.inr rfl

/-- A snapshot that is put in place, with what of the log may be beside it. -/
theorem replace_keeps {good : Disk → Prop} {state : DurableShard G} {data : Bytes}
    {next : Program FileOp (DurableShard G) Error} {medium : Medium} (old : medium.Keeps good)
    (flushed : medium.unwritten = []) (isLog : medium.log = some (covered medium.disk.logged))
    (new : ∀ disk, disk.snapshot = some data → disk.logged = medium.disk.logged ∨ disk.logged = [] → good disk)
    (rest : (medium.replaced data).emptied.Keeps good →
      next.Covers durableDirectory (Keeps good) (medium.replaced data).emptied) :
    (DurableShard.replaceSnapshot state data (DurableShard.resetLog state next)).Covers durableDirectory
      (Keeps good) medium := by
  have isSnapshot : (medium.replaced data).snapshot = (some data).map covered := rfl
  have entered : (medium.replaced data).enteredLog = true := by
    change medium.log.isSome = true
    rw [isLog]
    rfl
  apply replaceSnapshot_keeps old
  · intro disk left inPlace
    exact new disk inPlace (left_or_gone isLog left)
  · refine resetLog_keeps (show (medium.replaced data).unwritten = [] from flushed) isSnapshot rfl isLog
      entered new
      (rest ?_)
    intro disk left
    exact new disk (left_snapshot isSnapshot rfl left.snapshot) (Or.inr (left_logged rfl entered left.log))

theorem Running.checkpoint_keeps {config : Config} {dim : Nat} {history : History} {state : DurableShard G}
    {medium : Medium} {good : Disk → Prop} (running : Running np npz config dim history state medium.disk)
    (isLog : medium.log = some (covered medium.disk.logged)) (old : medium.Keeps good)
    (recovers : ∀ disk, Recoverable np npz config dim history disk → good disk) :
    (DurableShard.checkpoint npz state).Covers durableDirectory (Keeps good) medium := by
  rcases running.saves with ⟨archive, saved, snapshot⟩
  unfold DurableShard.checkpoint
  rw [saved]
  refine replace_keeps old running.flushed isLog ?_ fun ended => ended
  intro disk isSnapshot isLogged
  refine recovers disk ⟨running.sound, history.length, [], isSnapshot ▸ snapshot, ?_, torn_nil⟩
  rcases isLogged with same | nothing
  · rw [same]
    exact running.log.advance running.inside
  · rw [nothing]
    exact LogHolds.emptied history

theorem Running.checkpoint_opened {config : Config} {dim : Nat} {history : History} {state : DurableShard G}
    {medium : Medium} (running : Running np npz config dim history state medium.disk)
    (opened : medium.log.isSome = true) :
    ((DurableShard.checkpoint npz state).run durableDirectory medium).world.Opened := by
  rcases running.saves with ⟨archive, saved, _⟩
  unfold DurableShard.checkpoint
  rw [saved]
  exact opened_emptied medium (npz.savez archive) opened

/-! ## Writes -/

/-- The medium once a record is written and synced. -/
def Medium.appended (medium : Medium) (record : Bytes) : Medium :=
  { medium with log := some (covered (medium.disk.logged ++ record)), unwritten := [] }

section Writes

variable {np npz} {config : Config} {dim : Nat} {history : History} {state : DurableShard G} {medium : Medium}
  {write : Write} {after : Contents Float32Bits G}

theorem Medium.Settled.syncs (settled : medium.Settled) (flushed : medium.unwritten = []) (record : Bytes) :
    durableDirectory.perform .syncLog (durableDirectory.perform (.appendLog record) medium) =
      medium.appended record := by
  have isFile := settled.logFile
  change { medium with
    log := some (covered (medium.logFile.content ++ (medium.unwritten ++ record)))
    unwritten := [] } = medium.appended record
  rw [isFile, flushed]
  rfl

theorem appended_disk (flushed : medium.unwritten = []) (record : Bytes) :
    (medium.appended record).disk = FileOp.perform (.appendLog record) medium.disk := by
  have unwritten : medium.disk.unwritten = [] := flushed
  change _ = { medium.disk with log := some (medium.disk.logged ++ (medium.disk.unwritten ++ record)), unwritten := [] }
  rw [unwritten]
  rfl

/-- While a record is not synced, any part of it may be left. -/
theorem Medium.Settled.tears (settled : medium.Settled)
    (running : Running np npz config dim history state medium.disk)
    (accepted : Accepted np dim history state write after) {part : Bytes} {unwritten : Bytes}
    (written : part <+: FramedLog.frame crc32 (write.body (history.length + 1))) :
    Keeps (fun disk => Recoverable np npz config dim history disk ∨
        Recoverable np npz config dim (history.push write) disk)
      { medium with log := some ⟨medium.disk.logged ++ part, medium.disk.logged⟩, unwritten } := by
  intro disk left
  have same := left_snapshot settled.snapshot settled.entered left.snapshot
  have logged : ∃ front, front <+: part ∧ disk.logged = medium.disk.logged ++ front := by
    unfold Disk.logged
    rcases left.log with ⟨bytes, isBytes, kept⟩ | ⟨notEntered, gone⟩
    · rw [isBytes, Option.getD_some]
      cases kept with
      | synced => exact ⟨[], List.nil_prefix, (List.append_nil _).symm⟩
      | written => exact ⟨part, List.prefix_rfl, rfl⟩
      | part front back =>
          rcases front with ⟨rest, rfl⟩
          exact ⟨rest, (List.prefix_append_right_inj _).mp back, rfl⟩
    · rcases settled.logEntered with entered | nothing
      · exact absurd (entered.symm.trans notEntered) Bool.true_eq_false.mp
      · refine ⟨[], List.nil_prefix, ?_⟩
        rw [gone, List.append_nil]
        exact nothing.symm
  rcases logged with ⟨front, cut, isLogged⟩
  have torn : front <+: medium.disk.unwritten ++ FramedLog.frame crc32 (write.body (history.length + 1)) := by
    rw [running.flushed, List.nil_append]
    exact cut.trans written
  rcases torn_append np npz running accepted torn with absent | present
  · left
    refine Recoverable.congr np npz ?_ ?_ absent
    · exact same
    · exact isLogged
  · right
    refine Recoverable.congr np npz ?_ ?_ present
    · exact same
    · exact isLogged

theorem Medium.Settled.appended_keeps (settled : medium.Settled)
    (running : Running np npz config dim history state medium.disk)
    (accepted : Accepted np dim history state write after) :
    Keeps (fun disk => Recoverable np npz config dim history disk ∨
        Recoverable np npz config dim (history.push write) disk)
      (medium.appended (FramedLog.frame crc32 (write.body (history.length + 1)))) := by
  intro disk left
  have same := left_snapshot settled.snapshot settled.entered left.snapshot
  have wrote := (running_wrote np npz running accepted).recoverable
  rw [← appended_disk running.flushed] at wrote
  rcases settled.logEntered with entered | nothing
  · right
    refine Recoverable.congr np npz ?_ ?_ wrote
    · exact same
    · exact left_logged rfl entered left.log
  · rcases left_or_gone rfl left.log with whole | gone
    · right
      refine Recoverable.congr np npz ?_ ?_ wrote
      · exact same
      · exact whole
    · left
      refine Recoverable.congr np npz ?_ ?_ running.recoverable
      · exact same
      · exact gone.trans nothing.symm

/-- A crash of the system inside a write leaves the write fully present or
absent, if the entry of the log is covered or the write takes a snapshot. -/
theorem Medium.Settled.addBatch_keeps (settled : medium.Settled)
    (running : Running np npz config dim history state medium.disk)
    (accepted : Accepted np dim history state write after) {payloads : List String} {seq : Option Nat}
    (given : write.Given payloads) (next : seq = none ∨ seq = some (state.lastSeq + 1))
    (fsync : state.config.fsync = true) :
    (DurableShard.addBatch np npz state write.globalIds write.vectors payloads seq).Covers durableDirectory
      (Keeps fun disk => Recoverable np npz config dim history disk ∨
        Recoverable np npz config dim (history.push write) disk) medium := by
  have whole : ∀ part unwritten, part <+: FramedLog.frame crc32 (write.body (history.length + 1)) →
      Keeps (fun disk => Recoverable np npz config dim history disk ∨
        Recoverable np npz config dim (history.push write) disk)
        { medium with log := some { medium.logFile with content := medium.logFile.content ++ part }, unwritten } := by
    intro part unwritten written
    rw [settled.logFile]
    exact settled.tears running accepted written
  rw [addBatch_eq np npz running accepted given next, DurableShard.appendRecord, if_pos fsync]
  refine ⟨?_, ?_, ?_, ?_, ?_⟩
  · intro disk left
    exact Or.inl (settled.keeps np npz running.recoverable disk left)
  · intro left torn
    cases torn with
    | appendLog _ part _ written =>
        apply whole part
        have flushed : medium.unwritten = [] := running.flushed
        rw [flushed, List.nil_append] at written
        exact written
  · have written := whole (medium.unwritten ++ FramedLog.frame crc32 (write.body (history.length + 1))) []
    apply written
    have flushed : medium.unwritten = [] := running.flushed
    rw [flushed, List.nil_append]
  · intro left torn
    cases torn
  · rw [settled.syncs running.flushed]
    have wrote := running_wrote np npz running accepted
    rw [← appended_disk running.flushed] at wrote
    have kept := settled.appended_keeps running accepted
    unfold finishWrite
    split
    · exact wrote.checkpoint_keeps np npz rfl kept fun disk recoverable => Or.inr recoverable
    · exact kept

/-- A write whose record is behind a covered entry, or under a new snapshot. -/
theorem Medium.Settled.addBatch_opened (settled : medium.Settled)
    (running : Running np npz config dim history state medium.disk)
    (accepted : Accepted np dim history state write after) {payloads : List String} {seq : Option Nat}
    (given : write.Given payloads) (next : seq = none ∨ seq = some (state.lastSeq + 1))
    (fsync : state.config.fsync = true)
    (careful : medium.enteredLog = true ∨ (wrote state write after).due = true) :
    ((DurableShard.addBatch np npz state write.globalIds write.vectors payloads seq).run durableDirectory
      medium).world.Opened := by
  rw [addBatch_eq np npz running accepted given next, DurableShard.appendRecord, if_pos fsync]
  change ((finishWrite npz state write after).run durableDirectory
    (durableDirectory.perform .syncLog (durableDirectory.perform (.appendLog _) medium))).world.Opened
  rw [settled.syncs running.flushed]
  have wrote := running_wrote np npz running accepted
  rw [← appended_disk running.flushed] at wrote
  unfold finishWrite
  split
  · exact wrote.checkpoint_opened np npz rfl
  · rename_i notDue
    rcases careful with entered | due
    · exact ⟨settled.withLog (Or.inl entered) [], rfl⟩
    · exact absurd due notDue

end Writes

/-! ## Installations -/

theorem Running.install_keeps {config : Config} {dim : Nat} {history peer : History} {state : DurableShard G}
    {medium : Medium} {data : Bytes} (running : Running np npz config dim history state medium.disk)
    (opened : medium.Opened) (snapshot : PeerSnapshot np npz dim peer data)
    (order : history.length ≤ peer.length) :
    (DurableShard.installSnapshot np npz state data).Covers durableDirectory
      (Keeps fun disk => Recoverable np npz config dim history disk ∨ Recoverable np npz config dim peer disk)
      medium := by
  rcases snapshot.loads np npz (some state.shard.index.efSearch) with ⟨shard, loads, contents⟩
  have holds := snapshot.holds np npz config.params
  unfold DurableShard.installSnapshot
  rw [loads]
  refine replace_keeps ?_ running.flushed (opened.settled.isLog opened.log) ?_ fun ended => ended
  · intro disk left
    exact Or.inl (opened.settled.keeps np npz running.recoverable disk left)
  · intro disk isSnapshot isLogged
    refine Or.inr ⟨snapshot.1, peer.length, [], isSnapshot ▸ holds, ?_, torn_nil⟩
    rcases isLogged with same | nothing
    · rw [same]
      exact running.log.replaced running.inside order
    · rw [nothing]
      exact LogHolds.emptied peer

theorem install_opened {dim : Nat} {peer : History} (state : DurableShard G) {medium : Medium} {data : Bytes}
    (opened : medium.log.isSome = true) (snapshot : PeerSnapshot np npz dim peer data) :
    ((DurableShard.installSnapshot np npz state data).run durableDirectory medium).world.Opened := by
  rcases snapshot.loads np npz (some state.shard.index.efSearch) with ⟨shard, loads, contents⟩
  unfold DurableShard.installSnapshot
  rw [loads]
  exact opened_emptied medium data opened

/-! ## Opening -/

section Opening

variable {config : Config} {dim : Nat} {history : History} {medium : Medium}

/-- A log that is cut off stays settled. -/
theorem Medium.Settled.cut (settled : medium.Settled) (size : Nat) :
    Settled { medium with log := some (covered (medium.logFile.content.take size)) } := by
  apply settled.withLog
  rw [settled.logFile]
  rcases settled.logEntered with entered | nothing
  · exact Or.inl entered
  · right
    change medium.disk.logged.take size = []
    rw [nothing]
    exact List.take_nil

/-- A truncation that is not covered happened or not. -/
theorem Medium.Settled.left_cut (settled : medium.Settled) {size : Nat} {found : Option Bytes}
    (left : LeftAt (some { medium.logFile with content := medium.logFile.content.take size }) found ∨
      medium.enteredLog = false ∧ found = none) :
    found.getD [] = medium.disk.logged ∨ found.getD [] = medium.logFile.content.take size := by
  rcases left with ⟨bytes, isBytes, kept⟩ | ⟨notEntered, gone⟩
  · rw [isBytes, Option.getD_some]
    have isSynced : medium.logFile.synced = medium.disk.logged := by
      rw [settled.logFile]
      rfl
    cases kept with
    | synced => exact Or.inl isSynced
    | written => exact Or.inr rfl
    | part front back =>
        left
        have isContent : medium.logFile.content = medium.logFile.synced := by
          rw [settled.logFile]
          rfl
        have short : bytes <+: medium.logFile.synced := by
          rw [← isContent]
          exact back.trans (List.take_prefix size _)
        rw [← isSynced]
        exact (front.eq_of_length_le short.length_le).symm
  · left
    rcases settled.logEntered with entered | nothing
    · rw [entered] at notEntered
      cases notEntered
    · rw [gone, nothing]
      rfl

theorem Medium.Settled.opened (settled : medium.Settled) :
    Opened { medium with log := some medium.logFile, unwritten := [] } := by
  rw [settled.logFile]
  exact ⟨settled.withLog settled.logEntered [], rfl⟩

theorem Medium.Settled.open_opened (settled : medium.Settled)
    (recoverable : Recoverable np npz config dim history medium.disk) :
    ((DurableShard.openShard np npz config medium.disk).run durableDirectory medium).world.Opened := by
  rcases openShard_eq np npz recoverable with ⟨state, intact, program, _⟩
  rw [program]
  unfold finishOpening
  split
  · exact (settled.cut intact).opened
  · exact settled.opened

theorem Medium.Settled.open_keeps (settled : medium.Settled)
    (recoverable : Recoverable np npz config dim history medium.disk) :
    (DurableShard.openShard np npz config medium.disk).Covers durableDirectory
      (Keeps (Recoverable np npz config dim history)) medium := by
  rcases openShard_eq np npz recoverable with ⟨state, intact, program, _, _, _, snapshot, log⟩
  have opening : ∀ {medium : Medium}, medium.Settled → Recoverable np npz config dim history medium.disk →
      (Program.call none .openLog (.done (some state)) :
        Program FileOp (Option (DurableShard G)) Error).Covers durableDirectory
          (Keeps (Recoverable np npz config dim history)) medium := by
    intro medium settled recoverable
    refine ⟨settled.keeps np npz recoverable, ?_, settled.opened.settled.keeps np npz ?_⟩
    · intro left torn
      cases torn
    · refine Recoverable.congr np npz ?_ ?_ recoverable
      · rfl
      · change medium.logFile.content = medium.disk.logged
        rw [settled.logFile]
        rfl
  have isLogged : (medium.logFile.content.take intact) = medium.disk.logged.take intact := by
    rw [settled.logFile]
    rfl
  have cut : Recoverable np npz config dim history
      (Medium.disk { medium with log := some (covered (medium.logFile.content.take intact)) }) := by
    refine ⟨recoverable.sound, state.snapshotSeq, [], snapshot, ?_, torn_nil⟩
    change LogHolds history state.snapshotSeq (medium.logFile.content.take intact) []
    rw [isLogged]
    exact log
  rw [program]
  unfold finishOpening
  split
  · refine ⟨settled.keeps np npz recoverable, ?_, opening (settled.cut intact) cut⟩
    intro left torn
    cases torn
    intro disk left
    have same := left_snapshot settled.snapshot settled.entered left.snapshot
    rcases settled.left_cut left.log with whole | short
    · refine Recoverable.congr np npz ?_ ?_ recoverable
      · exact same
      · exact whole
    · refine Recoverable.congr np npz ?_ ?_ cut
      · exact same
      · exact short
  · exact opening settled recoverable

end Opening

end VectorSearch
