import VectorSearch.Storage.Files

namespace VectorSearch

/-!
# The data directory on its medium

The same calls on the files of a shard, with what the operating system has made
durable of them: the contents of a file as far as they are covered by an fsync
of it, and the entries of the directory as far as they are covered by an fsync
of the directory.  When the operating system stops, whatever is not covered may
be gone or not, each file and each entry by itself.  No call fails here.
-/

/-- A file, and its contents at its last fsync. -/
@[ext] structure StoredFile where
  content : Bytes
  synced : Bytes

namespace StoredFile

/-- A file whose contents are covered. -/
def covered (content : Bytes) : StoredFile := ⟨content, content⟩

/-- What can be left of the contents: those covered, those written, or a part of
what was appended. -/
inductive Left (file : StoredFile) : Bytes → Prop
  | synced : Left file file.synced
  | written : Left file file.content
  | part {bytes : Bytes} (front : file.synced <+: bytes) (back : bytes <+: file.content) : Left file bytes

theorem left_covered {content bytes : Bytes} (left : (covered content).Left bytes) : bytes = content := by
  cases left with
  | synced => rfl
  | written => rfl
  | part front back => exact (front.eq_of_length_le back.length_le).symm

/-- What can be left of the file behind an entry. -/
def LeftAt (file : Option StoredFile) (bytes : Option Bytes) : Prop :=
  match file with
  | none => bytes = none
  | some file => ∃ left, bytes = some left ∧ file.Left left

theorem leftAt_covered {content bytes : Option Bytes} (left : LeftAt (content.map covered) bytes) :
    bytes = content := by
  cases content with
  | none => exact left
  | some content =>
      rcases left with ⟨found, rfl, same⟩
      rw [left_covered same]

end StoredFile

/-- The files, the buffer of the open log, and the entries at the last fsync of
the directory: the file behind `snapshot.npz`, and whether there was `wal.log`.
What is left of `snapshot.npz.tmp` is never read. -/
structure Medium where
  snapshot : Option StoredFile
  temporary : Option StoredFile
  log : Option StoredFile
  unwritten : Bytes
  enteredSnapshot : Option StoredFile
  enteredLog : Bool

namespace Medium

open StoredFile

/-- The files as a process sees them. -/
def disk (medium : Medium) : Disk :=
  ⟨medium.snapshot.map StoredFile.content, medium.temporary.map StoredFile.content,
    medium.log.map StoredFile.content, medium.unwritten⟩

/-- Files that have been there since the system started. -/
def settled (disk : Disk) : Medium :=
  ⟨disk.snapshot.map covered, disk.temporary.map covered, disk.log.map covered, [],
    disk.snapshot.map covered, disk.log.isSome⟩

def logFile (medium : Medium) : StoredFile := medium.log.getD (covered [])

def perform : FileOp → Medium → Medium
  | .writeTemporary data, medium => { medium with temporary := some (covered data) }
  | .replaceSnapshot, medium => { medium with snapshot := medium.temporary, temporary := none }
  | .syncDirectory, medium =>
      { medium with enteredSnapshot := medium.snapshot, enteredLog := medium.log.isSome }
  | .appendLog record, medium =>
      { medium with
        log := some { medium.logFile with content := medium.logFile.content ++ (medium.unwritten ++ record) }
        unwritten := [] }
  | .syncLog, medium => { medium with log := medium.log.map fun file => covered file.content }
  | .truncateLog, medium => { medium with log := some { medium.logFile with content := [] }, unwritten := [] }
  | .syncReset, medium => { medium with log := medium.log.map fun file => covered file.content }
  | .cutLog size, medium => { medium with log := some (covered (medium.logFile.content.take size)) }
  | .openLog, medium => { medium with log := some medium.logFile, unwritten := [] }

/-- Inside a call the writing can have stopped after any part, and a truncation
may not be covered yet. -/
inductive Interrupted : FileOp → Medium → Medium → Prop
  | writeTemporary (data : Bytes) (file : StoredFile) (medium : Medium) :
      Interrupted (.writeTemporary data) medium { medium with temporary := some file }
  | appendLog (record part : Bytes) (medium : Medium) (written : part <+: medium.unwritten ++ record) :
      Interrupted (.appendLog record) medium
        { medium with log := some { medium.logFile with content := medium.logFile.content ++ part } }
  | truncateLog (part : Bytes) (medium : Medium) (written : part <+: medium.unwritten) :
      Interrupted .truncateLog medium
        { medium with log := some { medium.logFile with content := medium.logFile.content ++ part } }
  | cutLog (size : Nat) (medium : Medium) :
      Interrupted (.cutLog size) medium
        { medium with log := some { medium.logFile with content := medium.logFile.content.take size } }

/-- What can be left when the operating system stops. -/
structure Left (medium : Medium) (disk : Disk) : Prop where
  snapshot : LeftAt medium.snapshot disk.snapshot ∨ LeftAt medium.enteredSnapshot disk.snapshot
  log : LeftAt medium.log disk.log ∨ medium.enteredLog = false ∧ disk.log = none
  unwritten : disk.unwritten = []

theorem perform_disk (op : FileOp) (medium : Medium) : (perform op medium).disk = op.perform medium.disk := by
  rcases medium with ⟨snapshot, temporary, log, unwritten, enteredSnapshot, enteredLog⟩
  cases log with
  | none => cases op <;> rfl
  | some file => cases op <;> rfl

end Medium

/-- The data directory with what the operating system has made durable. -/
def durableDirectory : FileSystem FileOp Medium := ⟨Medium.perform, Medium.Interrupted, fun _ _ _ => False⟩

/-- On the medium a program does to the files what it does to them in a process
that the system keeps running. -/
theorem Medium.run_disk {σ ε : Type} (program : Program FileOp σ ε) (medium : Medium) :
    program.run dataDirectory medium.disk =
      ⟨(program.run durableDirectory medium).world.disk, (program.run durableDirectory medium).memory,
        (program.run durableDirectory medium).error⟩ :=
  Program.run_project Medium.disk Medium.perform_disk program medium

end VectorSearch
