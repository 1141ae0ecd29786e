import VectorSearch.Lib.FileProgram
import VectorSearch.Lib.LittleEndian

namespace VectorSearch

/-!
# The data directory

The files of one durable shard and the calls `storage.py` makes on them, with
what a call leaves behind when the process dies inside it and when it raises.

The log is written through a buffered file object.  An append that raises may
have moved any part of the buffer into the file and may keep any part of the
rest for the next flush; a process that dies loses what was not written yet.
-/

/-- `snapshot.npz`, `snapshot.npz.tmp`, `wal.log`, and what the open log file
object still holds in its buffer. -/
structure Disk where
  snapshot : Option Bytes
  temporary : Option Bytes
  log : Option Bytes
  unwritten : Bytes

namespace Disk

def empty : Disk := ⟨none, none, none, []⟩

/-- The bytes of the log; a file that does not exist has none. -/
def logged (disk : Disk) : Bytes := disk.log.getD []

/-- What is left of the files when the process is gone. -/
def abandoned (disk : Disk) : Disk := { disk with unwritten := [] }

end Disk

/-- The calls, in the order the source groups them. -/
inductive FileOp where
  /-- Write, flush and fsync the temporary snapshot. -/
  | writeTemporary (data : Bytes)
  /-- `os.replace(tmp, path)`. -/
  | replaceSnapshot
  /-- `_fsync_dir`. -/
  | syncDirectory
  /-- `self.file.write` and `self.file.flush`. -/
  | appendLog (record : Bytes)
  /-- The `os.fsync` at the end of `append`. -/
  | syncLog
  /-- `self.file.truncate(0)` and `self.file.flush`. -/
  | truncateLog
  /-- The `os.fsync` at the end of `reset`. -/
  | syncReset
  /-- Cut off a torn tail while the log is opened. -/
  | cutLog (size : Nat)
  /-- `open(self.path, "ab")`. -/
  | openLog

namespace FileOp

def perform : FileOp → Disk → Disk
  | writeTemporary data, disk => { disk with temporary := some data }
  | replaceSnapshot, disk => { disk with snapshot := disk.temporary, temporary := none }
  | syncDirectory, disk => disk
  | appendLog record, disk =>
      { disk with log := some (disk.logged ++ (disk.unwritten ++ record)), unwritten := [] }
  | syncLog, disk => disk
  | truncateLog, disk => { disk with log := some [], unwritten := [] }
  | syncReset, disk => disk
  | cutLog size, disk => { disk with log := some (disk.logged.take size) }
  | openLog, disk => { disk with log := some disk.logged, unwritten := [] }

/-- Writing can stop after any prefix; replacing and truncating a file cannot
stop half way.  Closing a file or losing it writes part of its buffer. -/
inductive Interrupted : FileOp → Disk → Disk → Prop
  | writeTemporary (data part : Bytes) (disk : Disk) :
      Interrupted (.writeTemporary data) disk { disk with temporary := some part }
  | appendLog (record part : Bytes) (disk : Disk) (written : part <+: disk.unwritten ++ record) :
      Interrupted (.appendLog record) disk { disk with log := some (disk.logged ++ part) }
  | truncateLog (part : Bytes) (disk : Disk) (written : part <+: disk.unwritten) :
      Interrupted .truncateLog disk { disk with log := some (disk.logged ++ part) }

/-- What an `OSError` leaves behind. -/
inductive Failed : FileOp → Disk → Disk → Prop
  | unchanged (op : FileOp) (disk : Disk) (other : ∀ record, op ≠ .appendLog record) :
      Failed op disk disk
  | writeTemporary (data part : Bytes) (disk : Disk) :
      Failed (.writeTemporary data) disk { disk with temporary := some part }
  | appendLog (record written kept dropped : Bytes) (disk : Disk)
      (split : disk.unwritten ++ record = written ++ (kept ++ dropped)) :
      Failed (.appendLog record) disk
        { disk with log := some (disk.logged ++ written), unwritten := kept }
  | truncateLog (written kept : Bytes) (disk : Disk) (split : disk.unwritten = written ++ kept) :
      Failed .truncateLog disk
        { disk with log := some (disk.logged ++ written), unwritten := kept }

end FileOp

/-- The data directory as a file system. -/
def dataDirectory : FileSystem FileOp Disk := ⟨FileOp.perform, FileOp.Interrupted, FileOp.Failed⟩

end VectorSearch
