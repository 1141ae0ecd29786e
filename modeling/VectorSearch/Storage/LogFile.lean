import VectorSearch.Storage.Log

namespace VectorSearch

/-!
# The log file

`WriteAheadLog` in `storage.py` by itself.  A log that is cut off at any byte
reads back as the records that end before that byte, and opening it there and
appending more reads back as those records followed by the new ones.
-/

open Program

namespace WriteAheadLog

/-- `WriteAheadLog(path)`, with the recovered records once the file is open. -/
def init (disk : Disk) : Program FileOp (Option (List Record)) Error :=
  match readRecords disk.logged with
  | .error error => .raised none error
  | .ok (records, intactBytes) =>
      let opened := .call none .openLog (.done (some records))
      if intactBytes < disk.logged.length then .call none (.cutLog intactBytes) opened else opened

/-- `append`. -/
def append (fsync : Bool) (seq : Nat) (globalIds : List Int) (vectors : Matrix Float32Bits)
    (payloads : List String) : Program FileOp Unit Error :=
  match encodeRecord seq globalIds vectors payloads with
  | .error error => .raised () error
  | .ok record =>
      .call () (.appendLog record) (if fsync then .call () .syncLog (.done ()) else .done ())

end WriteAheadLog

/-! ## As parts of a durable shard -/

section Parts

variable {D G : Type} [LinearOrder D] (np : Numpy Float32Bits D G) (npz : Npz G)

/-- Opening a shard opens its log behind the snapshot and replays it. -/
theorem openShard_init (config : Config) (disk : Disk) {shard : Shard Float32Bits G} {lastSeq : Nat}
    (loads : DurableShard.loadOrInit np npz config disk.snapshot = .ok (shard, lastSeq)) :
    DurableShard.openShard np npz config disk =
      (WriteAheadLog.init disk).within id (fun _ => none)
        (fun recovered =>
          match (recovered.getD []).foldlM (DurableShard.replayRecord np)
            (DurableShard.loaded config shard lastSeq) with
          | .error error => .raised none error
          | .ok state => .done (some state))
        (fun _ error => .raised none error) := by
  rw [DurableShard.openShard, loads, WriteAheadLog.init]
  cases readRecords disk.logged with
  | error error => rfl
  | ok read =>
      rcases read with ⟨records, intactBytes⟩
      dsimp only
      split <;> rfl

/-- A write appends its record to the log before anything else. -/
theorem addBatch_append (state : DurableShard G) (globalIds : List Int) (vectors : Matrix Float32Bits)
    (payloads : List String) {seq : Option Nat} (inOrder : seq = none ∨ seq = some (state.lastSeq + 1)) :
    DurableShard.addBatch np npz state globalIds vectors payloads seq =
      (WriteAheadLog.append state.config.fsync (state.lastSeq + 1) globalIds vectors payloads).within id
        (fun _ => state)
        (fun _ => DurableShard.applyLogged np npz state globalIds vectors payloads)
        (fun _ error => .raised state error) := by
  have next : seq.any (· != state.lastSeq + 1) = false := by
    rcases inOrder with rfl | rfl
    · rfl
    · rw [Option.any_some, bne_self_eq_false]
  simp only [DurableShard.addBatch, next, Bool.false_eq_true, if_false, WriteAheadLog.append]
  cases encodeRecord (state.lastSeq + 1) globalIds vectors payloads with
  | error error => rfl
  | ok record =>
      dsimp only [DurableShard.appendRecord]
      split <;> rfl

end Parts

/-! ## Records -/

/-- The arguments of one `append`: as many ids as rows, a text for each of them
or none at all, and every number within its field. -/
structure Appended where
  seq : Nat
  globalIds : List Int
  vectors : Matrix Float32Bits
  payloads : List String
  counted : globalIds.length = vectors.rows.length
  texts : payloads = [] ∨ payloads.length = globalIds.length
  inside : globalIds.all fitsInt64 = true
  seq_small : seq < 2 ^ 64
  rows_small : vectors.rows.length < 2 ^ 32
  dim_small : vectors.dim < 2 ^ 32
  body_small : (recordBody seq globalIds vectors payloads).length < 2 ^ 32

namespace Appended

def body (entry : Appended) : Bytes :=
  recordBody entry.seq entry.globalIds entry.vectors entry.payloads

/-- What is read back: a missing payload is an empty text. -/
def record (entry : Appended) : Record :=
  ⟨entry.seq, entry.globalIds, entry.vectors,
    Shard.payloadsOrEmpty entry.globalIds.length entry.payloads⟩

theorem encoded (entry : Appended) :
    encodeRecord entry.seq entry.globalIds entry.vectors entry.payloads =
      .ok (FramedLog.frame crc32 entry.body) := by
  have fits : entry.seq < 2 ^ 64 ∧ entry.vectors.rows.length < 2 ^ 32 ∧ entry.vectors.dim < 2 ^ 32 ∧
      entry.body.length < 2 ^ 32 :=
    ⟨entry.seq_small, entry.rows_small, entry.dim_small, entry.body_small⟩
  simp only [encodeRecord, entry.inside, Bool.not_true, Bool.false_eq_true, if_false]
  exact if_pos fits

/-- The record is the one of a well-formed write. -/
theorem write (entry : Appended) :
    ∃ write : Write, entry.body = write.body entry.seq ∧ entry.record = write.record entry.seq := by
  rcases encodeRecord_write entry.seq entry.globalIds entry.vectors entry.payloads _ entry.counted
    entry.texts entry.encoded with ⟨write, ids, vectors, payloads, _, _⟩
  refine ⟨write, ?_, ?_⟩
  · rw [body, Write.body, ids, vectors, ← payloads, recordBody_payloadsOrEmpty]
  · rw [record, Write.record, ids, vectors, payloads]

theorem decoded (entry : Appended) : decodeBody entry.body = .ok (some entry.record) := by
  rcases entry.write with ⟨write, body, record⟩
  rw [body, record]
  exact write.decodeBody_body entry.seq entry.seq_small

end Appended

/-! ## Logs -/

/-- Append records one after another. -/
def appendAll (fsync : Bool) : List Appended → Program FileOp Unit Error
  | [] => .done ()
  | entry :: rest =>
      (WriteAheadLog.append fsync entry.seq entry.globalIds entry.vectors entry.payloads).within id id
        (fun _ => appendAll fsync rest) (fun _ error => .raised () error)

/-- Where the last of the records ends in the file. -/
def endOf (entries : List Appended) : Nat :=
  (entries.map fun entry => (FramedLog.frame crc32 entry.body).length).sum

/-- The bytes of the records, in order. -/
def writtenBytes (entries : List Appended) : Bytes :=
  FramedLog.write crc32 (entries.map Appended.body)

theorem writtenBytes_length (entries : List Appended) : (writtenBytes entries).length = endOf entries := by
  induction entries with
  | nil => rfl
  | cons entry rest inductionHypothesis =>
      rw [writtenBytes, List.map_cons, FramedLog.write_cons, List.length_append, endOf, List.map_cons,
        List.sum_cons]
      exact congrArg _ inductionHypothesis

theorem carries_appended (entries : List Appended) :
    FramedLog.Carries logFormat (entries.map Appended.body) (entries.map Appended.record) := by
  induction entries with
  | nil => exact .nil
  | cons entry rest inductionHypothesis =>
      have decoded : logFormat.decode entry.body = .ok (some entry.record) := by
        rw [logFormat_decode]
        exact entry.decoded
      exact FramedLog.Carries.cons entry.body_small decoded inductionHypothesis

/-- Appending puts the bytes of the records behind what the log holds. -/
theorem appendAll_run (fsync : Bool) (entries : List Appended) (disk : Disk) (log : Bytes)
    (holds : disk.log = some log) (flushed : disk.unwritten = []) :
    (appendAll fsync entries).run dataDirectory disk =
      ⟨{ disk with log := some (log ++ writtenBytes entries) }, (), none⟩ := by
  induction entries generalizing disk log with
  | nil =>
      rw [writtenBytes, List.map_nil, FramedLog.write_nil, List.append_nil, ← holds]
      rfl
  | cons entry rest inductionHypothesis =>
      have step : (appendAll fsync (entry :: rest)).run dataDirectory disk =
          (appendAll fsync rest).run dataDirectory
            { disk with log := some (log ++ FramedLog.frame crc32 entry.body), unwritten := [] } := by
        simp only [appendAll, WriteAheadLog.append, entry.encoded]
        have file : FileOp.perform (.appendLog (FramedLog.frame crc32 entry.body)) disk =
            { disk with log := some (log ++ FramedLog.frame crc32 entry.body), unwritten := [] } := by
          simp only [FileOp.perform, Disk.logged, holds, flushed, Option.getD_some, List.nil_append]
        rw [← file]
        cases fsync <;> rfl
      have bytes : writtenBytes (entry :: rest) = FramedLog.frame crc32 entry.body ++ writtenBytes rest := by
        rw [writtenBytes, List.map_cons, FramedLog.write_cons]
        rfl
      rw [step, inductionHypothesis _ _ rfl rfl, bytes, List.append_assoc, flushed]

/-- How many of the records end at or before the given byte. -/
def completeBy (entries : List Appended) (size : Nat) : Nat :=
  FramedLog.complete crc32 (entries.map Appended.body) size

theorem le_completeBy_iff (entries : List Appended) (size count : Nat) (inside : count ≤ entries.length) :
    count ≤ completeBy entries size ↔ endOf (entries.take count) ≤ size := by
  rw [← writtenBytes_length, writtenBytes, List.map_take]
  apply FramedLog.le_complete_iff
  rw [List.length_map]
  exact inside

/-- What is read from a log that is cut off. -/
theorem readRecords_cut (entries : List Appended) (size : Nat) :
    readRecords ((writtenBytes entries).take size) =
      .ok ((entries.take (completeBy entries size)).map Appended.record,
        endOf (entries.take (completeBy entries size))) := by
  have read := FramedLog.read_take_write logFormat (carries_appended entries) size
  rw [← List.map_take, ← List.map_take] at read
  rw [← writtenBytes_length]
  exact read

/-- Opening a log that is cut off keeps the complete records only. -/
theorem init_cut (entries : List Appended) (size : Nat) (disk : Disk)
    (holds : disk.log = some ((writtenBytes entries).take size)) :
    (WriteAheadLog.init disk).run dataDirectory disk =
      ⟨{ disk with log := some (writtenBytes (entries.take (completeBy entries size))), unwritten := [] },
        some ((entries.take (completeBy entries size)).map Appended.record), none⟩ := by
  have kept : ((writtenBytes entries).take size).take (endOf (entries.take (completeBy entries size))) =
      writtenBytes (entries.take (completeBy entries size)) := by
    rcases FramedLog.take_write crc32 (entries.map Appended.body) size (carries_appended entries).fits with
      ⟨_, torn, _, _, _, whole⟩
    rw [← List.map_take] at whole
    rw [writtenBytes, whole, ← writtenBytes_length]
    exact List.take_left
  have logged : disk.logged = (writtenBytes entries).take size := by
    rw [Disk.logged, holds, Option.getD_some]
  simp only [WriteAheadLog.init, logged, readRecords_cut]
  split
  · simp only [run, dataDirectory, FileOp.perform, Disk.logged, holds, Option.getD_some, kept]
  · rename_i whole
    rw [List.take_of_length_le (Nat.le_of_not_lt whole)] at kept
    simp only [run, dataDirectory, FileOp.perform, Disk.logged, holds, Option.getD_some, kept]

/-- The round trip of the log at every cut. -/
theorem log_round_trip (fsync : Bool) (entries : List Appended) :
    ∃ written : Bytes,
      (appendAll fsync entries).run dataDirectory ⟨none, none, some [], []⟩ =
        ⟨⟨none, none, some written, []⟩, (), none⟩ ∧
      ∀ size : Nat, ∃ count ≤ entries.length,
        (∀ number ≤ entries.length, number ≤ count ↔ endOf (entries.take number) ≤ size) ∧
        readRecords (written.take size) =
          .ok ((entries.take count).map Appended.record, endOf (entries.take count)) ∧
        ∃ intact : Bytes,
          (WriteAheadLog.init ⟨none, none, some (written.take size), []⟩).run dataDirectory
              ⟨none, none, some (written.take size), []⟩ =
            ⟨⟨none, none, some intact, []⟩, some ((entries.take count).map Appended.record), none⟩ ∧
          ∀ more : List Appended, ∃ whole : Bytes,
            (appendAll fsync more).run dataDirectory ⟨none, none, some intact, []⟩ =
              ⟨⟨none, none, some whole, []⟩, (), none⟩ ∧
            readRecords whole =
              .ok ((entries.take count ++ more).map Appended.record, whole.length) := by
  refine ⟨writtenBytes entries, appendAll_run fsync entries _ [] rfl rfl, ?_⟩
  intro size
  refine ⟨completeBy entries size, ?_, ?_, readRecords_cut entries size,
    writtenBytes (entries.take (completeBy entries size)), init_cut entries size _ rfl, ?_⟩
  · have within := FramedLog.complete_le crc32 (entries.map Appended.body) size
    rwa [List.length_map] at within
  · exact fun number inside => le_completeBy_iff entries size number inside
  · intro more
    have joined : writtenBytes (entries.take (completeBy entries size)) ++ writtenBytes more =
        writtenBytes (entries.take (completeBy entries size) ++ more) := by
      rw [writtenBytes, writtenBytes, writtenBytes, List.map_append, FramedLog.write_append]
    refine ⟨_, appendAll_run fsync more _ _ rfl rfl, ?_⟩
    rw [joined]
    exact FramedLog.read_write logFormat (carries_appended _)

end VectorSearch
