import VectorSearch.Storage.Log

namespace VectorSearch

/-!
# What the files hold

The invariant that ties the snapshot, the log and the memory of a durable shard
to one history: the snapshot is the state after some number of writes, and the
log holds every write behind that, possibly after entries the snapshot already
covers and before a record that was cut short.

Opening such a directory gives the shard of the whole history.  The later
modules only have to show that each operation keeps the invariant at every
point where the process can stop.
-/

open Program

variable {D G : Type} [LinearOrder D] (np : Numpy Float32Bits D G) (npz : Npz G)

/-- The snapshot file is the state after the first `seq` writes.  Without a
file the shard starts empty with its own parameters. -/
inductive SnapshotHolds (params : HnswParams) (history : History) : Nat → Option Bytes → Prop
  | absent (same : history.params = params) : SnapshotHolds params history 0 none
  | saved {seq : Nat} {shard : Shard Float32Bits G} {archive : Archive G}
      (inside : seq ≤ history.length)
      (reached : (history.upTo seq).replay np = some shard.contents)
      (written : snapshotArchive shard seq = .ok archive) :
      SnapshotHolds params history seq (some (npz.savez archive))

/-- The log holds the writes behind `seq`, each once and in order, and ends in
the given bytes. -/
def LogHolds (history : History) (seq : Nat) (log tail : Bytes) : Prop :=
  ∃ stale : List Entry, (∀ entry ∈ stale, entry.1 ≤ seq) ∧
    log = logBytes (stale ++ numbered (seq + 1) (history.writes.drop seq)) ++ tail

/-- A directory from which the shard of the history can be recovered. -/
structure Recoverable (config : Config) (dim : Nat) (history : History) (disk : Disk) : Prop where
  sound : history.Sound np dim
  files : ∃ seq tail, SnapshotHolds np npz config.params history seq disk.snapshot ∧
    LogHolds history seq disk.logged tail ∧ Torn tail

/-- A process that holds the shard of the history, over files that hold it too. -/
structure Running (config : Config) (dim : Nat) (history : History) (state : DurableShard G)
    (disk : Disk) : Prop where
  sound : history.Sound np dim
  config_eq : state.config = config
  contents : history.replay np = some state.shard.contents
  lastSeq : state.lastSeq = history.length
  snapshot : ∃ seq, state.snapshotSeq ≤ seq ∧
    SnapshotHolds np npz config.params history seq disk.snapshot
  log : LogHolds history state.snapshotSeq disk.logged []
  flushed : disk.unwritten = []

/-! ## Logs and snapshots as a history grows -/

/-- No entry of such a log is newer than the history. -/
theorem seq_le_length {history : History} {seq : Nat} (inside : seq ≤ history.length)
    {stale : List Entry} (covered : ∀ entry ∈ stale, entry.1 ≤ seq) :
    ∀ entry ∈ stale ++ numbered (seq + 1) (history.writes.drop seq), entry.1 ≤ history.length := by
  intro entry member
  rcases List.mem_append.mp member with old | new
  · exact Nat.le_trans (covered entry old) inside
  · have bounds := (seq_of_mem_numbered new).2
    have count : (history.writes.drop seq).length = history.length - seq := List.length_drop
    omega

/-- The entries of such a log: none is newer than the history, and those
behind any seq from `seq` on are the writes of the history behind it. -/
theorem LogHolds.entries {history : History} {seq : Nat} {log tail : Bytes}
    (inside : seq ≤ history.length) (holds : LogHolds history seq log tail) :
    ∃ entries : List Entry, log = logBytes entries ++ tail ∧
      (∀ entry ∈ entries, entry.1 ≤ history.length) ∧
      ∀ after, seq ≤ after → entries.filter (fun entry => after < entry.1) =
        numbered (after + 1) (history.writes.drop after) := by
  obtain ⟨stale, covered, bytes⟩ := holds
  have count : (history.writes.drop seq).length = history.length - seq := List.length_drop
  refine ⟨_, bytes, seq_le_length inside covered, ?_⟩
  · intro after order
    have noStale : stale.filter (fun entry => after < entry.1) = [] := by
      apply List.filter_eq_nil_iff.mpr
      intro entry member
      have bound := covered entry member
      simp only [decide_eq_true_eq]
      omega
    rw [List.filter_append, noStale, List.nil_append]
    rcases Nat.le_total after history.length with reaches | beyond
    · have next : seq + 1 + (after - seq) = after + 1 := by omega
      have behind : (history.writes.drop seq).drop (after - seq) = history.writes.drop after := by
        rw [List.drop_drop, Nat.add_sub_cancel' order]
      rw [numbered_split (seq + 1) (after - seq) _ (by omega), List.filter_append, next, behind]
      have early : (numbered (seq + 1) ((history.writes.drop seq).take (after - seq))).filter
          (fun entry => after < entry.1) = [] := by
        apply List.filter_eq_nil_iff.mpr
        intro entry member
        have bound := (seq_of_mem_numbered member).2
        rw [List.length_take] at bound
        simp only [decide_eq_true_eq]
        omega
      have late : (numbered (after + 1) (history.writes.drop after)).filter
          (fun entry => after < entry.1) = numbered (after + 1) (history.writes.drop after) := by
        apply List.filter_eq_self.mpr
        intro entry member
        have bound := (seq_of_mem_numbered member).1
        simp only [decide_eq_true_eq]
        omega
      rw [early, late, List.nil_append]
    · have none : history.writes.drop after = [] := List.drop_of_length_le beyond
      rw [none, numbered]
      apply List.filter_eq_nil_iff.mpr
      intro entry member
      have bound := (seq_of_mem_numbered member).2
      simp only [decide_eq_true_eq]
      omega

/-- Entries up to a newer snapshot are leftovers. -/
theorem LogHolds.advance {history : History} {seq later : Nat} {log tail : Bytes}
    (order : seq ≤ later) (holds : LogHolds history seq log tail) : LogHolds history later log tail := by
  obtain ⟨stale, covered, bytes⟩ := holds
  rcases Nat.le_total later history.length with inside | beyond
  · refine ⟨stale ++ numbered (seq + 1) ((history.writes.drop seq).take (later - seq)), ?_, ?_⟩
    · intro entry member
      rcases List.mem_append.mp member with old | passed
      · exact Nat.le_trans (covered entry old) order
      · have bounds := (seq_of_mem_numbered passed).2
        rw [List.length_take] at bounds
        omega
    · have count : later - seq ≤ (history.writes.drop seq).length := by
        rw [List.length_drop]
        simp only [History.length] at inside
        omega
      have behind : (history.writes.drop seq).drop (later - seq) = history.writes.drop later := by
        rw [List.drop_drop, Nat.add_sub_cancel' order]
      have next : seq + 1 + (later - seq) = later + 1 := by omega
      rw [bytes, numbered_split (seq + 1) (later - seq) _ count, behind, next, List.append_assoc]
  · refine ⟨stale ++ numbered (seq + 1) (history.writes.drop seq), ?_, ?_⟩
    · intro entry member
      rcases List.mem_append.mp member with old | passed
      · exact Nat.le_trans (covered entry old) order
      · have bounds := (seq_of_mem_numbered passed).2
        have count : (history.writes.drop seq).length = history.length - seq := List.length_drop
        omega
    · have none : history.writes.drop later = [] := List.drop_of_length_le beyond
      rw [bytes, none, numbered, List.append_nil]

/-- A record appended behind the last write continues the history. -/
theorem LogHolds.push {history : History} {seq : Nat} {log : Bytes} (write : Write)
    (inside : seq ≤ history.length) (holds : LogHolds history seq log []) :
    LogHolds (history.push write) seq
      (log ++ FramedLog.frame crc32 (write.body (history.length + 1))) [] := by
  obtain ⟨stale, covered, bytes⟩ := holds
  refine ⟨stale, covered, ?_⟩
  have rest : (history.push write).writes.drop seq = history.writes.drop seq ++ [write] :=
    List.drop_append_of_le_length inside
  have position : seq + 1 + (history.writes.drop seq).length = history.length + 1 := by
    rw [List.length_drop]
    simp only [History.length] at inside ⊢
    omega
  rw [rest, numbered_append, position, ← List.append_assoc, logBytes_append]
  simp only [bytes, List.append_nil, numbered, logBytes_singleton, Entry.body]

/-- What follows the last write in a log is its tail. -/
theorem LogHolds.tail {history : History} {seq : Nat} {log : Bytes} (tail : Bytes)
    (holds : LogHolds history seq log []) : LogHolds history seq (log ++ tail) tail := by
  obtain ⟨stale, covered, bytes⟩ := holds
  refine ⟨stale, covered, ?_⟩
  rw [bytes, List.append_nil]

/-- An emptied log holds what lies behind the whole history. -/
theorem LogHolds.emptied (history : History) : LogHolds history history.length [] [] := by
  refine ⟨[], ?_, ?_⟩
  · intro entry member
    cases member
  · rw [history.drop_length]
    rfl

/-- The leftovers of an older history are older than a snapshot that reaches
at least as far. -/
theorem LogHolds.replaced {old new : History} {seq : Nat} {log : Bytes}
    (inside : seq ≤ old.length) (order : old.length ≤ new.length)
    (holds : LogHolds old seq log []) : LogHolds new new.length log [] := by
  obtain ⟨stale, covered, bytes⟩ := holds
  refine ⟨stale ++ numbered (seq + 1) (old.writes.drop seq), ?_, ?_⟩
  · intro entry member
    rcases List.mem_append.mp member with leftover | passed
    · exact Nat.le_trans (covered entry leftover) (Nat.le_trans inside order)
    · have bounds := (seq_of_mem_numbered passed).2
      have count : (old.writes.drop seq).length = old.length - seq := List.length_drop
      omega
  · rw [bytes, new.drop_length]
    simp only [numbered, List.append_nil]

theorem SnapshotHolds.inside {params : HnswParams} {history : History} {seq : Nat}
    {file : Option Bytes} (holds : SnapshotHolds np npz params history seq file) :
    seq ≤ history.length := by
  cases holds with
  | absent same => exact Nat.zero_le _
  | saved inside reached written => exact inside

theorem SnapshotHolds.push {params : HnswParams} {history : History} {seq : Nat}
    {file : Option Bytes} (write : Write) (holds : SnapshotHolds np npz params history seq file) :
    SnapshotHolds np npz params (history.push write) seq file := by
  cases holds with
  | absent same => exact .absent same
  | saved inside reached written =>
      have same : (history.push write).upTo seq = history.upTo seq := by
        simp only [History.upTo, History.push, List.take_append_of_le_length inside]
      refine .saved ?_ (same ▸ reached) written
      rw [History.length_push]
      exact Nat.le_succ_of_le inside

/-- The snapshot of the whole history, as `checkpoint` writes it. -/
theorem SnapshotHolds.whole {params : HnswParams} {history : History} {shard : Shard Float32Bits G}
    {archive : Archive G} (reached : history.replay np = some shard.contents)
    (written : snapshotArchive shard history.length = .ok archive) :
    SnapshotHolds np npz params history history.length (some (npz.savez archive)) :=
  .saved (Nat.le_refl _) (by rw [History.upTo_length]; exact reached) written

/-- Loading the snapshot gives the state after the writes it covers. -/
theorem SnapshotHolds.load {config : Config} {dim : Nat} {history : History} {seq : Nat}
    {file : Option Bytes} (sound : history.Sound np dim)
    (holds : SnapshotHolds np npz config.params history seq file) :
    ∃ shard, DurableShard.loadOrInit np npz config file = .ok (shard, seq) ∧
      (history.upTo seq).replay np = some shard.contents := by
  cases holds with
  | absent same =>
      refine ⟨Shard.init np config.params, rfl, ?_⟩
      simp only [History.replay, History.upTo, List.take_zero, same]
      rfl
  | @saved _ shard archive inside reached written =>
      have storable := ((sound.upTo np seq).storable np reached).2
      obtain ⟨same, saved, loaded⟩ :=
        loadArchive_snapshotArchive np config.params.efSearch seq storable
      have equal : same = archive := Except.ok.inj (saved.symm.trans written)
      subst equal
      refine ⟨reloaded config.params.efSearch shard, ?_, reached⟩
      simp only [DurableShard.loadOrInit, loadSnapshot, npz.load_savez]
      exact loaded

/-- Recovery reads the snapshot and the log, and nothing else. -/
theorem Recoverable.congr {config : Config} {dim : Nat} {history : History} {disk other : Disk}
    (snapshot : other.snapshot = disk.snapshot) (log : other.logged = disk.logged)
    (recoverable : Recoverable np npz config dim history disk) :
    Recoverable np npz config dim history other := by
  refine ⟨recoverable.sound, ?_⟩
  rw [snapshot, log]
  exact recoverable.files

/-- The same process over other files that hold its history. -/
theorem Running.onFiles {config : Config} {dim : Nat} {history : History} {state : DurableShard G}
    {disk other : Disk} (running : Running np npz config dim history state disk)
    (snapshot : ∃ seq, state.snapshotSeq ≤ seq ∧
      SnapshotHolds np npz config.params history seq other.snapshot)
    (log : LogHolds history state.snapshotSeq other.logged []) (flushed : other.unwritten = []) :
    Running np npz config dim history state other :=
  { running with snapshot, log, flushed }

theorem Running.inside {config : Config} {dim : Nat} {history : History} {state : DurableShard G}
    {disk : Disk} (running : Running np npz config dim history state disk) :
    state.snapshotSeq ≤ history.length := by
  obtain ⟨seq, order, snapshot⟩ := running.snapshot
  exact Nat.le_trans order snapshot.inside

theorem Running.recoverable {config : Config} {dim : Nat} {history : History} {state : DurableShard G}
    {disk : Disk} (running : Running np npz config dim history state disk) :
    Recoverable np npz config dim history disk := by
  obtain ⟨seq, order, snapshot⟩ := running.snapshot
  exact ⟨running.sound, seq, [], snapshot, running.log.advance order, torn_nil⟩

/-! ## Reading the log for a peer -/

/-- From the seq of its snapshot on, a shard has every later record to offer. -/
theorem recordsAfter_eq {history : History} {state : DurableShard G} {disk : Disk} {tail : Bytes}
    (short : history.length < 2 ^ 64) (inside : state.snapshotSeq ≤ history.length)
    (log : LogHolds history state.snapshotSeq disk.logged tail) (torn : Torn tail) {after : Nat}
    (reaches : state.snapshotSeq ≤ after) :
    state.recordsAfter after disk =
      .ok (some ((numbered (after + 1) (history.writes.drop after)).map Entry.record)) := by
  obtain ⟨entries, bytes, old, later⟩ := log.entries inside
  have read := readRecords_log
    (fun entry member => Nat.lt_of_le_of_lt (old entry member) short) torn
  rw [← bytes] at read
  have selected : (entries.map Entry.record).filter (fun record => after < record.seq) =
      (numbered (after + 1) (history.writes.drop after)).map Entry.record := by
    rw [List.filter_map, ← later after reaches]
    rfl
  simp only [DurableShard.recordsAfter, if_neg (Nat.not_lt_of_le reaches), read]
  exact congrArg (fun records => Except.ok (some records)) selected

/-- The seqs of those records follow each other. -/
theorem record_seqs (first : Nat) (writes : List Write) :
    ((numbered first writes).map Entry.record).map Record.seq = List.range' first writes.length := by
  rw [List.map_map, ← numbered_seqs]
  rfl

end VectorSearch
