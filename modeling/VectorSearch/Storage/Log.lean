import VectorSearch.Storage.History

namespace VectorSearch

/-!
# The log of a history

A log is a sequence of entries, each a write under its seq.  Opening a shard
reads the entries that were written completely and applies those behind the
snapshot, so what a log must hold is told by the seqs alone.
-/

/-- A write and the seq it is logged under. -/
abbrev Entry := Nat × Write

namespace Entry

def body (entry : Entry) : Bytes := entry.2.body entry.1

def record (entry : Entry) : Record := entry.2.record entry.1

end Entry

/-- The bytes of a log with the given entries. -/
def logBytes (entries : List Entry) : Bytes :=
  FramedLog.write crc32 (entries.map Entry.body)

theorem logBytes_append (first second : List Entry) :
    logBytes (first ++ second) = logBytes first ++ logBytes second := by
  rw [logBytes, List.map_append, FramedLog.write_append]
  rfl

theorem logBytes_singleton (entry : Entry) :
    logBytes [entry] = FramedLog.frame crc32 entry.body :=
  FramedLog.write_singleton crc32 entry.body

/-- Writes under consecutive seqs. -/
def numbered (first : Nat) : List Write → List Entry
  | [] => []
  | write :: rest => (first, write) :: numbered (first + 1) rest

theorem numbered_append (first : Nat) (front back : List Write) :
    numbered first (front ++ back) =
      numbered first front ++ numbered (first + front.length) back := by
  induction front generalizing first with
  | nil => rfl
  | cons write rest inductionHypothesis =>
      simp only [List.cons_append, numbered, inductionHypothesis, List.length_cons]
      rw [Nat.add_assoc, Nat.add_comm 1]

theorem numbered_split (first count : Nat) (writes : List Write) (inside : count ≤ writes.length) :
    numbered first writes =
      numbered first (writes.take count) ++ numbered (first + count) (writes.drop count) := by
  have whole := numbered_append first (writes.take count) (writes.drop count)
  rw [List.take_append_drop, List.length_take, Nat.min_eq_left inside] at whole
  exact whole

theorem seq_of_mem_numbered {first : Nat} {writes : List Write} {entry : Entry}
    (member : entry ∈ numbered first writes) :
    first ≤ entry.1 ∧ entry.1 < first + writes.length := by
  induction writes generalizing first with
  | nil => cases member
  | cons write rest inductionHypothesis =>
      rcases List.mem_cons.mp member with here | later
      · rw [here, List.length_cons]
        exact ⟨Nat.le_refl _, Nat.lt_add_of_pos_right (Nat.succ_pos _)⟩
      · have bounds := inductionHypothesis later
        rw [List.length_cons]
        omega

/-- Every seq of the range occurs. -/
theorem numbered_seqs (first : Nat) (writes : List Write) :
    (numbered first writes).map Prod.fst = List.range' first writes.length := by
  induction writes generalizing first with
  | nil => rfl
  | cons write rest inductionHypothesis =>
      simp only [numbered, List.map_cons, inductionHypothesis, List.length_cons,
        List.range'_succ]

theorem numbered_take (first count : Nat) (writes : List Write) :
    (numbered first writes).take count = numbered first (writes.take count) := by
  induction writes generalizing first count with
  | nil => simp only [List.take_nil, numbered]
  | cons write rest inductionHypothesis =>
      cases count with
      | zero => rfl
      | succ count => simp only [numbered, List.take_succ_cons, inductionHypothesis]

/-! ## Reading -/

theorem logFormat_decode : logFormat.decode = decodeBody := rfl

theorem carries_entries {entries : List Entry} (short : ∀ entry ∈ entries, entry.1 < 2 ^ 64) :
    FramedLog.Carries logFormat (entries.map Entry.body) (entries.map Entry.record) := by
  induction entries with
  | nil => exact .nil
  | cons entry rest inductionHypothesis =>
      have decoded : logFormat.decode entry.body = .ok (some entry.record) := by
        rw [logFormat_decode]
        exact entry.2.decodeBody_body entry.1 (short entry List.mem_cons_self)
      have later := inductionHypothesis fun other member =>
        short other (List.mem_cons_of_mem _ member)
      exact FramedLog.Carries.cons (entry.2.body_fits entry.1) decoded later

/-- Bytes that cannot be mistaken for a record: a record's frame cut short. -/
def Torn (tail : Bytes) : Prop :=
  ∃ body : Bytes, body.length < 2 ^ 32 ∧ tail <+: FramedLog.frame crc32 body ∧
    tail.length < (FramedLog.frame crc32 body).length

theorem torn_nil : Torn [] := by
  refine ⟨[], by decide, List.nil_prefix, ?_⟩
  rw [FramedLog.frame_length]
  decide

/-- A prefix of an entry's frame is torn or the whole frame. -/
theorem torn_or_whole (entry : Entry) {part : Bytes} (cut : part <+: FramedLog.frame crc32 entry.body) :
    Torn part ∨ part = FramedLog.frame crc32 entry.body := by
  rcases Nat.lt_or_ge part.length (FramedLog.frame crc32 entry.body).length with shorter | whole
  · exact Or.inl ⟨entry.body, entry.2.body_fits entry.1, cut, shorter⟩
  · exact Or.inr (cut.eq_of_length_le whole)

/-- The complete entries are read, and nothing of a torn tail. -/
theorem readRecords_log {entries : List Entry} (short : ∀ entry ∈ entries, entry.1 < 2 ^ 64)
    {tail : Bytes} (torn : Torn tail) :
    readRecords (logBytes entries ++ tail) =
      .ok (entries.map Entry.record, (logBytes entries).length) := by
  obtain ⟨body, fits, cut, proper⟩ := torn
  exact FramedLog.read_write_torn logFormat (carries_entries short) body tail fits cut proper

/-! ## Replaying -/

namespace DurableShard

variable {D G : Type} [LinearOrder D] (np : Numpy Float32Bits D G)

/-- Entries a snapshot already covers are skipped. -/
theorem replay_covered (state : DurableShard G) (entries : List Entry)
    (covered : ∀ entry ∈ entries, entry.1 ≤ state.lastSeq) :
    (entries.map Entry.record).foldlM (replayRecord np) state = .ok state := by
  induction entries with
  | nil => rfl
  | cons entry rest inductionHypothesis =>
      have skipped : replayRecord np state entry.record = .ok state :=
        if_pos (covered entry List.mem_cons_self)
      simp only [List.map_cons, List.foldlM_cons, skipped]
      exact inductionHypothesis fun other member => covered other (List.mem_cons_of_mem _ member)

theorem given_self (write : Write) : write.Given write.payloads := by
  unfold Write.Given Shard.payloadsOrEmpty
  split
  · rename_i none
    rw [none, ← write.texts, none]
    rfl
  · rfl

/-- The next entry of the log is applied. -/
theorem replayRecord_next {state : DurableShard G} {write : Write}
    {after : Contents Float32Bits G} (applied : state.shard.contents.apply np write = some after) :
    replayRecord np state (write.record (state.lastSeq + 1)) =
      .ok { state with
        shard := state.shard.withContents after
        lastSeq := state.lastSeq + 1
        replayedRecords := state.replayedRecords + 1
        vectorsSinceSnapshot := state.vectorsSinceSnapshot + write.globalIds.length } := by
  have new : ¬ state.lastSeq + 1 ≤ state.lastSeq := Nat.not_succ_le_self _
  simp only [replayRecord, Write.record, if_neg new, ne_eq, not_true_eq_false, if_false,
    Shard.addBatch_apply np (given_self write) applied]

/-- Entries that continue the snapshot are applied in order, once each. -/
theorem replay_numbered (state : DurableShard G) (writes : List Write) {after : Contents Float32Bits G}
    (applied : state.shard.contents.applyAll np writes = some after) :
    ∃ reached : DurableShard G,
      ((numbered (state.lastSeq + 1) writes).map Entry.record).foldlM (replayRecord np) state =
        .ok reached ∧ reached.shard.contents = after ∧
      reached.lastSeq = state.lastSeq + writes.length ∧
      reached.snapshotSeq = state.snapshotSeq ∧ reached.config = state.config := by
  induction writes generalizing state with
  | nil =>
      cases applied
      exact ⟨state, rfl, rfl, rfl, rfl, rfl⟩
  | cons write rest inductionHypothesis =>
      simp only [Contents.applyAll, List.foldlM_cons] at applied
      cases first : state.shard.contents.apply np write with
      | none => rw [first] at applied; cases applied
      | some middle =>
          rw [first] at applied
          have step := replayRecord_next np first
          obtain ⟨reached, replayed, contents, lastSeq, snapshotSeq, config⟩ :=
            inductionHypothesis
              { state with
                shard := state.shard.withContents middle
                lastSeq := state.lastSeq + 1
                replayedRecords := state.replayedRecords + 1
                vectorsSinceSnapshot := state.vectorsSinceSnapshot + write.globalIds.length }
              applied
          refine ⟨reached, ?_, contents, ?_, snapshotSeq, config⟩
          · simp only [numbered, List.map_cons, List.foldlM_cons, Entry.record, step]
            exact replayed
          · rw [lastSeq, List.length_cons, Nat.add_assoc, Nat.add_comm 1]

end DurableShard
end VectorSearch
