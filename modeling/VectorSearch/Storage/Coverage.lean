import VectorSearch.Storage.Runs

namespace VectorSearch

/-!
# What the log covers

A replica that is behind asks for the records after its own seq.  At every point
of a run the log holds all of them, as far as the snapshot does not.
-/

open Program

variable {D G : Type} [LinearOrder D] (np : Numpy Float32Bits D G) (npz : Npz G)

/-- A shard and files that offer every write the snapshot does not cover. -/
structure OffersRest (history : History) (state : DurableShard G) (disk : Disk) : Prop where
  contents : history.replay np = some state.shard.contents
  lastSeq : state.lastSeq = history.length
  inside : state.snapshotSeq ≤ state.lastSeq
  /-- What the snapshot covers may be gone from the log. -/
  folded : ∀ after, state.recordsAfter after disk = .ok none ↔ after < state.snapshotSeq
  /-- The rest is there, each record once, in order and with what was written. -/
  offered : ∀ after, state.snapshotSeq ≤ after → ∃ records,
    state.recordsAfter after disk = .ok (some records) ∧
    records.map Record.seq = List.range' (after + 1) (state.lastSeq - after) ∧
    ∀ i record, records[i]? = some record →
      ∃ write, history.writes[after + i]? = some write ∧ record = write.record (after + 1 + i)

theorem numbered_get {first i : Nat} {writes : List Write} {record : Record}
    (found : ((numbered first writes).map Entry.record)[i]? = some record) :
    ∃ write, writes[i]? = some write ∧ record = write.record (first + i) := by
  induction writes generalizing first i with
  | nil => cases found
  | cons write rest inductionHypothesis =>
      cases i with
      | zero =>
          cases found
          exact ⟨write, rfl, rfl⟩
      | succ i =>
          have next : ((numbered (first + 1) rest).map Entry.record)[i]? = some record := found
          rcases inductionHypothesis next with ⟨later, isLater, isRecord⟩
          rw [Nat.add_right_comm] at isRecord
          exact ⟨later, isLater, isRecord⟩

theorem Running.offersRest {config : Config} {dim : Nat} {history : History} {state : DurableShard G}
    {disk : Disk} (running : Running np npz config dim history state disk) :
    OffersRest np history state disk := by
  have inside := running.inside np npz
  have reads : ∀ after, state.snapshotSeq ≤ after → state.recordsAfter after disk =
      .ok (some ((numbered (after + 1) (history.writes.drop after)).map Entry.record)) := fun after reaches =>
    recordsAfter_eq running.sound.short inside running.log torn_nil reaches
  refine ⟨running.contents, running.lastSeq, ?_, ?_, ?_⟩
  · rw [running.lastSeq]
    exact inside
  · intro after
    constructor
    · intro refused
      by_contra reaches
      rw [reads after (Nat.le_of_not_lt reaches)] at refused
      cases refused
    · exact fun before => if_pos before
  · intro after reaches
    refine ⟨_, reads after reaches, ?_, ?_⟩
    · rw [record_seqs, List.length_drop, running.lastSeq]
      rfl
    · intro i record found
      rcases numbered_get found with ⟨write, isWrite, isRecord⟩
      rw [List.getElem?_drop] at isWrite
      exact ⟨write, isWrite, isRecord⟩

/-- An exception has no explanation. -/
theorem Explains.not_raised {params : HnswParams} {events : List (Event G)} {history : History}
    (explained : Explains np params events history) (error : Error) : Event.raised error ∉ events := by
  induction explained with
  | start => exact List.not_mem_nil
  | wrote _ _ inductionHypothesis
  | lost _ _ inductionHypothesis
  | kept _ _ inductionHypothesis
  | installed _ _ inductionHypothesis
  | notInstalled _ _ inductionHypothesis
  | installedLate _ _ inductionHypothesis
  | recovered _ _ inductionHypothesis =>
      intro member
      rcases List.mem_append.mp member with earlier | last
      · exact inductionHypothesis earlier
      · cases List.mem_singleton.mp last

/-- Whatever the calls and wherever the process dies: the log holds exactly what
the snapshot does not cover, and no opening finds a gap in it. -/
theorem log_covers_rest {config : Config} {dim : Nat} (positive : 0 < dim) {events : List (Event G)}
    {node : Node G} (run : Run np npz config dim events node) :
    (∀ error, Event.raised error ∉ events) ∧
      ∃ history, Explains np config.params events history ∧
        match node.process with
        | some state => OffersRest np history state node.disk
        | none => ∃ (state : DurableShard G) (opened : Disk),
            (DurableShard.openShard np npz config node.disk).run dataDirectory node.disk =
              ⟨opened, some state, none⟩ ∧ OffersRest np history state opened := by
  rcases run_explained np npz positive run with ⟨history, explained, holds⟩
  refine ⟨explained.not_raised np, history, explained, ?_⟩
  rcases node with ⟨disk, process⟩
  cases process with
  | some state => exact Running.offersRest np npz holds
  | none =>
      rcases open_recovers np npz holds with ⟨state, opened, complete, running⟩
      exact ⟨state, opened, complete, running.offersRest np npz⟩

/-- One write, and the process is alive. -/
theorem log_covers_rest_axis :
    ∃ events state disk, Run smallNumpy smallNpz smallConfig 2 events ⟨disk, some state⟩ ∧
      (∀ error, Event.raised error ∉ events) ∧
      ∃ history, Explains smallNumpy smallConfig.params events history ∧
        OffersRest smallNumpy history state disk := by
  have opened : Step smallNumpy smallNpz smallConfig 2 ⟨Disk.empty, none⟩
      [.recovered emptyShard.shard.contents 0] ⟨emptyLog, some emptyShard⟩ := .opened rfl
  have wrote : Step smallNumpy smallNpz smallConfig 2 ⟨emptyLog, some emptyShard⟩
      [.wrote axisWrite] ⟨axisOutcome.world, some axisOutcome.memory⟩ :=
    .ended (.addBatch axisWrite [] none) ⟨rfl, by decide, rfl⟩ rfl
  have run := Run.step (Run.step .start opened) wrote
  exact ⟨_, _, _, run, log_covers_rest smallNumpy smallNpz (by decide) run⟩

end VectorSearch
