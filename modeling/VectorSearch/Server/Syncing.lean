import VectorSearch.Server.Servicer
import VectorSearch.Storage.CrashPoints

namespace VectorSearch

/-!
# A replica that catches up

While a replica catches up, its peer goes on: between two answers it may take
writes, checkpoint and restart, and any stream may break.  The replica's
history grows along the peer's, and is a beginning of it at every point where
the process can stop, whichever of the two ways of copying is taken.
-/

open Program

variable {D G : Type} [LinearOrder D] (np : Numpy Float32Bits D G) (npz : Npz G)

/-! ## The peer -/

/-- A running replica: its history, its shard and its files. -/
structure Replica (G : Type) where
  history : History
  state : DurableShard G
  disk : Disk

def Replica.Alive (config : Config) (dim : Nat) (replica : Replica G) : Prop :=
  Running np npz config dim replica.history replica.state replica.disk

/-- What a replica may do between two answers. -/
inductive Replica.Moves (config : Config) (dim : Nat) : Replica G → Replica G → Prop
  | wrote {replica : Replica G} {write : Write} {payloads : List String} {seq : Option Nat}
      {state : DurableShard G} {disk : Disk} (given : write.Given payloads)
      (uniform : ∀ row ∈ write.vectors.rows, row.length = dim) (shaped : 0 < write.vectors.dim)
      (run : (DurableShard.addBatch np npz replica.state write.globalIds write.vectors payloads seq).run
        dataDirectory replica.disk = ⟨disk, state, none⟩) :
      Moves config dim replica ⟨replica.history.push write, state, disk⟩
  | checkpointed {replica : Replica G} {state : DurableShard G} {disk : Disk}
      (run : (DurableShard.checkpoint npz replica.state).run dataDirectory replica.disk =
        ⟨disk, state, none⟩) : Moves config dim replica ⟨replica.history, state, disk⟩
  | restarted {replica : Replica G} {state : DurableShard G} {disk : Disk}
      (run : (DurableShard.openShard np npz config replica.disk.abandoned).run dataDirectory
        replica.disk.abandoned = ⟨disk, some state, none⟩) :
      Moves config dim replica ⟨replica.history, state, disk⟩

/-- The vectors of every write have a dimension, as `Add` makes sure. -/
def History.Shaped (history : History) : Prop := ∀ write ∈ history.writes, 0 < write.vectors.dim

/-- What holds between a replica and its later self. -/
structure Replica.Grown (earlier later : Replica G) : Prop where
  begins : earlier.history.Begins later.history
  snapshot : earlier.state.snapshotSeq ≤ later.state.snapshotSeq

theorem Replica.Grown.refl (replica : Replica G) : replica.Grown replica :=
  ⟨.refl _, Nat.le_refl _⟩

theorem Replica.Grown.trans {first second third : Replica G} (front : first.Grown second)
    (back : second.Grown third) : first.Grown third :=
  ⟨front.begins.trans back.begins, Nat.le_trans front.snapshot back.snapshot⟩

/-- Reopening reads the snapshot that is in place. -/
theorem restarted_snapshotSeq {config : Config} {dim : Nat} {history : History}
    {state reopened : DurableShard G} {disk left : Disk}
    (running : Running np npz config dim history state disk)
    (run : (DurableShard.openShard np npz config disk.abandoned).run dataDirectory disk.abandoned =
      ⟨left, some reopened, none⟩) :
    Running np npz config dim history reopened left ∧ state.snapshotSeq ≤ reopened.snapshotSeq := by
  have recoverable := running.recoverable
  have abandoned : Recoverable np npz config dim history disk.abandoned :=
    ⟨recoverable.sound, recoverable.files⟩
  rcases open_recovers np npz abandoned with ⟨found, opened, complete, holds⟩
  rcases openShard_eq np npz abandoned with ⟨other, intact, program, _, _, _, snapshot, _⟩
  have same : found = other ∧ found = reopened := by
    rw [complete] at run
    cases run
    rw [program, finishOpening] at complete
    split at complete <;> cases complete <;> exact ⟨rfl, rfl⟩
  rcases same with ⟨rfl, rfl⟩
  have isLeft : opened = left := by
    rw [complete] at run
    cases run
    rfl
  rw [isLeft] at holds
  refine ⟨holds, ?_⟩
  rcases running.snapshot with ⟨seq, order, inPlace⟩
  rcases inPlace.load np npz running.sound with ⟨first, loadsFirst, _⟩
  rcases snapshot.load np npz running.sound with ⟨second, loadsSecond, _⟩
  have equal := Except.ok.inj (loadsFirst.symm.trans loadsSecond)
  rw [Prod.mk.injEq] at equal
  rw [← equal.2]
  exact order

theorem Replica.Moves.keeps {config : Config} {dim : Nat} {replica next : Replica G}
    (moves : Replica.Moves np npz config dim replica next) (alive : replica.Alive np npz config dim)
    (shaped : replica.history.Shaped) :
    next.Alive np npz config dim ∧ next.history.Shaped ∧ replica.Grown next := by
  cases moves with
  | @wrote write payloads seq state disk given uniform wide run =>
      rcases accepted_of_success np npz alive given uniform (by rw [run]) with ⟨inOrder, after, accepted⟩
      rcases addBatch_run np npz alive accepted given inOrder with ⟨reached, kept, complete, holds⟩
      rw [run] at complete
      cases complete
      refine ⟨holds, ?_, History.begins_push _ _, addBatch_snapshotSeq np npz alive accepted given inOrder run⟩
      intro other member
      rcases List.mem_append.mp member with old | new
      · exact shaped other old
      · rw [List.mem_singleton.mp new]
        exact wide
  | checkpointed run =>
      rcases checkpoint_run np npz alive with ⟨reached, complete, holds⟩
      rw [run] at complete
      cases complete
      refine ⟨holds, shaped, .refl _, ?_⟩
      have inside := Running.inside np npz alive
      rw [← Running.lastSeq alive] at inside
      exact inside
  | restarted run =>
      rcases restarted_snapshotSeq np npz alive run with ⟨holds, order⟩
      exact ⟨holds, shaped, .refl _, order⟩

/-! ## The peer's answers -/

/-- A peer over the time of one call: what it is when the call starts, and what
it is at each of its answers. -/
structure Timeline (config : Config) (dim : Nat) where
  at_ : Nat → Replica G
  alive : (at_ 0).Alive np npz config dim
  shaped : (at_ 0).history.Shaped
  moves : ∀ time, Relation.ReflTransGen (Replica.Moves np npz config dim) (at_ time) (at_ (time + 1))

namespace Timeline

variable {np npz} {config : Config} {dim : Nat} (peer : Timeline np npz config dim)

theorem steps {replica next : Replica G}
    (path : Relation.ReflTransGen (Replica.Moves np npz config dim) replica next)
    (alive : replica.Alive np npz config dim) (shaped : replica.history.Shaped) :
    next.Alive np npz config dim ∧ next.history.Shaped ∧ replica.Grown next := by
  induction path with
  | refl => exact ⟨alive, shaped, .refl _⟩
  | tail _ step inductionHypothesis =>
      rcases inductionHypothesis with ⟨middleAlive, middleShaped, grown⟩
      rcases step.keeps np npz middleAlive middleShaped with ⟨lastAlive, lastShaped, more⟩
      exact ⟨lastAlive, lastShaped, grown.trans more⟩

theorem sound (time : Nat) : (peer.at_ time).Alive np npz config dim ∧ (peer.at_ time).history.Shaped := by
  induction time with
  | zero => exact ⟨peer.alive, peer.shaped⟩
  | succ time inductionHypothesis =>
      have later := steps (peer.moves time) inductionHypothesis.1 inductionHypothesis.2
      exact ⟨later.1, later.2.1⟩

theorem grows (time : Nat) : (peer.at_ time).Grown (peer.at_ (time + 1)) :=
  (steps (peer.moves time) (peer.sound time).1 (peer.sound time).2).2.2

end Timeline

/-- The replies of the rounds are what arrives of the peer's answers.  In each
round it answers `FetchLog` first, and then, when asked, `FetchSnapshot`. -/
structure Answered {config : Config} {dim : Nat} (peer : Timeline np npz config dim)
    (replies : Nat → Replies) : Prop where
  log : ∀ round after,
    (ShardServicer.fetchLog (.durable (peer.at_ (2 * round + 1)).state)
      (peer.at_ (2 * round + 1)).disk after).Arrives
      ((replies round).log after)
  snapshot : ∀ round,
    (ShardServicer.fetchSnapshot npz (.durable (peer.at_ (2 * round + 2)).state)
      (peer.at_ (2 * round + 2)).disk).2.Arrives
      (replies round).snapshot

/-! ## Records on the wire -/

/-- The payloads of a write as they are sent. -/
theorem Write.given_sent (write : Write) :
    write.Given (if write.payloads.any (· != "") then write.payloads else []) := by
  by_cases some : write.payloads.any (· != "") = true
  · rw [if_pos some]
    exact DurableShard.given_self write
  · rw [if_neg some]
    have blank : ∀ text ∈ write.payloads, text = "" := by
      intro text member
      by_contra other
      exact some (List.any_eq_true.mpr ⟨text, member, bne_iff_ne.mpr other⟩)
    rw [Write.Given, Shard.payloadsOrEmpty, if_pos rfl, ← write.texts]
    exact (List.eq_replicate_of_mem blank).symm

/-- A record of the peer is applied as the write it was logged for. -/
theorem applyRecord_logRecord {write : Write} (shaped : 0 < write.vectors.dim) (state : DurableShard G)
    (seq : Nat) :
    DurableShard.applyRecord np npz state (ShardServicer.logRecord (write.record seq)) =
      DurableShard.addBatch np npz state write.globalIds write.vectors
        (if write.payloads.any (· != "") then write.payloads else []) (some seq) := by
  simp only [DurableShard.applyRecord, ShardServicer.logRecord, Write.record,
    write.vectors.reshape_ravel shaped]
  rfl

/-- The writes of a history as `FetchLog` sends them, the first under `first`. -/
def sentRecords (first : Nat) (writes : List Write) : List LogRecord :=
  ((numbered first writes).map Entry.record).map ShardServicer.logRecord

theorem sentRecords_prefix {first : Nat} {writes : List Write} {messages : List LogRecord}
    (cut : messages <+: sentRecords first writes) :
    ∃ front, front <+: writes ∧ messages = sentRecords first front := by
  refine ⟨writes.take messages.length, List.take_prefix _ _, ?_⟩
  have whole := List.prefix_iff_eq_take.mp cut
  rw [sentRecords, ← List.map_take, ← List.map_take, numbered_take] at whole
  exact whole

/-! ## Applying records -/

/-- The files of a replica as a part of the exchange. -/
theorem exchange_part (answered : Nat) :
    dataDirectory.Part exchange SyncOp.file (fun disk => ⟨disk, answered⟩) := by
  constructor
  · intro op disk
    rfl
  · rintro op disk left ⟨inner, torn, rfl⟩
    exact ⟨inner, rfl, torn⟩

/-- Records that continue the history are applied in order.  The induction is on
the records; at each of them the replica runs on a longer history. -/
theorem applyRecords_ensures {config : Config} {dim : Nat} {start : History} {answered : Nat}
    {good : Exchange → Prop} {post : Outcome Exchange (Syncing G) Error → Prop}
    {ended : Syncing G → Program SyncOp (Syncing G) Error} (rest : List Write) {history : History}
    {syncing : Syncing G} {disk : Disk} (sound : (history.extend rest).Sound np dim)
    (covers : ∀ reached left, start.Begins reached → reached.Begins (history.extend rest) →
      Recoverable np npz config dim reached left → good ⟨left, answered⟩)
    (shaped : ∀ write ∈ rest, 0 < write.vectors.dim) (front : start.Begins history)
    (running : Running np npz config dim history syncing.shard disk)
    (finish : ∀ (syncing : Syncing G) disk,
      Running np npz config dim (history.extend rest) syncing.shard disk →
      Ensures exchange good post (ended syncing) ⟨disk, answered⟩) :
    Ensures exchange good post
      (DurableShard.applyRecords np npz ended (sentRecords (history.length + 1) rest) syncing)
      ⟨disk, answered⟩ := by
  induction rest generalizing history syncing disk with
  | nil =>
      rw [History.extend_nil] at finish
      exact finish syncing disk running
  | cons write rest inductionHypothesis =>
      rw [← History.push_extend] at sound covers finish
      have next := History.begins_extend (history.push write) rest
      have old := History.begins_push history write
      rcases running.accepts np npz (sound.begins np next) with ⟨after, accepted⟩
      have seq : some (history.length + 1) = some (syncing.shard.lastSeq + 1) := by rw [running.lastSeq]
      have applied := addBatch_ensures np npz running accepted write.given_sent (Or.inr seq)
      simp only [sentRecords, numbered, List.map_cons, DurableShard.applyRecords, Entry.record,
        applyRecord_logRecord np npz (shaped write List.mem_cons_self)]
      apply Ensures.within (exchange_part answered) (applied.imp _ fun _ holds => holds)
      · rintro reached shard ⟨_, holds⟩
        have later := @inductionHypothesis (history.push write)
          { syncing with shard, applied := syncing.applied + 1 } reached sound covers
          (fun other member => shaped other (List.mem_cons_of_mem _ member)) (front.trans old) holds finish
        rw [History.length_push] at later
        exact later
      · rintro reached shard error ⟨impossible, _⟩
        cases impossible
      · rintro left (before | behind)
        · exact covers _ left front (old.trans next) before
        · exact covers _ left (front.trans old) next behind

/-! ## What the peer answers -/

/-- A peer sends everything behind the given seq, or has folded some of it into
its snapshot. -/
theorem fetchLog_answers {config : Config} {dim : Nat} {replica : Replica G}
    (alive : replica.Alive np npz config dim) (after : Nat) :
    ShardServicer.fetchLog (.durable replica.state) replica.disk after =
        ⟨sentRecords (after + 1) (replica.history.writes.drop after), none⟩ ∨
      after < replica.state.snapshotSeq ∧ ∃ details,
        ShardServicer.fetchLog (.durable replica.state) replica.disk after =
          ⟨[], some (.rpc .failedPrecondition details)⟩ := by
  rcases Nat.lt_or_ge after replica.state.snapshotSeq with folded | reaches
  · refine Or.inr ⟨folded,
      s!"log no longer reaches back to seq {after + 1}; " ++ "fetch the snapshot instead", ?_⟩
    simp only [ShardServicer.fetchLog, ShardServicer.requireDurable, ShardServicer.fetchLogDurable,
      DurableShard.recordsAfter, if_pos folded]
  · have records := recordsAfter_eq (Running.sound alive).short (Running.inside np npz alive)
      (Running.log alive) torn_nil reaches
    refine Or.inl ?_
    simp only [ShardServicer.fetchLog, ShardServicer.requireDurable, ShardServicer.fetchLogDurable, records]
    rfl

theorem SnapshotHolds.peer {params : HnswParams} {dim : Nat} {history : History} {seq : Nat} {data : Bytes}
    (sound : history.Sound np dim) (holds : SnapshotHolds np npz params history seq (some data)) :
    PeerSnapshot np npz dim (history.upTo seq) data := by
  generalize isFile : some data = file at holds
  cases holds with
  | absent same => cases isFile
  | @saved seq shard archive inside reached written =>
      have length : (history.upTo seq).length = seq := by
        simp only [History.length, History.upTo, List.length_take]
        exact Nat.min_eq_left inside
      refine ⟨sound.upTo np seq, shard, archive, reached, ?_, Option.some.inj isFile⟩
      rw [length]
      exact written

/-- A peer sends a snapshot that covers at least the seq it knows of. -/
theorem fetchSnapshot_answers {config : Config} {dim : Nat} {replica : Replica G}
    (alive : replica.Alive np npz config dim) :
    ∃ seq chunks, replica.state.snapshotSeq ≤ seq ∧ seq ≤ replica.history.length ∧
      (ShardServicer.fetchSnapshot npz (.durable replica.state) replica.disk).2 = ⟨chunks, none⟩ ∧
      PeerSnapshot np npz dim (replica.history.upTo seq) (chunks.flatMap SnapshotChunk.data) := by
  -- The handler runs on a shard that has a snapshot, or takes one first.
  have ensured : ∃ (state : DurableShard G) (disk : Disk) (data : Bytes),
      (DurableShard.ensureSnapshot npz replica.state replica.disk).run dataDirectory replica.disk =
        ⟨disk, state, none⟩ ∧ disk.snapshot = some data ∧
      replica.state.snapshotSeq ≤ state.snapshotSeq ∧
      Running np npz config dim replica.history state disk := by
    cases present : replica.disk.snapshot with
    | some data =>
        refine ⟨replica.state, replica.disk, data, ?_, present, Nat.le_refl _, alive⟩
        simp only [DurableShard.ensureSnapshot, present, Option.isNone_some, Bool.false_eq_true, if_false]
        rfl
    | none =>
        rcases Running.saves np npz alive with ⟨archive, saved, _⟩
        rcases checkpoint_run np npz alive with ⟨reached, complete, holds⟩
        have file : reached.snapshot = some (npz.savez archive) := by
          simp only [DurableShard.checkpoint, saved] at complete
          cases complete
          rfl
        refine ⟨_, reached, _, ?_, file, ?_, holds⟩
        · simp only [DurableShard.ensureSnapshot, present, Option.isNone_none, if_true]
          exact complete
        · have inside := Running.inside np npz alive
          rw [← Running.lastSeq alive] at inside
          exact inside
  rcases ensured with ⟨state, disk, data, complete, file, order, running⟩
  rcases running.snapshot with ⟨seq, covers, holds⟩
  have inside := holds.inside
  rw [file] at holds
  refine ⟨seq, (Chunks.chunks data ShardServicer.snapshotChunkBytes).map fun data => ⟨data, state.snapshotSeq⟩,
    Nat.le_trans order covers, inside, ?_, ?_⟩
  · simp only [ShardServicer.fetchSnapshot, ShardServicer.requireDurable,
      ShardServicer.fetchSnapshotDurable, complete, file]
    rfl
  · have whole : ((Chunks.chunks data ShardServicer.snapshotChunkBytes).map fun data =>
        (⟨data, state.snapshotSeq⟩ : SnapshotChunk)).flatMap SnapshotChunk.data = data := by
      rw [List.flatMap_map]
      exact List.flatMap_id'.trans (Chunks.flatten_chunks data (by decide))
    rw [whole]
    exact holds.peer np npz running.sound

/-! ## The loop -/

section Loop

variable {np npz} {config peerConfig : Config} {dim : Nat} (peer : Timeline np npz peerConfig dim)

/-- The files hold a history that continues the one the call started with and is
a beginning of the peer's at its latest answer. -/
def Behind (config : Config) (start : History) (world : Exchange) : Prop :=
  ∃ history : History, start.Begins history ∧ history.Begins (peer.at_ world.answered).history ∧
    Recoverable np npz config dim history world.disk

/-- The same of a process when the call ends; when it returns, nothing is missing. -/
def CaughtUp (config : Config) (start : History) (outcome : Outcome Exchange (Syncing G) Error) : Prop :=
  ∃ history : History, start.Begins history ∧
    history.Begins (peer.at_ outcome.world.answered).history ∧
    Running np npz config dim history outcome.memory.shard outcome.world.disk ∧
    (outcome.error = none → history = (peer.at_ outcome.world.answered).history)

variable {peer} {start history : History} {syncing : Syncing G} {disk : Disk}

theorem behind {answered : Nat} (front : start.Begins history)
    (back : history.Begins (peer.at_ answered).history)
    (recoverable : Recoverable np npz config dim history disk) :
    Behind peer config start ⟨disk, answered⟩ :=
  ⟨history, front, back, recoverable⟩

/-- Copying the snapshot of a peer that has folded the missing writes into it. -/
theorem copySnapshot_ensures {round : Nat} {chunks : Stream SnapshotChunk}
    {next : Syncing G → Program SyncOp (Syncing G) Error} (front : start.Begins history)
    (back : history.Begins (peer.at_ (2 * round + 1)).history)
    (running : Running np npz config dim history syncing.shard disk)
    (folded : history.length < (peer.at_ (2 * round + 1)).state.snapshotSeq)
    (arrives : (ShardServicer.fetchSnapshot npz (.durable (peer.at_ (2 * round + 2)).state)
      (peer.at_ (2 * round + 2)).disk).2.Arrives chunks)
    (rest : ∀ (history : History) (syncing : Syncing G) disk, start.Begins history →
      history.Begins (peer.at_ (2 * round + 2)).history →
      Running np npz config dim history syncing.shard disk →
      Ensures exchange (Behind peer config start) (CaughtUp peer config start) (next syncing)
        ⟨disk, 2 * round + 2⟩) :
    Ensures exchange (Behind peer config start) (CaughtUp peer config start)
      (DurableShard.copySnapshot np npz chunks next syncing) ⟨disk, 2 * round + 1⟩ := by
  have grown := peer.grows (2 * round + 1)
  have later := back.trans grown.begins
  apply Ensures.call
  · exact behind front back running.recoverable
  · intro left impossible
    cases impossible
  · rcases fetchSnapshot_answers np npz (peer.sound (2 * round + 2)).1 with
      ⟨seq, sent, covers, inside, answer, snapshot⟩
    rw [answer] at arrives
    cases arrives with
    | whole =>
        have length : ((peer.at_ (2 * round + 2)).history.upTo seq).length = seq := by
          simp only [History.length, History.upTo, List.length_take]
          exact Nat.min_eq_left inside
        have order : history.length ≤ ((peer.at_ (2 * round + 2)).history.upTo seq).length := by
          rw [length]
          exact Nat.le_of_lt (Nat.lt_of_lt_of_le folded (Nat.le_trans grown.snapshot covers))
        have continues := later.of_length_le (History.upTo_begins _ seq) order
        have installed := install_ensures np npz running snapshot order
        apply Ensures.within (exchange_part (2 * round + 2)) (installed.imp _ fun _ holds => holds)
        · rintro reached shard ⟨_, holds⟩
          exact rest _ _ reached (front.trans continues) (History.upTo_begins _ _) holds
        · rintro reached shard error ⟨impossible, _⟩
          cases impossible
        · rintro left (old | new)
          · exact behind front later old
          · exact behind (front.trans continues) (History.upTo_begins _ _) new
    | broken details cut transport =>
        apply Ensures.raised
        · exact behind front later running.recoverable
        · exact ⟨history, front, later, running, fun impossible => absurd impossible (Option.some_ne_none _)⟩

/-- Applying the records that arrived, which may be fewer than were sent. -/
theorem applyArrived_ensures {time : Nat} {rest : List Write}
    {ended : Syncing G → Program SyncOp (Syncing G) Error} (front : start.Begins history)
    (back : history.Begins (peer.at_ time).history)
    (cut : rest <+: (peer.at_ time).history.writes.drop history.length)
    (running : Running np npz config dim history syncing.shard disk)
    (finish : ∀ (syncing : Syncing G) disk, start.Begins (history.extend rest) →
      (history.extend rest).Begins (peer.at_ time).history →
      Running np npz config dim (history.extend rest) syncing.shard disk →
      Ensures exchange (Behind peer config start) (CaughtUp peer config start) (ended syncing)
        ⟨disk, time⟩) :
    Ensures exchange (Behind peer config start) (CaughtUp peer config start)
      (DurableShard.applyRecords np npz ended (sentRecords (history.length + 1) rest) syncing)
      ⟨disk, time⟩ := by
  have begins := back.extend cut
  apply applyRecords_ensures np npz rest ((Running.sound (peer.sound time).1).begins np begins)
  · intro reached left reaches inside holds
    exact behind reaches (inside.trans begins) holds
  · intro write member
    exact (peer.sound time).2 write (List.mem_of_mem_drop (cut.subset member))
  · exact front
  · exact running
  · intro syncing disk holds
    exact finish syncing disk (front.trans (History.begins_extend history rest)) begins holds

/-- An error of the transport ends the call where the records break off. -/
theorem brokenRound_ensures {time : Nat} {rest : List Write} {replies : Replies} {code : StatusCode}
    {details : String} {next : Syncing G → Program SyncOp (Syncing G) Error} (front : start.Begins history)
    (back : history.Begins (peer.at_ time).history)
    (cut : rest <+: (peer.at_ time).history.writes.drop history.length)
    (running : Running np npz config dim history syncing.shard disk) (transport : code ≠ .failedPrecondition) :
    Ensures exchange (Behind peer config start) (CaughtUp peer config start)
      (DurableShard.applyRecords np npz
        (DurableShard.streamEnded np npz replies next (some (.rpc code details)))
        (sentRecords (history.length + 1) rest) syncing) ⟨disk, time⟩ := by
  apply applyArrived_ensures front back cut running
  intro syncing disk longer begins holds
  have other : Error.isFailedPrecondition (.rpc code details) = false := beq_eq_false_iff_ne.mpr transport
  simp only [DurableShard.streamEnded, other, Bool.false_eq_true, if_false]
  apply Ensures.raised
  · exact behind longer begins holds.recoverable
  · exact ⟨_, longer, begins, holds, fun impossible => nomatch impossible⟩

/-- The loop from one round on.  The induction is on the rounds that are left. -/
theorem catchUpLoop_ensures {replies : Nat → Replies} (answered : Answered np npz peer replies)
    (exhausted : Error) (rounds round : Nat) (front : start.Begins history)
    (back : history.Begins (peer.at_ (2 * round)).history)
    (running : Running np npz config dim history syncing.shard disk) :
    Ensures exchange (Behind peer config start) (CaughtUp peer config start)
      (DurableShard.catchUpLoop np npz exhausted ((List.range' round rounds).map replies) syncing)
      ⟨disk, 2 * round⟩ := by
  induction rounds generalizing round history syncing disk with
  | zero =>
      apply Ensures.raised
      · exact behind front back running.recoverable
      · exact ⟨history, front, back, running, fun impossible => nomatch impossible⟩
  | succ rounds inductionHypothesis =>
      have later := back.trans (peer.grows (2 * round)).begins
      have fresh : Running np npz config dim history ({ syncing with applied := 0 } : Syncing G).shard disk :=
        running
      have arrives := answered.log round syncing.shard.lastSeq
      rw [running.lastSeq] at arrives
      rw [List.range'_succ, List.map_cons, DurableShard.catchUpLoop, running.lastSeq]
      apply Ensures.call
      · exact behind front back running.recoverable
      · intro left impossible
        cases impossible
      · rcases fetchLog_answers np npz (peer.sound (2 * round + 1)).1 history.length with
          sends | ⟨folded, details, refuses⟩
        · rw [sends] at arrives
          generalize (replies round).log history.length = records at arrives
          cases arrives with
          | whole =>
              apply applyArrived_ensures front later List.prefix_rfl fresh
              intro syncing disk longer begins holds
              apply Ensures.done
              · exact behind longer begins holds.recoverable
              · exact ⟨_, longer, begins, holds, fun _ => later.extend_drop⟩
          | broken details cut transport =>
              rcases sentRecords_prefix cut with ⟨rest, beginning, rfl⟩
              exact brokenRound_ensures front later beginning fresh transport
        · rw [refuses] at arrives
          generalize (replies round).log history.length = records at arrives
          cases arrives with
          | whole =>
              apply copySnapshot_ensures front later fresh folded (answered.snapshot round)
              intro history syncing disk front back running
              exact inductionHypothesis (round + 1) front back running
          | broken details cut transport =>
              rw [List.prefix_nil.mp cut]
              exact brokenRound_ensures front later List.nil_prefix fresh transport

end Loop

end VectorSearch
