import VectorSearch.Index.Twins
import VectorSearch.Server.AllOrNothing
import VectorSearch.Server.Syncing

namespace VectorSearch

/-!
# The cache of a server

Whatever a server does, with writes that are taken or refused, searches that
return or raise, snapshots, copies and restarts, the payload index of its shard
has read some of the payloads and recorded nothing else, and the beam width is
the one the server was started with.  So its answers depend on what it stores
alone.
-/

open Stateful Program

namespace Shard

variable {F D G : Type}

/-- The beam width, and a payload index that is right as far as it has read. -/
structure Caching (efSearch : Nat) (shard : Shard F G) : Prop where
  width : shard.index.efSearch = efSearch
  indexed : (∀ text ∈ shard.payloads, Readable text) → PayloadIndex.Indexed shard.payloads shard.payloadIndex

variable {efSearch : Nat} {shard : Shard F G}

theorem init_caching (np : Numpy F D G) {params : HnswParams} (given : params.efSearch = some efSearch) :
    (Shard.init np params : Shard F G).Caching efSearch := by
  refine ⟨?_, fun _ => PayloadIndex.init_indexed⟩
  change params.efSearch.getD defaultEfSearch = efSearch
  rw [given]
  rfl

theorem catchUpIndex_caching : Maintains (Caching efSearch) (catchUpIndex : Searching F G Unit) := by
  intro shard caching
  refine ⟨?_, fun readable => ?_⟩
  · unfold final catchUpIndex
    cases PayloadIndex.catchUp shard.payloads shard.payloadIndex with
    | ok value payloadIndex => exact caching.width
    | error error payloadIndex => exact caching.width
  · have texts : (final catchUpIndex shard).payloads = shard.payloads :=
      congrArg Contents.payloads (catchUpIndex_maintains shard.contents shard rfl)
    rw [texts] at readable ⊢
    rcases PayloadIndex.catchUp_returns readable (caching.indexed readable) with ⟨next, run, _, indexed⟩
    unfold final catchUpIndex
    rw [run]
    exact indexed

variable [LinearOrder D] (np : Numpy F D G)

theorem add_caching (globalId : Int) (vector : List F) (text : String) :
    Maintains (Caching efSearch) (add np globalId vector text : EStateM Error (Shard F G) Unit) := by
  intro shard caching
  unfold final add
  cases HNSW.insert np vector shard.index.toGraph with
  | ok value graph =>
      refine ⟨caching.width, fun readable => ?_⟩
      exact (caching.indexed fun text member => readable text (List.mem_append_left _ member)).append [text]
  | error error graph => exact ⟨caching.width, caching.indexed⟩

theorem addAll_caching (items : List (Int × List F × String)) :
    Maintains (Caching efSearch) (addAll np items : EStateM Error (Shard F G) Unit) := by
  induction items with
  | nil => exact Maintains.pure ()
  | cons item rest inductionHypothesis =>
      exact Maintains.bind (add_caching np item.1 item.2.1 item.2.2) fun _ => inductionHypothesis

end Shard

namespace DurableShard

variable {D G : Type} (np : Numpy Float32Bits D G) (npz : Npz G) {efSearch : Nat} {state : DurableShard G}

/-- A shard that is loaded with a beam width has it. -/
theorem loadSnapshot_caching {data : Bytes} {loaded : Shard Float32Bits G × Nat}
    (given : loadSnapshot np npz (some efSearch) data = .ok loaded) : loaded.1.Caching efSearch := by
  rcases gave_bind given with ⟨archive, _, built⟩
  unfold loadArchive at built
  dsimp only at built
  split at built
  · cases built
  · rcases gave_bind built with ⟨graph, _, later⟩
    rcases gave_bind later with ⟨payloads, _, isLoaded⟩
    rw [← Except.ok.inj isLoaded]
    exact ⟨rfl, fun _ => PayloadIndex.init_indexed.append payloads⟩

theorem checkpoint_leaves {good : DurableShard G → Prop}
    (kept : ∀ snapshotSeq vectorsSinceSnapshot, good { state with snapshotSeq, vectorsSinceSnapshot })
    (here : good state) :
    (checkpoint npz state).Leaves good := by
  unfold checkpoint
  split
  · exact here
  · exact kept _ _

variable [LinearOrder D]

/-- A batch, taken or not. -/
theorem addBatch_caching (globalIds : List Int) (vectors : List (List Float32Bits)) (payloads : List String) :
    Maintains (Shard.Caching efSearch)
      (Shard.addBatch np globalIds vectors payloads : EStateM Error (Shard Float32Bits G) Unit) :=
  Shard.addAll_caching np _

theorem replayRecord_caching {record : Record} {next : DurableShard G} (caching : state.shard.Caching efSearch)
    (replayed : replayRecord np state record = .ok next) : next.shard.Caching efSearch := by
  unfold replayRecord at replayed
  split at replayed
  · rw [← Except.ok.inj replayed]
    exact caching
  · split at replayed
    · cases replayed
    · have kept := addBatch_caching np record.globalIds record.vectors.rows record.payloads state.shard caching
      unfold final at kept
      cases ran : Shard.addBatch np record.globalIds record.vectors.rows record.payloads state.shard with
      | error error shard =>
          rw [ran] at replayed
          cases replayed
      | ok value shard =>
          rw [ran] at replayed kept
          rw [← Except.ok.inj replayed]
          exact kept

theorem replayLog_caching (records : List Record) (caching : state.shard.Caching efSearch) :
    (replayLog np state records).Leaves fun opened => ∀ state, opened = some state →
      state.shard.Caching efSearch := by
  suffices folded : ∀ last, records.foldlM (replayRecord np) state = .ok last → last.shard.Caching efSearch by
    unfold replayLog
    cases given : records.foldlM (replayRecord np) state with
    | error error => exact fun _ impossible => by cases impossible
    | ok last =>
        rintro _ ⟨⟩
        exact folded last given
  induction records generalizing state with
  | nil =>
      intro last given
      rw [← Except.ok.inj given]
      exact caching
  | cons record rest inductionHypothesis =>
      intro last given
      rcases gave_bind given with ⟨next, replayed, later⟩
      exact inductionHypothesis (replayRecord_caching np caching replayed) last later

theorem openShard_caching {config : Config} (given : config.params.efSearch = some efSearch) (disk : Disk) :
    (openShard np npz config disk).Leaves fun opened => ∀ state, opened = some state →
      state.shard.Caching efSearch := by
  unfold openShard
  cases isLoaded : loadOrInit np npz config disk.snapshot with
  | error error => exact fun _ impossible => by cases impossible
  | ok loaded =>
      have start : loaded.1.Caching efSearch := by
        unfold loadOrInit at isLoaded
        split at isLoaded
        · rw [given] at isLoaded
          exact loadSnapshot_caching np npz isLoaded
        · rw [← Except.ok.inj isLoaded]
          exact Shard.init_caching np given
      cases readRecords disk.logged with
      | error error => exact fun _ impossible => by cases impossible
      | ok read =>
          have replays : (replayLog np (DurableShard.loaded config loaded.1 loaded.2) read.1).Leaves _ :=
            replayLog_caching np read.1 start
          dsimp only
          split
          · exact replays
          · exact replays

theorem addBatch_leaves (caching : state.shard.Caching efSearch) (globalIds : List Int)
    (vectors : Matrix Float32Bits) (payloads : List String) (seq : Option Nat) :
    (addBatch np npz state globalIds vectors payloads seq).Leaves fun state =>
      state.shard.Caching efSearch := by
  unfold addBatch
  dsimp only
  split
  · exact caching
  · split
    · exact caching
    · have applied : (applyLogged np npz state globalIds vectors payloads).Leaves fun state =>
        state.shard.Caching efSearch := by
        have kept := addBatch_caching np globalIds vectors.rows payloads state.shard caching
        unfold final at kept
        unfold applyLogged
        split
        · rename_i ran
          rw [ran] at kept
          exact kept
        · rename_i ran
          rw [ran] at kept
          dsimp only
          split
          · exact checkpoint_leaves npz (fun _ _ => kept) kept
          · exact kept
      unfold appendRecord
      unfold Program.Leaves
      split
      · exact applied
      · exact applied

omit [LinearOrder D] in
theorem installSnapshot_leaves (caching : state.shard.Caching efSearch) (data : Bytes) :
    (installSnapshot np npz state data).Leaves fun state => state.shard.Caching efSearch := by
  unfold installSnapshot replaceSnapshot resetLog
  simp only [Program.Leaves]
  split
  · exact caching
  · rename_i isLoaded
    rw [caching.width] at isLoaded
    exact loadSnapshot_caching np npz isLoaded

/-! ## Copies -/

theorem applyRecord_leaves (caching : state.shard.Caching efSearch) (record : LogRecord) :
    (applyRecord np npz state record).Leaves fun state => state.shard.Caching efSearch := by
  unfold applyRecord
  split
  · exact caching
  · exact addBatch_leaves np npz caching _ _ _ _

variable {syncing : Syncing G}

theorem applyRecords_leaves {ended : Syncing G → Program SyncOp (Syncing G) Error}
    (ends : ∀ syncing, syncing.shard.shard.Caching efSearch → (ended syncing).Leaves fun syncing =>
      syncing.shard.shard.Caching efSearch)
    (records : List LogRecord) (caching : syncing.shard.shard.Caching efSearch) :
    (applyRecords np npz ended records syncing).Leaves fun syncing => syncing.shard.shard.Caching efSearch := by
  induction records generalizing syncing with
  | nil => exact ends syncing caching
  | cons record rest inductionHypothesis =>
      exact (applyRecord_leaves np npz caching record).within (fun _ kept => inductionHypothesis kept)
        fun _ _ kept => kept

omit [LinearOrder D] in
theorem copySnapshot_leaves {next : Syncing G → Program SyncOp (Syncing G) Error}
    (chunks : Stream SnapshotChunk)
    (goes : ∀ syncing, syncing.shard.shard.Caching efSearch → (next syncing).Leaves fun syncing =>
      syncing.shard.shard.Caching efSearch)
    (caching : syncing.shard.shard.Caching efSearch) :
    (copySnapshot np npz chunks next syncing).Leaves fun syncing => syncing.shard.shard.Caching efSearch := by
  unfold copySnapshot
  simp only [Program.Leaves]
  split
  · exact caching
  · exact (installSnapshot_leaves np npz caching _).within (fun _ kept => goes _ kept) fun _ _ kept => kept

theorem catchUpLoop_leaves (exhausted : Error) (replies : List Replies)
    (caching : syncing.shard.shard.Caching efSearch) :
    (catchUpLoop np npz exhausted replies syncing).Leaves fun syncing =>
      syncing.shard.shard.Caching efSearch := by
  induction replies generalizing syncing with
  | nil => exact caching
  | cons first later inductionHypothesis =>
      refine applyRecords_leaves np npz (fun syncing caching => ?_) _ caching
      unfold streamEnded
      split
      · exact caching
      · split
        · exact copySnapshot_leaves np npz _ (fun _ kept => inductionHypothesis kept) caching
        · exact caching

end DurableShard

/-! ## Servers -/

section Servers

variable {D G : Type} [LinearOrder D] (np : Numpy Float32Bits D G) (npz : Npz G) {efSearch : Nat}
  {state : DurableShard G}

namespace ShardServicer

theorem syncFrom_leaves (caching : state.shard.Caching efSearch) (peer : String) (replies : Nat → Replies) :
    (syncFromDurable np npz state peer replies).Leaves fun syncing => syncing.shard.shard.Caching efSearch := by
  unfold syncFromDurable DurableShard.catchUp
  apply Leaves.mapError
  apply DurableShard.catchUpLoop_leaves
  exact caching

theorem addDurable_leaves (caching : state.shard.Caching efSearch) (request : AddRequest) :
    (addDurable np npz state request).Leaves fun state => state.shard.Caching efSearch := by
  unfold addDurable
  split
  · exact caching
  · split
    · exact DurableShard.addBatch_leaves np npz caching _ _ _ _
    · exact (DurableShard.addBatch_leaves np npz caching _ _ _ _).mapError

theorem search_caching (request : SearchRequest) :
    Maintains (Shard.Caching efSearch) (search np request : Shard.Searching Float32Bits G
      (List (HitMessage D))) := by
  unfold search
  split
  · exact Maintains.throw _
  · split
    · exact Maintains.bind (Shard.searchWithPayloads_maintains np Shard.catchUpIndex_caching _ _ _)
        fun _ => Maintains.pure _
    · exact Maintains.bind (Shard.search_maintains np Shard.catchUpIndex_caching _ _ _) fun _ =>
        Maintains.pure _

omit [LinearOrder D] in
theorem decodeFilter_normal {text : String} {filter : Option Filter}
    (decoded : decodeFilter text = .ok filter) :
    ∀ wanted, filter = some wanted → wanted.Normal := by
  rintro wanted rfl
  unfold decodeFilter at decoded
  split at decoded
  · cases decoded
  · split at decoded
    · cases decoded
    · exact normalizeFilter_normal decoded

/-- Servers that store the same answer alike. -/
theorem search_couples (request : SearchRequest) :
    Couples Shard.Twins (search np request : Shard.Searching Float32Bits G (List (HitMessage D)))
      (search np request) := by
  unfold search
  cases decoded : decodeFilter request.filter with
  | error error => exact Couples.throw _
  | ok filter =>
      have normal := decodeFilter_normal decoded
      dsimp only
      split
      · exact Couples.bind (Shard.searchWithPayloads_couples np _ _ normal) fun _ => Couples.pure _
      · exact Couples.bind (Shard.search_couples np _ _ normal) fun _ => Couples.pure _

end ShardServicer

theorem Request.leaves (caching : state.shard.Caching efSearch) (disk : Disk) (request : Request) :
    (request.program np npz state disk).Leaves fun state => state.shard.Caching efSearch := by
  cases request with
  | add request => exact ShardServicer.addDurable_leaves np npz caching request
  | record message => exact DurableShard.applyRecord_leaves np npz caching message
  | install peer data => exact DurableShard.installSnapshot_leaves np npz caching data
  | fetchSnapshot =>
      unfold Request.program DurableShard.ensureSnapshot
      dsimp only
      split
      · exact DurableShard.checkpoint_leaves npz (fun _ _ => caching) caching
      · exact caching
  | search request =>
      have kept := ShardServicer.search_caching np request state.shard caching
      unfold final at kept
      unfold Request.program
      dsimp only
      cases ran : ShardServicer.search np request state.shard with
      | ok hits shard =>
          rw [ran] at kept
          exact kept
      | error error shard =>
          rw [ran] at kept
          exact kept

/-- The shard of a server that runs. -/
def Node.Caching (efSearch : Nat) (node : Node G) : Prop := ∀ state, node.process = some state →
    state.shard.Caching efSearch

variable {np npz} {config : Config}

theorem Serves.caching {condition : DurableShard G → Request → Prop} {node next : Node G}
    {events : List (Event G)}
    (given : config.params.efSearch = some efSearch) (step : Serves np npz condition config node events next)
    (caching : node.Caching efSearch) : next.Caching efSearch := by
  cases step with
  | @opened disk reached state run =>
      rintro _ ⟨⟩
      have opened := (DurableShard.openShard_caching np npz given disk).run dataDirectory disk
      rw [run] at opened
      exact opened state rfl
  | openRaised run => exact fun _ impossible => by cases impossible
  | openCrashed crash => exact fun _ impossible => by cases impossible
  | @ended disk state request valid meets outcome run =>
      rintro _ ⟨⟩
      subst run
      exact (Request.leaves np npz (caching state rfl) disk request).run dataDirectory disk
  | crashed request valid meets crash => exact fun _ impossible => by cases impossible
  | died => exact fun _ impossible => by cases impossible

theorem Replica.Moves.caching {dim : Nat} {replica next : Replica G}
    (given : config.params.efSearch = some efSearch)
    (moves : Replica.Moves np npz config dim replica next) (caching : replica.state.shard.Caching efSearch) :
    next.state.shard.Caching efSearch := by
  cases moves with
  | @wrote write payloads seq state disk isGiven uniform shaped run =>
      have wrote := (DurableShard.addBatch_leaves np npz caching write.globalIds write.vectors payloads seq).run
        dataDirectory replica.disk
      rw [run] at wrote
      exact wrote
  | checkpointed run =>
      have saved : (DurableShard.checkpoint npz replica.state).Leaves fun state =>
        state.shard.Caching efSearch :=
        DurableShard.checkpoint_leaves npz (fun _ _ => caching) caching
      have kept := saved.run dataDirectory replica.disk
      rw [run] at kept
      exact kept
  | @restarted state disk run =>
      have opened := (DurableShard.openShard_caching np npz given replica.disk.abandoned).run dataDirectory
        replica.disk.abandoned
      rw [run] at opened
      exact opened state rfl

theorem Timeline.caching {dim : Nat} (peer : Timeline np npz config dim)
    (given : config.params.efSearch = some efSearch)
    (caching : (peer.at_ 0).state.shard.Caching efSearch) (time : Nat) :
    (peer.at_ time).state.shard.Caching efSearch := by
  have steps : ∀ replica next, Relation.ReflTransGen (Replica.Moves np npz config dim) replica next →
      replica.state.shard.Caching efSearch → next.state.shard.Caching efSearch := by
    intro replica next path here
    induction path with
    | refl => exact here
    | tail _ step kept => exact step.caching given kept
  induction time with
  | zero => exact caching
  | succ time inductionHypothesis => exact steps _ _ (peer.moves time) inductionHypothesis

end Servers

end VectorSearch
