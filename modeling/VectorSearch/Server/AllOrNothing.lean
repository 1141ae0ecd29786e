import VectorSearch.Server.Servicer
import VectorSearch.Storage.Growth
import VectorSearch.Storage.Runs

namespace VectorSearch

/-!
# Writes through the server

What becomes of a write request, in memory and in the files, when it is
answered and when it fails, over whole runs of a durable server with crashes.
A write is logged before the index sees it, and neither the server nor the log
compares the number of ids with the number of vectors, or their dimension with
that of the vectors already stored.  A request that gets past the log is all or
nothing exactly as far as these agree.
-/

open Program Stateful

variable {D G : Type} [LinearOrder D] (np : Numpy Float32Bits D G) (npz : Npz G)

/-! ## Batches -/

/-- The arguments of one call to `add_batch`. -/
structure Batch where
  globalIds : List Int
  vectors : Matrix Float32Bits
  payloads : List String
  seq : Option Nat

namespace Batch

/-- The write these arguments make, when they agree with each other and with
the fields of a log record. -/
def write (batch : Batch) : Option Write :=
  let texts := Shard.payloadsOrEmpty batch.globalIds.length batch.payloads
  if fits : batch.globalIds.length = batch.vectors.rows.length ∧ texts.length = batch.globalIds.length ∧
      batch.globalIds.all fitsInt64 = true ∧ batch.vectors.rows.length < 2 ^ 32 ∧
      batch.vectors.dim < 2 ^ 32 ∧ (recordBody 0 batch.globalIds batch.vectors texts).length < 2 ^ 32 then
    some ⟨batch.globalIds, batch.vectors, texts, fits.1, fits.2.1, fits.2.2.1, fits.2.2.2.1, fits.2.2.2.2.1,
      fits.2.2.2.2.2⟩
  else none

/-- The call gets as far as the log. -/
def Logged (state : DurableShard G) (batch : Batch) : Prop :=
  (batch.seq = none ∨ batch.seq = some (state.lastSeq + 1)) ∧
    ∃ record, encodeRecord (state.lastSeq + 1) batch.globalIds batch.vectors batch.payloads = .ok record

/-- If the call gets as far as the log, there are as many ids as vectors, one
payload for each or none at all, the vectors have the dimension of the stored
ones, and their level draws are finite. -/
def Fits (state : DurableShard G) (batch : Batch) : Prop :=
  batch.Logged state →
    batch.globalIds.length = batch.vectors.rows.length ∧
      (batch.payloads = [] ∨ batch.payloads.length = batch.globalIds.length) ∧
      (batch.vectors.rows = [] ∨ ∀ row ∈ state.shard.index.data, row.length = batch.vectors.dim) ∧
      np.drawsFinite state.shard.index.M batch.vectors.rows.length state.shard.index.rng = true

def program (state : DurableShard G) (batch : Batch) : Program FileOp (DurableShard G) Error :=
  DurableShard.addBatch np npz state batch.globalIds batch.vectors batch.payloads batch.seq

end Batch

/-- The call a request makes, if it passes the checks before it. -/
def AddRequest.batch (request : AddRequest) : Except Error Batch := do
  let vectors ← request.vectors
  return ⟨request.globalIds, vectors, request.payloads, if request.seq = 0 then none else some request.seq⟩

/-- The call a record of a peer's log makes. -/
def LogRecord.batch (record : LogRecord) : Except Error Batch := do
  let vectors ← Matrix.reshape record.values record.dim
  return ⟨record.globalIds, vectors, record.payloads, some record.seq⟩

theorem reshape_positive {values : List Float32Bits} {dim : Int} {vectors : Matrix Float32Bits}
    (shaped : Matrix.reshape values dim = .ok vectors) : 0 < vectors.dim := by
  unfold Matrix.reshape at shaped
  split at shaped
  · rename_i fits
    rw [← Except.ok.inj shaped]
    have := fits.1
    change 0 < dim.toNat
    omega
  · cases shaped

theorem AddRequest.batch_ok {request : AddRequest} {batch : Batch} (made : request.batch = .ok batch) :
    request.vectors = .ok batch.vectors ∧ batch.globalIds = request.globalIds ∧
      batch.payloads = request.payloads ∧ 0 < batch.vectors.dim ∧
      batch.seq = if request.seq = 0 then none else some request.seq := by
  unfold AddRequest.batch at made
  cases checked : request.vectors with
  | error error =>
      rw [checked] at made
      cases made
  | ok vectors =>
      rw [checked] at made
      cases made
      refine ⟨rfl, rfl, rfl, ?_, rfl⟩
      unfold AddRequest.vectors at checked
      cases shaped : Matrix.reshape request.values request.dim with
      | error error =>
          rw [shaped] at checked
          cases checked
      | ok matrix =>
          rw [shaped] at checked
          simp only at checked
          split at checked
          · cases checked
          · rw [← Except.ok.inj checked]
            exact reshape_positive shaped

/-! ## One call -/

/-- Running on the same shard, seen with another dimension. -/
theorem Running.redimension {config : Config} {dim other : Nat} {history : History}
    {state : DurableShard G} {disk : Disk} (running : Running np npz config dim history state disk)
    (positive : 0 < other) (stored : ∀ row ∈ state.shard.index.data, row.length = other) :
    Running np npz config other history state disk :=
  { running with sound := running.sound.redimension np running.contents positive stored }

/-- A call that gets as far as the log and fits is a write the shard accepts. -/
theorem Batch.Fits.accepted {config : Config} {dim : Nat} {history : History} {state : DurableShard G}
    {disk : Disk} {batch : Batch} (running : Running np npz config dim history state disk)
    (shaped : 0 < batch.vectors.dim) (fits : batch.Fits np state) (logged : batch.Logged state) :
    ∃ (other : Nat) (write : Write) (after : Contents Float32Bits G), 0 < other ∧
      Running np npz config other history state disk ∧ Accepted np other history state write after ∧
      batch.write = some write ∧ write.globalIds = batch.globalIds ∧ write.vectors = batch.vectors ∧
      write.Given batch.payloads := by
  rcases fits logged with ⟨counted, texts, stored, draws⟩
  rcases logged with ⟨_, record, encoded⟩
  rcases encodeRecord_write _ _ _ _ _ counted texts encoded with ⟨write, ids, vectors, given, _, small⟩
  have made : batch.write = some write := by
    have fields := And.intro write.counted (And.intro write.texts (And.intro write.inside
      (And.intro write.rows_small (And.intro write.dim_small write.body_small))))
    rw [ids, vectors, ← given] at fields
    rw [Batch.write, dif_pos fields, Option.some.injEq]
    ext1
    · exact ids.symm
    · exact vectors.symm
    · exact given
  have payloads : write.Given batch.payloads := by
    rw [Write.Given, ids]
    exact given
  rw [running.lastSeq] at small
  -- The dimension of the history, or of the batch when nothing is stored yet.
  have shape : ∃ other, 0 < other ∧ Running np npz config other history state disk ∧
      ∀ row ∈ write.vectors.rows, row.length = other := by
    rcases stored with none | same
    · refine ⟨dim, running.sound.positive, running, ?_⟩
      rw [vectors, none]
      exact fun row member => absurd member List.not_mem_nil
    · refine ⟨batch.vectors.dim, shaped, running.redimension np npz shaped same, ?_⟩
      rw [vectors]
      exact batch.vectors.shape
  rcases shape with ⟨other, positive, holds, uniform⟩
  have wellFormed := (holds.sound.filled np holds.contents).wellFormed
  rw [← vectors] at draws
  rcases Contents.apply_some np wellFormed uniform draws with ⟨after, applied⟩
  exact ⟨other, write, after, positive, holds, ⟨uniform, applied, small⟩, made, ids, vectors, payloads⟩

/-- A call that does not get as far as the log raises and does nothing. -/
theorem Batch.program_refused {state : DurableShard G} {batch : Batch} (refused : ¬ batch.Logged state) :
    ∃ error, batch.program np npz state = .raised state error := by
  unfold Batch.program DurableShard.addBatch
  by_cases outOfOrder : batch.seq.any (· != state.lastSeq + 1) = true
  · simp only [outOfOrder, if_true]
    exact ⟨_, rfl⟩
  · cases encoded : encodeRecord (state.lastSeq + 1) batch.globalIds batch.vectors batch.payloads with
    | error error =>
        simp only [outOfOrder, Bool.false_eq_true, if_false, encoded]
        exact ⟨error, rfl⟩
    | ok record =>
        refine absurd ⟨?_, record, encoded⟩ refused
        cases given : batch.seq with
        | none => exact Or.inl rfl
        | some seq =>
            rw [given] at outOfOrder
            simp only [Option.any_some, bne_iff_ne, ne_eq, not_not] at outOfOrder
            exact Or.inr (congrArg some outOfOrder)

/-- A program that makes one call to `add_batch`, possibly under other names for
its exceptions. -/
def Batch.CalledBy (state : DurableShard G) (batch : Batch) (program : Program FileOp (DurableShard G) Error) :
    Prop :=
  ∃ rename, program = (batch.program np npz state).mapError rename

/-- What a call that fits has done when it ends. -/
theorem Batch.Fits.ends {config : Config} {dim : Nat} {history : History} {state : DurableShard G}
    {disk : Disk} {batch : Batch} {program : Program FileOp (DurableShard G) Error}
    (running : Running np npz config dim history state disk) (shaped : 0 < batch.vectors.dim)
    (fits : batch.Fits np state) (called : batch.CalledBy np npz state program) :
    (∃ (other : Nat) (write : Write) (world : Disk) (memory : DurableShard G),
      program.run dataDirectory disk = ⟨world, memory, none⟩ ∧ batch.write = some write ∧
      write.vectors = batch.vectors ∧ write.globalIds = batch.globalIds ∧ write.Given batch.payloads ∧
      Running np npz config other (history.push write) memory world ∧
      Contents.Holds np write state.shard.contents memory.shard.contents) ∨
    ∃ error, program = .raised state error := by
  rcases called with ⟨rename, rfl⟩
  by_cases logged : batch.Logged state
  · rcases fits.accepted np npz running shaped logged with
      ⟨other, write, after, positive, holds, accepted, made, ids, vectors, given⟩
    rcases addBatch_run np npz holds accepted given logged.1 with ⟨world, memory, complete, wrote⟩
    refine Or.inl ⟨other, write, world, memory, ?_, made, vectors, ids, given, wrote, ?_⟩
    · rw [ids, vectors] at complete
      rw [run_mapError, Batch.program, complete]
      rfl
    · have wellFormed := (holds.sound.filled np holds.contents).wellFormed
      have reached := (accepted.sound np npz holds).2
      rw [wrote.contents] at reached
      rw [Option.some.inj reached]
      exact (Contents.apply_holds np wellFormed accepted.uniform accepted.applied).2
  · rcases batch.program_refused np npz logged with ⟨error, refused⟩
    refine Or.inr ⟨rename error, ?_⟩
    rw [refused]
    rfl

/-- What a crash inside a call that fits leaves. -/
theorem Batch.Fits.crashes {config : Config} {dim : Nat} {history : History} {state : DurableShard G}
    {disk left : Disk} {batch : Batch} {program : Program FileOp (DurableShard G) Error}
    (running : Running np npz config dim history state disk) (shaped : 0 < batch.vectors.dim)
    (fits : batch.Fits np state) (called : batch.CalledBy np npz state program)
    (crash : Crashed dataDirectory program disk left) :
    ∃ other, Recoverable np npz config other history left ∨
      ∃ write, batch.write = some write ∧ Recoverable np npz config other (history.push write) left := by
  rcases called with ⟨rename, rfl⟩
  have crash := crash.of_mapError
  by_cases logged : batch.Logged state
  · rcases fits.accepted np npz running shaped logged with
      ⟨other, write, after, positive, holds, accepted, made, ids, vectors, given⟩
    have covers := addBatch_covers np npz holds accepted given logged.1
    rw [ids, vectors] at covers
    rcases Covers.crashed dataDirectory covers crash with absent | present
    · exact ⟨other, Or.inl absent⟩
    · exact ⟨other, Or.inr ⟨write, made, present⟩⟩
  · rcases batch.program_refused np npz logged with ⟨error, refused⟩
    rw [refused] at crash
    cases crash
    exact ⟨dim, Or.inl running.recoverable⟩

/-! ## Requests -/

/-- What a durable server is asked to do, as far as it changes the shard.  A
`SyncFrom` is the records and snapshots it takes from its peer. -/
inductive Request where
  | add (request : AddRequest)
  | record (message : LogRecord)
  | install (peer : History) (data : Bytes)
  | fetchSnapshot
  | search (request : SearchRequest)

namespace Request

def program (state : DurableShard G) (disk : Disk) : Request → Program FileOp (DurableShard G) Error
  | add request => ShardServicer.addDurable np npz state request
  | record message => DurableShard.applyRecord np npz state message
  | install _ data => DurableShard.installSnapshot np npz state data
  | fetchSnapshot => DurableShard.ensureSnapshot npz state disk
  | search request =>
      match ShardServicer.search np request state.shard with
      | .ok _ shard => .done { state with shard }
      | .error error shard => .raised { state with shard } error

/-- The call to `add_batch` a request makes. -/
def batch : Request → Option Batch
  | add request => request.batch.toOption
  | record message => message.batch.toOption
  | _ => none

/-- A snapshot comes from a peer, and reaches at least as far as this shard. -/
def Valid (state : DurableShard G) : Request → Prop
  | install peer data => ∃ dim, PeerSnapshot np npz dim peer data ∧ state.lastSeq ≤ peer.length
  | _ => True

/-- Every value that is stored or searched for is a number. -/
def Finite (state : DurableShard G) : Request → Prop
  | install peer _ => ∀ write ∈ peer.writes, ∀ row ∈ write.vectors.rows, ∀ value ∈ row,
      Float32Bits.isFinite value = true
  | search request => ∀ value ∈ request.query, Float32Bits.isFinite value = true
  | request => ∀ batch, request.batch = some batch → batch.Logged state → ∀ row ∈
      batch.vectors.rows, ∀ value ∈ row,
      Float32Bits.isFinite value = true

/-- The condition on the requests of a run. -/
structure Fits (state : DurableShard G) (request : Request) : Prop where
  finite : request.Finite state
  batches : ∀ batch, request.batch = some batch → batch.Fits np state

/-- What is observed when a request has been answered or has failed. -/
def ended : Request → Option Error → List (Event G)
  | install peer _, none => [.installed peer]
  | install _ _, some error => [.raised error]
  | fetchSnapshot, some error => [.raised error]
  | _, some _ => []
  | request, none => (request.batch.bind Batch.write).toList.map .wrote

/-- What is observed when the process dies inside a request. -/
def cutOff : Request → List (Event G)
  | install peer _ => [.installing peer]
  | request => (request.batch.bind Batch.write).toList.map .writing

end Request

/-! ## Runs -/

/-- One step of a durable server on its directory.  Every request of the run
meets the given condition. -/
inductive Serves (condition : DurableShard G → Request → Prop) (config : Config) :
    Node G → List (Event G) → Node G → Prop
  | opened {disk reached : Disk} {state : DurableShard G}
      (run : (DurableShard.openShard np npz config disk).run dataDirectory disk =
        ⟨reached, some state, none⟩) :
      Serves condition config ⟨disk, none⟩ [.recovered state.shard.contents state.lastSeq]
        ⟨reached, some state⟩
  | openRaised {disk reached : Disk} {object : Option (DurableShard G)} {error : Error}
      (run : (DurableShard.openShard np npz config disk).run dataDirectory disk =
        ⟨reached, object, some error⟩) :
      Serves condition config ⟨disk, none⟩ [.raised error] ⟨reached.abandoned, none⟩
  | openCrashed {disk left : Disk}
      (crash : Crashed dataDirectory (DurableShard.openShard np npz config disk) disk left) :
      Serves condition config ⟨disk, none⟩ [] ⟨left.abandoned, none⟩
  | ended {disk : Disk} {state : DurableShard G} (request : Request) (valid : request.Valid np npz state)
      (meets : condition state request) {outcome : Outcome Disk (DurableShard G) Error}
      (run : (request.program np npz state disk).run dataDirectory disk = outcome) :
      Serves condition config ⟨disk, some state⟩ (request.ended outcome.error)
        ⟨outcome.world, some outcome.memory⟩
  | crashed {disk left : Disk} {state : DurableShard G} (request : Request)
      (valid : request.Valid np npz state) (meets : condition state request)
      (crash : Crashed dataDirectory (request.program np npz state disk) disk left) :
      Serves condition config ⟨disk, some state⟩ request.cutOff ⟨left.abandoned, none⟩
  | died {disk : Disk} {state : DurableShard G} :
      Serves condition config ⟨disk, some state⟩ [] ⟨disk.abandoned, none⟩

/-- The runs of a server from an empty directory, with what was observed. -/
inductive Serving (condition : DurableShard G → Request → Prop) (config : Config) :
    List (Event G) → Node G → Prop
  | start : Serving condition config [] ⟨Disk.empty, none⟩
  | step {events emitted : List (Event G)} {node next : Node G}
      (before : Serving condition config events node)
      (step : Serves np npz condition config node emitted next) :
      Serving condition config (events ++ emitted) next


/-! ## What holds along a run -/

theorem addDurable_calls {state : DurableShard G} {request : AddRequest} {batch : Batch}
    (made : request.batch = .ok batch) :
    batch.CalledBy np npz state (ShardServicer.addDurable np npz state request) := by
  rcases AddRequest.batch_ok made with ⟨vectors, ids, payloads, _, seq⟩
  simp only [ShardServicer.addDurable, vectors, Batch.CalledBy, Batch.program, ids, payloads, seq]
  by_cases unnumbered : request.seq = 0
  · refine ⟨id, ?_⟩
    simp only [if_pos unnumbered, mapError_id]
  · refine ⟨abortOutOfOrder, ?_⟩
    simp only [if_neg unnumbered]

theorem addDurable_refused {state : DurableShard G} {request : AddRequest} {error : Error}
    (refused : request.batch = .error error) :
    ShardServicer.addDurable np npz state request = .raised state error := by
  unfold AddRequest.batch at refused
  cases checked : request.vectors with
  | error other =>
      rw [checked] at refused
      cases refused
      simp only [ShardServicer.addDurable, checked]
  | ok vectors =>
      rw [checked] at refused
      cases refused

theorem applyRecord_calls {state : DurableShard G} {message : LogRecord} {batch : Batch}
    (made : message.batch = .ok batch) :
    batch.CalledBy np npz state (DurableShard.applyRecord np npz state message) ∧ 0 < batch.vectors.dim := by
  unfold LogRecord.batch at made
  cases shaped : Matrix.reshape message.values message.dim with
  | error error =>
      rw [shaped] at made
      cases made
  | ok vectors =>
      rw [shaped] at made
      cases made
      refine ⟨⟨id, ?_⟩, reshape_positive shaped⟩
      simp only [DurableShard.applyRecord, shaped, mapError_id, Batch.program]

theorem applyRecord_refused {state : DurableShard G} {message : LogRecord} {error : Error}
    (refused : message.batch = .error error) :
    DurableShard.applyRecord np npz state message = .raised state error := by
  unfold LogRecord.batch at refused
  cases shaped : Matrix.reshape message.values message.dim with
  | error other =>
      rw [shaped] at refused
      cases refused
      simp only [DurableShard.applyRecord, shaped]
  | ok vectors =>
      rw [shaped] at refused
      cases refused

/-- A request that writes makes one call to `add_batch`, or is refused before it. -/
theorem Request.writes {state : DurableShard G} {disk : Disk} {request : Request}
    (writes : (∃ message, request = .add message) ∨ ∃ message, request = .record message) :
    (∃ batch, request.batch = some batch ∧ 0 < batch.vectors.dim ∧
      batch.CalledBy np npz state (request.program np npz state disk)) ∨
    request.batch = none ∧ ∃ error, request.program np npz state disk = .raised state error := by
  rcases writes with ⟨message, rfl⟩ | ⟨message, rfl⟩
  · cases made : message.batch with
    | ok batch =>
        have positive := (AddRequest.batch_ok made).2.2.2.1
        refine Or.inl ⟨batch, ?_, positive, addDurable_calls np npz made⟩
        simp only [Request.batch, made, Except.toOption]
    | error error =>
        refine Or.inr ⟨?_, error, addDurable_refused np npz made⟩
        simp only [Request.batch, made, Except.toOption]
  · cases made : message.batch with
    | ok batch =>
        rcases applyRecord_calls np npz made with ⟨called, positive⟩
        refine Or.inl ⟨batch, ?_, positive, called⟩
        simp only [Request.batch, made, Except.toOption]
    | error error =>
        refine Or.inr ⟨?_, error, applyRecord_refused np npz made⟩
        simp only [Request.batch, made, Except.toOption]

/-- A search leaves the contents of the shard alone. -/
theorem search_contents (request : SearchRequest) (contents : Contents Float32Bits G) :
    Maintains (fun shard => shard.contents = contents) (ShardServicer.search np request) := by
  unfold ShardServicer.search
  split
  · exact Maintains.throw _
  · split
    · exact Maintains.bind (Shard.searchWithPayloads_maintains np (Shard.catchUpIndex_maintains contents)
        _ _ _) fun _ => Maintains.pure _
    · exact Maintains.bind (Shard.search_maintains np (Shard.catchUpIndex_maintains contents) _ _ _)
        fun _ => Maintains.pure _

/-- The node holds the shard of a history that accounts for what was observed. -/
def Node.Serves (config : Config) (events : List (Event G)) (node : Node G) : Prop :=
  ∃ dim history, Explains np config.params events history ∧ node.Holds np npz config dim history

/-- `FetchSnapshot` takes a snapshot at most. -/
theorem ensureSnapshot_run {config : Config} {dim : Nat} {history : History} {state : DurableShard G}
    {disk : Disk} (running : Running np npz config dim history state disk) :
    ∃ (reached : Disk) (kept : DurableShard G),
      (DurableShard.ensureSnapshot npz state disk).run dataDirectory disk = ⟨reached, kept, none⟩ ∧
        Running np npz config dim history kept reached := by
  unfold DurableShard.ensureSnapshot
  split
  · rcases checkpoint_run np npz running with ⟨reached, complete, holds⟩
    exact ⟨reached, _, complete, holds⟩
  · exact ⟨disk, state, rfl, running⟩

theorem ensureSnapshot_covers {config : Config} {dim : Nat} {history : History} {state : DurableShard G}
    {disk : Disk} (running : Running np npz config dim history state disk) :
    (DurableShard.ensureSnapshot npz state disk).Covers dataDirectory
      (Recoverable np npz config dim history) disk := by
  unfold DurableShard.ensureSnapshot
  split
  · exact checkpoint_covers np npz running
  · exact running.recoverable

/-- A search changes neither the files nor the contents. -/
theorem search_run {config : Config} {dim : Nat} {history : History} {state : DurableShard G} {disk : Disk}
    (message : SearchRequest) (running : Running np npz config dim history state disk) :
    ∃ (kept : DurableShard G) (failure : Option Error),
      ((Request.search message).program np npz state disk).run dataDirectory disk = ⟨disk, kept, failure⟩ ∧
        Running np npz config dim history kept disk := by
  have same := search_contents np message state.shard.contents state.shard rfl
  simp only [Request.program]
  simp only [final] at same
  cases found : ShardServicer.search np message state.shard with
  | ok hits shard =>
      rw [found] at same
      refine ⟨{ state with shard }, none, rfl, { running with contents := ?_ }⟩
      rw [running.contents]
      exact congrArg some same.symm
  | error error shard =>
      rw [found] at same
      refine ⟨{ state with shard }, some error, rfl, { running with contents := ?_ }⟩
      rw [running.contents]
      exact congrArg some same.symm

theorem search_crash {config : Config} {dim : Nat} {history : History} {state : DurableShard G}
    {disk left : Disk} (message : SearchRequest) (running : Running np npz config dim history state disk)
    (crash : Crashed dataDirectory ((Request.search message).program np npz state disk) disk left) :
    Recoverable np npz config dim history left := by
  simp only [Request.program] at crash
  split at crash <;> cases crash <;> exact running.recoverable

/-- Nothing observed accounts for nothing more. -/
theorem Explains.silent {params : HnswParams} {events : List (Event G)} {history : History}
    (explained : Explains np params events history) : Explains np params (events ++ []) history := by
  rw [List.append_nil]
  exact explained

/-- A request that writes, when it has ended. -/
theorem write_ends {config : Config} {dim : Nat} {history : History} {state : DurableShard G} {disk : Disk}
    {request : Request} {events : List (Event G)}
    (writes : (∃ message, request = .add message) ∨ ∃ message, request = .record message)
    (fits : request.Fits np state) (running : Running np npz config dim history state disk)
    (explained : Explains np config.params events history) :
    Node.Serves np npz config
      (events ++ request.ended ((request.program np npz state disk).run dataDirectory disk).error)
      ⟨((request.program np npz state disk).run dataDirectory disk).world,
        some ((request.program np npz state disk).run dataDirectory disk).memory⟩ := by
  have observed : (request.ended none : List (Event G)) =
      (request.batch.bind Batch.write).toList.map .wrote ∧
        ∀ error, (request.ended (some error) : List (Event G)) = [] := by
    rcases writes with ⟨message, rfl⟩ | ⟨message, rfl⟩ <;> exact ⟨rfl, fun _ => rfl⟩
  have nothing : ∀ error, request.program np npz state disk = .raised state error →
      Node.Serves np npz config
        (events ++ request.ended ((request.program np npz state disk).run dataDirectory disk).error)
        ⟨((request.program np npz state disk).run dataDirectory disk).world,
          some ((request.program np npz state disk).run dataDirectory disk).memory⟩ := by
    intro error refused
    rw [refused, Program.run, observed.2]
    exact ⟨dim, history, explained.silent np, running⟩
  rcases request.writes np npz writes with ⟨batch, made, positive, called⟩ | ⟨_, error, refused⟩
  · rcases (fits.batches batch made).ends np npz running positive called with
      ⟨other, write, world, memory, complete, isWrite, _, _, _, holds, _⟩ | ⟨error, refused⟩
    · rw [complete, observed.1, made, Option.bind_some, isWrite]
      exact ⟨other, history.push write, .wrote explained write, holds⟩
    · exact nothing error refused
  · exact nothing error refused

/-- A request that writes, when the process has died inside it. -/
theorem write_crashes {config : Config} {dim : Nat} {history : History} {state : DurableShard G}
    {disk left : Disk} {request : Request} {events : List (Event G)}
    (writes : (∃ message, request = .add message) ∨ ∃ message, request = .record message)
    (fits : request.Fits np state) (running : Running np npz config dim history state disk)
    (explained : Explains np config.params events history)
    (crash : Crashed dataDirectory (request.program np npz state disk) disk left) :
    Node.Serves np npz config (events ++ request.cutOff) ⟨left.abandoned, none⟩ := by
  have observed : (request.cutOff : List (Event G)) =
      (request.batch.bind Batch.write).toList.map .writing := by
    rcases writes with ⟨message, rfl⟩ | ⟨message, rfl⟩ <;> rfl
  rw [observed]
  rcases request.writes np npz writes with ⟨batch, made, positive, called⟩ | ⟨none, error, refused⟩
  · rw [made, Option.bind_some]
    rcases (fits.batches batch made).crashes np npz running positive called crash with
      ⟨other, absent | ⟨write, isWrite, present⟩⟩
    · cases isWrite : batch.write with
      | none => exact ⟨other, history, explained.silent np, absent.abandoned⟩
      | some write => exact ⟨other, history, .lost explained write, absent.abandoned⟩
    · rw [isWrite]
      exact ⟨other, history.push write, .kept explained write, present.abandoned⟩
  · rw [refused] at crash
    cases crash
    rw [none]
    exact ⟨dim, history, explained.silent np, running.recoverable.abandoned⟩

/-- What one step does to the history that accounts for what was observed. -/
theorem Serves.keeps {config : Config} {node next : Node G} {events emitted : List (Event G)}
    (step : Serves np npz (fun state request => request.Fits np state) config node emitted next)
    (serves : node.Serves np npz config events) : next.Serves np npz config (events ++ emitted) := by
  rcases serves with ⟨dim, history, explained, holds⟩
  -- The steps of the storage layer keep the dimension.
  have stored : ∀ {next : Node G} {emitted : List (Event G)}, Step np npz config dim node emitted next →
      next.Serves np npz config (events ++ emitted) := by
    intro next emitted step
    rcases step_explained np npz step holds with ⟨later, kept, extended⟩
    exact ⟨dim, later, extended events explained, kept⟩
  cases step with
  | opened run => exact stored (.opened run)
  | openRaised run => exact stored (.openRaised run)
  | openCrashed crash => exact stored (.openCrashed crash)
  | died => exact stored .died
  | @ended disk state request valid fits outcome run =>
      subst run
      cases request with
      | add message => exact write_ends np npz (Or.inl ⟨message, rfl⟩) fits holds explained
      | record message => exact write_ends np npz (Or.inr ⟨message, rfl⟩) fits holds explained
      | install peer data =>
          rcases valid with ⟨other, snapshot, order⟩
          rcases install_run np npz holds snapshot with ⟨reached, kept, complete, running⟩
          rw [Request.program, complete]
          exact ⟨other, peer, .installed explained peer, running⟩
      | fetchSnapshot =>
          rcases ensureSnapshot_run np npz holds with ⟨reached, kept, complete, running⟩
          rw [Request.program, complete]
          exact ⟨dim, history, explained.silent np, running⟩
      | search message =>
          rcases search_run np npz message holds with ⟨kept, failure, complete, running⟩
          rw [complete]
          cases failure <;> exact ⟨dim, history, explained.silent np, running⟩
  | @crashed disk left state request valid fits crash =>
      cases request with
      | add message => exact write_crashes np npz (Or.inl ⟨message, rfl⟩) fits holds explained crash
      | record message => exact write_crashes np npz (Or.inr ⟨message, rfl⟩) fits holds explained crash
      | install peer data =>
          rcases valid with ⟨other, snapshot, order⟩
          rw [Running.lastSeq holds] at order
          rcases Covers.crashed dataDirectory (install_covers np npz holds snapshot order) crash with old | new
          · exact ⟨dim, history, .notInstalled explained peer, old.abandoned⟩
          · exact ⟨other, peer, .installedLate explained peer, new.abandoned⟩
      | fetchSnapshot =>
          have left := Covers.crashed dataDirectory (ensureSnapshot_covers np npz holds) crash
          exact ⟨dim, history, explained.silent np, left.abandoned⟩
      | search message =>
          have left := search_crash np npz message holds crash
          exact ⟨dim, history, explained.silent np, left.abandoned⟩

/-! ## All or nothing -/

/-- Opening the files of a process that is gone gives these contents. -/
def Reopens (config : Config) (disk : Disk) (contents : Contents Float32Bits G) (lastSeq : Nat) : Prop :=
  ∃ (reopened : DurableShard G) (left : Disk),
    (DurableShard.openShard np npz config disk.abandoned).run dataDirectory disk.abandoned =
      ⟨left, some reopened, none⟩ ∧ reopened.shard.contents = contents ∧ reopened.lastSeq = lastSeq

/-- An answered request added its vectors to the memory and to the files, and a
failed one left both as they were. -/
structure AllOrNothing (config : Config) (state : DurableShard G) (disk : Disk) (request : AddRequest) :
    Prop where
  answered : ∀ world memory,
    (ShardServicer.addDurable np npz state request).run dataDirectory disk = ⟨world, memory, none⟩ →
    Reopens np npz config world memory.shard.contents memory.lastSeq ∧
      ∃ vectors, request.vectors = .ok vectors ∧
        memory.shard.index.data = state.shard.index.data ++ vectors.rows.map np.normalize ∧
        memory.shard.globalIds = state.shard.globalIds ++ request.globalIds ∧
        memory.shard.payloads = state.shard.payloads ++
          Shard.payloadsOrEmpty request.globalIds.length request.payloads
  failed : ∀ world memory error,
    (ShardServicer.addDurable np npz state request).run dataDirectory disk = ⟨world, memory, some error⟩ →
    memory = state ∧ Reopens np npz config world state.shard.contents state.lastSeq

theorem Running.reopens {config : Config} {dim : Nat} {history : History} {state : DurableShard G}
    {disk : Disk} (running : Running np npz config dim history state disk) :
    Reopens np npz config disk state.shard.contents state.lastSeq := by
  rcases open_recovers np npz running.recoverable.abandoned with ⟨reopened, left, complete, holds⟩
  refine ⟨reopened, left, complete, ?_, ?_⟩
  · have same := running.contents
    rw [holds.contents] at same
    exact Option.some.inj same
  · rw [holds.lastSeq, running.lastSeq]

theorem Request.Fits.allOrNothing {config : Config} {dim : Nat} {history : History}
    {state : DurableShard G} {disk : Disk} {request : AddRequest}
    (running : Running np npz config dim history state disk) (fits : (Request.add request).Fits np state) :
    AllOrNothing np npz config state disk request := by
  have nothing : ∀ error, ShardServicer.addDurable np npz state request = .raised state error →
      AllOrNothing np npz config state disk request := by
    intro error refused
    constructor
    · intro world memory run
      rw [refused] at run
      cases run
    · intro world memory error run
      rw [refused] at run
      cases run
      exact ⟨rfl, running.reopens⟩
  cases made : request.batch with
  | error error => exact nothing error (addDurable_refused np npz made)
  | ok batch =>
      rcases AddRequest.batch_ok made with ⟨vectors, ids, payloads, positive, _⟩
      have batchFits : batch.Fits np state := by
        apply fits.batches
        simp only [Request.batch, made, Except.toOption]
      rcases batchFits.ends np npz running positive (addDurable_calls np npz made) with
        ⟨other, write, world, memory, complete, _, rows, sameIds, given, holds, extended⟩ | ⟨error, refused⟩
      · constructor
        · intro left kept run
          rw [complete] at run
          cases run
          refine ⟨holds.reopens, batch.vectors, vectors, ?_, ?_, ?_⟩
          · rw [← rows]
            exact extended.data
          · rw [← ids, ← sameIds]
            exact extended.globalIds
          · rw [← ids, ← sameIds, ← payloads, given]
            exact extended.payloads
        · intro left kept error run
          rw [complete] at run
          cases run
      · exact nothing error refused

/-- While the requests that reach the log fit, every write is all or nothing, and
whatever was acknowledged is recovered. -/
theorem served_write_all_or_nothing {config : Config} {events : List (Event G)} {node : Node G}
    (run : Serving np npz (fun state request => request.Fits np state) config events node) :
    Accounted np npz config events node ∧
      ∀ state, node.process = some state → ∀ request, (Request.add request).Fits np state →
        AllOrNothing np npz config state node.disk request := by
  have serves : node.Serves np npz config events := by
    induction run with
    | start =>
        exact ⟨1, ⟨config.params, []⟩, .start, recoverable_empty np npz config Nat.one_pos⟩
    | step before step inductionHypothesis => exact step.keeps np npz inductionHypothesis
  rcases serves with ⟨dim, history, explained, holds⟩
  rcases node with ⟨disk, process⟩
  cases process with
  | none =>
      refine ⟨⟨history, explained, ?_⟩, fun state impossible => nomatch impossible⟩
      rcases open_recovers np npz holds with ⟨state, opened, complete, running⟩
      exact ⟨state, opened, complete, running.contents, running.lastSeq⟩
  | some state =>
      refine ⟨⟨history, explained, Running.contents holds, Running.lastSeq holds⟩, ?_⟩
      intro other same request fits
      cases same
      exact fits.allOrNothing np npz holds

/-! A server takes one vector of dimension two, and then a request of dimension
three. -/

section Sample

def axisRequest : AddRequest := ⟨[0], 2, [0x3F800000, 0], 0, []⟩

def axisBatch : Batch := ⟨[0], axisWrite.vectors, [], none⟩

/-- The shard that holds the vector, and its log. -/
def axisShard : DurableShard Unit :=
  match DurableShard.replayRecord smallNumpy emptyShard (axisWrite.record 1) with
  | .ok state => { state with replayedRecords := 0 }
  | .error _ => emptyShard

def axisLog : Disk := ⟨none, none, some (logBytes [(1, axisWrite)]), []⟩

theorem axisRequest_run :
    ((Request.add axisRequest).program smallNumpy smallNpz emptyShard emptyLog).run dataDirectory emptyLog =
      ⟨axisLog, axisShard, none⟩ := by
  have made : axisRequest.vectors = .ok axisWrite.vectors := rfl
  have given : axisWrite.Given [] := rfl
  have logged : DurableShard.addBatch smallNumpy smallNpz emptyShard axisRequest.globalIds axisWrite.vectors
      axisRequest.payloads none = _ := addBatch_logs smallNumpy smallNpz given (Or.inl rfl) (by decide)
  have applied : DurableShard.applyLogged smallNumpy smallNpz emptyShard axisWrite.globalIds
      axisWrite.vectors [] = .done axisShard := rfl
  have synced : emptyShard.config.fsync = true := rfl
  have bytes : FileOp.perform
      (.appendLog (FramedLog.frame crc32 (axisWrite.body (emptyShard.lastSeq + 1)))) emptyLog = axisLog := by
    rw [axisLog, logBytes_singleton]
    rfl
  have unnumbered : axisRequest.seq = 0 := rfl
  simp only [Request.program, ShardServicer.addDurable, made, if_pos unnumbered, logged,
    DurableShard.appendRecord, synced, if_true, applied, Program.run, dataDirectory, bytes]
  rfl

theorem axisServing {condition : DurableShard Unit → Request → Prop}
    (meets : condition emptyShard (.add axisRequest)) :
    Serving smallNumpy smallNpz condition smallConfig
      [.recovered emptyShard.shard.contents 0, .wrote axisWrite] ⟨axisLog, some axisShard⟩ := by
  have opened : Serves smallNumpy smallNpz condition smallConfig ⟨Disk.empty, none⟩
      [.recovered emptyShard.shard.contents 0] ⟨emptyLog, some emptyShard⟩ := .opened rfl
  have answered : Serves smallNumpy smallNpz condition smallConfig ⟨emptyLog, some emptyShard⟩
      [.wrote axisWrite] ⟨axisLog, some axisShard⟩ := .ended (.add axisRequest) trivial meets axisRequest_run
  exact .step (.step .start opened) answered

theorem served_write_all_or_nothing_axis :
    Accounted smallNumpy smallNpz smallConfig [.recovered emptyShard.shard.contents 0, .wrote axisWrite]
        ⟨axisLog, some axisShard⟩ ∧
      ∀ state, some axisShard = some state → ∀ request, (Request.add request).Fits smallNumpy state →
        AllOrNothing smallNumpy smallNpz smallConfig state axisLog request := by
  apply served_write_all_or_nothing smallNumpy smallNpz (axisServing ?_)
  have isBatch : ∀ batch, (Request.add axisRequest).batch = some batch → batch = axisBatch := by
    intro batch made
    cases made
    rfl
  constructor
  · intro batch made _ row isRow value isValue
    have rows : axisBatch.vectors.rows = [[0x3F800000, 0]] := rfl
    rw [isBatch batch made, rows, List.mem_singleton] at isRow
    rw [isRow] at isValue
    rcases List.mem_pair.mp isValue with one | zero
    · rw [one]
      rfl
    · rw [zero]
      rfl
  · intro batch made _
    rw [isBatch batch made]
    exact ⟨rfl, Or.inl rfl, Or.inr fun row member => absurd member List.not_mem_nil, rfl⟩

def wideRequest : AddRequest := ⟨[1], 3, [0x3F800000, 0, 0], 0, []⟩

def spoiledLog : Disk := ⟨none, none, some (logBytes [(1, axisWrite), (2, wideWrite)]), []⟩

theorem wideRequest_run :
    (ShardServicer.addDurable smallNumpy smallNpz axisShard wideRequest).run dataDirectory axisLog =
      ⟨spoiledLog, axisShard, some .shape⟩ := by
  have made : wideRequest.vectors = .ok wideWrite.vectors := rfl
  have given : wideWrite.Given [] := rfl
  have logged : DurableShard.addBatch smallNumpy smallNpz axisShard wideRequest.globalIds wideWrite.vectors
      wideRequest.payloads none = _ := addBatch_logs smallNumpy smallNpz given (Or.inl rfl) (by decide)
  have refused : DurableShard.applyLogged smallNumpy smallNpz axisShard wideWrite.globalIds
      wideWrite.vectors [] = .raised axisShard .shape := rfl
  have synced : axisShard.config.fsync = true := rfl
  have bytes : FileOp.perform
      (.appendLog (FramedLog.frame crc32 (wideWrite.body (axisShard.lastSeq + 1)))) axisLog = spoiledLog := by
    have split : logBytes [(1, axisWrite), (2, wideWrite)] =
        logBytes [(1, axisWrite)] ++ logBytes [(2, wideWrite)] :=
      logBytes_append [(1, axisWrite)] [(2, wideWrite)]
    rw [spoiledLog, split, logBytes_singleton (2, wideWrite)]
    rfl
  have unnumbered : wideRequest.seq = 0 := rfl
  simp only [ShardServicer.addDurable, made, if_pos unnumbered, logged,
    DurableShard.appendRecord, synced, if_true, refused, Program.run, dataDirectory, bytes]
  rfl

theorem reopen_spoiledLog :
    (DurableShard.openShard smallNumpy smallNpz smallConfig spoiledLog).run dataDirectory spoiledLog =
      ⟨spoiledLog, none, some .shape⟩ := by
  have read : readRecords spoiledLog.logged = .ok ([axisWrite.record 1, wideWrite.record 2],
      spoiledLog.logged.length) := by
    have short : ∀ entry ∈ ([(1, axisWrite), (2, wideWrite)] : List Entry), entry.1 < 2 ^ 64 := by
      simp
    have records := readRecords_log short torn_nil
    rw [List.append_nil] at records
    exact records
  have replayed : [axisWrite.record 1, wideWrite.record 2].foldlM
      (DurableShard.replayRecord smallNumpy) emptyShard = .error .shape := rfl
  have started : DurableShard.loadOrInit smallNumpy smallNpz smallConfig spoiledLog.snapshot =
      .ok (Shard.init smallNumpy smallConfig.params, 0) := rfl
  have base : DurableShard.loaded smallConfig (Shard.init smallNumpy smallConfig.params) 0 =
      emptyShard := rfl
  simp only [DurableShard.openShard, started, read, Nat.lt_irrefl, if_false,
    DurableShard.replayLog, base, replayed]
  rfl

/-- A request of another dimension fails after its record was logged, and the
directory cannot be opened any more. -/
theorem other_dimension_spoils_log :
    Serving smallNumpy smallNpz (fun _ _ => True) smallConfig
        [.recovered emptyShard.shard.contents 0, .wrote axisWrite] ⟨axisLog, some axisShard⟩ ∧
      ¬ AllOrNothing smallNumpy smallNpz smallConfig axisShard axisLog wideRequest := by
  refine ⟨axisServing trivial, ?_⟩
  intro whole
  rcases (whole.failed _ _ _ wideRequest_run).2 with ⟨reopened, left, complete, _⟩
  have abandoned : spoiledLog.abandoned = spoiledLog := rfl
  rw [abandoned, reopen_spoiledLog] at complete
  cases complete

end Sample

end VectorSearch
