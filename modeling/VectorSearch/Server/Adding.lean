import VectorSearch.Cluster.Serving
import VectorSearch.Server.AllOrNothing

namespace VectorSearch

/-!
# One write at one replica

What becomes of a replica, given by its history, when it is sent the write
requests of a coordinator: such a request is applied under the next seq, or is
refused and leaves no trace, and a crash inside it leaves it applied or not.
Everything else a server does leaves the history alone.
-/

open Program

variable {D G : Type} [LinearOrder D] {np : Numpy Float32Bits D G} {npz : Npz G}

omit [LinearOrder D] in
theorem Numpy.Steady.draws (steady : np.Steady) (M count : Nat) (rng : G) : np.drawsFinite M count rng =
    true := by
  induction count generalizing rng with
  | zero => rfl
  | succ count inductionHypothesis =>
      rcases steady M rng with ⟨level, after, draw⟩
      rw [Numpy.drawsFinite, draw]
      exact inductionHypothesis after

/-! ## Requests of a coordinator -/

/-- A request that carries these vectors, with an id for each, and with a
payload for each or none at all. -/
structure AddRequest.Carries (request : AddRequest) (vectors : Matrix Float32Bits) : Prop where
  values : request.values = vectors.ravel
  dim : request.dim = vectors.dim
  counted : request.globalIds.length = vectors.rows.length
  texts : request.payloads = [] ∨ request.payloads.length = request.globalIds.length

/-- The write a request makes; `none` when it is refused before it is logged. -/
def AddRequest.write (request : AddRequest) : Option Write := request.batch.toOption.bind Batch.write

theorem Batch.write_fields {batch : Batch} {write : Write} (isWrite : batch.write = some write) :
    write.globalIds = batch.globalIds ∧ write.vectors = batch.vectors ∧
      write.payloads = Shard.payloadsOrEmpty batch.globalIds.length batch.payloads := by
  unfold Batch.write at isWrite
  dsimp only at isWrite
  split at isWrite
  · rw [← Option.some.inj isWrite]
    exact ⟨rfl, rfl, rfl⟩
  · cases isWrite

namespace AddRequest.Carries

variable {request : AddRequest} {vectors : Matrix Float32Bits}

theorem batch (carries : request.Carries vectors) (positive : 0 < vectors.dim) :
    request.batch = .ok ⟨request.globalIds, vectors, request.payloads,
      if request.seq = 0 then none else some request.seq⟩ := by
  have checked : request.vectors = .ok vectors := by
    unfold AddRequest.vectors
    rw [carries.values, carries.dim, Matrix.reshape_ravel vectors positive]
    rcases carries.texts with none | same
    · exact if_neg fun some => some.1 none
    · exact if_neg fun other => other.2 same
  unfold AddRequest.batch
  rw [checked]
  rfl

/-- The write has the ids and the vectors of the request. -/
theorem write_spec (carries : request.Carries vectors) (positive : 0 < vectors.dim) {write : Write}
    (isWrite : request.write = some write) :
    write.globalIds = request.globalIds ∧ write.vectors = vectors ∧
      write.payloads = Shard.payloadsOrEmpty request.globalIds.length request.payloads := by
  unfold AddRequest.write at isWrite
  rw [carries.batch positive] at isWrite
  exact Batch.write_fields isWrite

end AddRequest.Carries

/-! ## The replica -/

/-- A request that leaves the contents of the shard alone. -/
def Request.Reads : Request → Prop
  | fetchSnapshot => True
  | search _ => True
  | _ => False

/-- Reading, checkpointing, dying and being restarted leave the history alone. -/
theorem Serves.reads {config : Config} {dim : Nat} {history : History} {node next : Node G}
    {events : List (Event G)}
    (step : Serves np npz (fun _ request => request.Reads) config node events next)
    (holds : node.Holds np npz config dim history) : next.Holds np npz config dim history := by
  cases step with
  | opened run =>
      rcases open_recovers np npz holds with ⟨state, reached, recovered, running⟩
      rw [run] at recovered
      cases recovered
      exact running
  | openRaised run =>
      rcases open_recovers np npz holds with ⟨state, reached, recovered, _⟩
      rw [run] at recovered
      cases recovered
  | openCrashed crash => exact (Covers.crashed dataDirectory (open_covers np npz holds) crash).abandoned
  | died => exact (Running.recoverable np npz holds).abandoned
  | ended request _ reads run =>
      subst run
      cases request with
      | fetchSnapshot =>
          rcases ensureSnapshot_run np npz holds with ⟨reached, kept, complete, running⟩
          rw [Request.program, complete]
          exact running
      | search message =>
          rcases search_run np npz message holds with ⟨kept, failure, complete, running⟩
          rw [complete]
          exact running
      | add message => exact reads.elim
      | record message => exact reads.elim
      | install peer data => exact reads.elim
  | crashed request _ reads crash =>
      cases request with
      | fetchSnapshot =>
          exact (Covers.crashed dataDirectory (ensureSnapshot_covers np npz holds) crash).abandoned
      | search message => exact (search_crash np npz message holds crash).abandoned
      | add message => exact reads.elim
      | record message => exact reads.elim
      | install peer data => exact reads.elim

/-- A request that is applied: its write continues the history, in memory and
in the files, and a crash leaves it there or not. -/
structure Applied (np : Numpy Float32Bits D G) (npz : Npz G) (config : Config) (dim : Nat) (history : History)
    (state : DurableShard G) (disk : Disk) (request : AddRequest) (write : Write) : Prop where
  isWrite : request.write = some write
  inOrder : request.seq = 0 ∨ request.seq = history.length + 1
  run : ∃ (reached : Disk) (kept : DurableShard G),
    (ShardServicer.addDurable np npz state request).run dataDirectory disk = ⟨reached, kept, none⟩ ∧
      Running np npz config dim (history.push write) kept reached
  crash : ∀ left, Crashed dataDirectory (ShardServicer.addDurable np npz state request) disk left →
    Recoverable np npz config dim history left ∨ Recoverable np npz config dim (history.push write) left

theorem addDurable_applies {config : Config} {dim : Nat} {history : History} {state : DurableShard G}
    {disk : Disk} {request : AddRequest} {vectors : Matrix Float32Bits} (steady : np.Steady)
    (running : Running np npz config dim history state disk) (carries : request.Carries vectors)
    (sameDim : vectors.dim = dim) :
    (∃ write, Applied np npz config dim history state disk request write) ∨
      ∃ error, ShardServicer.addDurable np npz state request = .raised state error := by
  have positive : 0 < vectors.dim := sameDim ▸ running.sound.positive
  have made := carries.batch positive
  have called := @addDurable_calls _ _ _ np npz state _ _ made
  have stored : ∀ row ∈ state.shard.index.data, row.length = vectors.dim := by
    have filled := running.sound.filled np running.contents
    intro row member
    rw [sameDim]
    exact filled.wellFormed.rows row member
  have fits : Batch.Fits np state ⟨request.globalIds, vectors, request.payloads,
      if request.seq = 0 then none else some request.seq⟩ :=
    fun _ => ⟨carries.counted, carries.texts, Or.inr stored, steady.draws _ _ _⟩
  rcases fits.ends np npz running positive called with
    ⟨_, write, reached, kept, complete, isWrite, isVectors, isIds, given, _, _⟩ | refused
  · have uniform : ∀ row ∈ write.vectors.rows, row.length = dim := by
      rw [isVectors, ← sameDim]
      exact vectors.shape
    rcases called with ⟨rename, isCall⟩
    rw [isCall, run_mapError, Batch.program, ← isIds, ← isVectors] at complete
    rw [Batch.program, ← isIds, ← isVectors] at isCall
    have success : ((DurableShard.addBatch np npz state write.globalIds write.vectors request.payloads
        (if request.seq = 0 then none else some request.seq)).run dataDirectory disk).error = none := by
      cases failure : ((DurableShard.addBatch np npz state write.globalIds write.vectors request.payloads
          (if request.seq = 0 then none else some request.seq)).run dataDirectory disk).error with
      | none => rfl
      | some error =>
          rw [failure] at complete
          cases congrArg Outcome.error complete
    rcases accepted_of_success np npz running given uniform success with ⟨inOrder, after, accepted⟩
    rcases addBatch_run np npz running accepted given inOrder with ⟨world, memory, ends, holds⟩
    refine Or.inl ⟨write, ?_, ?_, ⟨world, memory, ?_, holds⟩, ?_⟩
    · unfold AddRequest.write
      rw [made]
      exact isWrite
    · rcases inOrder with none | next
      · by_cases unnumbered : request.seq = 0
        · exact Or.inl unnumbered
        · rw [if_neg unnumbered] at none
          cases none
      · by_cases unnumbered : request.seq = 0
        · exact Or.inl unnumbered
        · rw [if_neg unnumbered, running.lastSeq] at next
          exact Or.inr (Option.some.inj next)
    · rw [isCall, run_mapError, ends]
      rfl
    · intro left crash
      rw [isCall] at crash
      exact Covers.crashed dataDirectory (addBatch_covers np npz running accepted given inOrder)
        crash.of_mapError
  · exact Or.inr refused

end VectorSearch
