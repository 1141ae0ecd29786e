import VectorSearch.Client.Sending
import VectorSearch.Client.Uploads
import VectorSearch.Cluster.Placing

namespace VectorSearch

/-!
# A whole write

`add` between its check and its end.  After each round every shard has taken the
rows up to the same place, and while a round is under way some of its replicas
are one chunk ahead.  So a call that returns has given every replica all rows of
its shard, and one that raises has stopped behind a chunk.
-/

open Stateful

/-! ## What the rounds have written -/

/-- The three lists of a batch go together, and its rows have one dimension. -/
structure RoutedBatch.Loaded (dim : Nat) (batch : RoutedBatch Float32Bits) : Prop where
  vectors : batch.vectors.length = batch.globalIds.length
  payloads : batch.payloads.length = batch.globalIds.length
  shape : ∀ row ∈ batch.vectors, row.length = dim

/-- Writes that hold the first rows of a batch. -/
structure RoutedBatch.Took (dim : Nat) (batch : RoutedBatch Float32Bits) (rows : Nat)
    (writes : List Write) : Prop where
  globalIds : writes.flatMap Write.globalIds = batch.globalIds.take rows
  vectors : (writes.flatMap fun write => write.vectors.rows) = batch.vectors.take rows
  payloads : writes.flatMap Write.payloads = batch.payloads.take rows
  shaped : ∀ write ∈ writes, write.vectors.dim = dim

namespace RoutedBatch

variable {dim rows more count start seq : Nat} {batch : RoutedBatch Float32Bits} {writes : List Write}
  {write : Write}

theorem Took.none (batch : RoutedBatch Float32Bits) : batch.Took dim 0 [] :=
  ⟨rfl, rfl, rfl, fun _ impossible => absurd impossible List.not_mem_nil⟩

/-- Behind the last row there is nothing to take. -/
theorem Took.saturated (took : batch.Took dim rows writes) (loaded : batch.Loaded dim)
    (end_ : batch.globalIds.length ≤ rows) (later : rows ≤ more) : batch.Took dim more writes where
  globalIds := by
    rw [took.globalIds, List.take_of_length_le end_, List.take_of_length_le (end_.trans later)]
  vectors := by
    have vectorsEnd := loaded.vectors.trans_le end_
    rw [took.vectors, List.take_of_length_le vectorsEnd, List.take_of_length_le (vectorsEnd.trans later)]
  payloads := by
    have payloadsEnd := loaded.payloads.trans_le end_
    rw [took.payloads, List.take_of_length_le payloadsEnd, List.take_of_length_le (payloadsEnd.trans later)]
  shaped := took.shaped

/-- The request for a chunk carries the rows of the chunk. -/
theorem Loaded.carries (loaded : batch.Loaded dim) (start count seq : Nat) :
    ∃ vectors, (GrpcCoordinator.chunkRequest batch dim start count seq).Carries vectors ∧ vectors.dim = dim ∧
      vectors.rows = Chunks.chunk batch.vectors count start := by
  refine ⟨⟨dim, Chunks.chunk batch.vectors count start, fun row member =>
    loaded.shape row (List.mem_of_mem_drop (List.mem_of_mem_take member))⟩, ⟨rfl, rfl, ?_, ?_⟩, rfl, rfl⟩
  · unfold GrpcCoordinator.chunkRequest Chunks.chunk
    simp only [List.length_take, List.length_drop, loaded.vectors]
  · unfold GrpcCoordinator.chunkRequest Chunks.chunk
    dsimp only
    split
    · refine Or.inr ?_
      simp only [List.length_take, List.length_drop, loaded.payloads]
    · exact Or.inl rfl

theorem payloadsOrEmpty_sent (texts : List String) :
    Shard.payloadsOrEmpty texts.length (if texts.any (· != "") then texts else []) = texts := by
  by_cases some : texts.any (· != "") = true
  · rw [if_pos some, Shard.payloadsOrEmpty, if_neg]
    rintro rfl
    cases some
  · rw [if_neg some, Shard.payloadsOrEmpty, if_pos rfl]
    symm
    apply List.eq_replicate_of_mem
    intro text member
    by_contra other
    exact some (List.any_eq_true.mpr ⟨text, member, bne_iff_ne.mpr other⟩)

/-- The write of a chunk holds its rows. -/
theorem Took.push (took : batch.Took dim start writes) (loaded : batch.Loaded dim) (positive : 0 < dim)
    (isWrite : (GrpcCoordinator.chunkRequest batch dim start count seq).write = some write) :
    batch.Took dim (start + count) (writes ++ [write]) := by
  rcases loaded.carries start count seq with ⟨vectors, carries, sameDim, isRows⟩
  rcases carries.write_spec (sameDim ▸ positive) isWrite with ⟨ids, isVectors, texts⟩
  have isTexts : write.payloads = Chunks.chunk batch.payloads count start := by
    have count : (Chunks.chunk batch.globalIds count start).length =
      (Chunks.chunk batch.payloads count start).length := by
      unfold Chunks.chunk
      simp only [List.length_take, List.length_drop, loaded.payloads]
    refine texts.trans ?_
    change Shard.payloadsOrEmpty (Chunks.chunk batch.globalIds _ start).length _ = _
    rw [count]
    exact payloadsOrEmpty_sent _
  constructor
  · rw [List.flatMap_append, List.flatMap_singleton, took.globalIds, ids, List.take_add]
    rfl
  · rw [List.flatMap_append, List.flatMap_singleton, took.vectors, isVectors, isRows, List.take_add]
    rfl
  · rw [List.flatMap_append, List.flatMap_singleton, took.payloads, isTexts, List.take_add]
    rfl
  · intro other member
    rcases List.mem_append.mp member with old | new
    · exact took.shaped other old
    · rw [List.mem_singleton.mp new, isVectors]
      exact sameDim

end RoutedBatch

namespace GrpcCoordinator

/-! ## Between the rounds -/

/-- Every shard has its base, the rows up to some round, and possibly the next
chunk at some of its replicas. -/
structure Reaches (dim count : Nat) (base : Nat → List Write) (batches : List (RoutedBatch Float32Bits))
    (rounds : Nat) (copies : Nat → Copies Write) : Prop where
  front : ∀ (shard : Nat) (batch : RoutedBatch Float32Bits), batches[shard]? = some batch →
    ∃ writes, (copies shard).base = base shard ++ writes ∧ batch.Took dim (rounds * count) writes
  back : ∀ (shard : Nat) (batch : RoutedBatch Float32Bits), batches[shard]? = some batch → ∃ writes,
    (copies shard).all = base shard ++ writes ∧
    (batch.Took dim (rounds * count) writes ∨ batch.Took dim ((rounds + 1) * count) writes)

variable {dim count rounds : Nat} {base : Nat → List Write} {batches : List (RoutedBatch Float32Bits)}
  {writes : Nat → List Write}

/-- What has been written after so many rounds. -/
def Written (dim count : Nat) (batches : List (RoutedBatch Float32Bits)) (rounds : Nat)
    (writes : Nat → List Write) : Prop :=
  ∀ (shard : Nat) (batch : RoutedBatch Float32Bits), batches[shard]? = some batch →
    batch.Took dim (rounds * count) (writes shard)

theorem Written.reaches (written : Written dim count batches rounds writes) (base : Nat → List Write) :
    Reaches dim count base batches rounds fun shard => Copies.even (base shard ++ writes shard) where
  front := fun shard batch isBatch => ⟨writes shard, rfl, written shard batch isBatch⟩
  back := fun shard batch isBatch => ⟨writes shard, Copies.all_even _, Or.inl (written shard batch isBatch)⟩

/-- The requests of the next round. -/
def nextRequests (dim count : Nat) (base : Nat → List Write) (batches : List (RoutedBatch Float32Bits))
    (rounds : Nat) (writes : Nat → List Write) : Nat → Option AddRequest :=
  requestsOf batches dim (rounds * count) count fun shard => (base shard ++ writes shard).length

/-- A shard takes part in a round when it has rows left. -/
theorem nextRequests_spec (positive : 0 < count) {shard : Nat} {batch : RoutedBatch Float32Bits}
    (isBatch : batches[shard]? = some batch) :
    (nextRequests dim count base batches rounds writes shard = none ∧ batch.globalIds.length ≤ rounds * count) ∨
      nextRequests dim count base batches rounds writes shard =
        some (chunkRequest batch dim (rounds * count) count ((base shard ++ writes shard).length + 1)) := by
  unfold nextRequests requestsOf
  rw [isBatch, Option.bind_some, requestFor]
  split
  · rename_i none
    refine Or.inl ⟨rfl, ?_⟩
    unfold Chunks.chunk at none
    rcases List.take_eq_nil_iff.mp none with impossible | behind
    · exact absurd impossible (Nat.ne_of_gt positive)
    · exact List.drop_eq_nil_iff.mp behind
  · exact Or.inr rfl

section Round

variable (positive : 0 < count) (loaded : ∀ batch ∈ batches, batch.Loaded dim) (dimPositive : 0 < dim)
  (written : Written dim count batches rounds writes)

include positive loaded dimPositive written

/-- While the requests of a round are under way. -/
theorem Written.round_reaches : Reaches dim count base batches rounds
    (roundCopies (fun shard => base shard ++ writes shard)
      (nextRequests dim count base batches rounds writes)) where
  front := fun shard batch isBatch => ⟨writes shard, rfl, written shard batch isBatch⟩
  back := by
    intro shard batch isBatch
    have took := written shard batch isBatch
    rcases @nextRequests_spec dim count rounds base batches writes positive shard batch isBatch
      with ⟨idle, _⟩ | isRequest
    · exact ⟨writes shard, roundCopies_idle _ idle, Or.inl took⟩
    · cases isWrite : (chunkRequest batch dim (rounds * count) count
        ((base shard ++ writes shard).length + 1)).write with
      | none =>
          refine ⟨writes shard, ?_, Or.inl took⟩
          unfold roundCopies Copies.all
          rw [isRequest, Option.bind_some, isWrite]
          exact List.append_nil _
      | some write =>
          have next := took.push (loaded batch (List.mem_of_getElem? isBatch)) dimPositive isWrite
          rw [← Nat.succ_mul] at next
          refine ⟨writes shard ++ [write], ?_, Or.inr next⟩
          rw [roundCopies_sent _ isRequest isWrite, List.append_assoc]

/-- When every request of a round has been applied. -/
theorem Written.next (all : ∀ shard request, nextRequests dim count base batches rounds writes shard =
    some request →
      ∃ write, request.write = some write) :
    ∃ later, Written dim count batches (rounds + 1) later ∧ ∀ shard, base shard ++ later shard =
      (roundCopies (fun shard => base shard ++ writes shard)
        (nextRequests dim count base batches rounds writes) shard).all := by
  have grown : ∀ shard, ∃ later, base shard ++ later =
      (roundCopies (fun shard => base shard ++ writes shard)
        (nextRequests dim count base batches rounds writes) shard).all := by
    intro shard
    exact ⟨writes shard ++ _, (List.append_assoc ..).symm⟩
  choose later isLater using grown
  refine ⟨later, fun shard batch isBatch => ?_, isLater⟩
  have took := written shard batch isBatch
  have isLoaded := loaded batch (List.mem_of_getElem? isBatch)
  have same := isLater shard
  rcases @nextRequests_spec dim count rounds base batches writes positive shard batch isBatch with
    ⟨idle, behind⟩ | isRequest
  · rw [roundCopies_idle _ idle] at same
    rw [List.append_cancel_left same]
    exact took.saturated isLoaded behind (Nat.mul_le_mul_right _ (Nat.le_succ _))
  · rcases all shard _ isRequest with ⟨write, isWrite⟩
    rw [roundCopies_sent _ isRequest isWrite, List.append_assoc] at same
    rw [List.append_cancel_left same, Nat.succ_mul]
    exact took.push isLoaded dimPositive isWrite

omit positive dimPositive written in
/-- A request carries rows of its shard's batch. -/
theorem nextRequests_carries {shard : Nat} {request : AddRequest}
    (isRequest : nextRequests dim count base batches rounds writes shard = some request) :
    ∃ vectors, request.Carries vectors ∧ vectors.dim = dim := by
  unfold nextRequests requestsOf at isRequest
  rcases Option.bind_eq_some_iff.mp isRequest with ⟨batch, isBatch, given⟩
  unfold requestFor at given
  split at given
  · cases given
  · rw [← Option.some.inj given]
    rcases (loaded batch (List.mem_of_getElem? isBatch)).carries (rounds * count) count _ with
      ⟨vectors, carries, same, _⟩
    exact ⟨vectors, carries, same⟩

end Round

/-! ## The ids -/

/-- What the copies of the shards are at every moment: the ids of a shard count up,
no two shards have one in common, and all vectors have the dimension of the
cluster. -/
structure Orderly (deployment : Deployment) (copies : Nat → Copies Write) : Prop where
  increasing : ∀ shard < deployment.sizes.length, (copies shard).ids.Pairwise (· < ·)
  apart : ∀ first < deployment.sizes.length, ∀ second < deployment.sizes.length, first ≠ second →
    ∀ id ∈ (copies first).ids, id ∉ (copies second).ids
  shaped : ∀ shard < deployment.sizes.length, ∀ write ∈ (copies shard).all, write.vectors.dim = deployment.dim

variable {deployment : Deployment} {copies later : Nat → Copies Write}

/-- Shorter copies are orderly too. -/
theorem Orderly.of_prefix (orderly : Orderly deployment copies)
    (shorter : ∀ shard < deployment.sizes.length, (later shard).all <+: (copies shard).all) :
    Orderly deployment later := by
  have ids : ∀ shard < deployment.sizes.length, (later shard).ids.Sublist (copies shard).ids :=
    fun shard inside => ((shorter shard inside).flatMap Write.globalIds).sublist
  refine ⟨fun shard inside => (orderly.increasing shard inside).sublist (ids shard inside), ?_, ?_⟩
  · intro first isFirst second isSecond different id member other
    exact orderly.apart first isFirst second isSecond different id ((ids first isFirst).subset member)
      ((ids second isSecond).subset other)
  · exact fun shard inside write member => orderly.shaped shard inside write
      ((shorter shard inside).subset member)

/-- New ids are larger than those that are stored, and those of different shards
are different. -/
theorem Reaches.orderly (orderly : Orderly deployment fun shard => Copies.even (base shard))
    (reaches : Reaches deployment.dim count base batches rounds copies)
    (whole : batches.length = deployment.sizes.length)
    {startId : Int} {number : Nat} (new : NewIds startId number batches)
    (stored : ∀ shard < deployment.sizes.length, ∀ id ∈ (base shard).flatMap Write.globalIds, id < startId) :
    Orderly deployment copies := by
  have parts : ∀ shard < deployment.sizes.length, ∃ batch ids writes, batches[shard]? = some batch ∧
      (copies shard).all = base shard ++ writes ∧ writes.flatMap Write.globalIds = ids ∧
        ids <+: batch.globalIds ∧
        ∀ write ∈ writes, write.vectors.dim = deployment.dim := by
    intro shard inside
    rcases List.getElem?_eq_some_iff.mpr ⟨whole ▸ inside, rfl⟩ with isBatch
    rcases reaches.back shard _ isBatch with ⟨writes, isAll, took | took⟩
    · exact ⟨_, _, writes, isBatch, isAll, took.globalIds, List.take_prefix _ _, took.shaped⟩
    · exact ⟨_, _, writes, isBatch, isAll, took.globalIds, List.take_prefix _ _, took.shaped⟩
  have isIds : ∀ shard {writes : List Write} {ids : List Int}, (copies shard).all = base shard ++ writes →
      writes.flatMap Write.globalIds = ids → (copies shard).ids = (base shard).flatMap Write.globalIds ++
        ids := by
    intro shard writes ids isAll isTaken
    rw [Copies.ids, isAll, List.flatMap_append, isTaken]
  have olds : ∀ shard, (Copies.even (base shard)).ids = (base shard).flatMap Write.globalIds := by
    intro shard
    rw [Copies.ids, Copies.all_even]
  have fresh : ∀ {shard : Nat} {batch : RoutedBatch Float32Bits}, batches[shard]? = some batch →
      ∀ id ∈ batch.globalIds, startId ≤ id :=
    fun isBatch id member => (new.bounds _ (List.mem_of_getElem? isBatch) id member).1
  refine ⟨?_, ?_, ?_⟩
  · intro shard inside
    rcases parts shard inside with ⟨batch, ids, writes, isBatch, isAll, isTaken, front, _⟩
    rw [isIds shard isAll isTaken, List.pairwise_append]
    refine ⟨olds shard ▸ orderly.increasing shard inside,
      (new.increasing _ (List.mem_of_getElem? isBatch)).sublist front.sublist, fun old isOld id isNew => ?_⟩
    exact lt_of_lt_of_le (stored shard inside old isOld) (fresh isBatch id (front.subset isNew))
  · intro first isFirst second isSecond different id member other
    rcases parts first isFirst with ⟨batch, ids, writes, isBatch, isAll, isTaken, front, _⟩
    rcases parts second isSecond with ⟨batch', ids', writes', isBatch', isAll', isTaken', front', _⟩
    rw [isIds first isAll isTaken, List.mem_append] at member
    rw [isIds second isAll' isTaken', List.mem_append] at other
    rcases member with old | new_
    · rcases other with old' | new'
      · refine orderly.apart first isFirst second isSecond different id ?_ ?_
        · exact (olds first).symm ▸ old
        · exact (olds second).symm ▸ old'
      · exact absurd (stored first isFirst id old) (not_lt.mpr (fresh isBatch' id (front'.subset new')))
    · rcases other with old' | new'
      · exact absurd (stored second isSecond id old') (not_lt.mpr (fresh isBatch id (front.subset new_)))
      · exact new.apart first second batch batch' isBatch isBatch' different id
          (front.subset new_) (front'.subset new')
  · intro shard inside write member
    rcases parts shard inside with ⟨batch, ids, writes, _, isAll, _, _, shaped⟩
    rw [isAll] at member
    rcases List.mem_append.mp member with old | new_
    · exact orderly.shaped shard inside write (by rw [Copies.all_even]; exact old)
    · exact shaped write new_

/-! ## All rounds -/

/-- The coordinator knows that the shards have taken exactly these writes. -/
structure Aware (shards : Nat) (base : Nat → List Write) (start state : GrpcCoordinator) : Prop where
  replicas : state.replicas = start.replicas
  size : state.size = start.size
  length : state.lastSeqs.length = start.lastSeqs.length
  positions : ∀ shard < shards, state.lastSeqs[shard]? = some (.agreed (base shard).length)

section Rounds

variable {D G : Type} [LinearOrder D] {np : Numpy Float32Bits D G} {npz : Npz G} {deployment : Deployment}
  {always : Fleet G → Prop} {start : GrpcCoordinator}

/-- The shards have taken the rows of these rounds, and the coordinator knows it. -/
structure Between (np : Numpy Float32Bits D G) (npz : Npz G) (deployment : Deployment) (count : Nat)
    (base : Nat → List Write) (batches : List (RoutedBatch Float32Bits)) (start : GrpcCoordinator)
    (rounds : Nat) (writes : Nat → List Write) (state : GrpcCoordinator) (fleet : Fleet G) : Prop where
  written : Written deployment.dim count batches rounds writes
  settled : Settled np npz deployment (evenly deployment fun shard => base shard ++ writes shard) fleet
  aware : Aware deployment.sizes.length (fun shard => base shard ++ writes shard) start state

/-- Some round was not taken by all replicas, and the coordinator has forgotten
what it knew. -/
structure Broken (np : Numpy Float32Bits D G) (npz : Npz G) (deployment : Deployment) (count : Nat)
    (base : Nat → List Write)
    (batches : List (RoutedBatch Float32Bits)) (rounds : Nat) (copies : Nat → Copies Write)
    (histories : ReplicaId → History) (state : GrpcCoordinator) (fleet : Fleet G) : Prop where
  reaches : Reaches deployment.dim count base batches rounds copies
  settled : Settled np npz deployment histories fleet
  copied : Copied deployment copies histories
  forgot : ∃ before : GrpcCoordinator, before.Deployed deployment ∧ state = before.forget

theorem Aware.deployed {shards : Nat} {base : Nat → List Write} {state : GrpcCoordinator}
    (aware : Aware shards base start state) (deployed : start.Deployed deployment) :
    state.Deployed deployment :=
  deployed.of_same aware.replicas aware.length

/-- The loop over the chunks.  Every round starts with the shards having taken the
rows of the rounds before, which the coordinator knows. -/
theorem rounds_ensures (steady : np.Steady) {count longest : Nat} (positive : 0 < count)
    {base : Nat → List Write} {batches : List (RoutedBatch Float32Bits)}
    (loaded : ∀ batch ∈ batches, batch.Loaded deployment.dim) (dimPositive : 0 < deployment.dim)
    (whole : batches.length = deployment.sizes.length) (deployed : start.Deployed deployment)
    (safe : ∀ rounds copies, Reaches deployment.dim count base batches rounds copies →
      ∀ first fleet, Afloat np npz deployment copies first fleet → always fleet) :
    Client.Ensures (writeNetwork np npz deployment) always
      (fun state fleet => ∃ writes, Between np npz deployment count base batches start 0 writes state fleet)
      ((Chunks.starts longest count).forM (addChunk batches deployment.dim count) : Coordinating D PUnit)
      (fun _ state fleet => ∃ writes,
        Between np npz deployment count base batches start (Chunks.count longest count) writes state fleet)
      fun _ state fleet => ∃ rounds copies histories,
        Broken np npz deployment count base batches rounds copies histories state fleet := by
  have rounds : (Chunks.starts longest count).length = Chunks.count longest count := by
    rw [Chunks.starts, List.length_map, List.length_range]
  rw [← rounds]
  apply Client.Ensures.forM (fun earlier state fleet => ∃ writes,
    Between np npz deployment count base batches start earlier.length writes state fleet)
  intro earlier from_ later isStarts
  have isFrom : from_ = earlier.length * count := by
    have found : (Chunks.starts longest count)[earlier.length]? = some from_ := by
      rw [isStarts, List.getElem?_append_right (Nat.le_refl _), Nat.sub_self]
      rfl
    unfold Chunks.starts at found
    rw [List.getElem?_map] at found
    rcases Option.map_eq_some_iff.mp found with ⟨place, isPlace, rfl⟩
    rw [← (List.getElem?_eq_some_iff.mp isPlace).2, List.getElem_range]
  subst isFrom
  rintro state fleet ⟨writes, between⟩
  have round : Client.Ensures (writeNetwork np npz deployment) always
      (Meets np npz deployment (evenly deployment fun shard => base shard ++ writes shard) (· = state))
      (addChunk batches deployment.dim count (earlier.length * count) : Coordinating D PUnit) _ _ :=
        addChunk_ensures steady
    (rfl : nextRequests deployment.dim count base batches earlier.length writes = _)
    (fun shard request => nextRequests_carries loaded)
    (safe _ _ (between.written.round_reaches positive loaded dimPositive))
    (between.aware.deployed deployed) whole (fun shard inside => between.aware.positions shard (whole ▸ inside))
  refine (round.imp (fun _ _ holds => holds) ?_ ?_) state fleet ⟨rfl, between.settled⟩
  · rintro _ current last ⟨⟨⟨replicas, size, length, positions⟩, settled⟩, all⟩
    rcases between.written.next positive loaded dimPositive all with ⟨more, written, grown⟩
    refine ⟨more, ?_⟩
    rw [List.length_append, List.length_singleton]
    refine ⟨written, settled.congr fun id _ => ?_, replicas.trans between.aware.replicas,
      size.trans between.aware.size,
      length.trans between.aware.length, fun shard inside => ?_⟩
    · exact congrArg (History.mk _) (grown id.shard).symm
    · rw [grown]
      exact positions shard (whole ▸ inside)
  · rintro _ current last ⟨forgot, histories, settled, copied⟩
    exact ⟨earlier.length, _, histories, between.written.round_reaches positive loaded dimPositive,
      settled, copied,
      state, between.aware.deployed deployed, forgot⟩

end Rounds

end GrpcCoordinator
end VectorSearch
