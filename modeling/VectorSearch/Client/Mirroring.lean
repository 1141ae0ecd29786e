import VectorSearch.Client.Agreement
import VectorSearch.Cluster.Taking

namespace VectorSearch

/-!
# The in-process shards and the replicas

A shard of the in-process coordinator mirrors a replica when it holds what the
history of the replica leads to.  A call of `add` that has reached all replicas
has the same effect on the shards that mirror them: the same rows go to the same
shards, under the same ids.
-/

open Stateful GrpcCoordinator

section Shards

variable {D G : Type} [LinearOrder D] {np : Numpy Float32Bits D G} {npz : Npz G} {config : Config}
  {dim efSearch : Nat} {history : History} {shard : Shard Float32Bits G}

theorem Node.Holds.sound {node : Node G} (holds : node.Holds np npz config dim history) :
    history.Sound np dim := by
  unfold Node.Holds at holds
  cases isProcess : node.process with
  | some state =>
      rw [isProcess] at holds
      exact holds.sound
  | none =>
      rw [isProcess] at holds
      exact holds.sound

theorem History.rows_length (history : History) : history.rows.length = history.payloads.length := by
  unfold History.rows History.payloads
  rw [List.length_flatMap, List.length_flatMap]
  congr 1
  apply List.map_congr_left
  intro write _
  exact write.counted.symm.trans write.texts.symm

/-- A shard that holds a history and searches with the given beam width. -/
structure Shard.Mirrors (np : Numpy Float32Bits D G) (efSearch : Nat) (history : History)
    (shard : Shard Float32Bits G) :
    Prop where
  contents : history.replay np = some shard.contents
  searchable : shard.Searchable
  width : shard.index.efSearch = efSearch

theorem Shard.Mirrors.whole (mirrors : shard.Mirrors np efSearch history) (sound : history.Sound np dim)
    (wide : 0 < efSearch) : shard.Whole dim := by
  have filled := sound.filled np mirrors.contents
  refine ⟨⟨mirrors.searchable, filled.wellFormed⟩, ?_, mirrors.width ▸ wide⟩
  have data : shard.index.data = history.rows.map np.normalize := filled.data
  have payloads : shard.payloads = history.payloads := filled.payloads
  rw [data, payloads, List.length_map]
  exact history.rows_length

/-- The rows of some writes, added as one batch. -/
theorem Shard.Mirrors.addBatch (mirrors : shard.Mirrors np efSearch history) {writes : List Write}
    {rows : List (PlacedRow Float32Bits)} (sound : (history.extend writes).Sound np dim)
    (isRows : gathered writes = RoutedBatch.ofRows rows) (readable : ∀ row ∈ rows, Readable row.2.2) :
    ∃ after, Shard.addBatch np (RoutedBatch.ofRows rows).globalIds (RoutedBatch.ofRows rows).vectors
        (RoutedBatch.ofRows rows).payloads shard = .ok () after ∧ after.Mirrors np efSearch
          (history.extend writes) := by
  rcases Option.isSome_iff_exists.mp sound.applied with ⟨contents, replayed⟩
  have applied : shard.contents.applyAll np writes = some contents := by
    have split : (history.extend writes).replay np = (history.replay np).bind fun before =>
      before.applyAll np writes :=
      Contents.applyAll_append np _ _ _
    rw [split, mirrors.contents] at replayed
    exact replayed
  have added := Contents.applyAll_items np applied
  rw [gathered_items isRows] at added
  have run : Shard.addAll np rows shard = .ok () (shard.withContents contents) := by
    rw [Shard.addAll_eq_lift, added]
    rfl
  have searchable := Shard.addAll_searchable np rows readable shard mirrors.searchable
  unfold final at searchable
  rw [run] at searchable
  exact ⟨shard.withContents contents, (addBatch_ofRows rows shard).trans run, replayed,
    searchable, mirrors.width⟩

end Shards

/-! ## All shards -/

section Coordinators

variable {D G : Type} [LinearOrder D] {np : Numpy Float32Bits D G} {npz : Npz G} {deployment : Deployment}
  {efSearch : Nat} {histories later : ReplicaId → History} {coordinator : Coordinator G}

/-- The shards of the coordinator mirror the replicas, and its next id is behind
the last one that is stored. -/
structure Coordinator.Mirrors (np : Numpy Float32Bits D G) (deployment : Deployment) (efSearch : Nat)
    (histories : ReplicaId → History) (coordinator : Coordinator G) : Prop where
  count : coordinator.shards.length = deployment.sizes.length
  shards : ∀ id, deployment.Member id →
    ∃ shard, coordinator.shards[id.shard]? = some shard ∧ shard.Mirrors np efSearch (histories id)
  below : ∀ id, deployment.Member id → ∀ globalId ∈ (histories id).globalIds, globalId < coordinator.size
  last : coordinator.size = 0 ∨ ∃ id, deployment.Member id ∧ (coordinator.size : Int) - 1 ∈
    (histories id).globalIds

theorem Coordinator.init_mirrors {params : HnswParams} (given : params.efSearch = some efSearch)
    (seeded : ∀ shard, deployment.params shard = Coordinator.shardParams params shard) :
    (Coordinator.init np deployment.sizes.length params).Mirrors np deployment efSearch
      fun id => ⟨deployment.params id.shard, []⟩ where
  count := by
    unfold Coordinator.init
    rw [List.length_map, List.length_range]
  shards := by
    intro id member
    refine ⟨Shard.init np (Coordinator.shardParams params id.shard), ?_, ?_, Shard.init_searchable np _, ?_⟩
    · unfold Coordinator.init
      rw [List.getElem?_map, List.getElem?_range (member_inside member)]
      rfl
    · rw [seeded id.shard]
      rfl
    · have isWidth : (Coordinator.shardParams params id.shard).efSearch = some efSearch := given
      change (Coordinator.shardParams params id.shard).efSearch.getD defaultEfSearch = efSearch
      rw [isWidth]
      rfl
  below := fun _ _ _ stored => absurd stored List.not_mem_nil
  last := Or.inl rfl

variable {call : AddCall} {startId : Int} {encoded : List String}

/-- Both coordinators give the next rows the same ids. -/
theorem Coordinator.Mirrors.next (mirrors : coordinator.Mirrors np deployment efSearch histories)
    (numbered : Numbered deployment histories call startId encoded) (least : 0 ≤ call.coordinator.size)
    (most : call.coordinator.size ≤ coordinator.size) : startId = coordinator.size := by
  apply le_antisymm
  · exact numbered.start.bounded coordinator.size (Int.natCast_nonneg _) most mirrors.below
  · rcases mirrors.last with none | ⟨id, member, stored⟩
    · rw [none]
      exact le_trans least numbered.start.grows
    · have fresh := numbered.fresh id member _ stored
      omega

theorem batchesOf_eq (call : AddCall) (numShards : Nat) (startId : Int) :
    Coordinator.batchesOf call.vectors.rows call.payloads call.name numShards startId =
      call.texts >>= fun encoded => route call.vectors.rows encoded call.name numShards startId := by
  unfold Coordinator.batchesOf AddCall.texts
  rw [bind_assoc]
  congr 1

theorem AddCall.texts_length (texts : call.texts = .ok encoded) : encoded.length =
    call.vectors.rows.length := by
  rcases gave_bind texts with ⟨tagged, _, isEncoded⟩
  exact encodePayloads_length isEncoded

theorem AddCall.texts_readable (keyed : Keyed call.payloads) (texts : call.texts = .ok encoded) :
    ∀ text ∈ encoded, Readable text := by
  rcases gave_bind texts with ⟨tagged, isTagged, isEncoded⟩
  exact encodePayloads_readable (tagNamespace_keyed keyed isTagged) isEncoded

theorem AddCall.mem_rows {numShards shard : Nat} {row : PlacedRow Float32Bits}
    (member : row ∈ call.rows numShards startId encoded shard)
    (counted : encoded.length = call.vectors.rows.length) :
    row.1 < startId + call.vectors.rows.length ∧ row.2.2 ∈ encoded := by
  have placed := (List.mem_filter.mp member).1
  constructor
  · have isId := List.mem_map_of_mem (f := Prod.fst) placed
    rw [placedRows_ids counted] at isId
    exact (mem_idRange isId).2
  · exact (List.of_mem_zip (List.of_mem_zip placed).2).2

/-- The ids of what a replica has gained are those of its rows. -/
theorem gathered_ids {writes : List Write} {rows : List (PlacedRow Float32Bits)}
    (isRows : gathered writes = RoutedBatch.ofRows rows) : writes.flatMap Write.globalIds = rows.map Prod.fst :=
  congrArg RoutedBatch.globalIds isRows

/-- The in-process coordinator does what a call has done to the replicas. -/
theorem Coordinator.Mirrors.add (mirrors : coordinator.Mirrors np deployment efSearch histories)
    (staffed : ∀ shard < deployment.sizes.length, deployment.Member ⟨shard, 0⟩)
    (filled : call.vectors.rows ≠ [])
    (keyed : Keyed call.payloads) (texts : call.texts = .ok encoded) (isNext : startId = coordinator.size)
    (routed : ∃ batches, route call.vectors.rows encoded call.name deployment.sizes.length startId =
      .ok batches)
    (gained : Gained deployment histories later fun id => call.rows deployment.sizes.length
      startId encoded id.shard)
    (sound : ∀ id, deployment.Member id → (later id).Sound np deployment.dim) :
    ∃ after, Coordinator.add np call.vectors.rows call.payloads call.name coordinator = .ok () after ∧
      after.size = coordinator.size + call.vectors.rows.length ∧
        after.Mirrors np deployment efSearch later := by
  subst isNext
  have counted := AddCall.texts_length texts
  have readable := AddCall.texts_readable keyed texts
  rcases routed with ⟨batches, isRouted⟩
  rcases route_distributes filled counted isRouted with ⟨distributes, whole⟩
  have isBatches : batchesOf call.vectors.rows call.payloads call.name coordinator.shards.length
    coordinator.size = .ok batches := by
    rw [batchesOf_eq, texts, mirrors.count]
    exact isRouted
  -- What happens to the shard of one replica.
  have taken : ∀ id, deployment.Member id → ∀ shard batch, coordinator.shards[id.shard]? = some shard →
      batches[id.shard]? = some batch → ∃ after,
        Shard.addBatch np batch.globalIds batch.vectors batch.payloads shard = .ok () after ∧
          after.Mirrors np efSearch (later id) := by
    intro id member shard batch isShard isBatch
    rcases mirrors.shards id member with ⟨found, isFound, own⟩
    obtain rfl : found = shard := Option.some.inj (isFound.symm.trans isShard)
    rcases gained id member with ⟨writes, isLater, isRows⟩
    rw [distributes.batch _ _ isBatch, isLater]
    have stays := sound id member
    rw [isLater] at stays
    exact own.addBatch stays isRows fun row isRow => readable _ (AddCall.mem_rows isRow counted).2
  have each : ∀ (place : Nat) (shard : Shard Float32Bits G) (batch : RoutedBatch Float32Bits),
    coordinator.shards[place]? = some shard →
      batches[place]? = some batch → ∃ after, Shard.addBatch np batch.globalIds batch.vectors
        batch.payloads shard = .ok () after := by
    intro place shard batch isShard isBatch
    have inside : place < deployment.sizes.length := mirrors.count ▸ (List.getElem?_eq_some_iff.mp isShard).1
    rcases taken ⟨place, 0⟩ (staffed place inside) shard batch isShard isBatch with ⟨after, ran, _⟩
    exact ⟨after, ran⟩
  rcases Coordinator.add_returns isBatches (whole.trans mirrors.count.symm) each with
    ⟨after, ran, isSize, length, founds⟩
  refine ⟨after, ran, isSize, length.trans mirrors.count, fun id member => ?_,
    fun id member globalId stored => ?_, Or.inr ?_⟩
  · have inside : id.shard < after.shards.length := (length.trans mirrors.count).symm ▸ member_inside member
    have isFound := List.getElem?_eq_getElem inside
    rcases founds _ _ isFound with ⟨shard, batch, isShard, isBatch, took⟩
    rcases taken id member shard batch isShard isBatch with ⟨other, tookOther, own⟩
    rw [took] at tookOther
    cases tookOther
    exact ⟨_, isFound, own⟩
  · rcases gained id member with ⟨writes, isLater, isRows⟩
    rw [isLater, History.globalIds, History.extend, List.flatMap_append, gathered_ids isRows] at stored
    rw [isSize]
    push_cast
    rcases List.mem_append.mp stored with old | new
    · have before := mirrors.below id member globalId old
      omega
    · rcases List.mem_map.mp new with ⟨row, isRow, rfl⟩
      exact (AddCall.mem_rows isRow counted).1
  · -- The last row of the call has the last id.
    have some := List.length_pos_iff.mpr filled
    have isLast : (coordinator.size : Int) + (call.vectors.rows.length - 1 : Nat) ∈
      idRange (coordinator.size : Int) call.vectors.rows.length :=
      List.mem_map.mpr ⟨call.vectors.rows.length - 1, List.mem_range.mpr (Nat.sub_lt some Nat.one_pos), rfl⟩
    rw [← placedRows_ids counted] at isLast
    rcases List.mem_map.mp isLast with ⟨row, isRow, isId⟩
    have inside := distributes.inside row isRow
    rw [whole] at inside
    have member := staffed _ inside
    rcases gained _ member with ⟨writes, isLater, isRows⟩
    refine ⟨_, member, ?_⟩
    rw [isLater, History.globalIds, History.extend, List.flatMap_append, gathered_ids isRows]
    apply List.mem_append_right
    have same : (after.size : Int) - 1 = row.1 := by
      rw [isId, isSize]
      omega
    rw [same]
    exact List.mem_map_of_mem (List.mem_filter.mpr ⟨isRow, decide_eq_true rfl⟩)

end Coordinators

end VectorSearch
