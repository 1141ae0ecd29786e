import VectorSearch.Cluster.Answering
import VectorSearch.Cluster.Placing

namespace VectorSearch

/-!
# Writes of the in-process coordinator

The texts of a call can be read back when its payloads have string keys.  A call
whose rows every shard takes returns, and each shard then holds its rows behind
what it held.
-/

open Stateful

/-! ## The texts of a call -/

/-- The payloads of a call are dicts with string keys. -/
def Keyed (payloads : Option (List Payload)) : Prop :=
  ∀ payload ∈ payloads.getD [], ∀ entries, payload = some entries → (PyValue.dict entries).StringKeyed

theorem encodePayloads_readable {payloads : Option (List Payload)} {count : Nat} {texts : List String}
    (keyed : Keyed payloads)
    (encoded : encodePayloads payloads count = .ok texts) : ∀ text ∈ texts, Readable text := by
  intro text member
  cases payloads with
  | none =>
      cases encoded
      exact Or.inl (List.eq_of_mem_replicate member)
  | some payloads =>
      unfold encodePayloads at encoded
      dsimp only at encoded
      split at encoded
      · cases encoded
      · rcases mapM_ok_mem encoded text member with ⟨payload, isPayload, written⟩
        cases payload with
        | none => exact Or.inl (Except.ok.inj written).symm
        | some entries =>
            rcases jsonDumps_ok written with ⟨printable, rfl⟩
            exact Or.inr ⟨_, PyValue.loads_dumps false (keyed _ isPayload entries rfl) printable⟩

/-- A payload that is accepted does not mention the namespace field. -/
theorem tagNamespace_unmentioned {payloads tagged : Option (List Payload)} {count : Nat} {name : Option String}
    (ok : tagNamespace payloads count name = .ok tagged) :
    ∀ payload ∈ payloads.getD [], mentionsNamespace (payload.getD []) = false := by
  intro payload member
  unfold tagNamespace at ok
  split at ok
  · cases ok
  · split at ok
    · cases ok
    · rename_i unmentioned
      cases payload with
      | none => rfl
      | some entries =>
          by_contra mentions
          apply unmentioned
          exact List.any_eq_true.mpr ⟨some entries, member, Bool.of_not_eq_false mentions⟩

/-- With a namespace every payload records it. -/
theorem tagNamespace_some {payloads tagged : Option (List Payload)} {count : Nat} {name : String}
    (ok : tagNamespace payloads count (some name) = .ok tagged) :
    ∃ given : List Payload, tagged = some (given.map fun payload => some (tagPayload name payload)) ∧
      (payloads = some given ∨ (payloads = none ∨ payloads = some []) ∧ given = List.replicate count none) := by
  unfold tagNamespace at ok
  split at ok
  · cases ok
  · split at ok
    · cases ok
    · dsimp only at ok
      split at ok
      · cases ok
      · split at ok
        · cases ok
        · refine ⟨_, (Except.ok.inj ok).symm, ?_⟩
          split
          · exact Or.inr ⟨Or.inl rfl, rfl⟩
          · exact Or.inr ⟨Or.inr rfl, rfl⟩
          · exact Or.inl rfl

theorem tagNamespace_keyed {payloads tagged : Option (List Payload)} {count : Nat} {name : Option String}
    (keyed : Keyed payloads) (ok : tagNamespace payloads count name = .ok tagged) : Keyed tagged := by
  have unmentioned := tagNamespace_unmentioned ok
  cases name with
  | none =>
      have same : tagged = payloads := by
        unfold tagNamespace at ok
        split at ok
        · cases ok
        · split at ok
          · cases ok
          · exact (Except.ok.inj ok).symm
      rw [same]
      exact keyed
  | some name =>
      rcases tagNamespace_some ok with ⟨given, rfl, isGiven⟩
      intro payload member entries isEntries
      rcases List.mem_map.mp member with ⟨original, isOriginal, rfl⟩
      have plain : (PyValue.dict (original.getD [])).StringKeyed ∧ mentionsNamespace (original.getD []) =
        false := by
        rcases isGiven with rfl | ⟨_, rfl⟩
        · refine ⟨?_, unmentioned original isOriginal⟩
          cases original with
          | none => exact ⟨List.nodup_nil, trivial⟩
          | some record => exact keyed _ isOriginal record rfl
        · rw [List.eq_of_mem_replicate isOriginal]
          exact ⟨⟨List.nodup_nil, trivial⟩, rfl⟩
      rw [← Option.some.inj isEntries, tagPayload, update_namespace plain.2]
      exact taggedRecord_keyed name plain.1 plain.2

/-! ## The rows of a call -/

section Rows

variable {D G : Type} [LinearOrder D] {np : Numpy Float32Bits D G}

/-- A batch is added row by row. -/
theorem addBatch_ofRows (rows : List (PlacedRow Float32Bits)) (shard : Shard Float32Bits G) :
    Shard.addBatch np (RoutedBatch.ofRows rows).globalIds (RoutedBatch.ofRows rows).vectors
      (RoutedBatch.ofRows rows).payloads shard =
      Shard.addAll np rows shard := by
  have texts : Shard.payloadsOrEmpty (RoutedBatch.ofRows rows).globalIds.length
    (RoutedBatch.ofRows rows).payloads =
      (RoutedBatch.ofRows rows).payloads := by
    unfold Shard.payloadsOrEmpty
    split
    · rename_i none
      have empty : rows = [] := List.map_eq_nil_iff.mp none
      rw [empty]
      rfl
    · rfl
  unfold Shard.addBatch
  rw [texts, RoutedBatch.zip_ofRows]

namespace Coordinator

/-- When no shard raises, each has its batch. -/
theorem addBatches_returns {pairs : List (Shard Float32Bits G × RoutedBatch Float32Bits)}
    (each : ∀ pair ∈ pairs, ∃ after, Shard.addBatch np pair.2.globalIds pair.2.vectors pair.2.payloads
      pair.1 = .ok () after) :
    ∃ shards, addBatches np pairs = (shards, none) ∧ List.Forall₂ (fun pair after =>
      Shard.addBatch np pair.2.globalIds pair.2.vectors pair.2.payloads pair.1 = .ok () after) pairs
        shards := by
  induction pairs with
  | nil => exact ⟨[], rfl, .nil⟩
  | cons pair rest inductionHypothesis =>
      rcases each pair List.mem_cons_self with ⟨after, ran⟩
      rcases inductionHypothesis fun other member => each other (List.mem_cons_of_mem _ member)
        with ⟨shards, later, taken⟩
      refine ⟨after :: shards, ?_, .cons ran taken⟩
      rcases pair with ⟨shard, batch⟩
      unfold addBatches
      simp only [ran, later]

/-- When every shard takes its batch, the call returns. -/
theorem add_returns {coordinator : Coordinator G} {vectors : List (List Float32Bits)}
    {payloads : Option (List Payload)} {name : Option String} {batches : List (RoutedBatch Float32Bits)}
    (routed : batchesOf vectors payloads name coordinator.shards.length coordinator.size = .ok batches)
    (count : batches.length = coordinator.shards.length)
    (each : ∀ (place : Nat) (shard : Shard Float32Bits G) (batch : RoutedBatch Float32Bits),
      coordinator.shards[place]? = some shard →
      batches[place]? = some batch → ∃ after, Shard.addBatch np batch.globalIds batch.vectors
        batch.payloads shard = .ok () after) :
    ∃ after, add np vectors payloads name coordinator = .ok () after ∧ after.size =
      coordinator.size + vectors.length ∧
      after.shards.length = coordinator.shards.length ∧ ∀ (place : Nat) (found : Shard Float32Bits G),
        after.shards[place]? = some found →
        ∃ shard batch, coordinator.shards[place]? = some shard ∧ batches[place]? = some batch ∧
          Shard.addBatch np batch.globalIds batch.vectors batch.payloads shard = .ok () found := by
  have all : ∀ pair ∈ coordinator.shards.zip batches,
      ∃ after, Shard.addBatch np pair.2.globalIds pair.2.vectors pair.2.payloads pair.1 = .ok () after := by
    intro pair member
    rcases List.mem_iff_getElem?.mp member with ⟨place, isPair⟩
    rcases List.getElem?_zip_eq_some.mp isPair with ⟨isShard, isBatch⟩
    exact each place pair.1 pair.2 isShard isBatch
  rcases addBatches_returns all with ⟨shards, ran, taken⟩
  have length : shards.length = coordinator.shards.length := by
    rw [← taken.length_eq, List.length_zip, count, Nat.min_self]
  refine ⟨⟨coordinator.size + vectors.length, shards⟩, ?_, rfl, length, fun place found isFound => ?_⟩
  · unfold add
    simp only [routed, ran]
  · have inside : place < coordinator.shards.length := length ▸ (List.getElem?_eq_some_iff.mp isFound).1
    have isShard := List.getElem?_eq_getElem inside
    have isBatch := List.getElem?_eq_getElem (count ▸ inside : place < batches.length)
    have isPair : (coordinator.shards.zip batches)[place]? = some (coordinator.shards[place], batches[place]) :=
      List.getElem?_zip_eq_some.mpr ⟨isShard, isBatch⟩
    rcases forall₂_getElem? taken isPair with ⟨other, isOther, took⟩
    obtain rfl : other = found := Option.some.inj (isOther.symm.trans isFound)
    exact ⟨_, _, isShard, isBatch, took⟩

end Coordinator

end Rows

end VectorSearch
