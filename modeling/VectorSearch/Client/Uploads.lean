import VectorSearch.Client.GrpcCoordinator
import VectorSearch.Lib.Protobuf

namespace VectorSearch

/-!
# The size of uploads

The requests that `add` sends, as bytes on the wire.  The number of vectors in a
request is computed from the vectors and the largest payload alone; the ids and
what stands before each field come on top of that.
-/

/-- The bytes of an `AddRequest`. -/
def AddRequest.encode (request : AddRequest) : Bytes :=
  Protobuf.packed 1 Protobuf.int64 request.globalIds ++ Protobuf.number 2 (request.dim % 2 ^ 64).toNat ++
    Protobuf.packed 3 Protobuf.fixed32 request.values ++ Protobuf.number 4 request.seq ++
    request.payloads.flatMap fun text => Protobuf.delimited 5 (encodeUtf8 text)

/-- The largest message that gRPC takes by default. -/
def maxMessageBytes : Nat := 4 * 1024 * 1024

namespace GrpcCoordinator

/-! ## What is sent -/

/-- A call of `add`. -/
structure AddCall where
  coordinator : GrpcCoordinator
  vectors : Matrix Float32Bits
  payloads : Option (List Payload)
  name : Option String

/-- The payload texts of a call. -/
def AddCall.texts (call : AddCall) : Except Error (List String) :=
  tagNamespace call.payloads call.vectors.rows.length call.name >>= fun tagged =>
    encodePayloads tagged call.vectors.rows.length

/-- The bytes of the largest payload. -/
def largestPayload (encoded : List String) : Nat :=
    (encoded.map fun text => (encodeUtf8 text).length).foldl max 0

section Sending

variable {D : Type}

/-- The request that a call sends. -/
def requestOf : Remote.Event Rpc (Rpc.Answer D) → Option AddRequest
  | ⟨.startAdd _ request, _⟩ => some request
  | _ => none

/-- The requests that a call of `add` has sent at some moment, or in all. -/
def AddCall.Sends (D : Type) (call : AddCall) (requests : List AddRequest) : Prop :=
  Remote.Passes (Remote.observing (requestOf (D := D)))
    (add call.vectors call.payloads call.name call.coordinator) []
      requests ∨
    ∃ result, Remote.Runs (Remote.observing (requestOf (D := D)))
      (add call.vectors call.payloads call.name call.coordinator) [] result requests

/-- Rows as they are routed to a shard. -/
structure Routed (rows : List (List Float32Bits)) (encoded : List String)
    (batch : RoutedBatch Float32Bits) : Prop where
  vectors : batch.vectors.length = batch.globalIds.length
  payloads : batch.payloads.length = batch.globalIds.length
  row : ∀ vector ∈ batch.vectors, vector ∈ rows
  text : ∀ text ∈ batch.payloads, text ∈ encoded

variable {rows : List (List Float32Bits)} {encoded : List String}

theorem Routed.empty : Routed rows encoded .empty :=
  ⟨rfl, rfl, (fun _ impossible => nomatch impossible), fun _ impossible => nomatch impossible⟩

theorem Routed.append {batch : RoutedBatch Float32Bits} (routed : Routed rows encoded batch) (globalId : Int)
    {vector : List Float32Bits} {text : String} (isRow : vector ∈ rows) (isText : text ∈ encoded) :
    Routed rows encoded (batch.append globalId vector text) := by
  refine ⟨?_, ?_, fun other member => ?_, fun other member => ?_⟩
  · simp only [RoutedBatch.append, List.length_append, routed.vectors, List.length_singleton]
  · simp only [RoutedBatch.append, List.length_append, routed.payloads, List.length_singleton]
  · rcases List.mem_append.mp member with old | new
    · exact routed.row other old
    · rw [List.mem_singleton.mp new]
      exact isRow
  · rcases List.mem_append.mp member with old | new
    · exact routed.text other old
    · rw [List.mem_singleton.mp new]
      exact isText

theorem routeFrom_routed {numShards offset : Nat} {startId : Int} {vectors : List (List Float32Bits)}
    {batches routed : List (RoutedBatch Float32Bits)} (within : vectors ⊆ rows)
    (before : ∀ batch ∈ batches, Routed rows encoded batch)
    (ok : routeFrom numShards encoded startId offset vectors batches = .ok routed) :
    ∀ batch ∈ routed, Routed rows encoded batch := by
  induction vectors generalizing offset batches with
  | nil =>
      cases ok
      exact before
  | cons vector vectors inductionHypothesis =>
      unfold routeFrom at ok
      split at ok
      · cases ok
      · split at ok
        · cases ok
        · rename_i text found
          refine inductionHypothesis (fun other member => within (List.mem_cons_of_mem _ member)) ?_ ok
          intro batch member
          rcases List.mem_iff_getElem?.mp member with ⟨place, isPlace⟩
          rw [List.getElem?_modify] at isPlace
          rcases Option.map_eq_some_iff.mp isPlace with ⟨old, isOld, rfl⟩
          have isRouted := before old (List.mem_of_getElem? isOld)
          split
          · exact isRouted.append _ (within List.mem_cons_self) (List.mem_of_getElem? found)
          · exact isRouted

/-- Whatever is routed where, the rows of a shard go together. -/
theorem route_routed {name : Option String} {numShards : Nat} {startId : Int}
    {batches : List (RoutedBatch Float32Bits)} (sameLength : encoded.length = rows.length)
    (ok : route rows encoded name numShards startId = .ok batches) : ∀ batch ∈ batches,
    Routed rows encoded batch := by
  have none : ∀ batch ∈ List.replicate numShards (RoutedBatch.empty (F := Float32Bits)),
    Routed rows encoded batch := by
    intro batch member
    rw [List.eq_of_mem_replicate member]
    exact .empty
  cases name with
  | none => exact routeFrom_routed (List.Subset.refl _) none ok
  | some name =>
      rcases Stateful.gave_bind ok with ⟨shard, _, same⟩
      cases same
      intro batch member
      rcases List.mem_or_eq_of_mem_set member with old | rfl
      · exact none batch old
      · have ids : (idRange startId rows.length).length = rows.length := by
          rw [idRange, List.length_map, List.length_range]
        exact ⟨ids.symm, sameLength.trans ids.symm, fun _ isRow => isRow, fun _ isText => isText⟩

/-- A request for some rows of one shard. -/
def AddCall.Requests (call : AddCall) (request : AddRequest) : Prop :=
  ∃ encoded count batch start seq, call.texts = .ok encoded ∧ perRequest call.vectors.dim encoded = .ok count ∧
    Routed call.vectors.rows encoded batch ∧ Chunks.chunk batch.globalIds count start ≠ [] ∧
    request = chunkRequest batch call.vectors.dim start count seq

/-- Nothing else was sent. -/
def AddCall.Sent (call : AddCall) (requests : List AddRequest) : Prop := ∀ request ∈
    requests, call.Requests request

theorem encodePayloads_length {payloads : Option (List Payload)} {count : Nat} {encoded : List String}
    (ok : encodePayloads payloads count = .ok encoded) : encoded.length = count := by
  unfold encodePayloads at ok
  split at ok
  · cases ok
    exact List.length_replicate
  · split at ok
    · cases ok
    · rename_i same
      rw [← (Stateful.mapM_ok ok).length_eq]
      exact not_not.mp same

section Triple

variable {call : AddCall} {α : Type}

/-- Code that sends nothing. -/
theorem silent_sent {client : Coordinating D α} (silent : Client.Only (fun rpc => ∀ answer : Rpc.Answer D rpc,
      requestOf ⟨rpc, answer⟩ = none) client) :
    Client.Ensures (Remote.observing (requestOf (D := D))) call.Sent (fun _ => call.Sent) client
      (fun _ _ => call.Sent)
      fun _ _ => call.Sent := by
  refine Client.Ensures.of_only silent (fun _ _ _ move => nomatch move) (fun _ sent => sent) ?_
  rintro rpc isSilent requests answer last sent rfl
  rw [isSilent answer, Option.toList_none, List.append_nil]
  exact sent

theorem sendTo_sent {request : AddRequest} (isRequest : call.Requests request) (replicas : List ReplicaId) :
    Client.Ensures (Remote.observing (requestOf (D := D))) call.Sent (fun _ => call.Sent)
      (sendTo request replicas)
      (fun _ _ => call.Sent) fun _ _ => call.Sent := by
  induction replicas with
  | nil => exact Client.Ensures.pure fun _ _ sent => sent
  | cons replica rest inductionHypothesis =>
      refine Client.Ensures.through (fun _ _ => call.Sent) ?_ fun handle => ?_
      · refine Client.Ensures.call (fun _ _ _ _ move => nomatch move) (fun _ _ sent => sent) ?_
        rintro _ requests answer last sent rfl other member
        rcases List.mem_append.mp member with old | new
        · exact sent other old
        · rw [List.mem_singleton.mp new]
          exact isRequest
      · exact Client.Ensures.bind inductionHypothesis fun calls => Client.Ensures.pure fun _ _ sent => sent

theorem sendChunk_sent {encoded : List String} {count : Nat} (texts : call.texts = .ok encoded)
    (isCount : perRequest call.vectors.dim encoded = .ok count) (start shard : Nat)
    (batches : List (RoutedBatch Float32Bits))
    (routed : ∀ batch ∈ batches, Routed call.vectors.rows encoded batch) :
    Client.Ensures (Remote.observing (requestOf (D := D))) call.Sent (fun _ => call.Sent)
      (sendChunk call.vectors.dim start count shard batches) (fun _ _ => call.Sent) fun _ _ => call.Sent := by
  induction batches generalizing shard with
  | nil => exact Client.Ensures.pure fun _ _ sent => sent
  | cons batch batches inductionHypothesis =>
      have later := fun shard => inductionHypothesis shard fun other member =>
        routed other (List.mem_cons_of_mem _ member)
      unfold sendChunk
      split
      · exact later _
      · rename_i some
        refine Client.Ensures.get_bind fun read => ?_
        refine Client.Ensures.lift_bind (fun seq _ => ?_) fun _ _ _ _ sent => sent.2
        have isRequest : call.Requests (chunkRequest batch call.vectors.dim start count seq) :=
          ⟨encoded, count, batch, start, seq, texts, isCount, routed batch List.mem_cons_self, some, rfl⟩
        refine Client.Ensures.imp ?_ (fun _ _ sent => sent.2) (fun _ _ _ sent => sent) fun _ _ _ sent => sent
        refine Client.Ensures.bind (sendTo_sent isRequest _) fun calls => ?_
        exact Client.Ensures.bind (later _) fun _ => Client.Ensures.pure fun _ _ sent => sent

theorem statusesOf_sent (replicas : List ReplicaId) :
    Client.Ensures (Remote.observing (requestOf (D := D))) call.Sent (fun _ => call.Sent) (statusesOf replicas)
      (fun _ _ => call.Sent) fun _ _ => call.Sent := by
  refine silent_sent ?_
  induction replicas with
  | nil => exact .pure _
  | cons replica rest inductionHypothesis =>
      refine .bind (.call fun _ => rfl) fun answer => ?_
      split
      · exact .throw _
      · exact .bind inductionHypothesis fun _ => .pure _

theorem checkShards_sent : Client.Ensures (Remote.observing (requestOf (D := D))) call.Sent
    (fun _ => call.Sent) checkShards
    (fun _ _ => call.Sent) fun _ _ => call.Sent := by
  refine Client.Ensures.get_bind fun read => ?_
  refine Client.Ensures.imp (Client.Ensures.forM (fun _ _ => call.Sent) fun _ shard _ _ => ?_)
    (fun _ _ sent => sent.2)
    (fun _ _ _ sent => sent) fun _ _ _ sent => sent
  refine Client.Ensures.get_bind fun read => ?_
  refine Client.Ensures.imp ?_ (fun _ _ sent => sent.2) (fun _ _ _ sent => sent) fun _ _ _ sent => sent
  split
  · refine Client.Ensures.bind (statusesOf_sent _) fun statuses => ?_
    refine Client.Ensures.through (fun _ _ => call.Sent) (Client.Ensures.modify fun _ _ sent => sent)
      fun _ => ?_
    refine Client.Ensures.lift_bind (fun position _ => ?_) fun _ _ _ _ sent => sent
    exact Client.Ensures.modify fun _ _ sent => sent
  · exact Client.Ensures.pure fun _ _ sent => sent

theorem waitFor_sent (calls : List (Nat × Nat)) (reported : Reported) :
    Client.Ensures (Remote.observing (requestOf (D := D))) call.Sent (fun _ => call.Sent)
      (waitFor calls reported)
      (fun _ _ => call.Sent) fun _ _ => call.Sent := by
  refine silent_sent ?_
  induction calls generalizing reported with
  | nil => exact .pure _
  | cons waiting calls inductionHypothesis =>
      exact .bind (.call fun _ => rfl) fun answer => inductionHypothesis _

theorem addChunk_sent {encoded : List String} {count : Nat} (texts : call.texts = .ok encoded)
    (isCount : perRequest call.vectors.dim encoded = .ok count) (start : Nat)
    {batches : List (RoutedBatch Float32Bits)}
    (routed : ∀ batch ∈ batches, Routed call.vectors.rows encoded batch) :
    Client.Ensures (Remote.observing (requestOf (D := D))) call.Sent (fun _ => call.Sent)
      (addChunk batches call.vectors.dim count start) (fun _ _ => call.Sent) fun _ _ => call.Sent := by
  refine Client.Ensures.bind (sendChunk_sent texts isCount start 0 batches routed) fun calls => ?_
  refine Client.Ensures.bind (waitFor_sent calls _) fun reported => ?_
  split
  · refine Client.Ensures.through (fun _ _ => call.Sent) (Client.Ensures.modify fun _ _ sent => sent)
      fun _ => ?_
    exact Client.Ensures.throw fun _ _ sent => sent
  · refine Client.Ensures.imp (Client.Ensures.forM (fun _ _ => call.Sent) fun _ entry _ _ => ?_)
      (fun _ _ sent => sent)
      (fun _ _ _ sent => sent) fun _ _ _ sent => sent
    unfold settle
    split
    · exact Client.Ensures.modify fun _ _ sent => sent
    · exact Client.Ensures.throw fun _ _ sent => sent

theorem add_sent (call : AddCall) : Client.Ensures (Remote.observing (requestOf (D := D))) call.Sent
    (fun _ => call.Sent)
    (add call.vectors call.payloads call.name) (fun _ _ => call.Sent) fun _ _ => call.Sent := by
  unfold add
  split
  · exact Client.Ensures.pure fun _ _ sent => sent
  refine Client.Ensures.lift_bind (fun tagged isTagged => ?_) fun _ _ _ _ sent => sent
  refine Client.Ensures.lift_bind (fun encoded isEncoded => ?_) fun _ _ _ _ sent => sent
  have texts : call.texts = .ok encoded := by
    unfold AddCall.texts
    rw [isTagged]
    exact isEncoded
  refine Client.Ensures.bind checkShards_sent fun _ => ?_
  refine Client.Ensures.lift_bind (fun count isCount => ?_) fun _ _ _ _ sent => sent
  refine Client.Ensures.get_bind fun read => ?_
  refine Client.Ensures.lift_bind (fun batches isRouted => ?_) fun _ _ _ _ sent => sent.2
  have routed := route_routed (encodePayloads_length isEncoded) isRouted
  refine Client.Ensures.through (fun _ _ => call.Sent) (Client.Ensures.modify fun _ _ sent => sent.2)
    fun _ => ?_
  refine Client.Ensures.lift_bind (fun longest _ => ?_) fun _ _ _ _ sent => sent
  exact Client.Ensures.imp (Client.Ensures.forM (fun _ _ => call.Sent) fun _ start _ _ =>
    addChunk_sent texts isCount start routed) (fun _ _ sent => sent) (fun _ _ _ sent => sent)
      fun _ _ _ sent => sent

end Triple

/-- What a call of `add` sends. -/
theorem AddCall.Sends.requests {call : AddCall} {requests : List AddRequest} (sends : call.Sends D requests) :
    ∀ request ∈ requests, call.Requests request := by
  have ensures := add_sent (D := D) call call.coordinator [] (fun _ impossible => nomatch impossible)
  rcases sends with pass | ⟨result, run⟩
  · exact ensures.2 _ pass
  · have sent := ensures.1 _ _ run
    cases result with
    | ok value state => exact sent
    | error error state => exact sent

end Sending

end GrpcCoordinator
end VectorSearch
