import VectorSearch.Lib.JsonReading
import VectorSearch.Client.Uploads
import VectorSearch.Lib.Embedding

namespace VectorSearch

/-!
# Uploads and the limit of gRPC

A request with more than one vector stays below the limit, for all ids of so
many bytes, exactly when these and the bytes before each payload are fewer than
those that the number of vectors was computed from.
-/

namespace GrpcCoordinator

variable {D : Type} {encoded : List String} {rows : List (List Float32Bits)}

/-! ## The largest payload -/

theorem le_largestPayload {text : String} (member : text ∈ encoded) : (encodeUtf8 text).length ≤
    largestPayload encoded :=
  le_foldl_max (.inl (List.mem_map_of_mem member))

theorem encodeUtf8_nil {text : String} : (encodeUtf8 text).length = 0 ↔ text = "" := by
  constructor
  · intro none
    have same : encodeUtf8 text = encodeUtf8 "" := List.eq_nil_of_length_eq_zero none
    have decoded := congrArg decodeUtf8 same
    rw [decodeUtf8_encodeUtf8, decodeUtf8_encodeUtf8] at decoded
    exact Except.ok.inj decoded
  · rintro rfl
    rfl

/-- The bytes before a payload: none where no payload is sent, else a tag and a
length. -/
def payloadOverhead (largest : Nat) : Nat := if largest = 0 then 0 else 2

/-- What the coordinator reckons with for a vector. -/
def reckoned (dim largest : Nat) : Nat := dim * itemSize + largest

theorem perRequest_ok {dim count : Nat} (positive : 0 < dim) (ok : perRequest dim encoded = .ok count) :
    count = max 1 (maxAddBytes / reckoned dim (largestPayload encoded)) := by
  have some : reckoned dim (largestPayload encoded) ≠ 0 := by
    unfold reckoned itemSize
    omega
  unfold perRequest at ok
  exact (Except.ok.inj ((if_neg some).symm.trans ok)).symm

/-! ## The parts of a request -/

section Parts

variable {batch : RoutedBatch Float32Bits} {dim start count seq : Nat}

theorem chunk_length_le {α : Type} (values : List α) (size start : Nat) :
    (Chunks.chunk values size start).length ≤ size :=
  List.length_take_le _ _

theorem chunk_subset {α : Type} (values : List α) (size start : Nat) :
    Chunks.chunk values size start ⊆ values :=
  fun _ member => List.mem_of_mem_drop (List.mem_of_mem_take member)

theorem chunk_length {α β : Type} {values : List α} {others : List β} (same : values.length = others.length)
    (size start : Nat) : (Chunks.chunk values size start).length = (Chunks.chunk others size start).length := by
  unfold Chunks.chunk
  rw [List.length_take, List.length_take, List.length_drop, List.length_drop, same]

theorem flatten_length {values : List (List Float32Bits)} (shape : ∀ value ∈ values, value.length = dim) :
    values.flatten.length = values.length * dim := by
  induction values with
  | nil => exact (Nat.zero_mul dim).symm
  | cons value values inductionHypothesis =>
      rw [List.flatten_cons, List.length_append, List.length_cons, Nat.succ_mul, Nat.add_comm,
        shape value List.mem_cons_self,
        inductionHypothesis fun other member => shape other (List.mem_cons_of_mem _ member)]

theorem Routed.values_length (routed : Routed rows encoded batch) (shape : ∀ row ∈ rows, row.length = dim) :
    (chunkRequest batch dim start count seq).values.length =
      (chunkRequest batch dim start count seq).globalIds.length * dim := by
  have shaped : ∀ value ∈ Chunks.chunk batch.vectors count start, value.length = dim :=
    fun value member => shape value (routed.row value (chunk_subset _ _ _ member))
  exact (flatten_length shaped).trans (congrArg (· * dim) (chunk_length routed.vectors count start))

/-- The payloads of a request take at most so many bytes. -/
theorem Routed.payloads_le (routed : Routed rows encoded batch) {before : Nat}
    (few : largestPayload encoded ≠ 0 → ∀ bytes ≤ largestPayload encoded, 1 +
      (Protobuf.varint bytes).length ≤ before) :
    ((chunkRequest batch dim start count seq).payloads.flatMap fun text => Protobuf.delimited 5
      (encodeUtf8 text)).length ≤
      (chunkRequest batch dim start count seq).globalIds.length *
        if largestPayload encoded = 0 then 0 else before + largestPayload encoded := by
  have within : ∀ text ∈ Chunks.chunk batch.payloads count start, (encodeUtf8 text).length ≤
    largestPayload encoded :=
    fun text member => le_largestPayload (routed.text text (chunk_subset _ _ _ member))
  unfold chunkRequest
  dsimp only
  split
  · rename_i some
    rcases List.any_eq_true.mp some with ⟨text, member, isText⟩
    have isLarge : largestPayload encoded ≠ 0 := by
      intro none
      have empty := Nat.le_zero.mp (none ▸ within text member)
      rw [encodeUtf8_nil.mp empty] at isText
      cases isText
    rw [if_neg isLarge, ← chunk_length routed.payloads count start]
    refine Protobuf.flatMap_length_le fun other isOther => ?_
    rw [Protobuf.delimited_length (by decide)]
    exact Nat.add_le_add (few isLarge _ (within other isOther)) (within other isOther)
  · exact Nat.zero_le _

end Parts

/-! ## Requests below the limit -/

/-- The counted and the uncounted bytes of a request. -/
theorem upload_bytes {rows bytes dim largest before : Nat} (few : bytes ≤ 9)
    (isBefore : before = if largest = 0 then 0 else if largest < 128 then 2 else 5)
    (counted : rows * reckoned dim largest ≤ maxAddBytes) (below : bytes + payloadOverhead largest <
      reckoned dim largest) :
    rows * bytes + rows * dim * 4 + rows * (before + largest) + 32 ≤ maxMessageBytes := by
  unfold reckoned itemSize at counted below
  unfold maxAddBytes at counted
  unfold maxMessageBytes
  have scaled := Nat.mul_le_mul_left rows below
  have vectors : rows * (dim * 4) = rows * dim * 4 := (Nat.mul_assoc rows dim 4).symm
  rw [Nat.succ_eq_add_one, Nat.mul_add, Nat.mul_add, Nat.mul_add, Nat.mul_one, vectors] at scaled
  rw [Nat.mul_add, vectors] at counted
  rw [Nat.mul_add]
  have fewBytes : rows * bytes ≤ rows * 9 := Nat.mul_le_mul_left rows few
  rcases Nat.lt_or_ge rows 32 with isFew | areMany
  · have fewBefore : rows * before ≤ rows * 5 := by
      refine Nat.mul_le_mul_left rows ?_
      rw [isBefore]
      split
      · decide
      · split <;> decide
    omega
  · unfold payloadOverhead at scaled
    split at isBefore
    · rename_i none
      rw [isBefore, none, Nat.mul_zero]
      rw [if_pos none, none, Nat.mul_zero] at scaled
      omega
    · rename_i some
      rw [if_neg some] at scaled
      split at isBefore
      · rw [isBefore]
        omega
      · -- so large a payload leaves room for few vectors only
        rename_i notSmall
        have large : rows * 128 ≤ rows * largest := Nat.mul_le_mul_left rows (Nat.not_lt.mp notSmall)
        rw [isBefore]
        omega

/-- A request that gRPC takes, or that could not be smaller. -/
def Fits (request : AddRequest) : Prop := request.globalIds.length = 1 ∨ request.encode.length ≤ maxMessageBytes

/-- Ids that take at most so many bytes, and a seq of 64 bits. -/
structure Wire (bytes : Nat) (request : AddRequest) : Prop where
  ids : ∀ id ∈ request.globalIds, 0 ≤ id ∧ id < 128 ^ bytes
  seq : request.seq < 2 ^ 64

/-- The ids of a request. -/
theorem Wire.ids_bytes {bytes : Nat} {request : AddRequest} (wire : Wire bytes request) (some : 0 < bytes)
    (few : bytes ≤ 9) (fewRows : request.globalIds.length ≤ maxAddBytes) :
    (Protobuf.packed 1 Protobuf.int64 request.globalIds).length ≤ 1 + 4 + request.globalIds.length * bytes := by
  refine Protobuf.packed_length_le (by decide) (fun id member => ?_) (by decide) ?_
  · rcases wire.ids id member with ⟨natural, small⟩
    refine Protobuf.int64_length_le some (lt_of_lt_of_le small ?_) natural small
    exact le_trans (pow_le_pow_right₀ (by decide) few) (by decide : (128 : Int) ^ 9 ≤ 2 ^ 64)
  · have fewBytes := Nat.mul_le_mul fewRows few
    unfold maxAddBytes at fewBytes
    omega

section Sizes

variable {rows : List (List Float32Bits)} {encoded : List String} {batch : RoutedBatch Float32Bits}
  (dim start count seq : Nat)

/-- The vectors of a request. -/
theorem Routed.values_bytes (routed : Routed rows encoded batch) (shape : ∀ row ∈ rows, row.length = dim)
    (counted : (chunkRequest batch dim start count seq).globalIds.length * dim * itemSize ≤ maxAddBytes) :
    (Protobuf.packed 3 Protobuf.fixed32 (chunkRequest batch dim start count seq).values).length ≤
      1 + 4 + (chunkRequest batch dim start count seq).globalIds.length * dim * 4 := by
  have isLength : (chunkRequest batch dim start count seq).values.length =
      (chunkRequest batch dim start count seq).globalIds.length * dim := routed.values_length shape
  rw [← isLength] at counted ⊢
  refine Protobuf.packed_length_le (by decide)
    (fun value _ => Nat.le_of_eq (Protobuf.fixed32_length value)) (by decide) ?_
  exact Nat.lt_of_le_of_lt counted (by decide)

/-- The payloads of a request, the largest of a length that is itself sent in four
bytes at most. -/
theorem Routed.payloads_bytes (routed : Routed rows encoded batch)
    (isLargest : largestPayload encoded ≤ maxAddBytes) :
    ((chunkRequest batch dim start count seq).payloads.flatMap fun text => Protobuf.delimited 5
      (encodeUtf8 text)).length ≤
      (chunkRequest batch dim start count seq).globalIds.length *
        ((if largestPayload encoded = 0 then 0 else if largestPayload encoded < 128 then 2 else 5) +
          largestPayload encoded) := by
  have before : (if largestPayload encoded = 0 then 0
      else (if largestPayload encoded < 128 then 2 else 5) + largestPayload encoded) =
      (if largestPayload encoded = 0 then 0 else if largestPayload encoded < 128 then 2 else 5) +
        largestPayload encoded := by
    split
    · rename_i none
      rw [none]
    · rfl
  rw [← before]
  refine routed.payloads_le fun _ size within => ?_
  split
  · rename_i small
    rw [Protobuf.varint_small (Nat.lt_of_le_of_lt within small)]
  · have isFew : (Protobuf.varint size).length ≤ 4 :=
      Protobuf.varint_length_le (by decide) (Nat.lt_of_le_of_lt (Nat.le_trans within isLargest) (by decide))
    exact Nat.add_le_add_left isFew 1

end Sizes

theorem AddCall.Requests.fits {call : AddCall} {request : AddRequest} {encoded : List String} {bytes : Nat}
    (requests : call.Requests request) (texts : call.texts = .ok encoded) (positive : 0 < call.vectors.dim)
    (some : 0 < bytes) (few : bytes ≤ 9) (wire : Wire bytes request)
    (below : bytes + payloadOverhead (largestPayload encoded) < reckoned call.vectors.dim
      (largestPayload encoded)) : Fits request := by
  rcases requests with ⟨other, count, batch, start, seq, isTexts, isCount, routed, nonempty, rfl⟩
  cases texts.symm.trans isTexts
  by_cases one : (Chunks.chunk batch.globalIds count start).length = 1
  · exact .inl one
  refine .inr ?_
  have positiveRows : 0 < (Chunks.chunk batch.globalIds count start).length := List.length_pos_iff.mpr nonempty
  have isWidth : 0 < reckoned call.vectors.dim (largestPayload encoded) := by
    unfold reckoned itemSize
    omega
  have counted : (Chunks.chunk batch.globalIds count start).length *
      reckoned call.vectors.dim (largestPayload encoded) ≤ maxAddBytes := by
    have rows := chunk_length_le batch.globalIds count start
    have isMax := perRequest_ok positive isCount
    rw [← Nat.le_div_iff_mul_le isWidth]
    omega
  have most : (Chunks.chunk batch.globalIds count start).length * call.vectors.dim * itemSize +
      (Chunks.chunk batch.globalIds count start).length * largestPayload encoded ≤ maxAddBytes := by
    rw [Nat.mul_assoc, ← Nat.mul_add]
    exact counted
  have ids := wire.ids_bytes some few (Nat.le_trans (Nat.le_mul_of_pos_right _ isWidth) counted)
  have dim : (Protobuf.number 2 ((call.vectors.dim : Int) % 2 ^ 64).toNat).length ≤ 1 + 10 :=
    Protobuf.number_length_le (by decide) (by decide) (by omega)
  have values := routed.values_bytes call.vectors.dim start count seq call.vectors.shape
    (Nat.le_trans (Nat.le_add_right _ _) most)
  have isSeq : (Protobuf.number 4 seq).length ≤ 1 + 10 :=
    Protobuf.number_length_le (by decide) (by decide) (Nat.lt_trans wire.seq (by decide))
  have payloads := routed.payloads_bytes call.vectors.dim start count seq
    (Nat.le_trans (Nat.le_mul_of_pos_left _ positiveRows) (Nat.le_trans (Nat.le_add_left _ _) most))
  have whole := upload_bytes few rfl
    (show (chunkRequest batch call.vectors.dim start count seq).globalIds.length *
    reckoned call.vectors.dim (largestPayload encoded) ≤ maxAddBytes from counted) below
  unfold AddRequest.encode
  rw [List.length_append, List.length_append, List.length_append, List.length_append]
  have parts := Nat.add_le_add (Nat.add_le_add (Nat.add_le_add (Nat.add_le_add ids dim) values) isSeq) payloads
  exact Nat.le_trans parts (by omega)

/-! ## Requests above the limit -/

/-- Every request of the call, with ids of at most so many bytes, is one that gRPC
takes, or has a single vector. -/
def AddCall.Meets (D : Type) (bytes : Nat) (call : AddCall) : Prop :=
  ∀ requests, call.Sends D requests → ∀ request ∈ requests, Wire bytes request → Fits request

/-- The dimension and the largest payload of a call. -/
def AddCall.OfSize (dim largest : Nat) (call : AddCall) : Prop :=
  call.vectors.dim = dim ∧ ∃ encoded, call.texts = .ok encoded ∧ largestPayload encoded = largest

/-- The text of a payload. -/
def payloadText : Payload → String
  | none => ""
  | some entries => (PyValue.dict entries).dumps false

theorem length_le_encodeUtf8 (chars : List Char) : chars.length ≤
    (encodeUtf8 (String.ofList chars)).length := by
  have size : ∀ text : String, (encodeUtf8 text).length = text.utf8ByteSize := fun text => rfl
  induction chars with
  | nil => exact Nat.zero_le _
  | cons c rest inductionHypothesis =>
      have split : String.ofList (c :: rest) = String.singleton c ++ String.ofList rest := by
        apply String.toList_inj.mp
        simp
      have isChar := Char.utf8Size_pos c
      rw [size] at inductionHypothesis ⊢
      rw [split, String.utf8ByteSize_append, String.utf8ByteSize_singleton, List.length_cons]
      omega
/-- A payload with a short text has no integer that is too long to print. -/
theorem printable_of_short {entries : List (PyKey × PyValue)}
    (short : (encodeUtf8 (payloadText (some entries))).length ≤ JsonNumber.maxDigits) :
    (PyValue.dict entries).printable = true := by
  by_contra long
  have many := PyValue.write_long false (.dict entries) (Bool.eq_false_iff.mpr long)
  exact absurd (Nat.lt_of_lt_of_le many (length_le_encodeUtf8 _)) (Nat.not_lt.mpr short)

/-- As many vectors as the coordinator puts in one request, all with the same
payload. -/
def fullRows (dim : Nat) (payload : Payload) : Nat := maxAddBytes / reckoned dim
    (encodeUtf8 (payloadText payload)).length

/-- One shard with one replica, whose next id and last seq are known. -/
def oneReplica (firstId : Int) (position : Position) : GrpcCoordinator :=
  ⟨[[⟨"replica", "replica", 0⟩]], 0, firstId, [0], 0, [0], [position]⟩

/-- A call with one such request. -/
def fullCall (dim : Nat) (payload : Payload) (firstId : Int) (position : Position) : AddCall where
  coordinator := oneReplica firstId position
  vectors := ⟨dim, List.replicate (fullRows dim payload) (List.replicate dim 0), fun _ member => by
    rw [List.eq_of_mem_replicate member, List.length_replicate]⟩
  payloads := some (List.replicate (fullRows dim payload) payload)
  name := none

/-- Its rows. -/
def fullBatch (dim : Nat) (payload : Payload) (firstId : Int) : RoutedBatch Float32Bits :=
  ⟨idRange firstId (fullRows dim payload), List.replicate (fullRows dim payload) (List.replicate dim 0),
    List.replicate (fullRows dim payload) (payloadText payload)⟩

section Full

variable {dim : Nat} {payload : Payload} {firstId : Int} {position : Position} {seq : Nat}

theorem fullCall_texts (free : (payload.any mentionsNamespace) = false)
    (short : (encodeUtf8 (payloadText payload)).length ≤ JsonNumber.maxDigits) :
    tagNamespace (some (List.replicate (fullRows dim payload) payload)) (fullRows dim payload) none =
        .ok (some (List.replicate (fullRows dim payload) payload)) ∧
      encodePayloads (some (List.replicate (fullRows dim payload) payload)) (fullRows dim payload) =
        .ok (List.replicate (fullRows dim payload) (payloadText payload)) := by
  constructor
  · unfold tagNamespace
    rw [if_neg, if_neg]
    · simp only [Option.getD_some, List.any_eq_true, not_exists, not_and]
      intro other member
      rw [List.eq_of_mem_replicate member, free]
      exact Bool.false_ne_true
    · simp only [Option.any_some, List.length_replicate, ne_eq, not_true_eq_false,
        decide_false, Bool.false_eq_true,
        not_false_eq_true]
  · unfold encodePayloads
    dsimp only
    rw [if_neg (not_not.mpr List.length_replicate)]
    have isText : encodePayload payload = .ok (payloadText payload) := by
      cases payload with
      | none => rfl
      | some entries => exact jsonDumps_eq_ok (printable_of_short short) false
    have each : ∀ rows : Nat,
        (List.replicate rows payload).mapM encodePayload = .ok (List.replicate rows (payloadText payload)) := by
      intro rows
      induction rows with
      | zero => rfl
      | succ rows inductionHypothesis =>
          rw [List.replicate_succ, List.mapM_cons, inductionHypothesis, isText]
          rfl
    exact each _

theorem fullCall_largest (some : 0 < fullRows dim payload) :
    largestPayload (List.replicate (fullRows dim payload) (payloadText payload)) =
      (encodeUtf8 (payloadText payload)).length := by
  have each : ∀ (rows first : Nat), (List.replicate rows (encodeUtf8 (payloadText payload)).length).foldl
    max first =
      if rows = 0 then first else max first (encodeUtf8 (payloadText payload)).length := by
    intro rows first
    induction rows generalizing first with
    | zero => rfl
    | succ rows inductionHypothesis =>
        rw [List.replicate_succ, List.foldl_cons, inductionHypothesis, if_neg (Nat.succ_ne_zero rows)]
        split
        · rfl
        · rw [Nat.max_assoc, Nat.max_self]
  unfold largestPayload
  rw [List.map_replicate, each, if_neg (Nat.ne_of_gt some), Nat.zero_max]

/-- With one shard all rows go there. -/
theorem routeFrom_single {vectors : List (List Float32Bits)} {texts earlier : List String} {startId : Int}
    (batch : RoutedBatch Float32Bits) (sameLength : texts.length = vectors.length) :
    routeFrom 1 (earlier ++ texts) startId earlier.length vectors [batch] =
      .ok [⟨batch.globalIds ++ (List.range vectors.length).map
        (fun place : Nat => startId + (earlier.length + place : Nat)),
        batch.vectors ++ vectors, batch.payloads ++ texts⟩] := by
  induction vectors generalizing texts earlier batch with
  | nil =>
      cases List.length_eq_zero_iff.mp sameLength
      unfold routeFrom
      simp only [List.length_nil, List.range_zero, List.map_nil, List.append_nil]
  | cons vector vectors inductionHypothesis =>
      cases texts with
      | nil => cases sameLength
      | cons text texts =>
          have found : (earlier ++ text :: texts)[earlier.length]? = some text := by
            rw [List.getElem?_append_right (Nat.le_refl _), Nat.sub_self]
            rfl
          have next := @inductionHypothesis texts (earlier ++ [text])
            (batch.append (startId + earlier.length) vector text) (Nat.succ.inj sameLength)
          rw [List.append_assoc, List.singleton_append, List.length_append, List.length_singleton] at next
          unfold routeFrom
          rw [if_neg (by decide), found]
          dsimp only
          rw [Nat.cast_one, Int.emod_one]
          refine next.trans ?_
          simp only [RoutedBatch.append, List.append_assoc, List.singleton_append, List.length_cons,
            List.range_succ_eq_map,
            List.map_cons, List.map_map]
          have shift : (fun place : Nat => startId + (earlier.length + place : Nat)) ∘ Nat.succ =
              fun place : Nat => startId + (earlier.length + 1 + place : Nat) := by
            funext place
            exact congrArg (fun place : Nat => startId + place) (by omega)
          rw [shift]
          rfl

theorem fullCall_routed :
    route (List.replicate (fullRows dim payload) (List.replicate dim 0))
      (List.replicate (fullRows dim payload) (payloadText payload)) none 1 firstId =
        .ok [fullBatch dim payload firstId] := by
  have single := @routeFrom_single (List.replicate (fullRows dim payload) (List.replicate dim 0))
    (List.replicate (fullRows dim payload) (payloadText payload)) [] firstId .empty
    (List.length_replicate.trans List.length_replicate.symm)
  refine single.trans ?_
  unfold fullBatch idRange RoutedBatch.empty
  simp only [List.nil_append, List.length_replicate, List.length_nil, Nat.zero_add]

theorem fullBatch_length : (fullBatch dim payload firstId).globalIds.length = fullRows dim payload := by
  unfold fullBatch idRange
  rw [List.length_map, List.length_range]

/-- A chunk as long as the list. -/
theorem chunk_whole {α : Type} {values : List α} {size : Nat} (isLength : values.length = size) :
    Chunks.chunk values size 0 = values := by
  unfold Chunks.chunk
  rw [List.drop_zero, ← isLength, List.take_length]

theorem fullBatch_chunk :
    Chunks.chunk (fullBatch dim payload firstId).globalIds (fullRows dim payload) 0 =
      (fullBatch dim payload firstId).globalIds :=
  chunk_whole fullBatch_length

/-- Its first request. -/
def fullRequest (dim : Nat) (payload : Payload) (firstId : Int) (seq : Nat) : AddRequest :=
  chunkRequest (fullBatch dim payload firstId) dim 0 (fullRows dim payload) seq

theorem lift_ok_bind {α β : Type} (value : α) (next : α → Coordinating D β) :
    (Client.lift (.ok value) >>= next) = next value := rfl

theorem bind_run {α β : Type} {first : Coordinating D α} {next : α → Coordinating D β}
    {coordinator after : GrpcCoordinator}
    {value : α} (ran : first coordinator = .done (.ok value after)) : (first >>= next) coordinator =
    next value after := by
  change (first coordinator).bind _ = _
  rw [ran]
  rfl

theorem starts_single {length : Nat} (positive : 0 < length) : Chunks.starts length length = [0] := by
  have once : Chunks.count length length = 1 := by
    unfold Chunks.count
    exact Nat.div_eq_of_lt_le (by omega) (by omega)
  unfold Chunks.starts
  rw [once, List.range_one, List.map_singleton, Nat.zero_mul]

theorem sendChunk_asks {batch : RoutedBatch Float32Bits} {count : Nat} (coordinator : GrpcCoordinator)
    (some : Chunks.chunk batch.globalIds count 0 ≠ [])
    (known : nextSeq (coordinator.lastSeqs[0]?.getD .unknown) = .ok seq)
    {replica : ReplicaId} {others : List ReplicaId} (replicas : coordinator.replicasOf 0 = replica :: others) :
    ∃ next, (sendChunk dim 0 count 0 [batch] : Coordinating D _) coordinator =
      .ask (.startAdd replica (chunkRequest batch dim 0 count seq)) next := by
  unfold sendChunk
  rw [if_neg some]
  change ∃ next, (Client.lift (nextSeq _) >>= fun seq =>
    sendTo _ (coordinator.replicasOf 0) >>= _ : Coordinating D _) coordinator = _
  rw [known, lift_ok_bind, replicas]
  exact ⟨_, rfl⟩

theorem asks_bind {α β : Type} {first : Coordinating D α} {coordinator : GrpcCoordinator} {rpc : Rpc}
    (asks : ∃ next, first coordinator = .ask rpc next) (rest : α → Coordinating D β) :
    ∃ next, (first >>= rest) coordinator = .ask rpc next := by
  rcases asks with ⟨next, isAsk⟩
  change ∃ next, (first coordinator).bind _ = _
  rw [isAsk]
  exact ⟨_, rfl⟩

theorem fullCall_asks (firstId : Int) (positive : 0 < dim) (some : 0 < fullRows dim payload)
    (free : (payload.any mentionsNamespace) = false)
    (short : (encodeUtf8 (payloadText payload)).length ≤ JsonNumber.maxDigits)
    (known : nextSeq position = .ok seq) :
    ∃ next, (add (fullCall dim payload firstId position).vectors
      (fullCall dim payload firstId position).payloads none :
      Coordinating D _) (fullCall dim payload firstId position).coordinator =
        .ask (.startAdd ⟨0, 0⟩ (fullRequest dim payload firstId seq)) next := by
  have count : perRequest dim (List.replicate (fullRows dim payload) (payloadText payload)) =
    .ok (fullRows dim payload) := by
    have isWidth : reckoned dim
      (largestPayload (List.replicate (fullRows dim payload) (payloadText payload))) ≠ 0 := by
      unfold reckoned itemSize
      omega
    refine (if_neg isWidth).trans (congrArg Except.ok ?_)
    change max 1 (maxAddBytes / reckoned dim (largestPayload _)) = _
    rw [fullCall_largest some]
    exact Nat.max_eq_right some
  have isFull : (List.replicate (fullRows dim payload) (List.replicate dim (0 : Float32Bits))) ≠ [] := by
    rw [Ne, List.replicate_eq_nil_iff]
    exact Nat.ne_of_gt some
  have longest : ((List.map (fun batch : RoutedBatch Float32Bits => batch.globalIds.length)
    [fullBatch dim payload firstId]).foldl
      max 0) = fullRows dim payload := by
    rw [List.map_singleton, List.foldl_cons, List.foldl_nil, Nat.zero_max]
    exact fullBatch_length
  have nonempty : Chunks.chunk (fullBatch dim payload firstId).globalIds (fullRows dim payload) 0 ≠ [] := by
    rw [fullBatch_chunk]
    exact List.ne_nil_of_length_pos (Nat.lt_of_lt_of_eq some fullBatch_length.symm)
  have checked : (checkShards : Coordinating D _) (oneReplica firstId position) =
      .done (.ok ⟨⟩ (oneReplica firstId position)) := by
    cases position with
    | unknown => cases known
    | unchecked => rfl
    | agreed seq => rfl
  have counted : (modify fun coordinator =>
      { coordinator with size := coordinator.size + (fullRows dim payload : Nat) } : Coordinating D PUnit)
        (oneReplica firstId position) =
          .done (.ok ⟨⟩ (oneReplica (firstId + (fullRows dim payload : Nat)) position)) := rfl
  unfold add fullCall
  dsimp only
  rw [if_neg isFull, List.length_replicate, (fullCall_texts free short).1, lift_ok_bind,
    (fullCall_texts free short).2,
    lift_ok_bind, bind_run checked, count, lift_ok_bind]
  change ∃ next, (Client.lift (route _ _ none 1 firstId) >>= _) _ = _
  rw [fullCall_routed, lift_ok_bind, longest, if_neg (List.cons_ne_nil _ _), lift_ok_bind, starts_single some]
  rw [bind_run counted]
  have sends : ∃ next, (sendChunk dim 0 (fullRows dim payload) 0 [fullBatch dim payload firstId] :
    Coordinating D _)
      (oneReplica (firstId + (fullRows dim payload : Nat)) position) = .ask (.startAdd ⟨0, 0⟩ _) next :=
    sendChunk_asks (oneReplica (firstId + (fullRows dim payload : Nat)) position) nonempty known rfl
  exact asks_bind (asks_bind sends _) _

/-- Every answer is possible, so the request is sent. -/
theorem fullCall_sends (D : Type) (firstId : Int) (positive : 0 < dim) (some : 0 < fullRows dim payload)
    (free : (payload.any mentionsNamespace) = false)
    (short : (encodeUtf8 (payloadText payload)).length ≤ JsonNumber.maxDigits)
    (known : nextSeq position = .ok seq) :
    ∃ requests, (fullCall dim payload firstId position).Sends D requests ∧
      fullRequest dim payload firstId seq ∈ requests := by
  rcases fullCall_asks (D := D) firstId positive some free short known with ⟨next, asks⟩
  have answered : ∀ rpc, ∀ world : List AddRequest, ∃ answer last,
      (Remote.observing (requestOf (D := D))).answers rpc world answer last := by
    intro rpc world
    have inhabited : Nonempty (Rpc.Answer D rpc) := by
      cases rpc with
      | status replica => exact ⟨.error ⟨.unknown, ""⟩⟩
      | startAdd replica request => exact ⟨(0 : Nat)⟩
      | finishAdd handle => exact ⟨.error ⟨.unknown, ""⟩⟩
      | syncFrom replica peer => exact ⟨.error ⟨.unknown, ""⟩⟩
      | startSearch replica request => exact ⟨(0 : Nat)⟩
      | finishSearch handle => exact ⟨.error ⟨.unknown, ""⟩⟩
      | monotonic => exact ⟨(0 : Int)⟩
    exact inhabited.elim fun answer => ⟨answer, _, rfl⟩
  rcases Remote.runs_exist answered (next (0 : Nat)) [fullRequest dim payload firstId seq]
    with ⟨result, last, run⟩
  refine ⟨last, .inr ⟨result, ?_⟩, run.grows.subset List.mem_cons_self⟩
  have whole : Remote.Runs (Remote.observing (requestOf (D := D)))
      (.ask (.startAdd ⟨0, 0⟩ (fullRequest dim payload firstId seq)) next) [] result last := .ask .refl rfl run
  rw [← asks] at whole
  exact whole

/-- The bytes of its request, where the ids take at least so many. -/
theorem fullRequest_bytes {bytes : Nat} (seq : Nat) (positive : 0 < dim) (isDim : dim < 2 ^ 31)
    (many : 128 ^ 2 ≤ fullRows dim payload)
    (large : 128 ^ bytes ≤ firstId) (fits : firstId + (fullRows dim payload : Nat) ≤ 2 ^ 64) :
    fullRows dim payload * (bytes + 1) + fullRows dim payload * dim * 4 + fullRows dim payload *
        (payloadOverhead (encodeUtf8 (payloadText payload)).length +
          (encodeUtf8 (payloadText payload)).length) +
      10 + (Protobuf.number 4 seq).length ≤ (fullRequest dim payload firstId seq).encode.length := by
  have isIds : (fullRequest dim payload firstId seq).globalIds = idRange firstId (fullRows dim payload) :=
    fullBatch_chunk
  have idCount : (idRange firstId (fullRows dim payload)).length = fullRows dim payload := by
    unfold idRange
    rw [List.length_map, List.length_range]
  have ids : 1 + 2 + fullRows dim payload * (bytes + 1) <
      (Protobuf.packed 1 Protobuf.int64 (fullRequest dim payload firstId seq).globalIds).length := by
    have each : ∀ id ∈ idRange firstId (fullRows dim payload), bytes + 1 ≤ (Protobuf.int64 id).length := by
      intro id member
      rcases List.mem_map.mp member with ⟨place, isPlace, rfl⟩
      have inside := List.mem_range.mp isPlace
      exact Protobuf.lt_int64_length (by omega) (by omega)
    have large : 128 ^ 2 ≤ (idRange firstId (fullRows dim payload)).length * (bytes + 1) := by
      rw [idCount]
      exact Nat.le_trans many (Nat.le_mul_of_pos_right _ (Nat.succ_pos bytes))
    rw [isIds]
    nth_rewrite 1 [← idCount]
    exact Protobuf.lt_packed_length (by decide) each large
  have dimension : 1 + 0 < (Protobuf.number 2 ((dim : Int) % 2 ^ 64).toNat).length := by
    refine Protobuf.lt_number_length (by decide) ?_
    rw [pow_zero]
    omega
  have values : 1 + 2 + fullRows dim payload * dim * 4 <
      (Protobuf.packed 3 Protobuf.fixed32 (fullRequest dim payload firstId seq).values).length := by
    have isValues : (fullRequest dim payload firstId seq).values =
        (List.replicate (fullRows dim payload) (List.replicate dim 0)).flatten :=
      congrArg List.flatten (chunk_whole List.length_replicate)
    have shape : ∀ value ∈ List.replicate (fullRows dim payload) (List.replicate dim (0 : Float32Bits)),
      value.length = dim := by
      intro value member
      rw [List.eq_of_mem_replicate member, List.length_replicate]
    have isLength := flatten_length shape
    rw [List.length_replicate] at isLength
    have large : 128 ^ 2 ≤ (List.replicate (fullRows dim payload)
      (List.replicate dim (0 : Float32Bits))).flatten.length * 4 := by
      rw [isLength, Nat.mul_assoc]
      exact Nat.le_trans many (Nat.le_mul_of_pos_right _ (by omega))
    rw [isValues, ← isLength]
    exact Protobuf.lt_packed_length (by decide)
      (fun value _ => Nat.le_of_eq (Protobuf.fixed32_length value).symm) large
  have payloads : fullRows dim payload *
        (payloadOverhead (encodeUtf8 (payloadText payload)).length +
          (encodeUtf8 (payloadText payload)).length) ≤
      ((fullRequest dim payload firstId seq).payloads.flatMap fun text => Protobuf.delimited 5
        (encodeUtf8 text)).length := by
    unfold payloadOverhead
    split
    · rename_i none
      rw [none]
      exact Nat.zero_le _
    · rename_i some
      have isText : (payloadText payload != "") = true := bne_iff_ne.mpr fun none =>
        some (encodeUtf8_nil.mpr none)
      have texts : Chunks.chunk (fullBatch dim payload firstId).payloads (fullRows dim payload) 0 =
          List.replicate (fullRows dim payload) (payloadText payload) := chunk_whole List.length_replicate
      have isPayloads : (fullRequest dim payload firstId seq).payloads =
          List.replicate (fullRows dim payload) (payloadText payload) := by
        unfold fullRequest chunkRequest
        dsimp only
        rw [texts, if_pos]
        exact List.any_eq_true.mpr ⟨_, List.mem_replicate.mpr ⟨by omega, rfl⟩, isText⟩
      have each : ∀ text ∈ List.replicate (fullRows dim payload) (payloadText payload),
          2 + (encodeUtf8 (payloadText payload)).length ≤ (Protobuf.delimited 5 (encodeUtf8 text)).length := by
        intro text member
        have isLength : 0 < (Protobuf.varint (encodeUtf8 (payloadText payload)).length).length :=
          Protobuf.lt_varint_length (Nat.one_le_iff_ne_zero.mpr some)
        rw [List.eq_of_mem_replicate member, Protobuf.delimited_length (by decide)]
        omega
      have least := Protobuf.le_flatMap_length each
      rw [List.length_replicate] at least
      rw [isPayloads]
      exact least
  unfold AddRequest.encode
  rw [List.length_append, List.length_append, List.length_append, List.length_append]
  change _ ≤ _ + (Protobuf.number 2 ((dim : Int) % 2 ^ 64).toNat).length + _ +
    (Protobuf.number 4 seq).length + _
  omega

/-- Where the ids and the bytes before each payload are as many as what is reckoned
with, the request is too large, but for the rest of a division. -/
theorem fullRequest_exceeds {bytes : Nat} (positive : 0 < dim) (isDim : dim < 2 ^ 31)
    (many : 128 ^ 2 ≤ fullRows dim payload)
    (large : 128 ^ bytes ≤ firstId) (fits : firstId + (fullRows dim payload : Nat) ≤ 2 ^ 64)
    (above : reckoned dim (encodeUtf8 (payloadText payload)).length ≤
      bytes + 1 + payloadOverhead (encodeUtf8 (payloadText payload)).length)
    (rest : 2 * (reckoned dim (encodeUtf8 (payloadText payload)).length - 1) < 10 +
      (Protobuf.number 4 seq).length) :
    maxMessageBytes < (fullRequest dim payload firstId seq).encode.length := by
  have least := fullRequest_bytes seq positive isDim many large fits
  have isWidth : 0 < reckoned dim (encodeUtf8 (payloadText payload)).length := by
    unfold reckoned itemSize
    omega
  have scaled := Nat.mul_le_mul_left (fullRows dim payload) above
  have division := Nat.div_add_mod maxAddBytes (reckoned dim (encodeUtf8 (payloadText payload)).length)
  have remainder := Nat.mod_lt maxAddBytes isWidth
  change _ * fullRows dim payload + _ = _ at division
  rw [Nat.mul_comm] at division
  have parts : fullRows dim payload * reckoned dim (encodeUtf8 (payloadText payload)).length =
      fullRows dim payload * dim * 4 + fullRows dim payload * (encodeUtf8 (payloadText payload)).length := by
    unfold reckoned itemSize
    rw [Nat.mul_add, Nat.mul_assoc]
  rw [Nat.mul_add] at least scaled
  rw [Nat.mul_add] at least scaled
  unfold maxAddBytes at division remainder
  unfold maxMessageBytes
  omega

theorem fullCall_ofSize (some : 0 < fullRows dim payload) (free : (payload.any mentionsNamespace) = false)
    (short : (encodeUtf8 (payloadText payload)).length ≤ JsonNumber.maxDigits) :
    (fullCall dim payload firstId position).OfSize dim (encodeUtf8 (payloadText payload)).length := by
  refine ⟨rfl, List.replicate (fullRows dim payload) (payloadText payload), ?_, fullCall_largest some⟩
  unfold AddCall.texts fullCall
  dsimp only
  rw [List.length_replicate, (fullCall_texts free short).1]
  exact (fullCall_texts free short).2

theorem fullRequest_wire {bytes : Nat} (natural : 0 ≤ firstId)
    (below : firstId + (fullRows dim payload : Nat) ≤ 128 ^ bytes) (isSeq : seq < 2 ^ 64) :
    Wire bytes (fullRequest dim payload firstId seq) := by
  refine ⟨fun id member => ?_, isSeq⟩
  have isId : id ∈ idRange firstId (fullRows dim payload) := chunk_subset _ _ _ member
  rcases List.mem_map.mp isId with ⟨place, isPlace, rfl⟩
  have inside := List.mem_range.mp isPlace
  omega

/-- Such a request is one that gRPC does not take. -/
theorem fullCall_not_meets (D : Type) {bytes : Nat} (positive : 0 < dim) (isDim : dim < 2 ^ 31)
    (free : (payload.any mentionsNamespace) = false)
    (short : (encodeUtf8 (payloadText payload)).length ≤ JsonNumber.maxDigits)
    (known : nextSeq position = .ok seq) (isSeq : seq < 2 ^ 64) (few : bytes < 9)
    (large : 128 ^ bytes ≤ firstId) (fits : firstId + (fullRows dim payload : Nat) ≤ 128 ^ (bytes + 1))
    (many : 128 ^ 2 ≤ fullRows dim payload)
    (above : reckoned dim (encodeUtf8 (payloadText payload)).length ≤
      bytes + 1 + payloadOverhead (encodeUtf8 (payloadText payload)).length)
    (rest : 2 * (reckoned dim (encodeUtf8 (payloadText payload)).length - 1) < 10 +
      (Protobuf.number 4 seq).length) :
    ¬ (fullCall dim payload firstId position).Meets D (bytes + 1) := by
  intro meets
  have some : 0 < fullRows dim payload := Nat.lt_of_lt_of_le (by decide) many
  have natural : 0 ≤ firstId := le_trans (pow_nonneg (by decide) bytes) large
  have below : (128 : Int) ^ (bytes + 1) ≤ 2 ^ 64 := by
    have most : (128 : Int) ^ (bytes + 1) ≤ 128 ^ 9 := pow_le_pow_right₀ (by decide) few
    exact le_trans most (by decide)
  rcases fullCall_sends D firstId positive some free short known with ⟨requests, sends, member⟩
  rcases meets requests sends _ member (fullRequest_wire natural fits isSeq) with one | small
  · have isLength : (fullRequest dim payload firstId seq).globalIds.length = fullRows dim payload :=
      (congrArg List.length fullBatch_chunk).trans fullBatch_length
    rw [← isLength, one] at many
    exact absurd many (by decide)
  · exact absurd small (Nat.not_le.mpr (fullRequest_exceeds positive isDim many large
      (le_trans fits below) above rest))

end Full

/-! ## When uploads stay below the limit -/

/-- The calls of one dimension and one size of the largest payload, with ids of at
most so many bytes, all stay below the limit exactly when the coordinator reckons
with more bytes for a vector than an id takes, and where there are payloads also
their tag and length. -/
theorem uploads_fit_iff (D : Type) (dim bytes : Nat) (payload : Payload) (positive : 0 < dim) (some : 0 < bytes)
    (few : bytes ≤ 9) (free : (payload.any mentionsNamespace) = false) :
    (∀ call : AddCall, call.OfSize dim (encodeUtf8 (payloadText payload)).length → call.Meets D bytes) ↔
      bytes + payloadOverhead (encodeUtf8 (payloadText payload)).length <
        reckoned dim (encodeUtf8 (payloadText payload)).length := by
  constructor
  · intro meets
    by_contra notBelow
    have isSize : 4 ≤ reckoned dim (encodeUtf8 (payloadText payload)).length ∧
        reckoned dim (encodeUtf8 (payloadText payload)).length ≤ 11 ∧ dim < 2 ^ 31 ∧ 2 < bytes := by
      unfold reckoned itemSize payloadOverhead at *
      split at notBelow <;> omega
    rcases isSize with ⟨wide, narrow, isDim, enough⟩
    rcases Nat.exists_eq_add_of_lt some with ⟨before, isBytes⟩
    rw [Nat.zero_add] at isBytes
    subst isBytes
    have rows : fullRows dim payload * reckoned dim (encodeUtf8 (payloadText payload)).length ≤ maxAddBytes :=
      Nat.div_mul_le_self _ _
    have many : 128 ^ 2 ≤ fullRows dim payload := by
      refine (Nat.le_div_iff_mul_le (by omega)).mpr (Nat.le_trans (Nat.mul_le_mul_left _ narrow) (by decide))
    have fewRows : fullRows dim payload * 4 ≤ maxAddBytes := Nat.le_trans (Nat.mul_le_mul_left _ wide) rows
    unfold maxAddBytes at fewRows
    have power : (128 : Int) ^ 2 ≤ 128 ^ before := pow_le_pow_right₀ (by decide) (by omega)
    have isSeq : 1 + 9 < (Protobuf.number 4 (2 ^ 63)).length := Protobuf.lt_number_length
      (by decide) (by decide)
    have some : 0 < fullRows dim payload := Nat.lt_of_lt_of_le (by decide) many
    have known : nextSeq (.agreed (2 ^ 63 - 1)) = .ok (2 ^ 63) := rfl
    have short : (encodeUtf8 (payloadText payload)).length ≤ JsonNumber.maxDigits :=
      Nat.le_trans (Nat.le_trans (Nat.le_add_left _ _) narrow) (by decide)
    refine fullCall_not_meets D positive isDim free short known (by decide) (by omega)
      (le_refl (128 ^ before)) ?_ many (by omega) (by omega) (meets _ (fullCall_ofSize some free short))
    rw [pow_succ]
    omega
  · rintro below call ⟨rfl, encoded, texts, isLargest⟩ requests sends request member wire
    rw [← isLargest] at below
    exact (sends.requests request member).fits texts positive some few wire below

theorem uploads_fit_iff_three : 0 < 9 ∧ 9 ≤ 9 ∧
    ((∀ call : AddCall, call.OfSize 3 (encodeUtf8 (payloadText none)).length → call.Meets Unit 9) ↔
      9 + payloadOverhead (encodeUtf8 (payloadText none)).length <
        reckoned 3 (encodeUtf8 (payloadText none)).length) :=
  ⟨by decide, by decide, uploads_fit_iff Unit 3 9 none (by decide) (by decide) (by decide) rfl⟩

/-- Vectors of one number without payloads, from id 2097152 on. -/
theorem wide_ids_exceed : ¬ ∀ call : AddCall, 0 < call.vectors.dim → call.Meets Unit 9 := by
  intro meets
  have known : nextSeq .unchecked = .ok 0 := rfl
  have exceeds : ¬ (fullCall 1 none (128 ^ 3) .unchecked).Meets Unit (3 + 1) :=
    fullCall_not_meets Unit (by decide) (by decide) rfl (by decide) known (by decide) (by decide)
      (le_refl _) (by decide) (by decide)
      (by decide) (by decide)
  refine exceeds fun requests sends request member wire => meets _ (by decide) requests sends
    request member ⟨?_, wire.seq⟩
  intro id isId
  rcases wire.ids id isId with ⟨natural, small⟩
  exact ⟨natural, lt_trans small (by decide)⟩

end GrpcCoordinator
end VectorSearch
