import VectorSearch.Client.Writing

namespace VectorSearch

/-!
# What a call of `add` has done

A call that returns has given every replica the rows of its shard, behind what
it had and under new ids.  One that raises has given it some of the first chunks
of these rows, and nothing else, and the coordinator knows no more than is true.
-/

open Stateful

/-- The shard that a row goes to: that of the namespace, or round robin by its id. -/
def targetOf (name : Option String) (numShards : Nat) (id : Int) : Nat :=
  match name with
  | none => (id % numShards).toNat
  | some name => (crc32 (encodeUtf8 name)).toNat % numShards

/-- All rows of some writes. -/
def gathered (writes : List Write) : RoutedBatch Float32Bits :=
  ⟨writes.flatMap Write.globalIds, writes.flatMap fun write => write.vectors.rows,
    writes.flatMap Write.payloads⟩

/-- The rows of some writes are those of the lists put together. -/
theorem flatMap_items (writes : List Write) :
    (writes.flatMap Write.globalIds).zip ((writes.flatMap fun write => write.vectors.rows).zip
      (writes.flatMap Write.payloads)) =
      writes.flatMap Write.items := by
  induction writes with
  | nil => rfl
  | cons write rest inductionHypothesis =>
      have texts : write.vectors.rows.length = write.payloads.length :=
        write.counted.symm.trans write.texts.symm
      have counted : write.globalIds.length = (write.vectors.rows.zip write.payloads).length := by
        rw [List.length_zip, texts, Nat.min_self, write.texts]
      rw [List.flatMap_cons, List.flatMap_cons, List.flatMap_cons, List.flatMap_cons, List.zip_append texts,
        List.zip_append counted, inductionHypothesis]
      rfl

/-- Writes that hold exactly these rows. -/
theorem gathered_items {writes : List Write} {rows : List (PlacedRow Float32Bits)}
    (isRows : gathered writes = RoutedBatch.ofRows rows) : writes.flatMap Write.items = rows := by
  rw [← flatMap_items]
  calc (gathered writes).globalIds.zip ((gathered writes).vectors.zip (gathered writes).payloads)
      = _ := by rw [isRows]
    _ = rows := RoutedBatch.zip_ofRows rows

/-- What each replica has more than before. -/
def Gained (deployment : Deployment) (histories later : ReplicaId → History)
    (rows : ReplicaId → List (PlacedRow Float32Bits)) : Prop :=
  ∀ id, deployment.Member id →
    ∃ writes, later id = (histories id).extend writes ∧ gathered writes = RoutedBatch.ofRows (rows id)

theorem RoutedBatch.Took.gathered {dim taken : Nat} {rows : List (PlacedRow Float32Bits)} {writes : List Write}
    (took : (RoutedBatch.ofRows rows).Took dim taken writes) : gathered writes = RoutedBatch.ofRows
    (rows.take taken) := by
  ext1
  · exact took.globalIds.trans List.map_take.symm
  · exact took.vectors.trans List.map_take.symm
  · exact took.payloads.trans List.map_take.symm

namespace GrpcCoordinator

theorem route_distributes {rows : List (List Float32Bits)} {encoded : List String} {name : Option String}
    {numShards : Nat} {startId : Int} {batches : List (RoutedBatch Float32Bits)} (filled : rows ≠ [])
    (same : encoded.length = rows.length) (ok : route rows encoded name numShards startId = .ok batches) :
    Distributes (targetOf name numShards) (placedRows startId rows encoded) batches ∧
      batches.length = numShards := by
  cases name with
  | none => exact routeRoundRobin_distributes filled same ok
  | some name =>
      rcases Stateful.gave_bind ok with ⟨shard, isShard, given⟩
      cases given
      have inside := shardForNamespace_lt isShard
      have isTarget : targetOf (some name) numShards = fun _ => shard := by
        funext id
        unfold shardForNamespace at isShard
        rw [if_neg (Nat.ne_of_gt (Nat.zero_lt_of_lt inside))] at isShard
        exact Except.ok.inj isShard
      rw [isTarget]
      exact routeToShard_distributes same inside

theorem route_loaded {vectors : Matrix Float32Bits} {encoded : List String} {name : Option String}
    {numShards : Nat}
    {startId : Int} {batches : List (RoutedBatch Float32Bits)} (same : encoded.length = vectors.rows.length)
    (ok : route vectors.rows encoded name numShards startId = .ok batches) : ∀ batch ∈ batches,
    batch.Loaded vectors.dim := by
  intro batch member
  have routed := route_routed same ok batch member
  exact ⟨routed.vectors, routed.payloads, fun row isRow => vectors.shape row (routed.row row isRow)⟩

/-! ## What is guaranteed of a cluster -/

/-- The copies are orderly, and hold at least the given writes. -/
structure Sound (deployment : Deployment) (origin : Nat → List Write) (copies : Nat → Copies Write) : Prop where
  orderly : Orderly deployment copies
  keeps : ∀ shard < deployment.sizes.length, origin shard <+: (copies shard).base

/-- The writes that the first replica of each shard has taken. -/
def leaders (histories : ReplicaId → History) (shard : Nat) : List Write := (histories ⟨shard, 0⟩).writes

section Guarantees

variable {D G : Type} [LinearOrder D] (np : Numpy Float32Bits D G) (npz : Npz G) (deployment : Deployment)

/-- At every moment the replicas of a shard are copies, also with requests under way. -/
def Guarded (origin : Nat → List Write) (fleet : Fleet G) : Prop :=
  ∃ copies first, Sound deployment origin copies ∧ Afloat np npz deployment copies first fleet

/-- Between two calls: a coordinator and replicas that are copies. -/
structure Ready (origin : Nat → List Write) (copies : Nat → Copies Write) (histories : ReplicaId → History)
    (state : GrpcCoordinator) (fleet : Fleet G) : Prop where
  settled : Settled np npz deployment histories fleet
  copied : Copied deployment copies histories
  sound : Sound deployment origin copies
  informed : state.Informed deployment histories

variable {np npz deployment} {origin : Nat → List Write} {copies : Nat → Copies Write}
  {histories : ReplicaId → History}
  {fleet : Fleet G}

theorem Sound.guarded (sound : Sound deployment origin copies) (copied : Copied deployment copies histories)
    (settled : Settled np npz deployment histories fleet) : Guarded np npz deployment origin fleet :=
  ⟨copies, fleet.flights.length, sound, settled.afloat copied⟩

end Guarantees

/-! ## What is known after the check -/

section Checked

variable {deployment : Deployment} {histories : ReplicaId → History} {copies : Nat → Copies Write}
  {state : GrpcCoordinator}

/-- Replicas in sync are equal. -/
theorem Informed.even (informed : state.Informed deployment histories)
    (checked : Checked (List.range deployment.sizes.length) state)
    (copied : Copied deployment copies histories) :
    ∀ id, deployment.Member id → histories id = evenly deployment (leaders histories) id := by
  intro id member
  have inside := member_inside member
  have isFirst := informed.deployed.first_member inside
  rcases checked id.shard (List.mem_range.mpr inside) with ⟨seq, isPosition⟩
  rcases informed.known _ _ isPosition with impossible | ⟨_, _, lengths⟩
  · cases impossible
  · have same := (copied id member).eq_of_length (copied ⟨id.shard, 0⟩ (deployment.member_of_group isFirst))
      ((lengths id member).1.trans (lengths ⟨id.shard, 0⟩ isFirst).1.symm)
    ext1
    · exact (copied id member).params
    · rw [same]
      rfl

theorem Informed.position (informed : state.Informed deployment histories)
    (checked : Checked (List.range deployment.sizes.length) state) {shard : Nat}
    (inside : shard < deployment.sizes.length) :
    state.lastSeqs[shard]? = some (.agreed (leaders histories shard).length) ∧
      ∀ globalId ∈ (leaders histories shard).flatMap Write.globalIds, globalId < state.size := by
  have isFirst := informed.deployed.first_member inside
  rcases checked shard (List.mem_range.mpr inside) with ⟨seq, isPosition⟩
  rcases informed.known _ _ isPosition with impossible | ⟨_, same, lengths⟩
  · cases impossible
  · cases same
    have isLength := (lengths _ isFirst).1
    exact ⟨isPosition.trans (congrArg (fun length => some (Position.agreed length)) isLength.symm),
      (lengths _ isFirst).2⟩

theorem Sound.leaders {origin : Nat → List Write} (sound : Sound deployment origin copies)
    (copied : Copied deployment copies histories) (deployed : state.Deployed deployment) :
    Sound deployment origin fun shard => Copies.even (leaders histories shard) where
  orderly := by
    refine sound.orderly.of_prefix fun shard inside => ?_
    rw [Copies.all_even]
    exact (copied _ (deployment.member_of_group (deployed.first_member inside))).has.within
  keeps := fun shard inside => (sound.keeps shard inside).trans
    (copied _ (deployment.member_of_group (deployed.first_member inside))).has.begins

end Checked

/-! ## The call -/

section Call

variable {D G : Type} [LinearOrder D] {np : Numpy Float32Bits D G} {npz : Npz G} {deployment : Deployment}
  {origin : Nat → List Write} {copies : Nat → Copies Write} {histories : ReplicaId → History} {call : AddCall}

/-- The ids that a call gives its rows: new ones, and the next ones when the
coordinator knew all that are stored. -/
structure Numbered (deployment : Deployment) (histories : ReplicaId → History) (call : AddCall) (startId : Int)
    (encoded : List String) : Prop where
  texts : call.texts = .ok encoded
  start : Kept deployment histories call.coordinator { call.coordinator with size := startId }
  fresh : ∀ id, deployment.Member id → ∀ globalId ∈ (histories id).globalIds, globalId < startId

/-- The rows of a call that go to a shard, in order. -/
def AddCall.rows (call : AddCall) (numShards : Nat) (startId : Int) (encoded : List String) (shard : Nat) :
    List (PlacedRow Float32Bits) :=
  rowsFor (targetOf call.name numShards) (placedRows startId call.vectors.rows encoded) shard

/-- After a call that has returned. -/
structure Added (np : Numpy Float32Bits D G) (npz : Npz G) (deployment : Deployment) (origin : Nat → List Write)
    (call : AddCall) (histories : ReplicaId → History) (startId : Int) (encoded : List String)
    (later : ReplicaId → History) (state : GrpcCoordinator) (fleet : Fleet G) : Prop where
  ready : Ready np npz deployment origin (fun shard => Copies.even (leaders later shard)) later state fleet
  numbered : Numbered deployment histories call startId encoded
  gained : Gained deployment histories later fun id => call.rows deployment.sizes.length
    startId encoded id.shard
  checked : Checked (List.range deployment.sizes.length) state
  size : state.size = startId + call.vectors.rows.length
  routed : ∃ batches, route call.vectors.rows encoded call.name deployment.sizes.length startId = .ok batches

/-- What a call that raised may have done. -/
inductive Effect (deployment : Deployment) (call : AddCall) (histories later : ReplicaId → History) : Prop
  | none (same : ∀ id, deployment.Member id → later id = histories id)
  | some {startId : Int} {encoded : List String} {count rounds : Nat} {taken : ReplicaId → Nat}
      (numbered : Numbered deployment histories call startId encoded)
      (isTaken : ∀ id, taken id = rounds * count ∨ taken id = (rounds + 1) * count)
      (gained : Gained deployment histories later fun id =>
        (call.rows deployment.sizes.length startId encoded id.shard).take (taken id))

/-- After a call that has raised. -/
def Stopped (np : Numpy Float32Bits D G) (npz : Npz G) (deployment : Deployment) (origin : Nat → List Write)
    (call : AddCall) (histories : ReplicaId → History) (state : GrpcCoordinator) (fleet : Fleet G) : Prop :=
  ∃ copies later, Ready np npz deployment origin copies later state fleet ∧
    Effect deployment call histories later

/-- What is known when the check has passed and the rows have been dealt out. -/
structure Dealt (deployment : Deployment) (histories : ReplicaId → History) (call : AddCall) (startId : Int)
    (encoded : List String) (count : Nat) (batches : List (RoutedBatch Float32Bits)) : Prop where
  numbered : Numbered deployment histories call startId encoded
  routed : route call.vectors.rows encoded call.name deployment.sizes.length startId = .ok batches
  distributes : Distributes (targetOf call.name deployment.sizes.length)
    (placedRows startId call.vectors.rows encoded) batches
  whole : batches.length = deployment.sizes.length
  loaded : ∀ batch ∈ batches, batch.Loaded deployment.dim
  new : NewIds startId call.vectors.rows.length batches
  positive : 0 < count
  even : ∀ id, deployment.Member id → histories id = evenly deployment (leaders histories) id

variable {startId : Int} {encoded : List String} {count rounds : Nat} {batches : List (RoutedBatch Float32Bits)}

/-- The rows of a member's shard. -/
theorem Dealt.batch (dealt : Dealt deployment histories call startId encoded count batches) {id : ReplicaId}
    (member : deployment.Member id) :
    batches[id.shard]? = some (RoutedBatch.ofRows
      (call.rows deployment.sizes.length startId encoded id.shard)) := by
  have inside : id.shard < batches.length := dealt.whole ▸ member_inside member
  rw [List.getElem?_eq_getElem inside]
  exact congrArg some (dealt.distributes.batch _ _ (List.getElem?_eq_getElem inside))

theorem Dealt.sound (dealt : Dealt deployment histories call startId encoded count batches)
    (sound : Sound deployment origin fun shard => Copies.even (leaders histories shard))
    (stored : ∀ shard < deployment.sizes.length, ∀ id ∈ (leaders histories shard).flatMap Write.globalIds,
      id < startId)
    {later : Nat → Copies Write} (reaches : Reaches deployment.dim count (leaders histories)
      batches rounds later) :
    Sound deployment origin later where
  orderly := reaches.orderly sound.orderly dealt.whole dealt.new stored
  keeps := by
    intro shard inside
    rcases reaches.front shard _ (List.getElem?_eq_getElem (dealt.whole ▸ inside)) with ⟨writes, isBase, _⟩
    rw [isBase]
    exact (sound.keeps shard inside).trans (List.prefix_append _ _)

/-- Replicas that have taken the rows up to some round, or one round more. -/
theorem Dealt.effect (dealt : Dealt deployment histories call startId encoded count batches)
    {later : Nat → Copies Write}
    (reaches : Reaches deployment.dim count (leaders histories) batches rounds later)
    {reached : ReplicaId → History} (copied : Copied deployment later reached) :
    Effect deployment call histories reached := by
  have each : ∀ id, ∃ taken, (taken = rounds * count ∨ taken = (rounds + 1) * count) ∧ (deployment.Member id →
      ∃ writes, reached id = (histories id).extend writes ∧
        gathered writes = RoutedBatch.ofRows
          ((call.rows deployment.sizes.length startId encoded id.shard).take taken)) := by
    intro id
    by_cases member : deployment.Member id
    · have extended : ∀ {writes : List Write}, (reached id).writes = leaders histories id.shard ++ writes →
          reached id = (histories id).extend writes := by
        intro writes whole
        rw [dealt.even id member]
        ext1
        · exact (copied id member).params
        · exact whole
      have inAll : ∀ {writes : List Write}, (reached id).writes = leaders histories id.shard ++ writes →
          (∃ taken, (taken = rounds * count ∨ taken = (rounds + 1) * count) ∧
            (RoutedBatch.ofRows (call.rows deployment.sizes.length startId encoded id.shard)).Took
              deployment.dim taken writes) →
          ∃ taken, (taken = rounds * count ∨ taken = (rounds + 1) * count) ∧ (deployment.Member id →
            ∃ writes, reached id = (histories id).extend writes ∧
              gathered writes = RoutedBatch.ofRows
                ((call.rows deployment.sizes.length startId encoded id.shard).take taken)) := by
        rintro writes whole ⟨taken, isTaken, took⟩
        exact ⟨taken, isTaken, fun _ => ⟨writes, extended whole, took.gathered⟩⟩
      rcases (copied id member).has.cases with isBase | ⟨write, isExtra, isAll⟩
      · rcases reaches.front _ _ (dealt.batch member) with ⟨writes, front, took⟩
        exact inAll (isBase.trans front) ⟨_, Or.inl rfl, took⟩
      · rcases reaches.back _ _ (dealt.batch member) with ⟨writes, back, took⟩
        have whole : (reached id).writes = leaders histories id.shard ++ writes := by
          rw [isAll, ← back, Copies.all, isExtra]
          rfl
        rcases took with took | took
        · exact inAll whole ⟨_, Or.inl rfl, took⟩
        · exact inAll whole ⟨_, Or.inr rfl, took⟩
    · exact ⟨rounds * count, Or.inl rfl, fun isMember => absurd isMember member⟩
  choose taken isTaken gained using each
  exact .some dealt.numbered isTaken fun id member => gained id member

/-- All rounds are over. -/
theorem Dealt.added (dealt : Dealt deployment histories call startId encoded count batches) {longest : Nat}
    (isLongest : ∀ batch ∈ batches, batch.globalIds.length ≤ longest) {writes : Nat → List Write}
    (written : Written deployment.dim count batches (Chunks.count longest count) writes) {id : ReplicaId}
    (member : deployment.Member id) :
    gathered (writes id.shard) =
      RoutedBatch.ofRows (call.rows deployment.sizes.length startId encoded id.shard) := by
  have isBatch := dealt.batch member
  have took := (written id.shard _ isBatch).gathered
  rw [took, List.take_of_length_le]
  have reaches := Nat.le_trans (isLongest _ (List.mem_of_getElem? isBatch))
    (Chunks.length_le_count longest dealt.positive)
  rw [RoutedBatch.ofRows, List.length_map] at reaches
  exact reaches

theorem perRequest_pos {dim : Nat} (isCount : perRequest dim encoded = .ok count) : 0 < count := by
  unfold perRequest at isCount
  dsimp only at isCount
  split at isCount
  · cases isCount
  · rw [← Except.ok.inj isCount]
    exact Nat.le_max_left _ _

/-- The rows are dealt out after a check has passed. -/
theorem Checking.dealt {read : GrpcCoordinator}
    (checking : Checking deployment histories call.coordinator (List.range deployment.sizes.length) read)
    (copied : Copied deployment copies histories) (sameDim : call.vectors.dim = deployment.dim)
    (filled : call.vectors.rows ≠ []) (texts : call.texts = .ok encoded)
    (counted : encoded.length = call.vectors.rows.length)
    (isCount : perRequest call.vectors.dim encoded = .ok count)
    (isRouted : route call.vectors.rows encoded call.name read.numShards read.size = .ok batches) :
    Dealt deployment histories call read.size encoded count batches := by
  have even := checking.informed.even checking.checked copied
  rw [checking.informed.deployed.numShards] at isRouted
  rcases route_distributes filled counted isRouted with ⟨distributes, whole⟩
  refine ⟨⟨texts, ⟨rfl, checking.kept.grows, checking.kept.bounded⟩, fun id member => ?_⟩,
    isRouted, distributes, whole,
    sameDim ▸ route_loaded counted isRouted, distributes.ids counted, perRequest_pos isCount, even⟩
  rw [even id member]
  exact (checking.informed.position checking.checked (member_inside member)).2

/-- The coordinator at the start of the rounds. -/
def handedOut (read : GrpcCoordinator) (number : Nat) : GrpcCoordinator :=
    { read with size := read.size + number }

theorem Informed.handedOut {read : GrpcCoordinator} (informed : read.Informed deployment histories)
    (number : Nat) :
    (handedOut read number).Informed deployment histories := by
  refine ⟨informed.deployed.of_same rfl rfl, fun shard position isPosition => ?_⟩
  refine (informed.known shard position isPosition).imp_right ?_
  rintro ⟨seq, agreed, each⟩
  refine ⟨seq, agreed, fun id member => ⟨(each id member).1, fun globalId stored => ?_⟩⟩
  exact lt_of_lt_of_le ((each id member).2 globalId stored)
    (Int.le_add_of_nonneg_right (Int.natCast_nonneg number))

/-- The call has returned. -/
theorem Dealt.returned {read state : GrpcCoordinator} {fleet : Fleet G} {writes : Nat → List Write}
    {longest : Nat} (dealt : Dealt deployment histories call read.size encoded count batches)
    (checking : Checking deployment histories call.coordinator (List.range deployment.sizes.length) read)
    (copied : Copied deployment copies histories) (sound : Sound deployment origin copies)
    (isLongest : ∀ batch ∈ batches, batch.globalIds.length ≤ longest)
    (between : Between np npz deployment count (leaders histories) batches
      (handedOut read call.vectors.rows.length)
      (Chunks.count longest count) writes state fleet) :
    Added np npz deployment origin call histories read.size encoded
      (evenly deployment fun shard => leaders histories shard ++ writes shard) state fleet where
  ready := by
    have known := checking.informed
    have deployed := between.aware.deployed (known.handedOut call.vectors.rows.length).deployed
    refine ⟨between.settled, fun id member => ⟨rfl, Copies.has_base _⟩, ?_, deployed,
      fun shard position isPosition => ?_⟩
    · exact dealt.sound (sound.leaders copied known.deployed)
        (fun shard inside => (known.position checking.checked inside).2) (between.written.reaches _)
    · have inside : shard < deployment.sizes.length := by
        rw [← deployed.numShards, numShards, ← deployed.positions]
        exact (List.getElem?_eq_some_iff.mp isPosition).1
      rw [between.aware.positions shard inside] at isPosition
      refine Or.inr ⟨_, (Option.some.inj isPosition).symm, fun id member => ?_⟩
      rw [← deployment.group_shard member]
      refine ⟨rfl, fun globalId stored => ?_⟩
      have isMember := deployment.member_of_group member
      change globalId ∈ (leaders histories id.shard ++ writes id.shard).flatMap Write.globalIds at stored
      rw [List.flatMap_append] at stored
      have isSize : state.size = read.size + call.vectors.rows.length := between.aware.size
      rw [isSize]
      rcases List.mem_append.mp stored with old | new
      · have before := (known.position checking.checked (member_inside isMember)).2 globalId old
        exact lt_of_lt_of_le before (Int.le_add_of_nonneg_right (Int.natCast_nonneg _))
      · have isBatch := dealt.batch isMember
        rw [(between.written _ _ isBatch).globalIds] at new
        exact (dealt.new.bounds _ (List.mem_of_getElem? isBatch) globalId (List.mem_of_mem_take new)).2
  numbered := dealt.numbered
  gained := by
    intro id member
    refine ⟨writes id.shard, ?_, dealt.added isLongest between.written member⟩
    rw [dealt.even id member]
    rfl
  checked := fun shard member => ⟨_, between.aware.positions shard (List.mem_range.mp member)⟩
  size := between.aware.size
  routed := ⟨batches, dealt.routed⟩

/-- What a call of `add` does, however it ends.  All the time the replicas are
settled as they were, or have requests of some round under way. -/
theorem add_ensures (steady : np.Steady) (positive : 0 < deployment.dim)
    (sameDim : call.vectors.dim = deployment.dim) (filled : call.vectors.rows ≠ [])
    (copied : Copied deployment copies histories) (sound : Sound deployment origin copies)
    (informed : call.coordinator.Informed deployment histories) (always : Fleet G → Prop)
    (before : ∀ fleet, Settled np npz deployment histories fleet → always fleet)
    (during : ∀ {startId encoded count batches rounds later first fleet},
      Dealt deployment histories call startId encoded count batches →
      Reaches deployment.dim count (leaders histories) batches rounds later → Sound deployment origin later →
      Afloat np npz deployment later first fleet → always fleet) :
    Client.Ensures (writeNetwork np npz deployment) always
      (Meets np npz deployment histories (· = call.coordinator))
      (add call.vectors call.payloads call.name : Coordinating D PUnit)
      (fun _ state fleet => ∃ startId encoded later,
        Added np npz deployment origin call histories startId encoded later state fleet)
      fun _ => Stopped np npz deployment origin call histories := by
  have unchanged : ∀ state fleet, state.Informed deployment histories →
    Settled np npz deployment histories fleet →
      Stopped np npz deployment origin call histories state fleet :=
    fun _ _ known settled => ⟨copies, histories, ⟨settled, copied, sound, known⟩, .none fun _ _ => rfl⟩
  have refused : ∀ state fleet, Meets np npz deployment histories (· = call.coordinator) state fleet →
      Stopped np npz deployment origin call histories state fleet := by
    rintro state fleet ⟨rfl, settled⟩
    exact unchanged _ fleet informed settled
  unfold add
  rw [if_neg filled]
  refine Client.Ensures.lift_bind (fun tagged isTagged => ?_) fun _ _ => refused
  refine Client.Ensures.lift_bind (fun encoded isEncoded => ?_) fun _ _ => refused
  have texts : call.texts = .ok encoded := by
    unfold AddCall.texts
    rw [isTagged]
    exact isEncoded
  have check : Client.Ensures (writeNetwork np npz deployment) always
      (Meets np npz deployment histories fun state => state = call.coordinator ∧
        call.coordinator.Informed deployment histories)
      (checkShards : Coordinating D PUnit) _ _ := checkShards_ensures before
  refine Client.Ensures.bind (check.imp ?_ (fun _ _ _ holds => holds) ?_) fun _ => ?_
  · rintro state fleet ⟨same, settled⟩
    exact ⟨⟨same, informed⟩, settled⟩
  · rintro _ state fleet ⟨checking, settled⟩
    exact unchanged state fleet checking.informed settled
  refine Client.Ensures.lift_bind (fun count isCount => ?_) ?_
  · refine Client.Ensures.get_bind fun read => ?_
    by_cases checking : Checking deployment histories call.coordinator (List.range deployment.sizes.length) read
    · have known := checking.informed
      refine Client.Ensures.lift_bind (fun batches isRouted => ?_) ?_
      · have dealt := checking.dealt copied sameDim filled texts (encodePayloads_length isEncoded) isCount
          isRouted
        refine Client.Ensures.through
          (fun _ => Meets np npz deployment histories (· = handedOut read call.vectors.rows.length))
          ?_ fun _ => ?_
        · apply Client.Ensures.modify
          rintro state fleet ⟨rfl, _, settled⟩
          exact ⟨rfl, settled⟩
        refine Client.Ensures.lift_bind (fun longest given => ?_) ?_
        · have isLongest : ∀ batch ∈ batches, batch.globalIds.length ≤ longest := by
            split at given
            · cases given
            · intro batch member
              rw [← Except.ok.inj given]
              exact le_foldl_max (Or.inl
                (List.mem_map_of_mem (f := fun batch => batch.globalIds.length) member))
          have stored : ∀ shard < deployment.sizes.length, ∀ id ∈
            (leaders histories shard).flatMap Write.globalIds,
              id < read.size := fun shard inside => (known.position checking.checked inside).2
          have even := sound.leaders copied known.deployed
          rw [sameDim]
          have rounds : Client.Ensures (writeNetwork np npz deployment) always
              (fun state fleet => ∃ writes, Between np npz deployment count (leaders histories) batches
                (handedOut read call.vectors.rows.length) 0 writes state fleet)
              ((Chunks.starts longest count).forM (addChunk batches deployment.dim count) :
                Coordinating D PUnit) _ _ :=
            rounds_ensures steady dealt.positive dealt.loaded positive dealt.whole
              (known.handedOut call.vectors.rows.length).deployed fun rounds later reaches first fleet afloat =>
                during dealt reaches (dealt.sound even stored reaches) afloat
          refine rounds.imp ?_ ?_ ?_
          · rintro state fleet ⟨rfl, settled⟩
            refine ⟨fun _ => [], fun shard batch _ => ?_, settled.congr fun id member => ?_, rfl, rfl, rfl,
              fun shard inside => ?_⟩
            · rw [Nat.zero_mul]
              exact .none batch
            · rw [dealt.even id member]
              simp only [List.append_nil, evenly, leaders]
            · rw [List.append_nil]
              exact (known.position checking.checked inside).1
          · rintro _ state fleet ⟨writes, between⟩
            exact ⟨read.size, encoded, _, dealt.returned checking copied sound isLongest between⟩
          · rintro _ state fleet ⟨rounds, later, reached, broken⟩
            rcases broken.forgot with ⟨before, deployed, rfl⟩
            exact ⟨later, reached, ⟨broken.settled, broken.copied, dealt.sound even stored broken.reaches,
              deployed.informed_forget⟩,
              dealt.effect broken.reaches broken.copied⟩
        · rintro _ _ state fleet ⟨rfl, settled⟩
          exact unchanged _ fleet (known.handedOut _) settled
      · rintro _ _ state fleet ⟨rfl, _, settled⟩
        exact unchanged state fleet known settled
    · rintro state fleet ⟨rfl, holds, _⟩
      exact absurd holds checking
  · rintro _ _ state fleet ⟨checking, settled⟩
    exact unchanged state fleet checking.informed settled

end Call

end GrpcCoordinator
end VectorSearch
