import VectorSearch.Client.Fleet

namespace VectorSearch

/-!
# Checking the shards before a write

While no request is under way the replicas keep the histories they have.  What
`_check_shards` then learns of a shard is that its replicas have taken the same
number of writes, which makes them equal, and an id behind all that are stored.
-/

open Stateful

/-! ## Between two calls -/

section Settled

variable {D G : Type} [LinearOrder D] (np : Numpy Float32Bits D G) (npz : Npz G) (deployment : Deployment)

/-- No request is under way, and the replicas have these histories. -/
structure Settled (histories : ReplicaId → History) (fleet : Fleet G) : Prop where
  holds : ∀ id, deployment.Member id → (fleet.nodes id).Holds np npz (deployment.config id) deployment.dim
    (histories id)
  resolved : fleet.Resolved

/-- The histories are copies, for each shard of one history. -/
def Copied (copies : Nat → Copies Write) (histories : ReplicaId → History) : Prop :=
  ∀ id, deployment.Member id → (copies id.shard).Keeps (deployment.params id.shard) (histories id)

variable {np npz deployment} {histories : ReplicaId → History} {copies : Nat → Copies Write}
  {fleet next : Fleet G}

theorem Settled.moves (settled : Settled np npz deployment histories fleet)
    (moves : fleet.Moves np npz deployment next) : Settled np npz deployment histories next := by
  cases moves with
  | served isFlight waiting _ _ _ => exact absurd waiting (settled.resolved _ (List.mem_of_getElem? isFlight))
  | crashed isFlight waiting _ _ => exact absurd waiting (settled.resolved _ (List.mem_of_getElem? isFlight))
  | lost isFlight waiting => exact absurd waiting (settled.resolved _ (List.mem_of_getElem? isFlight))
  | @other id node events step =>
      refine ⟨fun other member => ?_, settled.resolved⟩
      by_cases same : other = id
      · subst same
        rw [Fleet.put_nodes_self]
        exact step.reads (settled.holds other member)
      · rw [Fleet.put_nodes_of_ne _ same]
        exact settled.holds other member

theorem Settled.congr (settled : Settled np npz deployment histories fleet) {others : ReplicaId → History}
    (same : ∀ id, deployment.Member id → histories id = others id) :
    Settled np npz deployment others fleet := by
  refine ⟨fun id member => ?_, settled.resolved⟩
  rw [← same id member]
  exact settled.holds id member

theorem Settled.stable (state : GrpcCoordinator) {fact : GrpcCoordinator → Prop} :
    Remote.Stable (writeNetwork np npz deployment : Network Rpc (Rpc.Answer D) (Fleet G))
      fun fleet => fact state ∧ Settled np npz deployment histories fleet :=
  fun _ _ holds moves => ⟨holds.1, holds.2.moves moves⟩

/-- Requests can be sent from here. -/
theorem Settled.afloat (settled : Settled np npz deployment histories fleet)
    (copied : Copied deployment copies histories) :
    Afloat np npz deployment copies fleet.flights.length fleet where
  stands := by
    intro id member
    refine ⟨histories id, settled.holds id member, copied id member, ?_⟩
    rintro response ⟨handle, flight, later, isFlight, _⟩
    rw [List.getElem?_eq_none_iff.mpr later] at isFlight
    cases isFlight
  started := Nat.le_refl _
  waiting := fun _ flight isFlight waits =>
    absurd waits (settled.resolved flight (List.mem_of_getElem? isFlight))

/-- When the last request has ended the replicas are still copies. -/
theorem Afloat.settles {first : Nat} (afloat : Afloat np npz deployment copies first fleet)
    (resolved : fleet.Resolved) :
    ∃ histories, Settled np npz deployment histories fleet ∧ Copied deployment copies histories ∧
      ∀ id, deployment.Member id → Stands np npz deployment (copies id.shard) fleet first
        id (histories id) := by
  choose histories stands using afloat.stands
  refine ⟨fun id => if member : deployment.Member id then histories id member
    else ⟨deployment.params id.shard, []⟩, ?_⟩
  have chosen : ∀ id, deployment.Member id → Stands np npz deployment (copies id.shard) fleet first id
      (if member : deployment.Member id then histories id member else ⟨deployment.params id.shard, []⟩) := by
    intro id member
    rw [dif_pos member]
    exact stands id member
  exact ⟨⟨fun id member => (chosen id member).holds, resolved⟩, fun id member => (chosen id member).keeps,
    chosen⟩

end Settled

/-! ## The coordinator and the layout -/

namespace GrpcCoordinator

/-- A coordinator of this cluster. -/
structure Deployed (deployment : Deployment) (coordinator : GrpcCoordinator) : Prop where
  sizes : coordinator.replicas.map List.length = deployment.sizes
  addresses : ∀ group ∈ coordinator.replicas, (group.map ReplicaStub.address).Nodup
  peers : ∀ id, deployment.Member id → deployment.peerAt (coordinator.stub id).peer = some id
  nonempty : ∀ group ∈ coordinator.replicas, group ≠ []
  positions : coordinator.lastSeqs.length = coordinator.replicas.length

variable {deployment : Deployment} {coordinator later : GrpcCoordinator} {histories : ReplicaId → History}

theorem Deployed.of_same (deployed : coordinator.Deployed deployment)
    (same : later.replicas = coordinator.replicas)
    (positions : later.lastSeqs.length = coordinator.lastSeqs.length) : later.Deployed deployment where
  sizes := same ▸ deployed.sizes
  addresses := same ▸ deployed.addresses
  peers := by
    intro id member
    rw [stub_congr same]
    exact deployed.peers id member
  nonempty := same ▸ deployed.nonempty
  positions := by
    rw [positions, same]
    exact deployed.positions

theorem Deployed.replicasOf (deployed : coordinator.Deployed deployment) (shard : Nat) :
    coordinator.replicasOf shard = deployment.group shard := by
  unfold GrpcCoordinator.replicasOf Deployment.group
  rw [← deployed.sizes, List.getElem?_map]
  cases coordinator.replicas[shard]? <;> rfl

theorem Deployed.numShards (deployed : coordinator.Deployed deployment) : coordinator.numShards =
    deployment.sizes.length := by
  unfold GrpcCoordinator.numShards
  rw [← deployed.sizes, List.length_map]

theorem Deployed.inside (deployed : coordinator.Deployed deployment) {shard : Nat}
    (inside : shard < deployment.sizes.length) : shard < coordinator.lastSeqs.length := by
  rw [deployed.positions]
  exact inside.trans_eq deployed.numShards.symm

/-- The addresses of the replicas of a shard are different. -/
theorem Deployed.addresses_nodup (deployed : coordinator.Deployed deployment) (shard : Nat) :
    ((coordinator.replicasOf shard).map fun replica => (coordinator.stub replica).address).Nodup := by
  have listed : (coordinator.replicasOf shard).map (fun replica => (coordinator.stub replica).address) =
      (coordinator.replicas[shard]?.getD []).map ReplicaStub.address := by
    unfold GrpcCoordinator.replicasOf
    rw [List.map_map]
    apply List.ext_getElem?
    intro place
    rw [List.getElem?_map, List.getElem?_map]
    cases isStub : (coordinator.replicas[shard]?.getD [])[place]? with
    | none =>
        rw [List.getElem?_eq_none_iff.mpr]
        · rfl
        · rw [List.length_range]
          exact List.getElem?_eq_none_iff.mp isStub
    | some stub =>
        rw [List.getElem?_range (List.getElem?_eq_some_iff.mp isStub).1]
        simp only [Option.map_some, Function.comp_apply, GrpcCoordinator.stub, isStub, Option.getD_some]
  rw [listed]
  cases isGroup : coordinator.replicas[shard]? with
  | none => exact List.nodup_nil
  | some group => exact deployed.addresses group (List.mem_of_getElem? isGroup)

/-- What is known of a shard's last write is true of all its replicas, and the
next id is behind all that they store. -/
structure Informed (deployment : Deployment) (histories : ReplicaId → History) (coordinator : GrpcCoordinator) :
    Prop where
  deployed : coordinator.Deployed deployment
  known : ∀ shard position, coordinator.lastSeqs[shard]? = some position → position = .unknown ∨
    ∃ seq, position = .agreed seq ∧ ∀ id ∈ deployment.group shard, (histories id).length = seq ∧
      ∀ globalId ∈ (histories id).globalIds, globalId < coordinator.size

/-- The last writes of these shards are known. -/
def Checked (shards : List Nat) (coordinator : GrpcCoordinator) : Prop :=
  ∀ shard ∈ shards, ∃ seq, coordinator.lastSeqs[shard]? = some (.agreed seq)

theorem Deployed.forget_positions (deployed : coordinator.Deployed deployment) :
    coordinator.forget.Deployed deployment := by
  have count : coordinator.forget.lastSeqs.length = coordinator.lastSeqs.length := by
    rw [deployed.positions]
    exact List.length_map _
  exact deployed.of_same rfl count

theorem forget_unknown {shard : Nat} {position : Position}
    (isPosition : coordinator.forget.lastSeqs[shard]? = some position) : position = .unknown := by
  unfold forget at isPosition
  rw [List.getElem?_map] at isPosition
  rcases Option.map_eq_some_iff.mp isPosition with ⟨_, _, same⟩
  exact same.symm

/-- A coordinator that knows nothing is never wrong. -/
theorem Deployed.informed_forget (deployed : coordinator.Deployed deployment) :
    coordinator.forget.Informed deployment histories :=
  ⟨deployed.forget_positions, fun _ _ isPosition => Or.inl (forget_unknown isPosition)⟩

/-! ## What the statuses say -/

/-- The status of a replica with the given history. -/
structure Reports (history : History) (status : StatusResponse) : Prop where
  durable : status.durable = true
  lastSeq : status.lastSeq = history.length
  nextGlobalId : status.nextGlobalId = Shard.largestId history.globalIds + 1

theorem le_foldl_max_int {ids : List Int} {start id : Int} (member : id ∈ ids ∨ id ≤ start) : id ≤
    ids.foldl max start := by
  induction ids generalizing start with
  | nil => exact member.resolve_left List.not_mem_nil
  | cons first rest inductionHypothesis =>
      apply inductionHypothesis
      rcases member with here | less
      · rcases List.mem_cons.mp here with same | later
        · exact Or.inr (same ▸ le_max_right _ _)
        · exact Or.inl later
      · exact Or.inr (le_trans less (le_max_left _ _))

theorem foldl_max_le {ids : List Int} {start bound : Int} (from_start : start ≤ bound)
    (each : ∀ id ∈ ids, id ≤ bound) :
    ids.foldl max start ≤ bound := by
  induction ids generalizing start with
  | nil => exact from_start
  | cons first rest inductionHypothesis =>
      apply inductionHypothesis
      · exact max_le from_start (each first List.mem_cons_self)
      · exact fun id member => each id (List.mem_cons_of_mem _ member)

/-- The next id is behind all ids that are stored. -/
theorem Reports.fresh {history : History} {status : StatusResponse} (reports : Reports history status) :
    ∀ globalId ∈ history.globalIds, globalId < status.nextGlobalId := by
  intro globalId member
  rw [reports.nextGlobalId]
  apply Int.lt_add_one_iff.mpr
  cases isIds : history.globalIds with
  | nil =>
      rw [isIds] at member
      exact absurd member List.not_mem_nil
  | cons first rest =>
      rw [isIds] at member
      rcases List.mem_cons.mp member with here | later
      · exact le_foldl_max_int (Or.inr (le_of_eq here))
      · exact le_foldl_max_int (Or.inl later)

/-- It is no larger than it has to be. -/
theorem Reports.least {history : History} {status : StatusResponse} (reports : Reports history status)
    {bound : Int} (positive : 0 ≤ bound) (each : ∀ globalId ∈ history.globalIds, globalId < bound) :
    status.nextGlobalId ≤ bound := by
  rw [reports.nextGlobalId]
  apply Int.add_one_le_of_lt
  cases isIds : history.globalIds with
  | nil => exact Int.lt_of_lt_of_le (by decide) positive
  | cons first rest =>
      rw [isIds] at each
      apply Int.lt_of_le_sub_one
      apply foldl_max_le
      · exact Int.le_sub_one_of_lt (each first List.mem_cons_self)
      · exact fun id member => Int.le_sub_one_of_lt (each id (List.mem_cons_of_mem _ member))

theorem seqsByAddress_entries {addresses : List String} {statuses : List StatusResponse}
    (distinct : addresses.Nodup) (same : addresses.length = statuses.length) :
    (seqsByAddress addresses statuses).entries = addresses.zip (statuses.map StatusResponse.lastSeq) := by
  have keys : ((addresses.zip (statuses.map StatusResponse.lastSeq)).map Prod.fst).Nodup := by
    rw [List.map_fst_zip (by rw [List.length_map, same])]
    exact distinct
  have built := Dict.ofList_entries ⟨addresses.zip (statuses.map StatusResponse.lastSeq), keys⟩
  have folded : seqsByAddress addresses statuses =
    Dict.ofList (addresses.zip (statuses.map StatusResponse.lastSeq)) := by
    unfold seqsByAddress Dict.ofList
    rw [List.zip_map_right, List.foldl_map]
    rfl
  rw [folded, built]

/-- Replicas in sync have one last seq, whatever their addresses are called. -/
theorem positionOf_agreed {shard : Nat} {addresses : List String} {statuses : List StatusResponse}
    {position : Position} (distinct : addresses.Nodup) (same : addresses.length = statuses.length)
    (durable : ∀ status ∈ statuses, status.durable = true)
    (given : positionOf shard addresses statuses = .ok position) :
    ∃ seq, position = .agreed seq ∧ ∀ status ∈ statuses, status.lastSeq = seq := by
  unfold positionOf at given
  rw [List.all_eq_true.mpr durable] at given
  simp only [Bool.not_true, Bool.false_eq_true, if_false, seqsByAddress_entries distinct same] at given
  rw [List.map_snd_zip (by rw [List.length_map, same])] at given
  cases seqs : statuses.map StatusResponse.lastSeq with
  | nil =>
      rw [seqs] at given
      cases given
  | cons first rest =>
      rw [seqs] at given
      dsimp only at given
      split at given
      · cases given
      · rename_i agree
        refine ⟨first, (Except.ok.inj given).symm, fun status member => ?_⟩
        have inside := List.mem_map_of_mem (f := StatusResponse.lastSeq) member
        rw [seqs] at inside
        rcases List.mem_cons.mp inside with here | later
        · exact here
        · by_contra different
          exact agree (List.any_eq_true.mpr ⟨_, later, decide_eq_true different⟩)

/-! ## The check -/

section Triples

variable {D G : Type} [LinearOrder D] {np : Numpy Float32Bits D G} {npz : Npz G} {always : Fleet G → Prop}

/-- A coordinator of which something is known meets settled replicas. -/
def Meets {D G : Type} [LinearOrder D] (np : Numpy Float32Bits D G) (npz : Npz G) (deployment : Deployment)
    (histories : ReplicaId → History) (fact : GrpcCoordinator → Prop) (state : GrpcCoordinator)
    (fleet : Fleet G) : Prop :=
  fact state ∧ Settled np npz deployment histories fleet

theorem statusesOf_ensures (good : ∀ fleet, Settled np npz deployment histories fleet → always fleet)
    {fact : GrpcCoordinator → Prop} (ids : List ReplicaId) (members : ∀ id ∈ ids, deployment.Member id) :
    Client.Ensures (writeNetwork np npz deployment) always (Meets np npz deployment histories fact)
      (statusesOf ids : Coordinating D _)
      (fun statuses state fleet => Meets np npz deployment histories fact state fleet ∧
        List.Forall₂ (fun id status => Reports (histories id) status) ids statuses)
      fun _ => Meets np npz deployment histories fact := by
  induction ids with
  | nil => exact Client.Ensures.pure fun _ _ holds => ⟨holds, .nil⟩
  | cons id rest inductionHypothesis =>
      have asks : Client.Ensures (writeNetwork np npz deployment) always
        (Meets np npz deployment histories fact)
          (Client.call (Rpc.status id) : Coordinating D _)
          (fun answer state fleet => Meets np npz deployment histories fact state fleet ∧
            ∀ status, answer = .ok status → Reports (histories id) status)
          fun _ => Meets np npz deployment histories fact := by
        apply Client.Ensures.call (fun state => Settled.stable state) (fun _ fleet holds => good fleet holds.2)
        rintro state fleet answer last ⟨isFact, settled⟩ ⟨rfl, given⟩
        refine ⟨⟨isFact, settled⟩, ?_⟩
        rintro status rfl
        rcases given with ⟨disk, durable, alive, isStatus⟩ | ⟨error, impossible⟩
        · cases isStatus
          have running := settled.holds id (members id List.mem_cons_self)
          rw [alive] at running
          have filled := running.sound.filled np running.contents
          refine ⟨rfl, running.lastSeq, ?_⟩
          rw [← filled.globalIds]
          rfl
        · cases impossible
      refine Client.Ensures.bind asks fun answer => ?_
      apply Client.Ensures.given
      intro reports
      cases answer with
      | error error => exact Client.Ensures.throw fun _ _ holds => holds
      | ok status =>
          refine Client.Ensures.bind (inductionHypothesis fun other member =>
            members other (List.mem_cons_of_mem _ member))
            fun statuses => ?_
          exact Client.Ensures.pure fun _ _ holds => ⟨holds.1, .cons (reports status rfl) holds.2⟩

/-- What a check leaves as it was: the layout, and the next id unless a replica
stores a larger one. -/
structure Kept (deployment : Deployment) (histories : ReplicaId → History)
    (start state : GrpcCoordinator) : Prop where
  replicas : state.replicas = start.replicas
  grows : start.size ≤ state.size
  bounded : ∀ bound, 0 ≤ bound → start.size ≤ bound →
    (∀ id, deployment.Member id → ∀ globalId ∈ (histories id).globalIds, globalId < bound) → state.size ≤ bound

/-- Between two rounds of the check. -/
structure Checking (deployment : Deployment) (histories : ReplicaId → History) (start : GrpcCoordinator)
    (shards : List Nat) (state : GrpcCoordinator) : Prop where
  informed : state.Informed deployment histories
  kept : Kept deployment histories start state
  checked : Checked shards state

variable {start state : GrpcCoordinator} {shards : List Nat} {shard : Nat}

/-- The size that a round learns. -/
def learnedSize (statuses : List StatusResponse) (state : GrpcCoordinator) : GrpcCoordinator :=
  { state with size := (statuses.map StatusResponse.nextGlobalId).foldl max state.size }

theorem Checking.learned (checking : Checking deployment histories start shards state) {ids : List ReplicaId}
    (members : ∀ id ∈ ids, deployment.Member id) {statuses : List StatusResponse}
    (reports : List.Forall₂ (fun id status => Reports (histories id) status) ids statuses) :
    Checking deployment histories start shards (learnedSize statuses state) := by
  have grows : state.size ≤ (learnedSize statuses state).size := le_foldl_max_int (Or.inr (le_refl _))
  refine ⟨⟨checking.informed.deployed.of_same rfl rfl, ?_⟩,
    ⟨checking.kept.replicas, checking.kept.grows.trans grows, ?_⟩,
    checking.checked⟩
  · intro other position isPosition
    refine (checking.informed.known other position isPosition).imp_right ?_
    rintro ⟨seq, agreed, each⟩
    exact ⟨seq, agreed, fun id member => ⟨(each id member).1, fun globalId inside =>
      lt_of_lt_of_le ((each id member).2 globalId inside) grows⟩⟩
  · intro bound positive above small
    apply foldl_max_le (checking.kept.bounded bound positive above small)
    intro next isNext
    rcases List.mem_map.mp isNext with ⟨status, isStatus, rfl⟩
    rcases forall₂_mem_right reports isStatus with ⟨id, member, reported⟩
    exact reported.least positive (small id (members id member))

theorem Checking.agreed (checking : Checking deployment histories start shards state)
    {statuses : List StatusResponse}
    (reports : List.Forall₂ (fun id status => Reports (histories id) status)
      (deployment.group shard) statuses) {seq : Nat}
    (agree : ∀ status ∈ statuses, status.lastSeq = seq) (inside : shard < deployment.sizes.length)
    (behind : ∀ status ∈ statuses, status.nextGlobalId ≤ state.size) :
    Checking deployment histories start (shards ++ [shard]) (state.setLastSeq shard (.agreed seq)) := by
  have isInside := checking.informed.deployed.inside inside
  refine ⟨⟨checking.informed.deployed.of_same rfl (List.length_set ..), ?_⟩,
    ⟨checking.kept.replicas, checking.kept.grows,
    checking.kept.bounded⟩, ?_⟩
  · intro other position isPosition
    change (state.lastSeqs.set shard (.agreed seq))[other]? = some position at isPosition
    by_cases same : shard = other
    · subst same
      rw [List.getElem?_set_self isInside] at isPosition
      refine Or.inr ⟨seq, (Option.some.inj isPosition).symm, fun id member => ?_⟩
      rcases forall₂_mem_left reports member with ⟨status, isStatus, reported⟩
      refine ⟨reported.lastSeq.symm.trans (agree status isStatus), fun globalId stored => ?_⟩
      exact lt_of_lt_of_le (reported.fresh globalId stored) (behind status isStatus)
    · rw [List.getElem?_set_ne same] at isPosition
      exact checking.informed.known other position isPosition
  · intro other member
    change ∃ seq', (state.lastSeqs.set shard (.agreed seq))[other]? = some (.agreed seq')
    by_cases same : shard = other
    · subst same
      exact ⟨seq, List.getElem?_set_self isInside⟩
    · rw [List.getElem?_set_ne same]
      rcases List.mem_append.mp member with old | new
      · exact checking.checked other old
      · exact absurd (List.mem_singleton.mp new).symm same

theorem checkShard_ensures (good : ∀ fleet, Settled np npz deployment histories fleet → always fleet)
    (inside : shard < deployment.sizes.length) :
    Client.Ensures (writeNetwork np npz deployment) always
      (Meets np npz deployment histories (Checking deployment histories start shards))
      (checkShard shard : Coordinating D PUnit)
      (fun _ => Meets np npz deployment histories (Checking deployment histories start (shards ++ [shard])))
      fun _ => Meets np npz deployment histories (Checking deployment histories start shards) := by
  refine Client.Ensures.get_bind fun read => ?_
  by_cases unknown : read.lastSeqs[shard]? = some .unknown
  · rw [if_pos unknown]
    by_cases checking : Checking deployment histories start shards read
    · have isGroup := checking.informed.deployed.replicasOf shard
      have members : ∀ id ∈ read.replicasOf shard, deployment.Member id := by
        intro id member
        rw [isGroup] at member
        exact deployment.member_of_group member
      have asks : Client.Ensures (writeNetwork np npz deployment) always
        (Meets np npz deployment histories (· = read))
          (statusesOf (read.replicasOf shard) : Coordinating D _) _ _ := statusesOf_ensures good _ members
      refine Client.Ensures.bind (asks.imp ?_ (fun _ _ _ holds => holds) ?_) fun statuses => ?_
      · rintro state fleet ⟨same, _, settled⟩
        exact ⟨same, settled⟩
      · rintro _ state fleet ⟨rfl, settled⟩
        exact ⟨checking, settled⟩
      apply Client.Ensures.given
      intro reports
      have learned := checking.learned members reports
      refine Client.Ensures.through
        (fun _ => Meets np npz deployment histories (· = learnedSize statuses read)) ?_ fun _ => ?_
      · apply Client.Ensures.modify
        rintro state fleet ⟨rfl, settled⟩
        exact ⟨rfl, settled⟩
      have durable : ∀ status ∈ statuses, status.durable = true := by
        intro status isStatus
        rcases forall₂_mem_right reports isStatus with ⟨_, _, reported⟩
        exact reported.durable
      refine Client.Ensures.lift_bind (fun position given => ?_) ?_
      · rcases positionOf_agreed (checking.informed.deployed.addresses_nodup shard)
          (by rw [List.length_map, reports.length_eq]) durable given with ⟨seq, rfl, agree⟩
        apply Client.Ensures.modify
        rintro state fleet ⟨rfl, settled⟩
        refine ⟨learned.agreed (isGroup ▸ reports) agree inside ?_, settled⟩
        exact fun status isStatus => le_foldl_max_int (Or.inl (List.mem_map_of_mem isStatus))
      · rintro error _ state fleet ⟨rfl, settled⟩
        exact ⟨learned, settled⟩
    · rintro state fleet ⟨rfl, holds, _⟩
      exact absurd holds checking
  · rw [if_neg unknown]
    apply Client.Ensures.pure
    rintro state fleet ⟨rfl, checking, settled⟩
    refine ⟨⟨checking.informed, checking.kept, fun other member => ?_⟩, settled⟩
    rcases List.mem_append.mp member with old | new
    · exact checking.checked other old
    · rw [List.mem_singleton.mp new]
      have isPosition := List.getElem?_eq_getElem (checking.informed.deployed.inside inside)
      rcases checking.informed.known shard _ isPosition with nothing | ⟨seq, agreed, _⟩
      · exact absurd (isPosition.trans (congrArg some nothing)) unknown
      · exact ⟨seq, isPosition.trans (congrArg some agreed)⟩

/-- A check that returns knows all shards, and one that raises has sent no write. -/
theorem checkShards_ensures (good : ∀ fleet, Settled np npz deployment histories fleet → always fleet) :
    Client.Ensures (writeNetwork np npz deployment) always
      (Meets np npz deployment histories fun state => state = start ∧ start.Informed deployment histories)
      (checkShards : Coordinating D PUnit)
      (fun _ => Meets np npz deployment histories
        (Checking deployment histories start (List.range deployment.sizes.length)))
      fun _ => Meets np npz deployment histories (Checking deployment histories start []) := by
  refine Client.Ensures.get_bind fun read => ?_
  by_cases informed : read.Informed deployment histories
  · rw [informed.deployed.numShards]
    refine Client.Ensures.imp (Client.Ensures.forM
      (fun earlier => Meets np npz deployment histories (Checking deployment histories start earlier))
        fun earlier shard later whole => ?_)
      ?_ (fun _ _ _ holds => holds) fun _ _ _ holds => holds
    · have inside : shard < deployment.sizes.length := by
        have member : shard ∈ List.range deployment.sizes.length :=
          whole ▸ List.mem_append_right _ List.mem_cons_self
        exact List.mem_range.mp member
      refine (checkShard_ensures good inside).imp (fun _ _ holds => holds) (fun _ _ _ holds => holds) ?_
      rintro _ state fleet ⟨checking, settled⟩
      exact ⟨⟨checking.informed, checking.kept, fun _ impossible => absurd impossible List.not_mem_nil⟩,
        settled⟩
    · rintro state fleet ⟨rfl, ⟨rfl, isInformed⟩, settled⟩
      exact ⟨⟨isInformed, ⟨rfl, le_refl _, fun _ _ above _ => above⟩, fun _ impossible =>
        absurd impossible List.not_mem_nil⟩, settled⟩
  · rintro state fleet ⟨rfl, ⟨rfl, holds⟩, _⟩
    exact absurd holds informed

end Triples

end GrpcCoordinator
end VectorSearch
