import VectorSearch.Client.Reading

namespace VectorSearch

/-!
# The networked cluster and the in-process one

What the callers of a networked coordinator see, while its calls of `add`
return: the ids and the hits that the in-process coordinator gives for the same
calls.  Replicas may crash, restart and checkpoint at any time, searches may
find any replicas unreachable, clients come and go, and `repair` may be called.
-/

open Stateful GrpcCoordinator Program

/-! ## Calls with their results -/

/-- A call that has returned, with what it returned. -/
inductive Deed (D : Type) where
  | added (vectors : Matrix Float32Bits) (payloads : Option (List Payload)) (name : Option String)
  | found (query : List Float32Bits) (k : Nat) (filter : Payload) (name : Option String) (ids : List Int)
  | listed (query : List Float32Bits) (k : Nat) (filter : Payload) (name : Option String) (hits : List (Hit D))

section Systems

variable {D G : Type} [LinearOrder D] (np : Numpy Float32Bits D G) (npz : Npz G) (deployment : Deployment)

/-- A call of the networked coordinator that returns. -/
inductive Plant.Does (plant : Plant G) : Deed D → Plant G → Prop
  | added {vectors : Matrix Float32Bits} {payloads : Option (List Payload)} {name : Option String}
      {client : GrpcCoordinator}
      {fleet : Fleet G} (sameDim : vectors.dim = deployment.dim) (filled : vectors.rows ≠ [])
      (keyed : Keyed payloads)
      (run : Remote.Runs (writeNetwork np npz deployment)
        ((GrpcCoordinator.add vectors payloads name : Coordinating D PUnit) plant.client) plant.fleet
          (.ok ⟨⟩ client) fleet) :
      Does plant (.added vectors payloads name) ⟨client, fleet⟩
  | found {query : List Float32Bits} {k : Nat} {filter : Payload} {name : Option String} {ids : List Int}
      {client : GrpcCoordinator} {last : Reading G} (length : query.length = deployment.dim)
      (run : Remote.Runs (readNetwork np npz deployment)
        ((GrpcCoordinator.search query k filter name : Coordinating D (List Int)) plant.client)
        ⟨plant.fleet, SearchWorld.start⟩ (.ok ids client) last) :
      Does plant (.found query k filter name ids) ⟨client, last.fleet⟩
  | listed {query : List Float32Bits} {k : Nat} {filter : Payload} {name : Option String} {hits : List (Hit D)}
      {client : GrpcCoordinator} {last : Reading G} (length : query.length = deployment.dim)
      (run : Remote.Runs (readNetwork np npz deployment)
        ((GrpcCoordinator.searchHits query k filter name : Coordinating D (List (Hit D))) plant.client)
        ⟨plant.fleet, SearchWorld.start⟩ (.ok hits client) last) :
      Does plant (.listed query k filter name hits) ⟨client, last.fleet⟩

/-- What happens to a cluster whose writes succeed: calls that return, and what no
caller sees. -/
inductive Plant.Serves (plant : Plant G) : List (Deed D) → Plant G → Prop
  | moved {fleet : Fleet G} (moves : plant.fleet.Moves np npz deployment fleet) :
      Serves plant [] ⟨plant.client, fleet⟩
  | renewed {client : GrpcCoordinator} (blank : client.Blank deployment) (new : client.size = 0) :
      Serves plant [] ⟨client, plant.fleet⟩
  | refreshed {client : GrpcCoordinator}
      (run : (GrpcCoordinator.refresh : Coordinating D PUnit) plant.client = .done (.ok ⟨⟩ client)) :
      Serves plant [] ⟨client, plant.fleet⟩
  | repaired {result : EStateM.Result Error GrpcCoordinator (List ReplicaSync)} {client : GrpcCoordinator}
      {fleet : Fleet G}
      (run : Remote.Runs (writeNetwork np npz deployment)
        ((repair : Coordinating D (List ReplicaSync)) plant.client) plant.fleet
        result fleet) (left : (∃ synced, result = .ok synced client) ∨ ∃ error, result = .error error client) :
      Serves plant [] ⟨client, fleet⟩
  | failed {query : List Float32Bits} {k : Nat} {withPayloads : Bool} {filter : Payload}
      {name : Option String} {error : Error}
      {client : GrpcCoordinator} {last : Reading G}
      (run : Remote.Runs (readNetwork np npz deployment)
        ((searchComplete query k withPayloads filter name : Coordinating D (List (Scored D))) plant.client)
        ⟨plant.fleet, SearchWorld.start⟩ (.error error client) last) : Serves plant [] ⟨client, last.fleet⟩
  | did {deed : Deed D} {next : Plant G} (does : plant.Does np npz deployment deed next) :
      Serves plant [deed] next

/-- A run of a cluster, with the calls that returned. -/
inductive Plant.Run (start : Plant G) : List (Deed D) → Plant G → Prop
  | start : Run start [] start
  | step {deeds emitted : List (Deed D)} {plant next : Plant G} (before : Run start deeds plant)
      (step : plant.Serves np npz deployment emitted next) : Run start (deeds ++ emitted) next

/-- A call of the in-process coordinator that returns. -/
inductive Coordinator.Does (coordinator : Coordinator G) : Deed D → Coordinator G → Prop
  | added {vectors : Matrix Float32Bits} {payloads : Option (List Payload)} {name : Option String}
      {after : Coordinator G}
      (run : Coordinator.add np vectors.rows payloads name coordinator = .ok () after) :
      Does coordinator (.added vectors payloads name) after
  | found {query : List Float32Bits} {k : Nat} {filter : Payload} {name : Option String} {ids : List Int}
      {after : Coordinator G} (run : Coordinator.search np query k filter name coordinator = .ok ids after) :
      Does coordinator (.found query k filter name ids) after
  | listed {query : List Float32Bits} {k : Nat} {filter : Payload} {name : Option String} {hits : List (Hit D)}
      {after : Coordinator G} (run : Coordinator.searchHits np query k filter name coordinator =
        .ok hits after) :
      Does coordinator (.listed query k filter name hits) after

inductive Coordinator.Run (start : Coordinator G) : List (Deed D) → Coordinator G → Prop
  | start : Run start [] start
  | step {deeds : List (Deed D)} {deed : Deed D} {coordinator after : Coordinator G}
      (before : Run start deeds coordinator)
      (does : coordinator.Does np deed after) : Run start (deeds ++ [deed]) after

end Systems

/-! ## Searches -/

section Searches

variable {D G : Type} [LinearOrder D] {np : Numpy Float32Bits D G} {npz : Npz G} {deployment : Deployment}
  {efSearch : Nat} {histories : ReplicaId → History} {coordinator after : Coordinator G}
  {client state : GrpcCoordinator} {fleet : Fleet G}

omit [LinearOrder D] in
theorem Shard.Twins.contents {first second : Shard Float32Bits G} (twins : first.Twins second) :
    first.contents = second.contents := by
  unfold Shard.contents
  rw [twins.index, twins.globalIds, twins.payloads]

/-- A search leaves what the shards mirror as it was. -/
theorem Coordinator.Mirrors.twins (mirrors : coordinator.Mirrors np deployment efSearch histories)
    (twins : coordinator.Twins after) :
    after.Mirrors np deployment efSearch histories where
  count := twins.count.symm.trans mirrors.count
  shards := by
    intro id member
    rcases mirrors.shards id member with ⟨shard, isShard, own⟩
    rcases twins.shards _ _ isShard with ⟨found, isFound, near⟩
    exact ⟨found, isFound, own.contents.trans (congrArg some near.contents), near.other,
      (congrArg HNSW.efSearch near.index).symm.trans own.width⟩
  below := twins.size ▸ mirrors.below
  last := twins.size ▸ mirrors.last

theorem GrpcCoordinator.Informed.searched (informed : client.Informed deployment histories)
    (searched : Searched client state) :
    state.Informed deployment histories := by
  refine ⟨searched.deployed informed.deployed, ?_⟩
  rw [searched.lastSeqs, searched.size]
  exact informed.known

theorem GrpcCoordinator.Invisible.complete {answers : Nat → SearchRequest → List (HitMessage D)}
    {request : SearchRequest} {targets : List Nat}
    {k : Int} {withPayloads : Bool} {scored : List (Scored D)} {missing : List Nat} {world : SearchWorld}
    (invisible : Invisible answers client request targets k withPayloads scored missing world)
    (complete : missing = []) :
    scored = nsmallest k (targets.flatMap (answerOf answers request withPayloads)) := by
  have alive := List.filter_eq_nil_iff.mp (invisible.missing.symm.trans complete)
  have all : client.liveShards targets world = targets := by
    apply List.filter_eq_self.mpr
    intro shard member
    rw [Bool.not_eq_true', ← Bool.not_eq_true]
    exact alive shard member
  rw [invisible.merged, all]

variable {query : List Float32Bits} {k : Nat} {withPayloads : Bool} {filter : Payload} {name : Option String}

/-- A search that has returned had a plan and a request. -/
theorem scatterGather_plans {value : List (Scored D) × List Nat} {world last : Reading G}
    (run : Remote.Runs (readNetwork np npz deployment)
      (scatterGather query k withPayloads filter name client) world
      (.ok value state) last) :
    ∃ normal targets request, planQuery filter name client.numShards = .ok (normal, targets) ∧
      searchRequest query k withPayloads normal = .ok request := by
  rcases Client.runs_returned run with ⟨read, reached, between, front, rest⟩
  cases front
  rcases Client.runs_returned rest with ⟨plan, reached, between, isPlan, rest⟩
  cases planned : planQuery filter name client.numShards with
  | error error =>
      rw [planned] at isPlan
      cases isPlan
  | ok found =>
      rw [planned] at isPlan
      cases isPlan
      rcases Client.runs_returned rest with ⟨request, reached, between, isRequest, _⟩
      cases built : searchRequest query k withPayloads plan.1 with
      | error error =>
          rw [built] at isRequest
          cases isRequest
      | ok request => exact ⟨plan.1, plan.2, request, rfl, built⟩

/-- The in-process coordinator finds the same. -/
theorem searchComplete_agrees (given : ∀ id, (deployment.config id).params.efSearch = some efSearch)
    (mirrors : coordinator.Mirrors np deployment efSearch histories) (partitions : np.Partitions)
    (whole : ∀ shard ∈ coordinator.shards, shard.Whole deployment.dim) (deployed : client.Deployed deployment)
    (settled : Settled np npz deployment histories fleet) (caching : fleet.Caching deployment efSearch)
    (length : query.length = deployment.dim) {scored : List (Scored D)} {last : Reading G}
    (run : Remote.Runs (readNetwork np npz deployment) (searchComplete query k withPayloads filter name client)
      ⟨fleet, SearchWorld.start⟩ (.ok scored state) last) :
    ∃ perShard after, Coordinator.scatter np query k withPayloads filter name coordinator = .ok perShard after ∧
      mergeTopKScored perShard k = scored ∧ coordinator.Twins after := by
  rcases Client.runs_returned run with ⟨value, reached, between, front, rest⟩
  rcases scatterGather_plans front with ⟨normal, targets, request, planned, built⟩
  rcases searchRequest_ok built with ⟨text, encoded, rfl⟩
  have decoded := (planQuery_gives planned).1 text encoded
  have answering : coordinator.Answering np ⟨query, k, withPayloads, text⟩ :=
    Coordinator.answering partitions whole length decoded
  rcases scatterGather_invisible given mirrors deployed settled caching planned built answering front
    (Or.inr fun raised => raised) with ⟨found, missing, _, same, invisible⟩
  cases same
  dsimp only at rest
  split at rest
  · rename_i complete
    cases rest
    rw [deployed.numShards, ← mirrors.count] at planned
    rw [invisible.complete complete]
    exact Coordinator.scatter_merges partitions whole length planned decoded
  · cases rest

end Searches

/-! ## The invariant -/

section Invariant

variable {D G : Type} [LinearOrder D] {np : Numpy Float32Bits D G} {npz : Npz G} {deployment : Deployment}
  {efSearch : Nat}
  {histories later : ReplicaId → History} {coordinator : Coordinator G} {plant next : Plant G}

/-- Between two calls: the replicas of a shard are equal, and the shards of the
in-process coordinator mirror them. -/
structure Plant.Mirrored (np : Numpy Float32Bits D G) (npz : Npz G) (deployment : Deployment) (efSearch : Nat)
    (histories : ReplicaId → History) (coordinator : Coordinator G) (plant : Plant G) : Prop where
  ready : ∃ copies, Ready np npz deployment (fun _ => []) copies histories plant.client plant.fleet
  even : ∀ id other, deployment.Member id → deployment.Member other → id.shard = other.shard →
    histories id = histories other
  caching : plant.fleet.Caching deployment efSearch
  mirrors : coordinator.Mirrors np deployment efSearch histories
  least : 0 ≤ plant.client.size
  most : plant.client.size ≤ coordinator.size

theorem Plant.Mirrored.deployed (mirrored : plant.Mirrored np npz deployment efSearch histories coordinator) :
    plant.client.Deployed deployment := by
  rcases mirrored.ready with ⟨copies, ready⟩
  exact ready.informed.deployed

theorem Plant.Mirrored.settled (mirrored : plant.Mirrored np npz deployment efSearch histories coordinator) :
    Settled np npz deployment histories plant.fleet := by
  rcases mirrored.ready with ⟨copies, ready⟩
  exact ready.settled

theorem GrpcCoordinator.Deployed.staffed {client : GrpcCoordinator} (deployed : client.Deployed deployment) :
    ∀ shard < deployment.sizes.length, deployment.Member ⟨shard, 0⟩ :=
  fun _ inside => deployment.member_of_group (deployed.first_member inside)

theorem Plant.Mirrored.whole (mirrored : plant.Mirrored np npz deployment efSearch histories coordinator)
    (wide : 0 < efSearch) :
    ∀ shard ∈ coordinator.shards, shard.Whole deployment.dim := by
  intro shard member
  rcases List.mem_iff_getElem?.mp member with ⟨place, isShard⟩
  have inside : place < deployment.sizes.length := mirrored.mirrors.count ▸
    (List.getElem?_eq_some_iff.mp isShard).1
  have isMember := mirrored.deployed.staffed place inside
  rcases mirrored.mirrors.shards _ isMember with ⟨found, isFound, own⟩
  obtain rfl : found = shard := Option.some.inj (isFound.symm.trans isShard)
  exact own.whole (mirrored.settled.holds _ isMember).sound wide

theorem Plant.Fresh.mirrored {params : HnswParams} (given : params.efSearch = some efSearch)
    (seeded : ∀ shard, deployment.params shard = Coordinator.shardParams params shard)
    (positive : 0 < deployment.dim) (fresh : plant.Fresh deployment) (new : plant.client.size = 0) :
    plant.Mirrored np npz deployment efSearch (fun id => ⟨deployment.params id.shard, []⟩)
      (Coordinator.init np deployment.sizes.length params) where
  ready := ⟨_, fresh.ready positive⟩
  even := by
    intro id other _ _ same
    rw [same]
  caching := by
    intro id member state isUp
    rw [fresh.empty id member] at isUp
    cases isUp
  mirrors := Coordinator.init_mirrors given seeded
  least := new.ge
  most := by
    rw [new]
    exact Int.natCast_nonneg _

/-! ### One step -/

/-- A call of `add` that has returned. -/
theorem Plant.Mirrored.added (steady : np.Steady) (positive : 0 < deployment.dim)
    (given : ∀ id, (deployment.config id).params.efSearch = some efSearch)
    (mirrored : plant.Mirrored np npz deployment efSearch histories coordinator) {vectors : Matrix Float32Bits}
    {payloads : Option (List Payload)} {name : Option String} {client : GrpcCoordinator} {fleet : Fleet G}
    (sameDim : vectors.dim = deployment.dim) (filled : vectors.rows ≠ []) (keyed : Keyed payloads)
    (run : Remote.Runs (writeNetwork np npz deployment)
      ((GrpcCoordinator.add vectors payloads name : Coordinating D PUnit) plant.client) plant.fleet
        (.ok ⟨⟩ client) fleet) :
    ∃ later after, coordinator.Does np (.added vectors payloads name : Deed D) after ∧
      (⟨client, fleet⟩ : Plant G).Mirrored np npz deployment efSearch later after := by
  rcases mirrored.ready with ⟨copies, ready⟩
  have adds : Client.Ensures (writeNetwork np npz deployment) (fun _ => True)
    (Meets np npz deployment histories (· = plant.client))
      (GrpcCoordinator.add vectors payloads name : Coordinating D PUnit) _ _ :=
    @add_ensures _ _ _ np npz deployment _ copies histories ⟨plant.client, vectors, payloads, name⟩ steady
      positive sameDim filled
      ready.copied ready.sound ready.informed _ (fun _ _ => trivial) fun _ _ _ _ => trivial
  rcases (adds plant.client plant.fleet ⟨rfl, ready.settled⟩).1 _ _ run with ⟨startId, encoded, later, added⟩
  have isNext := mirrored.mirrors.next added.numbered mirrored.least mirrored.most
  have sound : ∀ id, deployment.Member id → (later id).Sound np deployment.dim :=
    fun id member => (added.ready.settled.holds id member).sound
  rcases mirrored.mirrors.add mirrored.deployed.staffed filled keyed added.numbered.texts isNext
    added.routed added.gained sound with ⟨after, ran, isSize, mirrors⟩
  have size : client.size = after.size := by
    rw [added.size, isNext, isSize]
    push_cast
    rfl
  refine ⟨later, after, .added ran, ⟨_, added.ready⟩, fun id other member others same => ?_,
    ?_, mirrors, ?_, size.le⟩
  · have own := added.ready.copied id member
    have second := added.ready.copied other others
    rw [← same] at second
    ext1
    · exact own.params.trans second.params.symm
    · exact (Copies.has_even.mp own.has).trans (Copies.has_even.mp second.has).symm
  · exact mirrored.caching.writes given run
  · rw [size]
    exact Int.natCast_nonneg _

/-- A repair, however it ends, has nothing to copy. -/
theorem Plant.Mirrored.repaired (positive : 0 < deployment.dim)
    (given : ∀ id, (deployment.config id).params.efSearch = some efSearch)
    (mirrored : plant.Mirrored np npz deployment efSearch histories coordinator)
    {result : EStateM.Result Error GrpcCoordinator (List ReplicaSync)} {client : GrpcCoordinator}
    {fleet : Fleet G}
    (run : Remote.Runs (writeNetwork np npz deployment)
      ((repair : Coordinating D (List ReplicaSync)) plant.client) plant.fleet
      result fleet) (left : (∃ synced, result = .ok synced client) ∨ ∃ error, result = .error error client) :
    ∃ later, (⟨client, fleet⟩ : Plant G).Mirrored np npz deployment efSearch later coordinator := by
  rcases mirrored.ready with ⟨copies, ready⟩
  have repairs : Client.Ensures (writeNetwork np npz deployment) (fun _ => True)
      (Meets np npz deployment histories (· = plant.client)) (repair : Coordinating D _) _ _ :=
    repair_settled positive ready.sound ready.copied ready.informed fun _ _ _ _ => trivial
  have ends := (repairs plant.client plant.fleet ⟨rfl, ready.settled⟩).1 _ _ run
  have tended : ∃ later, Tended np npz deployment (fun _ => []) copies histories later
    plant.client client fleet := by
    rcases left with ⟨synced, rfl⟩ | ⟨error, rfl⟩
    · exact ends
    · exact ends
  rcases tended with ⟨later, tended⟩
  have same : ∀ id, deployment.Member id → later id = histories id := by
    intro id member
    rcases tended.mended id member with ⟨front, source, isSource, sameShard, back⟩
    rw [mirrored.even source id isSource member sameShard] at back
    exact (front.antisymm back.length_le).symm
  refine ⟨later, ⟨copies, tended.ready⟩, fun id other member others sameShard => ?_,
    mirrored.caching.writes given run,
    ⟨mirrored.mirrors.count, fun id member => ?_, fun id member => ?_, ?_⟩, ?_, ?_⟩
  · rw [same id member, same other others]
    exact mirrored.even id other member others sameShard
  · rw [same id member]
    exact mirrored.mirrors.shards id member
  · rw [same id member]
    exact mirrored.mirrors.below id member
  · refine mirrored.mirrors.last.imp_right ?_
    rintro ⟨id, member, stored⟩
    exact ⟨id, member, (same id member).symm ▸ stored⟩
  · exact mirrored.least.trans_eq tended.size.symm
  · exact tended.size.trans_le mirrored.most

/-- A search leaves everything as it is. -/
theorem Plant.Mirrored.searched (given : ∀ id, (deployment.config id).params.efSearch = some efSearch)
    (mirrored : plant.Mirrored np npz deployment efSearch histories coordinator) {client : GrpcCoordinator}
    (searched : Searched plant.client client) {after : Coordinator G} (twins : coordinator.Twins after)
    {α : Type} {program : Remote Rpc (Rpc.Answer D) α} {value : α} {last : Reading G}
    (run : Remote.Runs (readNetwork np npz deployment) program ⟨plant.fleet, SearchWorld.start⟩ value last) :
    (⟨client, last.fleet⟩ : Plant G).Mirrored np npz deployment efSearch histories after := by
  rcases mirrored.ready with ⟨copies, ready⟩
  rcases Reading.keeps given mirrored.settled mirrored.caching run with ⟨settled, caching⟩
  refine ⟨⟨copies, settled, ready.copied, ready.sound, ready.informed.searched searched⟩,
    mirrored.even, caching,
    mirrored.mirrors.twins twins, ?_, ?_⟩
  · rw [searched.size]
    exact mirrored.least
  · rw [searched.size, ← twins.size]
    exact mirrored.most

/-- A call that has returned, with the same result in the process. -/
theorem Plant.Mirrored.does (steady : np.Steady) (partitions : np.Partitions)
    (positive : 0 < deployment.dim) (wide : 0 < efSearch)
    (given : ∀ id, (deployment.config id).params.efSearch = some efSearch)
    (mirrored : plant.Mirrored np npz deployment efSearch histories coordinator) {deed : Deed D}
    (does : plant.Does np npz deployment deed next) :
    ∃ later after, coordinator.Does np deed after ∧ next.Mirrored np npz deployment efSearch later after := by
  have whole := mirrored.whole wide
  cases does with
  | added sameDim filled keyed run => exact mirrored.added steady positive given sameDim filled keyed run
  | @found query k filter name ids client last length run =>
      have searched := (search_asking plant.client (Searched.refl plant.client)).ended run
      rcases Client.runs_returned run with ⟨pairs, reached, between, front, rest⟩
      cases rest
      rcases Client.runs_returned front with ⟨scored, reached, between, complete, rest⟩
      cases rest
      rcases searchComplete_agrees given mirrored.mirrors partitions whole mirrored.deployed
        mirrored.settled mirrored.caching length
        complete with ⟨perShard, after, ran, rfl, twins⟩
      refine ⟨histories, after, .found ?_, mirrored.searched given searched.2 twins run⟩
      simp only [Coordinator.search, bind, EStateM.bind, ran, mergeTopK, List.map_map]
      rfl
  | @listed query k filter name hits client last length run =>
      have searched := (searchHits_asking plant.client (Searched.refl plant.client)).ended run
      rcases Client.runs_returned run with ⟨scored, reached, between, complete, rest⟩
      rcases searchComplete_agrees given mirrored.mirrors partitions whole mirrored.deployed
        mirrored.settled mirrored.caching length
        complete with ⟨perShard, after, ran, rfl, twins⟩
      refine ⟨histories, after, .listed ?_, mirrored.searched given searched.2 twins run⟩
      simp only [Coordinator.searchHits, bind, EStateM.bind, ran]
      cases isHits : hitsOf (mergeTopKScored perShard k) with
      | error error =>
          rw [isHits] at rest
          cases rest
      | ok found =>
          rw [isHits] at rest
          cases rest
          rfl

theorem Plant.Mirrored.serves (steady : np.Steady) (partitions : np.Partitions)
    (positive : 0 < deployment.dim) (wide : 0 < efSearch)
    (given : ∀ id, (deployment.config id).params.efSearch = some efSearch)
    (mirrored : plant.Mirrored np npz deployment efSearch histories coordinator) {emitted : List (Deed D)}
    (step : plant.Serves np npz deployment emitted next) :
    ∃ later after, next.Mirrored np npz deployment efSearch later after ∧
      (emitted = [] ∧ after = coordinator ∨ ∃ deed, emitted = [deed] ∧ coordinator.Does np deed after) := by
  rcases mirrored.ready with ⟨copies, ready⟩
  have searchable : ∀ shard ∈ coordinator.shards, shard.Searchable :=
    fun shard member => (mirrored.whole wide shard member).serving.searchable
  cases step with
  | moved moves =>
      exact ⟨histories, coordinator,
        ⟨⟨copies, ready.settled.moves moves, ready.copied, ready.sound, ready.informed⟩, mirrored.even,
        mirrored.caching.moves given moves, mirrored.mirrors, mirrored.least, mirrored.most⟩, Or.inl ⟨rfl, rfl⟩⟩
  | renewed blank new =>
      refine ⟨histories, coordinator,
        ⟨⟨copies, ready.settled, ready.copied, ready.sound, blank.informed histories⟩, mirrored.even,
        mirrored.caching, mirrored.mirrors, new.ge, ?_⟩, Or.inl ⟨rfl, rfl⟩⟩
      exact new.trans_le (Int.natCast_nonneg _)
  | refreshed run =>
      cases run
      exact ⟨histories, coordinator,
        ⟨⟨copies, ready.settled, ready.copied, ready.sound, mirrored.deployed.informed_forget⟩,
        mirrored.even, mirrored.caching, mirrored.mirrors, mirrored.least, mirrored.most⟩, Or.inl ⟨rfl, rfl⟩⟩
  | repaired run left =>
      rcases mirrored.repaired positive given run left with ⟨later, mended⟩
      exact ⟨later, coordinator, mended, Or.inl ⟨rfl, rfl⟩⟩
  | failed run =>
      have searched := (searchComplete_asking plant.client (Searched.refl plant.client)).ended run
      exact ⟨histories, coordinator, mirrored.searched given searched (.refl searchable) run, Or.inl ⟨rfl, rfl⟩⟩
  | did does =>
      rcases mirrored.does steady partitions positive wide given does with ⟨later, after, same, reached⟩
      exact ⟨later, after, reached, Or.inr ⟨_, rfl, same⟩⟩

theorem Plant.Mirrored.run (steady : np.Steady) (partitions : np.Partitions) (positive : 0 < deployment.dim)
    (wide : 0 < efSearch) (given : ∀ id, (deployment.config id).params.efSearch = some efSearch)
    (mirrored : plant.Mirrored np npz deployment efSearch histories coordinator) {deeds : List (Deed D)}
    (run : plant.Run np npz deployment deeds next) :
    ∃ later after, coordinator.Run np deeds after ∧ next.Mirrored np npz deployment efSearch later after := by
  induction run with
  | start => exact ⟨histories, coordinator, .start, mirrored⟩
  | step before step inductionHypothesis =>
      rcases inductionHypothesis with ⟨middle, between, ran, here⟩
      rcases here.serves steady partitions positive wide given step with
        ⟨later, after, reached, ⟨rfl, rfl⟩ | ⟨deed, rfl, does⟩⟩
      · rw [List.append_nil]
        exact ⟨later, after, ran, reached⟩
      · exact ⟨later, after, ran.step does, reached⟩

end Invariant

/-! ## A vector is added and found -/

section Sample

def beamParams : HnswParams := ⟨2, 10, some 50, 0, .heuristic⟩

/-- One shard with two replicas, started with a beam width. -/
def beamDeployment : Deployment where
  sizes := [2]
  config := fun id => ⟨true, 0, Coordinator.shardParams beamParams id.shard⟩
  dim := 2
  peerAt := pairDeployment.peerAt
  seeded := by
    intro first second same
    rw [same]

def beamEmpty : DurableShard Unit := { emptyShard with config := beamDeployment.config ⟨0, 0⟩ }

def beamAxis : DurableShard Unit := { axisShard with config := beamDeployment.config ⟨0, 0⟩ }

def beamStarted : Fleet Unit :=
  (pairFleet.put ⟨0, 0⟩ ⟨emptyLog, some beamEmpty⟩).put ⟨0, 1⟩ ⟨emptyLog, some beamEmpty⟩

def beamSent : Fleet Unit := (beamStarted.send ⟨0, 0⟩ nextRequest).send ⟨0, 1⟩ nextRequest

def beamHalf : Fleet Unit := (beamSent.put ⟨0, 0⟩ ⟨axisLog, some beamAxis⟩).resolve 0 (.ok ⟨1⟩)

def beamFull : Fleet Unit := (beamHalf.put ⟨0, 1⟩ ⟨axisLog, some beamAxis⟩).resolve 1 (.ok ⟨1⟩)

theorem beam_fresh : (⟨pairClient, pairFleet⟩ : Plant Unit).Fresh beamDeployment := by
  have deployed := pairClient_blank.deployed
  exact ⟨fun _ _ => rfl, rfl, ⟨deployed.sizes, deployed.addresses, deployed.peers,
    deployed.nonempty, deployed.positions⟩,
    pairClient_blank.unknown⟩

theorem beamRequest_run :
    (ShardServicer.addDurable smallNumpy smallNpz beamEmpty nextRequest).run dataDirectory emptyLog =
      ⟨axisLog, beamAxis, none⟩ := by
  have numbered : ShardServicer.addDurable smallNumpy smallNpz beamEmpty nextRequest =
      (DurableShard.addBatch smallNumpy smallNpz beamEmpty axisWrite.globalIds axisWrite.vectors []
        (some 1)).mapError
        abortOutOfOrder := rfl
  have given : axisWrite.Given [] := rfl
  have logged : DurableShard.addBatch smallNumpy smallNpz beamEmpty axisWrite.globalIds axisWrite.vectors
    [] (some 1) = _ :=
    addBatch_logs smallNumpy smallNpz given (Or.inr rfl) (by decide)
  have applied : DurableShard.applyLogged smallNumpy smallNpz beamEmpty axisWrite.globalIds
    axisWrite.vectors [] = .done beamAxis :=
    rfl
  have synced : beamEmpty.config.fsync = true := rfl
  have bytes : FileOp.perform
      (.appendLog (FramedLog.frame crc32 (axisWrite.body (beamEmpty.lastSeq + 1)))) emptyLog = axisLog := by
    rw [axisLog, logBytes_singleton]
    rfl
  rw [numbered, run_mapError]
  simp only [logged, DurableShard.appendRecord, synced, if_true, applied, Program.run, dataDirectory, bytes]
  rfl

theorem beam_learns : Learns (⟨axisLog, beamAxis, none⟩ : Outcome Disk (DurableShard Unit) Error)
    (.ok ⟨1⟩) := by
  have size : ShardServicer.addResponse (.durable beamAxis) = ⟨1⟩ := rfl
  rw [← size]
  exact .response rfl

theorem beam_half : beamSent.Moves smallNumpy smallNpz beamDeployment beamHalf :=
  @Fleet.Moves.served Int Unit _ smallNumpy smallNpz beamDeployment beamSent 0
    ⟨⟨0, 0⟩, nextRequest, none⟩ _ _ _ _ rfl rfl rfl
    beamRequest_run beam_learns

theorem beam_full : beamHalf.Moves smallNumpy smallNpz beamDeployment beamFull :=
  @Fleet.Moves.served Int Unit _ smallNumpy smallNpz beamDeployment beamHalf 1
    ⟨⟨0, 1⟩, nextRequest, none⟩ _ _ _ _ rfl rfl rfl
    beamRequest_run beam_learns

theorem beam_adds : Remote.Runs (writeNetwork smallNumpy smallNpz beamDeployment)
    ((add axisWrite.vectors none none : Coordinating Int PUnit) pairClient) beamStarted
      (.ok ⟨⟩ pairWritten) beamFull := by
  refine Remote.Runs.answered (.ok (ShardServicer.status (.durable beamEmpty)))
    ⟨rfl, Or.inl ⟨emptyLog, beamEmpty, rfl, rfl⟩⟩ ?_
  refine Remote.Runs.answered (.ok (ShardServicer.status (.durable beamEmpty)))
    ⟨rfl, Or.inl ⟨emptyLog, beamEmpty, rfl, rfl⟩⟩ ?_
  refine Remote.Runs.answered (0 : Nat) ⟨rfl, rfl⟩ ?_
  refine Remote.Runs.answered (1 : Nat) ⟨rfl, rfl⟩ ?_
  refine Remote.Runs.ask (.tail (.single beam_half) beam_full)
    ⟨rfl, ⟨⟨0, 0⟩, nextRequest, some (.ok ⟨1⟩)⟩, rfl, rfl⟩ ?_
  refine Remote.Runs.answered (.ok ⟨1⟩) ⟨rfl, ⟨⟨0, 1⟩, nextRequest, some (.ok ⟨1⟩)⟩, rfl, rfl⟩ ?_
  exact Remote.Runs.done

def axisQuery : List Float32Bits := [0x3F800000, 0]

def axisSearch : SearchRequest := ⟨axisQuery, 1, false, ""⟩

theorem axisSearch_run :
    ShardServicer.search smallNumpy axisSearch beamAxis.shard = .ok [⟨0, 0, ""⟩] beamAxis.shard := rfl

/-- The coordinator when its first replica could not answer and the second one did. -/
def pairSearched : GrpcCoordinator :=
  { pairWritten with nextReplica := [1], failovers := 1, replicas := [[⟨"a", "a", 30000⟩, ⟨"b", "b", 0⟩]] }

/-- The coordinator when none of its replicas could answer. -/
def pairLapsed : GrpcCoordinator :=
  { pairWritten with nextReplica := [1], failovers := 1, replicas := [[⟨"a", "a", 30000⟩, ⟨"b", "b", 30000⟩]] }

def beamLapsed : Reading Unit :=
  ⟨beamFull, (((SearchWorld.start.send ⟨0, 0⟩ axisSearch).fail ⟨0, 0⟩).send ⟨0, 1⟩ axisSearch).fail ⟨0, 1⟩⟩

/-- No replica is reached. -/
theorem beam_lapses : Remote.Runs (readNetwork smallNumpy smallNpz beamDeployment)
    ((searchPartial axisQuery 1 none none : Coordinating Int (List Int × List Nat)) pairWritten)
      ⟨beamFull, SearchWorld.start⟩
    (.ok ([], [0]) pairLapsed) beamLapsed := by
  refine Remote.Runs.answered (0 : Int) rfl ?_
  refine Remote.Runs.answered (0 : Nat) ⟨rfl, rfl⟩ ?_
  refine Remote.Runs.answered (.error ⟨.unavailable, "no connection"⟩)
    ⟨⟨0, 0⟩, axisSearch, rfl, .unanswered rfl⟩ ?_
  refine Remote.Runs.answered (0 : Int) rfl ?_
  refine Remote.Runs.answered (1 : Nat) ⟨rfl, rfl⟩ ?_
  refine Remote.Runs.answered (.error ⟨.unavailable, "no connection"⟩)
    ⟨⟨0, 1⟩, axisSearch, rfl, .unanswered rfl⟩ ?_
  refine Remote.Runs.answered (0 : Int) rfl ?_
  exact Remote.Runs.done

def beamSearched : Reading Unit :=
  ⟨beamFull.put ⟨0, 1⟩ ⟨axisLog, some beamAxis⟩,
    ((SearchWorld.start.send ⟨0, 0⟩ axisSearch).fail ⟨0, 0⟩).send ⟨0, 1⟩ axisSearch⟩

/-- The first replica is not reached, so the second one is asked. -/
theorem beam_searches : Remote.Runs (readNetwork smallNumpy smallNpz beamDeployment)
    ((search axisQuery 1 none none : Coordinating Int (List Int)) pairWritten) ⟨beamFull, SearchWorld.start⟩
    (.ok [0] pairSearched) beamSearched := by
  refine Remote.Runs.answered (0 : Int) rfl ?_
  refine Remote.Runs.answered (0 : Nat) ⟨rfl, rfl⟩ ?_
  refine Remote.Runs.answered (.error ⟨.unavailable, "no connection"⟩)
    ⟨⟨0, 0⟩, axisSearch, rfl, .unanswered rfl⟩ ?_
  refine Remote.Runs.answered (0 : Int) rfl ?_
  refine Remote.Runs.answered (1 : Nat) ⟨rfl, rfl⟩ ?_
  refine Remote.Runs.answered (.ok [⟨0, 0, ""⟩]) ⟨⟨0, 1⟩, axisSearch, rfl, .served rfl axisSearch_run⟩ ?_
  exact Remote.Runs.done

def beamDeeds : List (Deed Int) := [.added axisWrite.vectors none none, .found axisQuery 1 none none [0]]

theorem beam_added : (⟨pairClient, pairFleet⟩ : Plant Unit).Run smallNumpy smallNpz beamDeployment
    [.added axisWrite.vectors none none] ⟨pairWritten, beamFull⟩ := by
  have started : (⟨pairClient, pairFleet⟩ : Plant Unit).Run smallNumpy smallNpz beamDeployment
    ([] : List (Deed Int))
      ⟨pairClient, beamStarted⟩ := .step (.step .start (.moved (.other (.opened rfl))))
        (.moved (.other (.opened rfl)))
  have keyed : Keyed none := fun _ impossible => absurd impossible List.not_mem_nil
  exact started.step (.did (.added rfl (List.cons_ne_nil _ _) keyed beam_adds))

theorem beam_run : (⟨pairClient, pairFleet⟩ : Plant Unit).Run smallNumpy smallNpz beamDeployment beamDeeds
    ⟨pairSearched, beamSearched.fleet⟩ := by
  have found : (⟨pairWritten, beamFull⟩ : Plant Unit).Serves smallNumpy smallNpz beamDeployment
      [.found axisQuery 1 none none [0]] ⟨pairSearched, beamSearched.fleet⟩ := .did (.found rfl beam_searches)
  exact beam_added.step found

end Sample

/-! ## Every run -/

section Runs

variable {D G : Type} [LinearOrder D] {np : Numpy Float32Bits D G} {npz : Npz G} {deployment : Deployment}
  {efSearch : Nat} {plant next : Plant G}

/-- Every run of the cluster ends in a state that the in-process coordinator mirrors
after the same calls. -/
theorem Plant.Fresh.runs {params : HnswParams} (steady : np.Steady) (partitions : np.Partitions)
    (positive : 0 < deployment.dim) (given : params.efSearch = some efSearch) (wide : 0 < efSearch)
    (seeded : ∀ shard, deployment.params shard = Coordinator.shardParams params shard)
    (fresh : plant.Fresh deployment) (new : plant.client.size = 0) {deeds : List (Deed D)}
    (run : plant.Run np npz deployment deeds next) :
    (∀ id, (deployment.config id).params.efSearch = some efSearch) ∧
      ∃ later after, (Coordinator.init np deployment.sizes.length params).Run np deeds after ∧
        next.Mirrored np npz deployment efSearch later after := by
  have widths : ∀ id, (deployment.config id).params.efSearch = some efSearch := by
    intro id
    rw [deployment.params_config, seeded]
    exact given
  have start : plant.Mirrored np npz deployment efSearch _
    (Coordinator.init np deployment.sizes.length params) :=
    fresh.mirrored given seeded positive new
  exact ⟨widths, start.run steady partitions positive wide widths run⟩

/-- The networked cluster refines the in-process one: whatever happens to its
replicas, the calls that return have the results the in-process coordinator gives
for the same calls, and at the end its shards are those of every replica. -/
theorem networked_refines {params : HnswParams} (steady : np.Steady) (partitions : np.Partitions)
    (positive : 0 < deployment.dim) (given : params.efSearch = some efSearch) (wide : 0 < efSearch)
    (seeded : ∀ shard, deployment.params shard = Coordinator.shardParams params shard)
    (fresh : plant.Fresh deployment) (new : plant.client.size = 0) {deeds : List (Deed D)}
    (run : plant.Run np npz deployment deeds next) :
    ∃ after, (Coordinator.init np deployment.sizes.length params).Run np deeds after ∧
      ∀ id, deployment.Member id → ∀ state, (next.fleet.nodes id).Yields np npz (deployment.config id) state →
        ∃ shard, after.shards[id.shard]? = some shard ∧ state.shard.contents = shard.contents := by
  rcases fresh.runs steady partitions positive given wide seeded new run with
    ⟨widths, later, after, ran, reached⟩
  refine ⟨after, ran, fun id member state yields => ?_⟩
  rcases reached.mirrors.shards id member with ⟨shard, isShard, own⟩
  rcases yields.running (reached.settled.holds id member) with ⟨disk, running⟩
  exact ⟨shard, isShard, Option.some.inj (running.contents.symm.trans own.contents)⟩

theorem networked_refines_pair : ∃ after, (Coordinator.init smallNumpy 1 beamParams).Run
    smallNumpy beamDeeds after ∧
    ∃ shard, after.shards[0]? = some shard ∧ beamAxis.shard.contents = shard.contents := by
  have partitions : (smallNumpy : Numpy Float32Bits Int Unit).Partitions := Shard.exact_partitions _ _ _ _ _
  rcases networked_refines smallNumpy_steady partitions Nat.zero_lt_two rfl (show 0 < 50 by decide)
    (fun _ => rfl) beam_fresh rfl beam_run
    with ⟨after, ran, stored⟩
  exact ⟨after, ran, stored ⟨0, 0⟩ (by decide) beamAxis (.up rfl)⟩

/-- The shards of which no replica answered, and the merge of the other shards'
answers, as the in-process shards give them. -/
structure Degrades (np : Numpy Float32Bits D G) (deployment : Deployment) (coordinator : Coordinator G)
    (query : List Float32Bits) (k : Nat) (normal : Option Filter) (targets : List Nat)
    (failed : List ReplicaId) (ids : List Int) (missing : List Nat) : Prop where
  unanswered : missing = targets.filter fun shard =>
    decide (∀ replica ∈ deployment.group shard, replica ∈ failed)
  merged : ∃ answers, List.Forall₂ (fun target answer => ∃ shard found, coordinator.shards[target]? =
    some shard ∧
      Coordinator.ask np query k false normal shard = .ok answer found)
      (targets.filter fun shard => decide (shard ∉ missing)) answers ∧
    ids = (mergeTopKScored answers k).map Scored.globalId

/-- Whichever replicas cannot answer, `search_partial` returns: it names the shards
that are missing, and finds what the others hold.  The request can be built, and
gRPC takes it and an answer of `k` hits. -/
theorem partial_search {params : HnswParams} (steady : np.Steady) (partitions : np.Partitions)
    (positive : 0 < deployment.dim) (given : params.efSearch = some efSearch) (wide : 0 < efSearch)
    (seeded : ∀ shard, deployment.params shard = Coordinator.shardParams params shard)
    (fresh : plant.Fresh deployment) (new : plant.client.size = 0) {deeds : List (Deed D)}
    (run : plant.Run np npz deployment deeds next) {query : List Float32Bits}
    (length : query.length = deployment.dim) (k : Nat) {filter : Payload} {name : Option String}
    {normal : Option Filter} {targets : List Nat}
    (planned : planQuery filter name deployment.sizes.length = .ok (normal, targets))
    {request : SearchRequest} (built : searchRequest query k false normal = .ok request)
    (sent : request.encode.length ≤ maxMessageBytes) (few : 18 * k ≤ maxMessageBytes) :
    ∃ after, (Coordinator.init np deployment.sizes.length params).Run np deeds after ∧
      ∀ result last, Remote.Runs (readNetwork np npz deployment)
          ((searchPartial query k filter name : Coordinating D (List Int × List Nat)) next.client)
          ⟨next.fleet, SearchWorld.start⟩ result last →
        ∃ ids missing client, result = .ok (ids, missing) client ∧
          Degrades np deployment after query k normal targets last.searches.failed ids missing := by
  rcases fresh.runs steady partitions positive given wide seeded new run with
    ⟨widths, later, after, ran, reached⟩
  refine ⟨after, ran, fun result last searches => ?_⟩
  have whole := reached.whole wide
  have inside := (planQuery_gives planned).2
  rcases searchRequest_ok built with ⟨text, encoded, rfl⟩
  have decoded := (planQuery_gives planned).1 text encoded
  have portable : after.Portable np ⟨query, k, false, text⟩ :=
    ⟨sent, fun shard => Nat.le_trans (Coordinator.answersOf_bytes shard) few⟩
  have answering : after.Answering np ⟨query, k, false, text⟩ :=
    Coordinator.answering partitions whole length decoded
  rw [← reached.deployed.numShards] at planned
  rcases Remote.runs_bind searches with ⟨gathered, between, front, rest⟩
  rcases scatterGather_invisible widths reached.mirrors reached.deployed reached.settled reached.caching
    planned built answering
    front (Or.inl portable) with ⟨scored, missing, client, rfl, invisible⟩
  cases rest
  have isMissing : missing = targets.filter fun shard =>
      decide (∀ replica ∈ deployment.group shard, replica ∈ last.searches.failed) := by
    rw [invisible.missing]
    unfold deadShards
    simp only [reached.deployed.replicasOf]
  have live : next.client.liveShards targets last.searches = targets.filter fun shard =>
    decide (shard ∉ missing) := by
    unfold liveShards
    apply List.filter_congr
    intro shard member
    have asked : shard ∈ missing ↔ ∀ replica ∈ deployment.group shard, replica ∈ last.searches.failed := by
      simp only [isMissing, List.mem_filter, member, true_and, decide_eq_true_eq]
    simp only [reached.deployed.replicasOf, asked, decide_not]
  refine ⟨_, missing, client, rfl, isMissing,
    (targets.filter fun shard => decide (shard ∉ missing)).map
      (answerOf (after.answersOf np) ⟨query, k, false, text⟩ false), ?_, ?_⟩
  · refine List.forall₂_map_right_iff.mpr (List.forall₂_same.mpr fun target member => ?_)
    have isTarget := inside target (List.mem_of_mem_filter member)
    rw [← reached.mirrors.count] at isTarget
    exact Coordinator.asked partitions whole length decoded isTarget
  rw [invisible.merged, live, mergeTopKScored, List.flatMap_def]

theorem partial_search_pair : ∃ after, (Coordinator.init smallNumpy 1 beamParams).Run smallNumpy
      [.added axisWrite.vectors none none] after ∧
    Degrades smallNumpy beamDeployment after axisQuery 1 none [0] beamLapsed.searches.failed [] [0] := by
  have partitions : (smallNumpy : Numpy Float32Bits Int Unit).Partitions := Shard.exact_partitions _ _ _ _ _
  rcases partial_search smallNumpy_steady partitions Nat.zero_lt_two rfl (show 0 < 50 by decide)
    (fun _ => rfl) beam_fresh rfl
    beam_added (show axisQuery.length = 2 from rfl) 1 (show planQuery none none 1 = .ok (none, [0]) from rfl)
    (show searchRequest axisQuery 1 false none = .ok axisSearch from rfl) (by decide +kernel) (by decide)
      with ⟨after, ran, ends⟩
  rcases ends _ _ beam_lapses with ⟨ids, missing, client, same, degrades⟩
  cases same
  exact ⟨after, ran, degrades⟩

end Runs

end VectorSearch
