import VectorSearch.Client.Asking
import VectorSearch.Client.Mirroring
import VectorSearch.Index.FilterMeaning
import VectorSearch.Server.Caching

namespace VectorSearch

/-!
# Searches of the replicas

Replicas that have taken all writes answer a search as the shard of the
in-process coordinator does that mirrors them, whichever of them is asked and
however far its payload index has read.  So a search of the networked
coordinator sees shards with one answer each.
-/

open Stateful GrpcCoordinator Program

/-! ## The caches of the replicas -/

section Caches

variable {D G : Type} [LinearOrder D] {np : Numpy Float32Bits D G} {npz : Npz G} {deployment : Deployment}
  {efSearch : Nat} {fleet next : Fleet G}

/-- The shards of the replicas that run have the beam width, and sound payload indexes. -/
def Fleet.Caching (deployment : Deployment) (efSearch : Nat) (fleet : Fleet G) : Prop :=
  ∀ id, deployment.Member id → (fleet.nodes id).Caching efSearch

omit [LinearOrder D] in
theorem Node.caching_up {disk : Disk} {state : DurableShard G} (caching : state.shard.Caching efSearch) :
    (⟨disk, some state⟩ : Node G).Caching efSearch := by
  rintro _ ⟨⟩
  exact caching

omit [LinearOrder D] in
theorem Node.caching_down (disk : Disk) : (⟨disk, none⟩ : Node G).Caching efSearch :=
    fun _ impossible => by cases impossible

omit [LinearOrder D] in
theorem Fleet.Caching.put (caching : fleet.Caching deployment efSearch) (id : ReplicaId) {node : Node G}
    (own : deployment.Member id → node.Caching efSearch) : (fleet.put id node).Caching deployment efSearch := by
  intro other member
  by_cases same : other = id
  · subst same
    rw [Fleet.put_nodes_self]
    exact own member
  · rw [Fleet.put_nodes_of_ne _ same]
    exact caching other member

omit [LinearOrder D] in
theorem Fleet.Caching.at_ (caching : fleet.Caching deployment efSearch) {id : ReplicaId}
    (member : deployment.Member id)
    {disk : Disk} {state : DurableShard G} (alive : fleet.nodes id = ⟨disk, some state⟩) :
    state.shard.Caching efSearch :=
  caching id member state (congrArg Node.process alive)

theorem Fleet.Caching.moves (given : ∀ id, (deployment.config id).params.efSearch = some efSearch)
    (caching : fleet.Caching deployment efSearch) (moves : fleet.Moves np npz deployment next) :
    next.Caching deployment efSearch := by
  cases moves with
  | @served handle flight disk state outcome answer isFlight waiting alive run learns =>
      subst run
      refine caching.put _ fun member => Node.caching_up ?_
      exact (ShardServicer.addDurable_leaves np npz (caching.at_ member alive) flight.request).run
        dataDirectory disk
  | crashed isFlight waiting alive crash => exact caching.put _ fun _ => Node.caching_down _
  | lost isFlight waiting => exact caching
  | other step => exact caching.put _ fun member => step.caching (given _) (caching _ member)

theorem Fleet.Caching.syncs (given : ∀ id, (deployment.config id).params.efSearch = some efSearch)
    (caching : fleet.Caching deployment efSearch) {id : ReplicaId} {address : String}
    {answer : Except RpcError SyncFromResponse}
    (syncs : fleet.Syncs np npz deployment id address answer next) : next.Caching deployment efSearch := by
  have served : ∀ {source : ReplicaId} (peer : Timeline np npz (deployment.config source) deployment.dim)
    (time : Nat),
      fleet.nodes source = ⟨(peer.at_ 0).disk, some (peer.at_ 0).state⟩ → deployment.Member source →
        (⟨(peer.at_ time).disk, some (peer.at_ time).state⟩ : Node G).Caching efSearch :=
    fun peer time now member => Node.caching_up (peer.caching (given _) (caching.at_ member now) time)
  cases syncs with
  | @ended source disk state peer replies outcome answer isPeer alive now quiet answered run learns =>
      subst run
      refine (caching.put source (served peer _ now)).put id fun member => Node.caching_up ?_
      exact (ShardServicer.syncFrom_leaves np npz (caching.at_ member alive) address replies).run exchange
        ⟨disk, 0⟩
  | @crashed source disk state peer replies left error isPeer alive now quiet answered crash =>
      exact (caching.put source (served peer _ now)).put id fun _ => Node.caching_down _
  | unreached error => exact caching

/-- Whatever a coordinator writes. -/
theorem Fleet.Caching.writes (given : ∀ id, (deployment.config id).params.efSearch = some efSearch)
    (caching : fleet.Caching deployment efSearch) {α : Type} {program : Remote Rpc (Rpc.Answer D) α} {value : α}
    (run : Remote.Runs (writeNetwork np npz deployment) program fleet value next) :
    next.Caching deployment efSearch := by
  have stable : Remote.Stable (writeNetwork np npz deployment : Network Rpc (Rpc.Answer D) (Fleet G))
    (Fleet.Caching deployment efSearch) :=
    fun _ _ here move => here.moves given move
  refine run.keeps stable (fun call world answer last here answers => ?_) caching
  cases call with
  | status id => exact answers.1 ▸ here
  | startAdd id request =>
      rw [answers.2]
      exact here
  | finishAdd handle => exact answers.1 ▸ here
  | syncFrom id address => exact here.syncs given answers
  | startSearch id request => exact answers ▸ here
  | finishSearch handle => exact answers ▸ here
  | monotonic => exact answers ▸ here

end Caches

/-! ## The size of the messages -/

/-- The bytes of a `SearchRequest`. -/
def SearchRequest.encode (request : SearchRequest) : Bytes :=
  Protobuf.packed 1 Protobuf.fixed32 request.query ++ Protobuf.number 2 (request.k % 2 ^ 64).toNat ++
    Protobuf.number 3 (if request.withPayloads then 1 else 0) ++ Protobuf.text 4 (encodeUtf8 request.filter)

/-- The most bytes a `Hit` takes: a distance of zero takes none, and any other five. -/
def HitMessage.mostBytes {D : Type} (hit : HitMessage D) : Nat :=
  (Protobuf.number 1 (hit.globalId % 2 ^ 64).toNat).length + 5 +
    (Protobuf.text 3 (encodeUtf8 hit.payload)).length

/-- The most bytes a `SearchResponse` takes. -/
def responseBytes {D : Type} (hits : List (HitMessage D)) : Nat :=
  (hits.map fun hit => 1 + (Protobuf.varint hit.mostBytes).length + hit.mostBytes).sum

/-- Hits without payloads are small. -/
theorem responseBytes_le {D : Type} {hits : List (HitMessage D)} (bare : ∀ hit ∈ hits, hit.payload = "") :
    responseBytes hits ≤ 18 * hits.length := by
  induction hits with
  | nil => exact Nat.le_refl 0
  | cons hit rest inductionHypothesis =>
      have others := inductionHypothesis fun other member => bare other (List.mem_cons_of_mem _ member)
      have isId : (Protobuf.number 1 (hit.globalId % 2 ^ 64).toNat).length ≤ 1 + 10 :=
        Protobuf.number_length_le (by decide) (by decide) (by omega)
      have small : hit.mostBytes ≤ 16 := by
        unfold HitMessage.mostBytes
        rw [bare hit List.mem_cons_self]
        exact Nat.add_le_add (Nat.add_le_add_right isId 5) (Nat.le_refl 0)
      have isLength : (Protobuf.varint hit.mostBytes).length = 1 :=
        Protobuf.varint_small (Nat.lt_of_le_of_lt small (by decide))
      change 1 + (Protobuf.varint hit.mostBytes).length + hit.mostBytes + responseBytes rest ≤ _
      rw [isLength, List.length_cons]
      omega

/-! ## The network -/

section Network

/-- The replicas and the searches sent to them by one call. -/
structure Reading (G : Type) where
  fleet : Fleet G
  searches : SearchWorld

variable {D G : Type} [LinearOrder D] (np : Numpy Float32Bits D G) (npz : Npz G) (deployment : Deployment)

/-- How a search ends for its client: the replica answers, its handler raises, a
message is too large for gRPC, or there is no answer in time, which is the kind of
failure that another replica is tried after. -/
inductive Reading.Answers (world : Reading G) (id : ReplicaId) (request : SearchRequest) :
    Except RpcError (List (HitMessage D)) → Reading G → Prop
  | served {disk : Disk} {state : DurableShard G} {hits : List (HitMessage D)} {shard : Shard Float32Bits G}
      (alive : world.fleet.nodes id = ⟨disk, some state⟩)
      (run : ShardServicer.search np request state.shard = .ok hits shard) :
      Answers world id request (.ok hits) ⟨world.fleet.put id ⟨disk, some { state with shard }⟩, world.searches⟩
  | raised {disk : Disk} {state : DurableShard G} {error : Error} {shard : Shard Float32Bits G}
      {answer : RpcError}
      (alive : world.fleet.nodes id = ⟨disk, some state⟩)
      (run : ShardServicer.search np request state.shard = .error error shard)
      (isAnswer : answer.toError = error.onWire) :
      Answers world id request (.error answer) ⟨world.fleet.put id ⟨disk, some { state with shard }⟩,
        world.searches⟩
  | requestTooLarge {details : String} (large : maxMessageBytes < request.encode.length) :
      Answers world id request (.error ⟨.resourceExhausted, details⟩) ⟨world.fleet, world.searches⟩
  | answerTooLarge {disk : Disk} {state : DurableShard G} {hits : List (HitMessage D)}
      {shard : Shard Float32Bits G}
      {details : String} (alive : world.fleet.nodes id = ⟨disk, some state⟩)
      (run : ShardServicer.search np request state.shard = .ok hits shard)
      (large : maxMessageBytes < responseBytes hits) :
      Answers world id request (.error ⟨.resourceExhausted, details⟩)
        ⟨world.fleet.put id ⟨disk, some { state with shard }⟩, world.searches⟩
  | unanswered {error : RpcError} (retryable : error.retryable = true) :
      Answers world id request (.error error) ⟨world.fleet, world.searches.fail id⟩

/-- The replicas as a search meets them.  All the time they may crash and be
restarted, checkpoint and answer others. -/
def readNetwork : Network Rpc (Rpc.Answer D) (Reading G) where
  answers := fun
    | .startSearch id request => fun world handle last =>
        handle = world.searches.sent.length ∧ last = ⟨world.fleet, world.searches.send id request⟩
    | .finishSearch handle => fun world answer last =>
        ∃ id request, world.searches.sent[handle]? = some (id, request) ∧
          world.Answers np id request answer last
    | .monotonic | .status _ | .startAdd _ _ | .finishAdd _ | .syncFrom _ _ => fun world _ last => last = world
  moves := fun world next => world.fleet.Moves np npz deployment next.fleet ∧ next.searches = world.searches

end Network

/-! ## One answer for each shard -/

section Mirrored

variable {D G : Type} [LinearOrder D] {np : Numpy Float32Bits D G} {npz : Npz G} {deployment : Deployment}
  {efSearch : Nat}
  {histories : ReplicaId → History} {coordinator : Coordinator G} {fleet : Fleet G} {request : SearchRequest}

/-- What the servers answer when their shards are those of the coordinator. -/
def Coordinator.answersOf (np : Numpy Float32Bits D G) (coordinator : Coordinator G) (shard : Nat)
    (request : SearchRequest) :
    List (HitMessage D) :=
  match coordinator.shards[shard]? with
  | none => []
  | some shard =>
      match ShardServicer.search np request shard with
      | .ok hits _ => hits
      | .error _ _ => []

theorem Coordinator.answersOf_eq {shard : Nat} {found after : Shard Float32Bits G} {hits : List (HitMessage D)}
    (isShard : coordinator.shards[shard]? = some found)
    (run : ShardServicer.search np request found = .ok hits after) :
    coordinator.answersOf np shard request = hits := by
  unfold Coordinator.answersOf
  simp only [isShard, run]

/-- The shard of a replica that runs is a twin of the one that mirrors it. -/
theorem Coordinator.Mirrors.twin (mirrors : coordinator.Mirrors np deployment efSearch histories)
    (settled : Settled np npz deployment histories fleet) (caching : fleet.Caching deployment efSearch)
    {id : ReplicaId} (member : deployment.Member id) {disk : Disk} {state : DurableShard G}
    (alive : fleet.nodes id = ⟨disk, some state⟩) :
    ∃ shard, coordinator.shards[id.shard]? = some shard ∧ shard.Twins state.shard := by
  rcases mirrors.shards id member with ⟨shard, isShard, own⟩
  have running : Running np npz (deployment.config id) deployment.dim (histories id) state disk := by
    have holds := settled.holds id member
    rw [alive] at holds
    exact holds
  have same : shard.contents = state.shard.contents := Option.some.inj
    (own.contents.symm.trans running.contents)
  have cached := caching.at_ member alive
  have payloads : shard.payloads = state.shard.payloads := congrArg Contents.payloads same
  refine ⟨shard, isShard, .of_contents own.searchable (cached.indexed ?_) same
    (own.width.trans cached.width.symm)⟩
  rw [← payloads]
  exact own.searchable.readable

/-- The replicas while a search runs, and the searches as they look from outside. -/
structure Reading.Shows (np : Numpy Float32Bits D G) (npz : Npz G) (deployment : Deployment) (efSearch : Nat)
    (histories : ReplicaId → History) (allowed : SearchRequest → Prop) (world : Reading G)
    (searches : SearchWorld) : Prop where
  same : world.searches = searches
  settled : Settled np npz deployment histories world.fleet
  caching : world.fleet.Caching deployment efSearch
  sent : ∀ entry ∈ searches.sent, deployment.Member entry.1 ∧ allowed entry.2

variable {allowed : SearchRequest → Prop} {world next : Reading G} {searches : SearchWorld}

theorem Reading.Shows.moves (given : ∀ id, (deployment.config id).params.efSearch = some efSearch)
    (shows : world.Shows np npz deployment efSearch histories allowed searches)
    (moves : (readNetwork np npz deployment : Network Rpc (Rpc.Answer D) (Reading G)).moves world next) :
    next.Shows np npz deployment efSearch histories allowed searches :=
  ⟨moves.2.trans shows.same, shows.settled.moves moves.1, shows.caching.moves given moves.1, shows.sent⟩

/-- A search that reaches a server leaves it as any search does. -/
theorem Reading.searched {id : ReplicaId} {disk : Disk} {state kept : DurableShard G} {failure : Option Error}
    (alive : fleet.nodes id = ⟨disk, some state⟩)
    (run : ((Request.search request).program np npz state disk).run dataDirectory disk =
      ⟨disk, kept, failure⟩) :
    fleet.Moves np npz deployment (fleet.put id ⟨disk, some kept⟩) := by
  have step : Serves np npz (fun _ request => request.Reads) (deployment.config id) ⟨disk, some state⟩
      ((Request.search request).ended failure) ⟨disk, some kept⟩ := .ended (.search request) trivial trivial run
  rw [← alive] at step
  exact .other step

theorem Reading.Answers.moves {id : ReplicaId} {answer : Except RpcError (List (HitMessage D))}
    (answers : world.Answers np id request answer next) :
    next.fleet = world.fleet ∨ world.fleet.Moves np npz deployment next.fleet := by
  cases answers with
  | @served disk state hits shard alive run =>
      have ran : ((Request.search request).program np npz state disk).run dataDirectory disk =
        ⟨disk, { state with shard }, none⟩ := by
        unfold Request.program
        simp only [run]
        rfl
      exact Or.inr (Reading.searched alive ran)
  | requestTooLarge large => exact Or.inl rfl
  | @answerTooLarge disk state hits shard details alive run large =>
      have ran : ((Request.search request).program np npz state disk).run dataDirectory disk =
        ⟨disk, { state with shard }, none⟩ := by
        unfold Request.program
        simp only [run]
        rfl
      exact Or.inr (Reading.searched alive ran)
  | @raised disk state error shard answer alive run isAnswer =>
      have ran : ((Request.search request).program np npz state disk).run dataDirectory disk =
          ⟨disk, { state with shard }, some error⟩ := by
        unfold Request.program
        simp only [run]
        rfl
      exact Or.inr (Reading.searched alive ran)
  | unanswered retryable => exact Or.inl rfl

/-- The shards have an answer to the request. -/
def Coordinator.Answering (np : Numpy Float32Bits D G) (coordinator : Coordinator G)
    (request : SearchRequest) : Prop :=
  ∀ shard ∈ coordinator.shards, ∃ hits after, ShardServicer.search np request shard = .ok hits after

/-- The request and the answers to it are messages that gRPC takes. -/
structure Coordinator.Portable (np : Numpy Float32Bits D G) (coordinator : Coordinator G)
    (request : SearchRequest) : Prop where
  sent : request.encode.length ≤ maxMessageBytes
  answered : ∀ shard, responseBytes (coordinator.answersOf np shard request) ≤ maxMessageBytes

/-- An answer is the one of the shard, or a failure that another replica is tried
after, or the refusal of a message that is too large. -/
theorem Reading.Shows.answers (given : ∀ id, (deployment.config id).params.efSearch = some efSearch)
    (mirrors : coordinator.Mirrors np deployment efSearch histories)
    (answering : coordinator.Answering np request)
    (shows : world.Shows np npz deployment efSearch histories allowed searches) {id : ReplicaId}
    (member : deployment.Member id)
    {answer : Except RpcError (List (HitMessage D))} (answers : world.Answers np id request answer next) :
    (answer = .ok (coordinator.answersOf np id.shard request) ∧ next.Shows np npz deployment efSearch
      histories allowed searches) ∨
      (∃ error : RpcError, error.retryable = true ∧ answer = .error error ∧
        next.Shows np npz deployment efSearch histories allowed (searches.fail id)) ∨
      ¬ coordinator.Portable np request ∧ ∃ details, answer = .error ⟨.resourceExhausted, details⟩ := by
  have settled : Settled np npz deployment histories next.fleet ∧ next.fleet.Caching deployment efSearch := by
    have moved : next.fleet = world.fleet ∨ world.fleet.Moves np npz deployment next.fleet := answers.moves
    rcases moved with same | moves
    · rw [same]
      exact ⟨shows.settled, shows.caching⟩
    · exact ⟨shows.settled.moves moves, shows.caching.moves given moves⟩
  cases answers with
  | served alive run =>
      rcases mirrors.twin shows.settled shows.caching member alive with ⟨shard, isShard, twins⟩
      rcases answering shard (List.mem_of_getElem? isShard) with ⟨hits, after, ran⟩
      rcases (ShardServicer.search_couples np request).returned twins ran with ⟨reached, served, _⟩
      rw [run] at served
      cases served
      rw [Coordinator.answersOf_eq isShard ran]
      exact Or.inl ⟨rfl, shows.same, settled.1, settled.2, shows.sent⟩
  | raised alive run isAnswer =>
      rcases mirrors.twin shows.settled shows.caching member alive with ⟨shard, isShard, twins⟩
      rcases answering shard (List.mem_of_getElem? isShard) with ⟨hits, after, ran⟩
      rcases (ShardServicer.search_couples np request).returned twins ran with ⟨reached, served, _⟩
      rw [run] at served
      cases served
  | requestTooLarge large =>
      exact Or.inr (Or.inr ⟨fun portable => Nat.not_le.mpr large portable.sent, _, rfl⟩)
  | answerTooLarge alive run large =>
      rcases mirrors.twin shows.settled shows.caching member alive with ⟨shard, isShard, twins⟩
      rcases answering shard (List.mem_of_getElem? isShard) with ⟨hits, after, ran⟩
      rcases (ShardServicer.search_couples np request).returned twins ran with ⟨reached, served, _⟩
      rw [run] at served
      cases served
      refine Or.inr (Or.inr ⟨fun portable => Nat.not_le.mpr large ?_, _, rfl⟩)
      rw [← Coordinator.answersOf_eq isShard ran]
      exact portable.answered id.shard
  | @unanswered error retryable =>
      refine Or.inr (Or.inl ⟨error, retryable, rfl, ?_, settled.1, settled.2, shows.sent⟩)
      rw [← shows.same]

end Mirrored

/-! ## The plan of a search -/

theorem planQuery_gives {filter : Payload} {name : Option String} {numShards : Nat} {normal : Option Filter}
    {targets : List Nat} (planned : planQuery filter name numShards = .ok (normal, targets)) :
    (∀ text, encodeFilter (filterValue normal) = .ok text → decodeFilter text = .ok normal) ∧
      ∀ target ∈ targets, target < numShards := by
  unfold planQuery at planned
  dsimp only at planned
  split at planned
  · cases planned
  · cases name with
    | none =>
        rcases gave_bind planned with ⟨result, normalized, same⟩
        cases same
        exact ⟨fun text encoded => filterValue_decodes normalized encoded, fun target member =>
          List.mem_range.mp member⟩
    | some name =>
        rcases gave_bind planned with ⟨result, normalized, later⟩
        rcases gave_bind later with ⟨shard, isShard, same⟩
        cases same
        refine ⟨fun text encoded => filterValue_decodes normalized encoded, fun target member => ?_⟩
        rw [List.mem_singleton.mp member]
        exact shardForNamespace_lt isShard

theorem searchRequest_ok {query : List Float32Bits} {k : Int} {withPayloads : Bool} {normal : Option Filter}
    {request : SearchRequest} (built : searchRequest query k withPayloads normal = .ok request) :
    ∃ text, encodeFilter (filterValue normal) = .ok text ∧ request = ⟨query, k, withPayloads, text⟩ := by
  rcases gave_bind built with ⟨text, encoded, rest⟩
  split at rest
  · exact ⟨text, encoded, (Except.ok.inj rest).symm⟩
  · cases rest

section Plan

variable {D G : Type} [LinearOrder D] {np : Numpy Float32Bits D G} {coordinator : Coordinator G}
  {query : List Float32Bits} {withPayloads : Bool} {text : String} {normal : Option Filter}

/-- A shard is asked in the process as it is over the wire. -/
theorem ask_search {k : Int} {shard found : Shard Float32Bits G} {answer : List (Scored D)}
    (decoded : decodeFilter text = .ok normal)
    (ran : Coordinator.ask np query k withPayloads normal shard = .ok answer found) :
    ∃ hits, ShardServicer.search np ⟨query, k, withPayloads, text⟩ shard = .ok hits found ∧ answer =
      scoredOf withPayloads hits := by
  unfold Coordinator.ask at ran
  unfold ShardServicer.search
  rw [decoded]
  cases withPayloads with
  | true =>
      rcases bind_ok ran with ⟨hits, reached, searched, reported⟩
      cases reported
      refine ⟨hits.map fun hit => ⟨hit.2.1, hit.1, hit.2.2⟩, ?_, ?_⟩
      · simp only [if_true, bind, EStateM.bind, searched]
        rfl
      · rw [scoredOf, List.map_map]
        rfl
  | false =>
      rcases bind_ok ran with ⟨hits, reached, searched, reported⟩
      cases reported
      refine ⟨hits.map fun hit => ⟨hit.2, hit.1, ""⟩, ?_, ?_⟩
      · simp only [Bool.false_eq_true, if_false, bind, EStateM.bind, searched]
        rfl
      · rw [scoredOf, List.map_map]
        rfl

variable {width k : Nat} {filter : Payload} {name : Option String} {targets : List Nat}

theorem Coordinator.answering (partitions : np.Partitions)
    (whole : ∀ shard ∈ coordinator.shards, shard.Whole width)
    (length : query.length = width) (decoded : decodeFilter text = .ok normal) :
    coordinator.Answering np ⟨query, k, withPayloads, text⟩ := by
  intro shard member
  have isNormal := ShardServicer.decodeFilter_normal decoded
  rcases ask_returns partitions (whole shard member) length k withPayloads isNormal with ⟨answer, found, ran, _⟩
  rcases ask_search decoded ran with ⟨hits, searched, _⟩
  exact ⟨hits, found, searched⟩

/-- What a server answers is what the shard is asked for in the process. -/
theorem Coordinator.asked (partitions : np.Partitions) (whole : ∀ shard ∈ coordinator.shards, shard.Whole width)
    (length : query.length = width) (decoded : decodeFilter text = .ok normal) {target : Nat}
    (inside : target < coordinator.shards.length) : ∃ shard found, coordinator.shards[target]? = some shard ∧
      Coordinator.ask np query k withPayloads normal shard =
        .ok (answerOf (coordinator.answersOf np) ⟨query, k, withPayloads, text⟩ withPayloads target) found := by
  have isShard := List.getElem?_eq_getElem inside
  rcases ask_returns partitions (whole _ (List.getElem_mem inside)) length k withPayloads
    (ShardServicer.decodeFilter_normal decoded) with ⟨answer, found, ran, _⟩
  rcases ask_search decoded ran with ⟨hits, searched, isAnswer⟩
  refine ⟨_, found, isShard, ?_⟩
  rw [answerOf, Coordinator.answersOf_eq isShard searched, ← isAnswer]
  exact ran

/-- The in-process coordinator merges the answers of the shards. -/
theorem Coordinator.scatter_merges (partitions : np.Partitions)
    (whole : ∀ shard ∈ coordinator.shards, shard.Whole width)
    (length : query.length = width) (planned : planQuery filter name coordinator.shards.length =
      .ok (normal, targets))
    (decoded : decodeFilter text = .ok normal) :
    ∃ perShard after, Coordinator.scatter np query k withPayloads filter name coordinator = .ok perShard after ∧
      mergeTopKScored perShard k =
        nsmallest k (targets.flatMap
          (answerOf (coordinator.answersOf np) ⟨query, k, withPayloads, text⟩ withPayloads)) ∧
      coordinator.Twins after := by
  have isNormal := ShardServicer.decodeFilter_normal decoded
  rcases askShards_returns partitions whole length k withPayloads isNormal (planQuery_gives planned).2 with
    ⟨answers, after, scattered, twins, each⟩
  have isAnswers : answers =
    targets.map (answerOf (coordinator.answersOf np) ⟨query, k, withPayloads, text⟩ withPayloads) := by
    clear scattered planned
    induction each with
    | nil => rfl
    | cons asked rest inductionHypothesis =>
        rcases asked with ⟨shard, found, isShard, ran⟩
        rcases ask_search decoded ran with ⟨hits, searched, isAnswer⟩
        rw [List.map_cons, ← inductionHypothesis, isAnswer, answerOf, Coordinator.answersOf_eq isShard searched]
  refine ⟨answers, after, ?_, ?_, twins⟩
  · simp only [Coordinator.scatter, bind, EStateM.bind, get_run, planned, scattered]
  · rw [isAnswers]
    rfl

/-- Without payloads an answer is small. -/
theorem Coordinator.answersOf_bytes (shard : Nat) :
    responseBytes (coordinator.answersOf np shard ⟨query, k, false, text⟩) ≤ 18 * k := by
  unfold Coordinator.answersOf
  split
  · exact Nat.zero_le _
  · rename_i found _
    cases ran : ShardServicer.search np ⟨query, k, false, text⟩ found with
    | error error after => exact Nat.zero_le _
    | ok hits after =>
        unfold ShardServicer.search at ran
        cases decoded : decodeFilter text with
        | error error =>
            simp only [decoded] at ran
            cases ran
        | ok filter =>
          simp only [decoded] at ran
          rcases bind_ok ran with ⟨reports, reached, searched, reported⟩
          cases reported
          refine Nat.le_trans (responseBytes_le ?_) (Nat.mul_le_mul_left 18 ?_)
          · rw [List.forall_mem_map]
            exact fun _ _ => rfl
          · rw [List.length_map]
            exact Shard.search_length searched

end Plan

/-! ## The search of the networked coordinator -/

section Searches

variable {D G : Type} [LinearOrder D] {np : Numpy Float32Bits D G} {npz : Npz G} {deployment : Deployment}
  {efSearch : Nat}
  {histories : ReplicaId → History} {coordinator : Coordinator G} {client : GrpcCoordinator} {fleet : Fleet G}

/-- Whatever is searched for, the replicas keep what they hold. -/
theorem Reading.keeps (given : ∀ id, (deployment.config id).params.efSearch = some efSearch)
    {world last : Reading G} (settled : Settled np npz deployment histories world.fleet)
    (caching : world.fleet.Caching deployment efSearch) {α : Type} {program : Remote Rpc (Rpc.Answer D) α}
    {value : α} (run : Remote.Runs (readNetwork np npz deployment) program world value last) :
    Settled np npz deployment histories last.fleet ∧ last.fleet.Caching deployment efSearch := by
  let good : Reading G → Prop := fun world => Settled np npz deployment histories world.fleet ∧
    world.fleet.Caching deployment efSearch
  have moved : ∀ world next : Reading G, good world → world.fleet.Moves np npz deployment next.fleet →
    good next :=
    fun world next here moves => ⟨here.1.moves moves, here.2.moves given moves⟩
  have stable : Remote.Stable (readNetwork np npz deployment : Network Rpc (Rpc.Answer D) (Reading G)) good :=
    fun world next here moves => moved world next here moves.1
  refine run.keeps stable (fun call world answer next here answers => ?_) ⟨settled, caching⟩
  cases call with
  | startSearch id request =>
      rw [answers.2]
      exact here
  | finishSearch handle =>
      rcases answers with ⟨id, request, _, ended⟩
      have ends : next.fleet = world.fleet ∨ world.fleet.Moves np npz deployment next.fleet := ended.moves
      rcases ends with same | moves
      · change Settled np npz deployment histories next.fleet ∧ next.fleet.Caching deployment efSearch
        rw [same]
        exact here
      · exact moved world next here moves
  | monotonic => exact answers ▸ here
  | status id => exact answers ▸ here
  | startAdd id request => exact answers ▸ here
  | finishAdd handle => exact answers ▸ here
  | syncFrom id address => exact answers ▸ here

variable {query : List Float32Bits} {k : Int} {withPayloads : Bool} {filter : Payload} {name : Option String}
  {normal : Option Filter} {targets : List Nat} {request : SearchRequest}

/-- A search over the replicas that returns, or whose messages are not too large,
looks like one over shards with one answer each. -/
theorem scatterGather_invisible (given : ∀ id, (deployment.config id).params.efSearch = some efSearch)
    (mirrors : coordinator.Mirrors np deployment efSearch histories) (deployed : client.Deployed deployment)
    (settled : Settled np npz deployment histories fleet) (caching : fleet.Caching deployment efSearch)
    (planned : planQuery filter name client.numShards = .ok (normal, targets))
    (built : searchRequest query k withPayloads normal = .ok request)
    (answering : coordinator.Answering np request) {last : Reading G}
    {result : EStateM.Result Error GrpcCoordinator (List (Scored D) × List Nat)}
    (run : Remote.Runs (readNetwork np npz deployment) (scatterGather query k withPayloads filter name client)
      ⟨fleet, SearchWorld.start⟩ result last)
    (unrefused : coordinator.Portable np request ∨ ¬ Client.Raises result) :
    ∃ scored missing after, result = .ok (scored, missing) after ∧
      Invisible (coordinator.answersOf np) client request targets k withPayloads scored
        missing last.searches := by
  let allowed : SearchRequest → Prop := client.Requests query k withPayloads filter name
  have only : ∀ asked, allowed asked → asked = request := by
    rintro asked ⟨other, others, otherPlan, otherBuilt⟩
    rw [planned] at otherPlan
    cases otherPlan
    exact Except.ok.inj (otherBuilt.symm.trans built)
  have moves : ∀ (world next : Reading G) (abstract : SearchWorld),
      world.Shows np npz deployment efSearch histories allowed abstract →
      (readNetwork np npz deployment : Network Rpc (Rpc.Answer D) (Reading G)).moves world next →
      next.Shows np npz deployment efSearch histories allowed abstract := fun _ _ _ shows move =>
        shows.moves given move
  have answers : ∀ call, client.Asks allowed call → ∀ (world : Reading G) (answer : Rpc.Answer D call)
    (next : Reading G)
      (abstract : SearchWorld), world.Shows np npz deployment efSearch histories allowed abstract →
      (readNetwork np npz deployment).answers call world answer next →
        (Refuses call answer → Client.Raises result) →
      ∃ after, (searchNetwork (coordinator.answersOf np)).answers call abstract answer after ∧
        next.Shows np npz deployment efSearch histories allowed after := by
    intro call asks world answer next abstract shows answered refused
    cases call with
    | startSearch id request =>
        rcases answered with ⟨isHandle, isNext⟩
        rw [shows.same] at isHandle isNext
        have member : deployment.Member id := by
          have known := asks.1
          unfold Knows at known
          rw [deployed.replicasOf] at known
          exact known
        refine ⟨abstract.send id request, ⟨isHandle, rfl⟩, ?_⟩
        rw [isNext]
        refine ⟨rfl, shows.settled, shows.caching, fun entry isEntry => ?_⟩
        rcases List.mem_append.mp isEntry with before | now
        · exact shows.sent entry before
        · rw [List.mem_singleton.mp now]
          exact ⟨member, asks.2⟩
    | finishSearch handle =>
        rcases answered with ⟨id, asked, isSent, ended⟩
        rw [shows.same] at isSent
        have sent := shows.sent _ (List.mem_of_getElem? isSent)
        obtain rfl : asked = request := only asked sent.2
        have unique : ∀ other another, abstract.sent[handle]? = some (other, another) → other =
          id ∧ another = asked := by
          intro other another isOther
          cases isSent.symm.trans isOther
          exact ⟨rfl, rfl⟩
        rcases shows.answers given mirrors answering sent.1 ended with
          ⟨isAnswer, later⟩ | ⟨error, retryable, isAnswer, later⟩ | ⟨large, details, isAnswer⟩
        · refine ⟨abstract, fun other asked isOther => ?_, later⟩
          rcases unique other asked isOther with ⟨rfl, rfl⟩
          exact Or.inl ⟨isAnswer, rfl⟩
        · refine ⟨abstract.fail id, fun other asked isOther => ?_, later⟩
          rcases unique other asked isOther with ⟨rfl, rfl⟩
          exact Or.inr ⟨error, retryable, isAnswer, rfl⟩
        · exact absurd (refused ⟨_, isAnswer, rfl⟩) (unrefused.resolve_left large)
    | monotonic => exact ⟨abstract, rfl, answered ▸ shows⟩
    | status id => exact asks.elim
    | startAdd id request => exact asks.elim
    | finishAdd handle => exact asks.elim
    | syncFrom id address => exact asks.elim
  have start : Reading.Shows np npz deployment efSearch histories allowed
    ⟨fleet, SearchWorld.start⟩ SearchWorld.start :=
    ⟨rfl, settled, caching, fun _ impossible => absurd impossible List.not_mem_nil⟩
  rcases Remote.Runs.simulated moves answers (scatterGather_asking client (Searched.refl client)) run start with
    ⟨searches, abstract, shown⟩
  have replicated : ∀ shard ∈ targets, client.replicasOf shard ≠ [] := by
    intro shard isTarget
    rw [deployed.replicasOf]
    have inside := (planQuery_gives planned).2 shard isTarget
    rw [deployed.numShards] at inside
    exact List.ne_nil_of_mem (deployed.first_member inside)
  have returns : GrpcCoordinator.Returns (coordinator.answersOf np) _
    (scatterGather query k withPayloads filter name) _ :=
    scatterGather_returns planned built replicated
  have ends := (returns client SearchWorld.start ⟨rfl, rfl⟩).1 result searches abstract
  cases result with
  | ok value after =>
      rw [shown.same]
      exact ⟨value.1, value.2, after, rfl, ends⟩
  | error error after => cases ends

end Searches

end VectorSearch
