import VectorSearch.Client.Checking
import VectorSearch.Client.Failover
import VectorSearch.Lib.Confined

namespace VectorSearch

/-!
# What a search does to its coordinator

A search sends its one request to replicas that the coordinator knows, and
changes only the marks of those that could not answer and the rotation.  What
the coordinator knows of the shards, and the next id, stay as they are.
-/

/-- The address and the peer name of a replica. -/
def ReplicaStub.place (stub : ReplicaStub) : String × String := (stub.address, stub.peer)

namespace GrpcCoordinator

/-- What a search leaves as it was. -/
structure Searched (start state : GrpcCoordinator) : Prop where
  size : state.size = start.size
  lastSeqs : state.lastSeqs = start.lastSeqs
  places : state.replicas.map (List.map ReplicaStub.place) = start.replicas.map (List.map ReplicaStub.place)

variable {start state : GrpcCoordinator}

theorem Searched.refl (start : GrpcCoordinator) : Searched start start := ⟨rfl, rfl, rfl⟩

theorem Searched.lengths (searched : Searched start state) :
    state.replicas.map List.length = start.replicas.map List.length := by
  have counted : ∀ coordinator : GrpcCoordinator, coordinator.replicas.map List.length =
      (coordinator.replicas.map (List.map ReplicaStub.place)).map List.length := by
    intro coordinator
    rw [List.map_map]
    apply List.map_congr_left
    intro group _
    exact (List.length_map _).symm
  rw [counted, counted, searched.places]

theorem replicasOf_lengths (coordinator : GrpcCoordinator) (shard : Nat) : coordinator.replicasOf shard =
    (List.range ((coordinator.replicas.map List.length)[shard]?.getD 0)).map fun place => ⟨shard, place⟩ := by
  unfold replicasOf
  rw [List.getElem?_map]
  cases coordinator.replicas[shard]? <;> rfl

theorem Searched.replicasOf (searched : Searched start state) (shard : Nat) : state.replicasOf shard =
    start.replicasOf shard := by
  rw [replicasOf_lengths, replicasOf_lengths, searched.lengths]

theorem Searched.knows (searched : Searched start state) {id : ReplicaId} (known : state.Knows id) :
    start.Knows id := by
  unfold Knows at known ⊢
  rw [← searched.replicasOf]
  exact known

theorem stub_place (coordinator : GrpcCoordinator) (id : ReplicaId) : (coordinator.stub id).place =
    (((coordinator.replicas.map (List.map ReplicaStub.place))[id.shard]?.getD [])[id.place]?).getD
      ("", "") := by
  unfold stub
  rw [List.getElem?_map]
  cases coordinator.replicas[id.shard]? with
  | none => rfl
  | some group =>
      simp only [Option.map_some, Option.getD_some, List.getElem?_map]
      cases group[id.place]? <;> rfl

/-- The marks are not part of what makes a coordinator one of a cluster. -/
theorem Searched.deployed {deployment : Deployment} (searched : Searched start state)
    (deployed : start.Deployed deployment) :
    state.Deployed deployment := by
  have listed : ∀ group ∈ state.replicas, ∃ original ∈ start.replicas,
      original.map ReplicaStub.place = group.map ReplicaStub.place := by
    intro group member
    have isPlace := List.mem_map_of_mem (f := List.map ReplicaStub.place) member
    rw [searched.places] at isPlace
    exact List.mem_map.mp isPlace
  refine ⟨searched.lengths.trans deployed.sizes, fun group member => ?_, fun id member => ?_,
    fun group member empty => ?_, ?_⟩
  · rcases listed group member with ⟨original, isOriginal, same⟩
    have addresses : ∀ group : List ReplicaStub,
        group.map ReplicaStub.address = (group.map ReplicaStub.place).map Prod.fst := by
      intro group
      rw [List.map_map]
      rfl
    rw [addresses, ← same, ← addresses]
    exact deployed.addresses original isOriginal
  · have same : (state.stub id).place = (start.stub id).place := by rw [stub_place, stub_place, searched.places]
    have isPeer : (state.stub id).peer = (start.stub id).peer := congrArg Prod.snd same
    rw [isPeer]
    exact deployed.peers id member
  · rcases listed group member with ⟨original, isOriginal, same⟩
    rw [empty] at same
    exact deployed.nonempty original isOriginal (List.map_eq_nil_iff.mp same)
  · have count := congrArg List.length searched.lengths
    rw [List.length_map, List.length_map] at count
    rw [searched.lastSeqs, count]
    exact deployed.positions

theorem map_modify_same {α β : Type} {items : List α} {position : Nat} {change : α → α} {view : α → β}
    (same : ∀ item, view (change item) = view item) : (items.modify position change).map view =
    items.map view := by
  apply List.ext_getElem?
  intro other
  rw [List.getElem?_map, List.getElem?_map, List.getElem?_modify]
  cases items[other]? with
  | none => rfl
  | some item =>
      simp only [Option.map_eq_map, Option.map_some]
      split
      · exact congrArg some (same item)
      · rfl

theorem Searched.mark (searched : Searched start state) (replica : ReplicaId) (time : Int) :
    Searched start (setDownUntil replica time state) := by
  refine ⟨searched.size, searched.lastSeqs, Eq.trans ?_ searched.places⟩
  apply map_modify_same
  intro group
  apply map_modify_same
  intro stub
  rfl

/-! ## The calls of a search -/

/-- Requests are sent to replicas that are known, and waited for. -/
def Asks (start : GrpcCoordinator) (allowed : SearchRequest → Prop) : Rpc → Prop
  | .startSearch replica request => start.Knows replica ∧ allowed request
  | .finishSearch _ => True
  | .monotonic => True
  | _ => False

/-- A search over replicas that are known. -/
def Pending.Known (start : GrpcCoordinator) (search : Pending) : Prop :=
  start.Knows search.replica ∧ ∀ replica ∈ search.left, start.Knows replica

/-- An answer after which no other replica is tried. -/
def Refuses {D : Type} : (rpc : Rpc) → Rpc.Answer D rpc → Prop
  | .finishSearch _, answer => ∃ error : RpcError, answer = .error error ∧ error.retryable = false
  | _, _ => False

variable {D : Type} {allowed : SearchRequest → Prop} {request : SearchRequest}

/-- A search that keeps to its replicas and requests, and ends when it is refused. -/
abbrev Asking {α : Type} (start : GrpcCoordinator) (allowed : SearchRequest → Prop) (client : Coordinating D α)
    (given : α → Prop) : Prop := Client.Confined (Asks start allowed) Refuses (Searched start) client given

open Client

theorem replicaOrder_asking (shard : Nat) (now : Int) :
    Asking start allowed (replicaOrder shard now : Coordinating D (List ReplicaId)) fun order =>
      ∀ replica ∈ order, start.Knows replica := by
  apply Confined.get_bind
  intro read searched
  dsimp only
  split
  · exact Confined.throw _
  · refine Confined.bind (Confined.set ⟨searched.size, searched.lastSeqs, searched.places⟩) fun _ _ =>
      Confined.pure ?_
    intro replica member
    have isReplica := (rotated_perm _ _ _).subset member
    exact searched.knows (knows_of_mem isReplica)

theorem replicaOrders_asking (now : Int) (shards : List Nat) :
    Asking start allowed (replicaOrders now shards : Coordinating D (List (List ReplicaId)))
      fun orders => ∀ order ∈ orders, ∀ replica ∈ order, start.Knows replica := by
  induction shards with
  | nil => exact Confined.pure fun _ impossible => absurd impossible List.not_mem_nil
  | cons shard rest inductionHypothesis =>
      refine Confined.bind (replicaOrder_asking shard now) fun order known => ?_
      refine Confined.bind inductionHypothesis fun orders others => Confined.pure ?_
      intro other member
      rcases List.mem_cons.mp member with rfl | later
      · exact known
      · exact others other later

theorem startSearch_asking (isAllowed : allowed request) {replica : ReplicaId} (known : start.Knows replica) :
    Asking start allowed (Client.call (Rpc.startSearch replica request) : Coordinating D Nat) fun _ => True :=
  Confined.call ⟨known, isAllowed⟩ fun _ impossible => impossible

theorem monotonic_asking : Asking start allowed (Client.call Rpc.monotonic : Coordinating D Int) fun _ =>
    True :=
  Confined.call trivial fun _ impossible => impossible

theorem startSearches_asking (isAllowed : allowed request) {orders : List (List ReplicaId)}
    (known : ∀ order ∈ orders, ∀ replica ∈ order, start.Knows replica) :
    Asking start allowed (startSearches request orders : Coordinating D (List Pending)) fun started =>
      ∀ search ∈ started, search.Known start := by
  induction orders with
  | nil => exact Confined.pure fun _ impossible => absurd impossible List.not_mem_nil
  | cons order rest inductionHypothesis =>
      have others := inductionHypothesis fun other member => known other (List.mem_cons_of_mem _ member)
      have own := known order List.mem_cons_self
      cases order with
      | nil => exact Confined.throw _
      | cons replica left =>
          refine Confined.bind (startSearch_asking isAllowed (own replica List.mem_cons_self))
            fun handle _ => ?_
          refine Confined.bind others fun started all => Confined.pure ?_
          intro search member
          rcases List.mem_cons.mp member with rfl | later
          · exact ⟨own replica List.mem_cons_self, fun other isLeft =>
              own other (List.mem_cons_of_mem _ isLeft)⟩
          · exact all search later

theorem gatherOne_asking (isAllowed : allowed request) (withPayloads : Bool) {search : Pending}
    (known : search.Known start) {gathered : Gathered D}
    (retries : ∀ other ∈ gathered.retries, other.Known start) :
    Asking start allowed (gatherOne request withPayloads search gathered : Coordinating D (Gathered D))
      fun after =>
      ∀ other ∈ after.retries, other.Known start := by
  refine Confined.call_bind trivial ?_ fun answer => ?_
  · rintro answer ⟨error, rfl, refused⟩
    refine ⟨error.toError, ?_⟩
    dsimp only
    rw [refused]
    rfl
  cases answer with
  | ok hits =>
      exact Confined.bind (Confined.modify fun state searched => searched.mark _ _) fun _ _ =>
      Confined.pure retries
  | error error =>
      dsimp only
      split
      · exact Confined.throw _
      · refine Confined.bind monotonic_asking fun now _ => ?_
        refine Confined.bind (Confined.modify fun state searched => searched.mark _ _) fun _ _ => ?_
        rcases search with ⟨replica, handle, left⟩
        cases left with
        | nil => exact Confined.pure retries
        | cons next left =>
            have isNext := known.2 next List.mem_cons_self
            refine Confined.bind (Confined.modify fun state searched =>
              ⟨searched.size, searched.lastSeqs, searched.places⟩)
              fun _ _ => ?_
            refine Confined.bind (startSearch_asking isAllowed isNext) fun handle _ => Confined.pure ?_
            intro other member
            rcases List.mem_append.mp member with before | now
            · exact retries other before
            · rw [List.mem_singleton.mp now]
              exact ⟨isNext, fun replica isLeft => known.2 replica (List.mem_cons_of_mem _ isLeft)⟩

theorem gatherRound_asking (isAllowed : allowed request) (withPayloads : Bool) {pending : List Pending}
    (known : ∀ search ∈ pending, search.Known start)
    {gathered : Gathered D} (retries : ∀ other ∈ gathered.retries, other.Known start) :
    Asking start allowed (gatherRound request withPayloads pending gathered : Coordinating D (Gathered D))
      fun after =>
      ∀ other ∈ after.retries, other.Known start := by
  induction pending generalizing gathered with
  | nil => exact Confined.pure retries
  | cons search rest inductionHypothesis =>
      refine Confined.bind (gatherOne_asking isAllowed withPayloads (known search List.mem_cons_self)
        retries) fun after again => ?_
      exact inductionHypothesis (fun other member => known other (List.mem_cons_of_mem _ member)) again

theorem gatherRounds_asking (isAllowed : allowed request) (withPayloads : Bool) (rounds : Nat)
    {pending : List Pending}
    (known : ∀ search ∈ pending, search.Known start) (perShard : List (List (Scored D))) (missing : List Nat) :
    Asking start allowed (gatherRounds request withPayloads rounds pending perShard missing :
      Coordinating D _) fun _ => True := by
  induction rounds generalizing pending perShard missing with
  | zero =>
      cases pending with
      | nil => exact Confined.pure trivial
      | cons search rest => exact Confined.throw _
  | succ rounds inductionHypothesis =>
      cases pending with
      | nil => exact Confined.pure trivial
      | cons search rest =>
          have first : ∀ other ∈ ([] : List Pending), other.Known start := fun _ impossible =>
            absurd impossible List.not_mem_nil
          refine Confined.bind (gatherRound_asking isAllowed withPayloads known first) fun gathered again => ?_
          exact inductionHypothesis again _ _

variable [LinearOrder D] {query : List Float32Bits} {k : Int} {withPayloads : Bool}
  {filter : Payload} {name : Option String}

/-- The request of a search. -/
def Requests (start : GrpcCoordinator) (query : List Float32Bits) (k : Int) (withPayloads : Bool)
    (filter : Payload) (name : Option String) (request : SearchRequest) : Prop :=
  ∃ normal targets, planQuery filter name start.numShards = .ok (normal, targets) ∧
    searchRequest query k withPayloads normal = .ok request

/-- A search keeps to its request, and to the replicas its coordinator knows. -/
theorem scatterGather_asking : Asking start (Requests start query k withPayloads filter name)
    (scatterGather query k withPayloads filter name : Coordinating D (List (Scored D) × List Nat))
    fun _ => True := by
  apply Confined.get_bind
  intro read searched
  have same : read.numShards = start.numShards := by
    have count := congrArg List.length searched.lengths
    rw [List.length_map, List.length_map] at count
    exact count
  rw [same]
  refine Confined.bind (Confined.lift fun _ planned => planned) fun plan planned => ?_
  rcases plan with ⟨normal, targets⟩
  refine Confined.bind (Confined.lift fun _ built => built) fun request built => ?_
  have isAllowed : Requests start query k withPayloads filter name request := ⟨normal, targets, planned, built⟩
  refine Confined.bind monotonic_asking fun now _ => ?_
  refine Confined.bind (replicaOrders_asking now targets) fun orders known => ?_
  refine Confined.bind (startSearches_asking isAllowed known) fun started all => ?_
  refine Confined.bind (gatherRounds_asking isAllowed withPayloads _ all [] []) fun _ _ => ?_
  exact Confined.pure trivial

theorem searchComplete_asking : Asking start (Requests start query k withPayloads filter name)
    (searchComplete query k withPayloads filter name : Coordinating D (List (Scored D))) fun _ => True := by
  refine Confined.bind scatterGather_asking fun result _ => ?_
  rcases result with ⟨scored, missing⟩
  dsimp only
  split
  · exact Confined.pure trivial
  · exact Confined.throw _

theorem searchScored_asking : Asking start (Requests start query k false filter name)
    (searchScored query k filter name : Coordinating D (List (D × Int))) fun _ => True :=
  Confined.bind searchComplete_asking fun _ _ => Confined.pure trivial

theorem search_asking : Asking start (Requests start query k false filter name)
    (search query k filter name : Coordinating D (List Int)) fun _ => True :=
  Confined.bind searchScored_asking fun _ _ => Confined.pure trivial

theorem searchHits_asking : Asking start (Requests start query k true filter name)
    (searchHits query k filter name : Coordinating D (List (Hit D))) fun _ => True := by
  refine Confined.bind searchComplete_asking fun scored _ => ?_
  exact Confined.lift fun _ _ => trivial

end GrpcCoordinator
end VectorSearch
