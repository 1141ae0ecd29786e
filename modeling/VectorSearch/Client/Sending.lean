import VectorSearch.Client.Checking

namespace VectorSearch

/-!
# Sending one chunk everywhere

One round of the loop of `add`: a request to every replica of every shard that
has rows in the chunk, then all answers, then what they say.  Every request of a
shard carries the same write, so when all replicas have answered all of them
have taken it, and otherwise some have.
-/

namespace GrpcCoordinator

variable {D G : Type} [LinearOrder D] {np : Numpy Float32Bits D G} {npz : Npz G} {deployment : Deployment}
  {always : Fleet G → Prop} {copies : Nat → Copies Write} {first : Nat} {targets : List ReplicaId}
  {fleet next : Fleet G}

/-! ## Requests under way -/

variable (np npz deployment copies first targets) in
/-- Requests have been sent to the targets, in this order. -/
structure Flying (fleet : Fleet G) : Prop where
  afloat : Afloat np npz deployment copies first fleet
  flown : (fleet.flights.map Flight.replica).drop first = targets

/-- What happens by itself to the requests: they end, once. -/
theorem moves_flights (moves : fleet.Moves np npz deployment next) :
    next.flights = fleet.flights ∨ ∃ handle flight answer, fleet.flights[handle]? = some flight ∧
      flight.outcome = none ∧
      next.flights = fleet.flights.modify handle fun flight => { flight with outcome := some answer } := by
  cases moves with
  | served isFlight waiting _ _ _ => exact Or.inr ⟨_, _, _, isFlight, waiting, rfl⟩
  | crashed isFlight waiting _ _ => exact Or.inr ⟨_, _, _, isFlight, waiting, rfl⟩
  | lost isFlight waiting => exact Or.inr ⟨_, _, _, isFlight, waiting, rfl⟩
  | other step => exact Or.inl rfl

theorem moves_replicas (moves : fleet.Moves np npz deployment next) :
    next.flights.map Flight.replica = fleet.flights.map Flight.replica := by
  rcases moves_flights moves with same | ⟨handle, flight, answer, isFlight, _, same⟩
  · rw [same]
  · rw [same]
    apply List.ext_getElem?
    intro place
    rw [List.getElem?_map, List.getElem?_map, List.getElem?_modify]
    cases fleet.flights[place]? with
    | none => rfl
    | some found =>
        change some (Flight.replica (if handle = place then _ else found)) = some found.replica
        split <;> rfl

theorem Flying.moves (steady : np.Steady) (flying : Flying np npz deployment copies first targets fleet)
    (moves : fleet.Moves np npz deployment next) : Flying np npz deployment copies first targets next where
  afloat := flying.afloat.moves steady moves
  flown := by
    rw [moves_replicas moves]
    exact flying.flown

theorem Flying.length (flying : Flying np npz deployment copies first targets fleet) :
    fleet.flights.length = first + targets.length := by
  have count := congrArg List.length flying.flown
  rw [List.length_drop, List.length_map] at count
  have started := flying.afloat.started
  omega

/-- The request at a place among those that were sent. -/
theorem Flying.flight (flying : Flying np npz deployment copies first targets fleet)
    {place : Nat} {flight : Flight}
    (isFlight : fleet.flights[first + place]? = some flight) : targets[place]? = some flight.replica := by
  rw [← flying.flown, List.getElem?_drop, List.getElem?_map, isFlight]
  rfl

/-- One more request is sent. -/
theorem Flying.send (flying : Flying np npz deployment copies first targets fleet) {id : ReplicaId}
    {request : AddRequest} (member : deployment.Member id)
    (due : request.Due deployment.dim (copies id.shard)) :
    Flying np npz deployment copies first (targets ++ [id]) (fleet.send id request) where
  afloat := by
    have parts : ∀ {handle : Nat} {flight : Flight}, (fleet.send id request).flights[handle]? = some flight →
        fleet.flights[handle]? = some flight ∨ handle = fleet.flights.length ∧ flight =
          ⟨id, request, none⟩ := by
      intro handle flight isFlight
      change (fleet.flights ++ [(⟨id, request, none⟩ : Flight)])[handle]? = some flight at isFlight
      rw [List.getElem?_append] at isFlight
      split at isFlight
      · exact Or.inl isFlight
      · rename_i behind
        rw [List.getElem?_singleton] at isFlight
        split at isFlight
        · exact Or.inr ⟨by omega, (Option.some.inj isFlight).symm⟩
        · cases isFlight
    constructor
    · intro other isMember
      rcases flying.afloat.stands other isMember with ⟨history, stands⟩
      refine ⟨history, stands.holds, stands.keeps, ?_⟩
      rintro response ⟨handle, flight, later, isFlight, isReplica, isOutcome⟩
      rcases parts isFlight with old | ⟨_, rfl⟩
      · exact stands.heard response ⟨handle, flight, later, old, isReplica, isOutcome⟩
      · cases isOutcome
    · change first ≤ (fleet.flights ++ [(⟨id, request, none⟩ : Flight)]).length
      rw [List.length_append]
      exact Nat.le_add_right_of_le flying.afloat.started
    · intro handle flight isFlight waits
      rcases parts isFlight with old | ⟨rfl, rfl⟩
      · exact flying.afloat.waiting handle flight old waits
      · exact ⟨flying.afloat.started, member, due⟩
  flown := by
    change ((fleet.flights ++ [(⟨id, request, none⟩ : Flight)]).map Flight.replica).drop first = _
    rw [List.map_append, List.drop_append_of_le_length
      (by rw [List.length_map]; exact flying.afloat.started), flying.flown]
    rfl

/-! ## Sending -/

/-- The shard and the handle of each request, when the handles count up. -/
def handlesFrom : Nat → List ReplicaId → List (Nat × Nat)
  | _, [] => []
  | handle, id :: rest => (id.shard, handle) :: handlesFrom (handle + 1) rest

theorem handlesFrom_append (handle : Nat) (front back : List ReplicaId) :
    handlesFrom handle (front ++ back) = handlesFrom handle front ++
      handlesFrom (handle + front.length) back := by
  induction front generalizing handle with
  | nil => rfl
  | cons id rest inductionHypothesis =>
      have later := inductionHypothesis (handle + 1)
      rw [show handle + 1 + rest.length = handle + (id :: rest).length
        from by rw [List.length_cons]; omega] at later
      exact congrArg ((id.shard, handle) :: ·) later

variable (np npz deployment copies first) in
/-- The coordinator is in this state and has sent requests to these targets. -/
def Sending (state : GrpcCoordinator) (targets : List ReplicaId) (current : GrpcCoordinator)
    (fleet : Fleet G) : Prop :=
  current = state ∧ Flying np npz deployment copies first targets fleet

theorem Sending.stable (steady : np.Steady) (state current : GrpcCoordinator) :
    Remote.Stable (writeNetwork np npz deployment : Network Rpc (Rpc.Answer D) (Fleet G))
      (Sending np npz deployment copies first state targets current) :=
  fun _ _ holds moves => ⟨holds.1, holds.2.moves steady moves⟩

theorem sendTo_ensures (steady : np.Steady)
    (good : ∀ first fleet, Afloat np npz deployment copies first fleet → always fleet)
    {state : GrpcCoordinator} {request : AddRequest} (replicas : List ReplicaId)
    (members : ∀ id ∈ replicas, deployment.Member id ∧ request.Due deployment.dim (copies id.shard))
    (targets : List ReplicaId) {raised : Error → GrpcCoordinator → Fleet G → Prop} :
    Client.Ensures (writeNetwork np npz deployment) always
      (Sending np npz deployment copies first state targets)
      (sendTo request replicas : Coordinating D _)
      (fun calls current fleet => Sending np npz deployment copies first state
        (targets ++ replicas) current fleet ∧
        calls = handlesFrom (first + targets.length) replicas)
      raised := by
  induction replicas generalizing targets with
  | nil =>
      apply Client.Ensures.pure
      rintro current fleet holds
      rw [List.append_nil]
      exact ⟨holds, rfl⟩
  | cons id rest inductionHypothesis =>
      have sends : Client.Ensures (writeNetwork np npz deployment) always
        (Sending np npz deployment copies first state targets)
          (Client.call (Rpc.startAdd id request) : Coordinating D Nat)
          (fun handle current fleet => Sending np npz deployment copies first state
            (targets ++ [id]) current fleet ∧
            handle = first + targets.length) raised := by
        apply Client.Ensures.call (fun current => Sending.stable steady state current)
          (fun _ fleet holds => good first fleet holds.2.afloat)
        rintro current fleet handle last ⟨same, flying⟩ ⟨rfl, rfl⟩
        rcases members id List.mem_cons_self with ⟨member, due⟩
        exact ⟨⟨same, flying.send member due⟩, flying.length⟩
      refine Client.Ensures.bind sends fun handle => ?_
      apply Client.Ensures.given
      rintro rfl
      refine Client.Ensures.bind
        (inductionHypothesis (fun other member => members other (List.mem_cons_of_mem _ member))
        (targets ++ [id])) fun calls => ?_
      apply Client.Ensures.given
      rintro rfl
      apply Client.Ensures.pure
      intro current fleet holds
      rw [List.append_assoc, List.singleton_append] at holds
      refine ⟨holds, ?_⟩
      rw [handlesFrom, List.length_append, List.length_singleton, Nat.add_assoc]

/-- The request for a shard's rows in the chunk, if it has any. -/
def requestFor (dim start count : Nat) (lastSeq : Nat) (batch : RoutedBatch Float32Bits) : Option AddRequest :=
  if Chunks.chunk batch.globalIds count start = [] then
    none else some (chunkRequest batch dim start count (lastSeq + 1))

/-- The requests of a round, by shard, when the shards have taken so many writes. -/
def requestsOf (batches : List (RoutedBatch Float32Bits)) (dim start count : Nat) (lastSeqs : Nat → Nat)
    (shard : Nat) : Option AddRequest :=
  batches[shard]?.bind (requestFor dim start count (lastSeqs shard))

/-- The replicas a round sends requests to, in order. -/
def targetsOf (deployment : Deployment) (requests : Nat → Option AddRequest) (shards : List Nat) :
    List ReplicaId :=
  shards.flatMap fun shard => if (requests shard).isSome then deployment.group shard else []

theorem targetsOf_cons (requests : Nat → Option AddRequest) (shard : Nat) (shards : List Nat) :
    targetsOf deployment requests (shard :: shards) =
      (if (requests shard).isSome then deployment.group shard else []) ++
        targetsOf deployment requests shards := rfl

theorem mem_targetsOf {requests : Nat → Option AddRequest} {shards : List Nat} {id : ReplicaId} :
    id ∈ targetsOf deployment requests shards ↔
      id.shard ∈ shards ∧ (requests id.shard).isSome ∧ deployment.Member id := by
  constructor
  · intro member
    rcases List.mem_flatMap.mp member with ⟨shard, isShard, inside⟩
    split at inside
    · rename_i some
      have own := deployment.group_shard inside
      exact ⟨own ▸ isShard, own ▸ some, deployment.member_of_group inside⟩
    · exact absurd inside List.not_mem_nil
  · rintro ⟨isShard, some, member⟩
    refine List.mem_flatMap.mpr ⟨id.shard, isShard, ?_⟩
    rw [if_pos some]
    exact member

theorem sendChunk_ensures (steady : np.Steady)
    (good : ∀ first fleet, Afloat np npz deployment copies first fleet → always fleet)
    {state : GrpcCoordinator} (deployed : state.Deployed deployment) {requests : Nat → Option AddRequest}
    {lastSeqs : Nat → Nat}
    (due : ∀ shard request, requests shard = some request → request.Due deployment.dim (copies shard))
    {dim start count : Nat} (batches : List (RoutedBatch Float32Bits)) (shard : Nat)
    (positions : ∀ place < batches.length, state.lastSeqs[shard + place]? =
      some (.agreed (lastSeqs (shard + place))))
    (planned : ∀ place batch, batches[place]? = some batch →
      requests (shard + place) = requestFor dim start count (lastSeqs (shard + place)) batch)
    (targets : List ReplicaId) {raised : Error → GrpcCoordinator → Fleet G → Prop} :
    Client.Ensures (writeNetwork np npz deployment) always
      (Sending np npz deployment copies first state targets)
      (sendChunk dim start count shard batches : Coordinating D _)
      (fun calls current fleet =>
        Sending np npz deployment copies first state
          (targets ++ targetsOf deployment requests (List.range' shard batches.length)) current fleet ∧
        calls = handlesFrom (first + targets.length)
          (targetsOf deployment requests (List.range' shard batches.length)))
      raised := by
  induction batches generalizing shard targets with
  | nil =>
      apply Client.Ensures.pure
      intro current fleet holds
      rw [← List.append_nil targets] at holds
      exact ⟨holds, rfl⟩
  | cons batch rest inductionHypothesis =>
      have isRequest := planned 0 batch rfl
      rw [Nat.add_zero] at isRequest
      have later := inductionHypothesis (shard + 1)
        (fun place inside => by
          have found := positions (place + 1) (Nat.succ_lt_succ inside)
          rwa [show shard + 1 + place = shard + (place + 1) from by omega])
        (fun place other found => by
          have found := planned (place + 1) other found
          rwa [show shard + 1 + place = shard + (place + 1) from by omega])
      have range : List.range' shard (batch :: rest).length = shard ::
        List.range' (shard + 1) rest.length := rfl
      rw [range, targetsOf_cons, isRequest]
      unfold sendChunk requestFor
      split
      · simp only [Option.isSome_none, Bool.false_eq_true, if_false, List.nil_append]
        exact later targets
      · rename_i some
        refine Client.Ensures.get_bind fun read => ?_
        by_cases same : read = state
        · subst same
          have position := positions 0 (Nat.zero_lt_succ _)
          rw [Nat.add_zero] at position
          rw [position, Option.getD_some]
          refine Client.Ensures.lift_bind (fun seq isSeq => ?_) fun error impossible => by cases impossible
          cases isSeq
          rw [deployed.replicasOf]
          unfold requestFor at isRequest
          rw [if_neg some] at isRequest
          have members : ∀ id ∈ deployment.group shard, deployment.Member id ∧
              (chunkRequest batch dim start count (lastSeqs shard + 1)).Due deployment.dim
                (copies id.shard) := by
            intro id member
            rw [deployment.group_shard member]
            exact ⟨deployment.member_of_group member, due shard _ isRequest⟩
          refine Client.Ensures.bind ((sendTo_ensures steady good (deployment.group shard) members targets).imp
            (fun _ _ holds => holds.2) (fun _ _ _ holds => holds) fun _ _ _ holds => holds) fun calls => ?_
          apply Client.Ensures.given
          rintro rfl
          refine Client.Ensures.bind (later (targets ++ deployment.group shard)) fun more => ?_
          apply Client.Ensures.given
          rintro rfl
          apply Client.Ensures.pure
          intro current fleet holds
          simp only [Option.isSome_some, if_true]
          rw [List.append_assoc] at holds
          refine ⟨holds, ?_⟩
          rw [handlesFrom_append, List.length_append, Nat.add_assoc]
        · rintro current fleet ⟨rfl, rfl, _⟩
          exact absurd rfl same

/-! ## Waiting -/

/-- The requests sent since `first` have ended with these answers, in order. -/
def Arrived (first : Nat) (answers : List (Except RpcError AddResponse)) (fleet : Fleet G) : Prop :=
  ∀ place answer, answers[place]? = some answer →
    ∃ flight, fleet.flights[first + place]? = some flight ∧ flight.outcome = some answer

theorem Arrived.moves {answers : List (Except RpcError AddResponse)} (arrived : Arrived first answers fleet)
    (moves : fleet.Moves np npz deployment next) : Arrived first answers next := by
  intro place answer isAnswer
  rcases arrived place answer isAnswer with ⟨flight, isFlight, ended⟩
  rcases moves_flights moves with same | ⟨handle, other, later, isOther, waiting, same⟩
  · rw [same]
    exact ⟨flight, isFlight, ended⟩
  · refine ⟨flight, ?_, ended⟩
    have different : handle ≠ first + place := by
      rintro rfl
      cases isFlight.symm.trans isOther
      rw [ended] at waiting
      cases waiting
    rw [same, List.getElem?_modify, isFlight]
    exact congrArg some (if_neg different)

theorem Arrived.snoc {answers : List (Except RpcError AddResponse)}
    (arrived : Arrived first answers fleet) {flight : Flight}
    {answer : Except RpcError AddResponse} (isFlight : fleet.flights[first + answers.length]? = some flight)
    (ended : flight.outcome = some answer) : Arrived first (answers ++ [answer]) fleet := by
  intro place found isFound
  rw [List.getElem?_append] at isFound
  split at isFound
  · exact arrived place found isFound
  · rename_i behind
    rw [List.getElem?_singleton] at isFound
    split at isFound
    · have here : place = answers.length := by omega
      cases isFound
      exact here ▸ ⟨flight, isFlight, ended⟩
    · cases isFound

/-- What the answers of the targets add to the report. -/
def Reported.gather (reported : Reported) (heard : List (ReplicaId × Except RpcError AddResponse)) : Reported :=
  heard.foldl (fun reported entry => reported.record entry.1.shard entry.2) reported

theorem waitFor_ensures (steady : np.Steady)
    (good : ∀ first fleet, Afloat np npz deployment copies first fleet → always fleet)
    {state : GrpcCoordinator} (waiting : List ReplicaId) (answers : List (Except RpcError AddResponse))
    (reported : Reported) {raised : Error → GrpcCoordinator → Fleet G → Prop} :
    Client.Ensures (writeNetwork np npz deployment) always
      (fun current fleet => Sending np npz deployment copies first state targets current fleet ∧
        Arrived first answers fleet)
      (waitFor (handlesFrom (first + answers.length) waiting) reported : Coordinating D _)
      (fun result current fleet => ∃ more : List (Except RpcError AddResponse),
        (Sending np npz deployment copies first state targets current fleet ∧
          Arrived first (answers ++ more) fleet) ∧
          more.length = waiting.length ∧ result = reported.gather (waiting.zip more))
      raised := by
  induction waiting generalizing answers reported with
  | nil =>
      apply Client.Ensures.pure
      intro current fleet holds
      refine ⟨[], ?_, rfl, rfl⟩
      rw [List.append_nil]
      exact holds
  | cons id rest inductionHypothesis =>
      have waits : Client.Ensures (writeNetwork np npz deployment) always
          (fun current fleet => Sending np npz deployment copies first state targets current fleet ∧
            Arrived first answers fleet)
          (Client.call (Rpc.finishAdd (first + answers.length)) : Coordinating D _)
          (fun answer current fleet => Sending np npz deployment copies first state targets current fleet ∧
            Arrived first (answers ++ ([answer] : List (Except RpcError AddResponse))) fleet) raised := by
        apply Client.Ensures.call
        · rintro current fleet last ⟨sending, arrived⟩ moves
          exact ⟨Sending.stable steady state current fleet last sending moves, arrived.moves moves⟩
        · exact fun _ fleet holds => good first fleet holds.1.2.afloat
        · rintro current fleet answer last ⟨sending, arrived⟩ ⟨rfl, flight, isFlight, ended⟩
          exact ⟨sending, arrived.snoc isFlight ended⟩
      refine Client.Ensures.bind waits fun answer : Except RpcError AddResponse => ?_
      have later := inductionHypothesis (answers ++ [answer]) (reported.record id.shard answer)
      rw [List.length_append, List.length_singleton, ← Nat.add_assoc] at later
      refine later.imp (fun _ _ holds => holds) ?_ fun _ _ _ holds => holds
      rintro result current fleet ⟨more, holds, count, isResult⟩
      rw [List.append_assoc, List.singleton_append] at holds
      exact ⟨answer :: more, holds, congrArg Nat.succ count, isResult⟩

/-! ## What the answers say -/

/-- The report of a round whose answers all have the right sizes. -/
structure Reported.Sound (full : Nat → Nat) (shards : List Nat) (reported : Reported) : Prop where
  sizes : ∀ entry ∈ reported.sizes.entries, entry.2 = [full entry.1]
  keys : ∀ shard, shard ∈ reported.sizes.keys ↔ shard ∈ shards

/-- As long as nothing has failed, the report lists the shards that have answered,
each with the one size that all its replicas have. -/
theorem Reported.gather_sound {full : Nat → Nat} (heard : List (ReplicaId × Except RpcError AddResponse))
    (sized : ∀ entry ∈ heard, ∀ response, entry.2 = .ok response → response.size = full entry.1.shard)
    {reported : Reported} {shards : List Nat} (sound : reported.Sound full shards)
    (succeeded : (reported.gather heard).failure = none) :
    (reported.gather heard).Sound full (shards ++ heard.map fun entry => entry.1.shard) ∧
      reported.failure = none ∧
      ∀ entry ∈ heard, ∃ response, entry.2 = .ok response := by
  induction heard generalizing reported shards with
  | nil =>
      rw [List.map_nil, List.append_nil]
      exact ⟨sound, succeeded, fun _ impossible => absurd impossible List.not_mem_nil⟩
  | cons entry rest inductionHypothesis =>
      rcases entry with ⟨id, answer⟩
      have others := fun other member => sized other (List.mem_cons_of_mem _ member)
      cases answer with
      | error error =>
          have failed := @inductionHypothesis others (reported.record id.shard (.error error)) shards
            ⟨sound.sizes, sound.keys⟩ succeeded
          cases isFailure : reported.failure with
          | none =>
              have impossible := failed.2.1
              unfold Reported.record at impossible
              rw [isFailure] at impossible
              cases impossible
          | some other =>
              have impossible := failed.2.1
              unfold Reported.record at impossible
              rw [isFailure] at impossible
              cases impossible
      | ok response =>
          have size := sized (id, .ok response) List.mem_cons_self response rfl
          have next : (reported.record id.shard (.ok response)).Sound full (shards ++ [id.shard]) := by
            have sizes : (if response.size ∈ (reported.sizes.get? id.shard).getD [] then
                (reported.sizes.get? id.shard).getD [] else (reported.sizes.get? id.shard).getD
                  [] ++ [response.size]) =
                [full id.shard] := by
              cases found : reported.sizes.get? id.shard with
              | none => exact (if_neg List.not_mem_nil).trans (congrArg (· :: []) size)
              | some sizes =>
                  have known : sizes = [full id.shard] := sound.sizes _ (Dict.get?_mem found)
                  rw [Option.getD_some, known, size]
                  exact if_pos List.mem_cons_self
            constructor
            · intro entry member
              have stored := Dict.get?_eq_some_iff.mpr member
              change (reported.sizes.set id.shard _).get? entry.1 = some entry.2 at stored
              rw [Dict.get?_set] at stored
              split at stored
              · rename_i same
                rw [← Option.some.inj stored, same]
                exact sizes
              · exact sound.sizes entry (Dict.get?_mem stored)
            · intro shard
              change shard ∈ (reported.sizes.set id.shard _).keys ↔ _
              rw [Dict.mem_keys_set, sound.keys, List.mem_append, List.mem_singleton, or_comm]
          rcases inductionHypothesis others next succeeded with ⟨later, nothing, each⟩
          rw [List.append_assoc, List.singleton_append] at later
          refine ⟨later, nothing, fun other member => ?_⟩
          rcases List.mem_cons.mp member with rfl | inside
          · exact ⟨response, rfl⟩
          · exact each other inside

theorem Reported.empty_sound (full : Nat → Nat) : Reported.Sound full [] ⟨Dict.empty, none⟩ :=
  ⟨fun _ impossible => absurd impossible List.not_mem_nil, fun _ => Iff.rfl⟩

/-- What one shard's replicas reported is taken over. -/
def takeOver (full : Nat → Nat) (state : GrpcCoordinator) (shard : Nat) : GrpcCoordinator :=
  { state with
    shardSizes := state.shardSizes.set shard (full shard)
    lastSeqs := state.lastSeqs.modify shard Position.next }

/-- The shards' positions move on by one. -/
theorem takeOver_lastSeqs (full : Nat → Nat) (shards : List Nat) (distinct : shards.Nodup)
    (state : GrpcCoordinator) (shard : Nat) :
    (shards.foldl (takeOver full) state).lastSeqs[shard]? =
      if shard ∈ shards then state.lastSeqs[shard]?.map Position.next else state.lastSeqs[shard]? := by
  induction shards generalizing state with
  | nil => exact (if_neg List.not_mem_nil).symm
  | cons first rest inductionHypothesis =>
      rw [List.nodup_cons] at distinct
      rw [List.foldl_cons, inductionHypothesis distinct.2]
      have one : (takeOver full state first).lastSeqs[shard]? =
          if first = shard then state.lastSeqs[shard]?.map Position.next else state.lastSeqs[shard]? := by
        change (state.lastSeqs.modify first Position.next)[shard]? = _
        rw [List.getElem?_modify]
        cases state.lastSeqs[shard]? with
        | none => split <;> rfl
        | some position => split <;> rfl
      rw [one]
      by_cases same : first = shard
      · subst same
        rw [if_neg distinct.1, if_pos rfl, if_pos List.mem_cons_self]
      · rw [if_neg same]
        simp only [List.mem_cons, Ne.symm same, false_or]

theorem takeOver_kept (full : Nat → Nat) (shards : List Nat) (state : GrpcCoordinator) :
    (shards.foldl (takeOver full) state).replicas = state.replicas ∧
      (shards.foldl (takeOver full) state).size = state.size ∧
      (shards.foldl (takeOver full) state).lastSeqs.length = state.lastSeqs.length := by
  induction shards generalizing state with
  | nil => exact ⟨rfl, rfl, rfl⟩
  | cons first rest inductionHypothesis =>
      rcases inductionHypothesis (takeOver full state first) with ⟨replicas, size, length⟩
      exact ⟨replicas, size, length.trans (List.length_modify ..)⟩

/-- Replicas that have one size each shard are never reported to have diverged. -/
theorem settleAll_ensures {full : Nat → Nat} {entries : List (Nat × List Nat)}
    (each : ∀ entry ∈ entries, entry.2 = [full entry.1]) {state : GrpcCoordinator} {holds : Fleet G → Prop}
    {raised : Error → GrpcCoordinator → Fleet G → Prop} :
    Client.Ensures (writeNetwork np npz deployment) always (fun current fleet => current = state ∧ holds fleet)
      (entries.forM fun entry => settle entry.1 entry.2 : Coordinating D PUnit)
      (fun _ current fleet => current = (entries.map Prod.fst).foldl (takeOver full) state ∧ holds fleet)
        raised := by
  refine Client.Ensures.imp (Client.Ensures.forM
    (fun earlier current fleet => current = (earlier.map Prod.fst).foldl (takeOver full) state ∧ holds fleet)
    fun earlier entry later whole => ?_) (fun _ _ holds => holds) (fun _ _ _ holds => holds)
      fun _ _ _ holds => holds
  have isSize := each entry (whole ▸ List.mem_append_right _ List.mem_cons_self)
  unfold settle
  rw [isSize]
  apply Client.Ensures.modify
  rintro current fleet ⟨rfl, here⟩
  refine ⟨?_, here⟩
  rw [List.map_append, List.foldl_append]
  rfl

/-! ## One round -/

/-- All replicas of a shard have the same writes. -/
def evenly (deployment : Deployment) (base : Nat → List Write) (id : ReplicaId) : History :=
  ⟨deployment.params id.shard, base id.shard⟩

/-- The copies while the requests of a round are under way. -/
def roundCopies (base : Nat → List Write) (requests : Nat → Option AddRequest) (shard : Nat) : Copies Write :=
  ⟨base shard, (requests shard).bind AddRequest.write⟩

theorem roundCopies_idle (base : Nat → List Write) {requests : Nat → Option AddRequest} {shard : Nat}
    (idle : requests shard = none) : (roundCopies base requests shard).all = base shard := by
  unfold roundCopies Copies.all
  rw [idle]
  exact List.append_nil _

theorem roundCopies_sent (base : Nat → List Write) {requests : Nat → Option AddRequest} {shard : Nat}
    {request : AddRequest} {write : Write} (isRequest : requests shard = some request)
    (isWrite : request.write = some write) :
    (roundCopies base requests shard).all = base shard ++ [write] := by
  unfold roundCopies Copies.all
  rw [isRequest, Option.bind_some, isWrite]
  rfl

/-- How many vectors each shard comes to hold. -/
def fullSizes (copies : Nat → Copies Write) (shard : Nat) : Nat := (copies shard).ids.length

/-- What is known when the answers of a round have arrived. -/
structure AfterRound (np : Numpy Float32Bits D G) (npz : Npz G) (deployment : Deployment)
    (copies : Nat → Copies Write)
    (targets : List ReplicaId) (reported : Reported) (histories : ReplicaId → History) (fleet : Fleet G) :
    Prop where
  settled : Settled np npz deployment histories fleet
  copied : Copied deployment copies histories
  sound : reported.failure = none → reported.Sound (fullSizes copies) (targets.map ReplicaId.shard)
  taken : reported.failure = none → ∀ id ∈ targets,
    (histories id).writes = (copies id.shard).all ∧ (copies id.shard).extra ≠ none

/-- When all answers have arrived the round has ended. -/
theorem Flying.ends (flying : Flying np npz deployment copies first targets fleet)
    {answers : List (Except RpcError AddResponse)} (arrived : Arrived first answers fleet)
    (count : answers.length = targets.length) (members : ∀ id ∈ targets, deployment.Member id) :
    ∃ histories, AfterRound np npz deployment copies targets
      (Reported.gather ⟨Dict.empty, none⟩ (targets.zip answers)) histories fleet := by
  have resolved : fleet.Resolved := by
    intro flight member waits
    rcases List.mem_iff_getElem?.mp member with ⟨handle, isFlight⟩
    have started := (flying.afloat.waiting handle flight isFlight waits).1
    have inside : handle < fleet.flights.length := (List.getElem?_eq_some_iff.mp isFlight).1
    rw [flying.length] at inside
    have answered : handle - first < answers.length := by omega
    rcases arrived _ _ (List.getElem?_eq_getElem answered) with ⟨other, isOther, ended⟩
    rw [Nat.add_sub_cancel' started] at isOther
    cases isFlight.symm.trans isOther
    rw [waits] at ended
    cases ended
  rcases flying.afloat.settles resolved with ⟨histories, settled, copied, stands⟩
  have heard : ∀ id response, (id, Except.ok response) ∈ targets.zip answers →
    fleet.Heard first id response := by
    intro id response member
    rcases List.mem_iff_getElem?.mp member with ⟨place, both⟩
    rcases List.getElem?_zip_eq_some.mp both with ⟨isTarget, isAnswer⟩
    rcases arrived place _ isAnswer with ⟨flight, isFlight, ended⟩
    have own := flying.flight isFlight
    rw [isTarget] at own
    exact ⟨first + place, flight, Nat.le_add_right _ _, isFlight, (Option.some.inj own).symm, ended⟩
  have sized : ∀ entry ∈ targets.zip answers, ∀ response, entry.2 = .ok response →
      response.size = fullSizes copies entry.1.shard := by
    rintro ⟨id, answer⟩ member response rfl
    have isTarget := (List.of_mem_zip member).1
    exact ((stands id (members id isTarget)).heard response (heard id response member)).2.2
  have spec := @Reported.gather_sound (fullSizes copies) (targets.zip answers) sized
    ⟨Dict.empty, none⟩ [] (Reported.empty_sound _)
  refine ⟨histories, settled, copied, fun succeeded => ?_, fun succeeded id member => ?_⟩
  · have sound := (spec succeeded).1
    have shards : (targets.zip answers).map (fun entry => entry.1.shard) = targets.map ReplicaId.shard := by
      have firsts := List.map_fst_zip (le_of_eq count.symm)
      calc (targets.zip answers).map (fun entry => entry.1.shard)
          = ((targets.zip answers).map Prod.fst).map ReplicaId.shard := List.map_map.symm
        _ = targets.map ReplicaId.shard := by rw [firsts]
    rw [List.nil_append, shards] at sound
    exact sound
  · rcases List.mem_iff_getElem?.mp member with ⟨place, isTarget⟩
    have inside : place < answers.length := count ▸ (List.getElem?_eq_some_iff.mp isTarget).1
    have both : (id, answers[place]) ∈ targets.zip answers :=
      List.mem_of_getElem? (List.getElem?_zip_eq_some.mpr ⟨isTarget, List.getElem?_eq_getElem inside⟩)
    rcases (spec succeeded).2.2 _ both with ⟨response, isResponse⟩
    change answers[place] = _ at isResponse
    rw [isResponse] at both
    rcases (stands id (members id member)).heard response (heard id response both) with ⟨whole, some, _⟩
    exact ⟨whole, some⟩

/-- The group of every shard has a replica. -/
theorem Deployed.first_member {state : GrpcCoordinator} (deployed : state.Deployed deployment) {shard : Nat}
    (inside : shard < deployment.sizes.length) : ⟨shard, 0⟩ ∈ deployment.group shard := by
  have isInside : shard < state.replicas.length := inside.trans_eq deployed.numShards.symm
  have some := deployed.nonempty _ (List.getElem_mem isInside)
  rw [← deployed.replicasOf]
  refine List.mem_map.mpr ⟨0, List.mem_range.mpr ?_, rfl⟩
  rw [List.getElem?_eq_getElem isInside, Option.getD_some]
  exact List.length_pos_iff.mpr some

theorem member_inside {id : ReplicaId} (member : deployment.Member id) :
    id.shard < deployment.sizes.length := by
  unfold Deployment.Member Deployment.group at member
  rcases List.mem_map.mp member with ⟨place, inside, _⟩
  by_contra outside
  rw [List.getElem?_eq_none_iff.mpr (Nat.le_of_not_lt outside)] at inside
  exact absurd (List.mem_range.mp inside) (Nat.not_lt_zero _)

/-- All requests of a round have ended. -/
def Ended (np : Numpy Float32Bits D G) (npz : Npz G) (deployment : Deployment) (copies : Nat → Copies Write)
    (state : GrpcCoordinator) (targets : List ReplicaId) (reported : Reported) (histories : ReplicaId → History)
    (current : GrpcCoordinator) (fleet : Fleet G) : Prop :=
  current = state ∧ AfterRound np npz deployment copies targets reported histories fleet

/-- A round that returns has given every replica the write of its shard, and one
that raises has given it to some. -/
theorem addChunk_ensures (steady : np.Steady) {base : Nat → List Write}
    {batches : List (RoutedBatch Float32Bits)} {start count : Nat} {requests : Nat → Option AddRequest}
    (isRound : requests = requestsOf batches deployment.dim start count fun shard => (base shard).length)
    (carries : ∀ shard request, requests shard = some request →
      ∃ vectors, request.Carries vectors ∧ vectors.dim = deployment.dim)
    (good : ∀ first fleet, Afloat np npz deployment (roundCopies base requests) first fleet → always fleet)
    {state : GrpcCoordinator} (deployed : state.Deployed deployment)
    (whole : batches.length = deployment.sizes.length)
    (positions : ∀ shard < batches.length, state.lastSeqs[shard]? = some (.agreed (base shard).length)) :
    Client.Ensures (writeNetwork np npz deployment) always
      (Meets np npz deployment (evenly deployment base) (· = state))
      (addChunk batches deployment.dim count start : Coordinating D PUnit)
      (fun _ current fleet =>
        Meets np npz deployment (evenly deployment fun shard => (roundCopies base requests shard).all)
          (fun current => current.replicas = state.replicas ∧ current.size = state.size ∧
            current.lastSeqs.length = state.lastSeqs.length ∧ ∀ shard < batches.length,
              current.lastSeqs[shard]? = some (.agreed (roundCopies base requests shard).all.length))
                current fleet ∧
        ∀ shard request, requests shard = some request → ∃ write, request.write = some write)
      fun _ current fleet => current = state.forget ∧ ∃ histories, Settled np npz deployment histories fleet ∧
        Copied deployment (roundCopies base requests) histories := by
  have inRange : ∀ shard request, requests shard = some request → shard < batches.length := by
    intro shard request isRequest
    rw [isRound] at isRequest
    rcases Option.bind_eq_some_iff.mp isRequest with ⟨batch, isBatch, _⟩
    exact (List.getElem?_eq_some_iff.mp isBatch).1
  have due : ∀ shard request, requests shard = some request →
      request.Due deployment.dim (roundCopies base requests shard) := by
    intro shard request isRequest
    refine ⟨carries shard request isRequest, ?_, ?_⟩
    · rw [isRound] at isRequest
      rcases Option.bind_eq_some_iff.mp isRequest with ⟨batch, _, given⟩
      unfold requestFor at given
      split at given
      · cases given
      · rw [← Option.some.inj given]
        rfl
    · intro write isWrite
      unfold roundCopies
      rw [isRequest]
      exact isWrite
  have planned : ∀ place batch, batches[place]? = some batch →
      requests (0 + place) = requestFor deployment.dim start count (base (0 + place)).length batch := by
    intro place batch isBatch
    rw [Nat.zero_add, isRound, requestsOf, isBatch]
    rfl
  have copied : Copied deployment (roundCopies base requests) (evenly deployment base) :=
    fun id _ => ⟨rfl, Copies.has_base _⟩
  suffices flight : ∀ first, Client.Ensures (writeNetwork np npz deployment) always
      (Sending np npz deployment (roundCopies base requests) first state [])
      (addChunk batches deployment.dim count start : Coordinating D PUnit) _ _ by
    refine (Client.Ensures.some flight).imp ?_ (fun _ _ _ holds => holds) fun _ _ _ holds => holds
    rintro current fleet ⟨same, settled⟩
    refine ⟨fleet.flights.length, same, settled.afloat copied, ?_⟩
    exact List.drop_of_length_le (le_of_eq (List.length_map _))
  intro first
  refine Client.Ensures.bind (sendChunk_ensures steady good deployed due batches 0
    (fun place inside => by
      rw [Nat.zero_add]
      exact positions place inside) planned []) fun calls => ?_
  apply Client.Ensures.given
  rintro rfl
  rw [← List.range_eq_range', List.nil_append]
  have members : ∀ id ∈ targetsOf deployment requests (List.range batches.length), deployment.Member id :=
    fun id member => (mem_targetsOf.mp member).2.2
  refine Client.Ensures.bind ((waitFor_ensures steady good _ [] ⟨Dict.empty, none⟩).imp
    (fun _ _ holds => ⟨holds, fun place answer impossible => by cases impossible⟩)
    (fun _ _ _ holds => holds) fun _ _ _ holds => holds) fun reported => ?_
  refine Client.Ensures.imp (Client.Ensures.some fun histories => ?ends) (fun current fleet holds =>
    show ∃ histories, Ended np npz deployment (roundCopies base requests) state
      (targetsOf deployment requests (List.range batches.length)) reported histories current fleet from
        ?arrives)
    (fun _ _ _ holds => holds) fun _ _ _ holds => holds
  case arrives =>
    rcases holds with ⟨more, ⟨⟨same, flying⟩, arrived⟩, count, rfl⟩
    rw [List.nil_append] at arrived
    rcases flying.ends arrived count members with ⟨histories, after⟩
    exact ⟨histories, same, after⟩
  case ends =>
    cases failure : reported.failure with
    | some error =>
        refine Client.Ensures.through (fun _ current fleet => current = state.forget ∧ ∃ histories,
          Settled np npz deployment histories fleet ∧ Copied deployment (roundCopies base requests)
            histories) ?_ fun _ => ?_
        · apply Client.Ensures.modify
          rintro current fleet ⟨rfl, after⟩
          exact ⟨rfl, histories, after.settled, after.copied⟩
        · exact Client.Ensures.throw fun _ _ holds => holds
    | none =>
        refine Client.Ensures.imp (Client.Ensures.given fun facts => ?takes) (fun current fleet holds =>
          show (current = state ∧ Settled np npz deployment
              (evenly deployment fun shard => (roundCopies base requests shard).all) fleet) ∧
            (reported.Sound (fullSizes (roundCopies base requests))
              ((targetsOf deployment requests (List.range batches.length)).map ReplicaId.shard) ∧
            ∀ shard request, requests shard = some request → ∃ write, request.write = some write) from ?agree)
          (fun _ _ _ holds => holds) fun _ _ _ holds => holds
        case agree =>
          rcases holds with ⟨same, after⟩
          have taken := after.taken failure
          refine ⟨⟨same, after.settled.congr fun id member => ?_⟩, after.sound failure,
            fun shard request isRequest => ?_⟩
          · cases isRequest : requests id.shard with
            | none =>
                rcases (after.copied id member).has.cases with isBase | ⟨write, isExtra, _⟩
                · ext1
                  · exact (after.copied id member).params
                  · rw [isBase]
                    exact (roundCopies_idle base isRequest).symm
                · unfold roundCopies at isExtra
                  rw [isRequest] at isExtra
                  cases isExtra
            | some request =>
                have isTarget := mem_targetsOf.mpr
                  ⟨List.mem_range.mpr (inRange _ _ isRequest), Option.isSome_iff_exists.mpr
                    ⟨request, isRequest⟩, member⟩
                ext1
                · exact (after.copied id member).params
                · exact (taken id isTarget).1
          · have isReplica := deployed.first_member (whole ▸ inRange shard request isRequest)
            have isTarget : ⟨shard, 0⟩ ∈ targetsOf deployment requests (List.range batches.length) := by
              rw [mem_targetsOf, isRequest]
              exact ⟨List.mem_range.mpr (inRange shard request isRequest), rfl,
                deployment.member_of_group isReplica⟩
            have some := (taken _ isTarget).2
            unfold roundCopies at some
            rw [isRequest] at some
            exact Option.ne_none_iff_exists'.mp some
        case takes =>
          rcases facts with ⟨sound, written⟩
          refine (settleAll_ensures sound.sizes).imp (fun _ _ holds => holds) ?_ fun _ _ _ holds => holds
          rintro _ current fleet ⟨rfl, settled⟩
          rcases takeOver_kept (fullSizes (roundCopies base requests))
            (reported.sizes.entries.map Prod.fst) state with ⟨replicas, size, length⟩
          refine ⟨⟨⟨replicas, size, length, fun shard inside => ?_⟩, settled⟩, written⟩
          rw [takeOver_lastSeqs _ _ reported.sizes.distinct, positions shard inside]
          have keys : shard ∈ reported.sizes.entries.map Prod.fst ↔ (requests shard).isSome = true := by
            refine (sound.keys shard).trans ?_
            constructor
            · intro member
              rcases List.mem_map.mp member with ⟨id, isTarget, rfl⟩
              exact (mem_targetsOf.mp isTarget).2.1
            · intro some
              have isReplica := deployed.first_member (whole ▸ inside)
              refine List.mem_map.mpr ⟨⟨shard, 0⟩, mem_targetsOf.mpr ?_, rfl⟩
              exact ⟨List.mem_range.mpr inside, some, deployment.member_of_group isReplica⟩
          cases isRequest : requests shard with
          | none =>
              rw [isRequest] at keys
              rw [if_neg fun member => absurd (keys.mp member) Bool.false_ne_true,
                roundCopies_idle base isRequest]
          | some request =>
              rw [isRequest] at keys
              rcases written shard request isRequest with ⟨write, isWrite⟩
              rw [if_pos (keys.mpr rfl), roundCopies_sent base isRequest isWrite, List.length_append]
              rfl

end GrpcCoordinator
end VectorSearch
